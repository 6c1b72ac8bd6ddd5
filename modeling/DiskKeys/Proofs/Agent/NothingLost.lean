import DiskKeys.Proofs.Agent.Run

/-! # No request is lost

    Between polls the agent relies on three things together: what is in the
    directory, what is in the queue, and what it has seen.  The invariant
    is that every regular file in the watched directory that bears the name
    of a request has been seen, or the queue tells of it.  Taking stock
    establishes it, however much has changed since the watch was set;
    changes keep it, for the watch is told of every file that appears; and
    a poll keeps it, for it sees whatever it takes out of the queue, and
    looks through the whole directory when events are missing
    (`Serving.covered`).  So a poll that empties the queue leaves nothing
    unseen (`no_request_lost`). -/

namespace DiskKeys

namespace World

/-- A regular file is in the directory that a path leads to. -/
def HasFile (w : World) (p : Path) (name : Name) : Prop :=
  ∃ dir mode contents, w.tree.resolve p = .ok (dir, .directory) ∧
    w.tree.node? (dir ++ [name]) = some (.file mode contents)

end World

namespace Surroundings

/-- The path leads to a directory, and that is still the one that the watch
    was set on. -/
def Attends (s : Surroundings) (p : Path) : Prop :=
  ∃ dir rules queue, s.watch = some ⟨some dir, rules, queue⟩ ∧
    s.world.tree.resolve p = .ok (dir, .directory)

/-- The watch is set, and no events are left in its queue. -/
def Drained (s : Surroundings) : Prop :=
  ∃ target rules, s.watch = some ⟨target, rules, .empty⟩

end Surroundings

namespace Agent

/-- The agent need not be told of a name: it is no text, or not that of a
    request, or it has been seen. -/
def Settled (a : Agent) (name : Name) : Prop :=
  ∀ id, Text.Utf8.decode? name = some id → a.isRequest id = true → a.hasSeen id = true

theorem Settled.perform {a : Agent} {name : Name} (h : a.Settled name) (w : World)
    (acts : List Act) : (a.perform w acts).Settled name := by
  intro id htext hreq
  rw [isRequest_congr (settings_perform w a acts)] at hreq
  exact hasSeen_perform w acts (h id htext hreq)

/-! ## What is seen -/

/-- A scan of the directory takes up every request in it. -/
theorem mem_rescanActs {a : Agent} {w : World} {dir : Location} {name : Name} {id : String}
    (hdir : w.tree.resolve a.settings.askDir = .ok (dir, .directory))
    (hnode : w.tree.node? (dir ++ [name]) ≠ none) (htext : Text.Utf8.decode? name = some id)
    (hreq : a.isRequest id = true) (answer : Bool) :
    takeUpAct answer id ∈ a.rescanActs w answer := by
  have hlist : w.tree.list a.settings.askDir = .ok (w.tree.names dir) := by
    simp only [FileTree.list, hdir, Except.ok_bind, Except.pure_eq_ok]
  obtain ⟨pending, hpending, hmem⟩ := pendingRequests_eq_ok hlist
  rw [rescanActs, hpending]
  exact List.mem_map_of_mem ((hmem id).mpr ⟨⟨name, FileTree.mem_names.mpr hnode, htext⟩, hreq⟩)

/-- Taking stock sees every request in the directory. -/
theorem settled_takeStock {a : Agent} {w : World} {dir : Location} {name : Name}
    (hdir : w.tree.resolve a.settings.askDir = .ok (dir, .directory))
    (hnode : w.tree.node? (dir ++ [name]) ≠ none) : (a.takeStock w).1.Settled name := by
  intro id htext hreq
  rw [isRequest_congr (settings_takeStock a w)] at hreq
  rw [agent_takeStock]
  have hmem := mem_rescanActs hdir hnode htext hreq a.settings.answerExisting
  have hseen := hasSeen_perform_of_mem w hmem (by rwa [name_takeUpAct])
  rwa [name_takeUpAct] at hseen

/-- Acting on notices sees every request that they are about, and all that
    is in the directory if they say that others are missing. -/
theorem settled_noticeActs {a : Agent} {w : World} {notices : List Notice} {dir : Location}
    {name : Name} {id : String} (hdir : w.tree.resolve a.settings.askDir = .ok (dir, .directory))
    (hnode : w.tree.node? (dir ++ [name]) ≠ none) (htext : Text.Utf8.decode? name = some id)
    (h : .changed id ∈ notices ∨ .overflow ∈ notices) :
    (a.perform w (notices.flatMap (a.noticeActs w))).Settled name := by
  intro id' htext' hreq
  cases htext.symm.trans htext'
  rw [isRequest_congr (settings_perform w a _)] at hreq
  have hmem : .handle id ∈ notices.flatMap (a.noticeActs w) := by
    rcases h with hchanged | hoverflow
    · exact List.mem_flatMap.mpr ⟨_, hchanged, List.mem_singleton.mpr rfl⟩
    · exact List.mem_flatMap.mpr ⟨_, hoverflow, mem_rescanActs hdir hnode htext hreq true⟩
  exact hasSeen_perform_of_mem w hmem hreq

end Agent

namespace Scene

/-- What has come of an agent whose watch was set in a file system, where
    every node lies in a directory: other things could change until it took
    stock, and from then on changes, names that it was told of, and polls
    follow each other in any order.  Whenever it takes stock or polls, the
    directory is still the one that is watched. -/
inductive Serving : Scene → Prop where
  | start {a : Agent} {s watched later : Surroundings} (htree : s.world.tree.WellFormed)
      (hwatch : s.startWatch a.settings.askDir = .ok watched) (hwindow : watched.Becomes later)
      (hthere : later.Attends a.settings.askDir) :
      Serving ⟨(a.takeStock later.world).1, later⟩
  | around {c : Scene} {s : Surroundings} (h : Serving c) (hchanges : c.around.Becomes s) :
      Serving { c with around := s }
  | handle {c : Scene} (h : Serving c) (name : String) : Serving (c.step (.handle name)).1
  | poll {c : Scene} (h : Serving c) (hthere : c.around.Attends c.agent.settings.askDir) :
      Serving (c.step .poll).1

/-- An agent that has just been started is serving. -/
theorem serving_of_watch {a a' : Agent} {s s' : Surroundings} {report : Report}
    (htree : s.world.tree.WellFormed) (h : a.watch s = .ok (s', a', report))
    (hthere : s'.Attends a.settings.askDir) : Serving ⟨a', s'⟩ := by
  simp only [Agent.watch, Except.bind_eq_ok, Except.mapError_eq_ok, Except.pure_eq_ok,
    Except.ok.injEq, Prod.mk.injEq] at h
  obtain ⟨watched, hwatch, rfl, hstock⟩ := h
  have hagent : a' = (a.takeStock watched.world).1 := by rw [hstock]
  rw [hagent]
  exact .start htree hwatch .refl hthere

/-! ## The invariant -/

/-- What a poll leaves around the agent. -/
theorem around_poll {c : Scene} {watch : Watch} (h : c.around.watch = some watch) :
    (c.step .poll).1.around
      = { c.around with watch := some { watch with queue := watch.queue.drain.2 } } := by
  simp only [step, Agent.pollIn, h]
  rfl

/-- The agent that a poll leaves. -/
theorem agent_poll {c : Scene} {watch : Watch} (h : c.around.watch = some watch) :
    (c.step .poll).1.agent
      = c.agent.perform c.world (watch.queue.drain.1.flatMap (c.agent.noticeActs c.world)) := by
  have hacts := (c.performs_step .poll).agent
  simp only [acts, notices, h] at hacts
  exact hacts

/-- A poll keeps the bargain: what it takes out of the queue it sees. -/
theorem covered_poll {c : Scene} (h : c.around.Covered c.agent.Settled)
    (hthere : c.around.Attends c.agent.settings.askDir) :
    (c.step .poll).1.around.Covered (c.step .poll).1.agent.Settled := by
  obtain ⟨dir, rules, queue, hwatch, hdir⟩ := hthere
  rw [around_poll hwatch, agent_poll hwatch]
  refine ⟨h.wellFormed, ?_⟩
  intro w hw
  cases hw
  have hcovers := h.covers hwatch
  refine ⟨hcovers.directory, ?_⟩
  intro target htarget name mode contents hfile
  cases htarget
  rcases hcovers.told rfl hfile with hsettled | htells
  · exact Or.inl (hsettled.perform c.world _)
  · -- the queue told of the file: it is read of now, or the queue still tells
    cases htext : Text.Utf8.decode? name with
    | none => exact Or.inl fun id hid => nomatch htext.symm.trans hid
    | some id =>
        have hnode : c.world.tree.node? (dir ++ [name]) ≠ none := by
          show c.around.world.tree.node? _ ≠ none
          rw [hfile]
          exact nofun
        rcases htells.drain htext with hchanged | hoverflow | hlater
        · exact Or.inl (Agent.settled_noticeActs hdir hnode htext (Or.inl hchanged))
        · exact Or.inl (Agent.settled_noticeActs hdir hnode htext (Or.inr hoverflow))
        · exact Or.inr hlater

/-- Taking stock makes the bargain, whatever the queue holds. -/
theorem covered_takeStock {a : Agent} {s : Surroundings} (htree : s.world.tree.WellFormed)
    (hthere : s.Attends a.settings.askDir) : s.Covered (a.takeStock s.world).1.Settled := by
  obtain ⟨dir, rules, queue, hwatch, hdir⟩ := hthere
  refine ⟨htree, ?_⟩
  intro w hw
  cases hwatch.symm.trans hw
  constructor
  · intro dir' hdir'
    cases hdir'
    exact FileTree.node?_of_resolve hdir
  · intro dir' hdir' name mode contents hfile
    cases hdir'
    exact Or.inl (Agent.settled_takeStock hdir (by rw [hfile]; exact nofun))

/-- The invariant of a serving agent. -/
theorem Serving.covered {c : Scene} (h : Serving c) : c.around.Covered c.agent.Settled := by
  induction h with
  | start htree hwatch hwindow hthere =>
      -- nothing is known of what the queue has missed so far, and nothing need be
      rw [← world_startWatch hwatch] at htree
      exact covered_takeStock (hwindow.wellFormed htree) hthere
  | around _ hchanges ih => exact hchanges.covered ih
  | @handle c _ name ih => exact ih.mono fun hsettled => hsettled.perform c.world [.handle name]
  | poll _ hthere ih => exact covered_poll ih hthere

/-- **No request is lost.**  However the directory changes while the agent
    serves, also between the setting of the watch and the taking of stock,
    however few events the queue takes and however many merge or are lost:
    after a poll that leaves the queue empty, every regular file in the
    directory whose name is text and that of a request has been seen. -/
theorem no_request_lost {c : Scene} (h : Serving c)
    (hthere : c.around.Attends c.agent.settings.askDir)
    (hdrained : (c.step .poll).1.around.Drained) {file : Name} {id : String}
    (hfile : (c.step .poll).1.world.HasFile c.agent.settings.askDir file)
    (htext : Text.Utf8.decode? file = some id) (hreq : c.agent.isRequest id = true) :
    (c.step .poll).1.agent.hasSeen id = true := by
  have hcovered := covered_poll h.covered hthere
  obtain ⟨dir, rules, queue, hwatch, hdir⟩ := hthere
  obtain ⟨target, rules', hempty⟩ := hdrained
  obtain ⟨dir', mode, contents, hdir', hnode⟩ := hfile
  have haround := around_poll hwatch
  have htarget : target = some dir := by
    have hsame := hempty
    rw [haround] at hsame
    exact (congrArg Watch.target (Option.some.inj hsame)).symm
  have hsame : dir' = dir := by
    rw [world, haround] at hdir'
    cases hdir.symm.trans hdir'
    rfl
  subst htarget hsame
  rcases (hcovered.covers hempty).told rfl hnode with hsettled | htells
  · refine hsettled id htext ?_
    rwa [Agent.isRequest_congr (c.settings_step .poll)]
  · exact absurd htells (EventQueue.not_tells_empty file)

/-- A queue that takes one event before it overflows. -/
def oneEvent : QueueRules := { limit := 1 }

/-- The surroundings of the specimen, where the queue of a watch takes one
    event. -/
def cramped : Surroundings :=
  { specimen.around with rules := oneEvent }

/-- Its agent has set its watch and, before it takes stock, another request
    has come and filled the queue. -/
def awaited : Surroundings :=
  { cramped with watch := some ⟨some [Text.Utf8.encode "ask"], oneEvent, .empty⟩ }
    |>.attempt (.put (.ofString "ask/ask.2") [])

/-- The specimen after its agent has taken stock and yet another request
    has come, of which the queue does not tell. -/
def attended : Scene where
  agent := (specimen.agent.takeStock awaited.world).1
  around := awaited.attempt (.put (.ofString "ask/ask.3") [])

theorem serving_attended : attended.Serving := by
  have htree : cramped.world.tree.WellFormed :=
    becomes_specimen.wellFormed FileTree.wellFormed_empty
  have hwatch : cramped.startWatch specimen.agent.settings.askDir
      = .ok { cramped with watch := some ⟨some [Text.Utf8.encode "ask"], oneEvent, .empty⟩ } := by
    decide +kernel
  have hthere : awaited.Attends specimen.agent.settings.askDir :=
    ⟨[Text.Utf8.encode "ask"], oneEvent, ⟨#[⟨.written, some (Text.Utf8.encode "ask.2")⟩]⟩,
      by decide +kernel, by decide +kernel⟩
  exact .around (.start htree hwatch (Surroundings.becomes_attempt _ _) hthere)
    (Surroundings.becomes_attempt _ _)

/-- The request that came last is seen by the poll, though no notice is about
    it: the queue says that others are missing. -/
theorem no_request_lost_attended :
    attended.notices = [.changed "ask.2", .overflow] ∧
    (attended.step .poll).1.around.Drained ∧
    (attended.step .poll).1.agent.hasSeen "ask.3" = true := by
  have hsettings : attended.agent.settings = specimen.agent.settings :=
    Agent.settings_takeStock specimen.agent awaited.world
  have hthere : attended.around.Attends attended.agent.settings.askDir := by
    rw [hsettings]
    exact ⟨[Text.Utf8.encode "ask"], oneEvent, ⟨#[⟨.written, some (Text.Utf8.encode "ask.2")⟩,
      EventQueue.overflowed]⟩, by decide +kernel, by decide +kernel⟩
  have hdrained : (attended.step .poll).1.around.Drained :=
    ⟨some [Text.Utf8.encode "ask"], oneEvent, by decide +kernel⟩
  have hfile : (attended.step .poll).1.world.HasFile attended.agent.settings.askDir
      (Text.Utf8.encode "ask.3") := by
    rw [hsettings]
    exact ⟨[Text.Utf8.encode "ask"], FileTree.plainMode, [], by decide +kernel, by decide +kernel⟩
  have hreq : attended.agent.isRequest "ask.3" = true := by
    rw [Agent.isRequest_congr hsettings]
    decide +kernel
  exact ⟨by decide +kernel, hdrained,
    no_request_lost serving_attended hthere hdrained hfile (by decide +kernel) hreq⟩

end Scene

end DiskKeys
