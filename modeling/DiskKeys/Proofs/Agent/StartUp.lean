import DiskKeys.Proofs.Agent.OnceOnly

/-! # Requests that are there when the agent starts

    An agent that is not set up to answer them leaves the requests that it
    finds to others: its scan comes to acts of leaving alone, which send
    nothing and mark exactly the pending requests as seen
    (`hasSeen_takeStock`, `sent_takeStock`).  From then on they have no
    allowance left, and whatever happens to their files and however often
    the agent is told of them, nothing is sent on their behalf
    (`pending_never_answered`). -/

namespace DiskKeys

namespace Agent

/-! ## Names that are left to others in a row -/

/-- Exactly the names that are left to others become seen. -/
theorem hasSeen_perform_leave (w : World) (a : Agent) (names : List String) (id : String) :
    (a.perform w (names.map .leave)).hasSeen id = true ↔ a.hasSeen id = true ∨ id ∈ names := by
  induction names generalizing a with
  | nil => simp
  | cons name rest ih =>
      rw [List.map_cons, perform_cons, ih, act, hasSeen_markSeen, List.mem_cons, or_assoc]

/-- Nothing is handled when names are left to others. -/
theorem ledger_leave (w : World) (a : Agent) (names : List String) :
    a.ledger w (names.map .leave) = [] := by
  induction names generalizing a with
  | nil => rfl
  | cons name rest ih => exact ih (a.markSeen name)

/-! ## Taking stock without answering -/

/-- The scan of an agent that answers nothing that is there already leaves
    all of it to others. -/
theorem takeStockActs_eq {a : Agent} {w : World} (hset : a.settings.answerExisting = false) :
    ∃ names : List String,
      a.rescanActs w a.settings.answerExisting = names.map .leave ∧
      ∀ pending, a.pendingRequests w = .ok pending → names = pending := by
  rw [hset, rescanActs]
  cases hpending : a.pendingRequests w with
  | error e =>
      refine ⟨[], rfl, ?_⟩
      rintro pending ⟨⟩
  | ok pending => exact ⟨pending, rfl, fun _ heq => Except.ok.inj heq⟩

/-- Taking stock marks exactly the pending requests as seen. -/
theorem hasSeen_takeStock {a : Agent} {w : World} (hset : a.settings.answerExisting = false)
    {names : List Name} (hlist : w.tree.list a.settings.askDir = .ok names) (id : String) :
    (a.takeStock w).1.hasSeen id = true ↔ a.hasSeen id = true ∨
      ((∃ name ∈ names, Text.Utf8.decode? name = some id) ∧ a.isRequest id = true) := by
  obtain ⟨left, hacts, hleft⟩ := takeStockActs_eq (w := w) hset
  obtain ⟨pending, hpending, hmem⟩ := pendingRequests_eq_ok hlist
  rw [agent_takeStock, hacts, hasSeen_perform_leave, hleft pending hpending, hmem]

/-- Taking stock sends nothing. -/
theorem sent_takeStock {a : Agent} {w : World} (hset : a.settings.answerExisting = false) :
    (a.takeStock w).2.sent = [] := by
  obtain ⟨left, hacts, -⟩ := takeStockActs_eq (w := w) hset
  rw [(performs_takeStock w a).sent, hacts, ledger_leave]
  rfl

/-- An agent that has set its watch has taken stock, and the world is as it
    was. -/
theorem watch_eq_ok {a a' : Agent} {s s' : Surroundings} {report : Report}
    (h : a.watch s = .ok (s', a', report)) :
    s'.world = s.world ∧ a.takeStock s.world = (a', report) := by
  obtain ⟨watched, hstart, hstock⟩ := Except.bind_eq_ok.mp h
  have hworld : watched.world = s.world :=
    Scene.world_startWatch (Except.mapError_eq_ok.mp hstart)
  have hpair : (watched, a.takeStock watched.world) = (s', a', report) := Except.ok.inj hstock
  obtain rfl : watched = s' := congrArg Prod.fst hpair
  refine ⟨hworld, ?_⟩
  rw [← hworld]
  exact congrArg Prod.snd hpair

end Agent

namespace Scene

/-- Nothing is ever sent on behalf of what has been seen. -/
theorem sentFor_eq_nil {c : Scene} {id : String} (h : c.agent.hasSeen id = true)
    (steps : List Step) : Handling.sentFor id (c.ledger steps) = [] := by
  have hpaid := c.length_sentFor_run_add_allowance_le steps id
  rw [Agent.allowance_of_hasSeen h] at hpaid
  exact List.length_eq_zero_iff.mp (by omega)

/-- **Requests that are there already are never answered** by an agent that
    is not set up to.  When it sets its watch it sends nothing; if the
    directory can be listed, it marks as seen exactly the names in it that
    are text and start with the prefix of requests, whether or not their
    files can be opened; and whatever happens from then on, of all that it
    sends nothing is sent on their behalf. -/
theorem pending_never_answered {a a' : Agent} {s s' : Surroundings} {report : Report}
    (hset : a.settings.answerExisting = false) (hwatch : a.watch s = .ok (s', a', report)) :
    report.sent = [] ∧
    (∀ names, s.world.tree.list a.settings.askDir = .ok names → ∀ id,
      a'.hasSeen id = true ↔ a.hasSeen id = true ∨
        ((∃ name ∈ names, Text.Utf8.decode? name = some id) ∧
          a.settings.requestPrefix.toList <+: id.toList)) ∧
    ∀ id, a'.hasSeen id = true → ∀ steps,
      Scene.sent ⟨a', s'⟩ steps = (Scene.ledger ⟨a', s'⟩ steps).flatMap Handling.sent ∧
      Handling.sentFor id (Scene.ledger ⟨a', s'⟩ steps) = [] := by
  obtain ⟨-, hstock⟩ := Agent.watch_eq_ok hwatch
  have hagent : a' = (a.takeStock s.world).1 := by rw [hstock]
  have hreport : report = (a.takeStock s.world).2 := by rw [hstock]
  refine ⟨by rw [hreport, Agent.sent_takeStock hset], ?_, ?_⟩
  · intro names hlist id
    rw [hagent, Agent.hasSeen_takeStock hset hlist, Agent.isRequest, List.isPrefixOf_iff_prefix]
  · intro id hseen steps
    exact ⟨sent_eq_flatMap_ledger _ steps, sentFor_eq_nil hseen steps⟩

/-- The specimen, but for its agent being set up not to answer what is there
    when it starts. -/
def reserved : Scene :=
  { specimen with
    agent := { specimen.agent with
      settings := { specimen.agent.settings with answerExisting := false } } }

/-- A request that was there is not answered even if its file is written
    anew and the agent is told of it and looks through the directory. -/
theorem pending_never_answered_reserved :
    (reserved.step .watch).2.sent = [] ∧
    (reserved.step .watch).1.agent.hasSeen "ask.1" = true ∧
    Handling.sentFor "ask.1" ((reserved.step .watch).1.ledger
      [.around ((reserved.step .watch).1.around.attempt (.put (.ofString "ask/ask.1")
        (Text.Utf8.encode "[Ask]\nSocket=s\nMessage=root\n"))), .poll, .handle "ask.1", .watch])
      = [] := by
  have hstart : ∃ watched, reserved.around.startWatch reserved.agent.settings.askDir = .ok watched :=
    ⟨{ reserved.around with watch := some ⟨some [Text.Utf8.encode "ask"], {}, .empty⟩ },
      by decide +kernel⟩
  obtain ⟨watched, hstart⟩ := hstart
  have hwatch : reserved.agent.watch reserved.around
      = .ok (watched, reserved.agent.takeStock watched.world) := by
    rw [Agent.watch, hstart]
    rfl
  have hstep : reserved.step .watch
      = (⟨(reserved.agent.takeStock watched.world).1, watched⟩,
        (reserved.agent.takeStock watched.world).2) := by
    rw [step, hwatch]
  have hset : reserved.agent.settings.answerExisting = false := rfl
  obtain ⟨hsilent, -, hnever⟩ := pending_never_answered hset hwatch
  have hseen : (reserved.step .watch).1.agent.hasSeen "ask.1" = true := by decide +kernel
  rw [hstep] at hseen ⊢
  exact ⟨hsilent, hseen, (hnever "ask.1" hseen _).2⟩

end Scene

end DiskKeys
