import Mathlib.Data.List.Forall2
import DiskKeys.Proofs.Agent.Run
import DiskKeys.Proofs.Agent.Secrecy

/-! # The bytes of the keys

    Take two runs with the same steps that differ in the bytes of key
    files, and in nothing else (`UpToKeys`).  If none of the names that are
    handled leads to a key file (`Handling.Apart`), then all that can be
    observed of a step is the same in both, as long as messages are read no
    further than their first byte (`observe_upToKeys`), and after the step
    the two still differ in nothing else (`step_upToKeys`).  Only a message
    that answers a request for a key whose bytes differ can differ behind
    its first byte (`Handling.upToKeys`).  By induction this holds of whole
    runs (`observations_upToKeys`). -/

namespace DiskKeys

/-- A location whose bytes are hidden: the file of a key is there, and not
    that of a key of any other than the hidden kinds. -/
def FileTree.Hides (t : FileTree) (keys : KeyKind → Path) (hidden : List KeyKind)
    (loc : Location) : Prop :=
  (∃ kind, t.fileOf? (keys kind) = some loc) ∧
    ∀ kind, t.fileOf? (keys kind) = some loc → kind ∈ hidden

/-- Worlds that differ at most in the bytes of keys of hidden kinds. -/
def World.UpToKeys (keys : KeyKind → Path) (hidden : List KeyKind) (w w' : World) : Prop :=
  w.Alike (w.tree.Hides keys hidden) w'

structure Surroundings.UpToKeys (keys : KeyKind → Path) (hidden : List KeyKind)
    (s s' : Surroundings) : Prop where
  world : s.world.UpToKeys keys hidden s'.world
  watch : s.watch = s'.watch
  rules : s.rules = s'.rules

/-- Setting a watch succeeds in both or fails for the same reason, and touches
    neither the worlds nor the rules. -/
theorem Surroundings.UpToKeys.startWatch {keys : KeyKind → Path} {hidden : List KeyKind}
    {s s' : Surroundings} (h : s.UpToKeys keys hidden s') (p : Path) :
    (s.startWatch p).Alike
      (fun r r' => r.watch = r'.watch ∧ r.rules = r'.rules ∧ r.world = s.world ∧
        r'.world = s'.world)
      (s'.startWatch p) := by
  unfold Surroundings.startWatch
  by_cases hnul : p.bytes.contains 0 = true
  · rw [if_pos hnul, if_pos hnul]
    exact .error _
  · rw [if_neg hnul, if_neg hnul]
    refine .bind (h.world.tree.resolve p) ?_
    rintro ⟨loc, node⟩ ⟨loc', node'⟩ ⟨hloc, -⟩
    cases hloc
    exact .ok ⟨by rw [h.rules], h.rules, rfl, rfl⟩

/-- Then the agent takes stock of worlds that are still what they were. -/
theorem Agent.watch_upToKeys {keys : KeyKind → Path} {hidden : List KeyKind}
    {s s' : Surroundings} (h : s.UpToKeys keys hidden s') (a : Agent) :
    (a.watch s).Alike
      (fun x y => x.1.UpToKeys keys hidden y.1 ∧ x.2 = a.takeStock s.world ∧
        y.2 = a.takeStock s'.world)
      (a.watch s') := by
  refine .bind ((h.startWatch a.settings.askDir).mapError _) ?_
  rintro r r' ⟨hwatch, hrules, hworld, hworld'⟩
  refine .ok ⟨⟨?_, hwatch, hrules⟩, by rw [hworld], by rw [hworld']⟩
  rw [hworld, hworld']
  exact h.world

/-! ## Handlings -/

namespace Handling

/-- The name that is handled does not lead to the file of a key. -/
def Apart (h : Handling) : Prop :=
  ∀ loc, h.world.tree.fileOf? (h.agent.requestPath h.name) = some loc →
    ∀ kind, h.world.tree.fileOf? (h.agent.keyPath kind) ≠ some loc

/-- The kind of key that is asked for, if the name is that of a file that
    holds a request which is in time. -/
def kind? (h : Handling) : Option KeyKind :=
  (h.agent.openRequest h.world h.name).toOption.map Agent.wanted

/-- Handlings of one name that differ at most in the message that answers a
    request for a key of a hidden kind. -/
structure UpToKeys (hidden : List KeyKind) (h h' : Handling) : Prop where
  name : h.name = h'.name
  kind : h.kind? = h'.kind?
  sent : (∀ kind ∈ hidden, h.kind? ≠ some kind) → h.sent = h'.sent

theorem Apart.shows {h : Handling} (hapart : h.Apart) (hidden : List KeyKind) :
    h.world.tree.Shows (h.world.tree.Hides h.agent.keyPath hidden)
      (h.agent.requestPath h.name) := by
  rintro loc hloc ⟨⟨kind, hkey⟩, -⟩
  exact hapart loc hloc kind hkey

theorem shows_keyPath {t : FileTree} {keys : KeyKind → Path} {hidden : List KeyKind}
    {kind : KeyKind} (h : kind ∉ hidden) : t.Shows (t.Hides keys hidden) (keys kind) := by
  rintro loc hloc ⟨-, hall⟩
  exact h (hall kind hloc)

theorem upToKeys {hidden : List KeyKind} {a : Agent} {w w' : World} {name : String}
    (hw : w.UpToKeys a.keyPath hidden w') (hapart : Apart ⟨a, w, name⟩) :
    UpToKeys hidden ⟨a, w, name⟩ ⟨a, w', name⟩ := by
  have hopen : a.openRequest w' name = a.openRequest w name :=
    Agent.openRequest_alike hw (hapart.shows hidden)
  refine ⟨rfl, by rw [kind?, kind?, hopen], ?_⟩
  -- a request for another key finds that key as it is in the first world
  intro hkind
  rw [Handling.sent, Handling.sent, Agent.sent_handle, Agent.sent_handle, Agent.messageFor?,
    Agent.messageFor?, hopen]
  rw [kind?] at hkind
  cases hres : a.openRequest w name with
  | error e => rfl
  | ok r =>
      rw [hres] at hkind
      have hshown : Agent.wanted r ∉ hidden := fun hmem => hkind _ hmem rfl
      simp only [Except.toOption_ok, Option.bind_some,
        Agent.message?_alike hw (shows_keyPath hshown)]

end Handling

namespace Agent

theorem clear_of_apart {w : World} {a : Agent} {acts : List Act} (hidden : List KeyKind)
    (h : ∀ x ∈ a.ledger w acts, x.Apart) : Clear (w.tree.Hides a.keyPath hidden) w a acts := by
  intro name hname
  obtain ⟨before, after, rfl⟩ := List.append_of_mem hname
  -- the acts before it have changed neither the settings nor the key files
  have hmem : ⟨a.perform w before, w, name⟩ ∈ a.ledger w (before ++ .handle name :: after) := by
    rw [ledger_append]
    exact List.mem_append_right _ List.mem_cons_self
  have hshows := (h _ hmem).shows hidden
  rwa [requestPath, settings_perform, keyPath_perform_eq] at hshows

theorem ledger_upToKeys {hidden : List KeyKind} {w w' : World} {a : Agent} {acts : List Act}
    (hw : w.UpToKeys a.keyPath hidden w') (h : ∀ x ∈ a.ledger w acts, x.Apart) :
    List.Forall₂ (Handling.UpToKeys hidden) (a.ledger w acts) (a.ledger w' acts) := by
  rw [ledger_world w w', List.forall₂_map_right_iff, List.forall₂_same]
  intro x hx
  have hapart := h x hx
  obtain ⟨before, after, -, heq⟩ := mem_ledger hx
  rw [heq] at hapart ⊢
  refine Handling.upToKeys ?_ hapart
  rwa [keyPath_perform_eq]

end Agent

namespace Scene

/-- Scenes with the same agent whose surroundings differ at most in the
    bytes of keys of hidden kinds. -/
structure UpToKeys (hidden : List KeyKind) (c c' : Scene) : Prop where
  agent : c.agent = c'.agent
  around : c.around.UpToKeys c.agent.keyPath hidden c'.around

/-- Steps that are the same, up to the bytes of keys of hidden kinds in what
    other programs leave behind. -/
inductive Step.UpToKeys (keys : KeyKind → Path) (hidden : List KeyKind) : Step → Step → Prop where
  | around {s s' : Surroundings} (h : s.UpToKeys keys hidden s') :
      UpToKeys keys hidden (.around s) (.around s')
  | handle (name : String) : UpToKeys keys hidden (.handle name) (.handle name)
  | watch : UpToKeys keys hidden .watch .watch
  | poll : UpToKeys keys hidden .poll .poll

/-! ## What can be observed -/

/-- What the agent makes known of the result of a step. -/
inductive Result where
  | none
  | handled (result : Except AgentError Handled)
  | watching (result : Except AgentError Unit)
  | polled (drained : Nat)

def result (c : Scene) : Step → Result
  | .around _ => .none
  | .handle name => .handled (c.agent.handle c.world name).result
  | .watch => .watching ((c.agent.watch c.around).map fun _ => ())
  | .poll => .polled (c.agent.pollIn c.around).1.drained

/-- An agent that sets its watch takes stock of the directory. -/
theorem acts_watch {c : Scene} {x : Surroundings × Agent × Report}
    (h : c.agent.watch c.around = .ok x) :
    c.acts .watch = c.agent.rescanActs c.world c.agent.settings.answerExisting := by
  obtain ⟨s, hstart, -⟩ := Except.bind_eq_ok.mp h
  rw [acts, Except.mapError_eq_ok.mp hstart]

theorem result_poll (c : Scene) : c.result .poll = .polled c.notices.length := by
  unfold result notices Agent.pollIn
  cases c.around.watch with
  | none => rfl
  | some watch => rfl

/-- What can be observed of a step without reading messages behind their
    first byte. -/
structure Observation where
  result : Result
  log : List LogLine
  sent : List Envelope
  /-- What has been seen after the step. -/
  seen : List String

def observe (c : Scene) (st : Step) : Observation where
  result := c.result st
  log := (c.step st).2.log
  sent := (c.step st).2.sent.map Datagram.envelope
  seen := (c.step st).1.agent.seen

/-- What can be observed of steps, one after the other. -/
def observations : Scene → List Step → List Observation
  | _, [] => []
  | c, st :: rest => c.observe st :: observations (c.step st).1 rest

variable {hidden : List KeyKind} {c c' : Scene} {st st' : Step}

theorem acts_upToKeys (h : c.UpToKeys hidden c') (hst : st.UpToKeys c.agent.keyPath hidden st') :
    c'.acts st' = c.acts st := by
  obtain ⟨a, s⟩ := c
  obtain ⟨a', s'⟩ := c'
  obtain ⟨rfl, haround : s.UpToKeys a.keyPath hidden s'⟩ := h
  cases hst with
  | around hs => rfl
  | handle name => rfl
  | watch =>
      have hstart := haround.startWatch a.settings.askDir
      simp only [acts, world, Agent.rescanActs_alike haround.world]
      generalize s.startWatch a.settings.askDir = x, s'.startWatch a.settings.askDir = x'
        at hstart ⊢
      cases hstart with
      | error e => rfl
      | ok hr => rfl
  | poll =>
      simp only [acts, world, notices, haround.watch, Agent.noticeActs_alike haround.world]

theorem around_upToKeys (h : c.UpToKeys hidden c')
    (hst : st.UpToKeys c.agent.keyPath hidden st') :
    (c.step st).1.around.UpToKeys c.agent.keyPath hidden (c'.step st').1.around := by
  obtain ⟨a, s⟩ := c
  obtain ⟨a', s'⟩ := c'
  obtain ⟨rfl, haround : s.UpToKeys a.keyPath hidden s'⟩ := h
  cases hst with
  | around hs => exact hs
  | handle name => exact haround
  | watch =>
      have hwatch := a.watch_upToKeys haround
      simp only [step]
      generalize a.watch s = x, a.watch s' = x' at hwatch ⊢
      cases hwatch with
      | error e => exact haround
      | ok hxy => exact hxy.1
  | poll =>
      simp only [step, Agent.pollIn, haround.watch]
      cases s'.watch with
      | none => exact haround
      | some watch => exact ⟨haround.world, rfl, haround.rules⟩

/-- After a step, the scenes still differ in nothing else. -/
theorem step_upToKeys (h : c.UpToKeys hidden c') (hst : st.UpToKeys c.agent.keyPath hidden st') :
    (c.step st).1.UpToKeys hidden (c'.step st').1 := by
  refine ⟨?_, ?_⟩
  · rw [agent_step, agent_step, acts_upToKeys h hst, ← h.agent,
      Agent.perform_world c.world c'.world]
  · rw [show (c.step st).1.agent.keyPath = c.agent.keyPath from funext (c.keyPath_step st)]
    exact around_upToKeys h hst

theorem report_upToKeys (h : c.UpToKeys hidden c') (hst : st.UpToKeys c.agent.keyPath hidden st')
    (hapart : ∀ x ∈ c.stepLedger st, x.Apart) :
    c.result st = c'.result st' ∧ (c.step st).2.Alike (c'.step st').2 := by
  have hclear := Agent.clear_of_apart hidden hapart
  obtain ⟨a, s⟩ := c
  obtain ⟨a', s'⟩ := c'
  obtain ⟨rfl, haround : s.UpToKeys a.keyPath hidden s'⟩ := h
  cases hst with
  | around hs => exact ⟨rfl, .refl _⟩
  | handle name =>
      have hhandle := Agent.handle_alike haround.world hclear
      exact ⟨congrArg Result.handled hhandle.result, hhandle.report⟩
  | watch =>
      have hwatch := a.watch_upToKeys haround
      simp only [result, step]
      generalize hx : a.watch s = x, a.watch s' = x' at hwatch ⊢
      cases hwatch with
      | error e => exact ⟨rfl, .refl _⟩
      | @ok x y hxy =>
          obtain ⟨-, hstock, hstock'⟩ := hxy
          rw [acts_watch hx] at hclear
          refine ⟨rfl, ?_⟩
          show x.2.2.Alike y.2.2
          rw [hstock, hstock']
          exact (Agent.takeStock_alike haround.world hclear).report
  | poll =>
      refine ⟨?_, ?_⟩
      · rw [result_poll, result_poll, notices, notices, haround.watch]
      · simp only [acts, notices, world, haround.watch] at hclear
        simp only [step, Agent.pollIn, haround.watch]
        cases hwatch : s'.watch with
        | none => exact .refl _
        | some watch =>
            rw [hwatch] at hclear
            exact (Agent.onNotices_alike haround.world hclear).report

/-- The same can be observed of a step, and the same names are handled in
    it. -/
theorem observe_upToKeys (h : c.UpToKeys hidden c') (hst : st.UpToKeys c.agent.keyPath hidden st')
    (hapart : ∀ x ∈ c.stepLedger st, x.Apart) :
    c.observe st = c'.observe st' ∧
    List.Forall₂ (Handling.UpToKeys hidden) (c.stepLedger st) (c'.stepLedger st') := by
  obtain ⟨hresult, hreport⟩ := report_upToKeys h hst hapart
  refine ⟨?_, ?_⟩
  · rw [observe, observe, hresult, hreport.log, hreport.envelopes, (step_upToKeys h hst).agent]
  · rw [stepLedger, stepLedger, acts_upToKeys h hst, ← h.agent]
    exact Agent.ledger_upToKeys h.around.world hapart

/-- **The bytes of a key show in the answers to requests for it, and in
    nothing else.**  Let two runs of an agent take the same steps, in worlds
    that differ at each of them at most in the bytes of the key files of
    some kinds, and not in how many these are; and let none of the names
    that are handled lead to a key file.  Then each step comes to the same
    result, the same log lines, the same requests seen, and messages to the
    same sockets with the same lengths and first bytes.  The same names are
    handled in both runs, and whoever does not ask for a key of these kinds
    is sent the very same messages. -/
theorem observations_upToKeys {steps steps' : List Step} (h : c.UpToKeys hidden c')
    (hsteps : List.Forall₂ (Step.UpToKeys c.agent.keyPath hidden) steps steps')
    (hapart : ∀ x ∈ c.ledger steps, x.Apart) :
    c.observations steps = c'.observations steps' ∧
    List.Forall₂ (Handling.UpToKeys hidden) (c.ledger steps) (c'.ledger steps') := by
  -- the key files stay where they are, so the steps ahead still differ in the same places
  generalize hkeys : c.agent.keyPath = keys at hsteps
  induction hsteps generalizing c c' with
  | nil => exact ⟨rfl, .nil⟩
  | @cons st st' rest rest' hst hrest ih =>
      subst hkeys
      obtain ⟨hobserve, hledger⟩ := observe_upToKeys h hst
        (fun x hx => hapart x (List.mem_append_left _ hx))
      obtain ⟨hobserves, hledgers⟩ := ih (step_upToKeys h hst)
        (fun x hx => hapart x (List.mem_append_right _ hx)) (funext (c.keyPath_step st))
      refine ⟨?_, ?_⟩
      · rw [observations, observations, hobserve, hobserves]
      · exact List.rel_append hledger hledgers

/-- The specimen with another boot key of the same length. -/
def rekeyed : Scene where
  agent := specimen.agent
  around := bare
    |>.attempt (.makeDirectory (.ofString "ask"))
    |>.attempt (.put (.ofString "boot.key") [7, 8, 9])
    |>.attempt (.bind (.ofString "s"))
    |>.attempt (.put (.ofString "ask/ask.1")
      (Text.Utf8.encode "[Ask]\nSocket=s\nMessage=boot\n"))

theorem upToKeys_rekeyed : specimen.UpToKeys [.boot] rekeyed := by
  let place : Location := [Text.Utf8.encode "boot.key"]
  let hide := specimen.world.tree.Hides specimen.agent.keyPath [.boot]
  have hhides : hide place := by
    refine ⟨⟨.boot, by decide +kernel⟩, ?_⟩
    intro kind hkind
    cases kind with
    | boot => exact List.mem_singleton.mpr rfl
    | root => exact absurd hkind (by decide +kernel)
  -- the key is the third entry of either tree, and the others are the same
  let before := specimen.world.tree.entries.take 2
  let after := specimen.world.tree.entries.drop 3
  have hentries : specimen.world.tree.entries
      = before ++ (place, .file FileTree.plainMode [1, 2, 3]) :: after := by decide +kernel
  have hentries' : rekeyed.world.tree.entries
      = before ++ (place, .file FileTree.plainMode [7, 8, 9]) :: after := by decide +kernel
  have hsame : ∀ entries : List (Location × Node),
      List.Forall₂ (fun e e' => e.1 = e'.1 ∧ e.2.Alike (hide e.1) e'.2) entries entries :=
    fun entries => List.forall₂_same.mpr fun e _ => ⟨rfl, .same e.2⟩
  have htree : specimen.world.tree.Alike hide rekeyed.world.tree := by
    refine FileTree.alike_of_entries (by decide +kernel) ?_
    rw [hentries, hentries']
    exact List.rel_append (hsame before) (.cons ⟨rfl, .bytes _ hhides rfl⟩ (hsame after))
  exact ⟨rfl, ⟨htree, by decide +kernel, by decide +kernel⟩, by decide +kernel, by decide +kernel⟩

/-- Both keys go out in answers that look the same from outside. -/
theorem observations_upToKeys_rekeyed :
    specimen.observations [.handle "ask.1"] = rekeyed.observations [.handle "ask.1"] ∧
    specimen.sent [.handle "ask.1"] = [⟨0, [Agent.ack, 1, 2, 3]⟩] ∧
    rekeyed.sent [.handle "ask.1"] = [⟨0, [Agent.ack, 7, 8, 9]⟩] := by
  have hplaces : ∀ kind, specimen.world.tree.fileOf? (specimen.agent.keyPath kind)
      ≠ specimen.world.tree.fileOf? (specimen.agent.requestPath "ask.1") := by
    intro kind
    cases kind <;> decide +kernel
  have hapart : ∀ x ∈ specimen.ledger [.handle "ask.1"], x.Apart := by
    intro x hx loc hloc kind hkey
    cases List.mem_singleton.mp hx
    exact hplaces kind (hkey.trans hloc.symm)
  exact ⟨(observations_upToKeys upToKeys_rekeyed (.cons (.handle "ask.1") .nil) hapart).1,
    by decide +kernel, by decide +kernel⟩

end Scene

end DiskKeys
