import DiskKeys.Agent.Watching
import DiskKeys.Proofs.Agent.Handling

/-! # What an agent does, act by act

    Whichever way an agent comes across a name, it does one of two things
    with it: it handles it, or it marks it as seen and leaves it to others.
    A list of such acts gives the agent afterwards (`perform`) and the
    names that were handled on the way, each with the agent that handled it
    (`ledger`).  A scan of the directory and a poll each come to the acts
    that are computed here from the names and notices alone (`Performs`),
    so that whatever holds of one act holds of all they do. -/

namespace DiskKeys

/-- What an agent does with a name. -/
inductive Act where
  | handle (name : String)
  /-- Marks the name as seen and leaves it to others. -/
  | leave (name : String)
  deriving DecidableEq, Repr

/-- The name that an act is about. -/
def Act.name : Act → String
  | .handle name => name
  | .leave name => name

/-- A name that was handled, with the agent that handled it and the world
    in which it did. -/
structure Handling where
  agent : Agent
  world : World
  name : String

/-- The messages that were sent on behalf of the name. -/
def Handling.sent (h : Handling) : List Datagram :=
  (h.agent.handle h.world h.name).report.sent

namespace Agent

/-- The agent after one act. -/
def act (w : World) (a : Agent) : Act → Agent
  | .handle name => (a.handle w name).agent
  | .leave name => a.markSeen name

/-- The agent after acts. -/
def perform (w : World) (a : Agent) (acts : List Act) : Agent :=
  acts.foldl (act w) a

/-- The handlings among acts, in order. -/
def ledger (w : World) : Agent → List Act → List Handling
  | _, [] => []
  | a, .handle name :: rest => ⟨a, w, name⟩ :: ledger w (a.act w (.handle name)) rest
  | a, .leave name :: rest => ledger w (a.act w (.leave name)) rest

@[simp] theorem perform_nil (w : World) (a : Agent) : a.perform w [] = a := rfl

@[simp] theorem perform_cons (w : World) (a : Agent) (x : Act) (rest : List Act) :
    a.perform w (x :: rest) = (a.act w x).perform w rest := rfl

theorem perform_append (w : World) (a : Agent) (acts more : List Act) :
    a.perform w (acts ++ more) = (a.perform w acts).perform w more :=
  List.foldl_append

@[simp] theorem ledger_nil (w : World) (a : Agent) : a.ledger w [] = [] := rfl

theorem ledger_append (w : World) (a : Agent) (acts more : List Act) :
    a.ledger w (acts ++ more) = a.ledger w acts ++ (a.perform w acts).ledger w more := by
  induction acts generalizing a with
  | nil => rfl
  | cons x rest ih =>
      cases x with
      | handle name =>
          show _ :: ledger w (a.act w (.handle name)) (rest ++ more) = _
          rw [ih]
          rfl
      | leave name =>
          show ledger w (a.act w (.leave name)) (rest ++ more) = _
          rw [ih]
          rfl

/-! ## What acts leave as it is -/

@[simp] theorem settings_act (w : World) (a : Agent) (x : Act) :
    (a.act w x).settings = a.settings := by
  cases x with
  | handle name => exact settings_handle a w name
  | leave name => exact settings_markSeen a name

@[simp] theorem keyPath_act (w : World) (a : Agent) (x : Act) (kind : KeyKind) :
    (a.act w x).keyPath kind = a.keyPath kind := by
  cases x with
  | handle name => exact keyPath_handle a w name kind
  | leave name => exact keyPath_markSeen a name kind

/-- What has been seen stays seen. -/
theorem hasSeen_act {a : Agent} {id : String} (w : World) (x : Act) (h : a.hasSeen id = true) :
    (a.act w x).hasSeen id = true := by
  cases x with
  | handle name => exact (hasSeen_handle a w name id).mpr (Or.inl h)
  | leave name => exact (hasSeen_markSeen a name id).mpr (Or.inl h)

@[simp] theorem settings_perform (w : World) (a : Agent) (acts : List Act) :
    (a.perform w acts).settings = a.settings := by
  induction acts generalizing a with
  | nil => rfl
  | cons x rest ih => rw [perform_cons, ih, settings_act]

@[simp] theorem keyPath_perform (w : World) (a : Agent) (acts : List Act) (kind : KeyKind) :
    (a.perform w acts).keyPath kind = a.keyPath kind := by
  induction acts generalizing a with
  | nil => rfl
  | cons x rest ih => rw [perform_cons, ih, keyPath_act]

theorem keyPath_perform_eq (w : World) (a : Agent) (acts : List Act) :
    (a.perform w acts).keyPath = a.keyPath :=
  funext (keyPath_perform w a acts)

theorem hasSeen_perform {a : Agent} {id : String} (w : World) (acts : List Act)
    (h : a.hasSeen id = true) : (a.perform w acts).hasSeen id = true := by
  induction acts generalizing a with
  | nil => exact h
  | cons x rest ih => exact ih (hasSeen_act w x h)

/-- A request that an act is about has been seen after it. -/
theorem hasSeen_act_self {a : Agent} (w : World) {x : Act} (hreq : a.isRequest x.name = true) :
    (a.act w x).hasSeen x.name = true := by
  cases x with
  | handle name => exact (hasSeen_handle a w name name).mpr (Or.inr ⟨hreq, rfl⟩)
  | leave name => exact (hasSeen_markSeen a name name).mpr (Or.inr rfl)

theorem hasSeen_perform_of_mem {a : Agent} (w : World) {acts : List Act} {x : Act} (hx : x ∈ acts)
    (hreq : a.isRequest x.name = true) : (a.perform w acts).hasSeen x.name = true := by
  induction acts generalizing a with
  | nil => exact absurd hx List.not_mem_nil
  | cons y rest ih =>
      rcases List.mem_cons.mp hx with rfl | hrest
      · exact hasSeen_perform w rest (hasSeen_act_self w hreq)
      · exact ih hrest (by rwa [isRequest_congr (settings_act w a y)])

/-- A handling in the ledger was done by the agent that some of the acts
    had left, in the world of all of them. -/
theorem mem_ledger {w : World} {a : Agent} {acts : List Act} {h : Handling}
    (hmem : h ∈ a.ledger w acts) :
    ∃ before after, acts = before ++ .handle h.name :: after ∧
      h = ⟨a.perform w before, w, h.name⟩ := by
  induction acts generalizing a with
  | nil => exact nomatch hmem
  | cons x rest ih =>
      have hlater : h ∈ (a.act w x).ledger w rest → ∃ before after,
          x :: rest = before ++ .handle h.name :: after ∧
            h = ⟨a.perform w before, w, h.name⟩ := by
        intro hrest
        obtain ⟨before, after, hacts, heq⟩ := ih hrest
        exact ⟨x :: before, after, by rw [hacts]; rfl, heq⟩
      cases x with
      | handle name =>
          rcases List.mem_cons.mp hmem with rfl | hrest
          · exact ⟨[], rest, rfl, rfl⟩
          · exact hlater hrest
      | leave name => exact hlater hmem

/-! ## Acts in another world -/

/-- What an act leaves of the agent does not depend on the world. -/
theorem act_world (w w' : World) (a : Agent) (x : Act) : a.act w' x = a.act w x := by
  cases x with
  | handle name => rw [act, act, agent_handle, agent_handle]
  | leave name => rfl

theorem perform_world (w w' : World) (a : Agent) (acts : List Act) :
    a.perform w' acts = a.perform w acts := by
  induction acts generalizing a with
  | nil => rfl
  | cons x rest ih => rw [perform_cons, perform_cons, ih, act_world w]

/-- The same acts handle the same names in every world. -/
theorem ledger_world (w w' : World) (a : Agent) (acts : List Act) :
    a.ledger w' acts = (a.ledger w acts).map fun h => { h with world := w' } := by
  induction acts generalizing a with
  | nil => rfl
  | cons x rest ih =>
      cases x with
      | handle name =>
          rw [ledger, ledger, ih, act_world w]
          rfl
      | leave name => rw [ledger, ledger, ih, act_world w]

/-! ## The acts that work comes to -/

/-- A piece of work came to certain acts: it left the agent that they
    leave, and sent what their handlings send. -/
structure Performs (w : World) (a : Agent) (acts : List Act) (done : Agent × Report) : Prop where
  agent : done.1 = a.perform w acts
  sent : done.2.sent = (a.ledger w acts).flatMap Handling.sent

theorem Performs.settings {w : World} {a : Agent} {acts : List Act} {done : Agent × Report}
    (h : Performs w a acts done) : done.1.settings = a.settings := by
  rw [h.agent, settings_perform]

/-- What is said in the end about a name only adds to the log. -/
theorem conclude_eq (name : String) (o : Outcome) :
    (conclude name o).1 = o.agent ∧ (conclude name o).2.sent = o.report.sent := by
  unfold conclude
  split
  · exact ⟨rfl, by simp⟩
  · exact ⟨rfl, rfl⟩
  · exact ⟨rfl, by simp⟩

theorem performs_dispatch (w : World) (a : Agent) (name : String) :
    Performs w a [.handle name] (a.dispatch w name) := by
  obtain ⟨hagent, hsent⟩ := conclude_eq name (a.handle w name)
  refine ⟨hagent, ?_⟩
  rw [dispatch, hsent]
  simp [ledger, Handling.sent]

/-- Nothing is sent for a request that is left to others. -/
theorem sent_acknowledgeOpened (a : Agent) (name : String) (opened : Except Fault Unit) :
    (a.acknowledgeOpened name opened).2.sent = [] := by
  cases opened with
  | ok u => rfl
  | error e => rfl

theorem performs_acknowledge (w : World) (a : Agent) (name : String) :
    Performs w a [.leave name] (a.acknowledge w name) :=
  ⟨rfl, sent_acknowledgeOpened a name _⟩

/-- Work on each of two lists is work on those of the first and then on
    those of the second. -/
theorem forEach_append {α : Type} (step : Agent → α → Agent × Report) (a : Agent)
    (xs ys : List α) :
    forEach step a (xs ++ ys) = ((forEach step (forEach step a xs).1 ys).1,
      (forEach step a xs).2 ++ (forEach step (forEach step a xs).1 ys).2) := by
  induction xs generalizing a with
  | nil => rfl
  | cons x rest ih =>
      simp only [List.cons_append, forEach, ih, Report.append_assoc]

/-- Work on each of a list in turn comes to the acts for each in turn.
    The acts may be read off the settings, which stay as they are. -/
theorem performs_forEach {α : Type} {w : World} {s : Settings}
    {step : Agent → α → Agent × Report} {acts : α → List Act}
    (hstep : ∀ a x, a.settings = s → Performs w a (acts x) (step a x))
    {a : Agent} (ha : a.settings = s) (xs : List α) :
    Performs w a (xs.flatMap acts) (forEach step a xs) := by
  induction xs generalizing a with
  | nil => exact ⟨rfl, rfl⟩
  | cons x rest ih =>
      have hfirst := hstep a x ha
      -- the agent that the first leaves has the same settings, so the same acts come next
      have hrest := ih (a := (step a x).1) (by rw [hfirst.agent, settings_perform, ha])
      refine ⟨?_, ?_⟩
      · show (forEach step (step a x).1 rest).1 = _
        rw [hrest.agent, hfirst.agent, List.flatMap_cons, perform_append]
      · show (step a x).2.sent ++ (forEach step (step a x).1 rest).2.sent = _
        rw [hfirst.sent, hrest.sent, hfirst.agent, List.flatMap_cons, ledger_append,
          List.flatMap_append]

/-- What is done about a name that is found in the directory. -/
def takeUpAct (answer : Bool) (name : String) : Act :=
  if answer then .handle name else .leave name

@[simp] theorem name_takeUpAct (answer : Bool) (name : String) :
    (takeUpAct answer name).name = name := by
  cases answer <;> rfl

theorem performs_takeUp (w : World) (a : Agent) (answer : Bool) (name : String) :
    Performs w a [takeUpAct answer name] (takeUp answer w a name) := by
  cases answer with
  | true => exact performs_dispatch w a name
  | false =>
      unfold takeUp
      by_cases hseen : a.hasSeen name = true
      · -- leaving a seen name to others says nothing and changes nothing
        refine ⟨?_, ?_⟩
        · simp [takeUpAct, act, hseen, markSeen_of_hasSeen hseen]
        · simp [takeUpAct, ledger, hseen]
      · simpa [takeUpAct, hseen] using performs_acknowledge w a name

/-- Nobody waits for good at an entry of the tree. -/
theorem takeUpEntry_inTree (answer : Bool) (w : World) {a a' : Agent}
    (h : a'.settings = a.settings) (name : String) :
    takeUpEntry answer w (a.accessInTree w name) a' name
      = ⟨(takeUp answer w a' name).1, (takeUp answer w a' name).2, true⟩ := by
  have hpath : a.requestPath name = a'.requestPath name := by
    rw [requestPath, requestPath, h]
  unfold takeUpEntry accessInTree
  rw [hpath]
  by_cases hseen : a'.hasSeen name = true
  · rw [if_pos hseen]
    rfl
  · cases answer with
    | true =>
        rw [if_neg hseen]
        rfl
    | false =>
        rw [takeUp, if_neg hseen, if_neg hseen]
        rfl

theorem takeUpEntries_inTree (answer : Bool) (w : World) {a a' : Agent}
    (h : a'.settings = a.settings) (names : List String) :
    takeUpEntries answer w (a.accessInTree w) a' names
      = ⟨(forEach (takeUp answer w) a' names).1, (forEach (takeUp answer w) a' names).2, true⟩ := by
  induction names generalizing a' with
  | nil => rfl
  | cons name rest ih =>
      have hfirst := takeUpEntry_inTree answer w h name
      have hrest := ih ((performs_takeUp w a' answer name).settings.trans h)
      simp only [takeUpEntries, forEach, hfirst, hrest, if_true]

/-- A scan of a directory takes up the requests that are pending in it. -/
theorem rescan_eq (a : Agent) (w : World) (answer : Bool) :
    a.rescan w answer = match a.pendingRequests w with
      | .error e => (a, .line (.warn s!"failed to list {a.settings.askDir.display}: {e.message}"))
      | .ok pending => forEach (takeUp answer w) a pending := by
  unfold rescan rescanAmong pendingRequests
  cases w.tree.list a.settings.askDir with
  | error e => rfl
  | ok names =>
      have haccess : a.accessTo w [] = a.accessInTree w := rfl
      simp only [haccess, takeUpEntries_inTree answer w rfl, List.map_nil, List.append_nil]
      rfl

/-- The acts of a scan of the directory. -/
def rescanActs (a : Agent) (w : World) (answer : Bool) : List Act :=
  match a.pendingRequests w with
  | .error _ => []
  | .ok pending => pending.map (takeUpAct answer)

theorem performs_rescan (w : World) (a : Agent) (answer : Bool) :
    Performs w a (a.rescanActs w answer) (a.rescan w answer) := by
  rw [rescan_eq]
  unfold rescanActs
  cases h : a.pendingRequests w with
  | error e => exact ⟨rfl, rfl⟩
  | ok pending =>
      have hone : ∀ (a' : Agent) (name : String), a'.settings = a.settings →
          Performs w a' [takeUpAct answer name] (takeUp answer w a' name) :=
        fun a' name _ => performs_takeUp w a' answer name
      have hall := performs_forEach hone rfl pending
      rwa [← List.map_eq_flatMap] at hall

theorem mem_requestsAmong {a : Agent} {names : List Name} (id : String) :
    id ∈ a.requestsAmong names ↔
      (∃ name ∈ names, Text.Utf8.decode? name = some id) ∧ a.isRequest id = true := by
  rw [requestsAmong, List.mem_mergeSort, List.mem_filter, List.mem_filterMap]

/-- The pending requests are those of which the directory holds the name. -/
theorem pendingRequests_eq_ok {a : Agent} {w : World} {names : List Name}
    (hlist : w.tree.list a.settings.askDir = .ok names) :
    ∃ pending, a.pendingRequests w = .ok pending ∧ ∀ id, id ∈ pending ↔
      (∃ name ∈ names, Text.Utf8.decode? name = some id) ∧ a.isRequest id = true := by
  refine ⟨a.requestsAmong names, ?_, mem_requestsAmong⟩
  rw [pendingRequests, hlist]
  rfl

theorem pendingRequests_congr {a a' : Agent} (h : a.settings = a'.settings) (w : World) :
    a.pendingRequests w = a'.pendingRequests w := by
  have hreq : a.isRequest = a'.isRequest := funext (isRequest_congr h)
  unfold pendingRequests requestsAmong
  rw [h, hreq]

theorem rescanActs_congr {a a' : Agent} (h : a.settings = a'.settings) (w : World)
    (answer : Bool) : a.rescanActs w answer = a'.rescanActs w answer := by
  rw [rescanActs, rescanActs, pendingRequests_congr h]

/-- Taking stock comes to the acts of a scan. -/
theorem performs_takeStock (w : World) (a : Agent) :
    Performs w a (a.rescanActs w a.settings.answerExisting) (a.takeStock w) := by
  have hscan := performs_rescan w a a.settings.answerExisting
  exact ⟨hscan.agent, hscan.sent⟩

theorem agent_takeStock (a : Agent) (w : World) :
    (a.takeStock w).1 = a.perform w (a.rescanActs w a.settings.answerExisting) :=
  (performs_takeStock w a).agent

theorem settings_takeStock (a : Agent) (w : World) :
    (a.takeStock w).1.settings = a.settings := by
  rw [agent_takeStock, settings_perform]

/-- The acts that a notice leads to. -/
def noticeActs (a : Agent) (w : World) : Notice → List Act
  | .changed name => [.handle name]
  | .overflow => a.rescanActs w true

theorem performs_onNotice (w : World) (a : Agent) (n : Notice) :
    Performs w a (a.noticeActs w n) (onNotice w a n) := by
  cases n with
  | changed name => exact performs_dispatch w a name
  | overflow =>
      have h := performs_rescan w a true
      exact ⟨h.agent, h.sent⟩

theorem noticeActs_congr {a a' : Agent} (h : a.settings = a'.settings) (w : World) :
    a.noticeActs w = a'.noticeActs w := by
  funext n
  cases n with
  | changed name => rfl
  | overflow => exact rescanActs_congr h w true

/-- Acting on notices comes to the acts that each leads to, in order. -/
theorem performs_onNotices (w : World) (a : Agent) (notices : List Notice) :
    Performs w a (notices.flatMap (a.noticeActs w)) (a.onNotices w notices) := by
  refine performs_forEach (s := a.settings) ?_ rfl notices
  intro a' n ha'
  rw [← noticeActs_congr ha' w]
  exact performs_onNotice w a' n

end Agent

end DiskKeys
