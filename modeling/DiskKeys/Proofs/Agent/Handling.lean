import DiskKeys.Agent.Answer
import DiskKeys.Proofs.Attempt
import DiskKeys.Proofs.Request

/-! # Handling one name

    Handling a name has two effects.  The agent afterwards is the one
    before, with the name marked as seen if it is the name of a request;
    and at most one message goes out.  `message?` says which message a
    request gets and `messageFor?` which one a name gets, without the log
    lines and the reasons for failing in between, and `sent_handle` ties
    them to what the agent does. -/

namespace DiskKeys

namespace Report

@[simp] theorem sent_silent : silent.sent = [] := rfl

@[simp] theorem sent_line (l : LogLine) : (line l).sent = [] := rfl

@[simp] theorem sent_message (d : Datagram) : (message d).sent = [d] := rfl

@[simp] theorem sent_append (r r' : Report) : (r ++ r').sent = r.sent ++ r'.sent := rfl

theorem append_assoc (r r' r'' : Report) : r ++ r' ++ r'' = r ++ (r' ++ r'') := by
  show Report.mk (r.log ++ r'.log ++ r''.log) (r.sent ++ r'.sent ++ r''.sent) = _
  rw [List.append_assoc, List.append_assoc]
  rfl

end Report

@[simp] theorem Agent.sent_remarksOn (held : Except Fault String) :
    (remarksOn held).sent = [] := by
  cases held <;> rfl

namespace FileTree

theorem readText_eq_ok_iff {t : FileTree} {p : Path} {text : String} :
    t.readText p = .ok text ↔
      ∃ bytes, t.read p = .ok bytes ∧ Text.Utf8.decode? bytes = some text := by
  rw [readText, Except.bind_eq_ok]
  refine exists_congr fun bytes => and_congr_right fun _ => ?_
  cases Text.Utf8.decode? bytes with
  | none => exact ⟨nofun, nofun⟩
  | some other => simp

end FileTree

namespace World

/-- A path leads to a socket that takes messages. -/
def Reaches (w : World) (p : Path) (id : Nat) : Prop :=
  (∃ loc, w.tree.resolve p = .ok (loc, .socket id)) ∧ w.isListening id = true

/-- A message arrives whole, at the socket that its path leads to. -/
theorem reaches_of_send {w : World} {p : Path} {payload : Bytes} {d : Datagram}
    (h : w.send p payload = .ok d) : w.Reaches p d.socket ∧ d.payload = payload := by
  simp only [send, Except.bind_eq_ok, Except.throw_bind, Except.guard_eq_ok] at h
  obtain ⟨-, -, -, ⟨loc, node⟩, hresolve, h⟩ := h
  cases node with
  | directory => exact nomatch h
  | file mode contents =>
      by_cases hmode : FileTree.ownerMayWrite mode = true
      · simp [hmode] at h
      · simp [hmode] at h
  | socket id =>
      by_cases hopen : w.isListening id = true
      · simp only [hopen, if_true, Except.pure_eq_ok, Except.ok.injEq] at h
        subst h
        exact ⟨⟨⟨loc, hresolve⟩, hopen⟩, rfl⟩
      · simp [hopen] at h

end World

namespace Agent

/-! ## Marking as seen -/

@[simp] theorem settings_markSeen (a : Agent) (id : String) :
    (a.markSeen id).settings = a.settings := by
  unfold markSeen
  split <;> rfl

@[simp] theorem keyPath_markSeen (a : Agent) (id : String) (kind : KeyKind) :
    (a.markSeen id).keyPath kind = a.keyPath kind := by
  unfold markSeen
  split <;> rfl

/-- Marking a seen request changes nothing. -/
theorem markSeen_of_hasSeen {a : Agent} {id : String} (h : a.hasSeen id = true) :
    a.markSeen id = a := by
  rw [markSeen, if_pos h]

/-- What is marked is seen, and of others nothing is forgotten or made up. -/
theorem hasSeen_markSeen (a : Agent) (id other : String) :
    (a.markSeen id).hasSeen other = true ↔ a.hasSeen other = true ∨ other = id := by
  by_cases h : a.hasSeen id = true
  · rw [markSeen_of_hasSeen h]
    constructor
    · exact Or.inl
    · rintro (hother | rfl)
      · exact hother
      · exact h
  · rw [markSeen, if_neg h]
    simp only [hasSeen, List.contains_eq_mem, List.mem_cons, decide_eq_true_eq]
    exact Or.comm

/-- Whether a name is the name of a request is up to the settings. -/
theorem isRequest_congr {a a' : Agent} (h : a.settings = a'.settings) (name : String) :
    a.isRequest name = a'.isRequest name := by
  rw [isRequest, isRequest, h]

/-! ## Opening a request -/

/-- A request is opened when its file holds a text that is accepted and
    that has not expired. -/
theorem openRequest_eq_ok_iff {a : Agent} {w : World} {name : String} {r : Request} :
    a.openRequest w name = .ok r ↔ ∃ text, w.tree.readText (a.requestPath name) = .ok text ∧
      Request.parse name text a.settings.bootMarker = .ok r ∧ r.isExpired w.now = false := by
  simp only [openRequest, requestIn, Except.bind_eq_ok, Except.mapError_eq_ok, Except.throw_bind,
    Except.guard_eq_ok, Except.pure_eq_ok, Except.ok.injEq]
  constructor
  · rintro ⟨text, htext, r', hparse, hexpired, rfl⟩
    exact ⟨text, htext, hparse, by simpa using hexpired⟩
  · rintro ⟨text, htext, hparse, hexpired⟩
    exact ⟨text, htext, r, hparse, by simpa using hexpired, rfl⟩

theorem openRequest_of_expired {a : Agent} {w : World} {name text : String} {r : Request}
    (hread : w.tree.readText (a.requestPath name) = .ok text)
    (hparse : Request.parse name text a.settings.bootMarker = .ok r)
    (hexpired : r.isExpired w.now = true) : a.openRequest w name = .error (.expired name) := by
  rw [openRequest, requestIn, hread, Except.mapError_ok, Except.ok_bind, hparse, Except.mapError_ok,
    Except.ok_bind, hexpired, Request.id_of_parse hparse]
  rfl

/-! ## The agent afterwards -/

/-- Handling marks the name of a request as seen, whatever its file holds. -/
theorem agent_handleHeld (a : Agent) (w : World) (name : String) (held : Except Fault String) :
    (a.handleHeld w name held).agent = if a.isRequest name then a.markSeen name else a := by
  unfold handleHeld
  by_cases hreq : a.isRequest name = true
  · by_cases hseen : a.hasSeen name = true
    · simp [hreq, hseen, markSeen_of_hasSeen hseen]
    · cases hopen : a.requestIn w name held with
      | error e => simp [hreq, hseen]
      | ok r => simp [hreq, hseen]
  · simp [hreq]

theorem agent_handle (a : Agent) (w : World) (name : String) :
    (a.handle w name).agent = if a.isRequest name then a.markSeen name else a :=
  agent_handleHeld a w name _

@[simp] theorem settings_handle (a : Agent) (w : World) (name : String) :
    (a.handle w name).agent.settings = a.settings := by
  rw [agent_handle]
  split
  · exact settings_markSeen a name
  · rfl

@[simp] theorem keyPath_handle (a : Agent) (w : World) (name : String) (kind : KeyKind) :
    (a.handle w name).agent.keyPath kind = a.keyPath kind := by
  rw [agent_handle]
  split
  · exact keyPath_markSeen a name kind
  · rfl

/-- After handling, the name is seen if it is that of a request, and what
    had been seen still is. -/
theorem hasSeen_handle (a : Agent) (w : World) (name other : String) :
    (a.handle w name).agent.hasSeen other = true ↔
      a.hasSeen other = true ∨ (a.isRequest name = true ∧ other = name) := by
  rw [agent_handle]
  by_cases hreq : a.isRequest name = true
  · rw [if_pos hreq, hasSeen_markSeen]
    simp [hreq]
  · rw [if_neg hreq]
    simp [hreq]

/-! ## What is sent -/

/-- The message that a request gets: the key that it wants, or a refusal
    if the key cannot be read and the agent is set up to refuse. -/
def message? (a : Agent) (w : World) (r : Request) : Option Datagram :=
  match w.tree.readSecret (a.keyPath (wanted r)) with
  | .ok secret => (w.send r.socket (ack :: secret)).toOption
  | .error _ =>
      if a.settings.sendNegativeAck then (w.send r.socket [nack]).toOption else none

/-- The message that handling a name sends, when reading its file comes to
    `held`. -/
def messageHeld? (a : Agent) (w : World) (name : String) (held : Except Fault String) :
    Option Datagram :=
  if a.isRequest name = true ∧ a.hasSeen name = false then
    (a.requestIn w name held).toOption.bind (a.message? w)
  else none

/-- The message that handling a name sends: none unless it is the name of
    a request that has not been seen and can be opened. -/
def messageFor? (a : Agent) (w : World) (name : String) : Option Datagram :=
  if a.isRequest name = true ∧ a.hasSeen name = false then
    (a.openRequest w name).toOption.bind (a.message? w)
  else none

theorem sent_refuse (a : Agent) (w : World) (r : Request) :
    (a.refuse w r).sent
      = (if a.settings.sendNegativeAck then (w.send r.socket [nack]).toOption
          else none).toList := by
  unfold refuse reply
  by_cases hset : a.settings.sendNegativeAck = true
  · rw [if_pos hset, if_pos hset]
    cases hsend : w.send r.socket [nack] with
    | error e => rfl
    | ok d => rfl
  · rw [if_neg hset, if_neg hset]
    rfl

theorem sent_answer (a : Agent) (w : World) (r : Request) :
    (a.answer w r).2.sent = (a.message? w r).toList := by
  cases hkey : w.tree.readSecret (a.keyPath (wanted r)) with
  | error e =>
      simp only [answer, message?, hkey, Report.sent_append, Report.sent_line, List.nil_append]
      exact sent_refuse a w r
  | ok secret =>
      cases hsend : w.send r.socket (ack :: secret) with
      | error e => simp [answer, message?, reply, hkey, hsend]
      | ok d => simp [answer, message?, reply, hkey, hsend]

/-- Handling a name sends its message and nothing else. -/
theorem sent_handleHeld (a : Agent) (w : World) (name : String) (held : Except Fault String) :
    (a.handleHeld w name held).report.sent = (a.messageHeld? w name held).toList := by
  unfold handleHeld messageHeld?
  by_cases hreq : a.isRequest name = true
  · by_cases hseen : a.hasSeen name = true
    · simp [hreq, hseen]
    · cases hopen : a.requestIn w name held with
      | error e => simp [hreq, hseen]
      | ok r => simp [hreq, hseen, sent_answer]
  · simp [hreq]

theorem sent_handle (a : Agent) (w : World) (name : String) :
    (a.handle w name).report.sent = (a.messageFor? w name).toList :=
  sent_handleHeld a w name _

/-- Nothing is sent for a name that has been seen. -/
theorem messageFor?_of_hasSeen {a : Agent} {w : World} {name : String}
    (h : a.hasSeen name = true) : a.messageFor? w name = none := by
  simp [messageFor?, h]

/-- Nothing is sent for a name that is not that of a request. -/
theorem messageFor?_of_not_isRequest {a : Agent} {w : World} {name : String}
    (h : a.isRequest name = false) : a.messageFor? w name = none := by
  simp [messageFor?, h]

end Agent

end DiskKeys
