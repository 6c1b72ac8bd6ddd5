import DiskKeys.Proofs.Agent.Run

/-! # What the caller is told

    Handling a request that has not been seen ends in one of four ways: it
    cannot be opened, its key cannot be read, the key cannot be sent, or
    the key is sent.  Each way is one equation for the whole outcome, the
    result, the agent afterwards and what was said and sent
    (`handle_of_unopened`, `handle_of_unread`, `handle_of_unsent`,
    `handle_of_sent`), and each is known by facts about the files, the
    clock and the sockets (`asks_iff`, `failure_of_openRequest`).  From
    these it follows that the result, the messages and the marks always
    tell the same story (`handle_agrees`). -/

namespace DiskKeys

namespace FileTree

/-- Why nothing can be read as text at a path: nothing is found there, it
    is no regular file, its owner may not read it, or what it holds is not
    text. -/
inductive Unreadable (t : FileTree) (p : Path) : Fault → Prop
  | missing {fault : Fault} (h : t.resolve p = .error fault) : Unreadable t p fault
  | directory {loc : Location} (h : t.resolve p = .ok (loc, .directory)) :
      Unreadable t p .isDirectory
  | socket {loc : Location} {id : Nat} (h : t.resolve p = .ok (loc, .socket id)) :
      Unreadable t p .noDevice
  | forbidden {loc : Location} {mode : Nat} {contents : Bytes}
      (h : t.resolve p = .ok (loc, .file mode contents)) (hmode : ownerMayRead mode = false) :
      Unreadable t p .permissionDenied
  | notText {bytes : Bytes} (h : t.read p = .ok bytes) (hbytes : Text.Utf8.decode? bytes = none) :
      Unreadable t p .notText

theorem read_of_file {t : FileTree} {p : Path} {loc : Location} {mode : Nat} {contents : Bytes}
    (h : t.resolve p = .ok (loc, .file mode contents)) :
    t.read p = if ownerMayRead mode then .ok contents else .error .permissionDenied := by
  rw [read, h]
  rfl

theorem readText_eq_error_iff {t : FileTree} {p : Path} {fault : Fault} :
    t.readText p = .error fault ↔ Unreadable t p fault := by
  constructor
  · intro h
    cases hresolve : t.resolve p with
    | error e =>
        rw [readText, read, hresolve] at h
        cases h
        exact .missing hresolve
    | ok found =>
        obtain ⟨loc, node⟩ := found
        cases node with
        | directory =>
            rw [readText, read, hresolve] at h
            cases h
            exact .directory hresolve
        | socket id =>
            rw [readText, read, hresolve] at h
            cases h
            exact .socket hresolve
        | file mode bytes =>
            cases hmode : ownerMayRead mode with
            | false =>
                rw [readText, read_of_file hresolve, hmode] at h
                cases h
                exact .forbidden hresolve hmode
            | true =>
                have hread : t.read p = .ok bytes := by
                  rw [read_of_file hresolve, hmode]
                  rfl
                rw [readText, hread, Except.ok_bind] at h
                cases hbytes : Text.Utf8.decode? bytes with
                | none =>
                    rw [hbytes] at h
                    cases h
                    exact .notText hread hbytes
                | some text =>
                    rw [hbytes] at h
                    cases h
  · intro h
    cases h with
    | missing h => rw [readText, read, h]; rfl
    | directory h => rw [readText, read, h]; rfl
    | socket h => rw [readText, read, h]; rfl
    | forbidden h hmode => rw [readText, read_of_file h, hmode]; rfl
    | notText h hbytes => rw [readText, h, Except.ok_bind, hbytes]; rfl

end FileTree

namespace Agent

/-! ## The request that a name leads to -/

/-- A name leads to a request that is to be answered with a kind of key:
    its file holds a text that is accepted, it has not expired, and it wants
    the boot key exactly if the marker stands in its message. -/
structure Asks (a : Agent) (w : World) (name : String) (r : Request) (kind : KeyKind) : Prop where
  accepted : ∃ text, w.tree.readText (a.requestPath name) = .ok text ∧
    Request.parse name text a.settings.bootMarker = .ok r
  inTime : ∀ deadline, r.notAfter = some deadline → w.now < deadline
  chosen : kind = .boot ↔ a.settings.bootMarker.toList <:+: r.message.toList

/-- Why a request gets no answer: the first thing that goes wrong, when all
    that comes before it has gone well. -/
inductive Failure (a : Agent) (w : World) (name : String) : AgentError → Prop
  | readRequest {fault : Fault} (h : w.tree.Unreadable (a.requestPath name) fault) :
      Failure a w name (.readRequest (a.requestPath name) fault)
  | malformed {text : String} {cause : RequestError}
      (held : w.tree.readText (a.requestPath name) = .ok text)
      (h : Request.parse name text a.settings.bootMarker = .error cause) :
      Failure a w name (.malformed cause)
  | expired {text : String} {r : Request} {deadline : Nat}
      (held : w.tree.readText (a.requestPath name) = .ok text)
      (accepted : Request.parse name text a.settings.bootMarker = .ok r)
      (set : r.notAfter = some deadline) (h : deadline ≤ w.now) : Failure a w name (.expired name)
  | keyFile {r : Request} {kind : KeyKind} {fault : Fault} (asks : a.Asks w name r kind)
      (h : w.tree.read (a.keyPath kind) = .error fault) :
      Failure a w name (.keyFile (.at (a.keyPath kind) fault))
  | reply {r : Request} {kind : KeyKind} {key : Bytes} {fault : Fault} (asks : a.Asks w name r kind)
      (held : w.tree.read (a.keyPath kind) = .ok key)
      (h : w.send r.socket (ack :: key) = .error fault) : Failure a w name (.reply r.socket fault)

variable {a : Agent} {w : World} {name : String} {r : Request} {kind : KeyKind}

theorem eq_wanted_iff {text : String} (hparse : Request.parse name text a.settings.bootMarker = .ok r) :
    kind = wanted r ↔ (kind = .boot ↔ a.settings.bootMarker.toList <:+: r.message.toList) := by
  rw [← Request.isBoot_iff hparse, wanted]
  cases r.isBoot <;> cases kind <;> simp

/-- A name leads to a request that is to be answered exactly when that can
    be opened. -/
theorem asks_iff : a.Asks w name r kind ↔ a.openRequest w name = .ok r ∧ kind = wanted r := by
  rw [openRequest_eq_ok_iff]
  constructor
  · rintro ⟨⟨text, htext, hparse⟩, hinTime, hchosen⟩
    exact ⟨⟨text, htext, hparse, Request.isExpired_eq_false_iff.mpr hinTime⟩,
      (eq_wanted_iff hparse).mpr hchosen⟩
  · rintro ⟨⟨text, htext, hparse, hexpired⟩, hkind⟩
    exact ⟨⟨text, htext, hparse⟩, Request.isExpired_eq_false_iff.mp hexpired,
      (eq_wanted_iff hparse).mp hkind⟩

/-- A request that cannot be opened fails before its key is looked for. -/
theorem failure_of_openRequest {e : AgentError} (h : a.openRequest w name = .error e) :
    Failure a w name e := by
  cases hread : w.tree.readText (a.requestPath name) with
  | error fault =>
      rw [openRequest, hread] at h
      cases h
      exact .readRequest (FileTree.readText_eq_error_iff.mp hread)
  | ok text =>
      cases hparse : Request.parse name text a.settings.bootMarker with
      | error cause =>
          rw [openRequest, hread, requestIn, Except.mapError_ok, Except.ok_bind, hparse] at h
          cases h
          exact .malformed hread hparse
      | ok r =>
          cases hexpired : r.isExpired w.now with
          | false =>
              rw [openRequest_eq_ok_iff.mpr ⟨text, hread, hparse, hexpired⟩] at h
              cases h
          | true =>
              rw [openRequest_of_expired hread hparse hexpired] at h
              cases h
              obtain ⟨deadline, hset, hle⟩ := Request.isExpired_eq_true_iff.mp hexpired
              exact .expired hread hparse hset hle

/-! ## The four ends -/

/-- What the agent says when it looks for the key of a request. -/
def asked (r : Request) : Report :=
  .line (.info s!"request {r.id} from pid {showPid r.pid} wants the {(wanted r).label} key")

section Ends

variable {fault : Fault} {key : Bytes} {d : Datagram} (hreq : a.isRequest name = true)
  (hunseen : a.hasSeen name = false)

include hreq hunseen

theorem handle_of_unopened {e : AgentError} (h : a.openRequest w name = .error e) :
    a.handle w name = ⟨.error e, a.markSeen name,
      remarksOn (w.tree.readText (a.requestPath name))⟩ := by
  rw [openRequest] at h
  simp [handle, handleHeld, hreq, hunseen, h]

theorem handle_of_opened (hopen : a.openRequest w name = .ok r) :
    a.handle w name =
      ⟨(a.answer w r).1.map .answered, a.markSeen name,
        remarksOn (w.tree.readText (a.requestPath name)) ++ (a.answer w r).2⟩ := by
  rw [openRequest] at hopen
  simp [handle, handleHeld, hreq, hunseen, hopen]

theorem handle_of_unread (hopen : a.openRequest w name = .ok r)
    (hkey : w.tree.read (a.keyPath (wanted r)) = .error fault) :
    a.handle w name = ⟨.error (.keyFile (.at (a.keyPath (wanted r)) fault)), a.markSeen name,
      remarksOn (w.tree.readText (a.requestPath name)) ++ (asked r ++ a.refuse w r)⟩ := by
  rw [handle_of_opened hreq hunseen hopen, answer, FileTree.readSecret, hkey]
  rfl

theorem handle_of_unsent (hopen : a.openRequest w name = .ok r)
    (hkey : w.tree.read (a.keyPath (wanted r)) = .ok key)
    (hsend : w.send r.socket (ack :: key) = .error fault) :
    a.handle w name = ⟨.error (.reply r.socket fault), a.markSeen name,
      remarksOn (w.tree.readText (a.requestPath name)) ++ asked r⟩ := by
  rw [handle_of_opened hreq hunseen hopen, answer, FileTree.readSecret, hkey]
  simp only [Except.mapError_ok, reply, hsend]
  rfl

theorem sent_of_unopened {e : AgentError} (h : a.openRequest w name = .error e) :
    (a.handle w name).report.sent = [] := by
  rw [handle_of_unopened hreq hunseen h, sent_remarksOn]

/-- Only a refusal goes out when the key cannot be read. -/
theorem sent_of_unread (hopen : a.openRequest w name = .ok r)
    (hkey : w.tree.read (a.keyPath (wanted r)) = .error fault) :
    (a.handle w name).report.sent = (a.refuse w r).sent := by
  rw [handle_of_unread hreq hunseen hopen hkey, Report.sent_append, sent_remarksOn]
  rfl

theorem sent_of_unsent (hopen : a.openRequest w name = .ok r)
    (hkey : w.tree.read (a.keyPath (wanted r)) = .ok key)
    (hsend : w.send r.socket (ack :: key) = .error fault) :
    (a.handle w name).report.sent = [] := by
  rw [handle_of_unsent hreq hunseen hopen hkey hsend, Report.sent_append, sent_remarksOn]
  rfl

theorem handle_of_sent (hopen : a.openRequest w name = .ok r)
    (hkey : w.tree.read (a.keyPath (wanted r)) = .ok key)
    (hsend : w.send r.socket (ack :: key) = .ok d) :
    (a.handle w name).result = .ok (.answered (wanted r)) ∧
    (a.handle w name).report.sent = [d] := by
  rw [handle_of_opened hreq hunseen hopen, answer, FileTree.readSecret, hkey]
  simp only [Except.mapError_ok, reply, hsend, Report.sent_append, sent_remarksOn]
  exact ⟨rfl, rfl⟩

end Ends

/-- There are no other ends. -/
theorem exists_end (a : Agent) (w : World) (name : String) :
    (∃ e, a.openRequest w name = .error e) ∨
    ∃ r, a.openRequest w name = .ok r ∧
      ((∃ fault, w.tree.read (a.keyPath (wanted r)) = .error fault) ∨
        ∃ key, w.tree.read (a.keyPath (wanted r)) = .ok key ∧
          ((∃ fault, w.send r.socket (ack :: key) = .error fault) ∨
            ∃ d, w.send r.socket (ack :: key) = .ok d)) := by
  cases hopen : a.openRequest w name with
  | error e => exact Or.inl ⟨e, rfl⟩
  | ok r =>
      refine Or.inr ⟨r, rfl, ?_⟩
      cases hkey : w.tree.read (a.keyPath (wanted r)) with
      | error fault => exact Or.inl ⟨fault, rfl⟩
      | ok key =>
          refine Or.inr ⟨key, rfl, ?_⟩
          cases hsend : w.send r.socket (ack :: key) with
          | error fault => exact Or.inl ⟨fault, rfl⟩
          | ok d => exact Or.inr ⟨d, rfl⟩

/-! ## The account -/

/-- What handling a request that has not been seen comes to: what the caller
    is told, what was sent and what was marked agree. -/
structure Account (a : Agent) (w : World) (name : String) (o : Outcome) : Prop where
  /-- The agent afterwards is the one before, but for the name it has seen. -/
  marked : o.agent = { a with seen := name :: a.seen }
  ended : (∃ kind, o.result = .ok (.answered kind)) ∨ ∃ e, o.result = .error e
  /-- An error is the first thing that goes wrong. -/
  failed : ∀ e, o.result = .error e ↔ Failure a w name e
  /-- The caller is told of an answer exactly when the key was delivered. -/
  answered : ∀ kind, o.result = .ok (.answered kind) ↔
    ∃ r key d, a.Asks w name r kind ∧ w.tree.read (a.keyPath kind) = .ok key ∧
      w.Reaches r.socket d.socket ∧ d.payload = ack :: key ∧ o.report.sent = [d]
  /-- A message that goes with an error is a refusal, and the error is that
      the key cannot be read. -/
  refused : ∀ e, o.result = .error e → o.report.sent ≠ [] →
    a.settings.sendNegativeAck = true ∧
    ∃ r kind fault d, a.Asks w name r kind ∧ w.tree.read (a.keyPath kind) = .error fault ∧
      e = .keyFile (.at (a.keyPath kind) fault) ∧ w.Reaches r.socket d.socket ∧
      d.payload = [nack] ∧ o.report.sent = [d]
  /-- A refusal that cannot be sent is logged; the error stays what it is. -/
  refusalFailed : ∀ {r kind cause fault}, a.settings.sendNegativeAck = true →
    a.Asks w name r kind → w.tree.read (a.keyPath kind) = .error cause →
    w.send r.socket [nack] = .error fault →
    o.result = .error (.keyFile (.at (a.keyPath kind) cause)) ∧ o.report.sent = [] ∧
    .warn s!"could not refuse {name}: {(AgentError.reply r.socket fault).message}" ∈ o.report.log
  /-- After a key that cannot be sent nothing is sent. -/
  answerFailed : ∀ {r kind key fault}, a.Asks w name r kind →
    w.tree.read (a.keyPath kind) = .ok key → w.send r.socket (ack :: key) = .error fault →
    o.result = .error (.reply r.socket fault) ∧ o.report.sent = []
  /-- What becomes of a malformed or expired request depends on its file and
      the clock alone, wherever the keys are and whatever is there. -/
  keyless : ((∃ cause, o.result = .error (.malformed cause)) ∨ o.result = .error (.expired name)) →
    ∀ (w' : World) (bootKey rootKey : Path),
      w'.tree.read (a.requestPath name) = w.tree.read (a.requestPath name) → w'.now = w.now →
      (({ a with bootKey, rootKey } : Agent).handle w' name).result = o.result ∧
      (({ a with bootKey, rootKey } : Agent).handle w' name).report = o.report

section Account

variable (hreq : a.isRequest name = true) (hunseen : a.hasSeen name = false)

include hreq hunseen

theorem agent_handle_of_unseen : (a.handle w name).agent = { a with seen := name :: a.seen } := by
  rw [agent_handle, if_pos hreq, markSeen, if_neg (by rw [hunseen]; exact Bool.false_ne_true)]

theorem ended_handle : (∃ kind, (a.handle w name).result = .ok (.answered kind)) ∨
    ∃ e, (a.handle w name).result = .error e := by
  rcases exists_end a w name with
    ⟨e, hopen⟩ | ⟨r, hopen, ⟨fault, hkey⟩ | ⟨key, hkey, ⟨fault, hsend⟩ | ⟨d, hsend⟩⟩⟩
  · exact Or.inr ⟨e, by rw [handle_of_unopened hreq hunseen hopen]⟩
  · exact Or.inr ⟨_, by rw [handle_of_unread hreq hunseen hopen hkey]⟩
  · exact Or.inr ⟨_, by rw [handle_of_unsent hreq hunseen hopen hkey hsend]⟩
  · exact Or.inl ⟨_, (handle_of_sent hreq hunseen hopen hkey hsend).1⟩

theorem result_handle_eq_error_iff {e : AgentError} :
    (a.handle w name).result = .error e ↔ Failure a w name e := by
  constructor
  · intro h
    rcases exists_end a w name with
      ⟨e', hopen⟩ | ⟨r, hopen, ⟨fault, hkey⟩ | ⟨key, hkey, ⟨fault, hsend⟩ | ⟨d, hsend⟩⟩⟩
    · rw [handle_of_unopened hreq hunseen hopen] at h
      cases h
      exact failure_of_openRequest hopen
    · rw [handle_of_unread hreq hunseen hopen hkey] at h
      cases h
      exact .keyFile (asks_iff.mpr ⟨hopen, rfl⟩) hkey
    · rw [handle_of_unsent hreq hunseen hopen hkey hsend] at h
      cases h
      exact .reply (asks_iff.mpr ⟨hopen, rfl⟩) hkey hsend
    · rw [(handle_of_sent hreq hunseen hopen hkey hsend).1] at h
      cases h
  · intro h
    cases h with
    | readRequest h =>
        rw [handle_of_unopened hreq hunseen]
        rw [openRequest, FileTree.readText_eq_error_iff.mpr h]
        rfl
    | malformed held h =>
        rw [handle_of_unopened hreq hunseen]
        rw [openRequest, held, requestIn, Except.mapError_ok, Except.ok_bind, h]
        rfl
    | expired held accepted set h =>
        rw [handle_of_unopened hreq hunseen]
        exact openRequest_of_expired held accepted (Request.isExpired_eq_true_iff.mpr ⟨_, set, h⟩)
    | keyFile asks h =>
        obtain ⟨hopen, rfl⟩ := asks_iff.mp asks
        rw [handle_of_unread hreq hunseen hopen h]
    | reply asks held h =>
        obtain ⟨hopen, rfl⟩ := asks_iff.mp asks
        rw [handle_of_unsent hreq hunseen hopen held h]

theorem result_handle_eq_answered_iff :
    (a.handle w name).result = .ok (.answered kind) ↔
      ∃ r key d, a.Asks w name r kind ∧ w.tree.read (a.keyPath kind) = .ok key ∧
        w.Reaches r.socket d.socket ∧ d.payload = ack :: key ∧
        (a.handle w name).report.sent = [d] := by
  constructor
  · intro h
    rcases exists_end a w name with
      ⟨e, hopen⟩ | ⟨r, hopen, ⟨fault, hkey⟩ | ⟨key, hkey, ⟨fault, hsend⟩ | ⟨d, hsend⟩⟩⟩
    · rw [handle_of_unopened hreq hunseen hopen] at h
      cases h
    · rw [handle_of_unread hreq hunseen hopen hkey] at h
      cases h
    · rw [handle_of_unsent hreq hunseen hopen hkey hsend] at h
      cases h
    · obtain ⟨hresult, hsent⟩ := handle_of_sent hreq hunseen hopen hkey hsend
      rw [hresult] at h
      cases h
      obtain ⟨hreach, hpayload⟩ := World.reaches_of_send hsend
      exact ⟨r, key, d, asks_iff.mpr ⟨hopen, rfl⟩, hkey, hreach, hpayload, hsent⟩
  · rintro ⟨r, key, d, hasks, hkey, -, -, hsent⟩
    obtain ⟨hopen, rfl⟩ := asks_iff.mp hasks
    cases hsend : w.send r.socket (ack :: key) with
    | error fault =>
        rw [sent_of_unsent hreq hunseen hopen hkey hsend] at hsent
        cases hsent
    | ok d => exact (handle_of_sent hreq hunseen hopen hkey hsend).1

theorem refused_of_sent {e : AgentError} (hresult : (a.handle w name).result = .error e)
    (hsent : (a.handle w name).report.sent ≠ []) :
    a.settings.sendNegativeAck = true ∧
    ∃ r kind fault d, a.Asks w name r kind ∧ w.tree.read (a.keyPath kind) = .error fault ∧
      e = .keyFile (.at (a.keyPath kind) fault) ∧ w.Reaches r.socket d.socket ∧
      d.payload = [nack] ∧ (a.handle w name).report.sent = [d] := by
  rcases exists_end a w name with
    ⟨e', hopen⟩ | ⟨r, hopen, ⟨fault, hkey⟩ | ⟨key, hkey, ⟨fault, hsend⟩ | ⟨d, hsend⟩⟩⟩
  · exact absurd (sent_of_unopened hreq hunseen hopen) hsent
  · rw [sent_of_unread hreq hunseen hopen hkey, sent_refuse] at hsent ⊢
    rw [handle_of_unread hreq hunseen hopen hkey] at hresult
    cases hresult
    cases hset : a.settings.sendNegativeAck with
    | false =>
        rw [hset] at hsent
        exact absurd rfl hsent
    | true =>
        cases hsend : w.send r.socket [nack] with
        | error fault' =>
            rw [hset, hsend] at hsent
            exact absurd rfl hsent
        | ok d =>
            obtain ⟨hreach, hpayload⟩ := World.reaches_of_send hsend
            exact ⟨rfl, r, wanted r, fault, d, asks_iff.mpr ⟨hopen, rfl⟩, hkey, rfl, hreach,
              hpayload, rfl⟩
  · exact absurd (sent_of_unsent hreq hunseen hopen hkey hsend) hsent
  · rw [(handle_of_sent hreq hunseen hopen hkey hsend).1] at hresult
    cases hresult

theorem refusal_failed {cause fault : Fault} (hset : a.settings.sendNegativeAck = true)
    (hasks : a.Asks w name r kind) (hkey : w.tree.read (a.keyPath kind) = .error cause)
    (hsend : w.send r.socket [nack] = .error fault) :
    (a.handle w name).result = .error (.keyFile (.at (a.keyPath kind) cause)) ∧
    (a.handle w name).report.sent = [] ∧
    .warn s!"could not refuse {name}: {(AgentError.reply r.socket fault).message}"
      ∈ (a.handle w name).report.log := by
  obtain ⟨text, -, hparse⟩ := hasks.accepted
  obtain ⟨hopen, rfl⟩ := asks_iff.mp hasks
  have hrefuse : a.refuse w r =
      .line (.warn s!"could not refuse {name}: {(AgentError.reply r.socket fault).message}") := by
    rw [refuse, if_pos hset, reply, hsend, ← Request.id_of_parse hparse]
    rfl
  refine ⟨by rw [handle_of_unread hreq hunseen hopen hkey], ?_, ?_⟩
  · rw [sent_of_unread hreq hunseen hopen hkey, hrefuse]
    rfl
  · rw [handle_of_unread hreq hunseen hopen hkey, hrefuse]
    exact List.mem_append_right _ (List.mem_append_right _ (List.mem_singleton_self _))

/-- What a request is opened for depends on its file and the clock alone. -/
theorem handle_of_unopened_congr {e : AgentError} (h : a.openRequest w name = .error e) {w' : World}
    (hread : w'.tree.read (a.requestPath name) = w.tree.read (a.requestPath name))
    (hnow : w'.now = w.now) (bootKey rootKey : Path) :
    (({ a with bootKey, rootKey } : Agent).handle w' name).result = (a.handle w name).result ∧
    (({ a with bootKey, rootKey } : Agent).handle w' name).report = (a.handle w name).report := by
  have htext : w'.tree.readText (a.requestPath name) = w.tree.readText (a.requestPath name) := by
    rw [FileTree.readText, FileTree.readText, hread]
  have hopen : ({ a with bootKey, rootKey } : Agent).openRequest w' name = .error e := by
    rw [← h]
    show a.openRequest w' name = a.openRequest w name
    rw [openRequest, openRequest, htext, requestIn, requestIn, hnow]
  rw [handle_of_unopened hreq hunseen h,
    handle_of_unopened (a := { a with bootKey, rootKey }) hreq hunseen hopen]
  exact ⟨rfl, congrArg remarksOn htext⟩

/-- What a request gets that is malformed or has expired depends on its file
    and the clock alone. -/
theorem handle_congr_of_early
    (hearly : (∃ cause, (a.handle w name).result = .error (.malformed cause)) ∨
      (a.handle w name).result = .error (.expired name)) {w' : World}
    (hread : w'.tree.read (a.requestPath name) = w.tree.read (a.requestPath name))
    (hnow : w'.now = w.now) (bootKey rootKey : Path) :
    (({ a with bootKey, rootKey } : Agent).handle w' name).result = (a.handle w name).result ∧
    (({ a with bootKey, rootKey } : Agent).handle w' name).report = (a.handle w name).report := by
  rcases exists_end a w name with
    ⟨e, hopen⟩ | ⟨r, hopen, ⟨fault, hkey⟩ | ⟨key, hkey, ⟨fault, hsend⟩ | ⟨d, hsend⟩⟩⟩
  · exact handle_of_unopened_congr hreq hunseen hopen hread hnow bootKey rootKey
  -- once it is opened, a request ends in another way
  · rw [handle_of_unread hreq hunseen hopen hkey] at hearly
    simp at hearly
  · rw [handle_of_unsent hreq hunseen hopen hkey hsend] at hearly
    simp at hearly
  · rw [(handle_of_sent hreq hunseen hopen hkey hsend).1] at hearly
    simp at hearly

end Account

/-- **Result, messages and marks agree.**  A name without the prefix is
    ignored, and a request that has been seen is a duplicate; neither
    changes anything.  Of any other the caller is told what went wrong
    first, or that the key was delivered, and the messages and the marks
    are those that go with it. -/
theorem handle_agrees (a : Agent) (w : World) (name : String) :
    (¬ a.settings.requestPrefix.toList <+: name.toList →
      (a.handle w name).result = .ok .ignored ∧ (a.handle w name).agent = a ∧
        (a.handle w name).report.sent = []) ∧
    (a.settings.requestPrefix.toList <+: name.toList → a.hasSeen name = true →
      (a.handle w name).result = .ok .duplicate ∧ (a.handle w name).agent = a ∧
        (a.handle w name).report.sent = []) ∧
    (a.settings.requestPrefix.toList <+: name.toList → a.hasSeen name = false →
      Account a w name (a.handle w name)) := by
  rw [← List.isPrefixOf_iff_prefix]
  refine ⟨?_, ?_, ?_⟩
  · intro hreq
    have hignored : a.handle w name = ⟨.ok .ignored, a, .silent⟩ := by
      rw [handle, handleHeld, isRequest, Bool.eq_false_iff.mpr hreq]
      rfl
    rw [hignored]
    exact ⟨rfl, rfl, rfl⟩
  · intro hreq hseen
    have hduplicate : a.handle w name = ⟨.ok .duplicate, a, .silent⟩ := by
      rw [handle, handleHeld, isRequest, hreq, hseen]
      rfl
    rw [hduplicate]
    exact ⟨rfl, rfl, rfl⟩
  · intro hreq hunseen
    exact
      { marked := agent_handle_of_unseen hreq hunseen
        ended := ended_handle hreq hunseen
        failed := fun _ => result_handle_eq_error_iff hreq hunseen
        answered := fun _ => result_handle_eq_answered_iff hreq hunseen
        refused := fun _ => refused_of_sent hreq hunseen
        refusalFailed := refusal_failed hreq hunseen
        answerFailed := by
          intro r kind key fault hasks hkey hsend
          obtain ⟨hopen, rfl⟩ := asks_iff.mp hasks
          exact ⟨by rw [handle_of_unsent hreq hunseen hopen hkey hsend],
            sent_of_unsent hreq hunseen hopen hkey hsend⟩
        keyless := by
          intro hearly w' bootKey rootKey hread hnow
          exact handle_congr_of_early hreq hunseen hearly hread hnow bootKey rootKey }

/-- The specimen, but for its agent being set up to refuse, and without the
    boot key. -/
def keyless : Scene :=
  { Scene.specimen with
    agent := { Scene.specimen.agent with
      settings := { Scene.specimen.agent.settings with sendNegativeAck := true } }
    around := Scene.specimen.around.attempt (.remove (.ofString "boot.key")) }

/-- A request whose key is gone is refused, and the error says why. -/
theorem handle_agrees_keyless :
    (keyless.agent.handle keyless.world "ask.1").report.sent = [⟨0, [nack]⟩] ∧
    Failure keyless.agent keyless.world "ask.1" (.keyFile (.notFound (.ofString "boot.key"))) ∧
    Account keyless.agent keyless.world "ask.1" (keyless.agent.handle keyless.world "ask.1") := by
  have haccount := (handle_agrees keyless.agent keyless.world "ask.1").2.2
    (List.isPrefixOf_iff_prefix.mp (by decide +kernel)) (by decide +kernel)
  exact ⟨by decide +kernel, (haccount.failed _).mp (by decide +kernel), haccount⟩

end Agent

end DiskKeys
