import DiskKeys.Proofs.Agent.Run
import DiskKeys.Proofs.Request

/-! # Where messages come from

    No message leaves the agent without a warrant: a request that it had
    not seen, whose file at that moment holds a text that is accepted, that
    has not expired, and that names the socket at which the message
    arrives.  The message is the key that this request wants, as its file
    holds it at that moment, or a refusal if that very file cannot be
    read. -/

namespace DiskKeys

/-- What entitles an agent to send a message on behalf of an id: a text, the
    request that it spells, and the kind of key that the request wants. -/
structure Warrant (a : Agent) (w : World) (id text : String) (r : Request) (kind : KeyKind)
    (d : Datagram) : Prop where
  isRequest : a.settings.requestPrefix.toList <+: id.toList
  /-- The file of the request holds the text. -/
  held : ∃ bytes, w.tree.read (a.settings.askDir.join (.ofString id)) = .ok bytes ∧
    Text.Utf8.decode? bytes = some text
  accepted : Request.parse id text a.settings.bootMarker = .ok r
  /-- The text names one socket, and the message arrives there. -/
  addressed : ∃ fields socket, Request.fields? text = some fields ∧
    Request.valuesOf .socket fields = [socket] ∧ r.socket = .ofString (.ofList socket) ∧
    w.Reaches r.socket d.socket
  inTime : ∀ deadline, r.notAfter = some deadline → w.now < deadline
  chosen : kind = .boot ↔ a.settings.bootMarker.toList <:+: r.message.toList
  payload :
    (∃ key, w.tree.read (a.keyPath kind) = .ok key ∧ d.payload = Agent.ack :: key) ∨
    (d.payload = [Agent.nack] ∧ a.settings.sendNegativeAck = true ∧
      ∃ fault, w.tree.read (a.keyPath kind) = .error fault)

namespace Agent

/-- A request that was opened was held by its file, accepted and in time. -/
theorem openRequest_eq_ok {a : Agent} {w : World} {id : String} {r : Request}
    (h : a.openRequest w id = .ok r) :
    ∃ text bytes, w.tree.read (a.requestPath id) = .ok bytes ∧
      Text.Utf8.decode? bytes = some text ∧
      Request.parse id text a.settings.bootMarker = .ok r ∧ r.isExpired w.now = false := by
  obtain ⟨text, htext, hparse, hexpired⟩ := openRequest_eq_ok_iff.mp h
  obtain ⟨bytes, hread, hdecode⟩ := FileTree.readText_eq_ok_iff.mp htext
  exact ⟨text, bytes, hread, hdecode, hparse, hexpired⟩

/-- The message that a request gets is its key or a refusal, and arrives at
    its socket. -/
theorem message?_eq_some {a : Agent} {w : World} {r : Request} {d : Datagram}
    (h : a.message? w r = some d) :
    w.Reaches r.socket d.socket ∧
    ((∃ key, w.tree.read (a.keyPath (wanted r)) = .ok key ∧ d.payload = ack :: key) ∨
      (d.payload = [nack] ∧ a.settings.sendNegativeAck = true ∧
        ∃ fault, w.tree.read (a.keyPath (wanted r)) = .error fault)) := by
  have hsent : ∀ {payload : Bytes}, (w.send r.socket payload).toOption = some d →
      w.Reaches r.socket d.socket ∧ d.payload = payload := by
    intro payload hsend
    cases hres : w.send r.socket payload with
    | error e =>
        rw [hres] at hsend
        exact nomatch hsend
    | ok d' =>
        rw [hres] at hsend
        cases hsend
        exact World.reaches_of_send hres
  unfold message? FileTree.readSecret at h
  cases hkey : w.tree.read (a.keyPath (wanted r)) with
  | ok key =>
      rw [hkey] at h
      obtain ⟨hreach, hpayload⟩ := hsent h
      exact ⟨hreach, Or.inl ⟨key, rfl, hpayload⟩⟩
  | error fault =>
      rw [hkey] at h
      by_cases hset : a.settings.sendNegativeAck = true
      · simp only [Except.mapError_error, hset, if_true] at h
        obtain ⟨hreach, hpayload⟩ := hsent h
        exact ⟨hreach, Or.inr ⟨hpayload, hset, fault, rfl⟩⟩
      · simp [hset] at h

/-- The message that handling a name sends has a warrant, and the name had
    not been seen. -/
theorem warrant_of_messageFor? {a : Agent} {w : World} {id : String} {d : Datagram}
    (h : a.messageFor? w id = some d) :
    a.hasSeen id = false ∧ ∃ text r kind, Warrant a w id text r kind d := by
  by_cases hcond : a.isRequest id = true ∧ a.hasSeen id = false
  · rw [messageFor?, if_pos hcond] at h
    obtain ⟨hreq, hunseen⟩ := hcond
    cases hopen : a.openRequest w id with
    | error e => simp [hopen] at h
    | ok r =>
        have hmessage : a.message? w r = some d := by
          simpa [hopen] using h
        obtain ⟨text, bytes, hread, htext, hparse, hexpired⟩ := openRequest_eq_ok hopen
        obtain ⟨fields, socket, hfields, hsocket, hr⟩ := Request.parse_eq_ok.mp hparse
        obtain ⟨hreach, hpayload⟩ := message?_eq_some hmessage
        refine ⟨hunseen, text, r, wanted r, ?_⟩
        exact
          { isRequest := List.isPrefixOf_iff_prefix.mp hreq
            held := ⟨bytes, hread, htext⟩
            accepted := hparse
            addressed := ⟨fields, socket, hfields, hsocket, by rw [hr]; rfl, hreach⟩
            inTime := Request.isExpired_eq_false_iff.mp hexpired
            chosen := by
              rw [← Request.isBoot_iff hparse]
              unfold wanted
              cases r.isBoot <;> simp
            payload := hpayload }
  · rw [messageFor?, if_neg hcond] at h
    cases h

end Agent

/-- A warrant goes by the settings and the key files of the agent, whatever
    it has seen. -/
theorem Warrant.congr {a a' : Agent} {w : World} {id text : String} {r : Request} {kind : KeyKind}
    {d : Datagram} (h : Warrant a w id text r kind d) (hset : a.settings = a'.settings)
    (hkey : a.keyPath kind = a'.keyPath kind) : Warrant a' w id text r kind d := by
  obtain ⟨hreq, hheld, hparse, haddr, htime, hchosen, hpayload⟩ := h
  rw [hset] at hreq hheld hparse hchosen hpayload
  rw [hkey] at hpayload
  exact ⟨hreq, hheld, hparse, haddr, htime, hchosen, hpayload⟩

namespace Scene

/-- **No message without a warrant.**  Whatever is sent in a step of a run
    is sent by the handling of an id that had not been seen before, neither
    when the step began nor when its turn came; and the world of that very
    step, with the settings and key files of the agent, warrants it. -/
theorem sent_warranted (c : Scene) (before : List Step) (st : Step) {d : Datagram}
    (hd : d ∈ ((c.run before).step st).2.sent) :
    ∃ h ∈ (c.run before).stepLedger st, d ∈ h.sent ∧
      h.agent.hasSeen h.name = false ∧ (c.run before).agent.hasSeen h.name = false ∧
      ∃ text r kind, Warrant c.agent (c.run before).world h.name text r kind d := by
  rw [show ((c.run before).step st).2.sent = _ from ((c.run before).performs_step st).sent] at hd
  obtain ⟨h, hmem, hsent⟩ := List.mem_flatMap.mp hd
  obtain ⟨earlier, later, -, heq⟩ := Agent.mem_ledger hmem
  -- the agent whose turn it is keeps the settings and key files of the first one
  have hset : h.agent.settings = c.agent.settings := by
    rw [heq, Agent.settings_perform, settings_run]
  have hkey : ∀ kind, h.agent.keyPath kind = c.agent.keyPath kind := by
    intro kind
    rw [heq, Agent.keyPath_perform, keyPath_run]
  have hworld : h.world = (c.run before).world := by rw [heq]
  have hmessage : h.agent.messageFor? h.world h.name = some d := by
    have hlist := hsent
    rw [Handling.sent, Agent.sent_handle] at hlist
    exact Option.mem_toList.mp hlist
  obtain ⟨hunseen, text, r, kind, hwarrant⟩ := Agent.warrant_of_messageFor? hmessage
  refine ⟨h, hmem, hsent, hunseen, ?_, text, r, kind, ?_⟩
  · -- had it been seen at the start, it would be seen when its turn came
    cases hstart : (c.run before).agent.hasSeen h.name with
    | false => rfl
    | true =>
        have hlater := Agent.hasSeen_perform (c.run before).world earlier hstart
        rw [heq] at hunseen
        exact absurd (hlater.symm.trans hunseen) (by decide)
  · rw [hworld] at hwarrant
    exact hwarrant.congr hset (hkey kind)

/-- The answer of an agent that finds a request when it starts has a
    warrant. -/
theorem sent_warranted_specimen :
    (⟨0, [Agent.ack, 1, 2, 3]⟩ : Datagram) ∈ (specimen.step .watch).2.sent ∧
    ∃ id text r kind,
      Warrant specimen.agent specimen.world id text r kind ⟨0, [Agent.ack, 1, 2, 3]⟩ := by
  have hsent : (⟨0, [Agent.ack, 1, 2, 3]⟩ : Datagram)
      ∈ ((specimen.run []).step .watch).2.sent := by decide +kernel
  obtain ⟨h, -, -, -, -, text, r, kind, hwarrant⟩ := sent_warranted specimen [] .watch hsent
  exact ⟨hsent, h.name, text, r, kind, hwarrant⟩

end Scene

end DiskKeys
