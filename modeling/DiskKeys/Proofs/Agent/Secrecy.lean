import DiskKeys.Proofs.Agent.Acts
import DiskKeys.Proofs.Files.Alike

/-! # What an agent lets out of hidden files

    Of two worlds that differ in hidden bytes an agent makes the same, as
    long as none of the names that it handles leads to a hidden file
    (`Clear`): it ends up the same, says the same in its log, and sends
    messages in the same envelopes.  The hidden bytes show in the body of a
    message and nowhere else.  The proofs go through the agent function by
    function, up to looking through the directory and acting on notices. -/

namespace DiskKeys

/-- What can be told of a message without reading on behind its first
    byte. -/
structure Envelope where
  socket : Nat
  length : Nat
  status : Option UInt8
  deriving DecidableEq, Repr

def Datagram.envelope (d : Datagram) : Envelope :=
  ⟨d.socket, d.payload.length, d.payload.head?⟩

/-- Reports with the same log lines and the same envelopes. -/
structure Report.Alike (r r' : Report) : Prop where
  log : r.log = r'.log
  envelopes : r.sent.map Datagram.envelope = r'.sent.map Datagram.envelope

namespace Report

theorem Alike.refl (r : Report) : r.Alike r := ⟨rfl, rfl⟩

theorem Alike.append {r r' s s' : Report} (h : r.Alike r') (h' : s.Alike s') :
    (r ++ s).Alike (r' ++ s') := by
  refine ⟨?_, ?_⟩
  · show r.log ++ s.log = r'.log ++ s'.log
    rw [h.log, h'.log]
  · rw [sent_append, sent_append, List.map_append, List.map_append, h.envelopes, h'.envelopes]

end Report

namespace Agent

variable {hide : Location → Prop} {w w' : World} {a : Agent} {name : String}

/-! ## One request -/

theorem openRequest_alike (hw : w.Alike hide w') (h : w.tree.Shows hide (a.requestPath name)) :
    a.openRequest w' name = a.openRequest w name := by
  rw [openRequest, openRequest, requestIn, requestIn, hw.tree.readText_of_shows h, hw.now]

theorem refuse_alike (hw : w.Alike hide w') (a : Agent) (r : Request) :
    a.refuse w' r = a.refuse w r := by
  rw [refuse, refuse, reply, reply, hw.send]

/-- Secrets of one length are sent in the same envelope, or fail to be sent
    for the same reason. -/
theorem reply_alike (hw : w.Alike hide w') (socket : Path) (status : UInt8)
    {secret secret' : Bytes} (h : secret.length = secret'.length) :
    (reply w socket status secret).Alike (fun d d' => d.envelope = d'.envelope)
      (reply w' socket status secret') := by
  rw [reply, reply, hw.send]
  refine .mapError ?_ _
  have hlength : (status :: secret).length = (status :: secret').length := congrArg (· + 1) h
  refine (w.send_of_length_eq socket hlength).mono ?_
  rintro d d' ⟨hsocket, hpayload, hpayload'⟩
  rw [Datagram.envelope, Datagram.envelope, hsocket, hpayload, hpayload', hlength]
  rfl

/-- A hidden key only shows in the body of the answer. -/
theorem answer_alike (hw : w.Alike hide w') (a : Agent) (r : Request) :
    (a.answer w r).1 = (a.answer w' r).1 ∧ (a.answer w r).2.Alike (a.answer w' r).2 := by
  have hread := hw.tree.readSecret (a.keyPath (wanted r))
  simp only [answer]
  generalize w.tree.readSecret (a.keyPath (wanted r)) = x,
    w'.tree.readSecret (a.keyPath (wanted r)) = x' at hread ⊢
  cases hread with
  | error e =>
      simp only [refuse_alike hw]
      exact ⟨trivial, .refl _⟩
  | @ok key key' hlength =>
      have hreply := reply_alike hw r.socket ack hlength
      -- the log tells the length of the key
      simp only [hlength]
      generalize reply w r.socket ack key = y, reply w' r.socket ack key' = y' at hreply ⊢
      cases hreply with
      | error e => exact ⟨rfl, .refl _⟩
      | @ok d d' hd =>
          have hmessage : (Report.message d).Alike (.message d') := ⟨rfl, congrArg ([·]) hd⟩
          exact ⟨rfl, ((Report.Alike.refl _).append hmessage).append (.refl _)⟩

/-- What is sent for a request does not depend on hidden bytes, unless the
    key that it wants is hidden. -/
theorem message?_alike (hw : w.Alike hide w') {r : Request}
    (h : w.tree.Shows hide (a.keyPath (wanted r))) : a.message? w' r = a.message? w r := by
  simp only [message?, FileTree.readSecret, hw.tree.read_of_shows h, hw.send]

/-! ## One act after the other -/

/-- None of the names that acts handle leads to a hidden file. -/
def Clear (hide : Location → Prop) (w : World) (a : Agent) (acts : List Act) : Prop :=
  ∀ name, .handle name ∈ acts → w.tree.Shows hide (a.requestPath name)

theorem Clear.congr {a' : Agent} {acts acts' : List Act} (h : Clear hide w a acts)
    (hset : a.settings = a'.settings) (hacts : acts' ⊆ acts) : Clear hide w a' acts' := by
  intro name hname
  rw [requestPath, ← hset]
  exact h name (hacts hname)

/-- Pieces of work that leave the same agent, and whose reports are
    alike. -/
structure Alike (done done' : Agent × Report) : Prop where
  agent : done.1 = done'.1
  report : done.2.Alike done'.2

theorem Alike.refl (done : Agent × Report) : Alike done done := ⟨rfl, .refl _⟩

/-- Steps with the same result that leave the same agent, and whose reports
    are alike. -/
structure Outcome.Alike (o o' : Outcome) : Prop where
  result : o.result = o'.result
  agent : o.agent = o'.agent
  report : o.report.Alike o'.report

theorem Outcome.Alike.refl (o : Outcome) : o.Alike o := ⟨rfl, rfl, .refl _⟩

theorem handle_alike (hw : w.Alike hide w') (h : Clear hide w a [.handle name]) :
    (a.handle w name).Alike (a.handle w' name) := by
  have hshows := h name List.mem_cons_self
  unfold handle handleHeld
  by_cases hskip : a.isRequest name = false ∨ a.hasSeen name = true
  · -- the world is not even looked at
    rcases hskip with hother | hseen
    · simp only [hother, Bool.not_false, if_true]
      exact .refl _
    · simp only [hseen, if_true]
      exact .refl _
  · have hopen : a.requestIn w' name (w'.tree.readText (a.requestPath name))
        = a.requestIn w name (w.tree.readText (a.requestPath name)) :=
      openRequest_alike hw hshows
    -- what is remarked on the request is what its file holds, which is not hidden
    rw [hopen, hw.tree.readText_of_shows hshows]
    cases a.requestIn w name (w.tree.readText (a.requestPath name)) with
    | error e => exact .refl _
    | ok r =>
        simp only [not_or, Bool.not_eq_true, Bool.not_eq_false] at hskip
        obtain ⟨hresult, hreport⟩ := answer_alike hw a r
        simp only [hskip.1, hskip.2, Bool.not_true, Bool.false_eq_true, if_false]
        exact ⟨congrArg (Except.map Handled.answered) hresult, rfl,
          (Report.Alike.refl _).append hreport⟩

theorem conclude_alike {o o' : Outcome} (h : o.Alike o') (name : String) :
    Alike (conclude name o) (conclude name o') := by
  unfold conclude
  rw [← h.result, ← h.agent]
  split
  · exact ⟨rfl, h.report.append (.refl _)⟩
  · exact ⟨rfl, h.report⟩
  · exact ⟨rfl, h.report.append (.refl _)⟩

theorem dispatch_alike (hw : w.Alike hide w') (h : Clear hide w a [.handle name]) :
    Alike (a.dispatch w name) (a.dispatch w' name) :=
  conclude_alike (handle_alike hw h) name

theorem takeUp_alike (hw : w.Alike hide w') {answer : Bool}
    (h : Clear hide w a [takeUpAct answer name]) :
    Alike (takeUp answer w a name) (takeUp answer w' a name) := by
  cases answer with
  | true => exact dispatch_alike hw h
  | false =>
      simp only [takeUp, Bool.false_eq_true, if_false, acknowledge, hw.tree.probe]
      exact .refl _

/-- What comes to the same with each of a list comes to the same with all of
    them, for no more of the agent matters than its settings. -/
theorem forEach_alike {α : Type} {step step' : Agent → α → Agent × Report} {s : Settings}
    {xs : List α}
    (hone : ∀ a x, a.settings = s → x ∈ xs →
      Alike (step a x) (step' a x) ∧ (step a x).1.settings = s)
    {a : Agent} (ha : a.settings = s) : Alike (forEach step a xs) (forEach step' a xs) := by
  induction xs generalizing a with
  | nil => exact .refl _
  | cons x rest ih =>
      -- the first leaves the same agent in both, with the settings it had
      obtain ⟨hfirst, hset⟩ := hone a x ha List.mem_cons_self
      have hrest := ih (fun a x ha hx => hone a x ha (List.mem_cons_of_mem _ hx)) hset
      simp only [forEach]
      rw [← hfirst.agent]
      exact ⟨hrest.agent, hfirst.report.append hrest.report⟩

/-! ## The directory -/

/-- The requests in the directory are the same: they are sorted, in
    whichever order the directory lists them. -/
theorem pendingRequests_alike (hw : w.Alike hide w') (a : Agent) :
    a.pendingRequests w' = a.pendingRequests w := by
  refine (Except.Alike.eq (.bind (hw.tree.list a.settings.askDir) ?_)).symm
  intro names names' hnames
  unfold requestsAmong
  have hperm := (hnames.filterMap Text.Utf8.decode?).filter a.isRequest
  have hsorted : ∀ ids : List String,
      (ids.mergeSort (fun x y => decide (x ≤ y))).Pairwise (fun x y => decide (x ≤ y) = true) :=
    List.pairwise_mergeSort (by simpa using fun _ _ _ => String.le_trans)
      (by simpa using String.le_total)
  refine .ok (List.Perm.eq_of_pairwise ?_ (hsorted _) (hsorted _) ?_)
  · intro x y _ _ hxy hyx
    exact String.le_antisymm (of_decide_eq_true hxy) (of_decide_eq_true hyx)
  · exact (List.mergeSort_perm _ _).trans (hperm.trans (List.mergeSort_perm _ _).symm)

theorem rescanActs_alike (hw : w.Alike hide w') (a : Agent) (answer : Bool) :
    a.rescanActs w' answer = a.rescanActs w answer := by
  rw [rescanActs, rescanActs, pendingRequests_alike hw]

theorem rescan_alike (hw : w.Alike hide w') {answer : Bool}
    (h : Clear hide w a (a.rescanActs w answer)) :
    Alike (a.rescan w answer) (a.rescan w' answer) := by
  rw [rescan_eq, rescan_eq, pendingRequests_alike hw]
  unfold rescanActs at h
  cases hpending : a.pendingRequests w with
  | error e => exact .refl _
  | ok pending =>
      rw [hpending] at h
      refine forEach_alike ?_ rfl
      intro a' name hset hname
      have hact : [takeUpAct answer name] ⊆ pending.map (takeUpAct answer) :=
        List.cons_subset.mpr ⟨List.mem_map_of_mem hname, List.nil_subset _⟩
      exact ⟨takeUp_alike hw (h.congr hset.symm hact),
        (performs_takeUp w a' answer name).settings.trans hset⟩

theorem takeStock_alike (hw : w.Alike hide w')
    (h : Clear hide w a (a.rescanActs w a.settings.answerExisting)) :
    Alike (a.takeStock w) (a.takeStock w') := by
  have hscan := rescan_alike hw h
  exact ⟨hscan.agent, (Report.Alike.refl _).append hscan.report⟩

/-! ## Notices -/

theorem noticeActs_alike (hw : w.Alike hide w') (a : Agent) :
    a.noticeActs w' = a.noticeActs w := by
  funext n
  cases n with
  | changed name => rfl
  | overflow => exact rescanActs_alike hw a true

theorem onNotice_alike (hw : w.Alike hide w') {n : Notice}
    (h : Clear hide w a (a.noticeActs w n)) : Alike (onNotice w a n) (onNotice w' a n) := by
  cases n with
  | changed name => exact dispatch_alike hw h
  | overflow =>
      have hscan := rescan_alike hw h
      exact ⟨hscan.agent, (Report.Alike.refl _).append hscan.report⟩

theorem onNotices_alike (hw : w.Alike hide w') {notices : List Notice}
    (h : Clear hide w a (notices.flatMap (a.noticeActs w))) :
    Alike (a.onNotices w notices) (a.onNotices w' notices) := by
  refine forEach_alike ?_ rfl
  intro a' n hset hn
  have hacts : a'.noticeActs w n ⊆ notices.flatMap (a.noticeActs w) := by
    intro x hx
    rw [noticeActs_congr hset w] at hx
    exact List.mem_flatMap.mpr ⟨n, hn, hx⟩
  exact ⟨onNotice_alike hw (h.congr hset.symm hacts),
    (performs_onNotice w a' n).settings.trans hset⟩

end Agent

end DiskKeys
