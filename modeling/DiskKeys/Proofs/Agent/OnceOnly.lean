import DiskKeys.Proofs.Agent.Run

/-! # At most one message per request

    A request that has not been seen may still get one message, a seen one
    none: that is its allowance.  Every act pays for what it sends out of
    the allowance, for handling a request marks it as seen before anything
    can be sent.  So a whole run sends no more on behalf of an id than was
    allowed at its start. -/

namespace DiskKeys

namespace Agent

/-- How many messages a request may still get. -/
def allowance (a : Agent) (id : String) : Nat :=
  if a.hasSeen id then 0 else 1

theorem allowance_of_hasSeen {a : Agent} {id : String} (h : a.hasSeen id = true) :
    a.allowance id = 0 := if_pos h

theorem allowance_le_one (a : Agent) (id : String) : a.allowance id ≤ 1 := by
  unfold allowance
  split
  · exact Nat.zero_le 1
  · exact Nat.le_refl 1

/-- No act grants a request anything. -/
theorem allowance_act_le (w : World) (a : Agent) (x : Act) (id : String) :
    (a.act w x).allowance id ≤ a.allowance id := by
  by_cases h : a.hasSeen id = true
  · rw [allowance_of_hasSeen (hasSeen_act w x h)]
    exact Nat.zero_le _
  · rw [allowance, allowance, if_neg h]
    split
    · exact Nat.zero_le 1
    · exact Nat.le_refl 1

/-- Handling a name pays for the message that it sends. -/
theorem length_sent_handle_add_allowance_le (w : World) (a : Agent) (id : String) :
    (a.handle w id).report.sent.length + (a.act w (.handle id)).allowance id
      ≤ a.allowance id := by
  rw [sent_handle]
  by_cases hseen : a.hasSeen id = true
  · rw [messageFor?_of_hasSeen hseen]
    simpa using allowance_act_le w a (.handle id) id
  · cases hreq : a.isRequest id with
    | false =>
        rw [messageFor?_of_not_isRequest hreq]
        simpa using allowance_act_le w a (.handle id) id
    | true =>
        -- marked as seen whatever comes of it, so one message is all it can cost
        have hafter : (a.act w (.handle id)).hasSeen id = true :=
          (hasSeen_handle a w id id).mpr (Or.inr ⟨hreq, rfl⟩)
        rw [allowance_of_hasSeen hafter, allowance, if_neg hseen]
        exact Option.length_toList_le

/-- One act pays for what it sends on behalf of an id. -/
theorem length_sentFor_act_add_allowance_le (w : World) (a : Agent) (x : Act) (id : String) :
    (Handling.sentFor id (a.ledger w [x])).length + (a.act w x).allowance id
      ≤ a.allowance id := by
  cases x with
  | leave name => simpa [ledger] using allowance_act_le w a (.leave name) id
  | handle name =>
      by_cases hname : name = id
      · subst hname
        simpa [ledger, Handling.sentFor, Handling.sent] using
          length_sent_handle_add_allowance_le w a name
      · simpa [ledger, Handling.sentFor, hname] using allowance_act_le w a (.handle name) id

/-- Acts in a row pay for what they send on behalf of an id. -/
theorem length_sentFor_ledger_add_allowance_le (w : World) (a : Agent) (acts : List Act)
    (id : String) :
    (Handling.sentFor id (a.ledger w acts)).length + (a.perform w acts).allowance id
      ≤ a.allowance id := by
  induction acts generalizing a with
  | nil => simp
  | cons x rest ih =>
      -- what the first act leaves of the allowance is all that the rest may spend
      have hfirst := length_sentFor_act_add_allowance_le w a x id
      have hrest := ih (a.act w x)
      rw [show x :: rest = [x] ++ rest from rfl, ledger_append, Handling.sentFor_append,
        List.length_append, perform_append]
      show _ + (Handling.sentFor id ((a.act w x).ledger w rest)).length
        + ((a.act w x).perform w rest).allowance id ≤ _
      omega

end Agent

namespace Scene

/-- A step pays for what it sends on behalf of an id. -/
theorem length_sentFor_step_add_allowance_le (c : Scene) (st : Step) (id : String) :
    (Handling.sentFor id (c.stepLedger st)).length + (c.step st).1.agent.allowance id
      ≤ c.agent.allowance id := by
  rw [agent_step]
  exact Agent.length_sentFor_ledger_add_allowance_le c.world c.agent (c.acts st) id

/-- A run pays for what it sends on behalf of an id. -/
theorem length_sentFor_run_add_allowance_le (c : Scene) (steps : List Step) (id : String) :
    (Handling.sentFor id (c.ledger steps)).length + (c.run steps).agent.allowance id
      ≤ c.agent.allowance id := by
  induction steps generalizing c with
  | nil => simp [ledger, run]
  | cons st rest ih =>
      have hfirst := c.length_sentFor_step_add_allowance_le st id
      have hrest := ih (c.step st).1
      rw [ledger, Handling.sentFor_append, List.length_append]
      show _ + ((c.step st).1.run rest).agent.allowance id ≤ _
      omega

/-- **At most one message per request.**  In every run, whatever happens
    around the agent and in whichever ways it comes across an id: all
    messages are sent on behalf of names that are handled, at most one of
    them on behalf of the id; and a step that finds the id seen sends
    nothing on its behalf and leaves it seen. -/
theorem at_most_one_message (c : Scene) (steps : List Step) (id : String) :
    c.sent steps = (c.ledger steps).flatMap Handling.sent ∧
    (Handling.sentFor id (c.ledger steps)).length ≤ 1 ∧
    ∀ before st after, steps = before ++ st :: after →
      (c.run before).agent.hasSeen id = true →
        Handling.sentFor id ((c.run before).stepLedger st) = [] ∧
        ((c.run before).step st).1.agent.hasSeen id = true := by
  refine ⟨c.sent_eq_flatMap_ledger steps, ?_, ?_⟩
  · have hpaid := c.length_sentFor_run_add_allowance_le steps id
    have hone := c.agent.allowance_le_one id
    omega
  · intro before st after _ hseen
    refine ⟨?_, hasSeen_step st hseen⟩
    have hpaid := (c.run before).length_sentFor_step_add_allowance_le st id
    rw [Agent.allowance_of_hasSeen hseen] at hpaid
    exact List.length_eq_zero_iff.mp (by omega)

/-- A request that was handled is not answered again when its directory is
    scanned. -/
theorem at_most_one_message_specimen :
    specimen.sent [.handle "ask.1", .watch] = [⟨0, [Agent.ack, 1, 2, 3]⟩] ∧
    (Handling.sentFor "ask.1" (specimen.ledger [.handle "ask.1", .watch])).length ≤ 1 ∧
    Handling.sentFor "ask.1" ((specimen.run [.handle "ask.1"]).stepLedger .watch) = [] := by
  have h := at_most_one_message specimen [.handle "ask.1", .watch] "ask.1"
  refine ⟨by decide +kernel, h.2.1, ?_⟩
  exact (h.2.2 [.handle "ask.1"] .watch [] rfl (by decide +kernel)).1

end Scene

end DiskKeys
