import OpsPilot.Foundations.StateMachine

/-!
# Run execution states

The execution states of a Run and the machine `runExecution` (`RUN_EXECUTION` in the source) that declares its legal moves.
A Run is *unfinished* while a human decision can still cancel it.
-/

namespace OpsPilot

/-- `RunExecution`. -/
inductive RunExecution
  | queued | running | waitingHuman | paused | blocked
  | completed | failed | cancelled | budgetExhausted
  deriving DecidableEq, Repr

/-- The triggers of `runExecution`. -/
inductive RunTrigger
  | claimed | humanPause | humanCancel | finished | awaitingHuman_input
  | executionFailed | retriesExhausted | incompatibleState | budgetExhausted
  | leaseExpired | humanReply | deadlineExpired | humanResume | handoffFailed
  deriving DecidableEq, Repr

open RunExecution in
/-- The declared legal moves of a Run. -/
def runExecution : StateMachine RunExecution RunTrigger where
  edges
    | queued =>
      [(.claimed, running), (.humanPause, paused), (.humanCancel, cancelled)]
    | running =>
      [(.finished, completed), (.awaitingHuman_input, waitingHuman), (.humanPause, paused),
        (.humanCancel, cancelled), (.executionFailed, failed), (.retriesExhausted, blocked),
        (.incompatibleState, blocked), (.budgetExhausted, budgetExhausted),
        (.leaseExpired, queued)]
    | waitingHuman =>
      -- a reply resumes as a new execution attempt, not in place
      [(.humanReply, queued), (.humanPause, paused), (.humanCancel, cancelled),
        (.deadlineExpired, failed)]
    | paused => [(.humanResume, queued), (.humanCancel, cancelled)]
    | blocked => [(.humanCancel, cancelled), (.handoffFailed, failed)]
    | completed | failed | cancelled | budgetExhausted => []

namespace RunExecution

/-- The states a cancelling decision closes:
`state IN ('queued','paused','running','waiting_human','blocked')`. -/
def unfinished : RunExecution → Bool
  | queued | paused | running | waitingHuman | blocked => true
  | _ => false

/-- Every unfinished Run can be cancelled by a human. -/
theorem edge_cancelled {e : RunExecution} (h : e.unfinished = true) :
    runExecution.Edge e cancelled := by
  refine runExecution.edge_of_fire .humanCancel ?_
  cases e <;> first | rfl | cases h

end RunExecution

end OpsPilot
