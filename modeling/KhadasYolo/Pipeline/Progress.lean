import KhadasYolo.Lib.Ranking
import KhadasYolo.Pipeline.Workers
import Mathlib.Algebra.Order.BigOperators.Group.Finset

/-!
# Progress of the pipeline

Every thread of the process waits somewhere: the main thread for a slot, a
result, the mutex or another thread, an inference thread for a job.  No two of
these waits can hold each other up, and once "shutdown" has been requested only
so many steps are left before the main thread is at the end or its teardown waits
for a thread that is held up outside.
-/

namespace KhadasYolo.Pipeline

open TransitionSystem

/-! ## Where the main thread can be held up -/

/-- At the join of a thread that the model leaves out. -/
@[simp] def MainPc.joining : MainPc → Bool
  | .teardown .joinData | .teardown .deinitOutput => true
  | _ => false

/-- The inference threads have been spawned. -/
@[simp] def MainPc.spawned : MainPc → Bool
  | .startup .startServers | .startup .loadCamera => true
  | .startup _ | .aborted => false
  | _ => true

end KhadasYolo.Pipeline
