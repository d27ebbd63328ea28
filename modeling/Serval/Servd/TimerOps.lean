import Mathlib.Data.Int.ModEq
import Mathlib.Tactic.Linarith
import Serval.Servd.Timers

/-!
# Deleting and changing one timer

`timer_del` trusts the `index` of the timer: that of an idle timer is zero,
which is the place of the first timer in the queue. `timer_mod` sets
`expires` only for a timer that is scheduled, and scales it to nanoseconds in
a `long`.
-/

namespace Serval.Servd

open Serval.Support

def TimerQueue.HasRoom (tq : TimerQueue) (grow : Bool) : Prop :=
  tq.queue.map.length < tq.queue.maxSize ∨ grow = true

/-- The time in nanoseconds is a `long`. -/
def Scalable (expires : UInt64) : Prop := expires.toNat * 1000 < 2 ^ 63

namespace TimerQueue.Sound

variable {tq : TimerQueue} {t : Ptr} {expires : UInt64} {clock : Nat} {grow : Bool}

end TimerQueue.Sound

end Serval.Servd
