import Mathlib.Algebra.Group.Int.Defs
import Mathlib.Algebra.Group.Nat.Defs
import Mathlib.Data.List.Perm.Basic
import Mathlib.Logic.Function.Basic
import Serval.Support.Heap

/-!
# Timers of the user-level stack

`stack/userlevel/timer.c`: a list of timers behind one lock, in the order in
which they end. Whether a timer is pending shows in its list entry. The pipe
that wakes up the thread waiting for the first timer is left out.
-/

namespace Serval.Userlevel

open Serval.Support

/-- `time_t` has 64 bits; the seconds here have no bound, so that no addition
of them overflows. -/
structure Timespec where
  sec : Int
  nsec : Int
  deriving DecidableEq, Repr

structure ClockTime extends Timespec where
  low : 0 ≤ nsec
  high : nsec < 1000000000

def timespecNormalize (t : Timespec) : Timespec :=
  if t.nsec ≥ 1000000000 then ⟨t.sec + 1, t.nsec - 1000000000⟩
  else if t.nsec < 0 then ⟨t.sec - 1, t.nsec + 1000000000⟩
  else t

def timespecAddNsec (t : Timespec) (nsec : UInt64) : Timespec :=
  timespecNormalize ⟨t.sec + (nsec / 1000000000).toNat, t.nsec + (nsec % 1000000000).toNat⟩

def timespecSub (t1 t2 : Timespec) : Timespec :=
  timespecNormalize ⟨t1.sec - t2.sec, t1.nsec - t2.nsec⟩

def timespecLt (t1 t2 : Timespec) : Bool :=
  decide (t1.sec < t2.sec ∨ t1.sec = t2.sec ∧ t1.nsec < t2.nsec)

/-- `gettime_jiffies`, in tens of milliseconds since the start. -/
def gettimeJiffies (start now : Timespec) : UInt64 :=
  let now := timespecSub now start
  UInt64.ofInt (now.sec * 100 + now.nsec.tdiv 10000000)

def jiffiesToNsecs (j : UInt64) : UInt64 := j * 10000000

/-- `struct timer_list`; it is pending while `entry.next` is set. -/
structure TimerEntry where
  pending : Bool
  expires : UInt64
  expiresAbs : Timespec

structure TimerListHead where
  startTime : Timespec
  head : List Ptr
  locked : Bool
  timers : Ptr → TimerEntry

/-- A call that does not return: it waits for the lock, or `BUG_ON` ends the
process. -/
inductive Halt where
  | blocked
  | exited
  deriving DecidableEq, Repr

/-- The clock at `gettime`, at `jiffies`, and when the call returns. -/
structure Clocks where
  first : ClockTime
  second : ClockTime
  now : ClockTime

/-- With timers as `init_timer` leaves them. -/
def timerListInit (startTime : Timespec) : TimerListHead :=
  ⟨startTime, [], false, fun _ => ⟨false, 0, ⟨0, 0⟩⟩⟩

section

variable (tlh : TimerListHead) (t : Ptr)

def timerListGetLocked : Except Halt TimerListHead :=
  if tlh.locked then .error .blocked else .ok { tlh with locked := true }

def timerListUnlock : TimerListHead := { tlh with locked := false }

def setPending (pending : Bool) : TimerListHead :=
  { tlh with timers := Function.update tlh.timers t { tlh.timers t with pending := pending } }

/-- The loop finds the first timer that ends later, or the head of the list. -/
def insertTimer (timers : Ptr → TimerEntry) (t : Ptr) : List Ptr → List Ptr
  | [] => [t]
  | tl :: rest =>
    if timespecLt (timers t).expiresAbs (timers tl).expiresAbs then t :: tl :: rest
    else tl :: insertTimer timers t rest

def delTimer : Except Halt (Int × TimerListHead) := do
  let tlh ← timerListGetLocked tlh
  if !(tlh.timers t).pending then
    .ok (0, tlh)
  else
    .ok (1, timerListUnlock (setPending { tlh with head := tlh.head.erase t } t false))

def modTimer (expires : UInt64) (clocks : Clocks) : Except Halt (Int × TimerListHead) := do
  let tlh ← timerListGetLocked tlh
  if (tlh.timers t).pending && (tlh.timers t).expires == expires then
    .ok (1, timerListUnlock tlh)
  else
    let (ret, head) := if (tlh.timers t).pending then (1, tlh.head.erase t) else (0, tlh.head)
    let delta := expires - gettimeJiffies tlh.startTime clocks.second.toTimespec
    let expiresAbs := timespecAddNsec clocks.first.toTimespec (jiffiesToNsecs delta)
    let timers := Function.update tlh.timers t ⟨true, expires, expiresAbs⟩
    .ok (ret, timerListUnlock { tlh with head := insertTimer timers t head, timers := timers })

def addTimer (clocks : Clocks) : Except Halt (Int × TimerListHead) :=
  if (tlh.timers t).pending then .error .exited
  else modTimer tlh t (tlh.timers t).expires clocks

/-- The timer whose function is called, if there is one. -/
def timerListHandleTimeout : Except Halt (Option Ptr × TimerListHead) := do
  let tlh ← timerListGetLocked tlh
  match tlh.head with
  | [] => .ok (none, timerListUnlock tlh)
  | t :: _ =>
    .ok (some t, timerListUnlock (setPending { tlh with head := tlh.head.erase t } t false))

end

inductive TimerCall where
  | add (t : Ptr) (clocks : Clocks)
  | mod (t : Ptr) (expires : UInt64) (clocks : Clocks)
  | del (t : Ptr)
  | handle

def timerCall (tlh : TimerListHead) : TimerCall → Except Halt TimerListHead
  | .add t clocks => return (← addTimer tlh t clocks).2
  | .mod t expires clocks => return (← modTimer tlh t expires clocks).2
  | .del t => return (← delTimer tlh t).2
  | .handle => return (← timerListHandleTimeout tlh).2

def AllCalls (P : TimerListHead → TimerCall → Prop) : TimerListHead → List TimerCall → Prop
  | _, [] => True
  | tlh, call :: rest => P tlh call ∧ ∀ tlh', timerCall tlh call = .ok tlh' → AllCalls P tlh' rest

/-! ## What one call does -/

variable {tlh tlh' : TimerListHead} {t : Ptr}

def rearm (tlh : TimerListHead) (t : Ptr) (expires : UInt64) (clocks : Clocks) : TimerListHead :=
  let delta := expires - gettimeJiffies tlh.startTime clocks.second.toTimespec
  let timers := Function.update tlh.timers t
    ⟨true, expires, timespecAddNsec clocks.first.toTimespec (jiffiesToNsecs delta)⟩
  { tlh with
    head := insertTimer timers t (if (tlh.timers t).pending then tlh.head.erase t else tlh.head)
    timers := timers }

def disarm (tlh : TimerListHead) (t : Ptr) : TimerListHead :=
  setPending { tlh with head := tlh.head.erase t } t false

theorem modTimer_call (free : tlh.locked = false) (expires : UInt64) (clocks : Clocks) :
    timerCall tlh (.mod t expires clocks) =
      .ok (if (tlh.timers t).pending && (tlh.timers t).expires == expires then tlh
        else rearm tlh t expires clocks) := by
  obtain ⟨startTime, head, locked, timers⟩ := tlh
  cases free
  change Except.map Prod.snd (if _ then _ else _) = _
  split_ifs with same
  · rfl
  · cases pending : (timers t).pending <;> simp only [rearm, pending] <;> rfl

theorem addTimer_call (clocks : Clocks) : timerCall tlh (.add t clocks) =
      if (tlh.timers t).pending then .error .exited
      else timerCall tlh (.mod t (tlh.timers t).expires clocks) := by
  simp only [timerCall, addTimer]
  split <;> rfl

theorem delTimer_call (free : tlh.locked = false) : timerCall tlh (.del t) =
      .ok (if (tlh.timers t).pending then disarm tlh t else { tlh with locked := true }) := by
  obtain ⟨startTime, head, locked, timers⟩ := tlh
  cases free
  change Except.map Prod.snd (if _ then _ else _) = _
  cases pending : (timers t).pending <;> simp <;> rfl

theorem handleTimeout_spec (free : tlh.locked = false) : timerListHandleTimeout tlh =
      .ok (tlh.head.head?, match tlh.head with | [] => tlh | t :: _ => disarm tlh t) := by
  obtain ⟨startTime, head, locked, timers⟩ := tlh
  cases free
  cases head <;> rfl

/-! ## The lock, and timers that are due -/

def Timespec.ns (t : Timespec) : Int := t.sec * 1000000000 + t.nsec

theorem addNsec_due (first now : ClockTime) (nsec : UInt64) :
    timespecLt now.toTimespec (timespecAddNsec first.toTimespec nsec) = false ↔
      (nsec.toNat : Int) ≤ now.ns - first.ns := by
  have low := first.low
  have high := first.high
  have low' := now.low
  have high' := now.high
  have quotient : (nsec / 1000000000).toNat = nsec.toNat / 1000000000 := UInt64.toNat_div ..
  have remainder : (nsec % 1000000000).toNat = nsec.toNat % 1000000000 := UInt64.toNat_mod ..
  simp only [timespecAddNsec, timespecNormalize, timespecLt, quotient, remainder, Timespec.ns,
    decide_eq_false_iff_not]
  split_ifs <;> simp only <;> omega

/-- A time that is not after the jiffies read in the call is not after the time
at its end. -/
def Soon (tlh : TimerListHead) (expires : UInt64) (clocks : Clocks) (ends : Timespec) : Prop :=
  expires ≤ gettimeJiffies tlh.startTime clocks.second.toTimespec →
    timespecLt clocks.now.toTimespec ends = false

/-- The call returns without the lock, and a timer it starts is due at once if
its time has come. -/
def Returns (tlh : TimerListHead) (call : TimerCall) : Prop :=
  ∃ tlh', timerCall tlh call = .ok tlh' ∧ tlh'.locked = false ∧
    match call with
    | .add t clocks => Soon tlh (tlh.timers t).expires clocks (tlh'.timers t).expiresAbs
    | .mod t expires clocks =>
      (tlh.timers t).pending = false → Soon tlh expires clocks (tlh'.timers t).expiresAbs
    | _ => True

/-- A time that has come is the present one, and the clock is not set back
during the call. Or it came so long ago that the nanoseconds since then fall
short of a multiple of `2 ^ 64` by no more than the call takes. -/
def Punctual (tlh : TimerListHead) (expires : UInt64) (clocks : Clocks) : Prop :=
  let jiffies := gettimeJiffies tlh.startTime clocks.second.toTimespec
  let late := (jiffies.toNat - expires.toNat) * 10000000
  let took := clocks.now.ns - clocks.first.ns
  expires ≤ jiffies → expires = jiffies ∧ 0 ≤ took ∨
    ∃ wraps : Nat, 0 < late ∧ late ≤ wraps * 2 ^ 64 ∧ (wraps * 2 ^ 64 - late : Int) ≤ took

/-- Only pending timers are deleted, and a timer that is added is not pending. -/
def Sensible (tlh : TimerListHead) : TimerCall → Prop
  | .add t clocks => (tlh.timers t).pending = false ∧ Punctual tlh (tlh.timers t).expires clocks
  | .mod t expires clocks => (tlh.timers t).pending = false → Punctual tlh expires clocks
  | .del t => (tlh.timers t).pending = true
  | .handle => True

/-- The difference is taken and scaled modulo `2 ^ 64`, so it is what the
lateness lacks of the next multiple. -/
private theorem jiffiesToNsecs_sub {expires jiffies : UInt64} (come : expires ≤ jiffies) :
    ∃ wraps : Nat, (jiffiesToNsecs (expires - jiffies)).toNat +
      (jiffies.toNat - expires.toNat) * 10000000 = wraps * 2 ^ 64 := by
  have order := UInt64.le_iff_toNat_le.mp come
  have small := jiffies.toNat_lt
  rw [jiffiesToNsecs, UInt64.toNat_mul, UInt64.toNat_sub]
  show ∃ wraps, (2 ^ 64 - jiffies.toNat + expires.toNat) % 2 ^ 64 * 10000000 % 2 ^ 64 + _ = _
  refine ⟨_, (Nat.div_mul_cancel (Nat.dvd_of_mod_eq_zero ?_)).symm⟩
  omega

private theorem due_iff {expires jiffies : UInt64} (come : expires ≤ jiffies) (took : Int) :
    ((jiffiesToNsecs (expires - jiffies)).toNat : Int) ≤ took ↔ expires = jiffies ∧ 0 ≤ took ∨
      ∃ wraps : Nat, 0 < (jiffies.toNat - expires.toNat) * 10000000 ∧
        (jiffies.toNat - expires.toNat) * 10000000 ≤ wraps * 2 ^ 64 ∧
        (wraps * 2 ^ 64 - ((jiffies.toNat - expires.toNat) * 10000000 : Nat) : Int) ≤ took := by
  have order := UInt64.le_iff_toNat_le.mp come
  obtain ⟨wraps, total⟩ := jiffiesToNsecs_sub come
  have small := (jiffiesToNsecs (expires - jiffies)).toNat_lt
  rcases eq_or_ne expires jiffies with rfl | apart
  · have zero : jiffiesToNsecs (expires - expires) = 0 := by
      rw [UInt64.sub_self]
      rfl
    rw [zero]
    simp
  · have earlier : expires.toNat < jiffies.toNat :=
      Nat.lt_of_le_of_ne order fun same => apart (UInt64.toNat.inj same)
    simp only [apart, false_and, false_or]
    constructor
    · intro due
      exact ⟨wraps, by omega, by omega, by omega⟩
    · rintro ⟨other, -, reaches, short⟩
      omega

theorem soon_rearm (expires : UInt64) (clocks : Clocks) :
    Soon tlh expires clocks ((rearm tlh t expires clocks).timers t).expiresAbs ↔
      Punctual tlh expires clocks := by
  simp only [Soon, Punctual, rearm, Function.update_self, addNsec_due]
  exact forall_congr' fun come => due_iff come _

theorem returns_iff (free : tlh.locked = false) (call : TimerCall) :
    Returns tlh call ↔ Sensible tlh call := by
  have rearmed (t : Ptr) (expires : UInt64) (clocks : Clocks) :
      (rearm tlh t expires clocks).locked = false := free
  have disarmed (t : Ptr) : (disarm tlh t).locked = false := free
  cases call with
  | add t clocks =>
    cases pending : (tlh.timers t).pending <;>
      simp [Returns, Sensible, addTimer_call, modTimer_call free, pending, soon_rearm, rearmed]
  | mod t expires clocks =>
    cases pending : (tlh.timers t).pending with
    | true =>
      simp only [Returns, Sensible, modTimer_call free, pending, Bool.true_eq_false, false_implies,
        and_true, iff_true]
      refine ⟨_, rfl, ?_⟩
      split_ifs
      · exact free
      · exact rearmed ..
    | false => simp [Returns, Sensible, modTimer_call free, pending, soon_rearm, rearmed]
  | del t =>
    cases pending : (tlh.timers t).pending <;>
      simp [Returns, Sensible, delTimer_call free, pending, disarmed]
  | handle =>
    refine iff_of_true ?_ trivial
    rw [Returns, timerCall, handleTimeout_spec free]
    refine ⟨_, rfl, ?_, trivial⟩
    split
    · exact free
    · exact disarmed _

/-- Every call of a run returns without the lock, and with timers that are due
at once if their time has come, just when every call of it is sensible. -/
theorem timers_return_iff (startTime : Timespec) (calls : List TimerCall) :
    AllCalls Returns (timerListInit startTime) calls ↔
      AllCalls Sensible (timerListInit startTime) calls := by
  suffices whole : ∀ tlh : TimerListHead, tlh.locked = false →
      (AllCalls Returns tlh calls ↔ AllCalls Sensible tlh calls) from whole _ rfl
  induction calls with
  | nil => exact fun _ _ => Iff.rfl
  | cons call rest ih =>
    intro tlh free
    rw [AllCalls, returns_iff free]
    refine and_congr_right fun sensible => forall₂_congr fun tlh' run => ih tlh' ?_
    obtain ⟨_, same, released, -⟩ := (returns_iff free call).mpr sensible
    cases run.symm.trans same
    exact released

/-- The clock of the call reads ten milliseconds and more, and the timer is to
end at zero. -/
def lateClocks : Clocks :=
  let time : ClockTime := ⟨⟨0, 10000000⟩, by decide, by decide⟩
  ⟨time, time, time⟩

/-- Deleting a timer that is not pending keeps the lock; and a timer whose time
has come is to end in more than five hundred years. -/
theorem timers_return_idle : ¬ AllCalls Returns (timerListInit ⟨0, 0⟩) [.del 1] ∧
      ¬ AllCalls Returns (timerListInit ⟨0, 0⟩) [.mod 1 0 lateClocks] := by
  constructor
  · rintro ⟨⟨tlh, run, released, -⟩, -⟩
    cases run
    cases released
  · rintro ⟨⟨tlh, run, -, soon⟩, -⟩
    cases run
    exact absurd (soon rfl (by decide)) (by decide)

def inserts (tlh : TimerListHead) : TimerCall → Option Ptr
  | .add t _ => some t
  | .mod t expires _ =>
    if (tlh.timers t).pending && (tlh.timers t).expires == expires then none else some t
  | _ => none

/-- The list, with the number of the call that last inserted each timer. -/
structure TimerHistory where
  tlh : TimerListHead
  inserted : Ptr → Nat
  next : Nat

def historyCall (h : TimerHistory) (call : TimerCall) : Except Halt TimerHistory := do
  let tlh ← timerCall h.tlh call
  .ok ⟨tlh, (inserts h.tlh call).elim h.inserted (Function.update h.inserted · h.next), h.next + 1⟩

/-- The first timer ends before the second, or with it and was inserted before. -/
def TimerHistory.Before (h : TimerHistory) (a b : Ptr) : Prop :=
  timespecLt (h.tlh.timers b).expiresAbs (h.tlh.timers a).expiresAbs = false ∧
    ((h.tlh.timers a).expiresAbs = (h.tlh.timers b).expiresAbs → h.inserted a < h.inserted b)

/-- The list has each pending timer once, in order. -/
structure TimerHistory.Ordered (h : TimerHistory) : Prop where
  released : h.tlh.locked = false
  sorted : h.tlh.head.Pairwise h.Before
  once : ∀ t, h.tlh.head.count t = if (h.tlh.timers t).pending then 1 else 0
  past : ∀ t, h.inserted t < h.next

theorem timespecLt_false {a b : Timespec} :
    timespecLt a b = false ↔ ¬ (a.sec < b.sec ∨ a.sec = b.sec ∧ a.nsec < b.nsec) :=
  decide_eq_false_iff_not

theorem insertTimer_perm (timers : Ptr → TimerEntry) (t : Ptr) (head : List Ptr) :
    (insertTimer timers t head).Perm (t :: head) := by
  induction head with
  | nil => exact .refl _
  | cons tl rest ih =>
    rw [insertTimer]
    split_ifs
    · exact .refl _
    · exact (ih.cons tl).trans (.swap ..)

/-- The timer is put in behind all that end with it. -/
theorem insertTimer_sorted {h : TimerHistory} {head : List Ptr} (sorted : head.Pairwise h.Before)
    (last : ∀ tl ∈ head, h.inserted tl < h.inserted t) :
    (insertTimer h.tlh.timers t head).Pairwise h.Before := by
  induction head with
  | nil => exact List.pairwise_singleton _ _
  | cons tl rest ih =>
    obtain ⟨first, rest'⟩ := List.pairwise_cons.mp sorted
    rw [insertTimer]
    split_ifs with earlier
    · have ahead {b : Ptr} (behind : timespecLt (h.tlh.timers b).expiresAbs
          (h.tlh.timers tl).expiresAbs = false) : h.Before t b := by
        rw [timespecLt, decide_eq_true_eq] at earlier
        rw [timespecLt_false] at behind
        refine ⟨timespecLt_false.mpr (by omega), fun same => ?_⟩
        rw [same] at earlier
        omega
      refine List.pairwise_cons.mpr ⟨fun b inside => ?_, sorted⟩
      rcases List.mem_cons.mp inside with rfl | inside
      · exact ahead (timespecLt_false.mpr (by omega))
      · exact ahead (first b inside).1
    · refine List.pairwise_cons.mpr ⟨fun b inside => ?_, ih rest' fun other inside =>
        last other (List.mem_cons_of_mem _ inside)⟩
      rcases List.mem_cons.mp ((insertTimer_perm _ _ _).subset inside) with rfl | inside
      · exact ⟨Bool.eq_false_iff.mpr earlier, fun _ => last tl List.mem_cons_self⟩
      · exact first b inside

namespace TimerHistory.Ordered

variable {h : TimerHistory}

theorem pending_iff (ordered : h.Ordered) (t : Ptr) :
    t ∈ h.tlh.head ↔ (h.tlh.timers t).pending = true := by
  rw [← List.count_pos_iff, ordered.once]
  split_ifs with pending <;> simp [pending]

theorem next (ordered : h.Ordered) : Ordered { h with next := h.next + 1 } :=
  ⟨ordered.released, ordered.sorted, ordered.once, fun t => Nat.lt_succ_of_lt (ordered.past t)⟩

/-- The other timers are as they were. -/
theorem sorted_others (ordered : h.Ordered) {h' : TimerHistory}
    (timers : ∀ other, other ≠ t → h'.tlh.timers other = h.tlh.timers other)
    (inserted : ∀ other, other ≠ t → h'.inserted other = h.inserted other)
    {head : List Ptr} (sub : head.Sublist h.tlh.head) (out : t ∉ head) :
    head.Pairwise h'.Before := by
  refine (ordered.sorted.sublist sub).imp_of_mem fun {a b} left right before => ?_
  have first : a ≠ t := fun same => out (same ▸ left)
  have second : b ≠ t := fun same => out (same ▸ right)
  simpa only [Before, timers a first, timers b second, inserted a first, inserted b second]
    using before

/-- What is left of the list without the timer. -/
theorem erased (ordered : h.Ordered) (t : Ptr) : t ∉ h.tlh.head.erase t ∧ ∀ other, other ≠ t →
      (h.tlh.head.erase t).count other = h.tlh.head.count other := by
  constructor
  · rw [← List.count_eq_zero, List.count_erase_self, ordered.once]
    split_ifs <;> rfl
  · exact fun other different => List.count_erase_of_ne different

theorem disarm (ordered : h.Ordered) (t : Ptr) :
    Ordered ⟨disarm h.tlh t, h.inserted, h.next + 1⟩ := by
  obtain ⟨out, others⟩ := ordered.erased t
  have same (other : Ptr) (different : other ≠ t) :
      (Userlevel.disarm h.tlh t).timers other = h.tlh.timers other :=
    Function.update_of_ne different ..
  refine ⟨ordered.released, ?_, fun other => ?_, ordered.next.past⟩
  · exact @sorted_others _ _ ordered ⟨_, _, _⟩ same (fun _ _ => rfl) _ List.erase_sublist out
  · by_cases self : other = t
    · subst self
      simp [Userlevel.disarm, setPending, List.count_eq_zero.mpr out]
    · simp only [same other self]
      exact (others other self).trans (ordered.once other)

theorem rearm (ordered : h.Ordered) (t : Ptr) (expires : UInt64) (clocks : Clocks) :
    Ordered ⟨rearm h.tlh t expires clocks, Function.update h.inserted t h.next, h.next + 1⟩ := by
  obtain ⟨out, others⟩ := ordered.erased t
  have same (other : Ptr) (different : other ≠ t) :
      (Userlevel.rearm h.tlh t expires clocks).timers other = h.tlh.timers other :=
    Function.update_of_ne different ..
  have kept (other : Ptr) (different : other ≠ t) :
      Function.update h.inserted t h.next other = h.inserted other :=
    Function.update_of_ne different ..
  have list : (if (h.tlh.timers t).pending then h.tlh.head.erase t else h.tlh.head) =
      h.tlh.head.erase t := by
    split_ifs with pending
    · rfl
    · exact (List.erase_of_not_mem (mt (ordered.pending_iff t).mp pending)).symm
  have place : (Userlevel.rearm h.tlh t expires clocks).head =
      insertTimer (Userlevel.rearm h.tlh t expires clocks).timers t (h.tlh.head.erase t) :=
    congrArg (insertTimer _ t) list
  refine ⟨ordered.released, ?_, fun other => ?_, fun other => ?_⟩
  · simp only [place]
    refine @insertTimer_sorted _ ⟨_, _, _⟩ _
      (@sorted_others _ _ ordered ⟨_, _, _⟩ same kept _ List.erase_sublist out) fun tl inside => ?_
    have different : tl ≠ t := fun same => out (same ▸ inside)
    simp only [kept tl different, Function.update_self]
    exact ordered.past tl
  · simp only [place]
    rw [(insertTimer_perm _ _ _).count_eq]
    by_cases self : other = t
    · subst self
      simp [Userlevel.rearm, List.count_eq_zero.mpr out]
    · simp only [same other self, List.count_cons_of_ne (Ne.symm self)]
      exact (others other self).trans (ordered.once other)
  · by_cases self : other = t
    · simp only [self, Function.update_self]
      exact Nat.lt_succ_self _
    · simp only [kept other self]
      exact ordered.next.past other

theorem step (ordered : h.Ordered) {call : TimerCall}
    (deletes : ∀ t, call = .del t → (h.tlh.timers t).pending = true) :
    historyCall h call = .error .exited ∨ ∃ h', historyCall h call = .ok h' ∧ h'.Ordered := by
  have free := ordered.released
  cases call with
  | add t clocks =>
    cases pending : (h.tlh.timers t).pending with
    | true =>
      left
      rw [historyCall, addTimer_call, if_pos pending]
      rfl
    | false =>
      right
      rw [historyCall, addTimer_call, modTimer_call free]
      simp only [pending, Bool.false_and]
      exact ⟨_, rfl, ordered.rearm t _ clocks⟩
  | mod t expires clocks =>
    right
    rw [historyCall, modTimer_call free, inserts]
    split_ifs
    · exact ⟨_, rfl, ordered.next⟩
    · exact ⟨_, rfl, ordered.rearm t expires clocks⟩
  | del t =>
    right
    rw [historyCall, delTimer_call free, if_pos (deletes t rfl)]
    exact ⟨_, rfl, ordered.disarm t⟩
  | handle =>
    right
    rw [historyCall, timerCall, handleTimeout_spec free]
    refine ⟨_, rfl, ?_⟩
    split
    · exact ordered.next
    · exact ordered.disarm _

theorem run (ordered : h.Ordered) {calls : List TimerCall}
    (deletes : AllCalls (fun tlh call => ∀ t, call = .del t → (tlh.timers t).pending = true)
      h.tlh calls) :
    calls.foldlM historyCall h = .error .exited ∨
      ∃ h', calls.foldlM historyCall h = .ok h' ∧ h'.Ordered := by
  induction calls generalizing h with
  | nil => exact .inr ⟨h, rfl, ordered⟩
  | cons call rest ih =>
    rw [List.foldlM_cons]
    rcases ordered.step deletes.1 with exited | ⟨h', made, ordered'⟩
    · rw [exited]
      exact .inl rfl
    · rw [made]
      refine ih ordered' (deletes.2 h'.tlh ?_)
      rw [historyCall] at made
      cases called : timerCall h.tlh call with
      | error halt =>
        rw [called] at made
        cases made
      | ok tlh =>
        rw [called] at made
        cases made
        rfl

/-- The first timer of the list is the one that is run. -/
theorem handle (ordered : h.Ordered) {t : Ptr} {rest : List Ptr} (head : h.tlh.head = t :: rest) :
    ∃ tlh', timerListHandleTimeout h.tlh = .ok (some t, tlh') ∧
      (∀ other ∈ h.tlh.head, timespecLt (h.tlh.timers other).expiresAbs
        (h.tlh.timers t).expiresAbs = false) ∧ tlh'.head = rest ∧ (tlh'.timers t).pending = false ∧
      ∀ other, other ≠ t → tlh'.timers other = h.tlh.timers other := by
  have sorted := ordered.sorted
  have run := handleTimeout_spec ordered.released
  rw [head] at sorted run
  refine ⟨_, run, fun other inside => ?_, ?_, ?_, fun other different => ?_⟩
  · rw [head] at inside
    rcases List.mem_cons.mp inside with rfl | inside
    · exact timespecLt_false.mpr (by omega)
    · exact ((List.pairwise_cons.mp sorted).1 other inside).1
  · simp [Userlevel.disarm, setPending, head]
  · simp [Userlevel.disarm, setPending]
  · exact Function.update_of_ne different ..

end TimerHistory.Ordered

/-- Along every run in which only pending timers are deleted the list stays in
order, unless a pending timer is added, which ends the process. -/
theorem timers_inOrder {startTime : Timespec} {calls : List TimerCall}
    (deletes : AllCalls (fun tlh call => ∀ t, call = .del t → (tlh.timers t).pending = true)
      (timerListInit startTime) calls) :
    calls.foldlM historyCall ⟨timerListInit startTime, fun _ => 0, 1⟩ = .error .exited ∨
      ∃ h, calls.foldlM historyCall ⟨timerListInit startTime, fun _ => 0, 1⟩ = .ok h ∧
        h.Ordered ∧ ∀ t rest, h.tlh.head = t :: rest →
          ∃ tlh', timerListHandleTimeout h.tlh = .ok (some t, tlh') ∧
            (∀ other ∈ h.tlh.head, timespecLt (h.tlh.timers other).expiresAbs
              (h.tlh.timers t).expiresAbs = false) ∧
            tlh'.head = rest ∧ (tlh'.timers t).pending = false ∧
            ∀ other, other ≠ t → tlh'.timers other = h.tlh.timers other := by
  have start : TimerHistory.Ordered ⟨timerListInit startTime, fun _ => 0, 1⟩ :=
    ⟨rfl, .nil, fun _ => rfl, fun _ => Nat.one_pos⟩
  rcases start.run deletes with exited | ⟨h, made, ordered⟩
  · exact .inl exited
  · exact .inr ⟨h, made, ordered, fun t rest head => ordered.handle head⟩

theorem timers_inOrder_two :
    ∃ h, [.mod 1 5 lateClocks, .mod 2 3 lateClocks, .del 1].foldlM historyCall
        ⟨timerListInit ⟨0, 0⟩, fun _ => 0, 1⟩ = .ok h ∧ h.Ordered := by
  have deletes : AllCalls (fun tlh call => ∀ t, call = .del t → (tlh.timers t).pending = true)
      (timerListInit ⟨0, 0⟩) [.mod 1 5 lateClocks, .mod 2 3 lateClocks, .del 1] := by
    refine ⟨nofun, fun _ run => ?_⟩
    cases run
    refine ⟨nofun, fun _ run => ?_⟩
    cases run
    refine ⟨fun t same => ?_, fun _ _ => trivial⟩
    cases same
    rfl
  rcases timers_inOrder deletes with exited | ⟨h, run, ordered, -⟩
  · cases exited
  · exact ⟨h, run, ordered⟩

end Serval.Userlevel
