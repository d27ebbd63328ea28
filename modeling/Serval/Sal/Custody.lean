import Serval.Sal.State
import Serval.Support.Ledger

/-!
# Who owns a packet that is sent

The calls by which `serval_sal_transmit_skb` takes and gives up packets, the
reference to a service entry, and the lock of that entry. The header of a
packet is of no matter here, so it is not built.
-/

namespace Serval

open Serval.Support

inductive Resource where
  | skb (id : Nat)
  | entryRef
  | entryLock
  | sockRef
  deriving DecidableEq, Repr

/-- A call that takes a resource, uses it or gives it up. Packet 0 is the one
that the function was called with. -/
inductive CustodyCall where
  | given
  | pskbCopy (id : Nat)
  | use (id : Nat)
  | kfreeSkb (id : Nat)
  | queueXmit (id : Nat)
  | delayQueueSkb (id : Nat)
  | receive (id : Nat)
  | transportFrees (id : Nat)
  | addBacklog (id : Nat)
  | forwardOut (id : Nat)
  | serviceFind
  | serviceEntryPut
  | readLock
  | readUnlock
  | sockHold
  | sockPut
  deriving DecidableEq, Repr

namespace CustodyCall

def took : CustodyCall → Option Resource
  | given => some (.skb 0)
  | pskbCopy id => some (.skb id)
  | serviceFind => some .entryRef
  | readLock => some .entryLock
  | sockHold => some .sockRef
  | _ => none

def gave : CustodyCall → Option Resource
  | kfreeSkb id => some (.skb id)
  | queueXmit id => some (.skb id)
  | delayQueueSkb id => some (.skb id)
  | receive id => some (.skb id)
  | transportFrees id => some (.skb id)
  | addBacklog id => some (.skb id)
  | forwardOut id => some (.skb id)
  | serviceEntryPut => some .entryRef
  | readUnlock => some .entryLock
  | sockPut => some .sockRef
  | _ => none

end CustodyCall

/-! ## The calls of a transmission -/

inductive TargetFate where
  | delayed
  | dropped
  | noDevice
  | noAddress
  | sent
  deriving DecidableEq, Repr

def devFate (env : SalEnv) : Option Ptr → TargetFate
  | none => .noDevice
  | some dev => if (env.devAddr dev).isSome then .sent else .noAddress

def targetFate (env : SalEnv) (target : Target) :
    Except Fault TargetFate :=
  match target.type with
  | .delay => .ok .delayed
  | .drop => .ok .dropped
  | _ => do
    let dev ← targetDev env target
    .ok (devFate env dev)

variable {env : SalEnv} {useCopy : Bool} {skb fuel tick : Nat}
    {iter iter' : ServiceIter} {id : Nat} {target : Target}
    {next : Option Target} {err : Int} {fate : TargetFate}
    {host host' : SalHost}

private theorem targetFate_of_dev {dev : Option Ptr} (noDelay : target.type ≠ .delay)
    (noDrop : target.type ≠ .drop) (device : targetDev env target = .ok dev) :
    targetFate env target = .ok (devFate env dev) := by
  rw [targetFate]
  split
  · contradiction
  · contradiction
  · rw [device, ok_bind]

namespace TargetFate

/-- Whether the round sets `target` to `next_target`. -/
def advances : TargetFate → Bool
  | dropped => false
  | noDevice => false
  | _ => true

def calls (cskb : Nat) : TargetFate → List CustodyCall
  | delayed => [.delayQueueSkb cskb]
  | dropped => [.kfreeSkb cskb]
  | sent => [.queueXmit cskb]
  | _ => []

/-- The calls of a round; unless the target is the last one it gets a copy. -/
def round (fate : TargetFate) (more : Bool) (skb id : Nat) :
    List CustodyCall :=
  if more then .pskbCopy id :: fate.calls id else fate.calls skb

end TargetFate

/-- The loop over the targets, as in `transmitTargets`. The packet `skb` goes
to the last target, the others get copies, the next of which is `id`. -/
def transmitTargetsCalls (env : SalEnv) (skb : Nat) : Nat → ServiceIter → Target → Nat → Nat →
      Except Fault (List CustodyCall)
  | 0, _, _, _, _ => .error .fuel
  | fuel + 1, iter, target, tick, id => do
    let (next, iter) ← serviceIterNext iter
    if next.isSome && !env.alloc tick then
      .ok [.kfreeSkb skb]
    else do
      let fate ← targetFate env target
      let later : Except Fault (List CustodyCall) :=
        match if fate.advances then next else some target with
        | none => .ok []
        | some target =>
          transmitTargetsCalls env skb fuel iter target (tick + 1)
            (id + 1)
      let calls ← later
      .ok (fate.round next.isSome skb id ++ calls)

/-- The packet that the call works on. With `use_copy` the packet of the
caller stays with the caller. -/
def workedSkb (useCopy : Bool) : Nat := if useCopy then 1 else 0

def startCalls (useCopy : Bool) : List CustodyCall :=
  if useCopy then [.pskbCopy 1] else [.given]

/-- The calls once an entry was found, which `service_iter_init` locks before
anything else. -/
def transmitEntryCalls (env : SalEnv) (se : ServiceEntry) (tick : Nat) (useCopy : Bool)
    (fuel : Nat) : Except Fault (List CustodyCall) :=
  let start := startCalls useCopy ++ [.serviceFind, .readLock]
  let (ok, iter) := serviceIterInit se env.mode (env.random tick)
  if !ok then
    .ok (start ++ [.kfreeSkb (workedSkb useCopy)])
  else do
    let (first, iter) ← serviceIterNext iter
    match first with
    | none =>
      .ok (start ++ [.kfreeSkb (workedSkb useCopy)] ++ [.readUnlock, .serviceEntryPut])
    | some target => do
      let calls ← transmitTargetsCalls env (workedSkb useCopy) fuel iter target tick 2
      .ok (start ++ calls ++ [.readUnlock, .serviceEntryPut])

def servalSalTransmitSkbCalls (env : SalEnv) (table : ServiceTable) (srvid : List UInt8)
    (tick : Nat) (useCopy : Bool) (fuel : Nat) :
    Except Fault (List CustodyCall) :=
  if useCopy && !env.alloc tick then
    .ok []
  else do
    match ← serviceFind table srvid serviceIdMaxPrefixBits with
    | none => .ok (startCalls useCopy ++ [.kfreeSkb (workedSkb useCopy)])
    | some se => transmitEntryCalls env se (tick + 1) useCopy fuel

private theorem transmitTargets_fate {skb : CtrlSkb} {err' : Int} {freed : Bool}
    (stepped : serviceIterNext iter = .ok (next, iter'))
    (run : transmitTargets env skb (fuel + 1) iter target err freed host = .ok (err', host')) :
    (next.isSome && !env.alloc host.tick) = true ∨
      ∃ fate, targetFate env target = .ok fate ∧
        ∀ target', (if fate.advances then next else some target) = some target' →
            ∃ err freed middle, middle.tick = host.tick + 1 ∧
                transmitTargets env skb fuel iter' target' err freed middle =
                  .ok (err', host') := by
  rw [transmitTargets, stepped, ok_bind] at run
  dsimp only at run
  split_ifs at run with failed freed
  · exact .inl failed
  right
  split at run
  · rename_i delay
    refine ⟨.delayed, by rw [targetFate, delay], ?_⟩
    rintro target' ⟨⟩
    exact ⟨_, _, _, rfl, run⟩
  · rename_i drop
    refine ⟨.dropped, by rw [targetFate, drop], ?_⟩
    rintro target' ⟨⟩
    exact ⟨_, _, _, rfl, run⟩
  rename_i noDelay noDrop
  obtain ⟨dev, device, run⟩ := of_bind run
  refine ⟨_, targetFate_of_dev noDelay noDrop device, ?_⟩
  cases dev with
  | none =>
    rintro target' ⟨⟩
    exact ⟨_, _, _, rfl, run⟩
  | some dev =>
    dsimp only at run
    cases source : env.devAddr dev with
    | none =>
      rw [source] at run
      simp only [devFate, source]
      rintro target' ⟨⟩
      exact ⟨_, _, _, rfl, run⟩
    | some saddr =>
      rw [source] at run
      obtain ⟨⟨localErr, sent⟩, queued, run⟩ := of_bind run
      simp only [devFate, source]
      rintro target' ⟨⟩
      exact ⟨_, _, _, (queueXmit_tick queued).1, run⟩

private theorem transmitTargetsCalls_of_transmit {skb : CtrlSkb} {err' : Int} {freed : Bool}
    (run :
      transmitTargets env skb fuel iter target err freed host = .ok (err', host')) (n id : Nat) :
    ∃ calls, transmitTargetsCalls env n fuel iter target host.tick id = .ok calls := by
  induction fuel generalizing iter target err freed host id with
  | zero => cases run
  | succ fuel ih =>
    rw [transmitTargetsCalls]
    obtain ⟨⟨next, iter'⟩, stepped, -⟩ := of_bind run
    rw [stepped, ok_bind]
    dsimp only
    obtain failed | ⟨fate, met, later⟩ := transmitTargets_fate stepped run
    · rw [if_pos failed]
      exact ⟨_, rfl⟩
    by_cases failed : (next.isSome && !env.alloc host.tick) = true
    · rw [if_pos failed]
      exact ⟨_, rfl⟩
    rw [if_neg failed, met, ok_bind]
    cases follows : if fate.advances then next else some target with
    | none => exact ⟨_, rfl⟩
    | some target' =>
      obtain ⟨err, freed, middle, tick, run⟩ := later target' follows
      obtain ⟨calls, made⟩ := ih run (id + 1)
      dsimp only
      rw [← tick, made]
      exact ⟨_, rfl⟩

/-- Every transmission that returns makes the calls of
`servalSalTransmitSkbCalls`. -/
theorem servalSalTransmitSkbCalls_of_transmit {skb : CtrlSkb}
    (run : servalSalTransmitSkb env host skb useCopy = .ok (err, host')) :
    ∃ fuel calls, servalSalTransmitSkbCalls env host.table host.sk.peerSrvid.toList
        host.tick useCopy fuel = .ok calls := by
  simp only [servalSalTransmitSkbCalls]
  rw [servalSalTransmitSkb] at run
  split_ifs at run with failed
  · simp only [if_pos failed]
    exact ⟨0, _, rfl⟩
  simp only [if_neg failed]
  obtain ⟨found, lookup, run⟩ := of_bind run
  have searched : serviceFind host.table host.sk.peerSrvid.toList
        serviceIdMaxPrefixBits = .ok found := lookup
  simp only [searched, ok_bind]
  cases found with
  | none => exact ⟨0, _, rfl⟩
  | some se =>
    simp only [transmitEntryCalls]
    rcases start : serviceIterInit se env.mode (env.random host.bump.tick) with ⟨ok, iter⟩
    have started : serviceIterInit se env.mode (env.random (host.tick + 1)) = (ok, iter) := start
    simp only [start] at run
    simp only [started]
    cases ok with
    | false => exact ⟨0, _, rfl⟩
    | true =>
      obtain ⟨⟨first, iter'⟩, stepped, run⟩ := of_bind run
      simp only [stepped, ok_bind]
      cases first with
      | none => exact ⟨0, _, rfl⟩
      | some target =>
        obtain ⟨⟨err', middle⟩, looped, run⟩ := of_bind run
        have looped : ∃ fuel calls, transmitTargetsCalls env (workedSkb useCopy) fuel iter'
                target (host.tick + 1) 2 = .ok calls :=
          ⟨_, transmitTargetsCalls_of_transmit looped _ 2⟩
        obtain ⟨fuel, calls, made⟩ := looped
        refine ⟨fuel, ?_⟩
        simp only [Bool.not_true, Bool.false_eq_true, if_false, made, ok_bind]
        exact ⟨_, rfl⟩

/-! ## When the loop conserves the packets -/

private theorem transmitTargetsCalls_round {calls : List CustodyCall}
    (run : transmitTargetsCalls env skb (fuel + 1) iter target tick id = .ok calls) :
    ∃ next iter', serviceIterNext iter = .ok (next, iter') ∧
      (next.isSome = true ∧ env.alloc tick = false ∧ calls = [.kfreeSkb skb] ∨
        ∃ fate rest, targetFate env target = .ok fate ∧
          calls = fate.round next.isSome skb id ++ rest ∧
          (match if fate.advances then next else some target with
            | none => .ok []
            | some target =>
              transmitTargetsCalls env skb fuel iter' target (tick + 1)
                (id + 1)) = Except.ok rest) := by
  obtain ⟨⟨next, iter'⟩, stepped, run⟩ := of_bind run
  refine ⟨next, iter', stepped, ?_⟩
  dsimp only at run
  split_ifs at run with failed
  · cases run
    simp only [Bool.and_eq_true, Bool.not_eq_true'] at failed
    exact .inl ⟨failed.1, failed.2, rfl⟩
  · obtain ⟨fate, met, run⟩ := of_bind run
    obtain ⟨rest, made, run⟩ := of_bind run
    cases run
    exact .inr ⟨fate, rest, met, rfl, made⟩

/-- A target that is not advanced ends the loop only by a failed copy. -/
theorem transmitTargetsCalls_stuck {calls : List CustodyCall}
    (met : targetFate env target = .ok fate) (stuck : fate.advances = false)
    (run : transmitTargetsCalls env skb fuel iter target tick id = .ok calls) :
    ∃ k, k < iter.targets.length ∧ env.alloc (tick + k) = false := by
  induction fuel generalizing iter tick id calls with
  | zero => cases run
  | succ fuel ih =>
    obtain ⟨next, iter', stepped, ended⟩ := transmitTargetsCalls_round run
    have targets := serviceIterNext_targets stepped
    obtain ⟨more, failed, -⟩ | ⟨fate', rest, met', -, run⟩ := ended
    · obtain ⟨next, rfl⟩ := Option.isSome_iff_exists.mp more
      exact ⟨0, by simp [targets], failed⟩
    obtain rfl : fate = fate' := Except.ok.inj (met.symm.trans met')
    rw [stuck] at run
    obtain ⟨k, below, failed⟩ := ih run
    cases next with
    | none =>
      rw [serviceIterNext_none stepped] at targets
      have empty : iter'.targets = [] := targets.symm
      simp [empty] at below
    | some next =>
      refine ⟨k + 1, ?_, ?_⟩
      · rw [targets]
        simpa using below
      · rw [← failed]
        congr 1
        omega

private def LoopBalanced (skb : Nat) (calls : List CustodyCall) : Prop :=
  (Resource.skb skb :: calls.filterMap CustodyCall.took).Perm
    (calls.filterMap CustodyCall.gave)

/-- The targets that the loop gets past without losing a packet. A copy that
fails ends the loop in good order, also behind a `DROP` target. -/
def TargetsHandled (env : SalEnv) : List Target → Nat → Prop
  | [], _ => True
  | target :: rest, tick =>
    (rest ≠ [] ∧ env.alloc tick = false) ∨
      match targetFate env target with
      | .ok .delayed => TargetsHandled env rest (tick + 1)
      | .ok .sent => TargetsHandled env rest (tick + 1)
      | .ok .dropped => ∃ k, k < rest.length ∧ env.alloc (tick + k) = false
      | _ => False

private theorem serviceIterNext_again (run : serviceIterNext iter = .ok (next, iter')) :
    ∃ next' iter'', serviceIterNext iter' = .ok (next', iter'') := by
  cases serviceIterNext_steps run with
  | ended => exact ⟨none, _, rfl⟩
  | inSet => exact ⟨_, _, rfl⟩
  | single => exact ⟨none, _, rfl⟩

namespace LoopBalanced

private theorem round {skb id : Nat} {fate : TargetFate} {calls : List CustodyCall}
    (gives : fate ≠ .noDevice ∧ fate ≠ .noAddress) :
    LoopBalanced skb (fate.round true skb id ++ calls) ↔ LoopBalanced skb calls := by
  have copy : (fate.round true skb id).filterMap CustodyCall.took = [.skb id] := by
    cases fate <;> rfl
  have given : (fate.round true skb id).filterMap CustodyCall.gave = [.skb id] := by
    cases fate with
    | noDevice => exact absurd rfl gives.1
    | noAddress => exact absurd rfl gives.2
    | _ => rfl
  rw [LoopBalanced, List.filterMap_append, List.filterMap_append, copy, given]
  constructor
  · intro balanced
    exact ((List.Perm.swap _ _ _).trans balanced).cons_inv
  · intro balanced
    exact (List.Perm.swap _ _ _).trans (balanced.cons _)

theorem last {skb id : Nat} {fate : TargetFate} : LoopBalanced skb (fate.round false skb id) ↔
      fate ≠ .noDevice ∧ fate ≠ .noAddress := by
  cases fate <;> simp [LoopBalanced, TargetFate.round, TargetFate.calls, CustodyCall.took,
      CustodyCall.gave]

end LoopBalanced

private theorem transmitTargetsCalls_next {rest : List CustodyCall}
    (stepped : serviceIterNext iter = .ok (next, iter'))
    (copies : next.isSome = true → env.alloc tick = true)
    (met : targetFate env target = .ok fate)
    (made :
      (match if fate.advances then next else some target with
        | none => .ok []
        | some target =>
          transmitTargetsCalls env skb fuel iter' target (tick + 1)
            (id + 1)) = Except.ok rest) :
    transmitTargetsCalls env skb (fuel + 1) iter target tick id =
      .ok (fate.round next.isSome skb id ++ rest) := by
  have goes : ¬ (next.isSome && !env.alloc tick) = true := by
    cases next with
    | none => simp
    | some target => simp [copies rfl]
  rw [transmitTargetsCalls, stepped, ok_bind]
  dsimp only
  rw [if_neg goes, met, ok_bind, made, ok_bind]

/-- A loop whose targets are handled returns, and conserves its packets. -/
theorem transmitTargetsCalls_returns {targets : List Target} (skb id : Nat)
    (stepped : serviceIterNext iter = .ok (next, iter'))
    (left : iter.targets = targets)
    (handled : TargetsHandled env (target :: targets) tick) :
    ∃ fuel calls, transmitTargetsCalls env skb fuel iter target tick id = .ok calls ∧
        LoopBalanced skb calls := by
  have split := serviceIterNext_targets stepped
  rw [left] at split
  induction targets generalizing target iter iter' next tick id with
  | nil =>
    obtain rfl : next = none := by
      cases next with
      | none => rfl
      | some next => simp at split
    obtain ⟨fate, met, gives⟩ : ∃ fate, targetFate env target = .ok fate ∧
          fate.advances = true ∧ fate ≠ .noDevice ∧ fate ≠ .noAddress := by
      obtain ⟨more, -⟩ | handled := handled
      · exact absurd rfl more
      split at handled
      · exact ⟨_, by assumption, by decide⟩
      · exact ⟨_, by assumption, by decide⟩
      · obtain ⟨k, below, -⟩ := handled
        cases below
      · exact handled.elim
    refine ⟨1, fate.round false skb id ++ [], transmitTargetsCalls_next stepped (by simp) met ?_,
      ?_⟩
    · rw [gives.1]
      rfl
    · rw [List.append_nil]
      exact LoopBalanced.last.mpr gives.2
  | cons target' rest ih =>
    obtain ⟨rfl, left'⟩ : next = some target' ∧ iter'.targets = rest := by
      cases next with
      | none =>
        rw [serviceIterNext_none stepped] at left
        cases left
      | some next =>
        simp only [Option.toList_some, List.singleton_append, List.cons.injEq] at split
        exact ⟨by rw [split.1], split.2.symm⟩
    obtain ⟨next', iter'', again⟩ := serviceIterNext_again stepped
    have split' := serviceIterNext_targets again
    rw [left'] at split'
    by_cases failed : env.alloc tick = false
    · refine ⟨1, [.kfreeSkb skb], ?_, ?_⟩
      · rw [transmitTargetsCalls, stepped]
        simp [failed]
      · exact List.Perm.refl _
    have copies : env.alloc tick = true := by simpa using failed
    have onward {fate : TargetFate} {follower : Target} (met : targetFate env target = .ok fate)
        (follows : (if fate.advances then some target' else some target) = some follower)
        (gives : fate ≠ .noDevice ∧ fate ≠ .noAddress)
        (handled : TargetsHandled env (follower :: rest) (tick + 1)) :
        ∃ fuel calls, transmitTargetsCalls env skb fuel iter target tick id =
            .ok calls ∧ LoopBalanced skb calls := by
      obtain ⟨fuel, calls, made, balanced⟩ := ih (id + 1) again left' handled split'
      refine ⟨fuel + 1, fate.round true skb id ++ calls,
        transmitTargetsCalls_next stepped (fun _ => copies) met ?_, ?_⟩
      · rw [follows]
        exact made
      · exact (LoopBalanced.round gives).mpr balanced
    obtain ⟨-, failed⟩ | handled := handled
    · rw [copies] at failed
      cases failed
    split at handled
    · exact onward (by assumption) rfl (by decide) handled
    · exact onward (by assumption) rfl (by decide) handled
    · rename_i met
      obtain ⟨k, below, later⟩ := handled
      cases k with
      | zero => exact absurd later failed
      | succ k =>
        refine onward met rfl (by decide) (.inr ?_)
        rw [met]
        refine ⟨k, Nat.lt_of_succ_lt_succ below, ?_⟩
        rw [← later]
        congr 1
        omega
    · exact handled.elim

private theorem TargetFate.round_gave {more : Bool} {r : Resource}
    (member : r ∈ (fate.round more skb id).filterMap CustodyCall.gave) :
    r = .skb (if more then id else skb) := by
  cases more <;> cases fate <;> simp_all [TargetFate.round, TargetFate.calls, CustodyCall.gave]

/-- The loop gives away its packet and copies of its own, nothing else. -/
theorem transmitTargetsCalls_gave {calls : List CustodyCall} {r : Resource}
    (run : transmitTargetsCalls env skb fuel iter target tick id = .ok calls)
    (member : r ∈ calls.filterMap CustodyCall.gave) :
    r = .skb skb ∨ ∃ n, id ≤ n ∧ r = .skb n := by
  induction fuel generalizing iter target tick id calls with
  | zero => cases run
  | succ fuel ih =>
    obtain ⟨next, iter', -, ended⟩ := transmitTargetsCalls_round run
    obtain ⟨-, -, rfl⟩ | ⟨fate, rest, -, rfl, went⟩ := ended
    · exact .inl (List.mem_singleton.mp member)
    rw [List.filterMap_append, List.mem_append] at member
    obtain here | later := member
    · have given := TargetFate.round_gave here
      split_ifs at given
      · exact .inr ⟨id, Nat.le_refl id, given⟩
      · exact .inl given
    split at went
    · cases went
      cases later
    · obtain own | ⟨n, above, copy⟩ := ih went later
      · exact .inl own
      · exact .inr ⟨n, by omega, copy⟩

private theorem transmitTargetsCalls_leaks {rest : List CustodyCall}
    (went : transmitTargetsCalls env skb fuel iter target tick (id + 1) = .ok rest)
    (older : skb < id) (keeps : fate.calls id = []) :
    ¬ LoopBalanced skb (fate.round true skb id ++ rest) := by
  intro balanced
  have taken : Resource.skb id ∈ .skb skb ::
          (fate.round true skb id ++ rest).filterMap CustodyCall.took := by
    simp [TargetFate.round, CustodyCall.took]
  have given := balanced.mem_iff.mp taken
  rw [TargetFate.round, keeps] at given
  obtain own | ⟨n, above, copy⟩ := transmitTargetsCalls_gave went given
  · have same := Resource.skb.inj own
    omega
  · have same := Resource.skb.inj copy
    omega

/-- A loop that returns and conserves its packets met handled targets. -/
theorem transmitTargetsCalls_handled {calls : List CustodyCall}
    (run : transmitTargetsCalls env skb fuel iter target tick id = .ok calls)
    (older : skb < id) (balanced : LoopBalanced skb calls) :
    TargetsHandled env (target :: iter.targets) tick := by
  induction fuel generalizing iter target tick id calls with
  | zero => cases run
  | succ fuel ih =>
    obtain ⟨next, iter', stepped, ended⟩ := transmitTargetsCalls_round run
    have targets := serviceIterNext_targets stepped
    obtain ⟨more, failed, -⟩ | ⟨fate, rest, met, rfl, went⟩ := ended
    · obtain ⟨next, rfl⟩ := Option.isSome_iff_exists.mp more
      exact .inl ⟨by simp [targets], failed⟩
    right
    rw [met]
    by_cases stuck : fate.advances = false
    · have failure := transmitTargetsCalls_stuck met stuck run
      cases fate with
      | dropped => exact failure
      | noDevice =>
        cases next with
        | none =>
          obtain ⟨k, below, -⟩ := failure
          rw [serviceIterNext_none stepped] at below
          cases below
        | some next =>
          exact transmitTargetsCalls_leaks went older rfl balanced
      | _ => cases stuck
    · rw [Bool.not_eq_false] at stuck
      rw [if_pos stuck] at went
      cases next with
      | none =>
        cases went
        rw [List.append_nil] at balanced
        have gives := LoopBalanced.last.mp balanced
        rw [serviceIterNext_none stepped]
        cases fate with
        | delayed | sent => trivial
        | dropped => cases stuck
        | noDevice => exact gives.1 rfl
        | noAddress => exact gives.2 rfl
      | some next =>
        rw [targets]
        have onward (gives : fate ≠ .noDevice ∧ fate ≠ .noAddress) :=
          ih went (Nat.lt_succ_of_lt older)
            ((LoopBalanced.round gives).mp balanced)
        cases fate with
        | delayed | sent => exact onward (by decide)
        | dropped | noDevice => cases stuck
        | noAddress =>
          exact transmitTargetsCalls_leaks went older rfl balanced

/-- All that was taken is given up, and a packet that was to be copied is left
with the caller. -/
def Conserved (useCopy : Bool) (calls : List CustodyCall) : Prop :=
  Balanced CustodyCall.took CustodyCall.gave [] calls ∧
    (useCopy = true → Resource.skb 0 ∉ calls.filterMap CustodyCall.gave)

/-- Nothing is leaked, and nothing freed twice. -/
def TransmitConserves (env : SalEnv) (table : ServiceTable) (srvid : List UInt8)
    (tick : Nat) (useCopy : Bool) : Prop :=
  ∃ fuel calls, servalSalTransmitSkbCalls env table srvid tick useCopy fuel = .ok calls ∧
      Conserved useCopy calls

def EntryHandled (env : SalEnv) (se : ServiceEntry) (tick : Nat) : Prop :=
  ∃ iter, serviceIterInit se env.mode (env.random tick) = (true, iter) ∧
      (iter.set = none → iter.pos ≠ some []) ∧ TargetsHandled env iter.targets tick

/-- The packet cannot be copied, no service matches, or the targets of the one
that does are handled. -/
def TransmitHandled (env : SalEnv) (table : ServiceTable) (srvid : List UInt8)
    (tick : Nat) (useCopy : Bool) : Prop :=
  (useCopy = true ∧ env.alloc tick = false) ∨
    serviceFind table srvid serviceIdMaxPrefixBits = .ok none ∨
    ∃ se, serviceFind table srvid serviceIdMaxPrefixBits = .ok (some se) ∧
        EntryHandled env se (tick + 1)

private theorem serviceIterNext_starts : (∃ next iter', serviceIterNext iter = .ok (next, iter')) ↔
      (iter.set = none → iter.pos ≠ some []) := by
  rw [serviceIterNext]
  cases position : iter.pos with
  | none => simp [pure_eq_ok]
  | some here =>
    cases set : iter.set with
    | some first => simp [pure_eq_ok]
    | none =>
      cases here with
      | nil => simp
      | cons t rest => simp [pure_eq_ok]

/-- The entry is given up behind the loop, whatever the loop did. -/
theorem balanced_whole {calls : List CustodyCall} : Balanced CustodyCall.took CustodyCall.gave []
        (startCalls useCopy ++ [.serviceFind, .readLock] ++ calls ++
          [.readUnlock, .serviceEntryPut]) ↔ LoopBalanced (workedSkb useCopy) calls := by
  have start : (startCalls useCopy).filterMap CustodyCall.took = [.skb (workedSkb useCopy)] ∧
        (startCalls useCopy).filterMap CustodyCall.gave = [] := by
    cases useCopy <;> exact ⟨rfl, rfl⟩
  rw [Support.Balanced, LoopBalanced, List.perm_iff_count, List.perm_iff_count]
  refine forall_congr' fun r => ?_
  simp only [List.filterMap_append, start.1, start.2, List.count_append, List.count_cons,
    List.count_nil, List.filterMap_cons, List.filterMap_nil,
    CustodyCall.took, CustodyCall.gave]
  omega

private theorem not_balanced_locked : ¬ Balanced CustodyCall.took CustodyCall.gave []
        (startCalls useCopy ++ [.serviceFind, .readLock] ++ [.kfreeSkb skb]) := by
  intro balanced
  have taken := balanced.mem_iff (a := .entryLock)
  cases useCopy <;> simp [startCalls, CustodyCall.took, CustodyCall.gave] at taken

/-- Behind the loop the packet of the caller is still the caller's. -/
theorem transmitTargetsCalls_spares {calls : List CustodyCall}
    (run :
      transmitTargetsCalls env (workedSkb useCopy) fuel iter target tick 2 =
        .ok calls) (copies : useCopy = true) :
    Resource.skb 0 ∉
      List.filterMap CustodyCall.gave
        (startCalls useCopy ++ [.serviceFind, .readLock] ++ calls ++
          [.readUnlock, .serviceEntryPut]) := by
  subst copies
  intro member
  rw [List.filterMap_append, List.mem_append, List.filterMap_append, List.mem_append] at member
  obtain (before | given) | behind := member
  · exact absurd before (by decide)
  · obtain own | ⟨n, above, copy⟩ := transmitTargetsCalls_gave run given
    · cases own
    · have same := Resource.skb.inj copy
      omega
  · exact absurd behind (by decide)

private theorem transmitEntryCalls_conserves_iff {se : ServiceEntry} : (∃ fuel calls,
      transmitEntryCalls env se tick useCopy fuel = .ok calls ∧ Conserved useCopy calls) ↔
      EntryHandled env se tick := by
  simp only [transmitEntryCalls, EntryHandled]
  rcases started : serviceIterInit se env.mode (env.random tick) with ⟨ok, iter⟩
  cases ok with
  | false =>
    refine iff_of_false ?_ ?_
    · rintro ⟨fuel, calls, ⟨⟩, balanced, -⟩
      exact not_balanced_locked balanced
    · rintro ⟨iter', ⟨⟩, -⟩
  | true =>
    simp only [Bool.not_true, Bool.false_eq_true, if_false]
    constructor
    · rintro ⟨fuel, calls, run, balanced, -⟩
      obtain ⟨⟨first, iter'⟩, stepped, run⟩ := of_bind run
      refine ⟨iter, rfl, serviceIterNext_starts.mp ⟨_, _, stepped⟩, ?_⟩
      cases first with
      | none =>
        rw [serviceIterNext_none stepped]
        trivial
      | some target =>
        obtain ⟨looped, made, run⟩ := of_bind run
        cases run
        rw [serviceIterNext_targets stepped]
        refine transmitTargetsCalls_handled made ?_ (balanced_whole.mp balanced)
        cases useCopy <;> decide
    · rintro ⟨iter', ⟨⟩, starts, handled⟩
      obtain ⟨first, iter', stepped⟩ := serviceIterNext_starts.mpr starts
      simp only [stepped, ok_bind]
      cases first with
      | none =>
        refine ⟨0, _, rfl, balanced_whole.mpr (List.Perm.refl _), ?_⟩
        rintro rfl
        decide
      | some target =>
        rw [serviceIterNext_targets stepped] at handled
        obtain ⟨next, iter'', again⟩ := serviceIterNext_again stepped
        obtain ⟨fuel, calls, made, balanced⟩ :=
          transmitTargetsCalls_returns (workedSkb useCopy) 2 again rfl
            handled
        refine ⟨fuel, _, ?_, balanced_whole.mpr balanced, transmitTargetsCalls_spares made⟩
        simp only [made, ok_bind]

/-- The call conserves what it takes exactly when its targets are handled. -/
theorem servalSalTransmitSkb_conserves_iff
    (env : SalEnv) (table : ServiceTable) (srvid : List UInt8)
    (tick : Nat) (useCopy : Bool) :
    TransmitConserves env table srvid tick useCopy ↔
      TransmitHandled env table srvid tick useCopy := by
  by_cases failed : (useCopy && !env.alloc tick) = true
  · refine iff_of_true ⟨0, [], ?_, Support.Balanced.nil, by simp⟩ (.inl ?_)
    · rw [servalSalTransmitSkbCalls, if_pos failed]
    · simpa using failed
  have noCopy : ¬ (useCopy = true ∧ env.alloc tick = false) := by simpa using failed
  simp only [TransmitConserves, TransmitHandled, servalSalTransmitSkbCalls, if_neg failed, noCopy,
    false_or]
  cases found : serviceFind table srvid serviceIdMaxPrefixBits with
  | error fault => simp [error_bind]
  | ok entry =>
    cases entry with
    | none =>
      refine iff_of_true ⟨0, _, rfl, ?_, ?_⟩ (.inl rfl)
      · cases useCopy <;> exact List.Perm.refl _
      · rintro rfl
        decide
    | some se =>
      simp only [ok_bind]
      rw [transmitEntryCalls_conserves_iff]
      constructor
      · intro handled
        exact .inr ⟨se, rfl, handled⟩
      · rintro (⟨⟨⟩⟩ | ⟨_, ⟨rfl⟩, handled⟩)
        exact handled

def dropTarget : Target := ⟨.drop, 1, 0, ⟨0, 0, 0, 0⟩, .null, 0, [], []⟩

/-- With one `DROP` rule for every service the loop never ends. -/
theorem drop_rule_never_conserves : ¬ TransmitConserves plainEnv (rootTable .drop .null [])
        (List.replicate 32 4) 0 false := by
  rintro ⟨fuel, calls, run, conserved⟩
  have found : serviceFind (rootTable .drop .null []) (List.replicate 32 4) serviceIdMaxPrefixBits =
        .ok (some ⟨some 0, [⟨1, 1, 0, 1, [dropTarget]⟩], 1⟩) := by
    decide +kernel
  rw [servalSalTransmitSkbCalls, if_neg (by decide), found, ok_bind] at run
  obtain ⟨iter, started, -, handled⟩ :=
    transmitEntryCalls_conserves_iff.mp ⟨fuel, calls, run, conserved⟩
  have targets : iter.targets = [dropTarget] := by
    obtain rfl := congrArg Prod.snd started
    decide +kernel
  rw [targets] at handled
  obtain ⟨more, -⟩ | ⟨k, below, -⟩ := handled
  · exact more rfl
  · cases below

end Serval
