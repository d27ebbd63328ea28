import Serval.Service.Iterator
import Serval.Service.Sampling

/-!
# Statistics

`service_iter_inc_stats` counts for the target at `last_pos`, the position
that `service_iter_next` was called at.
-/

namespace Serval

open Serval.Support

/-- `atomic_add` on a signed integer of 32 bits. -/
def atomicAdd (n x : Int) : Int := (x + n).bmod (2 ^ 32)

def TargetStats.addResolved (packets bytes : Int) (stats : TargetStats) :
    TargetStats :=
  { stats with
    packetsResolved := atomicAdd packets stats.packetsResolved
    bytesResolved := atomicAdd bytes stats.bytesResolved }

def TargetStats.addDropped (packets bytes : Int) (stats : TargetStats) :
    TargetStats :=
  { stats with
    packetsDropped := atomicAdd (-packets) stats.packetsDropped
    bytesDropped := atomicAdd (-bytes) stats.bytesDropped }

structure EntryCounts where
  se : ServiceEntry
  entry : TargetStats
  table : TargetStats

def countTarget (count : TargetStats → TargetStats) (place : Nat)
    (se : ServiceEntry) : ServiceEntry :=
  { se with
    targetSet := se.targetSet.modifyHead fun set =>
      { set with
        list := set.list.modify place fun t =>
          { t with stats := count t.stats } } }

def EntryCounts.count (count : TargetStats → TargetStats) (place : Nat)
    (counted : EntryCounts) : EntryCounts where
  se := countTarget count place counted.se
  entry := count counted.entry
  table := count counted.table

def ServiceEntry.firstTargets (se : ServiceEntry) : List Target :=
  (se.targetSet.head?.map TargetSet.list).getD []

def placeOf (se : ServiceEntry) (here : List Target) : Except Fault Nat :=
  if here = [] then .error .bounds
  else .ok (se.firstTargets.length - here.length)

def serviceIterIncStats (counted : EntryCounts) (iter : ServiceIter)
    (packets bytes : Int) : Except Fault EntryCounts :=
  if 0 < packets then
    match iter.lastPos with
    | none => .ok counted
    | some here => do
      let place ← placeOf counted.se here
      .ok (counted.count (.addResolved packets bytes) place)
  else
    let count := TargetStats.addDropped packets bytes
    match iter.lastPos with
    | none =>
      .ok { counted with
        entry := count counted.entry, table := count counted.table }
    | some here => do
      let place ← placeOf counted.se here
      .ok (counted.count count place)

/-- So many calls of `service_iter_next`. -/
def serviceIterNexts : Nat → ServiceIter → Except Fault ServiceIter
  | 0, iter => .ok iter
  | n + 1, iter => do
    let (_, iter) ← serviceIterNext iter
    serviceIterNexts n iter

/-! ## Where the iterator stands -/

structure IteratesOver (se : ServiceEntry) (iter : ServiceIter) : Prop where
  set : iter.set = none ↔ iter.mode = .anycast
  pos : ∀ here, iter.pos = some here → here <:+ se.firstTargets

/-- What is left of a position when `service_iter_next` has stopped. -/
def ServiceIter.search (iter : ServiceIter) (here : List Target) :
    List Target :=
  if iter.set = none then here
  else here.dropWhile fun t => !iter.mode.stops t

/-- The index of the target that `service_iter_next` stops at. -/
def ServiceIter.place (iter : ServiceIter) (se : ServiceEntry) : Nat :=
  se.firstTargets.length - ((iter.pos.map iter.search).getD []).length

section

variable {se : ServiceEntry} {mode : IterMode} {iter iter' : ServiceIter}
  {next : Option Target} {t : Target}

private theorem serviceIterInit_over
    {random : UInt64} (run : serviceIterInit se mode random = (true, iter)) :
    iter.mode = mode ∧ IteratesOver se iter := by
  rw [serviceIterInit] at run
  split at run
  · cases run
  rename_i set sets first
  have targets : se.firstTargets = set.list := by
    rw [ServiceEntry.firstTargets, first]
    rfl
  split_ifs at run with zero multicast all
  · cases run
  · cases run
  · cases run
    refine ⟨rfl, ?_, ?_⟩
    · rcases all with rfl | rfl | rfl <;> simp
    · rintro here ⟨⟩
      rw [targets]
  cases run
  refine ⟨rfl, ?_, ?_⟩
  · cases mode <;> simp at all ⊢
  · rintro here ⟨⟩
    rw [targets]
    exact selectFrom_suffix _ _ _

private theorem nextInSet_eq (mode : IterMode) (here : List Target) : nextInSet mode here =
      ((here.dropWhile fun t => !mode.stops t).head?,
        (here.dropWhile fun t => !mode.stops t).tail) := by
  induction here with
  | nil => rfl
  | cons t rest ih =>
    rw [nextInSet]
    by_cases stops : mode.stops t = true
    · simp [stops]
    · simp [stops, ih]

private theorem ServiceIter.search_suffix (iter : ServiceIter) (here : List Target) :
    iter.search here <:+ here := by
  rw [ServiceIter.search]
  split_ifs
  · exact List.suffix_rfl
  · exact List.dropWhile_suffix _

private theorem IteratesOver.search_eq_iff
    (onto : IteratesOver se iter) {here : List Target} (some : here ≠ []) :
    iter.search here = here ↔
      iter.mode = .anycast ∨
        ∃ first rest, Option.some here = Option.some (first :: rest) ∧
          iter.mode.stops first = true := by
  obtain ⟨first, rest, rfl⟩ := List.exists_cons_of_ne_nil some
  rw [ServiceIter.search]
  by_cases anycast : iter.mode = .anycast
  · rw [if_pos (onto.set.mpr anycast)]
    exact iff_of_true rfl (.inl anycast)
  rw [if_neg (mt onto.set.mp anycast)]
  by_cases stops : iter.mode.stops first = true
  · exact iff_of_true (by simp [stops]) (.inr ⟨first, rest, rfl, stops⟩)
  refine iff_of_false ?_ (by simp [anycast, stops])
  intro same
  have shorter := (List.dropWhile_suffix (l := rest) fun t => !iter.mode.stops t).length_le
  rw [List.dropWhile_cons_of_pos (by simpa using stops)] at same
  rw [same, List.length_cons] at shorter
  omega

private theorem serviceIterNext_spec (run : serviceIterNext iter = .ok (next, iter')) :
    iter'.mode = iter.mode ∧ iter'.set = iter.set ∧ iter'.lastPos = iter.pos ∧
      (∀ here, iter'.pos = some here →
        ∃ before, iter.pos = some before ∧ here <:+ before) ∧
      next = iter.pos.bind fun here => (iter.search here).head? := by
  cases serviceIterNext_steps run with
  | ended position => simp [position]
  | @inSet here _ position set =>
    rw [nextInSet_eq]
    refine ⟨rfl, set.symm, position.symm, ?_, ?_⟩
    · rintro rest ⟨⟩
      exact ⟨here, position, (List.tail_suffix _).trans (List.dropWhile_suffix _)⟩
    · simp [ServiceIter.search, position, set]
  | single position set => simp [ServiceIter.search, position, set]

private theorem IteratesOver.step (onto : IteratesOver se iter)
    (run : serviceIterNext iter = .ok (next, iter')) :
    iter'.mode = iter.mode ∧ IteratesOver se iter' := by
  obtain ⟨mode, set, -, moves, -⟩ := serviceIterNext_spec run
  refine ⟨mode, ?_, ?_⟩
  · rw [set, mode]
    exact onto.set
  · intro here position
    obtain ⟨before, held, suffix⟩ := moves here position
    exact suffix.trans (onto.pos before held)

private theorem IteratesOver.nexts {n : Nat} (onto : IteratesOver se iter)
    (run : serviceIterNexts n iter = .ok iter') :
    iter'.mode = iter.mode ∧ IteratesOver se iter' := by
  induction n generalizing iter with
  | zero =>
    cases run
    exact ⟨rfl, onto⟩
  | succ n ih =>
    obtain ⟨⟨next, middle⟩, moved, run⟩ := of_bind run
    obtain ⟨mode, onto⟩ := onto.step moved
    obtain ⟨mode', onto⟩ := ih onto run
    exact ⟨mode'.trans mode, onto⟩

/-! ## Which target is counted for -/

private theorem countTarget_firstTargets
    (count : TargetStats → TargetStats) (place : Nat) (se : ServiceEntry) :
    (countTarget count place se).firstTargets = se.firstTargets.modify place fun t =>
        { t with stats := count t.stats } := by
  rw [countTarget, ServiceEntry.firstTargets, ServiceEntry.firstTargets]
  cases se.targetSet with
  | nil => simp
  | cons set sets => rfl

private theorem countTarget_injective {count : TargetStats → TargetStats}
    (counts : ∀ stats, count stats ≠ stats)
    {p q : Nat} (inside : p < se.firstTargets.length)
    (same : countTarget count p se = countTarget count q se) : p = q := by
  have lists := congrArg ServiceEntry.firstTargets same
  rw [countTarget_firstTargets, countTarget_firstTargets] at lists
  by_contra other
  have here := congrArg (fun list => list[p]?) lists
  simp only [List.getElem?_modify, List.getElem?_eq_getElem inside, if_neg (Ne.symm other), if_true,
    Option.map_eq_map, Option.map_some,
    Option.some.injEq] at here
  exact counts _ (congrArg Target.stats here)

private theorem addResolved_ne {packets : Int} (positive : 0 < packets) (small : packets < 2 ^ 31)
    (bytes : Int) (stats : TargetStats) :
    stats.addResolved packets bytes ≠ stats := by
  intro same
  have packet := congrArg TargetStats.packetsResolved same
  simp only [TargetStats.addResolved, atomicAdd] at packet
  have rest := @Int.bmod_emod (stats.packetsResolved + packets) (2 ^ 32)
  omega

/-- The target that was returned is counted for exactly if the call that
returned it did not pass over another one. -/
theorem serviceIterIncStats_used_iff
    {random : UInt64} {start : ServiceIter} {n : Nat} {packets : Int}
    (began : serviceIterInit se mode random = (true, start))
    (moved : serviceIterNexts n start = .ok iter)
    (returned : serviceIterNext iter = .ok (some t, iter'))
    (positive : 0 < packets) (small : packets < 2 ^ 31) (bytes : Int)
    (entry table : TargetStats) :
    se.firstTargets[iter.place se]? = some t ∧
      (serviceIterIncStats ⟨se, entry, table⟩ iter' packets bytes =
          .ok (EntryCounts.count (.addResolved packets bytes) (iter.place se) ⟨se, entry, table⟩) ↔
        mode = .anycast ∨
          ∃ first rest, iter.pos = some (first :: rest) ∧ mode.stops first = true) := by
  obtain ⟨began, onto⟩ := serviceIterInit_over began
  obtain ⟨moved, onto⟩ := onto.nexts moved
  obtain ⟨-, -, last, -, found⟩ := serviceIterNext_spec returned
  obtain ⟨here, position, found⟩ := Option.bind_eq_some_iff.mp found.symm
  have suffix := onto.pos here position
  have searched := iter.search_suffix here
  obtain ⟨rest, stopped⟩ := List.head?_eq_some_iff.mp found
  have place : iter.place se = se.firstTargets.length - (iter.search here).length := by
    rw [ServiceIter.place, position]
    rfl
  obtain ⟨front, targets⟩ := searched.trans suffix
  have some : here ≠ [] := by
    rintro rfl
    rw [List.suffix_nil.mp searched] at stopped
    cases stopped
  have sizes := suffix.length_le
  have within := searched.length_le
  have nonempty : 0 < (iter.search here).length := by
    rw [stopped]
    exact Nat.succ_pos _
  constructor
  · rw [place, ← targets, List.length_append, Nat.add_sub_cancel,
      List.getElem?_append_right (Nat.le_refl _), Nat.sub_self, stopped]
    rfl
  · have counted : serviceIterIncStats ⟨se, entry, table⟩ iter' packets bytes =
          .ok (EntryCounts.count (.addResolved packets bytes)
            (se.firstTargets.length - here.length) ⟨se, entry, table⟩) := by
      rw [serviceIterIncStats, if_pos positive, last, position]
      simp only [placeOf, if_neg some, ok_bind]
    have same : se.firstTargets.length - here.length = iter.place se ↔ iter.search here = here := by
      rw [place]
      constructor
      · intro lengths
        exact searched.eq_of_length (by omega)
      · intro equal
        rw [equal]
    have inside : se.firstTargets.length - here.length < se.firstTargets.length := by omega
    rw [counted, ← began, ← moved, position, ← onto.search_eq_iff some, ← same]
    constructor
    · intro equal
      exact countTarget_injective (addResolved_ne positive small bytes) inside
        (congrArg EntryCounts.se (Except.ok.inj equal))
    · intro equal
      rw [equal]

end

def mixedEntry : ServiceEntry :=
  let stats : TargetStats := ⟨0, 0, 0, 0⟩
  { node := none
    targetSet :=
      [{ normalizer := 2, priority := 1, flags := 0, count := 2
         list := [⟨.demux, 1, 0, stats, .null, 0, [], []⟩,
            ⟨.forward, 1, 0, stats, .null, 0, [], []⟩] }]
    count := 2 }

/-- Targets that are all returned get their own counts. -/
theorem serviceIterIncStats_used_all :
    let stats : TargetStats := ⟨0, 0, 0, 0⟩
    ∃ start t iter, serviceIterInit mixedEntry .all 0 = (true, start) ∧
      serviceIterNext start = .ok (some t, iter) ∧
      serviceIterIncStats ⟨mixedEntry, stats, stats⟩ iter 1 100 =
        .ok (EntryCounts.count (.addResolved 1 100) 0 ⟨mixedEntry, stats, stats⟩) :=
  ⟨_, _, _, rfl, rfl, (@serviceIterIncStats_used_iff mixedEntry .all _ _ _ 0 _ 0 1 rfl rfl rfl
      (by decide) (by decide) 100 _ _).2.mpr (.inr ⟨_, _, rfl, rfl⟩)⟩

/-- The second target forwards the packet, and the first is counted for. -/
theorem serviceIterIncStats_other :
    let stats : TargetStats := ⟨0, 0, 0, 0⟩
    ∃ start t iter, serviceIterInit mixedEntry .forward 0 = (true, start) ∧
      serviceIterNext start = .ok (some t, iter) ∧ mixedEntry.firstTargets[1]? = some t ∧
      serviceIterIncStats ⟨mixedEntry, stats, stats⟩ iter 1 100 =
        .ok (EntryCounts.count (.addResolved 1 100) 0 ⟨mixedEntry, stats, stats⟩) :=
  ⟨_, _, _, rfl, rfl, rfl, rfl⟩

end Serval
