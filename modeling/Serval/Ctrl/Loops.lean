import Serval.Ctrl.Handlers

/-!
# The loops of the handlers

Each handler walks over the records of the message, and collects those that
were processed: at the front of the message itself, or in a buffer for the
reply.
-/

namespace Serval

open Serval.Support

def numbered (cm : List UInt8) (num : Nat) : List (Nat × List UInt8) :=
  (List.range' 0 num).map fun i => (i, serviceAt cm i)

def paired (cm : List UInt8) (num : Nat) : List (Nat × List UInt8 × List UInt8) :=
  (List.range' 0 num).map fun pair =>
    (pair, serviceAt cm (2 * pair), serviceAt cm (2 * pair + 1))

/-- A record that is added is accessed as a whole when it is moved. -/
def addAct (env : CtrlEnv) : Nat × ServiceTable → Nat × List UInt8 →
      Except Fault (Option (List UInt8) × (Nat × ServiceTable))
  | (index, table), (i, entry) => do
    let (added, table) ← addService env table entry
    if added then
      if index < i then do
        let entry ← access entry serviceInfoSize
        .ok (some entry, (index + 1, table))
      else
        .ok (some entry, (index + 1, table))
    else
      .ok (none, (index, table))

def modAct (env : CtrlEnv) (table : ServiceTable) : Nat × List UInt8 × List UInt8 →
      Except Fault (Option (List UInt8) × ServiceTable)
  | (pair, old, new) => do
    let (modified, table) ← modService env table old new
    if modified then
      if pair = 0 then .ok (some old, table)
      else do
        let new ← access new serviceInfoSize
        .ok (some new, table)
    else
      .ok (none, table)

structure Removed where
  copied : Bool
  entry : List UInt8
  stats : TargetStats

def delAct :
    Nat × ServiceTable → Nat × List UInt8 → Except Fault (Option Removed × (Nat × ServiceTable))
  | (index, table), (i, entry) => do
    let (stats, table) ← delService table entry
    match stats with
    | none => .ok (none, (index, table))
    | some stats =>
      if index < i then do
        let entry ← access entry serviceInfoSize
        .ok (some ⟨true, entry, stats⟩, (index + 1, table))
      else
        .ok (some ⟨false, entry, stats⟩, (index + 1, table))

theorem access_of_le {record : List UInt8} {count : Nat} (long : count ≤ record.length) :
    access record count = .ok (record.take count) :=
  if_pos long

theorem length_of_access {record part : List UInt8} {count : Nat}
    (accessed : access record count = .ok part) :
    count ≤ record.length ∧ part = record.take count := by
  rw [access] at accessed
  split_ifs at accessed with long
  cases accessed
  exact ⟨long, rfl⟩

variable (cm : List UInt8) {num i : Nat} {kept : List Removed}

theorem length_serviceAt_le (i : Nat) : (serviceAt cm i).length ≤ serviceInfoSize :=
  List.length_take_le ..

theorem length_serviceAt (i : Nat) : (serviceAt cm i).length =
      min serviceInfoSize (cm.length - ctrlmsgServiceNumLen i) := by
  rw [serviceAt, List.length_take, List.length_drop]

theorem size_of_long {cm : List UInt8} (long : serviceInfoSize ≤ (serviceAt cm i).length) :
    (serviceAt cm i).length = serviceInfoSize :=
  le_antisymm (length_serviceAt_le cm i) long

theorem start_of_size {cm : List UInt8} (size : (serviceAt cm i).length = serviceInfoSize) :
    ctrlmsgServiceNumLen i ≤ cm.length := by
  rw [length_serviceAt] at size
  have positive : 0 < serviceInfoSize := by decide
  omega

/-- A record that is there as a whole can be accessed as a whole. -/
theorem access_whole {entry : List UInt8} (size : entry.length = serviceInfoSize) :
    access entry serviceInfoSize = .ok entry := by
  rw [access_of_le (Nat.le_of_eq size.symm), ← size, List.take_length]

theorem ctrlmsgServiceNumLen_succ (num : Nat) : ctrlmsgServiceNumLen (num + 1) =
      ctrlmsgServiceNumLen num + serviceInfoSize := by
  rw [ctrlmsgServiceNumLen, ctrlmsgServiceNumLen, Nat.succ_mul]
  omega

theorem ctrlmsgServiceNumLen_mono {num' : Nat} (le : num ≤ num') :
    ctrlmsgServiceNumLen num ≤ ctrlmsgServiceNumLen num' :=
  Nat.add_le_add_left (Nat.mul_le_mul_right _ le) _

theorem length_flatten_le {pieces : List (List UInt8)} {size : Nat}
    (atMost : ∀ piece ∈ pieces, piece.length ≤ size) :
    pieces.flatten.length ≤ pieces.length * size := by
  induction pieces with
  | nil => simp
  | cons piece rest ih =>
    rw [List.forall_mem_cons] at atMost
    have others := ih atMost.2
    rw [List.flatten_cons, List.length_append, List.length_cons, Nat.succ_mul]
    omega

theorem length_flatten_eq_iff {pieces : List (List UInt8)} {size : Nat}
    (atMost : ∀ piece ∈ pieces, piece.length ≤ size) :
    pieces.flatten.length = pieces.length * size ↔ ∀ piece ∈ pieces, piece.length = size := by
  induction pieces with
  | nil => simp
  | cons piece rest ih =>
    rw [List.forall_mem_cons] at atMost ⊢
    have others := length_flatten_le atMost.2
    rw [← ih atMost.2, List.flatten_cons, List.length_append, List.length_cons, Nat.succ_mul]
    omega

/-! ## Records at the front of the message -/

/-- From record `i` on the message is as it was received, and it begins with
the header and the records that were kept. -/
structure Compacted (cm : List UInt8) (i : Nat) (kept : List (List UInt8))
    (cm' : List UInt8) : Prop where
  length : cm'.length = cm.length
  few : kept.length ≤ i
  front : cm'.take (ctrlmsgServiceNumLen kept.length) = cm.take ctrlmsgServiceSize ++ kept.flatten
  back : cm'.drop (ctrlmsgServiceNumLen i) = cm.drop (ctrlmsgServiceNumLen i)
  sizes : ∀ entry ∈ kept, entry.length ≤ serviceInfoSize

def Whole (kept : List (List UInt8)) : Prop := ∀ entry ∈ kept, entry.length = serviceInfoSize

theorem Whole.append {kept : List (List UInt8)} {entry : List UInt8} (whole : Whole kept)
    (size : entry.length = serviceInfoSize) : Whole (kept ++ [entry]) := by
  simpa [Whole, or_imp, forall_and, size] using whole

namespace Compacted

variable {cm cm' : List UInt8} {i : Nat} {kept : List (List UInt8)}

theorem start (cm : List UInt8) : Compacted cm 0 [] cm where
  length := rfl
  few := Nat.le_refl 0
  front := (List.append_nil _).symm
  back := rfl
  sizes := by simp

variable {j : Nat}

theorem serviceAt (compacted : Compacted cm i kept cm') (behind : i ≤ j) :
    serviceAt cm' j = serviceAt cm j := by
  obtain ⟨more, same⟩ := Nat.exists_eq_add_of_le (ctrlmsgServiceNumLen_mono behind)
  rw [Serval.serviceAt, Serval.serviceAt, same, ← List.drop_drop, compacted.back, List.drop_drop]

theorem skip (compacted : Compacted cm i kept cm') (behind : i ≤ j) : Compacted cm j kept cm' where
  length := compacted.length
  few := compacted.few.trans behind
  front := compacted.front
  back := by
    obtain ⟨more, same⟩ := Nat.exists_eq_add_of_le (ctrlmsgServiceNumLen_mono behind)
    rw [same, ← List.drop_drop, compacted.back, List.drop_drop]
  sizes := compacted.sizes

/-- There is room for the records that were kept when they were received as a whole. -/
theorem inside_iff (compacted : Compacted cm i kept cm') (some : kept ≠ []) :
    ctrlmsgServiceNumLen kept.length ≤ cm.length ↔ Whole kept := by
  have total := congrArg List.length compacted.front
  rw [List.length_append, List.length_take, List.length_take, compacted.length,
    ctrlmsgServiceNumLen] at total
  rw [ctrlmsgServiceNumLen, Whole, ← length_flatten_eq_iff compacted.sizes]
  have positive : 0 < kept.length := List.length_pos_iff.mpr some
  have atMost := length_flatten_le compacted.sizes
  have large : kept.length ≤ kept.length * serviceInfoSize := Nat.le_mul_of_pos_right _ (by decide)
  omega

theorem sizes_append {entry : List UInt8} (compacted : Compacted cm i kept cm')
    (size : entry.length ≤ serviceInfoSize) :
    ∀ other ∈ kept ++ [entry], other.length ≤ serviceInfoSize := by
  intro other member
  rcases List.mem_append.mp member with before | here
  · exact compacted.sizes other before
  · rw [List.mem_singleton.mp here]
    exact size

/-- A record stays where it is when all those in front of it have stayed. -/
theorem stay (compacted : Compacted cm i kept cm') (all : kept.length = i) (behind : i < j) :
    Compacted cm j (kept ++ [Serval.serviceAt cm i]) cm' := by
  have count : (kept ++ [Serval.serviceAt cm i]).length = i + 1 := by
    rw [List.length_append, all]
    rfl
  have skipped := compacted.skip behind.le
  refine ⟨compacted.length, by omega, ?_, skipped.back,
    compacted.sizes_append (length_serviceAt_le cm i)⟩
  rw [count, ctrlmsgServiceNumLen_succ, List.take_add, ← all, compacted.front, all,
    compacted.back, List.flatten_append, List.flatten_singleton, List.append_assoc]
  rfl

theorem copy {entry : List UInt8} (compacted : Compacted cm i kept cm')
    (fewer : kept.length < i) (size : entry.length = serviceInfoSize)
    (room : ctrlmsgServiceNumLen i ≤ cm.length) (behind : i ≤ j) :
    ∃ cm'', copyOver cm' kept.length i entry = .ok cm'' ∧
      Compacted cm j (kept ++ [entry]) cm'' := by
  have past : ctrlmsgServiceNumLen kept.length + entry.length ≤
        ctrlmsgServiceNumLen i := by
    rw [size, ← ctrlmsgServiceNumLen_succ]
    exact ctrlmsgServiceNumLen_mono fewer
  obtain ⟨cm'', write⟩ : ∃ cm'', writeBytes cm' (ctrlmsgServiceNumLen kept.length) entry =
        .ok cm'' :=
    ⟨_, writeBytes_of_le ((past.trans room).trans (Nat.le_of_eq compacted.length.symm))⟩
  refine ⟨cm'', ?_, ?_⟩
  · rw [copyOver, if_pos fewer, access_whole size]
    exact write
  have count : (kept ++ [entry]).length = kept.length + 1 := by simp
  have compacted' := compacted.skip behind
  refine ⟨?_, ?_, ?_, ?_, compacted.sizes_append size.le⟩
  · rw [length_of_writeBytes write, compacted.length]
  · omega
  · have front := take_of_writeBytes write
    rw [size] at front
    rw [count, ctrlmsgServiceNumLen_succ, front, compacted.front, List.flatten_append,
      List.flatten_singleton, List.append_assoc]
  · rw [drop_of_writeBytes write (past.trans (ctrlmsgServiceNumLen_mono behind)), compacted'.back]

end Compacted

/-! ## The loops that answer in the message -/

section

variable {env : CtrlEnv} {table table' : ServiceTable}

variable {cm : List UInt8}

theorem addBody_agrees {cm' : List UInt8} {i index : Nat} {kept : List (List UInt8)}
    (compacted : Compacted cm i kept cm') (counted : index = kept.length) :
    Agrees
      (fun given done =>
        done.1 = given.1.isSome ∧ Compacted cm (i + 1) (kept ++ given.1.toList) done.2.1 ∧
          given.2.1 = (kept ++ given.1.toList).length ∧ done.2.2 = given.2.2)
      (addAct env (index, table) (i, serviceAt cm i))
      (addBody env i kept.length (cm', table)) := by
  subst counted
  have here := compacted.serviceAt (Nat.le_refl i)
  have count {entry : List UInt8} : kept.length + 1 = (kept ++ (some entry).toList).length := by
    simp
  simp only [addAct, addBody, here]
  refine Agrees.same.bind ?_
  rintro ⟨added, table'⟩ second ⟨rfl, run⟩
  cases added with
  | false =>
    refine .ok ⟨rfl, ?_, ?_, rfl⟩
    · simp only [Option.toList_none, List.append_nil]
      exact compacted.skip (Nat.le_succ i)
    · simp
  | true =>
    simp only [if_true]
    rcases Nat.lt_or_ge kept.length i with fewer | all
    · rw [if_pos fewer]
      rcases Nat.lt_or_ge (serviceAt cm i).length serviceInfoSize with short | long
      · have refused : access (serviceAt cm i) serviceInfoSize = .error .bounds :=
          if_neg (Nat.not_le.mpr short)
        rw [copyOver, if_pos fewer, refused]
        exact .error .bounds
      have size := size_of_long long
      obtain ⟨cm'', copied, compacted'⟩ :=
        compacted.copy fewer size (start_of_size size) (Nat.le_succ i)
      rw [copied, access_whole size]
      exact .ok ⟨rfl, compacted', count, rfl⟩
    · rw [if_neg (Nat.not_lt.mpr all), copyOver, if_neg (Nat.not_lt.mpr all)]
      exact .ok ⟨rfl, compacted.stay (le_antisymm compacted.few all) (Nat.lt_succ_self i), count,
        rfl⟩

theorem addLoop_agrees (cm : List UInt8) (num : Nat) : Agrees (fun given done =>
        done.1 = given.1.length ∧ Compacted cm num given.1 done.2.1 ∧ done.2.2 = given.2.2)
      (collect (addAct env) (0, table) (numbered cm num))
      (countLoop (addBody env) num 0 0 (cm, table)) := by
  have loop := @countLoop_agrees _ _ _ _ (addAct env) (fun i => (i, serviceAt cm i)) (addBody env)
      (fun i kept s b => Compacted cm i kept b.1 ∧ s.1 = kept.length ∧ b.2 = s.2) num
      (by
        rintro i kept ⟨index, table⟩ ⟨cm', table'⟩ - ⟨compacted, counted, rfl⟩
        exact addBody_agrees compacted counted)
      num 0 (Nat.zero_add num).le [] (0, table) (cm, table) ⟨.start cm, rfl, rfl⟩
  rw [Nat.zero_add] at loop
  refine loop.mono ?_
  rintro given done ⟨count, compacted, -, same⟩
  exact ⟨count, compacted, same⟩

theorem length_of_modService {old new : List UInt8}
    (modified : modService env table old new = .ok (true, table')) :
    uptoWeight ≤ new.length := by
  obtain ⟨start, -, modified⟩ := of_bind modified
  obtain ⟨dev, -, modified⟩ := of_bind modified
  cases dev with
  | none => cases modified
  | some dev =>
    obtain ⟨upto, -, modified⟩ := of_bind modified
    obtain ⟨part, accessed, -⟩ := of_bind modified
    exact (length_of_access accessed).1

theorem size_of_next {i : Nat} (next : 0 < (serviceAt cm (i + 1)).length) :
    (serviceAt cm i).length = serviceInfoSize := by
  rw [length_serviceAt, ctrlmsgServiceNumLen_succ] at next
  rw [length_serviceAt]
  omega

/-- The second record of the pair is kept, but of the first pair the first
one. -/
theorem modBody_agrees {cm' : List UInt8} {pair : Nat}
    {kept : List (List UInt8)} (compacted : Compacted cm (2 * pair) kept cm')
    (whole : Whole kept) (few : kept.length ≤ pair) :
    Agrees
      (fun given done =>
        done.1 = given.1.isSome ∧ Compacted cm (2 * (pair + 1)) (kept ++ given.1.toList) done.2.1 ∧
          Whole (kept ++ given.1.toList) ∧ (kept ++ given.1.toList).length ≤ pair + 1 ∧
          done.2.2 = given.2)
      (modAct env table (pair, serviceAt cm (2 * pair), serviceAt cm (2 * pair + 1)))
      (modBody env pair kept.length (cm', table)) := by
  have old := compacted.serviceAt (Nat.le_refl (2 * pair))
  have new := compacted.serviceAt (Nat.le_succ (2 * pair))
  simp only [modAct, modBody, old, new]
  refine Agrees.same.bind ?_
  rintro ⟨modified, table'⟩ second ⟨rfl, run⟩
  cases modified with
  | false =>
    refine .ok ⟨rfl, ?_, ?_, ?_, rfl⟩
    all_goals simp only [Option.toList_none, List.append_nil]
    · exact compacted.skip (by omega)
    · exact whole
    · omega
  | true =>
    have there : 0 < (serviceAt cm (2 * pair + 1)).length :=
      Nat.lt_of_lt_of_le (by decide) (length_of_modService run)
    have size := size_of_next there
    have count {entry : List UInt8} : (kept ++ (some entry).toList).length ≤ pair + 1 := by
      simp only [Option.toList_some, List.length_append, List.length_singleton]
      omega
    simp only [if_true]
    by_cases first : pair = 0
    · subst first
      exact .ok ⟨rfl, compacted.stay (Nat.le_zero.mp few) (by omega), whole.append size, count, rfl⟩
    rw [if_neg first]
    rcases Nat.lt_or_ge (serviceAt cm (2 * pair + 1)).length serviceInfoSize with short | long
    · have refused : access (serviceAt cm (2 * pair + 1)) serviceInfoSize = .error .bounds :=
        if_neg (Nat.not_le.mpr short)
      rw [copyOver, if_pos (by omega), refused]
      exact .error .bounds
    have newSize := size_of_long long
    obtain ⟨cm'', copied, compacted'⟩ := compacted.copy (by omega) newSize (start_of_size size)
        (show 2 * pair ≤ 2 * (pair + 1) by omega)
    rw [copied, access_whole newSize]
    exact .ok ⟨rfl, compacted', whole.append newSize, count, rfl⟩

theorem modLoop_agrees (cm : List UInt8) (num : Nat) : Agrees (fun given done =>
        done.1 = given.1.length ∧ Compacted cm (2 * num) given.1 done.2.1 ∧ Whole given.1 ∧
          done.2.2 = given.2)
      (collect (modAct env) table (paired cm num))
      (countLoop (modBody env) num 0 0 (cm, table)) := by
  have loop := @countLoop_agrees _ _ _ _ (modAct env) (fun pair =>
        (pair, serviceAt cm (2 * pair), serviceAt cm (2 * pair + 1)))
      (modBody env)
      (fun pair kept table b =>
        Compacted cm (2 * pair) kept b.1 ∧ Whole kept ∧ kept.length ≤ pair ∧ b.2 = table) num
      (by
        rintro pair kept table ⟨cm', table'⟩ - ⟨compacted, whole, few, rfl⟩
        exact modBody_agrees compacted whole few)
      num 0 (Nat.zero_add num).le [] table (cm, table)
      ⟨.start cm, by simp [Whole], Nat.le_refl 0, rfl⟩
  rw [Nat.zero_add] at loop
  refine loop.mono ?_
  rintro given done ⟨count, compacted, whole, -, same⟩
  exact ⟨count, compacted, whole, same⟩

end

/-! ## The loop that answers in a buffer -/

def removedStat (removed : Removed) : List UInt8 := delStat removed.stats ++ List.replicate 4 0

def removedRecord (removed : Removed) : List UInt8 :=
  (if removed.copied then removed.entry
    else List.replicate serviceInfoSize 0) ++ removedStat removed

/-- The buffer of the reply: a header, the records so far, and zeros. -/
def delBuffer (num : Nat) (kept : List Removed) : List UInt8 :=
  List.replicate ctrlmsgServiceSize 0 ++ ((kept.map removedRecord).flatten ++
      List.replicate ((num - kept.length) * serviceInfoStatSize) 0)

def Removed.Sized (removed : Removed) : Prop :=
  removed.copied = true → removed.entry.length = serviceInfoSize

theorem length_delStat (stats : TargetStats) : (delStat stats).length = 24 := by
  simp [delStat, statBytes]

theorem Removed.Sized.length {removed : Removed} (sized : removed.Sized) :
    (removedRecord removed).length = serviceInfoStatSize := by
  have service : (if removed.copied then removed.entry
        else List.replicate serviceInfoSize 0).length = serviceInfoSize := by
    split
    · rename_i copied
      exact sized copied
    · exact List.length_replicate
  rw [removedRecord, List.length_append, service]
  rfl

theorem length_records (sized : ∀ removed ∈ kept, removed.Sized) :
    (kept.map removedRecord).flatten.length = kept.length * serviceInfoStatSize := by
  induction kept with
  | nil => simp
  | cons removed rest ih =>
    have others := ih fun other member =>
      sized other (List.mem_cons_of_mem _ member)
    have here := (sized removed List.mem_cons_self).length
    rw [List.map_cons, List.flatten_cons, List.length_append, here, others, List.length_cons,
      Nat.succ_mul, Nat.add_comm]

theorem delBuffer_next (room : kept.length < num) : delBuffer num kept =
      List.replicate ctrlmsgServiceSize 0 ++ (kept.map removedRecord).flatten ++
        (List.replicate serviceInfoSize 0 ++ (List.replicate 24 0 ++ (List.replicate 4 0 ++
            List.replicate ((num - (kept.length + 1)) * serviceInfoStatSize)
              0))) := by
  have zeros : (num - kept.length) * serviceInfoStatSize = serviceInfoSize + (24 + (4 +
          (num - (kept.length + 1)) * serviceInfoStatSize)) := by
    obtain ⟨more, rfl⟩ := Nat.exists_eq_add_of_lt room
    have left : kept.length + more + 1 - kept.length = more + 1 := by omega
    have right : kept.length + more + 1 - (kept.length + 1) = more := by omega
    rw [serviceInfoStatSize, serviceInfoSize]
    omega
  rw [delBuffer, zeros, List.replicate_add, List.replicate_add, List.replicate_add]
  simp only [List.append_assoc]

theorem delBuffer_store {num i : Nat} {kept : List Removed} {removed : Removed}
    (room : kept.length < num) (sized : ∀ other ∈ kept, other.Sized)
    (here : removed.Sized)
    (copied : removed.copied = decide (kept.length < i)) :
    (do
      let cms ← writeBytes (delBuffer num kept)
          (ctrlmsgServiceInfoStatNumLen kept.length + serviceInfoSize)
          (delStat removed.stats)
      copyService cms kept.length i removed.entry) =
      .ok (delBuffer num (kept ++ [removed])) := by
  have length : (List.replicate ctrlmsgServiceSize (0 : UInt8) ++
        (kept.map removedRecord).flatten).length =
        ctrlmsgServiceInfoStatNumLen kept.length := by
    rw [List.length_append, List.length_replicate, length_records sized,
      ctrlmsgServiceInfoStatNumLen]
  have after : delBuffer num (kept ++ [removed]) = List.replicate ctrlmsgServiceSize 0 ++
          (kept.map removedRecord).flatten ++
          (removedRecord removed ++ List.replicate ((num - (kept.length + 1)) * serviceInfoStatSize)
              0) := by
    rw [delBuffer, List.map_append, List.flatten_append, List.length_append]
    simp only [List.map_cons, List.map_nil, List.flatten_singleton, List.length_singleton,
      List.append_assoc]
  rw [delBuffer_next room, after, ← List.append_assoc _ (List.replicate _ _),
    writeBytes_between (by rw [List.length_append, length, List.length_replicate])
      (by rw [List.length_replicate, length_delStat]), ok_bind, copyService]
  rw [removedRecord, removedStat, copied]
  by_cases fewer : kept.length < i
  · have size := here (copied.trans (decide_eq_true fewer))
    rw [if_pos fewer, access_whole size, ok_bind, decide_eq_true fewer, if_pos rfl,
      List.append_assoc, writeBytes_between length
        (by rw [List.length_replicate, size])]
    simp only [List.append_assoc]
  · rw [if_neg fewer, decide_eq_false fewer, if_neg Bool.false_ne_true]
    simp only [List.append_assoc]

/-- What is known in the loop of `ctrl_handle_del_service_msg`. -/
structure Collected (num i : Nat) (kept : List Removed) (index : Nat) (cms : List UInt8) :
    Prop where
  index : index = kept.length
  few : kept.length ≤ i
  sized : ∀ removed ∈ kept, removed.Sized
  buffer : cms = delBuffer num kept

theorem Collected.add {index : Nat} {cms : List UInt8} {removed : Removed}
    (collected : Collected num i kept index cms) (here : removed.Sized) :
    Collected num (i + 1) (kept ++ [removed]) (index + 1)
      (delBuffer num (kept ++ [removed])) where
  index := by
    rw [collected.index, List.length_append]
    rfl
  few := by
    rw [List.length_append]
    exact Nat.succ_le_succ collected.few
  sized := by
    intro other member
    rcases List.mem_append.mp member with before | last
    · exact collected.sized other before
    · rw [List.mem_singleton.mp last]
      exact here
  buffer := rfl

theorem delBody_agrees {cm cms : List UInt8} {index : Nat} {table : ServiceTable} (inside : i < num)
    (collected : Collected num i kept index cms) :
    Agrees
      (fun given done =>
        done.1 = given.1.isSome ∧
          Collected num (i + 1) (kept ++ given.1.toList) given.2.1
            done.2.1 ∧ done.2.2 = given.2.2)
      (delAct (index, table) (i, serviceAt cm i))
      (delBody cm i kept.length (cms, table)) := by
  obtain ⟨rfl, few, sized, rfl⟩ := collected
  have room : kept.length < num := few.trans_lt inside
  refine Agrees.same.bind ?_
  rintro ⟨stats, table'⟩ second ⟨rfl, run⟩
  cases stats with
  | none =>
    refine .ok ⟨rfl, ?_, rfl⟩
    simp only [Option.toList_none, List.append_nil]
    exact ⟨rfl, few.trans (Nat.le_succ i), sized, rfl⟩
  | some stats =>
    dsimp only
    rw [← bind_assoc]
    by_cases fewer : kept.length < i
    · rw [if_pos fewer]
      rcases Nat.lt_or_ge (serviceAt cm i).length serviceInfoSize with
        short | long
      · have refused : access (serviceAt cm i) serviceInfoSize = .error .bounds :=
          if_neg (Nat.not_le.mpr short)
        -- The counters were written before the record is looked at.
        obtain ⟨cms, written, -⟩ := of_bind
            (@delBuffer_store num 0 kept ⟨false, [], stats⟩ room sized
              (fun copied => by cases copied) rfl)
        rw [written, ok_bind, copyService, if_pos fewer, refused]
        exact .error .bounds
      · have size := size_of_long long
        have here : Removed.Sized ⟨true, serviceAt cm i, stats⟩ := fun _ => size
        rw [delBuffer_store room sized here (decide_eq_true fewer).symm, access_whole size]
        exact .ok ⟨rfl, Collected.add ⟨rfl, few, sized, rfl⟩ here, rfl⟩
    · have here : Removed.Sized ⟨false, serviceAt cm i, stats⟩ := fun copied => by cases copied
      rw [if_neg fewer, delBuffer_store room sized here (decide_eq_false fewer).symm]
      exact .ok ⟨rfl, Collected.add ⟨rfl, few, sized, rfl⟩ here, rfl⟩

theorem delLoop_agrees (num : Nat) (table : ServiceTable) : Agrees (fun given done =>
        done.1 = given.1.length ∧ Collected num num given.1 given.2.1 done.2.1 ∧
          done.2.2 = given.2.2)
      (collect delAct (0, table) (numbered cm num))
      (countLoop (delBody cm) num 0 0
        (List.replicate (ctrlmsgServiceInfoStatNumLen num) 0, table)) := by
  have zeros : List.replicate (ctrlmsgServiceInfoStatNumLen num) 0 = delBuffer num [] := by
    rw [ctrlmsgServiceInfoStatNumLen, List.replicate_add]
    rfl
  have loop := @countLoop_agrees _ _ _ _ delAct (fun i => (i, serviceAt cm i)) (delBody cm)
      (fun i kept s b => Collected num i kept s.1 b.1 ∧ b.2 = s.2) num
      (by
        rintro i kept ⟨index, table⟩ ⟨cms, table'⟩ inside ⟨collected, rfl⟩
        exact delBody_agrees inside collected)
      num 0 (Nat.zero_add num).le [] (0, table) (delBuffer num [], table)
      ⟨⟨rfl, Nat.le_refl 0, by simp, rfl⟩, rfl⟩
  rw [Nat.zero_add] at loop
  rw [zeros]
  exact loop

end Serval
