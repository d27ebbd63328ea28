import Serval.Ctrl.Loops
import Serval.Service.TargetSets
import Serval.Support.Run

/-!
# Replies

A client asks for rules to be added, removed or modified, and the reply should
list those requests that went through.
-/

namespace Serval

open Serval.Support

/-- `struct service_info`, as bytes. -/
structure ServiceInfo where
  bytes : List UInt8
  size : bytes.length = serviceInfoSize

/-- A request with its records; a modification takes two of them. -/
inductive ServiceCall where
  | add (entries : List ServiceInfo)
  | del (entries : List ServiceInfo)
  | mod (pairs : List (ServiceInfo × ServiceInfo))

def ServiceCall.code : ServiceCall → UInt8
  | .add _ => 3
  | .del _ => 4
  | .mod _ => 5

def ServiceCall.records : ServiceCall → List ServiceInfo
  | .add entries => entries
  | .del entries => entries
  | .mod pairs => pairs.flatMap fun pair => [pair.1, pair.2]

structure ServiceRequest where
  call : ServiceCall
  retval : UInt8
  xids : List UInt8
  xidsSize : xids.length = 8
  fits : ctrlmsgServiceNumLen call.records.length < 2 ^ 16

def ServiceRequest.header (request : ServiceRequest) : List UInt8 :=
  [request.call.code, request.retval] ++
    leBytes 2 (ctrlmsgServiceNumLen request.call.records.length) ++
    request.xids

def ServiceRequest.message (request : ServiceRequest) : List UInt8 :=
  request.header ++ (request.call.records.map ServiceInfo.bytes).flatten

/-! ## What a reply should say -/

section

variable (env : CtrlEnv) (table : ServiceTable)

private def modGives (pair : ServiceInfo × ServiceInfo) :
    Except Fault (Option (List UInt8) × ServiceTable) := do
  let (modified, table) ← modService env table pair.1.bytes pair.2.bytes
  .ok (if modified then some pair.2.bytes else none, table)

private def addGives (entry : ServiceInfo) : Except Fault (Option (List UInt8) × ServiceTable) := do
  let (added, table) ← addService env table entry.bytes
  .ok (if added then some entry.bytes else none, table)

def delGives (entry : ServiceInfo) :
    Except Fault (Option (List UInt8 × TargetStats) × ServiceTable) := do
  let (stats, table) ← delService table entry.bytes
  .ok (stats.map fun stats => (entry.bytes, stats), table)

/-- `struct service_info_stat` of a removed rule. -/
def statRecord (removed : List UInt8 × TargetStats) : List UInt8 :=
  removed.1 ++ (statBytes 0 ++ statBytes 0 ++
    statBytes removed.2.packetsResolved ++ statBytes removed.2.bytesResolved ++
    statBytes removed.2.packetsDropped ++ statBytes removed.2.bytesDropped ++
    List.replicate 4 0)

/-- The rules that are removed; without memory for the reply none is. -/
def removes (entries : List ServiceInfo) : Except Fault (List (List UInt8 × TargetStats)) :=
  if env.alloc then do
    let (removed, _) ← collect delGives table entries
    .ok removed
  else
    .ok []

def ServiceCall.processed : ServiceCall → Except Fault (List (List UInt8))
  | .add entries => do
    let (added, _) ← collect (addGives env) table entries
    .ok added
  | .del entries => do
    let removed ← removes env table entries
    .ok (removed.map statRecord)
  | .mod pairs => do
    let (modified, _) ← collect (modGives env) table pairs
    .ok modified

private def ServiceCall.recordSize : ServiceCall → Nat
  | .add _ => serviceInfoSize
  | .del _ => serviceInfoStatSize
  | .mod _ => serviceInfoSize

/-- The reply says whether anything was processed, and then its length is its
true size and it lists just what was processed. -/
structure Faithful (size : Nat) (processed : List (List UInt8)) (reply : List UInt8) : Prop where
  retval : reply[1]? = some CtrlmsgRetval.ok.code ↔ processed ≠ []
  len : processed ≠ [] → leNat (field reply 2 2) = ctrlmsgServiceSize + processed.length * size
  entries : processed ≠ [] → reply.drop ctrlmsgServiceSize = processed.flatten

def Replies (request : ServiceRequest) :
    Prop :=
  ∃ done reply processed, ctrlRecvmsg env table request.message = .ok done ∧
      done.sent = some reply ∧ request.call.processed env table = .ok processed ∧
      Faithful request.call.recordSize processed reply

end

/-! ## Messages that are sent back -/

section

variable {cm : List UInt8} {retval : CtrlmsgRetval} {ret : Int} {table : ServiceTable}

private theorem readLen_of_le (long : 4 ≤ cm.length) : readLen cm = .ok (leNat (field cm 2 2)) := by
  rw [readLen, readBytes_of_le long]
  rfl

private theorem ctrlSendmsg_of_le (long : 4 ≤ cm.length) (fits : leNat (field cm 2 2) ≤ cm.length) :
    ctrlSendmsg cm = .ok (cm.take (leNat (field cm 2 2))) := by
  rw [ctrlSendmsg, readLen_of_le long, ok_bind, readBytes_of_le (by rw [Nat.zero_add]; exact fits),
    List.drop_zero]

/-- The return value is the second byte; the others are those of the
message. -/
theorem setRetval_spec (long : 4 ≤ cm.length) (retval : CtrlmsgRetval) :
    ∃ cm', setRetval cm retval = .ok cm' ∧ cm'.length = cm.length ∧ cm'[1]? = some retval.code ∧
      ∀ place, 2 ≤ place → cm'.drop place = cm.drop place := by
  have write := @writeBytes_of_le cm [retval.code] 1 (show 1 + 1 ≤ cm.length by omega)
  refine ⟨_, write, length_of_writeBytes write, ?_, ?_⟩
  · rw [List.getElem?_append_right (by rw [List.length_take]; omega), List.length_take,
      Nat.min_eq_left (by omega)]
    rfl
  · intro place behind
    exact drop_of_writeBytes write behind

/-- A message that is there to its end is sent, with the return value. -/
theorem sendRetval_ok (long : 4 ≤ cm.length) (fits : leNat (field cm 2 2) ≤ cm.length) :
    ∃ sent, sendRetval cm retval ret table = .ok ⟨ret, some sent, table⟩ ∧
      sent.length = leNat (field cm 2 2) ∧ (2 ≤ sent.length → sent[1]? = some retval.code) ∧
      (4 ≤ sent.length → leNat (field sent 2 2) = sent.length) ∧
      ∀ place, 2 ≤ place → sent.drop place = (cm.take (leNat (field cm 2 2))).drop place := by
  obtain ⟨cm', set, length, code, behind⟩ := setRetval_spec long retval
  have len : field cm' 2 2 = field cm 2 2 := by rw [field, field, behind 2 (Nat.le_refl 2)]
  refine ⟨cm'.take (leNat (field cm 2 2)), ?_, ?_, ?_, ?_, ?_⟩
  · rw [sendRetval, set, ok_bind, ctrlSendmsg_of_le (by omega) (by rw [len, length]; exact fits),
      ok_bind,
      len]
  · rw [List.length_take, length, Nat.min_eq_left fits]
  · intro two
    rw [List.length_take] at two
    rw [List.getElem?_take_of_lt (by omega), code]
  · intro four
    rw [List.length_take, length, Nat.min_eq_left fits] at four ⊢
    rw [field, List.drop_take, List.take_take, Nat.min_eq_left (by omega)]
    exact congrArg leNat len
  · intro place past
    rw [List.drop_take, List.drop_take, behind place past]

private theorem setLen_spec (long : 4 ≤ cm.length) (len : Nat) :
    ∃ cm', setLen cm len = .ok cm' ∧ cm'.length = cm.length ∧ leNat (field cm' 2 2) = len % 2 ^ 16 ∧
      ∀ place, 4 ≤ place → cm'.drop place = cm.drop place := by
  obtain ⟨cm', write⟩ : ∃ cm', writeBytes cm 2 (leBytes 2 len) = .ok cm' :=
    ⟨_, writeBytes_of_le (by rw [length_leBytes]; omega)⟩
  refine ⟨cm', write, length_of_writeBytes write, ?_, ?_⟩
  · have front := take_of_writeBytes write
    rw [length_leBytes] at front
    have bytes : field cm' 2 2 = leBytes 2 len := by
      rw [field, show (2 : Nat) = 4 - 2 from rfl, ← List.drop_take, front,
        List.drop_left' (by rw [List.length_take]; omega)]
    rw [bytes, leNat_leBytes]
    norm_num
  · intro place behind
    exact drop_of_writeBytes write (by rw [length_leBytes]; omega)

private theorem sendServices_kept {cm' : List UInt8} {i : Nat} {kept : List (List UInt8)}
    (compacted : Compacted cm i kept cm') (whole : Whole kept) (some : kept ≠ [])
    (fits : ctrlmsgServiceNumLen kept.length < 2 ^ 16) :
    ∃ sent, sendServices cm' kept.length table = .ok ⟨0, .some sent, table⟩ ∧
      sent[1]? = .some CtrlmsgRetval.ok.code ∧
      leNat (field sent 2 2) = ctrlmsgServiceNumLen kept.length ∧
      sent.drop ctrlmsgServiceSize = kept.flatten := by
  have positive : 0 < kept.length := List.length_pos_iff.mpr some
  have room := (compacted.inside_iff some).mpr whole
  have large : ctrlmsgServiceSize ≤ ctrlmsgServiceNumLen kept.length := Nat.le_add_right ..
  have header : ctrlmsgServiceSize = 12 := rfl
  have long : 4 ≤ cm'.length := by
    rw [compacted.length]
    omega
  obtain ⟨cm'', set, length, len, behind⟩ := setLen_spec long (ctrlmsgServiceNumLen kept.length)
  rw [Nat.mod_eq_of_lt fits] at len
  have inside : leNat (field cm'' 2 2) ≤ cm''.length := by
    rw [len, length, compacted.length]
    exact room
  obtain ⟨sent, run, size, code, told, same⟩ := @sendRetval_ok cm'' .ok 0 table (by omega) inside
  rw [len] at size
  refine ⟨sent, ?_, code (by omega), (told (by omega)).trans size, ?_⟩
  · rw [sendServices, if_neg (by omega), set, ok_bind, run]
  · rw [same _ (by omega), len, List.drop_take, behind _ (by omega), ← List.drop_take,
      compacted.front]
    exact List.drop_left' (by rw [List.length_take]; omega)

end

/-! ## The records of a request -/

private theorem drop_flatten {pieces : List (List UInt8)} {size : Nat}
    (sized : ∀ piece ∈ pieces, piece.length = size) (i : Nat) :
    pieces.flatten.drop (i * size) = (pieces.drop i).flatten := by
  induction pieces generalizing i with
  | nil => simp
  | cons piece rest ih =>
    cases i with
    | zero => simp
    | succ i =>
      rw [List.flatten_cons, List.drop_succ_cons, ← ih (fun other member =>
          sized other (List.mem_cons_of_mem _ member)) i,
        Nat.succ_mul, Nat.add_comm, ← List.drop_drop,
        List.drop_left' (sized piece List.mem_cons_self)]

private theorem map_range'_eq {α β : Type} {f : Nat → β} {g : α × Nat → β} {items : List α}
    (each : ∀ i item, items[i]? = some item → f i = g (item, i)) :
    (List.range' 0 items.length).map f = items.zipIdx.map g := by
  apply List.ext_getElem
  · simp
  · intro i _ inside
    have inside : i < items.length := by simpa using inside
    simpa using each i items[i] (List.getElem?_eq_getElem inside)

namespace ServiceRequest

variable (request : ServiceRequest)

private theorem length_header : request.header.length = ctrlmsgServiceSize := by
  rw [header, List.length_append, request.xidsSize]
  rfl

private theorem length_flatten (records : List ServiceInfo) :
    (records.map ServiceInfo.bytes).flatten.length = records.length * serviceInfoSize := by
  induction records with
  | nil => simp
  | cons record rest ih =>
    rw [List.map_cons, List.flatten_cons, List.length_append, record.size, ih, List.length_cons,
      Nat.succ_mul, Nat.add_comm]

private theorem length_message : request.message.length =
      ctrlmsgServiceNumLen request.call.records.length := by
  rw [message, List.length_append, length_header, length_flatten]
  rfl

private theorem lenField : leNat (field request.message 2 2) =
      ctrlmsgServiceNumLen request.call.records.length := by
  have bytes : field request.message 2 2 =
        leBytes 2 (ctrlmsgServiceNumLen request.call.records.length) := by
    rw [field, message, header]
    simp [leBytes]
  rw [bytes, leNat_leBytes, Nat.mod_eq_of_lt]
  exact request.fits

private theorem num_eq : ctrlmsgServiceNum (ctrlmsgServiceNumLen request.call.records.length) =
      request.call.records.length := by
  have fits := request.fits
  rw [ctrlmsgServiceNumLen, serviceInfoSize] at fits
  have wraps : 2 ^ 64 + (12 + request.call.records.length * 73) - 12 =
        2 ^ 64 + request.call.records.length * 73 := by
    omega
  have small : request.call.records.length * 73 % 2 ^ 64 = request.call.records.length * 73 :=
    Nat.mod_eq_of_lt (by omega)
  rw [ctrlmsgServiceNum, ctrlmsgServiceNumLen, ctrlmsgServiceSize, serviceInfoSize, wraps,
    Nat.add_mod_left, small,
    Nat.mul_div_cancel _ (by decide), Nat.mod_eq_of_lt (by omega)]

private theorem long_message : 4 ≤ request.message.length := by
  rw [length_message, ctrlmsgServiceNumLen, ctrlmsgServiceSize]
  omega

private theorem readLen_message : readLen request.message =
      .ok (ctrlmsgServiceNumLen request.call.records.length) := by
  rw [readLen_of_le request.long_message, lenField]

private theorem drop_message (i : Nat) : request.message.drop (ctrlmsgServiceNumLen i) =
      ((request.call.records.drop i).map ServiceInfo.bytes).flatten := by
  rw [message, ctrlmsgServiceNumLen, ← List.drop_drop, List.drop_left' request.length_header,
    List.map_drop]
  apply drop_flatten
  intro piece member
  obtain ⟨record, -, rfl⟩ := List.mem_map.mp member
  exact record.size

private theorem serviceAt_message {i : Nat} {record : ServiceInfo}
    (here : request.call.records[i]? = some record) :
    serviceAt request.message i = record.bytes := by
  obtain ⟨inside, rfl⟩ := List.getElem?_eq_some_iff.mp here
  rw [serviceAt, drop_message, List.drop_eq_getElem_cons inside, List.map_cons, List.flatten_cons,
    ← (request.call.records[i]).size,
    List.take_left]

private theorem numbered_message : numbered request.message request.call.records.length =
      request.call.records.zipIdx.map fun record =>
        (record.2, record.1.bytes) := by
  refine map_range'_eq fun i record here => ?_
  rw [request.serviceAt_message here]

end ServiceRequest

private theorem records_mod {pairs : List (ServiceInfo × ServiceInfo)} {i : Nat}
    {pair : ServiceInfo × ServiceInfo} (here : pairs[i]? = some pair) :
    (ServiceCall.mod pairs).records[2 * i]? = some pair.1 ∧
      (ServiceCall.mod pairs).records[2 * i + 1]? = some pair.2 := by
  induction pairs generalizing i with
  | nil => cases here
  | cons first rest ih =>
    cases i with
    | zero =>
      cases here
      exact ⟨rfl, rfl⟩
    | succ i => exact ih here

private theorem length_records_mod (pairs : List (ServiceInfo × ServiceInfo)) :
    (ServiceCall.mod pairs).records.length = 2 * pairs.length := by
  simp [ServiceCall.records, Nat.mul_comm]

private theorem ServiceRequest.paired_message
    (request : ServiceRequest) {pairs : List (ServiceInfo × ServiceInfo)}
    (asks : request.call = .mod pairs) :
    paired request.message pairs.length = pairs.zipIdx.map fun pair =>
        (pair.2, pair.1.1.bytes, pair.1.2.bytes) := by
  refine map_range'_eq fun i pair here => ?_
  obtain ⟨old, new⟩ := records_mod here
  rw [← asks] at old new
  rw [request.serviceAt_message old, request.serviceAt_message new]

/-! ## Only `FORWARD` rules are removed -/

private theorem removesTarget_other {type : RuleType} (other : type ≠ .forward) (dst : Option Buf)
    (t : Target) : removesTarget type dst inAddrSize t = .ok false := by
  rw [removesTarget]
  by_cases same : t.type = type
  · rw [if_neg (not_not_intro same), same]
    cases type with
    | forward => exact absurd rfl other
    | _ => rfl
  · rw [if_pos same]
    rfl

variable {table table' : ServiceTable}

private theorem serviceEntryRemoveTarget_other {n : Ptr} {type : RuleType}
    {dst : Option Buf} {stats : Option TargetStats} (other : type ≠ .forward)
    (run :
      serviceEntryRemoveTarget table n type dst inAddrSize =
        .ok (stats, table')) : stats = none := by
  obtain ⟨se, -, run⟩ := of_bind run
  have nothing : locate (removesTarget type dst inAddrSize) se.targetSet = .ok none :=
    locate_none fun set _ t _ => removesTarget_other other dst t
  have unchanged : se.removeTarget type dst inAddrSize = .ok (none, se) := by
    rw [ServiceEntry.removeTarget, nothing]
    rfl
  rw [unchanged, ok_bind] at run
  obtain ⟨stored, -, run⟩ := of_bind run
  cases run
  rfl

private theorem infoType_of_removed {entry : List UInt8} {stats : TargetStats}
    (removed : delService table entry = .ok (some stats, table')) :
    infoType (entry.take uptoSrvid) = .forward := by
  obtain ⟨part, accessed, removed⟩ := of_bind removed
  obtain ⟨-, rfl⟩ := length_of_access accessed
  obtain ⟨found, -, removed⟩ := of_bind removed
  by_contra other
  cases found with
  | none => cases removed
  | some n => cases serviceEntryRemoveTarget_other other removed

private theorem ne_zeros_of_removed {entry : List UInt8} {stats : TargetStats}
    (removed : delService table entry = .ok (some stats, table')) :
    entry ≠ List.replicate serviceInfoSize 0 := by
  rintro rfl
  have forward := infoType_of_removed removed
  revert forward
  decide

section

variable {env : CtrlEnv} {table : ServiceTable}

/-- A record that was received as a whole is moved without further ado. -/
theorem addAct_agrees (entries : List ServiceInfo) (index i : Nat) : Agrees (fun given spec =>
        given.1 = spec.1 ∧ Whole given.1)
      (collect (addAct env) (index, table)
        ((entries.zipIdx i).map fun entry => (entry.2, entry.1.bytes)))
      (collect (addGives env) table entries) := by
  induction entries generalizing index i table with
  | nil => exact .ok ⟨rfl, by simp [Whole]⟩
  | cons entry rest ih =>
    rw [List.zipIdx_cons, List.map_cons, collect, collect, addAct, addGives, bind_assoc, bind_assoc]
    refine Agrees.same.bind ?_
    rintro ⟨added, table⟩ second ⟨rfl, -⟩
    cases added with
    | false =>
      refine (ih index (i + 1)).bind ?_
      rintro ⟨given, s⟩ ⟨spec, s'⟩ ⟨rfl, whole⟩
      exact .ok ⟨rfl, whole⟩
    | true =>
      have moved : (if index < i then do
            let entry ← access entry.bytes serviceInfoSize
            .ok (some entry, (index + 1, table))
          else .ok (some entry.bytes, (index + 1, table))) =
          (.ok (some entry.bytes, (index + 1, table)) : Except Fault _) := by
        rw [access_whole entry.size, ok_bind, ite_self]
      simp only [if_true, moved, ok_bind]
      refine (ih (index + 1) (i + 1)).bind ?_
      rintro ⟨given, s⟩ ⟨spec, s'⟩ ⟨rfl, whole⟩
      exact .ok ⟨rfl, List.forall_mem_cons.mpr ⟨entry.size, whole⟩⟩

private theorem modAct_later {i : Nat} (later : i ≠ 0) (pair : ServiceInfo × ServiceInfo) :
    modAct env table (i, pair.1.bytes, pair.2.bytes) =
      modGives env table pair := by
  rw [modAct]
  congr 1
  funext result
  obtain ⟨modified, table⟩ := result
  cases modified with
  | false => rfl
  | true =>
    simp only [if_true, if_neg later, access_whole pair.2.size, ok_bind]

theorem collect_modAct (pairs : List (ServiceInfo × ServiceInfo)) {i : Nat} (later : i ≠ 0) :
    collect (modAct env) table
        ((pairs.zipIdx i).map fun pair =>
          (pair.2, pair.1.1.bytes, pair.1.2.bytes)) =
      collect (modGives env) table pairs := by
  induction pairs generalizing i table with
  | nil => rfl
  | cons pair rest ih =>
    rw [List.zipIdx_cons, List.map_cons, collect, modAct_later later]
    congr 1
    funext result
    simp only [ih (Nat.succ_ne_zero i)]

def Removed.plain (removed : Removed) : List UInt8 × TargetStats := (removed.entry, removed.stats)

theorem delAct_agrees (entries : List ServiceInfo) (index i : Nat) : Agrees (fun given spec =>
        given.1.map Removed.plain = spec.1 ∧
          (index < i → ∀ removed ∈ given.1, removed.copied = true))
      (collect delAct (index, table) ((entries.zipIdx i).map fun entry => (entry.2, entry.1.bytes)))
      (collect delGives table entries) := by
  induction entries generalizing index i table with
  | nil => exact .ok ⟨rfl, by simp⟩
  | cons entry rest ih =>
    rw [List.zipIdx_cons, List.map_cons, collect, collect, delAct, delGives, bind_assoc, bind_assoc]
    refine Agrees.same.bind ?_
    rintro ⟨stats, table⟩ second ⟨rfl, -⟩
    cases stats with
    | none =>
      refine (ih index (i + 1)).bind ?_
      rintro ⟨given, s⟩ ⟨spec, s'⟩ ⟨same, copied⟩
      refine .ok ⟨same, fun fewer => copied (by omega)⟩
    | some stats =>
      by_cases fewer : index < i
      · simp only [if_pos fewer, access_whole entry.size, ok_bind]
        refine (ih (index + 1) (i + 1)).bind ?_
        rintro ⟨given, s⟩ ⟨spec, s'⟩ ⟨rfl, copied⟩
        refine .ok ⟨rfl, fun _ removed member => ?_⟩
        rcases List.mem_cons.mp member with rfl | other
        · rfl
        · exact copied (by omega) removed other
      · simp only [if_neg fewer, ok_bind]
        refine (ih (index + 1) (i + 1)).bind ?_
        rintro ⟨given, s⟩ ⟨spec, s'⟩ ⟨rfl, copied⟩
        exact .ok ⟨rfl, fun less => absurd less fewer⟩

private abbrev delRounds (table : ServiceTable) (entries : List ServiceInfo) :=
  collect delAct (0, table) (entries.zipIdx.map fun entry => (entry.2, entry.1.bytes))

def FirstRemoved (table : ServiceTable) (entries : List ServiceInfo) : Prop :=
  ∃ entry rest stats table', entries = entry :: rest ∧
    delService table entry.bytes = .ok (some stats, table')

variable {entries : List ServiceInfo}

/-- The service of the first rule is not copied when it is removed, and then
the reply begins with it. -/
theorem first_not_copied {kept : List Removed} {s : Nat × ServiceTable}
    (first : FirstRemoved table entries)
    (run : delRounds table entries = .ok (kept, s)) : ∃ removed ∈ kept, removed.copied = false ∧
      removed.entry ≠ List.replicate serviceInfoSize 0 := by
  obtain ⟨entry, rest, stats, table', rfl, deleted⟩ := first
  rw [delRounds, List.zipIdx_cons, List.map_cons, collect, delAct, deleted] at run
  obtain ⟨⟨given, state⟩, acted, run⟩ := of_bind run
  cases acted
  obtain ⟨⟨others, s'⟩, -, run⟩ := of_bind run
  cases run
  exact ⟨_, List.mem_cons_self, rfl, ne_zeros_of_removed deleted⟩

private theorem copied_of_not_first {kept : List Removed} {s : Nat × ServiceTable}
    (failed : ¬ FirstRemoved table entries)
    (run : delRounds table entries = .ok (kept, s)) : ∀ removed ∈ kept, removed.copied = true := by
  cases entries with
  | nil =>
    cases run
    simp
  | cons entry rest =>
    obtain ⟨⟨given, state⟩, acted, run⟩ := of_bind run
    obtain ⟨⟨others, s'⟩, rested, run⟩ := of_bind run
    cases run
    obtain ⟨⟨stats, table'⟩, deleted, acted⟩ := of_bind acted
    cases stats with
    | none =>
      cases acted
      have agrees := @delAct_agrees table' rest 0 1
      rw [rested] at agrees
      obtain ⟨spec, -, -, copied⟩ := agrees.ok_left
      exact copied Nat.zero_lt_one
    | some stats =>
      exact absurd ⟨entry, rest, stats, table', rfl, deleted⟩ failed

private theorem size_of_delGives {table' : ServiceTable} {removed : List (List UInt8 × TargetStats)}
    (run : collect delGives table entries = .ok (removed, table')) :
    ∀ rule ∈ removed, rule.1.length = serviceInfoSize := by
  induction entries generalizing table removed with
  | nil =>
    cases run
    simp
  | cons entry rest ih =>
    obtain ⟨⟨given, table₁⟩, gave, run⟩ := of_bind run
    obtain ⟨⟨others, table₂⟩, later, run⟩ := of_bind run
    cases run
    obtain ⟨⟨stats, table₃⟩, -, gave⟩ := of_bind gave
    cases gave
    intro rule member
    rcases List.mem_append.mp member with here | there
    · cases stats with
      | none => cases here
      | some stats =>
        rw [List.mem_singleton.mp here]
        exact entry.size
    · exact ih later rule there

end

def DroppedAlike (stats : TargetStats) : Prop :=
  statBytes stats.packetsDropped = statBytes stats.bytesDropped

private theorem removedRecord_copied {removed : Removed} (copied : removed.copied = true) :
    removedRecord removed = statRecord removed.plain ↔ DroppedAlike removed.stats := by
  rw [removedRecord, if_pos copied, removedStat, delStat, statRecord, Removed.plain, DroppedAlike]
  simp only [List.append_assoc, List.append_cancel_left_eq, List.append_cancel_right_eq]

private theorem length_statRecord {removed : List UInt8 × TargetStats}
    (size : removed.1.length = serviceInfoSize) :
    (statRecord removed).length = serviceInfoStatSize := by
  simp [statRecord, statBytes, size, serviceInfoSize, serviceInfoStatSize]

/-- Lists of pieces of one size are the same when the pieces are. -/
theorem flatten_map_eq_iff {α : Type} {f g : α → List UInt8} {items : List α} {size : Nat}
    (left : ∀ item ∈ items, (f item).length = size)
    (right : ∀ item ∈ items, (g item).length = size) :
    (items.map f).flatten = (items.map g).flatten ↔
      ∀ item ∈ items, f item = g item := by
  induction items with
  | nil => simp
  | cons item rest ih =>
    have here := left item List.mem_cons_self
    have there := right item List.mem_cons_self
    have others := ih (fun other member => left other (List.mem_cons_of_mem _ member))
        (fun other member => right other (List.mem_cons_of_mem _ member))
    rw [List.map_cons, List.map_cons, List.flatten_cons, List.flatten_cons,
      List.append_eq_append_iff_of_size_eq_left (here.trans there.symm),
      others, List.forall_mem_cons]

section

variable {sent records : List UInt8} {processed : List (List UInt8)} {size : Nat}

private theorem faithful_nil {code : UInt8} (size : Nat) (told : sent[1]? = some code)
    (other : code ≠ CtrlmsgRetval.ok.code) : Faithful size [] sent := by
  refine ⟨?_, absurd rfl, absurd rfl⟩
  rw [told]
  exact iff_of_false (fun same => other (Option.some.inj same)) (absurd rfl)

private theorem faithful_iff (some : processed ≠ []) (code : sent[1]? = .some CtrlmsgRetval.ok.code)
    (len : leNat (field sent 2 2) = ctrlmsgServiceSize + processed.length * size)
    (entries : sent.drop ctrlmsgServiceSize = records) :
    Faithful size processed sent ↔ processed.flatten = records := by
  constructor
  · intro faithful
    rw [← faithful.entries some, entries]
  · intro same
    exact ⟨iff_of_true code some, fun _ => len, fun _ => entries.trans same.symm⟩

end

private theorem Compacted.lenField {cm cm' : List UInt8} {i : Nat} {kept : List (List UInt8)}
    (compacted : Compacted cm i kept cm') (long : 4 ≤ cm.length) :
    field cm' 2 2 = field cm 2 2 := by
  have four : 4 ≤ ctrlmsgServiceNumLen kept.length := by
    rw [ctrlmsgServiceNumLen, ctrlmsgServiceSize]
    omega
  have front := congrArg (List.take 4) compacted.front
  rw [List.take_take, Nat.min_eq_left four, List.take_append_of_le_length
      (by rw [List.length_take, ctrlmsgServiceSize]; omega),
    List.take_take, Nat.min_eq_left (by decide)] at front
  rw [field, field, show (2 : Nat) = 4 - 2 from rfl, ← List.drop_take, ← List.drop_take, front]

/-- The reply is faithful to a list of as many records when it has these
records. -/
theorem sendServices_faithful (request : ServiceRequest) {table : ServiceTable} {cm' : List UInt8}
    {kept : List (List UInt8)}
    (compacted : Compacted request.message request.call.records.length kept cm')
    (whole : Whole kept) :
    ∃ sent, sendServices cm' kept.length table = .ok ⟨0, some sent, table⟩ ∧
        ∀ processed : List (List UInt8), processed.length = kept.length →
          (Faithful serviceInfoSize processed sent ↔ processed.flatten = kept.flatten) := by
  have long := request.long_message
  by_cases none : kept = []
  · subst none
    have len := compacted.lenField long
    have long' : 4 ≤ cm'.length := by
      rw [compacted.length]
      exact long
    have inside : leNat (field cm' 2 2) ≤ cm'.length := by
      rw [len, request.lenField, compacted.length, request.length_message]
    obtain ⟨sent, run, size, code, -⟩ := @sendRetval_ok cm' .noentry 0 table long' inside
    refine ⟨sent, run, ?_⟩
    intro processed count
    have empty : processed = [] := List.length_eq_zero_iff.mp count
    subst empty
    have two : 2 ≤ sent.length := by
      rw [size, len, request.lenField, ctrlmsgServiceNumLen, ctrlmsgServiceSize]
      omega
    exact iff_of_true (faithful_nil _ (code two) (by decide)) rfl
  · have fits : ctrlmsgServiceNumLen kept.length < 2 ^ 16 :=
      (ctrlmsgServiceNumLen_mono compacted.few).trans_lt request.fits
    obtain ⟨sent, run, code, len, entries⟩ := @sendServices_kept _ table _ _ _ compacted whole none
        fits
    refine ⟨sent, run, ?_⟩
    intro processed count
    have some : processed ≠ [] := by
      rintro rfl
      exact none (List.length_eq_zero_iff.mp count.symm)
    rw [← count] at len
    exact faithful_iff some code len entries

private theorem delHeader_spec {cm cms : List UInt8} (request : ctrlmsgServiceSize ≤ cm.length)
    (reply : ctrlmsgServiceSize ≤ cms.length) (index : Nat) :
    ∃ cms', delHeader cm cms index = .ok cms' ∧ cms'.length = cms.length ∧
      leNat (field cms' 2 2) = ctrlmsgServiceInfoStatNumLen index % 2 ^ 16 ∧
      cms'.drop ctrlmsgServiceSize = cms.drop ctrlmsgServiceSize := by
  rw [ctrlmsgServiceSize] at request reply ⊢
  have read := @readBytes_of_le cm 4 8 request
  obtain ⟨cms₁, first⟩ : ∃ cms₁, writeBytes cms 0 [4] = .ok cms₁ :=
    ⟨_, writeBytes_of_le (show 0 + 1 ≤ cms.length by omega)⟩
  have length₁ := length_of_writeBytes first
  obtain ⟨cms₂, second⟩ : ∃ cms₂, writeBytes cms₁ 4 ((cm.drop 4).take 8) = .ok cms₂ :=
    ⟨_, writeBytes_of_le (by rw [length_of_readBytes read]; omega)⟩
  have length₂ := length_of_writeBytes second
  obtain ⟨cms₃, third, length₃, len, behind⟩ :=
    @setLen_spec cms₂ (by omega) (ctrlmsgServiceInfoStatNumLen index)
  refine ⟨cms₃, ?_, by omega, len, ?_⟩
  · rw [delHeader, first, ok_bind, read, ok_bind, second, ok_bind, third]
  · rw [behind 12 (by decide), drop_of_writeBytes second (by rw [length_of_readBytes read]),
      drop_of_writeBytes first (by decide)]

private theorem length_delBuffer {num : Nat} {kept : List Removed} (few : kept.length ≤ num)
    (sized : ∀ removed ∈ kept, removed.Sized) :
    (delBuffer num kept).length = ctrlmsgServiceInfoStatNumLen num := by
  rw [delBuffer, List.length_append, List.length_append, List.length_replicate,
    List.length_replicate, length_records sized,
    ← Nat.add_mul, Nat.add_sub_cancel' few, ctrlmsgServiceInfoStatNumLen]

private theorem delReply_sent {cm cms : List UInt8} {num index : Nat} {kept : List Removed}
    {table : ServiceTable} (long : ctrlmsgServiceSize ≤ cm.length)
    (collected : Collected num num kept index cms) :
    ∃ sent, (do
        let cms ← delHeader cm cms kept.length
        sendRetval cms .ok 0 table) = .ok ⟨0, some sent, table⟩ ∧
      (ctrlmsgServiceInfoStatNumLen kept.length < 2 ^ 16 →
        sent[1]? = some CtrlmsgRetval.ok.code ∧
          leNat (field sent 2 2) = ctrlmsgServiceInfoStatNumLen kept.length ∧
          sent.drop ctrlmsgServiceSize = (kept.map removedRecord).flatten) := by
  obtain ⟨-, few, sized, rfl⟩ := collected
  have length := length_delBuffer few sized
  have enough : ctrlmsgServiceInfoStatNumLen kept.length ≤
        ctrlmsgServiceInfoStatNumLen num :=
    Nat.add_le_add_left (Nat.mul_le_mul_right _ few) _
  have large (count : Nat) : ctrlmsgServiceSize ≤ ctrlmsgServiceInfoStatNumLen count :=
    Nat.le_add_right ..
  have header : ctrlmsgServiceSize = 12 := rfl
  obtain ⟨cms', headed, length', len, behind⟩ :=
    delHeader_spec long (length.symm ▸ large num) kept.length
  have inside : leNat (field cms' 2 2) ≤ cms'.length := by
    rw [len, length', length]
    exact (Nat.mod_le ..).trans enough
  obtain ⟨sent, run, size, code, told, same⟩ := @sendRetval_ok cms' .ok 0 table
      (by have := large num; omega) inside
  refine ⟨sent, by rw [headed, ok_bind, run], ?_⟩
  intro fits
  have more := large kept.length
  rw [Nat.mod_eq_of_lt fits] at len
  rw [len] at size same
  refine ⟨code (by omega), (told (by omega)).trans size, ?_⟩
  rw [same _ (by omega), List.drop_take, behind, delBuffer, List.drop_left' (List.length_replicate),
    List.take_left']
  rw [length_records sized, ctrlmsgServiceInfoStatNumLen]
  omega

private theorem delReply_faithful {cm cms : List UInt8} {num index : Nat} {kept : List Removed}
    {table : ServiceTable} (long : ctrlmsgServiceSize ≤ cm.length)
    (collected : Collected num num kept index cms) (some : kept ≠ []) :
    ∃ sent, (do
        let cms ← delHeader cm cms kept.length
        sendRetval cms .ok 0 table) = .ok ⟨0, .some sent, table⟩ ∧
      ∀ processed : List (List UInt8), processed.length = kept.length →
        (Faithful serviceInfoStatSize processed sent ↔
          processed.flatten = (kept.map removedRecord).flatten ∧
            ctrlmsgServiceInfoStatNumLen kept.length < 2 ^ 16) := by
  obtain ⟨sent, run, told⟩ := @delReply_sent _ _ _ _ _ table long collected
  refine ⟨sent, run, ?_⟩
  intro processed count
  have listed : processed ≠ [] := by
    rintro rfl
    exact some (List.length_eq_zero_iff.mp count.symm)
  constructor
  · intro faithful
    have len := faithful.len listed
    have fits : ctrlmsgServiceInfoStatNumLen kept.length < 2 ^ 16 := by
      rw [ctrlmsgServiceInfoStatNumLen, ← count, ← len]
      calc
        leNat (field sent 2 2) < 256 ^ (field sent 2 2).length := leNat_lt _
        _ ≤ 256 ^ 2 := Nat.pow_le_pow_right (by decide) (List.length_take_le ..)
        _ = 2 ^ 16 := by decide
    obtain ⟨-, -, entries⟩ := told fits
    exact ⟨by rw [← faithful.entries listed, entries], fits⟩
  · rintro ⟨same, fits⟩
    obtain ⟨code, len, entries⟩ := told fits
    rw [← count] at len
    exact (faithful_iff listed code len entries).mpr same

private def FirstSame (env : CtrlEnv) (table : ServiceTable)
    (pairs : List (ServiceInfo × ServiceInfo)) : Prop :=
  ∀ pair rest table', pairs = pair :: rest →
    modService env table pair.1.bytes pair.2.bytes = .ok (true, table') →
      pair.1.bytes = pair.2.bytes

/-- The requests that get their reply. -/
def Reportable (env : CtrlEnv) (table : ServiceTable) : ServiceCall → Prop
  | .add entries => ∃ added, collect (addGives env) table entries = .ok added
  | .del entries =>
    ∃ removed, removes env table entries = .ok removed ∧
      (removed = [] ∨
        ¬ FirstRemoved table entries ∧ (∀ rule ∈ removed, DroppedAlike rule.2) ∧
          ctrlmsgServiceInfoStatNumLen removed.length < 2 ^ 16)
  | .mod pairs =>
    pairs ≠ [] ∧ (∃ modified, collect (modGives env) table pairs = .ok modified) ∧
      FirstSame env table pairs

theorem ctrlRecvmsg_message (env : CtrlEnv) (table : ServiceTable) (request : ServiceRequest) :
    ctrlRecvmsg env table request.message =
      match request.call with
      | .add _ => ctrlHandleAddServiceMsg env table request.message
      | .del _ => ctrlHandleDelServiceMsg env table request.message
      | .mod _ => ctrlHandleModServiceMsg env table request.message := by
  have first : readByte request.message 0 = .ok request.call.code := rfl
  rw [ctrlRecvmsg, first, ok_bind]
  cases request.call <;> rfl

section

variable {env : CtrlEnv} {table : ServiceTable} {request : ServiceRequest}

variable {table' : ServiceTable}

private theorem replies_iff_of_run {ret : Int} {sent : List UInt8} {processed : List (List UInt8)}
    (run : ctrlRecvmsg env table request.message = .ok ⟨ret, some sent, table'⟩)
    (given : request.call.processed env table = .ok processed) :
    Replies env table request ↔ Faithful request.call.recordSize processed sent := by
  constructor
  · rintro ⟨done, reply, listed, run', sent', given', faithful⟩
    cases run.symm.trans run'
    cases sent'
    cases given.symm.trans given'
    exact faithful
  · intro faithful
    exact ⟨_, sent, processed, run, rfl, given, faithful⟩

variable {entries : List ServiceInfo} {kept : List Removed}

private theorem replies_add_iff (asks : request.call = .add entries) :
    Replies env table request ↔ Reportable env table (.add entries) := by
  have loop := @addLoop_agrees env table request.message request.call.records.length
  rw [request.numbered_message, asks] at loop
  rw [show (ServiceCall.add entries).records = entries from rfl] at loop
  have handled : ctrlRecvmsg env table request.message =
        countLoop (addBody env) entries.length 0 0 (request.message, table) >>= fun result =>
          sendServices result.2.1 result.1 result.2.2 := by
    rw [ctrlRecvmsg_message]
    rw [ctrlHandleAddServiceMsg, request.readLen_message, ok_bind, request.num_eq, asks]
    rfl
  constructor
  · rintro ⟨done, reply, processed, -, -, given, -⟩
    rw [asks] at given
    obtain ⟨added, collected, -⟩ := of_bind given
    exact ⟨added, collected⟩
  · rintro ⟨⟨added, table'⟩, collected⟩
    have walk := @addAct_agrees env table entries 0 0
    rw [collected] at walk
    obtain ⟨⟨added, s⟩, walked, rfl, whole⟩ := walk.ok_right
    rw [walked] at loop
    obtain ⟨⟨index, cm', table''⟩, looped, rfl, compacted, same⟩ := loop.ok_left
    obtain ⟨sent, run, faithful⟩ := @sendServices_faithful request table'' cm' added
        (by rw [asks]; exact compacted) whole
    have processed : request.call.processed env table = .ok added := by
      rw [asks, ServiceCall.processed, collected]
      rfl
    rw [looped] at handled
    rw [replies_iff_of_run (handled.trans run) processed, asks]
    exact (faithful added rfl).mpr rfl

private theorem collect_modGives_cons (pair : ServiceInfo × ServiceInfo)
    (rest : List (ServiceInfo × ServiceInfo)) :
    collect (modGives env) table (pair :: rest) = (do
      let (modified, table) ← modService env table pair.1.bytes pair.2.bytes
      let (others, table) ← collect (modGives env) table rest
      .ok ((if modified then some pair.2.bytes else none).toList ++ others, table)) := by
  rw [collect, modGives, bind_assoc]
  rfl

private theorem ctrlRecvmsg_mod {pairs : List (ServiceInfo × ServiceInfo)}
    (asks : request.call = .mod pairs) (some : pairs ≠ []) :
    ctrlRecvmsg env table request.message = (do
      let (index, (cm, table)) ← countLoop (modBody env) pairs.length 0 0 (request.message, table)
      sendServices cm index table) := by
  have positive : 0 < pairs.length := List.length_pos_iff.mpr some
  rw [ctrlRecvmsg_message]
  rw [ctrlHandleModServiceMsg, request.readLen_message, ok_bind, request.num_eq, asks,
    length_records_mod]
  rw [if_neg (by omega), Nat.mul_div_cancel_left _ (by decide)]

theorem not_replies_mod_nil (asks : request.call = .mod []) : ¬ Replies env table request := by
  rintro ⟨done, reply, processed, run, sent, -⟩
  rw [ctrlRecvmsg_message] at run
  rw [ctrlHandleModServiceMsg, request.readLen_message, asks] at run
  cases run
  cases sent

/-- The reply to a modification has the first record of the first pair. -/
theorem replies_mod_cons {pair : ServiceInfo × ServiceInfo}
    {rest : List (ServiceInfo × ServiceInfo)} {modified : Bool}
    {table₁ table₂ : ServiceTable} {others : List (List UInt8)}
    (asks : request.call = .mod (pair :: rest))
    (first : modService env table pair.1.bytes pair.2.bytes = .ok (modified, table₁))
    (later : collect (modGives env) table₁ rest = .ok (others, table₂)) :
    Replies env table request ↔ (modified = true → pair.1.bytes = pair.2.bytes) := by
  have handled := @ctrlRecvmsg_mod env table request _ asks (List.cons_ne_nil _ _)
  have loop := @modLoop_agrees env table request.message (pair :: rest).length
  -- Of the first pair the old record is given back.
  have act : modAct env table (0, pair.1.bytes, pair.2.bytes) =
      .ok (if modified then some pair.1.bytes else none, table₁) := by
    rw [modAct, first]
    cases modified <;> rfl
  rw [request.paired_message asks, List.zipIdx_cons, List.map_cons, collect, act, ok_bind] at loop
  dsimp only at loop
  rw [collect_modAct rest (Nat.succ_ne_zero 0), later] at loop
  obtain ⟨⟨index, cm', table'⟩, looped, rfl, compacted, whole, same⟩ := loop.ok_left
  obtain ⟨sent, run, faithful⟩ := @sendServices_faithful request table' cm' _
      (by rw [asks, length_records_mod]; exact compacted) whole
  rw [looped] at handled
  have processed : request.call.processed env table =
        .ok ((if modified then some pair.2.bytes else none).toList ++ others) := by
    rw [asks, ServiceCall.processed, collect_modGives_cons, first, ok_bind]
    dsimp only
    rw [later]
    rfl
  rw [replies_iff_of_run (handled.trans run) processed, asks, ServiceCall.recordSize,
    faithful _ (by cases modified <;> rfl)]
  cases modified with
  | false => simp
  | true => simp [eq_comm]

/-- A modification is reported faithfully unless the first pair goes through
and its records differ. -/
theorem replies_mod_iff {pairs : List (ServiceInfo × ServiceInfo)}
    (asks : request.call = .mod pairs) :
    Replies env table request ↔ Reportable env table (.mod pairs) := by
  cases pairs with
  | nil =>
    exact iff_of_false (not_replies_mod_nil asks) fun well => well.1 rfl
  | cons pair rest =>
    rw [Reportable, and_iff_right (List.cons_ne_nil pair rest)]
    constructor
    · intro replies
      obtain ⟨done, reply, processed, -, -, given, -⟩ := id replies
      rw [asks] at given
      obtain ⟨modified, collected, -⟩ := of_bind given
      refine ⟨⟨modified, collected⟩, ?_⟩
      rw [collect_modGives_cons] at collected
      obtain ⟨⟨done, table₁⟩, first, collected⟩ := of_bind collected
      obtain ⟨⟨others, table₂⟩, later, -⟩ := of_bind collected
      rintro pair' rest' table' same modified'
      cases same
      cases first.symm.trans modified'
      exact (replies_mod_cons asks first later).mp replies rfl
    · rintro ⟨⟨modified, collected⟩, same⟩
      rw [collect_modGives_cons] at collected
      obtain ⟨⟨done, table₁⟩, first, collected⟩ := of_bind collected
      obtain ⟨⟨others, table₂⟩, later, -⟩ := of_bind collected
      refine (replies_mod_cons asks first later).mpr ?_
      rintro rfl
      exact same pair rest table₁ rfl first

private theorem sendRetval_message (request : ServiceRequest) {retval : CtrlmsgRetval} {ret : Int}
    {table : ServiceTable} :
    ∃ sent, sendRetval request.message retval ret table = .ok ⟨ret, some sent, table⟩ ∧
      sent[1]? = some retval.code := by
  obtain ⟨sent, run, size, code, -⟩ :=
    @sendRetval_ok request.message retval ret table request.long_message
      (by rw [request.lenField, request.length_message])
  refine ⟨sent, run, code ?_⟩
  rw [size, request.lenField, ctrlmsgServiceNumLen, ctrlmsgServiceSize]
  omega

private theorem records_faithful_iff {s : Nat × ServiceTable}
    (sizes : ∀ removed ∈ kept, removed.entry.length = serviceInfoSize)
    (run : delRounds table entries = .ok (kept, s)) :
    ((kept.map Removed.plain).map statRecord).flatten = (kept.map removedRecord).flatten ↔
      ¬ FirstRemoved table entries ∧
        ∀ removed ∈ kept, DroppedAlike removed.stats := by
  have pieces := @flatten_map_eq_iff _ (statRecord ∘ Removed.plain) removedRecord kept _
      (fun removed member => length_statRecord (sizes removed member))
      (fun removed member => Removed.Sized.length fun _ =>
        sizes removed member)
  rw [List.map_map, pieces]
  constructor
  · intro same
    have failed : ¬ FirstRemoved table entries := by
      intro first
      obtain ⟨removed, member, blank, some⟩ := first_not_copied first run
      have here := same removed member
      rw [removedRecord, blank] at here
      exact some (List.append_inj_left here
        (by rw [List.length_replicate]; exact sizes removed member))
    refine ⟨failed, ?_⟩
    intro removed member
    have copied := copied_of_not_first failed run removed member
    exact (removedRecord_copied copied).mp (same removed member).symm
  · rintro ⟨failed, alike⟩ removed member
    have copied := copied_of_not_first failed run removed member
    exact ((removedRecord_copied copied).mpr (alike removed member)).symm

private theorem ctrlRecvmsg_del (asks : request.call = .del entries) (memory : env.alloc = true)
    {index : Nat} (walked : delRounds table entries = .ok (kept, index, table')) :
    ∃ cms, ctrlRecvmsg env table request.message = (
        if kept.length = 0 then
          sendRetval request.message .noentry 0 table'
        else do
          let cms ← delHeader request.message cms kept.length
          sendRetval cms .ok 0 table') ∧
      Collected entries.length entries.length kept index cms := by
  have loop := delLoop_agrees request.message entries.length table
  have numbers := request.numbered_message
  rw [asks, show (ServiceCall.del entries).records = entries from rfl]
    at numbers
  rw [numbers, ← delRounds, walked] at loop
  obtain ⟨⟨count, cms, table₁⟩, looped, same, buffer, kept'⟩ := loop.ok_left
  dsimp only at same buffer kept'
  subst same kept'
  refine ⟨cms, ?_, buffer⟩
  rw [ctrlRecvmsg_message]
  rw [ctrlHandleDelServiceMsg, request.readLen_message, ok_bind, request.num_eq, asks,
    show (ServiceCall.del entries).records = entries from rfl]
  dsimp only
  rw [if_neg (by simp [memory]), looped, ok_bind]

private theorem replies_del_walked (asks : request.call = .del entries)
    (memory : env.alloc = true) {index : Nat} {table₁ : ServiceTable}
    (walked : delRounds table entries = .ok (kept, index, table'))
    (collected : collect delGives table entries = .ok (kept.map Removed.plain, table₁)) :
    Replies env table request ↔
      kept = [] ∨
        ¬ FirstRemoved table entries ∧ (∀ removed ∈ kept, DroppedAlike removed.stats) ∧
          ctrlmsgServiceInfoStatNumLen kept.length < 2 ^ 16 := by
  obtain ⟨cms, handled, buffer⟩ := ctrlRecvmsg_del asks memory walked
  have processed : request.call.processed env table =
        .ok ((kept.map Removed.plain).map statRecord) := by
    rw [asks, ServiceCall.processed, removes, if_pos memory, collected]
    rfl
  by_cases none : kept = []
  · subst none
    obtain ⟨sent, run, code⟩ := @sendRetval_message request .noentry 0 table'
    rw [replies_iff_of_run (handled.trans run) processed]
    exact iff_of_true (faithful_nil _ code (by decide)) (.inl rfl)
  have long : ctrlmsgServiceSize ≤ request.message.length := by
    rw [request.length_message]
    exact Nat.le_add_right ..
  obtain ⟨sent, run, faithful⟩ := @delReply_faithful _ _ _ _ _ table' long buffer none
  have sizes : ∀ removed ∈ kept, removed.entry.length = serviceInfoSize := fun removed member =>
      size_of_delGives collected _ (List.mem_map_of_mem member)
  rw [if_neg (by rwa [List.length_eq_zero_iff])] at handled
  rw [replies_iff_of_run (handled.trans run) processed, asks, ServiceCall.recordSize,
    faithful _ (by simp),
    records_faithful_iff sizes walked, and_assoc, or_iff_right none]

/-- A removal is reported faithfully when nothing is removed, or when the
first rule is not, the counters of dropped packets and bytes are alike, and
the reply is short enough. -/
theorem replies_del_iff {entries : List ServiceInfo} (asks : request.call = .del entries) :
    Replies env table request ↔ Reportable env table (.del entries) := by
  rw [Reportable]
  by_cases memory : env.alloc = true
  · have given : removes env table entries = (do
          let (removed, _) ← collect delGives table entries
          .ok removed) :=
      if_pos memory
    have walk := @delAct_agrees table entries 0 0
    rw [← delRounds] at walk
    cases walked : delRounds table entries with
    | error fault =>
      rw [walked] at walk
      rw [walk.error_left] at given
      refine iff_of_false ?_ ?_
      · rintro ⟨done, reply, processed, -, -, told, -⟩
        rw [asks, ServiceCall.processed, given] at told
        cases told
      · rintro ⟨removed, told, -⟩
        cases given.symm.trans told
    | ok result =>
      rw [walked] at walk
      obtain ⟨⟨removed, table₁⟩, collected, rfl, -⟩ := walk.ok_left
      rw [collected, ok_bind] at given
      rw [replies_del_walked asks memory walked collected, given]
      simp only [Except.ok.injEq, exists_eq_left', List.map_eq_nil_iff, List.forall_mem_map,
        List.length_map, Removed.plain]
  · have none : removes env table entries = .ok [] := if_neg memory
    obtain ⟨sent, run, code⟩ := @sendRetval_message request .error (-ENOMEM) table
    have handled : ctrlRecvmsg env table request.message =
          sendRetval request.message .error (-ENOMEM) table := by
      rw [ctrlRecvmsg_message, asks]
      rw [ctrlHandleDelServiceMsg, request.readLen_message, ok_bind, if_pos (by simp [memory])]
    have processed : request.call.processed env table = .ok [] := by
      rw [asks, ServiceCall.processed, none]
      rfl
    rw [replies_iff_of_run (handled.trans run) processed]
    refine iff_of_true (faithful_nil _ code (by decide)) ?_
    exact ⟨[], none, .inl rfl⟩

/-- Just these calls are reported faithfully. -/
theorem replies_iff_reportable (env : CtrlEnv) (table : ServiceTable) (request : ServiceRequest) :
    Replies env table request ↔ Reportable env table request.call := by
  cases asks : request.call with
  | add entries => exact replies_add_iff asks
  | del entries => exact replies_del_iff asks
  | mod pairs => exact replies_mod_iff asks

end

/-! ## A reply that has lost its service -/

def plainCtrl : CtrlEnv where
  resolveDevImpl := some fun _ _ => some (1, "eth0")
  printk := false
  alloc := true

def forwardInfo (address : UInt8) : ServiceInfo where
  bytes := [1, 0, 8, 0] ++ List.replicate 28 0 ++ [10, 0, 0, address] ++
    7 :: List.replicate 31 0 ++ List.replicate 5 0
  size := rfl

private theorem length_noXids : (List.replicate 8 (0 : UInt8)).length = 8 := List.length_replicate

private def smallRequest (call : ServiceCall) (few : call.records.length ≤ 2) : ServiceRequest where
  call := call
  retval := 0
  xids := List.replicate 8 0
  xidsSize := length_noXids
  fits := by
    rw [ctrlmsgServiceNumLen, ctrlmsgServiceSize, serviceInfoSize]
    omega

def twoRules : ServiceRequest := smallRequest (.add [forwardInfo 1, forwardInfo 2]) (by decide)

def oneRemoval : ServiceRequest := smallRequest (.del [forwardInfo 1]) (by decide)

/-- A rule is added and removed; the reply has zeros for its service. -/
theorem oneRemoval_blank : ∃ added removed reply,
      ctrlRecvmsg plainCtrl serviceTableInit twoRules.message = .ok added ∧
        ctrlRecvmsg plainCtrl added.table oneRemoval.message = .ok removed ∧
        removed.sent = some reply ∧ reply[1]? = some CtrlmsgRetval.ok.code ∧
        field reply ctrlmsgServiceSize serviceInfoSize = List.replicate serviceInfoSize 0 ∧
        ¬ Replies plainCtrl added.table oneRemoval := by
  obtain ⟨added, adds, passed⟩ := @exists_of_leaves _
      (ctrlRecvmsg plainCtrl serviceTableInit twoRules.message)
      (fun added =>
        leaves (delService added.table (forwardInfo 1).bytes)
          (fun result => result.1.isSome) &&
        leaves (ctrlRecvmsg plainCtrl added.table oneRemoval.message)
          (fun removed => removed.sent.any fun reply =>
            reply[1]? = some CtrlmsgRetval.ok.code &&
            field reply ctrlmsgServiceSize serviceInfoSize = List.replicate serviceInfoSize 0))
      (by decide +kernel)
  simp only [Bool.and_eq_true] at passed
  obtain ⟨deletes, replied⟩ := passed
  obtain ⟨⟨stats, table'⟩, deleted, some⟩ := exists_of_leaves deletes
  obtain ⟨stats, rfl⟩ := Option.isSome_iff_exists.mp some
  obtain ⟨removed, ran, sent⟩ := exists_of_leaves replied
  cases given : removed.sent with
  | none =>
    rw [given] at sent
    cases sent
  | some reply =>
    rw [given] at sent
    simp only [Option.any_some, Bool.and_eq_true, decide_eq_true_eq] at sent
    obtain ⟨code, blank⟩ := sent
    refine ⟨added, removed, reply, adds, ran, given, code, blank, ?_⟩
    rw [@replies_del_iff plainCtrl added.table oneRemoval _ rfl]
    rintro ⟨rules, gives, rfl | ⟨failed, -⟩⟩
    · have listed : removes plainCtrl added.table [forwardInfo 1] =
            .ok [((forwardInfo 1).bytes, stats)] := by
        rw [removes, collect, delGives, deleted]
        rfl
      cases listed.symm.trans gives
    · exact failed ⟨_, _, stats, table', rfl, deleted⟩

end Serval
