import Serval.Support.Run

/-!
# Messages of a client

`client_msg_read` of `userlevel/client_msg.c`, which reads one message from a
stream socket with one `recv` for the header and one for the payload. The
numbers of a message have the byte order of the host, the lowest byte first.
-/

namespace Serval

open Serval.Support

/-- The table `client_msg_lengths`, in the order of the message types. -/
def clientMsgLengths : List Nat :=
  [ 4, 38, 37, -- MSG_UNKNOWN, MSG_BIND_REQ, MSG_BIND_RSP
    39, 37, 39, 5, -- MSG_CONNECT_REQ to MSG_LISTEN_RSP
    5, 73, 41, 5, -- MSG_ACCEPT_REQ to MSG_ACCEPT2_RSP
    47, 5, 10, 47, -- MSG_SEND_REQ to MSG_RECV_RSP
    4, 5, -- MSG_CLOSE_REQ, MSG_CLOSE_RSP
    4, 4, 4 ] -- MSG_RECVMESG, MSG_CLEAR_DATA, MSG_HAVE_DATA

/-- `struct client_msg`; the length of the payload is `payload_length`. -/
structure ClientMsg where
  version : UInt8
  type : UInt8
  payload : List UInt8
  deriving DecidableEq, Repr

abbrev Stream := List (List UInt8)

/-- A call of `recv` takes at most `size` bytes of one piece. -/
def recv (size : Nat) : Stream → List UInt8 × Stream
  | [] => ([], [])
  | chunk :: rest =>
    if chunk.length ≤ size then (chunk, rest)
    else (chunk.take size, chunk.drop size :: rest)

inductive ClientRead where
  | error
  | closed
  | message (msg : ClientMsg)
  deriving DecidableEq, Repr

def clientMsgLength (type : UInt8) : Except Fault Nat :=
  match clientMsgLengths[type.toNat]? with
  | some length => .ok length
  | none => .error .bounds

/-- Whether there is memory, and whether a `recv` returns -1. -/
structure ReadAnswers where
  malloc : Bool := true
  realloc : Bool := true
  headerFails : Bool := false
  payloadFails : Bool := false

def clientMsgRead (answers : ReadAnswers) (stream : Stream) :
    Except Fault (ClientRead × Stream) := do
  if !answers.malloc || answers.headerFails then
    return (.error, stream)
  let (header, stream) := recv 4 stream
  match header with
  | [] => return (.closed, stream)
  | [version, type, low, high] => do
    let payloadLength := low.toNat + 256 * high.toNat
    let least ← clientMsgLength type
    if payloadLength + 4 < least then
      return (.error, stream)
    if payloadLength = 0 then
      return (.message ⟨version, type, []⟩, stream)
    if !answers.realloc || answers.payloadFails then
      return (.error, stream)
    let (payload, stream) := recv payloadLength stream
    if payload.length < payloadLength then
      return (.error, stream)
    return (.message ⟨version, type, payload⟩, stream)
  | _ => return (.error, stream)

def clientMsgReads : Nat → Stream → Except Fault (List ClientRead)
  | 0, _ => .ok []
  | n + 1, stream => do
    let (result, stream) ← clientMsgRead {} stream
    let results ← clientMsgReads n stream
    .ok (result :: results)

/-- A header that arrives at once has a type of the table. -/
def TypeKnown (stream : Stream) : Prop :=
  ∀ version type low high rest chunks,
    stream = (version :: type :: low :: high :: rest) :: chunks → type.toNat < 20

/-- The same in front of each of `count` calls. -/
def TypesKnown : Nat → Stream → Prop
  | 0, _ => True
  | count + 1, stream =>
    TypeKnown stream ∧ ∀ result stream', clientMsgRead {} stream = .ok (result, stream') →
      TypesKnown count stream'

/-! ## Well-formed messages -/

structure ClientMsg.WellFormed (msg : ClientMsg) : Prop where
  short : msg.payload.length < 65536
  known :
    ∃ length, clientMsgLengths[msg.type.toNat]? = some length ∧ length ≤ msg.payload.length + 4

def ClientMsg.header (msg : ClientMsg) : List UInt8 :=
  [msg.version, msg.type, UInt8.ofNat (msg.payload.length % 256),
    UInt8.ofNat (msg.payload.length / 256)]

def ClientMsg.parts (msg : ClientMsg) : List (List UInt8) :=
  if msg.payload = [] then [msg.header] else [msg.header, msg.payload]

inductive WholeParts : Stream → List (List UInt8) → Prop where
  | nil : WholeParts [] []
  | last {part : List UInt8} {chunks : Stream} {parts : List (List UInt8)}
      (rest : WholeParts chunks parts) :
      WholeParts (part :: chunks) (part :: parts)
  | more {part chunk : List UInt8} {chunks : Stream} {parts : List (List UInt8)} (some : chunk ≠ [])
      (rest : WholeParts (chunk :: chunks) parts) :
      WholeParts ((part ++ chunk) :: chunks) (part :: parts)

section

variable {stream stream' : Stream} {part data : List UInt8} {size : Nat}
  {parts : List (List UInt8)} {msg : ClientMsg}

private theorem recv_spec (run : recv size stream = (data, stream')) :
    data.length ≤ size ∧ stream.flatten = data ++ stream'.flatten ∧
      ([] ∉ stream → [] ∉ stream') := by
  cases stream with
  | nil =>
    cases run
    exact ⟨size.zero_le, rfl, id⟩
  | cons chunk rest =>
    rw [recv] at run
    split_ifs at run with short
    · cases run
      exact ⟨short, rfl, fun nonempty member =>
        nonempty (List.mem_cons_of_mem _ member)⟩
    cases run
    refine ⟨List.length_take_le size chunk, ?_, ?_⟩
    · rw [List.flatten_cons, List.flatten_cons, ← List.append_assoc, List.take_append_drop]
    · intro nonempty member
      rcases List.mem_cons.mp member with none | member
      · exact short (List.drop_eq_nil_iff.mp none.symm)
      · exact nonempty (List.mem_cons_of_mem chunk member)

/-- A part is received at once exactly if the first piece goes on to its
end. -/
theorem wholeParts_cons_iff (some : part ≠ []) : WholeParts stream (part :: parts) ↔
      ∃ stream', recv part.length stream = (part, stream') ∧ WholeParts stream' parts := by
  constructor
  · intro whole
    cases whole with
    | last rest => exact ⟨_, by rw [recv, if_pos (Nat.le_refl _)], rest⟩
    | more more rest =>
      refine ⟨_, ?_, rest⟩
      rw [recv, if_neg, List.take_left, List.drop_left]
      rw [List.length_append]
      have := List.length_pos_iff.mpr more
      omega
  · rintro ⟨stream', run, rest⟩
    cases stream with
    | nil =>
      cases run
      exact absurd rfl some
    | cons chunk chunks =>
      rw [recv] at run
      split_ifs at run with short
      · cases run
        exact .last rest
      obtain ⟨taken, rfl⟩ := Prod.mk.inj run
      have split := List.take_append_drop part.length chunk
      rw [taken] at split
      rw [← split]
      refine .more ?_ rest
      intro none
      exact short (List.drop_eq_nil_iff.mp none)

private theorem payloadLength_eq (formed : msg.WellFormed) :
    (UInt8.ofNat (msg.payload.length % 256)).toNat +
        256 * (UInt8.ofNat (msg.payload.length / 256)).toNat =
      msg.payload.length := by
  have := formed.short
  simp only [UInt8.toNat_ofNat']
  omega

private theorem header_of_length (version type : UInt8) {low high : UInt8} {payload : List UInt8}
    (length : payload.length = low.toNat + 256 * high.toNat) :
    (ClientMsg.mk version type payload).header = [version, type, low, high] := by
  have := low.toNat_lt
  have first : (low.toNat + 256 * high.toNat) % 256 = low.toNat := by omega
  have second : (low.toNat + 256 * high.toNat) / 256 = high.toNat := by omega
  simp only [ClientMsg.header, length, first, second, UInt8.ofNat_toNat]

/-- A message is read exactly if each of its parts is received at once. -/
theorem clientMsgRead_message_iff (formed : msg.WellFormed) :
    clientMsgRead {} stream = .ok (.message msg, stream') ↔
      ∃ middle, recv 4 stream = (msg.header, middle) ∧
        if msg.payload = [] then stream' = middle
        else recv msg.payload.length middle = (msg.payload, stream') := by
  constructor
  · intro run
    rw [clientMsgRead] at run
    rcases received : recv 4 stream with ⟨header, middle⟩
    rw [received] at run
    simp only [Bool.not_true, Bool.or_self, Bool.false_eq_true, if_false] at run
    split at run
    · cases run
    · rename_i version type low high
      obtain ⟨least, -, run⟩ := of_bind run
      split_ifs at run with few none cut
      · cases run
      · cases run
        refine ⟨_, ?_, by rw [if_pos rfl]⟩
        rw [@header_of_length version type low high [] none.symm]
      · cases run
      rcases payload : recv (low.toNat + 256 * high.toNat) middle with
        ⟨data, rest⟩
      rw [payload] at run cut
      cases run
      have length : data.length = low.toNat + 256 * high.toNat :=
        Nat.le_antisymm (recv_spec payload).1 (Nat.not_lt.mp cut)
      refine ⟨middle, by rw [header_of_length version type length], ?_⟩
      rw [if_neg (by rintro rfl; exact none length.symm)]
      exact length ▸ payload
    · cases run
  · rintro ⟨middle, header, payload⟩
    obtain ⟨least, known, enough⟩ := formed.known
    simp only [clientMsgRead, header, ClientMsg.header, payloadLength_eq formed, clientMsgLength,
      known, Bool.not_true, Bool.or_self, Bool.false_eq_true, if_false,
      ok_bind, if_neg (Nat.not_lt.mpr enough), List.length_eq_zero_iff]
    split_ifs at payload ⊢ with none cut
    · rw [payload, ← none]
      rfl
    · rw [payload] at cut
      exact absurd cut (Nat.lt_irrefl _)
    · rw [payload]
      rfl

theorem wholeParts_message_iff (formed : msg.WellFormed) : WholeParts stream (msg.parts ++ parts) ↔
      ∃ stream', clientMsgRead {} stream = .ok (.message msg, stream') ∧
        WholeParts stream' parts := by
  have size : msg.header.length = 4 := rfl
  have some : msg.header ≠ [] := List.cons_ne_nil _ _
  simp only [clientMsgRead_message_iff formed, ClientMsg.parts]
  split_ifs with none
  · rw [List.singleton_append, wholeParts_cons_iff some, size]
    simp
  rw [List.cons_append, wholeParts_cons_iff some]
  simp only [List.singleton_append, wholeParts_cons_iff none]
  constructor
  · rintro ⟨middle, header, stream', payload, rest⟩
    exact ⟨stream', ⟨middle, header, payload⟩, rest⟩
  · rintro ⟨stream', ⟨middle, header, payload⟩, rest⟩
    exact ⟨middle, header, stream', payload, rest⟩

private theorem clientMsgRead_rest (formed : msg.WellFormed) (nonempty : [] ∉ stream)
    (run : clientMsgRead {} stream = .ok (.message msg, stream')) :
    [] ∉ stream' ∧ stream.flatten = msg.parts.flatten ++ stream'.flatten := by
  obtain ⟨middle, header, payload⟩ := (clientMsgRead_message_iff formed).mp run
  obtain ⟨-, bytes, keeps⟩ := recv_spec header
  rw [ClientMsg.parts, bytes]
  split_ifs at payload ⊢ with none
  · subst payload
    exact ⟨keeps nonempty, by simp⟩
  · obtain ⟨-, bytes, keeps'⟩ := recv_spec payload
    rw [bytes]
    exact ⟨keeps' (keeps nonempty), by simp⟩

/-- In a run the calls return the messages exactly if no piece ends inside a
part of one of them. -/
theorem clientMsgReads_iff {messages : List ClientMsg} (formed : ∀ msg ∈ messages, msg.WellFormed)
    (nonempty : [] ∉ stream)
    (bytes : stream.flatten = (messages.flatMap ClientMsg.parts).flatten) :
    clientMsgReads messages.length stream = .ok (messages.map ClientRead.message) ↔
      WholeParts stream (messages.flatMap ClientMsg.parts) := by
  induction messages generalizing stream with
  | nil =>
    have empty : stream = [] := by
      cases stream with
      | nil => rfl
      | cons chunk rest =>
        have first : chunk = [] := (List.append_eq_nil_iff.mp bytes).1
        exact absurd (first ▸ List.mem_cons_self) nonempty
    rw [empty]
    exact ⟨fun _ => .nil, fun _ => rfl⟩
  | cons msg messages ih =>
    have first := formed msg List.mem_cons_self
    rw [List.flatMap_cons, wholeParts_message_iff first]
    have inner {stream'} (run : clientMsgRead {} stream = .ok (.message msg, stream')) := by
      obtain ⟨nonempty', rest⟩ := clientMsgRead_rest first nonempty run
      rw [bytes, List.flatMap_cons, List.flatten_append] at rest
      exact @ih stream' (fun msg member => formed msg (.tail _ member))
        nonempty' (List.append_cancel_left rest).symm
    constructor
    · intro runs
      obtain ⟨⟨result, stream'⟩, run, runs⟩ := of_bind runs
      obtain ⟨results, runs, same⟩ := of_bind runs
      cases same
      exact ⟨stream', run, (inner run).mp runs⟩
    · rintro ⟨stream', run, rest⟩
      rw [List.length_cons, clientMsgReads, run, ok_bind]
      dsimp only
      rw [(inner run).mpr rest]
      rfl

private theorem clientMsgLength_bounds_iff (type : UInt8) :
    clientMsgLength type = .error .bounds ↔ 20 ≤ type.toNat := by
  have size : clientMsgLengths.length = 20 := rfl
  rw [clientMsgLength, ← size, ← List.getElem?_eq_none_iff]
  cases clientMsgLengths[type.toNat]? with
  | none | some length => simp

private theorem recv_header (version type low high : UInt8) (rest : List UInt8) (chunks : Stream) :
    (recv 4 ((version :: type :: low :: high :: rest) :: chunks)).1 =
      [version, type, low, high] := by
  rw [recv]
  split_ifs with short
  · simp only [List.length_cons] at short
    have none : rest = [] := List.eq_nil_of_length_eq_zero (by omega)
    rw [none]
  · rfl

/-- The table is left exactly for a type that it does not have, in a header
that arrives at once. -/
theorem clientMsgRead_bounds_iff : clientMsgRead {} stream = .error .bounds ↔
      ∃ version type low high rest chunks,
        stream = (version :: type :: low :: high :: rest) :: chunks ∧ 20 ≤ type.toNat := by
  match stream with
  | [] => simp [clientMsgRead, recv, pure_eq_ok]
  | [] :: _ => simp [clientMsgRead, recv, pure_eq_ok]
  | [_] :: _ => simp [clientMsgRead, recv, pure_eq_ok]
  | [_, _] :: _ => simp [clientMsgRead, recv, pure_eq_ok]
  | [_, _, _] :: _ => simp [clientMsgRead, recv, pure_eq_ok]
  | (version :: type :: low :: high :: rest) :: chunks =>
    have unknown : clientMsgRead {} ((version :: type :: low :: high :: rest) :: chunks) =
            .error .bounds ↔ clientMsgLength type = .error .bounds := by
      simp only [clientMsgRead, recv_header]
      cases clientMsgLength type with
      | error fault => simp [error_bind]
      | ok least =>
        simp only [ok_bind, Bool.not_true, Bool.or_self, Bool.false_eq_true, if_false]
        split_ifs <;> simp [pure_eq_ok]
    rw [unknown, clientMsgLength_bounds_iff]
    constructor
    · exact fun large => ⟨_, _, _, _, _, _, rfl, large⟩
    · rintro ⟨_, _, _, _, _, _, same, large⟩
      cases same
      exact large

private theorem clientMsgRead_inTable_iff :
    clientMsgRead {} stream ≠ .error .bounds ↔ TypeKnown stream := by
  rw [ne_eq, clientMsgRead_bounds_iff, TypeKnown]
  simp only [not_exists, not_and, Nat.not_le]

private theorem clientMsgReads_inTable_iff (count : Nat) (stream : Stream) :
    clientMsgReads count stream ≠ .error .bounds ↔ TypesKnown count stream := by
  induction count generalizing stream with
  | zero => simp [clientMsgReads, TypesKnown]
  | succ count ih =>
    rw [TypesKnown, ← clientMsgRead_inTable_iff, clientMsgReads]
    cases clientMsgRead {} stream with
    | error fault => simp [error_bind]
    | ok read =>
      have later := ih read.2
      rw [ok_bind]
      cases rest : clientMsgReads count read.2 with
      | error fault =>
        rw [rest] at later
        simp only [rest, error_bind, later, ne_eq, reduceCtorEq, not_false_eq_true, true_and,
          Except.ok.injEq]
        refine ⟨?_, fun known => known _ _ rfl⟩
        rintro known result stream' rfl
        exact known
      | ok results =>
        rw [rest] at later
        simp only [rest, ok_bind, ne_eq, reduceCtorEq, not_false_eq_true, true_and, true_iff,
          Except.ok.injEq]
        rintro result stream' rfl
        exact later.mp (by simp)

/-- The messages are read as they were written exactly if no piece of the
stream ends inside a header or a payload, and the table of lengths is left
exactly when a call comes to a whole header with an unknown type. -/
theorem clientMsgReads_segmentation_iff
    {messages : List ClientMsg} (formed : ∀ msg ∈ messages, msg.WellFormed)
    (nonempty : [] ∉ stream)
    (bytes : stream.flatten = (messages.flatMap ClientMsg.parts).flatten)
    (count : Nat) (any : Stream) :
    (clientMsgReads messages.length stream = .ok (messages.map ClientRead.message) ↔
      WholeParts stream (messages.flatMap ClientMsg.parts)) ∧
    (clientMsgReads count any ≠ .error .bounds ↔ TypesKnown count any) :=
  ⟨clientMsgReads_iff formed nonempty bytes, clientMsgReads_inTable_iff count any⟩

end

/-- Two answers of one byte each; the header of the second arrives with the
byte of the first. -/
theorem clientMsgReads_answers :
    clientMsgReads 2 [[1, 6, 1, 0], [9, 1, 16, 1, 0], [0]] =
        .ok [.message ⟨1, 6, [9]⟩, .message ⟨1, 16, [0]⟩] ∧
      TypesKnown 2 [[1, 6, 1, 0], [9, 1, 16, 1, 0], [0]] := by
  have formed : ∀ msg ∈ [ClientMsg.mk 1 6 [9], ⟨1, 16, [0]⟩], msg.WellFormed := by
    intro msg member
    rcases List.mem_pair.mp member with rfl | rfl
    · exact ⟨by decide, 5, rfl, by decide⟩
    · exact ⟨by decide, 5, rfl, by decide⟩
  have both := @clientMsgReads_segmentation_iff [[1, 6, 1, 0], [9, 1, 16, 1, 0], [0]] _
    formed (by decide) (by decide) 2 [[1, 6, 1, 0], [9, 1, 16, 1, 0], [0]]
  have reads := both.1.mpr (.last (@WholeParts.more [9] [1, 16, 1, 0] _ _ (by decide)
    (.last (.last .nil))))
  refine ⟨reads, both.2.mp ?_⟩
  intro left
  cases reads.symm.trans left

/-- A close request in two pieces is not read, and a type of 20 leaves the
table. -/
theorem clientMsgReads_cut : clientMsgReads 1 [[1, 15], [0, 0]] = .ok [.error] ∧
      clientMsgReads 1 [[1, 20, 0, 0]] = .error .bounds :=
  ⟨rfl, rfl⟩

end Serval
