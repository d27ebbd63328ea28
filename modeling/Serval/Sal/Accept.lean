import Serval.Sal.Grammar

/-!
# The headers that the parser accepts

The walk over the extensions ends with zero exactly when the rest of the header
is a row of extensions that fits the pointers still free.
-/

namespace Serval

open Serval.Support

/-- The context after an extension has also been noted in `ctx->ext`. -/
def SalContext.accept (ctx : SalContext) (offset : Nat) (e : SalExt) :
    SalContext :=
  { ctx.absorb offset e with ext := (ctx.absorb offset e).ext ++ [offset] }

def SalContext.feed : SalContext → List (Nat × SalExt) → SalContext
  | ctx, [] => ctx
  | ctx, (offset, e) :: rest => (ctx.accept offset e).feed rest

@[mk_iff]
structure SalContext.Fits (ctx : SalContext) (exts : List SalExt) : Prop where
  controls : SalExt.count .control exts + ctx.ctrlExt.toList.length ≤ 1
  services : SalExt.count .service exts + ctx.srvExt0.toList.length + ctx.srvExt1.toList.length ≤ 2
  sources : SalExt.count .source exts + ctx.srcExt.toList.length ≤ 1
  taas : SalExt.count .taas exts + ctx.taasExt.toList.length ≤ 1

theorem SalContext.fits_nil (ctx : SalContext) : ctx.Fits [] := by
  have one (slot : Option Nat) : slot.toList.length ≤ 1 := by
    cases slot <;> simp
  have first := one ctx.srvExt0
  have second := one ctx.srvExt1
  have none (kind : SalExtType) : SalExt.count kind [] = 0 := rfl
  constructor <;> simp only [none, Nat.zero_add]
  · exact one ctx.ctrlExt
  · omega
  · exact one ctx.srcExt
  · exact one ctx.taasExt

theorem SalExt.count_cons (kind : SalExtType) (e : SalExt) (rest : List SalExt) :
    SalExt.count kind (e :: rest) = SalExt.count kind rest + if e.kind = kind then 1 else 0 := by
  simp [SalExt.count, List.countP_cons]

variable {ctx : SalContext} {offset : Nat}

/-- The extensions fit when the first has a pointer and the others fit after
it. -/
theorem SalContext.fits_cons {e : SalExt} {rest : List SalExt} (offset : Nat) :
    ctx.Fits (e :: rest) ↔ ctx.HasSlot e.kind ∧ (ctx.accept offset e).Fits rest := by
  have lists (slot : Option Nat) : slot.toList.length = if slot = none then 0 else 1 := by
    cases slot <;> rfl
  simp only [SalContext.fits_iff, SalExt.count_cons, lists, SalContext.accept]
  cases kind : e.kind with
  | pad => simp [SalContext.HasSlot, SalContext.absorb, kind]
  | control =>
    simp only [SalContext.HasSlot, SalContext.absorb, kind]
    by_cases free : ctx.ctrlExt = none <;> simp [free]
  | service =>
    simp only [SalContext.HasSlot, SalContext.absorb, kind]
    by_cases first : ctx.srvExt0 = none <;>
      by_cases second : ctx.srvExt1 = none <;> simp [first, second]
  | address => simp [SalContext.HasSlot, SalContext.absorb, kind]
  | source =>
    simp only [SalContext.HasSlot, SalContext.absorb, kind]
    by_cases free : ctx.srcExt = none <;> simp [free]
  | taas =>
    simp only [SalContext.HasSlot, SalContext.absorb, kind]
    by_cases free : ctx.taasExt = none <;> simp [free]

theorem parseExts_done (packet : List UInt8) (room offset : Nat) {hdrLen : Int}
    (ctx : SalContext) (done : hdrLen ≤ 0) :
    parseExts packet room offset hdrLen ctx = .ok (hdrLen, ctx) := by
  cases room with
  | zero => rfl
  | succ room => exact if_neg (not_lt.mpr done)

variable {packet : List UInt8} {exts : List SalExt} {rest : List UInt8}

theorem parseExts_step (e : SalExt) {hdrLen : Int} (room : Nat)
    (here : packet.drop offset = e.bytes ++ rest) (more : 0 < hdrLen)
    (slot : ctx.HasSlot e.kind) :
    parseExts packet (room + 1) offset hdrLen ctx = parseExts packet room (offset + e.bytes.length)
        (hdrLen - e.bytes.length) (ctx.accept offset e) := by
  have positive : ¬ (e.bytes.length : Int) ≤ 0 := by
    have := List.length_pos_iff.mpr e.bytes_ne_nil
    omega
  simp only [parseExts, if_pos more, parseExt_accepts e here slot, ok_bind, if_neg positive,
    salExtNext_of_len (e.headed here).length]
  rfl

theorem parseExts_skip (here : packet.drop offset = SalExt.join exts ++ rest)
    (fits : ctx.Fits exts) (room more : Nat) :
    parseExts packet (exts.length + room) offset
        ((SalExt.join exts).length + more : Int) ctx =
      parseExts packet room (offset + (SalExt.join exts).length) more
        (ctx.feed (SalExt.placed offset exts)) := by
  induction exts generalizing offset ctx with
  | nil => simp [SalExt.join, SalExt.placed, SalContext.feed]
  | cons e tail ih =>
    have joined : SalExt.join (e :: tail) = e.bytes ++ SalExt.join tail := rfl
    rw [joined, List.append_assoc] at here
    have both := (SalContext.fits_cons offset).mp fits
    have after : packet.drop (offset + e.bytes.length) = SalExt.join tail ++ rest := by
      rw [← List.drop_drop, here, List.drop_left]
    have left : ((SalExt.join (e :: tail)).length + more : Int) - e.bytes.length =
          (SalExt.join tail).length + more := by
      rw [joined, List.length_append]
      omega
    have positive : 0 < ((SalExt.join (e :: tail)).length + more : Int) := by
      have := List.length_pos_iff.mpr e.bytes_ne_nil
      omega
    have count : (e :: tail).length + room = tail.length + room + 1 := by
      rw [List.length_cons]
      omega
    rw [count, parseExts_step e _ here positive both.1, left, ih after both.2, joined,
      List.length_append,
      Nat.add_assoc]
    rfl

theorem parseExts_join {room : Nat} (here : packet.drop offset = SalExt.join exts ++ rest)
    (enough : exts.length ≤ room) (fits : ctx.Fits exts) :
    parseExts packet room offset (SalExt.join exts).length ctx =
      .ok (0, ctx.feed (SalExt.placed offset exts)) := by
  obtain ⟨left, rfl⟩ := Nat.exists_eq_add_of_le enough
  have skipped := parseExts_skip here fits left 0
  rw [Nat.cast_zero, Int.add_zero] at skipped
  rw [skipped]
  exact parseExts_done packet left _ _ le_rfl

/-- Next to enough readable bytes the walk ends, and with zero only after a
row of extensions that fills the header and fits. -/
theorem parseExts_total {packet : List UInt8} {room offset : Nat} {hdrLen : Int} (ctx : SalContext)
    (readable : offset + hdrLen + 11 ≤ packet.length) :
    ∃ ret ctx', parseExts packet room offset hdrLen ctx = .ok (ret, ctx') ∧
      (ret = 0 →
        ∃ exts, (packet.drop offset).take hdrLen.toNat = SalExt.join exts ∧
          exts.length ≤ room ∧ ctx.Fits exts) := by
  induction room generalizing offset hdrLen ctx with
  | zero =>
    refine ⟨hdrLen, ctx, rfl, ?_⟩
    intro done
    exact ⟨[], by simp [done, SalExt.join], le_rfl, ctx.fits_nil⟩
  | succ room ih =>
    by_cases more : 0 < hdrLen
    · obtain ⟨⟨ret, ctx'⟩, ran⟩ := parseExt_ok_iff.mpr (extReadable_of_length (ctx.ctrlExt = none)
          (show 12 ≤ (packet.drop offset).length by
            rw [List.length_drop]
            omega))
      by_cases refused : ret ≤ 0
      · refine ⟨-1, ctx', ?_, fun zero => absurd zero (by decide)⟩
        simp only [parseExts, if_pos more, ran, ok_bind, if_pos refused]
      obtain ⟨kind, len, rfl, headed, slot⟩ := parseExt_positive ran (not_le.mp refused)
      by_cases beyond : hdrLen - len < 0
      · refine ⟨hdrLen - len, { ctx' with ext := ctx'.ext ++ [offset] }, ?_, fun zero => by omega⟩
        simp only [parseExts, if_pos more, ran, ok_bind, if_neg refused,
          salExtNext_of_len headed.length]
        exact parseExts_done packet room _ _ beyond.le
      obtain ⟨e, isKind, size, here⟩ := headed.extension (by omega)
      rw [← isKind] at slot
      rw [parseExts_step e room here more slot, size]
      obtain ⟨final, last, walked, zero⟩ := @ih (offset + len) (hdrLen - len)
          (ctx.accept offset e) (by push_cast; omega)
      refine ⟨final, last, walked, ?_⟩
      intro done
      obtain ⟨exts, joined, short, fits⟩ := zero done
      refine ⟨e :: exts, ?_, Nat.succ_le_succ short, (SalContext.fits_cons offset).mpr ⟨slot, fits⟩⟩
      have left : hdrLen.toNat = e.bytes.length + (hdrLen - len).toNat := by omega
      rw [here, left, List.take_length_add_append, joined]
      rfl
    · have ended := parseExts_done packet (room + 1) offset ctx (not_lt.mp more)
      refine ⟨hdrLen, ctx, ended, ?_⟩
      intro done
      exact ⟨[], by simp [done, SalExt.join], Nat.zero_le _, ctx.fits_nil⟩

/-! ## What the context describes -/

/-- A part of the context that only extensions of one kind touch is built from
those alone. -/
theorem SalContext.feed_fold {β : Type} (kind : SalExtType) (view : SalContext → β)
    (update : β → Nat × SalExt → β)
    (hit :
      ∀ ctx offset e, e.kind = kind → view (accept ctx offset e) = update (view ctx) (offset, e))
    (skip : ∀ ctx offset e, e.kind ≠ kind → view (accept ctx offset e) = view ctx)
    (ctx : SalContext) (exts : List (Nat × SalExt)) :
    view (ctx.feed exts) = (SalExt.ofKind kind exts).foldl update (view ctx) := by
  induction exts generalizing ctx with
  | nil => rfl
  | cons entry rest ih =>
    have tail := ih (ctx.accept entry.1 entry.2)
    by_cases same : entry.2.kind = kind
    · rw [hit ctx entry.1 entry.2 same] at tail
      rw [SalExt.ofKind, List.filter_cons_of_pos (by simpa using same)]
      exact tail
    · rw [skip ctx entry.1 entry.2 same] at tail
      rw [SalExt.ofKind, List.filter_cons_of_neg (by simpa using same)]
      exact tail

theorem SalExt.flags_eq (e : SalExt) : parseCtrlFlags (e.bytes.getD 2 0) 0 = e.flags := by
  simp only [parseCtrlFlags, raiseFlag, SalExt.flags, SalExt.bit]
  generalize (e.bytes.getD 2 0).toNat.testBit 7 = syn
  generalize (e.bytes.getD 2 0).toNat.testBit 6 = rsyn
  generalize (e.bytes.getD 2 0).toNat.testBit 5 = ack
  generalize (e.bytes.getD 2 0).toNat.testBit 4 = nack
  generalize (e.bytes.getD 2 0).toNat.testBit 3 = rst
  generalize (e.bytes.getD 2 0).toNat.testBit 2 = fin
  revert syn rsyn ack nack rst fin
  decide

theorem SalContext.feed_length (ctx : SalContext) (exts : List (Nat × SalExt)) :
    (ctx.feed exts).length = ctx.length := by
  induction exts generalizing ctx with
  | nil => rfl
  | cons entry rest ih => exact ih (ctx.accept entry.1 entry.2)

theorem foldl_of_length_le_one {α β : Type} (update : β → α → β) (start : β) {items : List α}
    (short : items.length ≤ 1) :
    items.foldl update start = (items[0]?.map (update start)).getD start := by
  match items, short with
  | [], _ => rfl
  | [_], _ => rfl

section

variable (length : UInt16) {exts : List (Nat × SalExt)}

theorem SalContext.feed_control (controls : (SalExt.ofKind .control exts).length ≤ 1) :
    ((blank length).feed exts).ctrlExt = (SalExt.ofKind .control exts)[0]?.map Prod.fst ∧
      ((blank length).feed exts).verno =
        ((SalExt.ofKind .control exts)[0]?.map (·.2.verno)).getD 0 ∧
      ((blank length).feed exts).ackno =
        ((SalExt.ofKind .control exts)[0]?.map (·.2.ackno)).getD 0 ∧
      ((blank length).feed exts).flags =
        ((SalExt.ofKind .control exts)[0]?.map (·.2.flags)).getD 0 := by
  have folded := feed_fold .control (fun ctx => (ctx.ctrlExt, ctx.verno, ctx.ackno, ctx.flags))
      (fun fields entry =>
        (some entry.1, entry.2.verno, entry.2.ackno,
          parseCtrlFlags (entry.2.bytes.getD 2 0) fields.2.2.2))
      (by intro ctx offset e kind; simp [accept, absorb, kind])
      (by intro ctx offset e other; simp [accept, absorb, other])
      (blank length) exts
  rw [foldl_of_length_le_one _ _ controls] at folded
  have zero : (blank length).flags = 0 := rfl
  simp only [zero, SalExt.flags_eq] at folded
  cases first : (SalExt.ofKind .control exts)[0]? with
  | none =>
    rw [first, Option.map_none, Option.getD_none] at folded
    simp only [Prod.mk.injEq] at folded
    exact folded
  | some entry =>
    rw [first] at folded
    simpa using folded

theorem SalContext.feed_service (services : (SalExt.ofKind .service exts).length ≤ 2) :
    ((blank length).feed exts).srvExt0 = (SalExt.ofKind .service exts)[0]?.map Prod.fst ∧
      ((blank length).feed exts).srvExt1 = (SalExt.ofKind .service exts)[1]?.map Prod.fst := by
  have folded := feed_fold .service (fun ctx => (ctx.srvExt0, ctx.srvExt1)) (fun slots entry =>
        if slots.1 = none then (some entry.1, slots.2)
        else (slots.1, some entry.1))
      (by
        intro ctx offset e kind
        by_cases free : ctx.srvExt0 = none <;>
          simp [accept, absorb, kind, free])
      (by intro ctx offset e other; simp [accept, absorb, other])
      (blank length) exts
  rw [← Prod.mk.injEq]
  refine folded.trans ?_
  generalize SalExt.ofKind .service exts = found at services ⊢
  rcases found with _ | ⟨first, _ | ⟨second, _ | ⟨third, rest⟩⟩⟩
  case cons.cons.cons => simp at services
  all_goals rfl

theorem SalContext.feed_pointer (kind : SalExtType) (pointer : SalContext → Option Nat)
    (hit : ∀ ctx offset e, e.kind = kind → pointer (accept ctx offset e) = some offset)
    (skip : ∀ ctx offset e, e.kind ≠ kind → pointer (accept ctx offset e) = pointer ctx)
    (null : pointer (blank length) = none)
    (single : (SalExt.ofKind kind exts).length ≤ 1) :
    pointer ((blank length).feed exts) = (SalExt.ofKind kind exts)[0]?.map Prod.fst := by
  rw [feed_fold kind pointer (fun _ entry => some entry.1) hit skip,
    foldl_of_length_le_one _ _ single, null]
  cases (SalExt.ofKind kind exts)[0]? <;> rfl

theorem SalContext.feed_describes (controls : (SalExt.ofKind .control exts).length ≤ 1)
    (services : (SalExt.ofKind .service exts).length ≤ 2)
    (sources : (SalExt.ofKind .source exts).length ≤ 1)
    (taas : (SalExt.ofKind .taas exts).length ≤ 1) :
    Describes exts ((blank length).feed exts) := by
  have control := feed_control length controls
  have service := feed_service length services
  have source := feed_pointer length .source SalContext.srcExt
      (by intro ctx offset e kind; simp [accept, absorb, kind])
      (by intro ctx offset e other; simp [accept, absorb, other])
      rfl sources
  have authenticator := feed_pointer length .taas SalContext.taasExt
      (by intro ctx offset e kind; simp [accept, absorb, kind])
      (by intro ctx offset e other; simp [accept, absorb, other])
      rfl taas
  exact
    { ctrlExt := control.1
      verno := control.2.1
      ackno := control.2.2.1
      flags := control.2.2.2
      srvExt0 := service.1
      srvExt1 := service.2
      srcExt := source
      taasExt := authenticator }

end

theorem toNat_shl (shl : UInt8) : (shl.toUInt16 <<< 2).toNat = 4 * shl.toNat := by
  have small := shl.toNat_lt
  show shl.toNat <<< 2 % 2 ^ 16 = 4 * shl.toNat
  omega

theorem servalSalParseHdr_all (readable : 8 < packet.length) :
    ∃ length : UInt16, length.toNat = salLength packet ∧
      servalSalParseHdr packet .all =
        if salLength packet < 12 then .ok (-1, SalContext.blank length)
        else
          parseExts packet 10 12 (salLength packet - 12 : Int)
            (SalContext.blank length) := by
  have shl : readByte packet 8 = .ok (packet.getD 8 0) := by
    rw [readByte, List.getD_eq_getElem?_getD, List.getElem?_eq_getElem readable]
    rfl
  refine ⟨_, toNat_shl (packet.getD 8 0), ?_⟩
  rw [servalSalParseHdr, shl]
  show (if (SalContext.blank _).length.toNat < 12 then _ else _) = _
  have same : (SalContext.blank ((packet.getD 8 0).toUInt16 <<< 2)).length.toNat =
        salLength packet := toNat_shl (packet.getD 8 0)
  rw [same]
  rfl

theorem SalContext.fits_blank (length : UInt16) (exts : List SalExt) : (blank length).Fits exts ↔
      SalExt.count .control exts ≤ 1 ∧ SalExt.count .service exts ≤ 2 ∧
        SalExt.count .source exts ≤ 1 ∧ SalExt.count .taas exts ≤ 1 := by
  simp [SalContext.fits_iff, blank]

theorem SalSplit.here (split : SalSplit packet exts) : packet.drop 12 =
      SalExt.join exts ++ (packet.drop 12).drop (salLength packet - 12) := by
  rw [← split.bytes, List.take_append_drop]

/-- A well-formed header that is all there is accepted, and the context
describes it. -/
theorem SalSplit.parse (split : SalSplit packet exts) (whole : salLength packet ≤ packet.length) :
    ∃ ctx, servalSalParseHdr packet .all = .ok (0, ctx) ∧ ctx.length.toNat = salLength packet ∧
      Describes (SalExt.placed 12 exts) ctx := by
  have base := split.base
  obtain ⟨length, same, run⟩ := servalSalParseHdr_all (show 8 < packet.length by omega)
  have here := split.here
  have size : ((SalExt.join exts).length : Int) = salLength packet - 12 := by
    rw [← split.bytes, List.length_take, List.length_drop]
    omega
  have fits : (SalContext.blank length).Fits exts := (SalContext.fits_blank length exts).mpr
      ⟨split.controls, split.services, split.sources, split.taas⟩
  have walked := parseExts_join here split.room fits
  rw [size] at walked
  refine ⟨(SalContext.blank length).feed (SalExt.placed 12 exts), ?_, ?_, ?_⟩
  · rw [run, if_neg (not_lt.mpr base), walked]
  · rw [SalContext.feed_length]
    exact same
  · apply SalContext.feed_describes
    · rw [SalExt.length_ofKind_placed]
      exact split.controls
    · rw [SalExt.length_ofKind_placed]
      exact split.services
    · rw [SalExt.length_ofKind_placed]
      exact split.sources
    · rw [SalExt.length_ofKind_placed]
      exact split.taas

/-! ## Bytes behind the packet

A parser that got through does not depend on what follows in memory. -/

section

variable {packet : List UInt8}

variable {ext : Nat} {ctx : SalContext} {result : Int × SalContext}

theorem salExtLen_ahead {len : Nat} (read : salExtLen packet ext = .ok len)
    (rest : List UInt8) : salExtLen (packet ++ rest) ext = .ok len := by
  obtain ⟨first, readFirst, sized⟩ := of_bind read
  rw [salExtLen, readByte_ahead readFirst rest, ok_bind]
  by_cases pad : salExtType first = some .pad
  · rw [if_pos pad] at sized ⊢
    exact sized
  · rw [if_neg pad] at sized ⊢
    obtain ⟨length, readLength, same⟩ := of_bind sized
    rw [readByte_ahead readLength rest]
    exact same

theorem parseExtFunc_ahead {extLen : Nat} {kind : SalExtType}
    (parsed : parseExtFunc packet ext extLen ctx kind = .ok result)
    (rest : List UInt8) :
    parseExtFunc (packet ++ rest) ext extLen ctx kind = .ok result := by
  cases kind with
  | control =>
    rw [parseExtFunc, parseControlExt] at parsed ⊢
    by_cases taken : ctx.ctrlExt.isSome
    · rw [if_pos taken] at parsed ⊢
      exact parsed
    rw [if_neg taken] at parsed ⊢
    obtain ⟨verno, readVerno, parsed⟩ := of_bind parsed
    obtain ⟨ackno, readAckno, parsed⟩ := of_bind parsed
    obtain ⟨bits, readBits, parsed⟩ := of_bind parsed
    rw [readBytes_ahead readVerno rest, readBytes_ahead readAckno rest,
      readByte_ahead readBits rest]
    exact parsed
  | source =>
    rw [parseExtFunc, parseSourceExt] at parsed ⊢
    by_cases taken : ctx.srcExt.isSome
    · rw [if_pos taken] at parsed ⊢
      exact parsed
    · rw [if_neg taken] at parsed ⊢
      obtain ⟨length, readLength, parsed⟩ := of_bind parsed
      rw [readByte_ahead readLength rest]
      exact parsed
  | _ => exact parsed

theorem parseExt_ahead (parsed : parseExt packet ext ctx = .ok result)
    (rest : List UInt8) : parseExt (packet ++ rest) ext ctx = .ok result := by
  obtain ⟨extLen, length, parsed⟩ := of_bind parsed
  obtain ⟨first, read, parsed⟩ := of_bind parsed
  rw [parseExt, salExtLen_ahead length rest, ok_bind, readByte_ahead read rest, ok_bind]
  cases kind : salExtType first with
  | none =>
    rw [kind] at parsed
    exact parsed
  | some type =>
    simp only [kind] at parsed ⊢
    by_cases short : extLen < minExtLength type
    · rw [if_pos short] at parsed ⊢
      exact parsed
    · rw [if_neg short] at parsed ⊢
      exact parseExtFunc_ahead parsed rest

theorem parseExts_ahead {room : Nat} {hdrLen : Int}
    (parsed : parseExts packet room ext hdrLen ctx = .ok result)
    (rest : List UInt8) :
    parseExts (packet ++ rest) room ext hdrLen ctx = .ok result := by
  induction room generalizing ext hdrLen ctx with
  | zero => exact parsed
  | succ room ih =>
    rw [parseExts] at parsed ⊢
    by_cases more : 0 < hdrLen
    · rw [if_pos more] at parsed ⊢
      obtain ⟨⟨extLen, ctx'⟩, one, parsed⟩ := of_bind parsed
      rw [parseExt_ahead one rest, ok_bind]
      by_cases refused : extLen ≤ 0
      · simp only [if_pos refused] at parsed ⊢
        exact parsed
      simp only [if_neg refused] at parsed ⊢
      obtain ⟨next, skipped, parsed⟩ := of_bind parsed
      obtain ⟨len, length, -⟩ := of_bind one
      have same := salExtNext_of_len length
      rw [skipped] at same
      cases same
      rw [salExtNext_of_len (salExtLen_ahead length rest)]
      exact ih parsed
    · rw [if_neg more] at parsed ⊢
      exact parsed

theorem servalSalParseHdr_ahead
    (parsed : servalSalParseHdr packet .all = .ok result) (rest : List UInt8) :
    servalSalParseHdr (packet ++ rest) .all = .ok result := by
  obtain ⟨shl, read, parsed⟩ := of_bind parsed
  rw [servalSalParseHdr, readByte_ahead read rest, ok_bind]
  by_cases short : (SalContext.blank (shl.toUInt16 <<< 2)).length.toNat < salHeaderLen
  · simp only [if_pos short] at parsed ⊢
    exact parsed
  · simp only [if_neg short] at parsed ⊢
    exact parseExts_ahead parsed rest

end

theorem salLength_append (base : 8 < packet.length) (rest : List UInt8) :
    salLength (packet ++ rest) = salLength packet := by
  rw [salLength, List.getD_eq_getElem?_getD, List.getElem?_append_left base,
    ← List.getD_eq_getElem?_getD, salLength]

theorem SalSplit.of_append (split : SalSplit (packet ++ rest) exts)
    (whole : salLength (packet ++ rest) ≤ packet.length) :
    SalSplit packet exts := by
  have base := split.base
  have bytes := split.bytes
  have length := salLength_append (show 8 < packet.length by omega) rest
  rw [length] at base bytes whole
  rw [List.drop_append_of_le_length (by omega),
    List.take_append_of_le_length (by rw [List.length_drop]; omega)] at bytes
  exact ⟨base, bytes, split.room, split.controls, split.services, split.sources, split.taas⟩

/-- A header that was accepted is well formed, and the context describes
it. -/
theorem SalSplit.of_parse (parsed : servalSalParseHdr packet .all = .ok (0, ctx))
    (whole : salLength packet ≤ packet.length) :
    ∃ exts, SalSplit packet exts ∧ ctx.length.toNat = salLength packet ∧
      Describes (SalExt.placed 12 exts) ctx := by
  obtain ⟨shl, read, -⟩ := of_bind parsed
  have base : 8 < packet.length := by
    by_contra short
    rw [readByte, List.getElem?_eq_none (not_lt.mp short)] at read
    cases read
  -- Some more bytes let the walk end on every header, so that its converse
  -- applies.
  have longer := servalSalParseHdr_ahead parsed (List.replicate 11 0)
  have length := salLength_append base (List.replicate 11 0)
  have readable : salLength packet + 11 ≤ (packet ++ List.replicate 11 0).length := by
    rw [List.length_append, List.length_replicate]
    omega
  obtain ⟨exts, split⟩ : ∃ exts, SalSplit (packet ++ List.replicate 11 0) exts := by
    obtain ⟨size, same, run⟩ := servalSalParseHdr_all
        (show 8 < (packet ++ List.replicate 11 0).length by omega)
    rw [length] at run
    by_cases short : salLength packet < 12
    · rw [if_pos short, longer] at run
      cases run
    rw [if_neg short, longer] at run
    obtain ⟨ret, ctx', walked, zero⟩ := @parseExts_total (packet ++ List.replicate 11 0) 10 12
        (salLength packet - 12) (SalContext.blank size) (by omega)
    rw [walked] at run
    cases run
    obtain ⟨exts, joined, room, fits⟩ := zero rfl
    have counts := (SalContext.fits_blank size exts).mp fits
    have bytes : ((salLength packet : Int) - 12).toNat = salLength packet - 12 := by omega
    rw [bytes, ← length] at joined
    exact ⟨exts, by omega, joined, room, counts.1, counts.2.1, counts.2.2.1, counts.2.2.2⟩
  have split := split.of_append (by rw [length]; exact whole)
  obtain ⟨ctx', again, sameLength, described⟩ := split.parse whole
  rw [parsed] at again
  cases again
  exact ⟨exts, split, sameLength, described⟩

/-- Next to enough readable bytes the parser ends, with zero exactly on the
well-formed headers, and then the context describes the extensions. -/
theorem servalSalParseHdr_iff_split (packet : List UInt8)
    (readable : salLength packet + 11 ≤ packet.length) :
    ∃ ret ctx, servalSalParseHdr packet .all = .ok (ret, ctx) ∧
      (ret = 0 ↔ ∃ exts, SalSplit packet exts) ∧
      ∀ exts, SalSplit packet exts → Describes (SalExt.placed 12 exts) ctx := by
  obtain ⟨length, same, run⟩ := servalSalParseHdr_all (show 8 < packet.length by omega)
  by_cases short : salLength packet < 12
  · have none (exts : List SalExt) : ¬ SalSplit packet exts :=
      fun split => absurd split.base (not_le.mpr short)
    refine ⟨-1, _, run.trans (if_pos short), ?_, ?_⟩
    · exact iff_of_false (by decide) fun ⟨exts, split⟩ => none exts split
    · exact fun exts split => absurd split (none exts)
  rw [if_neg short] at run
  obtain ⟨ret, ctx, walked, zero⟩ := @parseExts_total packet 10 12 (salLength packet - 12)
      (SalContext.blank length) (by omega)
  rw [walked] at run
  refine ⟨ret, ctx, run, ⟨?_, ?_⟩, ?_⟩
  · intro accepted
    obtain ⟨exts, joined, room, fits⟩ := zero accepted
    have counts := (SalContext.fits_blank length exts).mp fits
    have size : ((salLength packet : Int) - 12).toNat = salLength packet - 12 := by omega
    rw [size] at joined
    exact ⟨exts, not_lt.mp short, joined, room, counts.1, counts.2.1, counts.2.2.1, counts.2.2.2⟩
  · rintro ⟨exts, split⟩
    obtain ⟨ctx', parsed, -, -⟩ := split.parse (by omega)
    rw [run] at parsed
    cases parsed
    rfl
  · intro exts split
    obtain ⟨ctx', parsed, -, described⟩ := split.parse (by omega)
    rw [run] at parsed
    cases parsed
    exact described

def taasExts : List SalExt :=
  [⟨.pad, [0], .pad rfl⟩, ⟨.taas, [0x50, 12, 0, 0, 9, 0, 0, 0, 0, 0, 0, 0],
      .sized rfl (by decide) rfl (by decide)⟩,
    ⟨.pad, [0], .pad rfl⟩,
    ⟨.pad, [0], .pad rfl⟩,
    ⟨.pad, [0], .pad rfl⟩]

def taasPacket : List UInt8 :=
  [1, 0, 0, 0, 2, 0, 0, 0, 7, 17, 0, 0] ++ SalExt.join taasExts ++ List.replicate 11 0

theorem servalSalParseHdr_iff_split_taas : salLength taasPacket + 11 ≤ taasPacket.length ∧
      ∃ ctx, servalSalParseHdr taasPacket .all = .ok (0, ctx) ∧ ctx.taasExt = some 13 := by
  have readable : salLength taasPacket + 11 ≤ taasPacket.length := by decide
  have split : SalSplit taasPacket taasExts :=
    ⟨by decide, rfl, by decide, by decide, by decide, by decide, by decide⟩
  obtain ⟨ret, ctx, run, zero, described⟩ := servalSalParseHdr_iff_split taasPacket readable
  rw [zero.mpr ⟨taasExts, split⟩] at run
  exact ⟨readable, ctx, run, (described taasExts split).taasExt⟩

/-- A header that is accepted can be read in one way only. -/
theorem servalSalParseHdr_unambiguous {packet : List UInt8} {ctx : SalContext}
    (whole : salLength packet ≤ packet.length)
    (accepted : servalSalParseHdr packet .all = .ok (0, ctx)) :
    ∃ exts, Describes (SalExt.placed 12 exts) ctx ∧
      ∀ other, SalSplit packet other ↔ other = exts := by
  obtain ⟨exts, split, _, described⟩ := SalSplit.of_parse accepted whole
  refine ⟨exts, described, fun other => ⟨fun again => ?_, fun same => same ▸ split⟩⟩
  exact SalExt.join_injective (again.bytes.symm.trans split.bytes)

theorem servalSalParseHdr_unambiguous_taas : ∃ ctx,
    servalSalParseHdr taasPacket .all = .ok (0, ctx) ∧ ∃ exts,
      Describes (SalExt.placed 12 exts) ctx ∧ ∀ other, SalSplit taasPacket other ↔ other = exts :=
  ⟨_, rfl, servalSalParseHdr_unambiguous (by decide) rfl⟩

end Serval
