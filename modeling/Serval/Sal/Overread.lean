import Serval.Sal.Accept

/-!
# Reading behind the header

`parse_ext` interprets an extension before the bytes left in the header are
compared with its length.
-/

namespace Serval

open Serval.Support

/-- The parser gets through with the first bytes of the packet alone: it does
not look at any other. -/
def ReadsBelow (packet : List UInt8) (limit : Nat) (mode : SalParseMode) :
    Prop :=
  ∃ result, servalSalParseHdr (packet.take limit) mode = .ok result

/-- Behind every row of extensions that the walk gets over, what is left of
the header can be looked at. -/
def Uncut (header : List UInt8) : Prop :=
  ∀ exts tail, header.drop 12 = SalExt.join exts ++ tail → tail ≠ [] →
      exts.length < 10 → SalExt.count .control exts ≤ 1 →
      SalExt.count .service exts ≤ 2 → SalExt.count .source exts ≤ 1 → SalExt.count .taas exts ≤ 1 →
      ExtReadable (SalExt.count .control exts = 0) tail

theorem ExtReadable.mono {fresh fresher : Prop} (implies : fresher → fresh) {bytes : List UInt8}
    (readable : ExtReadable fresh bytes) : ExtReadable fresher bytes := by
  match bytes, readable with
  | [_], readable => exact readable
  | _ :: _ :: _, readable => exact fun isFresh => readable (implies isFresh)

private theorem SalContext.accept_fresh
    {ctx : SalContext} {offset : Nat} {e : SalExt} {exts : List SalExt} :
    ((ctx.accept offset e).ctrlExt = none ∧ SalExt.count .control exts = 0) ↔
      (ctx.ctrlExt = none ∧ SalExt.count .control (e :: exts) = 0) := by
  rw [SalExt.count_cons, SalContext.accept, SalContext.absorb]
  by_cases control : e.kind = .control
  · simp [control]
  · simp [control]

/-- The walk comes to an end exactly when everything it looks at is there. -/
theorem parseExts_ok_iff {packet : List UInt8} {room offset : Nat} {ctx : SalContext}
    (inside : offset ≤ packet.length) :
    (∃ result, parseExts packet room offset (packet.length - offset : Int) ctx = .ok result) ↔
      ∀ exts tail, packet.drop offset = SalExt.join exts ++ tail → tail ≠ [] →
          exts.length < room → ctx.Fits exts →
          ExtReadable
            (ctx.ctrlExt = none ∧ SalExt.count .control exts = 0) tail := by
  induction room generalizing offset ctx with
  | zero =>
    refine iff_of_true ⟨_, rfl⟩ ?_
    intro exts tail _ _ short
    cases short
  | succ room ih =>
    by_cases more : offset < packet.length
    · have positive : 0 < (packet.length - offset : Int) := by omega
      have left (e : SalExt) : (packet.length - offset : Int) - e.bytes.length =
            packet.length - (offset + e.bytes.length : Nat) := by
        push_cast
        omega
      constructor
      · rintro ⟨result, run⟩ exts tail here rest short fits
        cases exts with
        | nil =>
          rw [parseExts, if_pos positive] at run
          obtain ⟨parsed, ran, -⟩ := of_bind run
          have readable := parseExt_ok_iff.mp ⟨parsed, ran⟩
          rw [here] at readable
          exact readable.mono And.left
        | cons e others =>
          have joined : SalExt.join (e :: others) = e.bytes ++ SalExt.join others := rfl
          rw [joined, List.append_assoc] at here
          have both := (SalContext.fits_cons offset).mp fits
          have size := congrArg List.length here
          rw [List.length_drop, List.length_append] at size
          rw [parseExts_step e room here positive both.1, left e] at run
          have readable := (ih (by omega)).mp ⟨result, run⟩ others tail
              (by rw [← List.drop_drop, here, List.drop_left]) rest
              (Nat.lt_of_succ_lt_succ short) both.2
          exact readable.mono SalContext.accept_fresh.mpr
      · intro readable
        have first := readable [] (packet.drop offset) rfl (by
              intro none
              have size := congrArg List.length none
              rw [List.length_drop, List.length_nil] at size
              omega)
            (Nat.succ_pos room) ctx.fits_nil
        obtain ⟨⟨ret, ctx'⟩, ran⟩ := parseExt_ok_iff.mpr (first.mono fun fresh => ⟨fresh, rfl⟩)
        by_cases refused : ret ≤ 0
        · simp only [parseExts, if_pos positive, ran, ok_bind, if_pos refused]
          exact ⟨_, rfl⟩
        obtain ⟨kind, len, rfl, headed, slot⟩ := parseExt_positive ran (not_le.mp refused)
        by_cases beyond : packet.length < offset + len
        · simp only [parseExts, if_pos positive, ran, ok_bind, if_neg refused,
            salExtNext_of_len headed.length]
          rw [parseExts_done packet room _ _ (by omega)]
          exact ⟨_, rfl⟩
        obtain ⟨e, isKind, size, here⟩ := headed.extension (not_lt.mp beyond)
        rw [← isKind] at slot
        rw [parseExts_step e room here positive slot, left e]
        refine (ih (by omega)).mpr ?_
        intro exts tail after rest short fits
        rw [← size] at here
        have row : packet.drop offset = SalExt.join (e :: exts) ++ tail := by
          rw [here, after, ← List.append_assoc]
          rfl
        have behind := readable (e :: exts) tail row rest (Nat.succ_lt_succ short)
            ((SalContext.fits_cons offset).mpr ⟨slot, fits⟩)
        exact behind.mono SalContext.accept_fresh.mp
    · have none : packet.drop offset = [] := List.drop_eq_nil_of_le (not_lt.mp more)
      refine iff_of_true ⟨_, parseExts_done packet _ _ ctx (by omega)⟩ ?_
      intro exts tail here rest
      rw [none] at here
      exact absurd (List.append_eq_nil_iff.mp here.symm).2 rest

/-- The parser stays inside the header exactly when the header has its base
and, if the extensions are parsed at all, none is cut off too early. -/
theorem servalSalParseHdr_readsBelow_iff
    {packet : List UInt8} (whole : salLength packet ≤ packet.length)
    (mode : SalParseMode) :
    ReadsBelow packet (salLength packet) mode ↔
      12 ≤ salLength packet ∧ (mode = .all → Uncut (packet.take (salLength packet))) := by
  have size : (packet.take (salLength packet)).length = salLength packet := by
    rw [List.length_take]
    omega
  by_cases base : 12 ≤ salLength packet
  · have readable : 8 < (packet.take (salLength packet)).length := by omega
    have same : salLength (packet.take (salLength packet)) =
        salLength packet := by
      have split := salLength_append readable (packet.drop (salLength packet))
      rw [List.take_append_drop] at split
      exact split.symm
    cases mode with
    | base =>
      refine iff_of_true ?_ ⟨base, fun other => by cases other⟩
      obtain ⟨shl, read⟩ := readByte_of_lt readable
      rw [ReadsBelow, servalSalParseHdr, read, ok_bind]
      dsimp only
      split <;> exact ⟨_, rfl⟩
    | all =>
      obtain ⟨length, -, run⟩ := servalSalParseHdr_all readable
      rw [same, if_neg (not_lt.mpr base)] at run
      rw [ReadsBelow, run]
      have walk := @parseExts_ok_iff (packet.take (salLength packet)) 10 12
          (SalContext.blank length) (by omega)
      rw [size] at walk
      rw [show ((12 : Nat) : Int) = 12 from rfl] at walk
      rw [walk]
      simp only [base, true_and, forall_const, Uncut]
      refine forall_congr' fun exts => forall_congr' fun tail =>
        forall_congr' fun _ => forall_congr' fun _ =>
          forall_congr' fun _ => ?_
      constructor
      · intro holds controls services sources taas
        exact (holds ⟨controls, services, sources, taas⟩).mono fun none =>
          ⟨rfl, none⟩
      · rintro holds ⟨controls, services, sources, taas⟩
        exact (holds controls services sources taas).mono And.right
  · refine iff_of_false ?_ fun both => base both.1
    -- The length itself is at offset eight.
    rintro ⟨result, run⟩
    obtain ⟨shl, read, -⟩ := of_bind run
    have more := congrArg List.length (drop_of_readByte read)
    rw [List.length_drop, List.length_cons, size] at more
    rw [salLength] at base more
    omega

/-- The parser reads a header with a control and a TaaS extension to its end. -/
theorem servalSalParseHdr_readsBelow_iff_taas : salLength taasPacket ≤ taasPacket.length ∧
      ReadsBelow taasPacket (salLength taasPacket) .all ∧
      Uncut (taasPacket.take (salLength taasPacket)) := by
  have whole : salLength taasPacket ≤ taasPacket.length := by decide
  have reads : ReadsBelow taasPacket (salLength taasPacket) .all := ⟨_, rfl⟩
  exact ⟨whole, reads, ((servalSalParseHdr_readsBelow_iff whole .all).mp reads).2 rfl⟩

/-- A header of 16 bytes that ends with the first four of a control
extension, and eight bytes of data behind it. -/
def cutPacket : List UInt8 :=
  [1, 0, 0, 0, 2, 0, 0, 0, 4, 17, 0, 0, 0x10, 20, 0, 0] ++ [0, 0, 0, 7, 0, 0, 0, 9]

/-- The numbers of the control extension are taken from the data. -/
theorem cutPacket_overread : salLength cutPacket ≤ cutPacket.length ∧
      ¬ ReadsBelow cutPacket (salLength cutPacket) .all ∧
      ∃ ret ctx, servalSalParseHdr cutPacket .all = .ok (ret, ctx) ∧
        ctx.verno = 7 ∧ ctx.ackno = 9 := by
  refine ⟨by decide, ?_, _, _, rfl, rfl, rfl⟩
  rintro ⟨result, run⟩
  cases run

end Serval
