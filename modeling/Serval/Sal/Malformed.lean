import Serval.Sal.Forward
import Serval.Support.Run

/-!
# Which headers come out well formed

`serval_sal_add_source_ext` counts with the bytes of the header: the length of
the source extension, the words of the whole header, and in the parser the
number of extensions.
-/

namespace Serval

open Serval.Support

def InsertsOnly (packet : List UInt8) (ctx : SalContext) (packet' : List UInt8)
    (ctx' : SalContext) : Prop :=
  ∃ (lead old tail : List UInt8) (new : SalExt), packet.drop 12 = lead ++ (old ++ tail) ∧
    packet'.drop 12 = lead ++ (new.bytes ++ tail) ∧
    new.kind = .source ∧ ctx'.srcExt = some (12 + lead.length) ∧
    (ctx.srcExt = none ∧ old = [] ∨
      ctx.srcExt = some (12 + lead.length) ∧
        ∃ src : SalExt, src.kind = .source ∧ src.bytes = old)

/-- The packet is refused and left alone, or it comes out with a header that
is accepted, changed nowhere else, and that the walk for the authenticator
gets through. -/
def StaysWellFormed (skb : LinearSkb) (ctx : SalContext) (copied : Bool)
    (fresh : Option (Nat → UInt8)) (ip packet : List UInt8) : Prop :=
  ∃ ret skb', servalSalAddSourceExt skb ctx copied fresh = .ok (ret, skb') ∧
    (ret < 0 ∧ skb'.sal = skb.sal ∨
      0 ≤ ret ∧ ∃ front' packet' post' ctx', skb'.Holds front' ip packet' post' ∧
        salLength packet' ≤ packet'.length ∧ servalSalParseHdr packet' .all = .ok (0, ctx') ∧
        InsertsOnly packet ctx packet' ctx' ∧
        ∀ authenticator, ∃ sal, servalSalUpdateTaasExt packet' authenticator = .ok sal)

variable {packet packet' : List UInt8} {ctx : SalContext}

theorem LinearSkb.Holds.packet_unique {skb : LinearSkb} {front front' ip post post' : List UInt8}
    (holds : skb.Holds front ip packet post)
    (holds' : skb.Holds front' ip packet' post') : packet' = packet := by
  have front : front'.length = front.length := by
    have first := holds.data
    have second := holds'.data
    omega
  have length : packet'.length = packet.length := by
    have first := holds.tail
    have second := holds'.tail
    omega
  have same := holds'.sal_eq.symm.trans holds.sal_eq
  exact (List.append_inj same length).1

/-! ## A length that wraps around -/

/-- The address goes over the bytes in front of the extension, wherever they
are. -/
theorem fillGap_overflow {lead daddr : List UInt8} {ctx : SalContext} (long : 12 ≤ lead.length)
    (pointer : ctx.srcExt = some lead.length)
    (destination : daddr.length = 4) (first len : UInt8)
    (saddr rest : List UInt8) {extLen : Nat} (wraps : 256 ≤ extLen)
    (below : extLen < 260) :
    ∃ lead', lead'.length = lead.length ∧
      fillGap (lead ++ (first :: len :: rest)) saddr daddr ctx 4 extLen =
        .ok (lead' ++ (extHdr [first] .source extLen ++ rest)) := by
  have inLead {lead tail : List UInt8} {offset : Nat} (bytes : List UInt8)
      (inside : offset + bytes.length ≤ lead.length) :
      ∃ lead', lead'.length = lead.length ∧
        writeBytes (lead ++ tail) offset bytes = .ok (lead' ++ tail) := by
    have written := @writeBytes_of_le (lead ++ tail) bytes offset
        (by rw [List.length_append]; omega)
    obtain ⟨lead', size, same⟩ := @writeBytes_piece [] lead tail bytes _ offset
        (by simpa using written) inside
    refine ⟨lead', size, ?_⟩
    rw [written, same, List.nil_append]
  have start : (lead.take (lead.length - 4)).length + 4 = lead.length := by
    rw [List.length_take]
    omega
  have written := @writeSourceExt_wrapped (lead.take (lead.length - 4))
      (lead.drop (lead.length - 4)) daddr first len saddr rest extLen
      (by rw [List.length_drop]; omega) destination wraps below
  rw [start, ← List.append_assoc, ← List.append_assoc, List.take_append_drop] at written
  obtain ⟨lead₁, size₁, check⟩ := @inLead (lead.take (lead.length - 4) ++ daddr)
      (extHdr [first] .source extLen ++ rest) 10 [0, 0]
      (by
        rw [List.length_append, destination, start]
        exact long)
  obtain ⟨lead₂, size₂, shl⟩ := @inLead lead₁ (extHdr [first] .source extLen ++ rest) 8
      [UInt8.ofNat ((ctx.length.toNat + 4) / 4)]
      (by
        rw [size₁, List.length_append]
        show 9 ≤ _
        omega)
  refine ⟨lead₂, ?_, ?_⟩
  · rw [size₂, size₁, List.length_append, destination, start]
  · rw [fillGap, pointer]
    simp only [Option.getD_some, Option.isSome_some, written, ok_bind, check, shl]

section

variable {skb : LinearSkb} {ctx : SalContext} {front ip post ids : List UInt8}
  {protocol : UInt8} {exts : List SalExt} {payload : List UInt8}

/-- The header of the extension, as it is after a length that wrapped. -/
theorem Accepted.insertion_overflow {before after : List SalExt} {src : SalExt}
    (accepted :
      Accepted skb ctx front ip post ids protocol (before ++ src :: after)
        payload)
    (kind : src.kind = .source)
    (left : ∀ e ∈ before, e.kind ≠ .source)
    (right : ∀ e ∈ after, e.kind ≠ .source)
    (wraps : 255 < src.bytes.length + 4) :
    ∃ lead rest, Insertion skb ctx front ip lead rest post
        (sourceGrowth (before ++ src :: after))
        (sourceLength (before ++ src :: after)) fun packet' =>
          ∃ first tail, packet'.drop (12 + (SalExt.join before).length) =
              extHdr [first] .source (src.bytes.length + 4) ++ tail := by
  have header := accepted.header
  have pointer := accepted.srcExt_some kind left right
  have small := SalExt.length_lt (show src.kind ≠ .pad by
    rw [kind]
    decide)
  obtain ⟨shl, check, first, len, body, spare, size, checkSize, -, cut, holds,
    point⟩ := accepted.cut kind pointer
  have base := length_salPacket size checkSize shl protocol (SalExt.join before)
  rw [sourceGrowth_of_source (List.mem_append_right _ List.mem_cons_self)
    kind, sourceLength_of_source left kind]
  refine ⟨_, _, holds, header, point, ?_⟩
  intro post gap gapSize
  obtain ⟨lead', length, filled⟩ := @fillGap_overflow
      (salPacket ids shl protocol check (SalExt.join before))
      ((ip.drop 16).take 4) ctx (by omega) (by rw [base]; exact pointer)
      (length_ip_field (by omega)) first len ((ip.drop 12).take 4)
      (body ++ (gap ++ (spare ++ (SalExt.join after ++ (payload ++ post)))))
      (src.bytes.length + 4) (by omega) (by omega)
  refine ⟨lead' ++ (extHdr [first] .source (src.bytes.length + 4) ++
      (body ++ (gap ++ (spare ++ (SalExt.join after ++ payload))))), ?_, ?_,
      first, body ++ (gap ++ (spare ++ (SalExt.join after ++ payload))), ?_⟩
  · rw [salPacket_append] at filled
    rw [salPacket_append, salPacket_append]
    simp only [List.append_assoc, List.cons_append] at filled ⊢
    exact filled
  · simp only [List.length_append, List.length_cons, List.length_nil, length,
      length_salPacket size checkSize, extHdr, gapSize]
    omega
  · rw [← base, ← length, List.drop_left]

end

/-! ## Headers that come out well formed -/

theorem salLength_salPacket {ids : List UInt8} (size : ids.length = 8) (shl protocol : UInt8)
    (check rest : List UInt8) :
    salLength (salPacket ids shl protocol check rest) = 4 * shl.toNat := by
  rw [salLength, salPacket, List.getD_append_right _ _ _ _ (by omega), size]
  rfl

theorem Shaped.split_of_parse {ids payload : List UInt8} {protocol : UInt8}
    {exts : List SalExt} (shaped : Shaped ids protocol exts payload packet)
    (parsed : servalSalParseHdr packet .all = .ok (0, ctx)) :
    SalSplit packet exts := by
  obtain ⟨-, -, behind, length, total⟩ := Framed.parts shaped
  obtain ⟨found, split, -⟩ := SalSplit.of_parse parsed (by omega)
  have row := split.bytes
  rw [behind, length, Nat.add_sub_cancel_left, List.take_left] at row
  rw [SalExt.join_injective row]
  exact split

theorem sources_aside {before after : List SalExt} {src : SalExt} (kind : src.kind = .source)
    (single : SalExt.count .source (before ++ src :: after) ≤ 1) :
    (∀ e ∈ before, e.kind ≠ .source) ∧ ∀ e ∈ after, e.kind ≠ .source := by
  rw [SalExt.count, List.countP_append, List.countP_cons_of_pos (by simpa using kind)] at single
  have left := List.countP_eq_zero.mp
    (show before.countP (fun e => decide (e.kind = .source)) = 0 by omega)
  have right := List.countP_eq_zero.mp
    (show after.countP (fun e => decide (e.kind = .source)) = 0 by omega)
  exact ⟨fun e member => by simpa using left e member,
    fun e member => by simpa using right e member⟩

private theorem Noted.insertsOnly {saddr daddr payload : List UInt8}
    {exts exts' : List SalExt} {ctx' : SalContext}
    (noted : Noted saddr daddr exts exts')
    (single : SalExt.count .source exts ≤ 1)
    (here : packet.drop 12 = SalExt.join exts ++ payload)
    (here' : packet'.drop 12 = SalExt.join exts' ++ payload)
    (described : Describes (SalExt.placed 12 exts) ctx)
    (described' : Describes (SalExt.placed 12 exts') ctx') :
    InsertsOnly packet ctx packet' ctx' := by
  cases noted with
  | @first _ src absent kind length addrs =>
    refine ⟨SalExt.join exts, [], payload, src, here, ?_, kind,
      described'.srcExt_some kind absent (by simp),
      .inl ⟨described.srcExt_none absent, rfl⟩⟩
    rw [here', join_snoc, List.append_assoc]
  | @another before after src src' kind kind' length addrs =>
    obtain ⟨left, right⟩ := sources_aside kind single
    refine ⟨SalExt.join before, src.bytes, SalExt.join after ++ payload, src', ?_, ?_, kind',
      described'.srcExt_some kind' left right,
      .inr ⟨described.srcExt_some kind left right, src, kind, rfl⟩⟩
    · rw [here, join_split]
      simp only [List.append_assoc]
    · rw [here', join_split]
      simp only [List.append_assoc]

private theorem InsertsOnly.not_wrapped {tail : List UInt8} {ctx' : SalContext}
    {place : Nat} {src : SalExt} {first : UInt8}
    (only : InsertsOnly packet ctx packet' ctx')
    (pointer : ctx.srcExt = some (12 + place)) (kind : src.kind = .source)
    (wraps : 255 < src.bytes.length + 4)
    (wrapped :
      packet'.drop (12 + place) =
        extHdr [first] .source (src.bytes.length + 4) ++ tail) : False := by
  obtain ⟨lead, old, rest, new, -, after, newKind, -, before⟩ := only
  rcases before with ⟨none, -⟩ | ⟨some, -⟩
  · rw [none] at pointer
    cases pointer
  rw [some, Option.some_inj] at pointer
  have start : place = lead.length := by omega
  rw [start, ← List.drop_drop, after, List.drop_left] at wrapped
  obtain ⟨-, stated⟩ := SalExt.sized_of_append wrapped.symm
      (salExtType_extHdr [first] .source) (by decide)
  have small := SalExt.length_lt (show src.kind ≠ .pad by
    rw [kind]
    decide)
  have least := new.least
  rw [newKind] at least
  simp only [leastLength] at least
  rw [UInt8.toNat_ofNat'] at stated
  omega

def NeedsCopy (skb : LinearSkb) (front ip : List UInt8) (exts : List SalExt) :
    Prop :=
  front.length < sourceGrowth exts + ip.length + skb.hardHeaderLen

section

variable {skb : LinearSkb} {ctx : SalContext} {front ip packet post : List UInt8}
  {exts : List SalExt} {copied : Bool} {fresh : Option (Nat → UInt8)}

theorem staysWellFormed_of_fits (holds : skb.Holds front ip packet post) (header : 20 ≤ ip.length)
    (parsed : servalSalParseHdr skb.sal .all = .ok (0, ctx))
    (whole : salLength packet ≤ packet.length)
    (split : SalSplit packet exts) (unseen : Unseen ip exts)
    (fits : FitsOnward exts)
    (place :
      ¬ NeedsCopy skb front ip exts ∨ fresh.isSome = true ∧ (copied = true ∨ ctx.srcExt = none)) :
    StaysWellFormed skb ctx copied fresh ip packet := by
  have accepted := SalSplit.accepted holds header split whole parsed
  obtain ⟨before, after, insertion⟩ := accepted.insertion fits.source
  rw [NeedsCopy, not_lt] at place
  obtain ⟨front', skb', packet', post', run, holds', inserted⟩ := insertion.of_place place
  obtain ⟨exts', noted, shaped⟩ := accepted.shaped_of_inserted fits.toRoomForOne inserted
  have taas : SalExt.count .taas exts' ≤ 1 := by
    rw [noted.count_of_ne (by decide)]
    exact split.taas
  obtain ⟨split', -, whole'⟩ := Shaped.split shaped (by rw [noted.length]; exact fits.extensions)
    (by rw [noted.count_of_ne (by decide)]; exact split.controls)
    (by rw [noted.count_of_ne (by decide)]; exact split.services)
    (by rw [noted.count_source split.sources]) taas
  obtain ⟨ctx', parsed', -, described'⟩ := split'.parse whole'
  obtain ⟨-, -, here', -, -⟩ := Framed.parts shaped
  obtain ⟨-, -, here, -, -⟩ := Framed.parts (Shaped.of_split split whole)
  refine ⟨_, skb', (accepted.run_unseen unseen copied fresh).trans run,
    .inr ⟨Int.natCast_nonneg _, front', packet', post', ctx', holds', whole', parsed',
      noted.insertsOnly split.sources here here' accepted.described
        described', ?_⟩⟩
  intro authenticator
  obtain ⟨sal, updated, -⟩ := Shaped.updateTaas shaped taas authenticator []
  rw [List.append_nil, List.append_nil] at updated
  exact ⟨sal, updated⟩

/-- A packet that comes out well formed had room in all its counters. -/
theorem fits_of_staysWellFormed (holds : skb.Holds front ip packet post) (header : 20 ≤ ip.length)
    (parsed : servalSalParseHdr skb.sal .all = .ok (0, ctx))
    (whole : salLength packet ≤ packet.length)
    (split : SalSplit packet exts) (unseen : Unseen ip exts)
    (place :
      ¬ NeedsCopy skb front ip exts ∨ fresh.isSome = true ∧ (copied = true ∨ ctx.srcExt = none))
    (stays : StaysWellFormed skb ctx copied fresh ip packet) :
    FitsOnward exts := by
  have accepted := SalSplit.accepted holds header split whole parsed
  have same := accepted.run_unseen unseen copied fresh
  rw [NeedsCopy, not_lt] at place
  obtain ⟨ret, skb', run, outcome⟩ := stays
  rw [same] at run
  have inserts {lead rest : List UInt8} {P : List UInt8 → Prop}
      (insertion :
        Insertion skb ctx front ip lead rest post (sourceGrowth exts)
          (sourceLength exts) P) :
      ∃ packet' ctx', P packet' ∧ salLength packet' ≤ packet'.length ∧
        servalSalParseHdr packet' .all = .ok (0, ctx') ∧ InsertsOnly packet ctx packet' ctx' := by
    obtain ⟨front₁, skb₁, packet₁, post₁, run₁, holds₁, good⟩ := insertion.of_place place
    rw [run] at run₁
    cases run₁
    rcases outcome with ⟨negative, -⟩ | ⟨-, front', packet', post', ctx', holds', whole', parsed',
      only, -⟩
    · omega
    · rw [← holds₁.packet_unique holds'] at good
      exact ⟨packet', ctx', good, whole', parsed', only⟩
  have source : ∀ src ∈ exts, src.kind = .source → src.bytes.length + 4 ≤ 255 := by
    intro src member kind
    by_contra wraps
    obtain ⟨before, after, rfl⟩ := List.append_of_mem member
    obtain ⟨left, right⟩ := sources_aside kind split.sources
    obtain ⟨lead, rest, insertion⟩ := accepted.insertion_overflow kind left right (by omega)
    obtain ⟨packet', ctx', ⟨first, tail, wrapped⟩, -, -, only⟩ := inserts insertion
    exact only.not_wrapped (accepted.srcExt_some kind left right) kind (by omega) wrapped
  obtain ⟨before, after, insertion⟩ := accepted.insertion source
  obtain ⟨packet', ctx', inserted, whole', parsed', -⟩ := inserts insertion
  have short : 12 + (SalExt.join exts).length + sourceGrowth exts ≤ 1020 := by
    by_contra long
    obtain ⟨exts', noted, reset⟩ := inserted
    obtain ⟨-, -, size, shl, -, -, words, -⟩ := accepted.packet
    have grown := noted.length_join
    have growth := sourceGrowth_cases exts
    have byte := shl.toNat_lt
    obtain ⟨found, split', -⟩ := SalSplit.of_parse parsed' whole'
    have base := split'.base
    rw [reset, salLength_salPacket size, UInt8.toNat_ofNat'] at base
    omega
  obtain ⟨exts', noted, shaped⟩ := accepted.shaped_of_inserted ⟨source, short⟩ inserted
  have split' := Shaped.split_of_parse shaped parsed'
  refine ⟨⟨source, short⟩, ?_⟩
  rw [← noted.length]
  exact split'.room

/-- For every accepted packet: it is refused and left alone, or its header
comes out well formed, exactly if the destination is one of its addresses, or
there is no memory for a copy that is needed, or all counters have room and
the source extension is not read in a buffer that was freed. -/
theorem addSource_staysWellFormed_iff
    (holds : skb.Holds front ip packet post) (header : 20 ≤ ip.length)
    (parsed : servalSalParseHdr skb.sal .all = .ok (0, ctx))
    (whole : salLength packet ≤ packet.length)
    (split : SalSplit packet exts) :
    StaysWellFormed skb ctx copied fresh ip packet ↔ ¬ Unseen ip exts ∨
      NeedsCopy skb front ip exts ∧ fresh = none ∨
      (NeedsCopy skb front ip exts → copied = true ∨ ctx.srcExt = none) ∧ FitsOnward exts := by
  have accepted := SalSplit.accepted holds header split whole parsed
  by_cases unseen : Unseen ip exts
  case neg =>
    refine ⟨fun _ => .inl unseen, fun _ => ?_⟩
    exact ⟨-1, skb, accepted.run_seen unseen copied fresh, .inl ⟨by decide, rfl⟩⟩
  by_cases full : NeedsCopy skb front ip exts ∧ fresh = none
  · refine ⟨fun _ => .inr (.inl full), fun _ => ?_⟩
    obtain ⟨tight, rfl⟩ := full
    obtain ⟨skb', run, same⟩ := @LinearSkb.Holds.insert_of_full skb ctx front ip post _
        (sourceLength exts) packet holds tight copied
    exact ⟨-ENOMEM, skb', (accepted.run_unseen unseen copied none).trans run,
      .inl ⟨by decide, same⟩⟩
  · have copy (tight : NeedsCopy skb front ip exts) : fresh.isSome = true :=
      Option.isSome_iff_ne_none.mpr fun none => full ⟨tight, none⟩
    have place (readable : NeedsCopy skb front ip exts → copied = true ∨ ctx.srcExt = none) :
        ¬ NeedsCopy skb front ip exts ∨
          fresh.isSome = true ∧ (copied = true ∨ ctx.srcExt = none) := by
      by_cases tight : NeedsCopy skb front ip exts
      · exact .inr ⟨copy tight, readable tight⟩
      · exact .inl tight
    constructor
    · intro stays
      have readable : NeedsCopy skb front ip exts → copied = true ∨ ctx.srcExt = none := by
        intro tight
        by_contra freed
        obtain ⟨own, given⟩ := not_or.mp freed
        obtain ⟨content, rfl⟩ := Option.isSome_iff_exists.mp (copy tight)
        obtain ⟨ret, skb', run, -⟩ := stays
        rw [accepted.run_unseen unseen, Bool.eq_false_of_not_eq_true own,
          holds.insert_of_freed tight content given] at run
        cases run
      exact .inr (.inr ⟨readable, fits_of_staysWellFormed holds header parsed
        whole split unseen (place readable) stays⟩)
    · rintro (seen | none | ⟨readable, fits⟩)
      · exact absurd unseen seen
      · exact absurd none full
      · exact staysWellFormed_of_fits holds header parsed whole split unseen fits (place readable)

end

theorem addSource_staysWellFormed_iff_taas :
    ∃ ctx, servalSalParseHdr sampleSkb.sal .all = .ok (0, ctx) ∧
      StaysWellFormed sampleSkb ctx false none sampleIp taasPacket := by
  obtain ⟨holds, whole, split, -, fits, ctx, read⟩ := sampleSkb_parsed
  have roomy : ¬ NeedsCopy sampleSkb (List.replicate 64 0) sampleIp taasExts := by
    unfold NeedsCopy
    decide
  exact ⟨ctx, read, (addSource_staysWellFormed_iff holds (by decide) read whole split).mpr
      (.inr (.inr ⟨fun tight => absurd tight roomy, fits⟩))⟩

def fullSkb : LinearSkb :=
  let packet : List UInt8 := List.replicate 8 1 ++
      ([66, 6, 0, 0] ++ ([0x40, 252, 0, 0] ++ List.replicate 248 1))
  { mem := List.replicate 64 0 ++ (sampleIp ++ packet)
    data := 84
    tail := 84 + packet.length
    networkHeader := 64
    transportHeader := 84
    hardHeaderLen := 14 }

/-- One address more makes the length of the extension zero: the parser
refuses the header that comes out, and the walk for the authenticator does not
end. -/
theorem fullSkb_malformed : leaves (do
        let (ret, ctx) ← servalSalParseHdr fullSkb.sal .all
        let (added, skb) ← servalSalAddSourceExt fullSkb ctx false none
        let (again, _) ← servalSalParseHdr skb.sal .all
        .ok (ret, added, again, servalSalUpdateTaasExt skb.sal 7))
      (fun (ret, added, again, updated) =>
        ret = 0 && added = 4 && again < 0 &&
          match updated with
          | .error .fuel => true
          | _ => false) = true := by
  decide +kernel

end Serval
