import Serval.Sal.Sources

/-!
# Noting the destination

`serval_sal_add_source_ext` refuses a packet whose destination is among its
addresses already. Otherwise, as long as the lengths fit, it appends the
destination and changes no other extension.
-/

namespace Serval

open Serval.Support

/-- The packet has these flow ids and protocol, a row of extension bytes that
its length field fits, and the payload behind. -/
structure Framed (ids : List UInt8) (protocol : UInt8) (row payload packet : List UInt8) :
    Prop where
  size : ids.length = 8
  form :
    ∃ shl check, check.length = 2 ∧ 4 * shl.toNat = 12 + row.length ∧
      packet = salPacket ids shl protocol check (row ++ payload)

abbrev Shaped
    (ids : List UInt8) (protocol : UInt8) (exts : List SalExt)
    (payload packet : List UInt8) : Prop :=
  Framed ids protocol (SalExt.join exts) payload packet

def ResetTo (ids : List UInt8) (protocol : UInt8) (exts : List SalExt)
    (payload packet : List UInt8) : Prop :=
  packet = salPacket ids (UInt8.ofNat ((12 + (SalExt.join exts).length) / 4)) protocol
      [0, 0] (SalExt.join exts ++ payload)

theorem Framed.of_reset {ids row payload : List UInt8} {total : Nat} (size : ids.length = 8)
    (protocol : UInt8) (length : total = 12 + row.length)
    (words : total % 4 = 0) (short : total ≤ 1020) :
    Framed ids protocol row payload
      (salPacket ids (UInt8.ofNat (total / 4)) protocol [0, 0] (row ++ payload)) := by
  refine ⟨size, UInt8.ofNat (total / 4), [0, 0], rfl, ?_, rfl⟩
  rw [UInt8.toNat_ofNat_of_lt' (by show _ < 256; omega)]
  omega

variable {exts : List SalExt} {src : SalExt}

theorem ResetTo.shaped {ids payload packet : List UInt8} {protocol : UInt8}
    (reset : ResetTo ids protocol exts payload packet) (size : ids.length = 8)
    (words : (12 + (SalExt.join exts).length) % 4 = 0)
    (short : 12 + (SalExt.join exts).length ≤ 1020) :
    Shaped ids protocol exts payload packet := by
  rw [reset]
  exact Framed.of_reset size protocol rfl words short

theorem join_snoc (exts : List SalExt) (e : SalExt) :
    SalExt.join (exts ++ [e]) = SalExt.join exts ++ e.bytes := by
  simp [SalExt.join]

theorem join_split (before after : List SalExt) (e : SalExt) : SalExt.join (before ++ e :: after) =
      SalExt.join before ++ (e.bytes ++ SalExt.join after) := by
  rw [SalExt.join_append]
  rfl

section

variable {ids check payload saddr daddr : List UInt8} {shl protocol : UInt8}
  {exts : List SalExt} {ctx : SalContext}

theorem fill_first (size : ids.length = 8) (checkSize : check.length = 2)
    (none : ctx.srcExt = none) (noSource : ∀ e ∈ exts, e.kind ≠ .source)
    (length : ctx.length.toNat = 12 + (SalExt.join exts).length)
    (source : saddr.length = 4) (destination : daddr.length = 4)
    (post gap : List UInt8) (gapSize : gap.length = 12) :
    ∃ packet', fillGap
          ((salPacket ids shl protocol check (SalExt.join exts) ++ (gap ++ payload)) ++ post)
          saddr daddr ctx 12 12 =
        .ok (packet' ++ post) ∧
      packet'.length = (salPacket ids shl protocol check (SalExt.join exts) ++
          payload).length + 12 ∧
      ∃ exts', Noted saddr daddr exts exts' ∧ ResetTo ids protocol exts' payload packet' := by
  obtain ⟨src, kind, bytes, addrs⟩ := exists_newSource gapSize source destination
  have srcLength := length_newSourceExt gapSize source destination
  have joined := join_snoc exts src
  have filled := @fillGap_new _ _ _ size checkSize shl protocol (SalExt.join exts) gap
      saddr daddr (payload ++ post) none length gapSize source destination
  have total : 12 + (SalExt.join exts).length + 12 = 12 + (SalExt.join (exts ++ [src])).length := by
    rw [joined, List.length_append, bytes, srcLength, Nat.add_assoc]
  refine ⟨salPacket ids (UInt8.ofNat ((12 + (SalExt.join exts).length + 12) / 4))
      protocol [0, 0] (SalExt.join (exts ++ [src]) ++ payload), ?_, ?_,
      exts ++ [src], ?_, ?_⟩
  · rw [← bytes] at filled
    rw [salPacket_append, salPacket_append, salPacket_append, joined]
    simp only [List.append_assoc] at filled ⊢
    exact filled
  · rw [salPacket_append, length_salPacket size checkSize, length_salPacket size rfl, joined, bytes]
    simp only [List.length_append, srcLength]
    omega
  · exact .first noSource kind (by rw [bytes, srcLength]) addrs
  · rw [ResetTo, total]

theorem fill_another {before after : List SalExt} {src : SalExt} {first len : UInt8}
    {body spare : List UInt8}
    (size : ids.length = 8) (checkSize : check.length = 2)
    (kind : src.kind = .source) (cut : SourceCut src first len body spare)
    (pointer : ctx.srcExt = some (12 + (SalExt.join before).length))
    (length : ctx.length.toNat = 12 + (SalExt.join (before ++ src :: after)).length)
    (fits : src.bytes.length + 4 ≤ 255) (destination : daddr.length = 4)
    (post gap : List UInt8) (gapSize : gap.length = 4) :
    ∃ packet', fillGap
          ((salPacket ids shl protocol check (SalExt.join before ++ (first :: len :: body)) ++
              (gap ++ (spare ++ (SalExt.join after ++ payload)))) ++ post)
          saddr daddr ctx 4 (src.bytes.length + 4) =
        .ok (packet' ++ post) ∧
      packet'.length = (salPacket ids shl protocol check
          (SalExt.join before ++ (first :: len :: body)) ++
            (spare ++ (SalExt.join after ++ payload))).length + 4 ∧
      ∃ exts', Noted saddr daddr (before ++ src :: after) exts' ∧
        ResetTo ids protocol exts' payload packet' := by
  have least := src.least
  rw [kind] at least
  have least : 12 ≤ src.bytes.length := least
  obtain ⟨src', kind', bytes', addrs⟩ := cut.appended least fits destination rfl
  have total := congrArg List.length cut.bytes
  simp only [List.length_cons, List.length_append] at total
  have srcLength : src'.bytes.length = src.bytes.length + 4 := by
    rw [bytes']
    simp only [List.length_append, destination, extHdr, List.length_cons, List.length_nil]
    omega
  have grown : (SalExt.join (before ++ src' :: after)).length =
        (SalExt.join (before ++ src :: after)).length + 4 := by
    simp only [join_split, List.length_append, srcLength]
    omega
  have filled := @fillGap_append _ _ ctx size checkSize shl protocol (SalExt.join before)
      body gap daddr first len saddr
      (spare ++ (SalExt.join after ++ (payload ++ post)))
      (src.bytes.length + 4) pointer gapSize destination (by omega)
      (by omega) (by have := cut.addresses; omega)
  refine ⟨salPacket ids (UInt8.ofNat ((ctx.length.toNat + 4) / 4))
      protocol [0, 0] (SalExt.join (before ++ src' :: after) ++ payload), ?_,
      ?_, before ++ src' :: after, ?_, ?_⟩
  · rw [salPacket_append, salPacket_append, salPacket_append, join_split, bytes']
    simp only [List.append_assoc, List.cons_append] at filled ⊢
    exact filled
  · rw [salPacket_append, length_salPacket size checkSize, length_salPacket size rfl, join_split]
    simp only [List.length_append, List.length_cons]
    omega
  · exact .another kind kind' srcLength addrs
  · rw [ResetTo, length, grown, Nat.add_assoc]

end

def sourceGrowth (exts : List SalExt) : Nat :=
  if SalExt.count .source exts = 0 then 12 else 4

def sourceLength (exts : List SalExt) : Nat :=
  ((exts.find? fun e => e.kind = .source).map fun src => src.bytes.length + 4).getD 12

structure Accepted (skb : LinearSkb) (ctx : SalContext) (front ip post ids : List UInt8)
    (protocol : UInt8) (exts : List SalExt) (payload : List UInt8) :
    Prop where
  packet : ∃ packet, skb.Holds front ip packet post ∧ Shaped ids protocol exts payload packet
  described : Describes (SalExt.placed 12 exts) ctx
  length : ctx.length.toNat = 12 + (SalExt.join exts).length
  sources : SalExt.count .source exts ≤ 1
  header : 20 ≤ ip.length

/-- The own address is in no source extension. -/
def Unseen (ip : List UInt8) (exts : List SalExt) : Prop :=
  ∀ src ∈ exts, src.kind = .source → (ip.drop 16).take 4 ∉ src.addrs

structure RoomForOne (exts : List SalExt) : Prop where
  source : ∀ src ∈ exts, src.kind = .source → src.bytes.length + 4 ≤ 255
  header : 12 + (SalExt.join exts).length + sourceGrowth exts ≤ 1020

def NotedIn (skb : LinearSkb) (ip ids : List UInt8) (protocol : UInt8)
    (exts : List SalExt) (payload : List UInt8) : Prop :=
  ∃ front' packet' post' exts', skb.Holds front' ip packet' post' ∧
    Noted ((ip.drop 12).take 4) ((ip.drop 16).take 4) exts exts' ∧
    Shaped ids protocol exts' payload packet'

def InsertedIn (ip ids : List UInt8) (protocol : UInt8) (exts : List SalExt)
    (payload packet' : List UInt8) : Prop :=
  ∃ exts', Noted ((ip.drop 12).take 4) ((ip.drop 16).take 4) exts exts' ∧
    ResetTo ids protocol exts' payload packet'

theorem length_ip_field {ip : List UInt8} {start : Nat} (inside : start + 4 ≤ ip.length) :
    ((ip.drop start).take 4).length = 4 := by
  rw [List.length_take, List.length_drop]
  omega

theorem count_eq_zero_of_none {kind : SalExtType}
    (none : ∀ e ∈ exts, e.kind ≠ kind) : SalExt.count kind exts = 0 :=
  List.countP_eq_zero.mpr fun e member => by simpa using none e member

theorem count_source_ne_zero (member : src ∈ exts) (kind : src.kind = .source) :
    SalExt.count .source exts ≠ 0 :=
  Nat.pos_iff_ne_zero.mp
    (List.countP_pos_iff.mpr ⟨src, member, by simpa using kind⟩)

theorem sourceGrowth_of_source (member : src ∈ exts)
    (kind : src.kind = .source) : sourceGrowth exts = 4 :=
  if_neg (count_source_ne_zero member kind)

theorem sourceGrowth_cases (exts : List SalExt) :
    sourceGrowth exts = 12 ∨ sourceGrowth exts = 4 := by
  rw [sourceGrowth]
  split_ifs
  · exact .inl rfl
  · exact .inr rfl

theorem sourceGrowth_of_none (absent : ∀ e ∈ exts, e.kind ≠ .source) : sourceGrowth exts = 12 :=
  if_pos (count_eq_zero_of_none absent)

theorem sourceLength_of_none (absent : ∀ e ∈ exts, e.kind ≠ .source) : sourceLength exts = 12 := by
  have none : (exts.find? fun e => e.kind = .source) = none :=
    List.find?_eq_none.mpr fun e member => by simpa using absent e member
  rw [sourceLength, none]
  rfl

theorem sourceLength_of_source {before after : List SalExt}
    (left : ∀ e ∈ before, e.kind ≠ .source) (kind : src.kind = .source) :
    sourceLength (before ++ src :: after) = src.bytes.length + 4 := by
  have none : (before.find? fun e => e.kind = .source) = none :=
    List.find?_eq_none.mpr fun e member => by simpa using left e member
  rw [sourceLength, List.find?_append, none, List.find?_cons_of_pos (by simpa using kind)]
  rfl

theorem Noted.length_join {saddr daddr : List UInt8} {exts' : List SalExt}
    (noted : Noted saddr daddr exts exts') :
    (SalExt.join exts').length = (SalExt.join exts).length + sourceGrowth exts := by
  cases noted with
  | first none isSource length addrs =>
    rw [sourceGrowth_of_none none, join_snoc, List.length_append, length]
  | another isSource isSource' length addrs =>
    rw [sourceGrowth_of_source (List.mem_append_right _ List.mem_cons_self) isSource, join_split,
      join_split]
    simp only [List.length_append, length]
    omega

theorem Describes.srcExt_none {ctx : SalContext} (described : Describes (SalExt.placed 12 exts) ctx)
    (absent : ∀ e ∈ exts, e.kind ≠ .source) : ctx.srcExt = none := by
  rw [described.srcExt, SalExt.ofKind_of_none absent]
  rfl

theorem Describes.srcExt_some {ctx : SalContext} {before after : List SalExt}
    (described : Describes (SalExt.placed 12 (before ++ src :: after)) ctx)
    (kind : src.kind = .source) (left : ∀ e ∈ before, e.kind ≠ .source)
    (right : ∀ e ∈ after, e.kind ≠ .source) :
    ctx.srcExt = some (12 + (SalExt.join before).length) := by
  rw [described.srcExt, SalExt.ofKind_of_single kind left right]
  rfl

section

variable {skb : LinearSkb} {ctx : SalContext} {front ip post ids : List UInt8}
  {protocol : UInt8} {exts : List SalExt} {payload : List UInt8}

section

variable (accepted : Accepted skb ctx front ip post ids protocol exts payload)

include accepted

theorem Accepted.daddr : skb.ipDaddr = .ok ((ip.drop 16).take 4) := by
  obtain ⟨packet, holds, -⟩ := accepted.packet
  have header := accepted.header
  exact holds.ip_field (show 16 + 4 ≤ ip.length by omega)

variable (absent : ∀ e ∈ exts, e.kind ≠ .source)

include absent

theorem Accepted.srcExt_none : ctx.srcExt = none := accepted.described.srcExt_none absent

theorem Accepted.run_first (copied : Bool) (fresh : Option (Nat → UInt8)) :
    servalSalAddSourceExt skb ctx copied fresh =
      insertSourceExt skb ctx copied fresh 12 12 := by
  rw [servalSalAddSourceExt, accepted.daddr, ok_bind, servalSalSourceExtCheck,
    accepted.srcExt_none absent]
  rfl

theorem Accepted.insertion_first :
    ∃ before after, Insertion skb ctx front ip before after post 12 12
        (InsertedIn ip ids protocol exts payload) := by
  have header := accepted.header
  have length := accepted.length
  have pointer := accepted.srcExt_none absent
  obtain ⟨packet, holds, size, shl, check, checkSize, words, form⟩ := accepted.packet
  rw [form, ← salPacket_append] at holds
  refine ⟨_, _, holds, header, ?_, ?_⟩
  · rw [insertionPoint, pointer, length_salPacket size checkSize]
    exact congrArg Except.ok length
  · exact fill_first size checkSize pointer absent length
      (length_ip_field (by omega)) (length_ip_field (by omega))

end

section

variable {before after : List SalExt} {src : SalExt}
  (accepted : Accepted skb ctx front ip post ids protocol (before ++ src :: after) payload)
  (kind : src.kind = .source)

include accepted kind

/-- The packet cut behind the last address, which is where the next one is
inserted. -/
theorem Accepted.cut (pointer : ctx.srcExt = some (12 + (SalExt.join before).length)) :
    ∃ shl check first len body spare, ids.length = 8 ∧ check.length = 2 ∧
      4 * shl.toNat = 12 + (SalExt.join (before ++ src :: after)).length ∧
      SourceCut src first len body spare ∧
      skb.Holds front ip
        (salPacket ids shl protocol check (SalExt.join before ++ (first :: len :: body)) ++
          (spare ++ (SalExt.join after ++ payload))) post ∧
      insertionPoint
          ((salPacket ids shl protocol check (SalExt.join before ++ (first :: len :: body)) ++
            (spare ++ (SalExt.join after ++ payload))) ++ post) ctx false =
        .ok
          (salPacket ids shl protocol check
            (SalExt.join before ++ (first :: len :: body))).length := by
  have least := src.least
  rw [kind] at least
  obtain ⟨first, len, body, spare, cut⟩ := exists_sourceCut kind
  obtain ⟨packet, holds, size, shl, check, checkSize, words, form⟩ := accepted.packet
  have here : (packet ++ post).drop (12 + (SalExt.join before).length) =
        src.bytes ++ (SalExt.join after ++ (payload ++ post)) := by
    rw [form, join_split, salPacket_append, ← length_salPacket size checkSize shl protocol]
    simp only [List.append_assoc]
    rw [← salPacket_append, List.drop_left]
  have point := cut.insertionPoint least here pointer
  have parts : packet = salPacket ids shl protocol check
            (SalExt.join before ++ (first :: len :: body)) ++
          (spare ++ (SalExt.join after ++ payload)) := by
    rw [form, join_split, cut.bytes, salPacket_append]
    simp only [List.append_assoc, List.cons_append]
  rw [parts] at holds point
  refine ⟨shl, check, first, len, body, spare, size, checkSize, words, cut, holds, ?_⟩
  rw [point, length_salPacket size checkSize, List.length_append]
  simp only [List.length_cons]
  congr 1
  omega

variable (left : ∀ e ∈ before, e.kind ≠ .source) (right : ∀ e ∈ after, e.kind ≠ .source)

include left right

theorem Accepted.srcExt_some : ctx.srcExt = some (12 + (SalExt.join before).length) :=
  accepted.described.srcExt_some kind left right

theorem Accepted.run_another (copied : Bool) (fresh : Option (Nat → UInt8)) :
    servalSalAddSourceExt skb ctx copied fresh =
      if (ip.drop 16).take 4 ∈ src.addrs then .ok (-1, skb)
      else insertSourceExt skb ctx copied fresh 4 (src.bytes.length + 4) := by
  have pointer := accepted.srcExt_some kind left right
  obtain ⟨packet, holds, shaped⟩ := accepted.packet
  obtain ⟨shl, check, checkSize, -, form⟩ := shaped.form
  have here : skb.sal.drop (12 + (SalExt.join before).length) =
        src.bytes ++ (SalExt.join after ++ (payload ++ post)) := by
    rw [holds.sal_eq, form, join_split, salPacket_append,
      ← length_salPacket shaped.size checkSize shl protocol]
    simp only [List.append_assoc]
    rw [← salPacket_append, List.drop_left]
  obtain ⟨length, read, same⟩ := SalExt.readLength here (by rw [kind]; decide)
  rw [servalSalAddSourceExt, accepted.daddr, ok_bind, servalSalSourceExtCheck_eq here pointer kind,
    ok_bind]
  by_cases seen : (ip.drop 16).take 4 ∈ src.addrs
  · rw [if_pos seen, if_pos seen]
  · rw [if_neg seen, if_neg seen]
    simp only [pointer, Option.getD_some, read, ok_bind, same]

theorem Accepted.insertion_another (fits : src.bytes.length + 4 ≤ 255) :
    ∃ lead rest, Insertion skb ctx front ip lead rest post 4 (src.bytes.length + 4)
        (InsertedIn ip ids protocol (before ++ src :: after) payload) := by
  have header := accepted.header
  have pointer := accepted.srcExt_some kind left right
  obtain ⟨shl, check, first, len, body, spare, size, checkSize, -, cut, holds,
    point⟩ := accepted.cut kind pointer
  refine ⟨_, _, holds, header, point, ?_⟩
  exact fill_another size checkSize kind cut pointer accepted.length fits
    (length_ip_field (by omega))

end

variable (accepted : Accepted skb ctx front ip post ids protocol exts payload)

include accepted

theorem Accepted.shaped_of_inserted (room : RoomForOne exts) {packet' : List UInt8}
    (inserted : InsertedIn ip ids protocol exts payload packet') :
    ∃ exts', Noted ((ip.drop 12).take 4) ((ip.drop 16).take 4) exts exts' ∧
      Shaped ids protocol exts' payload packet' := by
  obtain ⟨exts', noted, reset⟩ := inserted
  obtain ⟨packet, -, size, shl, -, -, words, -⟩ := accepted.packet
  have grown := noted.length_join
  have growth := sourceGrowth_cases exts
  have short := room.header
  exact ⟨exts', noted, reset.shaped size (by omega) (by omega)⟩

theorem Accepted.run_unseen (unseen : Unseen ip exts) (copied : Bool)
    (fresh : Option (Nat → UInt8)) :
    servalSalAddSourceExt skb ctx copied fresh =
      insertSourceExt skb ctx copied fresh (sourceGrowth exts)
        (sourceLength exts) := by
  rcases SalExt.none_or_single accepted.sources with absent | single
  · rw [sourceGrowth_of_none absent, sourceLength_of_none absent]
    exact accepted.run_first absent copied fresh
  obtain ⟨before, src, after, rfl, kind, left, right⟩ := single
  have member : src ∈ before ++ src :: after := List.mem_append_right _ List.mem_cons_self
  rw [sourceGrowth_of_source member kind, sourceLength_of_source left kind,
    accepted.run_another kind left right,
    if_neg (unseen src member kind)]

/-- The insertion, if a source extension that is there can count one address
more. -/
theorem Accepted.insertion (fits : ∀ src ∈ exts, src.kind = .source → src.bytes.length + 4 ≤ 255) :
    ∃ before after, Insertion skb ctx front ip before after post (sourceGrowth exts)
        (sourceLength exts) (InsertedIn ip ids protocol exts payload) := by
  rcases SalExt.none_or_single accepted.sources with absent | single
  · rw [sourceGrowth_of_none absent, sourceLength_of_none absent]
    exact accepted.insertion_first absent
  · obtain ⟨before, src, after, rfl, kind, left, right⟩ := single
    have member : src ∈ before ++ src :: after := List.mem_append_right _ List.mem_cons_self
    rw [sourceGrowth_of_source member kind, sourceLength_of_source left kind]
    exact accepted.insertion_another kind left right (fits src member kind)

/-- A packet that has not been here and has room for the address is passed on
with the destination noted. -/
theorem Accepted.addSource_of_room (unseen : Unseen ip exts) (room : RoomForOne exts)
    (headroom : sourceGrowth exts + ip.length + skb.hardHeaderLen ≤ front.length)
    (copied : Bool) (fresh : Option (Nat → UInt8)) :
    ∃ skb', servalSalAddSourceExt skb ctx copied fresh = .ok ((sourceGrowth exts : Int), skb') ∧
      NotedIn skb' ip ids protocol exts payload := by
  obtain ⟨before, after, insertion⟩ := accepted.insertion room.source
  obtain ⟨front', skb', packet', post', run, holds, inserted⟩ :=
    @Insertion.of_place skb ctx front ip before after post
      (sourceGrowth exts) (sourceLength exts)
      (InsertedIn ip ids protocol exts payload) insertion copied fresh
      (.inl headroom)
  obtain ⟨exts', noted, shaped⟩ := accepted.shaped_of_inserted room inserted
  exact ⟨skb', (accepted.run_unseen unseen copied fresh).trans run, front', packet', post', exts',
    holds, noted, shaped⟩

theorem Accepted.run_seen (seen : ¬ Unseen ip exts) (copied : Bool) (fresh : Option (Nat → UInt8)) :
    servalSalAddSourceExt skb ctx copied fresh = .ok (-1, skb) := by
  rcases SalExt.none_or_single accepted.sources with absent | single
  · exact absurd (fun src member kind => absurd kind (absent src member)) seen
  obtain ⟨before, src, after, rfl, kind, left, right⟩ := single
  rw [accepted.run_another kind left right, if_pos]
  by_contra unseen
  apply seen
  intro other member otherKind
  rcases List.mem_append.mp member with inLeft | inRight
  · exact absurd otherKind (left other inLeft)
  · rcases List.mem_cons.mp inRight with same | inRight
    · rw [same]
      exact unseen
    · exact absurd otherKind (right other inRight)

/-- A packet that is passed on has not been here, and if the address had room
it is noted. -/
theorem Accepted.addSource_inv {copied : Bool} {fresh : Option (Nat → UInt8)} {ret : Int}
    {skb' : LinearSkb}
    (run : servalSalAddSourceExt skb ctx copied fresh = .ok (ret, skb'))
    (success : 0 ≤ ret) :
    Unseen ip exts ∧
      (RoomForOne exts → ret = sourceGrowth exts ∧ NotedIn skb' ip ids protocol exts payload) := by
  have unseen : Unseen ip exts := by
    by_contra seen
    rw [accepted.run_seen seen] at run
    cases run
    exact absurd success (by decide)
  refine ⟨unseen, ?_⟩
  intro room
  obtain ⟨before, after, insertion⟩ := accepted.insertion room.source
  rw [accepted.run_unseen unseen] at run
  obtain ⟨value, front', packet', post', holds, inserted⟩ := insertion.inv run success
  obtain ⟨exts', noted, shaped⟩ := accepted.shaped_of_inserted room inserted
  exact ⟨value, front', packet', post', exts', holds, noted, shaped⟩

end

end Serval
