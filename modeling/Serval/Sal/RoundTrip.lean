import Serval.Sal.Accept
import Serval.Sal.Build
import Serval.Sal.Checksum

/-!
# From the sender to the receiver

A header that is built and checksummed is accepted by the parser, passes the
checksum wherever it comes to lie, and gives back what the sender put in.
-/

namespace Serval

open Serval.Support

def fieldAt (packet : List UInt8) (start size pointer : Nat) : List UInt8 :=
  (packet.drop (pointer + start)).take size

variable {packet rest : List UInt8} {offset : Nat}

theorem fieldAt_of_here {e : SalExt}
    (here : packet.drop offset = e.bytes ++ rest) {start size : Nat}
    (inside : start + size ≤ e.bytes.length) :
    fieldAt packet start size offset = e.field start size := by
  rw [fieldAt, SalExt.field, ← List.drop_drop, here, List.drop_append_of_le_length (by omega),
    List.take_append_of_le_length (by rw [List.length_drop]; omega)]

private theorem SalExt.ofKind_snd (kind : SalExtType) (offset : Nat) (exts : List SalExt) :
    (ofKind kind (placed offset exts)).map Prod.snd = select kind exts := by
  induction exts generalizing offset with
  | nil => rfl
  | cons e rest ih =>
    have tail := ih (offset + e.bytes.length)
    rw [ofKind, select] at tail ⊢
    by_cases same : e.kind = kind
    · simp [placed, same, tail]
    · simp [placed, same, tail]

/-- What is read at the pointers of one kind is what the extensions of that
kind hold. -/
theorem SalExt.ofKind_read {α : Type} {kind : SalExtType}
    {read : Nat → α} {view : SalExt → α} {exts : List SalExt}
    (local' : ∀ (e : SalExt) (rest : List UInt8) (offset : Nat), e.kind = kind →
        packet.drop offset = e.bytes ++ rest → read offset = view e)
    (here : packet.drop offset = join exts ++ rest) :
    (ofKind kind (placed offset exts)).map (fun entry => read entry.1) =
      (select kind exts).map view := by
  induction exts generalizing offset with
  | nil => rfl
  | cons e others ih =>
    have first : packet.drop offset = e.bytes ++ (join others ++ rest) := by
      rw [here, ← List.append_assoc]
      rfl
    have tail := @ih (offset + e.bytes.length) (by rw [← List.drop_drop, first, List.drop_left])
    rw [ofKind, select] at tail ⊢
    by_cases same : e.kind = kind
    · simp [placed, same, tail, local' e _ offset same first]
    · simp [placed, same, tail]

/-- The pointers of one kind lead to the fields of its extensions. -/
theorem SalExt.ofKind_field {kind : SalExtType} {start size : Nat}
    (inside : start + size ≤ leastLength kind) {exts : List SalExt}
    (here : packet.drop offset = join exts ++ rest) :
    (ofKind kind (placed offset exts)).map
        (fun entry => fieldAt packet start size entry.1) =
      (select kind exts).map (field start size) := by
  have local' (e : SalExt) (rest : List UInt8) (offset : Nat) (same : e.kind = kind)
      (first : packet.drop offset = e.bytes ++ rest) :
      fieldAt packet start size offset = e.field start size := by
    have least := e.least
    rw [same] at least
    exact fieldAt_of_here first (inside.trans least)
  exact ofKind_read local' here

/-! ## What the receiver gets -/

/-- What a receiver reads is what the socket had. -/
structure Carries (sk : SalSock) (cb : SalSkbCb) (authenticator : UInt64)
    (packet : List UInt8) (ctx : SalContext) : Prop where
  source : packet.take 4 = sk.localFlowid.toList
  destination : (packet.drop 4).take 4 = sk.peerFlowid.toList
  flags :
    ctx.flags =
      if isControl cb.flags then UInt16.ofNat (cb.flags.toNat % 64) else 0
  verno : ctx.verno = if isControl cb.flags then cb.verno else 0
  ackno : ctx.ackno = if isControl cb.flags then sk.rcvNxt else 0
  nonce :
    ctx.ctrlExt.map (fieldAt packet 12 8) =
      if isControl cb.flags then some sk.localNonce.toList else none
  peerSrvid :
    ctx.srvExt0.map (fieldAt packet 4 32) =
      if (isControl cb.flags ∧ namesService cb.flags) ∨ (¬ isControl cb.flags ∧ unconnected sk) then
        some sk.peerSrvid.toList
      else none
  localSrvid :
    ctx.srvExt1.map (fieldAt packet 4 32) =
      if ¬ isControl cb.flags ∧ unconnected sk then
        some sk.localSrvid.toList
      else none
  taas :
    (ctx.taasExt.map (fieldAt packet 4 8)).map
        (fun bytes => UInt64.ofNat (leNat bytes)) =
      if authenticator ≠ 0 then some authenticator else none

theorem SalExt.count_eq_select (kind : SalExtType) (exts : List SalExt) :
    count kind exts = (select kind exts).length :=
  List.countP_eq_length_filter ..

private theorem Describes.contents {exts : List SalExt} {ctx : SalContext}
    {controls : List (UInt16 × UInt32 × UInt32 × List UInt8)}
    {services authenticators : List (List UInt8)}
    (described : Describes (SalExt.placed offset exts) ctx)
    (here : packet.drop offset = SalExt.join exts ++ rest)
    (content : Contents exts controls services authenticators) :
    ctx.flags = (controls[0]?.map (·.1)).getD 0 ∧ ctx.verno = (controls[0]?.map (·.2.1)).getD 0 ∧
      ctx.ackno = (controls[0]?.map (·.2.2.1)).getD 0 ∧
      ctx.ctrlExt.map (fieldAt packet 12 8) = controls[0]?.map (·.2.2.2) ∧
      ctx.srvExt0.map (fieldAt packet 4 32) = services[0]? ∧
      ctx.srvExt1.map (fieldAt packet 4 32) = services[1]? ∧
      ctx.taasExt.map (fieldAt packet 4 8) = authenticators[0]? := by
  have pointed {kind : SalExtType} {start size : Nat}
      (inside : start + size ≤ leastLength kind) (index : Nat) :
      ((SalExt.ofKind kind (SalExt.placed offset exts))[index]?.map
          Prod.fst).map (fieldAt packet start size) =
        ((SalExt.select kind exts).map (SalExt.field start size))[index]? := by
    rw [← SalExt.ofKind_field inside here, List.getElem?_map, Option.map_map]
    rfl
  have viewed {α : Type} (view : SalExt → α) :
      (SalExt.ofKind .control (SalExt.placed offset exts))[0]?.map
          (fun entry => view entry.2) =
        (SalExt.select .control exts)[0]?.map view := by
    rw [← SalExt.ofKind_snd .control offset exts, List.getElem?_map, Option.map_map]
    rfl
  have control : (SalExt.select .control exts)[0]?.map SalExt.controlFields = controls[0]? := by
    rw [← content.ofControl, List.getElem?_map]
  rw [← control]
  refine ⟨?_, ?_, ?_, ?_, ?_, ?_, ?_⟩
  · rw [described.flags, viewed SalExt.flags, Option.map_map]
    rfl
  · rw [described.verno, viewed SalExt.verno, Option.map_map]
    rfl
  · rw [described.ackno, viewed SalExt.ackno, Option.map_map]
    rfl
  · rw [described.ctrlExt, pointed le_rfl, List.getElem?_map, Option.map_map]
    rfl
  · rw [described.srvExt0, pointed le_rfl, content.ofService]
  · rw [described.srvExt1, pointed le_rfl, content.ofService]
  · rw [described.taasExt, pointed le_rfl, content.ofTaas]

def salHead (sk : SalSock) (hdrLen : Nat) : List UInt8 :=
  sk.localFlowid.toList ++ (sk.peerFlowid.toList ++ [UInt8.ofNat (hdrLen / 4), sk.skProtocol])

private theorem salHdr_eq (old : List UInt8) (sk : SalSock) (hdrLen : Nat) :
    salHdr old sk hdrLen = salHead sk hdrLen ++ (old.drop 10).take 2 := by
  simp only [salHdr, salHead, List.append_assoc]

private theorem length_salHead (sk : SalSock) (hdrLen : Nat) : (salHead sk hdrLen).length = 10 := by
  simp [salHead]

private theorem salHead_shl (sk : SalSock) (hdrLen : Nat) :
    (salHead sk hdrLen).getD 8 0 = UInt8.ofNat (hdrLen / 4) := by
  simp [salHead]

def sentPacket (sk : SalSock) (check : List UInt8) (exts : List SalExt)
    (data : List UInt8) : List UInt8 :=
  salHead sk ((SalExt.join exts).length + 12) ++ (check ++ (SalExt.join exts ++ data))

section

variable {sk : SalSock} {check : List UInt8} {exts : List SalExt} {data : List UInt8}

private theorem drop_sentPacket (size : check.length = 2) :
    (sentPacket sk check exts data).drop 12 = SalExt.join exts ++ data := by
  have cut : 12 = 10 + 2 := rfl
  rw [sentPacket, cut, ← List.drop_drop, List.drop_left' (length_salHead ..), List.drop_left' size]

private theorem salLength_sentPacket (short : (SalExt.join exts).length ≤ 84)
    (whole : (SalExt.join exts).length % 4 = 0) :
    salLength (sentPacket sk check exts data) = (SalExt.join exts).length + 12 := by
  have shl : (sentPacket sk check exts data).getD 8 0 =
        UInt8.ofNat (((SalExt.join exts).length + 12) / 4) := by
    rw [← salHead_shl sk, sentPacket, List.getD_append]
    rw [length_salHead]
    decide
  rw [salLength, shl, UInt8.toNat_ofNat_of_lt' (by show _ < 256; omega)]
  omega

theorem BuiltContents.counts {cb : SalSkbCb} {authenticator : UInt64}
    (content : BuiltContents sk cb authenticator exts) :
    SalExt.count .control exts ≤ 1 ∧ SalExt.count .service exts ≤ 2 ∧
      SalExt.count .taas exts ≤ 1 ∧ SalExt.count .source exts = 0 ∧
      exts.length = SalExt.count .control exts + SalExt.count .service exts +
          SalExt.count .taas exts := by
  have controls := congrArg List.length content.ofControl
  have services := congrArg List.length content.ofService
  have authenticators := congrArg List.length content.ofTaas
  have total := content.total
  rw [List.length_map, ← SalExt.count_eq_select] at controls services
  rw [List.length_map, ← SalExt.count_eq_select] at authenticators
  rw [← controls, ← services, ← authenticators] at total
  refine ⟨?_, ?_, ?_, ?_, total⟩
  · rw [controls]
    split_ifs <;> simp
  · rw [services]
    split_ifs <;> simp
  · rw [authenticators]
    split_ifs <;> simp
  · rw [SalExt.count_eq_select, content.noSource, List.length_nil]

private theorem sentPacket_split {cb : SalSkbCb} {authenticator : UInt64}
    (short : (SalExt.join exts).length ≤ 84)
    (whole : (SalExt.join exts).length % 4 = 0) (size : check.length = 2)
    (content : BuiltContents sk cb authenticator exts) :
    SalSplit (sentPacket sk check exts data) exts := by
  obtain ⟨atMostOne, atMostTwo, single, none, total⟩ := content.counts
  have length := @salLength_sentPacket sk check exts data short whole
  exact
    { base := by omega
      bytes := by
        rw [drop_sentPacket size, length]
        exact List.take_left' rfl
      room := by omega
      controls := atMostOne
      services := atMostTwo
      sources := by omega
      taas := single }

theorem ofNat_leNat_leBytes (value : UInt64) :
    UInt64.ofNat (leNat (leBytes 8 value.toNat)) = value := by
  have small : value.toNat % 256 ^ 8 = value.toNat := Nat.mod_eq_of_lt value.toNat_lt
  rw [leNat_leBytes, small, UInt64.ofNat_toNat]

/-- Whatever the check, the packet is accepted and carries its contents. -/
theorem sentPacket_carries {cb : SalSkbCb} {authenticator : UInt64}
    (short : (SalExt.join exts).length ≤ 84)
    (whole : (SalExt.join exts).length % 4 = 0) (size : check.length = 2)
    (content : BuiltContents sk cb authenticator exts) :
    ∃ ctx, servalSalParseHdr (sentPacket sk check exts data) .all = .ok (0, ctx) ∧
      ctx.length.toNat = salLength (sentPacket sk check exts data) ∧
      Carries sk cb authenticator (sentPacket sk check exts data) ctx := by
  have length := @salLength_sentPacket sk check exts data short whole
  have split := @sentPacket_split sk check exts data cb authenticator short whole size content
  have inside : salLength (sentPacket sk check exts data) ≤
        (sentPacket sk check exts data).length := by
    rw [length, sentPacket]
    simp only [List.length_append, length_salHead, size]
    omega
  obtain ⟨ctx, parsed, sameLength, described⟩ := split.parse inside
  have here := @drop_sentPacket sk check exts data size
  obtain ⟨flags, verno, ackno, nonce, peer, own, taas⟩ := described.contents here content
  refine ⟨ctx, parsed, sameLength, ?_⟩
  constructor
  · simp [sentPacket, salHead]
  · simp [sentPacket, salHead]
  · rw [flags]
    split_ifs <;> rfl
  · rw [verno]
    split_ifs <;> rfl
  · rw [ackno]
    split_ifs <;> rfl
  · rw [nonce]
    split_ifs <;> rfl
  · rw [peer]
    cases isControl cb.flags <;> cases namesService cb.flags <;> cases unconnected sk <;> rfl
  · rw [own]
    cases isControl cb.flags <;> cases namesService cb.flags <;> cases unconnected sk <;> rfl
  · rw [taas]
    by_cases given : authenticator ≠ 0
    · rw [if_pos given, if_pos given]
      exact congrArg some (ofNat_leNat_leBytes authenticator)
    · rw [if_neg given, if_neg given]
      rfl

end

/-- A header built for any socket, packet and authenticator, with its check,
is accepted by the receiver, sums up to zero, and gives back what was put
in. -/
theorem servalSalBuildHeader_roundTrip (sk : SalSock) (skb : SkBuff) (authenticator : UInt64)
    (sender receiver : Nat) (room : 96 ≤ skb.headroom.length) :
    ∃ skb' packet ctx, servalSalBuildHeader sk skb authenticator = .ok skb' ∧
      servalSalSendCheck sender skb'.data = .ok packet ∧
      servalSalParseHdr packet .all = .ok (0, ctx) ∧ ctx.length.toNat = salLength packet ∧
      servalSalCsum receiver packet (salLength packet) = .ok 0 ∧
      Carries sk skb.cb authenticator packet ctx := by
  obtain ⟨exts, old, skb', built, size, short, whole, data, content⟩ :=
    servalSalBuildHeader_spec sk authenticator room
  have oldCheck : ((old.drop 10).take 2).length = 2 := by
    rw [List.length_take, List.length_drop, size]
    rfl
  have shl : 4 * ((salHead sk ((SalExt.join exts).length + 12)).getD 8 0).toNat =
        (SalExt.join exts).length + 12 := by
    rw [salHead_shl, UInt8.toNat_ofNat_of_lt' (by show _ < 256; omega)]
    omega
  obtain ⟨check, checkSize, sent, verified⟩ :=
    @servalSalSendCheck_spec sender _ _ (SalExt.join exts ++ skb.data)
      (length_salHead sk ((SalExt.join exts).length + 12)) oldCheck
      (by rw [shl]; omega) (by rw [List.length_append]; omega)
  obtain ⟨ctx, parsed, length, carries⟩ :=
    @sentPacket_carries sk check exts skb.data skb.cb authenticator short
      whole checkSize content
  refine ⟨skb', sentPacket sk check exts skb.data, ctx, built, ?_, parsed, length, ?_, carries⟩
  · rw [data, salHdr_eq, List.append_assoc, sent]
    rfl
  · have passed := verified receiver
    rw [shl] at passed
    rw [salLength_sentPacket short whole]
    exact passed

def requestSock : SalSock where
  skState := .request
  skType := 1
  skProtocol := 6
  localFlowid := Vector.replicate 4 1
  peerFlowid := Vector.replicate 4 2
  localSrvid := Vector.replicate 32 3
  peerSrvid := Vector.replicate 32 4
  localNonce := Vector.replicate 8 5
  rcvNxt := 0

def synSkb : SkBuff where
  cb := ⟨1, 7⟩
  headroom := List.replicate 96 0xff
  data := []

theorem servalSalBuildHeader_roundTrip_syn : 96 ≤ synSkb.headroom.length ∧
      ∃ skb' packet ctx, servalSalBuildHeader requestSock synSkb 9 = .ok skb' ∧
        servalSalSendCheck 4 skb'.data = .ok packet ∧ servalSalParseHdr packet .all = .ok (0, ctx) ∧
        servalSalCsum 7 packet (salLength packet) = .ok 0 ∧ ctx.verno = 7 ∧
        ctx.srvExt0.map (fieldAt packet 4 32) = some (List.replicate 32 4) := by
  have room : 96 ≤ synSkb.headroom.length := by decide
  obtain ⟨skb', packet, ctx, built, sent, parsed, -, passed, carries⟩ :=
    servalSalBuildHeader_roundTrip requestSock synSkb 9 4 7 room
  exact ⟨room, skb', packet, ctx, built, sent, parsed, passed, carries.verno, carries.peerSrvid⟩

end Serval
