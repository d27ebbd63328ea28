import Serval.Sal.Listener

/-!
# Answers without a socket

`serval_sal_send_reset` and `serval_sal_send_synack` write their headers by
hand. Here is what the receiver of such a packet reads, and what a reset
does to the socket that it is meant for.
-/

open Serval.Support

namespace Serval

def SalHeader.ofAnswer (sk : SalSock) (cb : SalSkbCb) (srcExt : Option (List UInt8)) :
    SalHeader where
  srcFlowid := sk.localFlowid
  dstFlowid := sk.peerFlowid
  protocol := sk.skProtocol
  length := 32 + (srcExt.map List.length).getD 0
  ctrlExt := some (ControlExt.ofBuild sk cb)
  srvExt0 := none
  srvExt1 := none
  srcExt := srcExt
  taasExt := none

/-- The control extension of an answer, whose memory is cleared before. -/
def SalExt.ofAnswer (sk : SalSock) (cb : SalSkbCb) : SalExt :=
  SalExt.control (List.replicate 20 0) sk cb

variable (sk : SalSock) {host : SalHost} {rskb' : SkBuff} (cb : SalSkbCb)

private theorem SalExt.length_ofAnswer : (SalExt.ofAnswer sk cb).bytes.length = 20 :=
  length_controlExt _ sk cb

private theorem controlExtAt_ofAnswer : controlExtAt (SalExt.ofAnswer sk cb).bytes 0 =
      ControlExt.ofBuild sk cb :=
  controlExtAt_built rfl (SalExt.length_ofAnswer sk cb)
    (SalExt.control_fields _ sk cb)

section

variable {skb skb' : SkBuff} {sk : SalSock} {cb : SalSkbCb} {exts : List SalExt}
  {payload packet : List UInt8} {address extLen : Nat}

theorem pushAnswer_data (run : pushAnswer skb sk cb extLen = .ok skb') : ∃ old, old.length = 12 ∧
      skb'.data = salHdr old sk (extLen + 20 + 12) ++
          ((SalExt.ofAnswer sk cb).bytes ++ skb.data) := by
  obtain ⟨⟨ctrlLen, skb₁⟩, control, run⟩ := of_bind run
  obtain ⟨⟨baseLen, skb₂⟩, base, run⟩ := of_bind run
  cases run
  obtain ⟨-, rfl, -, -, inner, -, -⟩ := pushPart_inv control
  obtain ⟨-, -, old, size, outer, -, -⟩ := pushPart_inv base
  refine ⟨old, size, ?_⟩
  rw [outer, inner]
  rfl

/-- An answer is a packet whose row starts with the control extension. -/
theorem pushAnswer_framed {row : List UInt8} (data : skb.data = row ++ payload)
    (words : 4 * ((extLen + 32) / 4) = 32 + row.length)
    (short : row.length ≤ 988)
    (pushed : pushAnswer skb sk cb extLen = .ok skb') :
    Framed (sk.localFlowid.toList ++ sk.peerFlowid.toList) sk.skProtocol
      ((SalExt.ofAnswer sk cb).bytes ++ row) payload skb'.data := by
  obtain ⟨old, size, bytes⟩ := pushAnswer_data pushed
  refine ⟨by simp, UInt8.ofNat ((extLen + 20 + 12) / 4), (old.drop 10).take 2, ?_, ?_, ?_⟩
  · rw [List.length_take, List.length_drop, size]
    rfl
  · rw [UInt8.toNat_ofNat_of_lt' (by show _ < 256; omega), List.length_append,
      SalExt.length_ofAnswer]
    omega
  · rw [bytes, data, salHdr, salPacket]
    simp only [List.append_assoc]

private theorem pushAnswer_shaped (data : skb.data = SalExt.join exts ++ payload)
    (words : (SalExt.join exts).length % 4 = 0)
    (short : (SalExt.join exts).length ≤ 988)
    (pushed : pushAnswer skb sk cb (SalExt.join exts).length = .ok skb')
    (checked : servalSalSendCheck address skb'.data = .ok packet) :
    Shaped (sk.localFlowid.toList ++ sk.peerFlowid.toList) sk.skProtocol
      (SalExt.ofAnswer sk cb :: exts) payload packet :=
  ((pushAnswer_framed data (by omega) short pushed).checked checked).2

/-- What the receiver of an answer reads, which has no other extension than
the addresses on the way. -/
theorem Shaped.answer
    (shaped :
      Shaped (sk.localFlowid.toList ++ sk.peerFlowid.toList) sk.skProtocol
        (SalExt.ofAnswer sk cb :: exts) payload packet)
    (few : exts.length ≤ 1) (sources : ∀ e ∈ exts, e.kind = .source) :
    ∃ ctx, servalSalParseHdr packet .all = .ok (0, ctx) ∧
      SalHeader.ofContext packet ctx = SalHeader.ofAnswer sk cb (exts.head?.map SalExt.bytes) ∧
      packet.drop (salLength packet) = payload := by
  have selected (kind : SalExtType) : SalExt.select kind (SalExt.ofAnswer sk cb :: exts) =
        (if kind = .control then [SalExt.ofAnswer sk cb] else []) ++
          (if kind = .source then exts else []) := by
    have others : SalExt.select kind exts = if kind = .source then exts else [] := by
      split_ifs with source
      · exact List.filter_eq_self.mpr fun e member =>
          decide_eq_true (by rw [sources e member, source])
      · exact List.filter_eq_nil_iff.mpr fun e member same =>
          source (by rw [← of_decide_eq_true same, sources e member])
    rw [← others]
    cases kind <;> rfl
  have counted (kind : SalExtType) : SalExt.count kind (SalExt.ofAnswer sk cb :: exts) ≤ 1 := by
    rw [SalExt.count_eq_select, selected]
    cases kind <;> simp [few]
  obtain ⟨split, behind, inside⟩ := shaped.split
    (by rw [List.length_cons]; omega) (counted .control)
    ((counted .service).trans (by decide)) (counted .source)
    (counted .taas)
  obtain ⟨ctx, parsed, sameLength, described⟩ := split.parse inside
  obtain ⟨ids, protocol, here, total, -⟩ := Framed.parts shaped
  obtain ⟨source, destination⟩ := flowids_of_take ids
  have length : ctx.length.toNat = 32 + ((exts.head?.map SalExt.bytes).map List.length).getD 0 := by
    have own := SalExt.length_ofAnswer sk cb
    have row : (SalExt.join exts).length =
          ((exts.head?.map SalExt.bytes).map List.length).getD 0 := by
      cases exts with
      | nil => rfl
      | cons e rest =>
        have none : rest = [] := by simpa using few
        simp [none, SalExt.join]
    have whole : (SalExt.join (SalExt.ofAnswer sk cb :: exts)).length =
          20 + (SalExt.join exts).length := by
      rw [SalExt.join, List.map_cons, List.flatten_cons, List.length_append, own]
      rfl
    omega
  refine ⟨ctx, parsed, ?_, behind⟩
  rw [SalHeader.ofContext_eq described here, source, destination, protocol, length]
  simp only [selected, SalHeader.ofAnswer]
  simp [controlExtAt_ofAnswer, List.head?_eq_getElem?]

end

/-! ## The source extension of a response -/

/-- The copy is made in the headroom, and then one address is appended. -/
theorem pushSourceExt_of_le {rskb : SkBuff} {ext : List UInt8} (locAddr : NetAddr)
    (room : ext.length + 4 ≤ rskb.headroom.length) :
    ∃ lead tail, tail.length = 4 ∧ rskb.headroom.length = lead.length + (ext.length + 4) ∧
      ∀ lead' row, lead'.length = lead.length →
        writeSourceExt (lead ++ (ext ++ tail)) [] locAddr.toList lead.length
          true (ext.length + 4) = .ok (lead' ++ row) →
        pushSourceExt rskb (some ext) locAddr = .ok (ext.length + 4,
            { rskb with headroom := lead', data := row ++ rskb.data }) := by
  have keep : (rskb.headroom.take (rskb.headroom.length - (ext.length + 4))).length =
          rskb.headroom.length - (ext.length + 4) := by
    rw [List.length_take]
    omega
  refine ⟨rskb.headroom.take (rskb.headroom.length - (ext.length + 4)), (rskb.headroom.drop
      (rskb.headroom.length - (ext.length + 4))).drop ext.length,
    ?_, by omega, ?_⟩
  · rw [List.length_drop, List.length_drop]
    omega
  · intro lead' row size written
    have copied := @writeBytes_between
        (rskb.headroom.take (rskb.headroom.length - (ext.length + 4)))
        ((rskb.headroom.drop (rskb.headroom.length - (ext.length + 4))).take ext.length) ext
        ((rskb.headroom.drop (rskb.headroom.length - (ext.length + 4))).drop ext.length) _ rfl
        (by
          rw [List.length_take, List.length_drop]
          omega)
    rw [List.take_append_drop (i := ext.length)] at copied
    rw [pushSourceExt, skbPush, if_pos room, ok_bind]
    dsimp only
    rw [synackSourceExt, copied, ok_bind, written, ok_bind, ← size, List.take_left, List.drop_left]

variable {rskb skb : SkBuff}

private theorem room_of_pushSourceExt {ext : List UInt8} {locAddr : NetAddr} {len : Nat}
    (run : pushSourceExt rskb (some ext) locAddr = .ok (len, rskb')) :
    ext.length + 4 ≤ rskb.headroom.length := by
  obtain ⟨⟨old, rskb₁⟩, pushed, -⟩ := of_bind run
  rw [skbPush] at pushed
  split_ifs at pushed with room
  exact room

section

variable {rskb : SkBuff} {src : SalExt} (kind : src.kind = .source)
  (room : src.bytes.length + 4 ≤ rskb.headroom.length)

include kind room

theorem pushSourceExt_fits (fits : src.bytes.length + 4 ≤ 255) (locAddr : NetAddr) :
    ∃ (src' : SalExt) (rskb' : SkBuff), pushSourceExt rskb (some src.bytes) locAddr =
        .ok (src.bytes.length + 4, rskb') ∧ src'.kind = .source ∧
      src'.bytes.length = src.bytes.length + 4 ∧ src'.addrs = src.addrs ++ [locAddr.toList] ∧
      rskb'.data = src'.bytes ++ rskb.data ∧
      rskb.headroom.length = rskb'.headroom.length + (src.bytes.length + 4) := by
  have least : 12 ≤ src.bytes.length := by
    have least := src.least
    rwa [kind] at least
  have address : locAddr.toList.length = 4 := Vector.length_toList
  obtain ⟨first, length, body, spare, cut⟩ := exists_sourceCut kind
  have addresses := cut.addresses
  obtain ⟨lead, tail, size, whole, push⟩ := pushSourceExt_of_le locAddr room
  have cutSize := congrArg List.length cut.bytes
  simp only [List.length_cons, List.length_append] at cutSize
  -- The address takes the place of the spare bytes, and the memory behind
  -- the copy takes theirs.
  have behind : ((spare ++ tail).take 4).length = 4 := by
    rw [List.length_take, List.length_append]
    omega
  have written := writeSourceExt_append lead first length [] ((spare ++ tail).drop 4)
      behind address (show 8 ≤ src.bytes.length + 4 by omega) (by omega)
      (show body.length + 2 = 4 * ((src.bytes.length + 4 - 4) / 4) by omega)
  obtain ⟨src', kind', bytes, addrs⟩ :=
    @SourceCut.appended src first length body spare locAddr.toList cut least
      fits address ((spare ++ tail).drop 4)
      (by
        rw [List.length_drop, List.length_append]
        omega)
  refine ⟨src', _, push lead src'.bytes rfl ?_, kind', ?_, addrs, rfl, whole⟩
  · rw [cut.bytes, bytes, ← written]
    simp [cutSize]
  · rw [bytes]
    simp [extHdr]
    omega

end

/-- With a length that wraps around, the address ends up in front of the
extension. -/
theorem pushSourceExt_wrapped {rskb : SkBuff} {src : SalExt} (kind : src.kind = .source)
    (room : src.bytes.length + 8 ≤ rskb.headroom.length)
    (wraps : 256 ≤ src.bytes.length + 4) (locAddr : NetAddr) :
    ∃ (first : UInt8) (body : List UInt8) (rskb' : SkBuff),
      pushSourceExt rskb (some src.bytes) locAddr = .ok (src.bytes.length + 4, rskb') ∧
      rskb'.data = extHdr [first] .source (src.bytes.length + 4) ++ (body ++ rskb.data) ∧
      src.bytes.length + 4 = body.length + 2 := by
  have small := SalExt.length_lt (show src.kind ≠ .pad by
    rw [kind]
    decide)
  obtain ⟨first, length, body, spare, cut⟩ := exists_sourceCut kind
  have size := congrArg List.length cut.bytes
  simp only [List.length_cons, List.length_append] at size
  obtain ⟨lead, tail, four, whole, push⟩ := @pushSourceExt_of_le rskb src.bytes locAddr (by omega)
  have front : lead = lead.take (lead.length - 4) ++ lead.drop (lead.length - 4) :=
    (List.take_append_drop _ _).symm
  have last : (lead.drop (lead.length - 4)).length = 4 := by
    rw [List.length_drop]
    omega
  have start : (lead.take (lead.length - 4)).length + 4 = lead.length := by
    rw [List.length_take]
    omega
  have written := @writeSourceExt_wrapped (lead.take (lead.length - 4))
      (lead.drop (lead.length - 4)) locAddr.toList first length []
      (body ++ (spare ++ tail)) (src.bytes.length + 4) last
      Vector.length_toList wraps (by omega)
  rw [start, ← List.append_assoc (lead.take _)] at written
  refine ⟨first, body ++ (spare ++ tail), _, push (lead.take (lead.length - 4) ++ locAddr.toList)
      (extHdr [first] .source (src.bytes.length + 4) ++ (body ++ (spare ++ tail))) ?_ ?_, ?_, ?_⟩
  · rw [List.length_append, Vector.length_toList]
    exact start
  · rw [List.append_assoc, ← written, cut.bytes]
    simp
  · simp only [List.append_assoc]
  · simp only [List.length_append]
    omega

def sourceRoom (hdr : SalHeader) : Nat := (hdr.srcExt.map fun ext => ext.length + 4).getD 0

/-- A source extension that can take one address more and leaves the header
in words. -/
def SourceFits (hdr : SalHeader) : Prop :=
  ∀ ext, hdr.srcExt = some ext → ext.length % 4 = 0 ∧ ext.length + 4 ≤ 255

theorem headroom_of_pushSourceExt {ext : List UInt8} {locAddr : NetAddr} {len : Nat}
    (run : pushSourceExt rskb (some ext) locAddr = .ok (len, rskb')) :
    rskb.headroom.length = rskb'.headroom.length + (ext.length + 4) := by
  obtain ⟨⟨old, rskb₁⟩, pushed, run⟩ := of_bind run
  obtain ⟨mem, written, run⟩ := of_bind run
  cases run
  obtain ⟨copy, copied, written⟩ := of_bind written
  have size := length_of_writeSourceExt written
  rw [length_of_writeBytes copied, List.length_append] at size
  rw [skbPush] at pushed
  split_ifs at pushed with room
  cases pushed
  simp only [List.length_take, List.length_drop] at size ⊢
  omega

theorem headroom_of_pushAnswer {skb' : SkBuff} {sk : SalSock} {cb : SalSkbCb}
    {extLen : Nat} (run : pushAnswer skb sk cb extLen = .ok skb') :
    skb.headroom.length = skb'.headroom.length + 32 := by
  obtain ⟨⟨ctrlLen, skb₁⟩, control, run⟩ := of_bind run
  obtain ⟨⟨baseLen, skb₂⟩, base, run⟩ := of_bind run
  cases run
  obtain ⟨-, -, -, -, -, left, -⟩ := pushPart_inv control
  obtain ⟨-, -, -, -, -, rest, -⟩ := pushPart_inv base
  rw [salHeaderLen] at rest
  omega

theorem exists_pushAnswer (extLen : Nat) (room : 32 ≤ skb.headroom.length) :
    ∃ skb', pushAnswer skb sk cb extLen = .ok skb' := by
  obtain ⟨-, skb₁, -, control, -, left, -⟩ := @pushPart_of_le skb 20
      (fun _ => controlExt (List.replicate 20 0) sk cb) (by omega)
  obtain ⟨-, skb₂, -, base, -⟩ := @pushPart_of_le skb₁ salHeaderLen
      (fun old => salHdr old sk (extLen + 20 + salHeaderLen))
      (by rw [salHeaderLen]; omega)
  refine ⟨skb₂, ?_⟩
  rw [pushAnswer, control]
  simp only [base, ok_bind]

theorem headroom_of_buildSynack {rsk : RequestSock} {hdr : SalHeader}
    (built : buildSynack rskb rsk hdr = .ok rskb') :
    rskb.headroom.length = rskb'.headroom.length + (sourceRoom hdr + 32) := by
  obtain ⟨⟨srcLen, rskb₁⟩, pushed, built⟩ := of_bind built
  have room := headroom_of_pushAnswer built
  rw [sourceRoom]
  cases given : hdr.srcExt with
  | none =>
    rw [given] at pushed
    cases pushed
    rw [Option.map_none, Option.getD_none]
    omega
  | some ext =>
    rw [given] at pushed
    have left := headroom_of_pushSourceExt pushed
    rw [Option.map_some, Option.getD_some]
    omega

/-- A header that counts another number of words, or whose source extension
states another length, is refused. -/
theorem pushAnswer_refused {skb' : SkBuff} {sk : SalSock} {cb : SalSkbCb}
    {extLen address : Nat} {first length : UInt8}
    {body payload packet : List UInt8}
    (data : skb.data = first :: length :: (body ++ payload))
    (type : salExtType first = some .source)
    (stated : length.toNat = extLen % 256) (size : extLen = body.length + 2)
    (least : 16 ≤ extLen) (short : extLen < 260)
    (bad : extLen % 4 ≠ 0 ∨ 256 ≤ extLen)
    (pushed : pushAnswer skb sk cb extLen = .ok skb')
    (checked : servalSalSendCheck address skb'.data = .ok packet)
    (ctx : SalContext) : servalSalParseHdr packet .all ≠ .ok (0, ctx) := by
  intro parsed
  -- The words that the header counts end inside of the extension.
  have cut : skb.data = (first :: length :: body.take (4 * (extLen / 4) - 2)) ++
          (body.drop (4 * (extLen / 4) - 2) ++ payload) := by
    rw [data, List.cons_append, List.cons_append, ← List.append_assoc, List.take_append_drop]
  have counted : (first :: length :: body.take (4 * (extLen / 4) - 2)).length =
        4 * (extLen / 4) := by
    rw [List.length_cons, List.length_cons, List.length_take]
    omega
  obtain ⟨-, framed⟩ := (pushAnswer_framed cut (by omega) (by omega) pushed).checked checked
  obtain ⟨-, -, behind, total, whole⟩ := framed.parts
  obtain ⟨exts, split, -⟩ := SalSplit.of_parse parsed (by omega)
  have row := split.bytes
  rw [total, behind, Nat.add_sub_cancel_left, List.take_left] at row
  cases exts with
  | nil =>
    have none := congrArg List.length row
    simp [SalExt.join] at none
  | cons control rest =>
    obtain ⟨-, row⟩ := SalExt.eq_of_append row
    cases rest with
    | nil => cases row
    | cons e others =>
      have inside := congrArg List.length row
      obtain ⟨kind, sum⟩ := SalExt.sized_of_append row type (by decide)
      have least' := e.least
      rw [kind] at least'
      simp only [List.map_cons, List.flatten_cons, List.length_append] at inside
      simp only [leastLength] at least'
      omega

/-! ## What the answers look like -/

variable {p : WirePacket}

private theorem WirePacket.hdr_of_parse {ctx : SalContext}
    (parsed : servalSalParseHdr p.sal .all = .ok (0, ctx)) :
    p.hdr = some (SalHeader.ofContext p.sal ctx) := by
  rw [WirePacket.hdr, parsed]
  rfl

theorem IsReset.hdr {env : SalEnv} {skb : RcvSkb} (reset : IsReset env skb p) : p.hdr =
      some (SalHeader.ofAnswer (resetSock skb.hdr) (resetCb skb.hdr) none) := by
  obtain ⟨-, headroom, rskb, pushed, checked⟩ := reset
  have shaped := @pushAnswer_shaped ⟨⟨0, 0⟩, headroom, []⟩ rskb (resetSock skb.hdr)
      (resetCb skb.hdr) [] [] p.sal env.address rfl rfl (by decide) pushed
      checked
  obtain ⟨ctx, parsed, view, -⟩ := Shaped.answer shaped (by decide) (by simp)
  rw [WirePacket.hdr_of_parse parsed, view]
  rfl

section

variable {env : SalEnv} {rsk : RequestSock} {hdr : SalHeader} {p : WirePacket}
  (synack : IsSynack env rsk hdr p)

include synack

theorem IsSynack.hdr_plain (plain : hdr.srcExt = none) : p.hdr =
      some (SalHeader.ofAnswer (synackSock rsk hdr.protocol) (synackCb rsk) none) := by
  obtain ⟨-, -, headroom, data, rskb, built, checked⟩ := synack
  rw [buildSynack, plain] at built
  have shaped := @pushAnswer_shaped ⟨⟨0, 0⟩, headroom, data⟩ rskb
      (synackSock rsk hdr.protocol) (synackCb rsk) [] data p.sal env.address
      rfl rfl (by decide) built checked
  obtain ⟨ctx, parsed, view, -⟩ := Shaped.answer shaped (by decide) (by simp)
  rw [WirePacket.hdr_of_parse parsed, view]
  rfl

theorem IsSynack.hdr_source {src : SalExt} (kind : src.kind = .source)
    (given : hdr.srcExt = some src.bytes)
    (words : src.bytes.length % 4 = 0) (fits : src.bytes.length + 4 ≤ 255) :
    ∃ src' : SalExt, src'.kind = .source ∧ src'.addrs = src.addrs ++ [rsk.locAddr.toList] ∧
      p.hdr = some (SalHeader.ofAnswer (synackSock rsk hdr.protocol) (synackCb rsk)
          (some src'.bytes)) := by
  obtain ⟨-, -, headroom, data, rskb, built, checked⟩ := synack
  rw [buildSynack, given] at built
  obtain ⟨⟨srcLen, rskb₁⟩, pushed, built⟩ := of_bind built
  have room : src.bytes.length + 4 ≤ headroom.length := room_of_pushSourceExt pushed
  obtain ⟨src', rskb₂, again, kind', size, addrs, grown, -⟩ :=
    @pushSourceExt_fits ⟨⟨0, 0⟩, headroom, data⟩ src kind room fits
      rsk.locAddr
  rw [again] at pushed
  cases pushed
  have row : SalExt.join [src'] = src'.bytes := by simp [SalExt.join]
  have shaped := @pushAnswer_shaped rskb₁ rskb (synackSock rsk hdr.protocol)
      (synackCb rsk) [src'] data p.sal env.address
      (by rw [row]; exact grown) (by rw [row]; omega) (by rw [row]; omega)
      (by rw [row, size]; exact built) checked
  obtain ⟨ctx, parsed, view, -⟩ := Shaped.answer shaped le_rfl (by simp [kind'])
  refine ⟨src', kind', addrs, ?_⟩
  rw [WirePacket.hdr_of_parse parsed, view]
  rfl

end

/-- The response to a request whose source extension does not fit is refused
by every receiver. -/
theorem IsSynack.hdr_refused {env : SalEnv} {rsk : RequestSock}
    {hdr : SalHeader} (synack : IsSynack env rsk hdr p) {src : SalExt}
    (kind : src.kind = .source) (given : hdr.srcExt = some src.bytes)
    (bad : ¬ (src.bytes.length % 4 = 0 ∧ src.bytes.length + 4 ≤ 255)) :
    p.hdr = none := by
  have least : 12 ≤ src.bytes.length := by
    have least := src.least
    rwa [kind] at least
  have small := SalExt.length_lt (show src.kind ≠ .pad by
    rw [kind]
    decide)
  obtain ⟨-, -, headroom, data, rskb, built, checked⟩ := synack
  have room := headroom_of_buildSynack built
  rw [sourceRoom, given, Option.map_some, Option.getD_some] at room
  simp only at room
  rw [buildSynack, given] at built
  obtain ⟨⟨srcLen, rskb₁⟩, pushed, built⟩ := of_bind built
  have refused : ∀ ctx, servalSalParseHdr p.sal .all ≠ .ok (0, ctx) := by
    by_cases fits : src.bytes.length + 4 ≤ 255
    · obtain ⟨src', rskb₂, again, kind', size, -, grown, -⟩ :=
        @pushSourceExt_fits ⟨⟨0, 0⟩, headroom, data⟩ src kind
          (by show _ ≤ headroom.length; omega) fits rsk.locAddr
      rw [again] at pushed
      cases pushed
      obtain ⟨kind₂, bytes, ok⟩ := src'
      cases ok with
      | pad type => cases kind'
      | sized type notPad whole least' =>
        cases kind'
        simp only [List.length_cons] at size
        exact pushAnswer_refused grown type (by omega) (by omega)
          (by omega) (by omega) (by omega) built checked
    · obtain ⟨first, body, rskb₂, again, grown, size⟩ :=
        @pushSourceExt_wrapped ⟨⟨0, 0⟩, headroom, data⟩ src kind
          (by show _ ≤ headroom.length; omega) (by omega) rsk.locAddr
      rw [again] at pushed
      cases pushed
      have row : rskb₁.data = UInt8.ofNat (([first].getD 0 0).toNat % 16 +
                16 * SalExtType.source.code) ::
              UInt8.ofNat (src.bytes.length + 4) :: (body ++ data) :=
        grown
      exact pushAnswer_refused row (salExtType_extHdr [first] .source)
        UInt8.toNat_ofNat' size (by omega) (by omega) (by omega) built
        checked
  rw [WirePacket.hdr]
  split
  · rename_i ctx parsed
    exact absurd parsed (refused ctx)
  · rfl

/-! ## A reset at the socket it is meant for -/

def HasPeer (state : SalState) : Prop :=
  state ∈ [.connected, .finwait1, .finwait2, .closewait, .closing, .lastack]

instance (state : SalState) : Decidable (HasPeer state) := inferInstanceAs (Decidable (state ∈ _))

/-- The packet arrives, perhaps over forwarders. They change the addresses,
the source extension and the authenticator. -/
def Arrives (p : WirePacket) (skb : RcvSkb) : Prop :=
  ∃ hdr, p.hdr = some hdr ∧
    skb.hdr =
      { hdr with
        length := skb.hdr.length
        srcExt := skb.hdr.srcExt
        taasExt := skb.hdr.taasExt }

/-- The packet passes the checks and closes the socket. -/
def AbortedBy (env : SalEnv) (host : SalHost) (rst : RcvSkb) : Prop :=
  hasValidVerno rst.hdr.verno host.sk = true ∧
    ∃ host', servalSalStateProcess env host rst = .ok host' ∧ host'.sk.skState = .closed

/-- The packets of a run are those that were added to the others. -/
theorem Sends.each {sent : WirePacket → Prop} {host' : SalHost}
    {packets : List WirePacket} (sends : Sends sent host host')
    (out : host'.out = host.out ++ packets) : ∀ p ∈ packets, sent p := by
  obtain ⟨_, _, packets', _, rfl, each, -⟩ := sends
  rw [← List.append_cancel_left out]
  exact each

private theorem SalHeader.ofBuild_hasAck (authenticator : UInt64) :
    (SalHeader.ofBuild sk cb authenticator).hasAck = hasFlag cb.flags svhAck := by
  rw [SalHeader.hasAck]
  cases control : isControl cb.flags with
  | true =>
    rw [SalHeader.ofBuild_ctrlExt control]
    rfl
  | false =>
    have none : (SalHeader.ofBuild sk cb authenticator).ctrlExt = none := by
      simp [SalHeader.ofBuild, control]
    simp only [isControl, Bool.or_eq_false_iff] at control
    rw [none, control.2]
    rfl

private theorem SalHeader.ofBuild_ackno
    {sk : SalSock} {cb : SalSkbCb} (ack : hasFlag cb.flags svhAck = true)
    (authenticator : UInt64) :
    (SalHeader.ofBuild sk cb authenticator).ackno = sk.rcvNxt := by
  have control : isControl cb.flags = true := by simp [isControl, ack]
  rw [SalHeader.ackno, SalHeader.ofBuild_ctrlExt control]
  rfl

theorem exists_servalSalRcvReset (notListen : host.sk.skState ≠ .listen)
    (notInit : host.sk.skState ≠ .init) : ∃ host', servalSalRcvReset host = .ok host' := by
  have others : ¬ (host.sk.skState = .listen ∨ host.sk.skState = .init) :=
    not_or.mpr ⟨notListen, notInit⟩
  rw [servalSalRcvReset, servalSalDone, servalSockUnhash, if_neg others]
  split_ifs
  · exact ⟨_, rfl⟩
  · exact ⟨_, rfl⟩
  · exact ⟨_, rfl⟩

/-- A reset closes every socket with a peer that takes its version. -/
theorem abortedBy_iff (env : SalEnv) {rst : RcvSkb}
    (peer : HasPeer host.sk.skState) (reset : rst.hdr.hasRst = true) :
    AbortedBy env host rst ↔ before rst.hdr.verno host.sk.rcvNxt = false := by
  have valid : hasValidVerno rst.hdr.verno host.sk = !before rst.hdr.verno host.sk.rcvNxt := by
    have others : host.sk.skState ≠ .listen ∧ host.sk.skState ≠ .request := by
      revert peer
      cases host.sk.skState <;> decide
    simp [hasValidVerno, others]
  have control : rst.hdr.ctrlExt.isSome = true := Option.isSome_of_any reset
  constructor
  · intro aborted
    simpa [valid] using aborted.1
  · intro current
    obtain ⟨host', done⟩ : ∃ host', servalSalRcvReset host = .ok host' := by
      refine exists_servalSalRcvReset ?_ ?_ <;> revert peer <;>
        cases host.sk.skState <;> decide
    refine ⟨by rw [valid, current]; rfl, host', ?_, servalSalRcvReset_closed done⟩
    rw [servalSalStateProcess, stateProcess, valid, current, control, reset]
    exact done

theorem resetCb_verno {sk : SalSock} {cb : SalSkbCb} {authenticator : UInt64} {hdr : SalHeader}
    (ctrlExt : hdr.ctrlExt = (SalHeader.ofBuild sk cb authenticator).ctrlExt) :
    (resetCb hdr).verno = if hasFlag cb.flags svhAck then sk.rcvNxt else 0 := by
  have hasAck : hdr.hasAck = hasFlag cb.flags svhAck := by
    rw [← SalHeader.ofBuild_hasAck sk cb authenticator, SalHeader.hasAck, SalHeader.hasAck, ctrlExt]
  rw [resetCb, hasAck]
  split_ifs with ack
  · rw [← SalHeader.ofBuild_ackno ack authenticator, SalHeader.ackno, SalHeader.ackno, ctrlExt]
  · rfl

private theorem resetCb_rst (hdr : SalHeader) : hasFlag (resetCb hdr).flags svhRst = true := by
  rw [resetCb]
  split_ifs
  · show hasFlag (UInt8.ofNat svhRst) svhRst = true
    decide
  · show hasFlag (UInt8.ofNat (svhRst + svhAck)) svhRst = true
    decide

/-- The reset for a packet of a socket comes back to its flow. It closes the
socket if the packet had an acknowledgement, whose number is the version of
the reset, or if zero is not before the next version that is expected. -/
theorem reset_aborts_iff {env away : SalEnv} {host host' other other' later : SalHost}
    {skb : CtrlSkb} {useCopy : Bool} {err : Int}
    {packets : List WirePacket} {p r : WirePacket} {rcv rst : RcvSkb}
    (transmits : servalSalTransmitSkb env host skb useCopy = .ok (err, host'))
    (sent : host'.out = host.out ++ packets) (one : p ∈ packets)
    (arrives : Arrives p rcv)
    (resets : servalSalSendReset away other rcv = .ok other')
    (answer : other'.out = other.out ++ [r]) (returns : Arrives r rst)
    (peer : HasPeer later.sk.skState)
    (unchanged : later.sk.rcvNxt = host.sk.rcvNxt) :
    rst.hdr.dstFlowid = host.sk.localFlowid ∧
      (AbortedBy env later rst ↔
        hasFlag skb.cb.flags svhAck = true ∨ host.sk.rcvNxt = 0 ∨
          2 ^ 31 < host.sk.rcvNxt.toNat) := by
  obtain ⟨authenticator, carries⟩ := ((servalSalTransmitSkb_sends transmits).each sent p one).hdr
  obtain ⟨built, parsed, forwarded⟩ := arrives
  rw [carries] at parsed
  cases parsed
  have isReset := (servalSalSendReset_sends resets).each answer r (by simp)
  obtain ⟨back, parsed, returned⟩ := returns
  rw [isReset.hdr] at parsed
  cases parsed
  have ctrlExt : rst.hdr.ctrlExt =
        some (ControlExt.ofBuild (resetSock rcv.hdr) (resetCb rcv.hdr)) := by
    rw [returned]
    rfl
  have reset : rst.hdr.hasRst = true := by
    rw [SalHeader.hasRst, ctrlExt]
    exact resetCb_rst rcv.hdr
  have verno : rst.hdr.verno =
        if hasFlag skb.cb.flags svhAck then host.sk.rcvNxt else 0 := by
    have arrived : rcv.hdr.ctrlExt = (SalHeader.ofBuild host.sk.toSalSock skb.cb
            authenticator).ctrlExt := by
      rw [forwarded]
    rw [SalHeader.verno, ctrlExt, ← resetCb_verno arrived]
    rfl
  constructor
  · rw [returned]
    show rcv.hdr.srcFlowid = _
    rw [forwarded]
    rfl
  · rw [abortedBy_iff env peer reset, verno, unchanged]
    split_ifs with ack
    · simp [ack, before_self]
    · simp [ack, zero_before_iff]

def strayAckSkb : RcvSkb :=
  let skb := plainSkb { plainControl 10 7 (Vector.replicate 8 5) with ack := true }
  { skb with
    hdr :=
      { skb.hdr with
        srcFlowid := Vector.replicate 4 1, dstFlowid := Vector.replicate 4 2 } }

def taasConnection : SalHost :=
  plainHost plainSock (rootTable .forward (.dev 1 "eth0") [10, 0, 0, 2] 77)

def strayDataSkb : RcvSkb :=
  { strayAckSkb with
    hdr := { strayAckSkb.hdr with length := 24, ctrlExt := none, taasExt := some 77 } }

def rstSkb (verno : UInt32) (ack : Bool) (nonce : Vector UInt8 8) : RcvSkb :=
  plainSkb { plainControl verno 0 nonce with rst := true, ack := ack }

theorem reset_aborts_iff_ack : ∃ p r,
      Arrives p strayAckSkb ∧ Arrives r (rstSkb 7 false (Vector.replicate 8 5)) ∧
      AbortedBy plainEnv plainConnection
        (rstSkb 7 false (Vector.replicate 8 5)) := by
  obtain ⟨⟨err, host'⟩, transmits, sent⟩ := @exists_of_leaves _
      (servalSalTransmitSkb plainEnv plainConnection (ctrlSkb svhAck 10 []) false)
      (fun result => result.2.out.map WirePacket.hdr = [some strayAckSkb.hdr])
      (by decide +kernel)
  obtain ⟨other', resets, answer⟩ :=
    @exists_of_leaves _ (servalSalSendReset plainEnv plainListener strayAckSkb)
      (fun host => host.out.map WirePacket.hdr = [some (rstSkb 7 false (Vector.replicate 8 5)).hdr])
      (by decide +kernel)
  rw [decide_eq_true_eq] at sent answer
  obtain ⟨p, out, hdr⟩ := List.map_eq_singleton_iff.mp sent
  obtain ⟨r, out', hdr'⟩ := List.map_eq_singleton_iff.mp answer
  have arrives : Arrives p strayAckSkb := ⟨_, hdr, rfl⟩
  have returns : Arrives r (rstSkb 7 false (Vector.replicate 8 5)) := ⟨_, hdr', rfl⟩
  refine ⟨p, r, arrives, returns, ?_⟩
  have sent : host'.out = plainConnection.out ++ [p] := out
  exact (reset_aborts_iff transmits sent (by simp) arrives resets out' returns
    (by decide) rfl).2.mpr (.inl (by decide))

/-- Data of a connection that expects the version 7 is answered with the
version 0, and the connection goes on. The TaaS extension of the target makes
the host that receives the data look for a service before it answers. -/
theorem data_reset_ignored : leaves (servalSalTransmitSkb plainEnv taasConnection (ctrlSkb 0 0 [1])
          false)
        (fun result => result.2.out.map WirePacket.hdr = [some strayDataSkb.hdr]) = true ∧
      leaves (servalSalSendReset plainEnv plainListener strayDataSkb)
        (fun host => host.out.map WirePacket.hdr =
          [some (rstSkb 0 true (Vector.replicate 8 0)).hdr]) = true ∧
      leaves
        (servalSalStateProcess plainEnv taasConnection (rstSkb 0 true (Vector.replicate 8 0)))
        (fun host => host.sk.skState = .connected) = true := by
  decide +kernel

end Serval
