import Mathlib.Data.Nat.Bitwise
import Serval.Sal.Grammar

/-!
# Building a SAL header

`serval_sal_build_header` writes the header backwards: each part is pushed in
front of what is there. `skb_push` does not clear the headroom, so the
reserved fields of a part keep what the memory held before.
-/

namespace Serval

open Serval.Support

inductive SalState where
  | init
  | connected
  | request
  | respond
  | finwait1
  | finwait2
  | timewait
  | closed
  | closewait
  | lastack
  | listen
  | closing
  deriving DecidableEq, Repr

structure SalSock where
  skState : SalState
  skType : UInt16
  skProtocol : UInt8
  localFlowid : Vector UInt8 4
  peerFlowid : Vector UInt8 4
  localSrvid : Vector UInt8 32
  peerSrvid : Vector UInt8 32
  localNonce : Vector UInt8 8
  rcvNxt : UInt32

def sockDgram : UInt16 := 2

/-- The fields of `struct sal_skb_cb` that a header shows. -/
structure SalSkbCb where
  flags : UInt8
  verno : UInt32

/-- A socket buffer: the memory in front of the data, and the data. -/
structure SkBuff where
  cb : SalSkbCb
  headroom : List UInt8
  data : List UInt8

/-- `skb_push`: the memory that the new part lies over, and the buffer
without it. `skb_under_panic` is a fault. -/
def skbPush (skb : SkBuff) (len : Nat) : Except Fault (List UInt8 × SkBuff) :=
  if len ≤ skb.headroom.length then
    let keep := skb.headroom.length - len
    .ok (skb.headroom.drop keep, { skb with headroom := skb.headroom.take keep })
  else
    .error .bounds

def SkBuff.prepend (skb : SkBuff) (part : List UInt8) : SkBuff :=
  { skb with data := part ++ skb.data }

def hasFlag (flags : UInt8) (mask : Nat) : Bool := flags &&& UInt8.ofNat mask != 0

/-! ## The parts of a header

Each is its fields in the order of the struct. The ones that the code does
not set are taken from `old`, the memory below. -/

def SalExtType.code : SalExtType → Nat
  | .pad => 0
  | .control => 1
  | .service => 2
  | .address => 3
  | .source => 4
  | .taas => 5

def extHdr (old : List UInt8) (kind : SalExtType) (length : Nat) :
    List UInt8 :=
  [UInt8.ofNat ((old.getD 0 0).toNat % 16 + 16 * kind.code), UInt8.ofNat length]

def flagBits (old flags : UInt8) : UInt8 :=
  UInt8.ofNat
    (old.toNat % 4 + 4 * (hasFlag flags svhFin).toNat +
      8 * (hasFlag flags svhRst).toNat + 16 * (hasFlag flags svhNack).toNat +
      32 * (hasFlag flags svhAck).toNat + 64 * (hasFlag flags svhRsyn).toNat +
      128 * (hasFlag flags svhSyn).toNat)

def controlExt (old : List UInt8) (sk : SalSock) (cb : SalSkbCb) :
    List UInt8 :=
  extHdr old .control 20 ++ ([flagBits (old.getD 2 0) cb.flags, old.getD 3 0] ++
      (htonl cb.verno ++ (htonl sk.rcvNxt ++ sk.localNonce.toList)))

def serviceExt (old : List UInt8) (srvid : Vector UInt8 32) : List UInt8 :=
  extHdr old .service 36 ++ ((old.drop 2).take 2 ++ srvid.toList)

def taasExt (old : List UInt8) (authenticator : UInt64) : List UInt8 :=
  extHdr old .taas 12 ++ ((old.drop 2).take 2 ++ leBytes 8 authenticator.toNat)

def salHdr (old : List UInt8) (sk : SalSock) (hdrLen : Nat) : List UInt8 :=
  sk.localFlowid.toList ++ (sk.peerFlowid.toList ++
      ([UInt8.ofNat (hdrLen / 4), sk.skProtocol] ++ (old.drop 10).take 2))

/-- Push a part in front; `part` makes it out of the memory below. -/
def pushPart (skb : SkBuff) (len : Nat) (part : List UInt8 → List UInt8) :
    Except Fault (Nat × SkBuff) := do
  let (old, skb) ← skbPush skb len
  .ok (len, skb.prepend (part old))

def servalSalAddCtrlExt (sk : SalSock) (skb : SkBuff) : Except Fault (Nat × SkBuff) :=
  pushPart skb 20 fun old => controlExt old sk skb.cb

def servalSalAddServiceExt (skb : SkBuff) (srvid : Vector UInt8 32) : Except Fault (Nat × SkBuff) :=
  pushPart skb 36 fun old => serviceExt old srvid

def servalSalAddTaasExt (skb : SkBuff) (authenticator : UInt64) : Except Fault (Nat × SkBuff) :=
  pushPart skb 12 fun old => taasExt old authenticator

def isControl (flags : UInt8) : Bool :=
  hasFlag flags svhSyn || hasFlag flags svhRsyn || hasFlag flags svhFin ||
    hasFlag flags svhRst || hasFlag flags svhAck

def namesService (flags : UInt8) : Bool := hasFlag flags svhSyn || hasFlag flags svhConnAck

section

variable (sk : SalSock) (skb : SkBuff) (authenticator : UInt64)

def unconnected : Bool := sk.skState = .init && sk.skType = sockDgram

def addExtensions : Except Fault (Nat × SkBuff) :=
  if isControl skb.cb.flags then do
    let (srvLen, skb) ←
      if namesService skb.cb.flags then
        servalSalAddServiceExt skb sk.peerSrvid
      else .ok (0, skb)
    let (ctrlLen, skb) ← servalSalAddCtrlExt sk skb
    .ok (srvLen + ctrlLen, skb)
  else if unconnected sk then do
    let (localLen, skb) ← servalSalAddServiceExt skb sk.localSrvid
    let (peerLen, skb) ← servalSalAddServiceExt skb sk.peerSrvid
    .ok (localLen + peerLen, skb)
  else
    .ok (0, skb)

def addAuthenticator : Except Fault (Nat × SkBuff) :=
  if authenticator ≠ 0 then servalSalAddTaasExt skb authenticator
  else .ok (0, skb)

def servalSalBuildHeader :
    Except Fault SkBuff := do
  let (extLen, skb) ← addExtensions sk skb
  let (taasLen, skb) ← addAuthenticator skb authenticator
  let (_, skb) ← pushPart skb salHeaderLen fun old =>
      salHdr old sk (extLen + taasLen + salHeaderLen)
  .ok skb

end

/-! ## The extensions that are built -/

namespace SalExt

def field (start size : Nat) (e : SalExt) : List UInt8 := (e.bytes.drop start).take size

def select (kind : SalExtType) (exts : List SalExt) : List SalExt :=
  exts.filter fun e => e.kind = kind

def controlFields (e : SalExt) : UInt16 × UInt32 × UInt32 × List UInt8 :=
  (e.flags, e.verno, e.ackno, e.field 12 8)

@[simp]
theorem join_append (first second : List SalExt) :
    join (first ++ second) = join first ++ join second := by
  simp [join]

end SalExt

structure Contents (exts : List SalExt) (controls : List (UInt16 × UInt32 × UInt32 × List UInt8))
    (services authenticators : List (List UInt8)) : Prop where
  ofControl : (SalExt.select .control exts).map SalExt.controlFields = controls
  ofService : (SalExt.select .service exts).map (SalExt.field 4 32) = services
  ofTaas : (SalExt.select .taas exts).map (SalExt.field 4 8) = authenticators
  noSource : SalExt.select .source exts = []
  total : exts.length = controls.length + services.length + authenticators.length

namespace Contents

theorem nil : Contents [] [] [] [] := ⟨rfl, rfl, rfl, rfl, rfl⟩

theorem append {first second : List SalExt}
    {controls controls' : List (UInt16 × UInt32 × UInt32 × List UInt8)}
    {services services' authenticators authenticators' : List (List UInt8)}
    (left : Contents first controls services authenticators)
    (right : Contents second controls' services' authenticators') :
    Contents (first ++ second) (controls ++ controls')
      (services ++ services') (authenticators ++ authenticators') := by
  have selected (kind : SalExtType) : SalExt.select kind (first ++ second) =
        SalExt.select kind first ++ SalExt.select kind second :=
    List.filter_append ..
  have leftTotal := left.total
  have rightTotal := right.total
  constructor
  · rw [selected, List.map_append, left.ofControl, right.ofControl]
  · rw [selected, List.map_append, left.ofService, right.ofService]
  · rw [selected, List.map_append, left.ofTaas, right.ofTaas]
  · rw [selected, left.noSource, right.noSource, List.append_nil]
  · simp only [List.length_append]
    omega

end Contents

structure Grown (skb : SkBuff) (exts : List SalExt) (skb' : SkBuff) : Prop where
  data : skb'.data = SalExt.join exts ++ skb.data
  headroom : skb.headroom.length = skb'.headroom.length + (SalExt.join exts).length
  cb : skb'.cb = skb.cb

namespace Grown

theorem refl (skb : SkBuff) : Grown skb [] skb := ⟨rfl, rfl, rfl⟩

theorem trans {skb skb' skb'' : SkBuff} {exts exts' : List SalExt}
    (first : Grown skb exts skb') (second : Grown skb' exts' skb'') :
    Grown skb (exts' ++ exts) skb'' := by
  constructor
  · rw [second.data, first.data, SalExt.join_append, List.append_assoc]
  · rw [first.headroom, second.headroom, SalExt.join_append, List.length_append]
    omega
  · exact second.cb.trans first.cb

end Grown

theorem pushPart_of_le {skb : SkBuff} {len : Nat} (part : List UInt8 → List UInt8)
    (room : len ≤ skb.headroom.length) :
    ∃ old skb', old.length = len ∧ pushPart skb len part = .ok (len, skb') ∧
      skb'.data = part old ++ skb.data ∧ skb.headroom.length = skb'.headroom.length + len ∧
      skb'.cb = skb.cb := by
  have size : (skb.headroom.drop (skb.headroom.length - len)).length = len := by
    rw [List.length_drop]
    omega
  have left : skb.headroom.length =
        (skb.headroom.take (skb.headroom.length - len)).length + len := by
    rw [List.length_take]
    omega
  rw [pushPart, skbPush, if_pos room]
  exact ⟨_, _, size, rfl, rfl, left, rfl⟩

variable {skb : SkBuff}

theorem pushPart_inv {skb' : SkBuff} {size len : Nat} {part : List UInt8 → List UInt8}
    (run : pushPart skb size part = .ok (len, skb')) :
    size ≤ skb.headroom.length ∧ len = size ∧
      ∃ old, old.length = size ∧ skb'.data = part old ++ skb.data ∧
        skb.headroom.length = skb'.headroom.length + size ∧ skb'.cb = skb.cb := by
  by_cases room : size ≤ skb.headroom.length
  · obtain ⟨old, grown, length, pushed, data, left, cb⟩ := pushPart_of_le part room
    rw [pushed] at run
    cases run
    exact ⟨room, rfl, old, length, data, left, cb⟩
  · rw [pushPart, skbPush, if_neg room] at run
    cases run

variable (old : List UInt8)

theorem salExtType_extHdr (kind : SalExtType) : salExtType
        (UInt8.ofNat ((old.getD 0 0).toNat % 16 + 16 * kind.code)) =
      some kind := by
  have code : kind.code ≤ 5 := by
    cases kind <;> decide
  have upper : (UInt8.ofNat ((old.getD 0 0).toNat % 16 + 16 * kind.code)).toNat / 16 =
        kind.code := by
    rw [UInt8.toNat_ofNat_of_lt' (by show _ < 256; omega)]
    omega
  rw [salExtType, upper]
  cases kind <;> rfl

theorem extOk_extHdr {kind : SalExtType} {length : Nat} {body : List UInt8}
    (sized : kind ≠ .pad) (whole : length = body.length + 2)
    (byte : length < 256) (least : leastLength kind ≤ length) :
    ExtOk kind (extHdr old kind length ++ body) := by
  have value : (UInt8.ofNat length).toNat = length := UInt8.toNat_ofNat_of_lt' byte
  refine .sized (salExtType_extHdr old kind) sized ?_ ?_
  · rw [value, whole]
    rfl
  · rw [value]
    exact least

theorem pushPart_grown {skb : SkBuff} {len : Nat} {part : List UInt8 → List UInt8}
    {kind : SalExtType} (room : len ≤ skb.headroom.length)
    (ok : ∀ old, old.length = len → ExtOk kind (part old))
    (length : ∀ old, old.length = len → (part old).length = len) :
    ∃ (e : SalExt) (old : List UInt8) (skb' : SkBuff),
      old.length = len ∧ e.kind = kind ∧ e.bytes = part old ∧ (SalExt.join [e]).length = len ∧
      pushPart skb len part = .ok (len, skb') ∧ Grown skb [e] skb' := by
  obtain ⟨old, skb', size, run, data, left, cb⟩ := pushPart_of_le part room
  have one : SalExt.join [⟨kind, part old, ok old size⟩] = part old := by simp [SalExt.join]
  refine ⟨⟨kind, part old, ok old size⟩, old, skb', size, rfl, rfl, ?_, run, ?_, ?_, cb⟩
  · rw [one, length old size]
  · rw [one, data]
  · rw [one, length old size, left]

theorem length_reserved {old : List UInt8} (long : 4 ≤ old.length) :
    ((old.drop 2).take 2).length = 2 := by
  rw [List.length_take, List.length_drop]
  omega

theorem servalSalAddServiceExt_spec {skb : SkBuff} (room : 36 ≤ skb.headroom.length)
    (srvid : Vector UInt8 32) :
    ∃ e skb', servalSalAddServiceExt skb srvid = .ok (36, skb') ∧
      (SalExt.join [e]).length = 36 ∧ Grown skb [e] skb' ∧ Contents [e] [] [srvid.toList] [] := by
  have body (old : List UInt8) (size : old.length = 36) :
      ((old.drop 2).take 2 ++ srvid.toList).length = 34 := by
    rw [List.length_append, length_reserved (by omega), Vector.length_toList]
  obtain ⟨e, old, skb', size, kind, bytes, total, run, grown⟩ :=
    @pushPart_grown skb 36 (fun old => serviceExt old srvid) .service room
      (fun old size =>
        extOk_extHdr old (by decide) (by rw [body old size]) (by decide)
          le_rfl)
      (fun old size => by
        rw [serviceExt, List.length_append, body old size]
        rfl)
  refine ⟨e, skb', run, total, grown, ?_⟩
  have named : e.field 4 32 = srvid.toList := by
    rw [SalExt.field, bytes]
    show (((old.drop 2).take 2 ++ srvid.toList).drop 2).take 32 = _
    rw [List.drop_left' (length_reserved (by omega)),
      List.take_of_length_le (by rw [Vector.length_toList])]
  constructor <;> simp [SalExt.select, kind, named]

theorem servalSalAddTaasExt_spec (room : 12 ≤ skb.headroom.length) (authenticator : UInt64) :
    ∃ e skb', servalSalAddTaasExt skb authenticator = .ok (12, skb') ∧
      (SalExt.join [e]).length = 12 ∧ Grown skb [e] skb' ∧
      Contents [e] [] [] [leBytes 8 authenticator.toNat] := by
  have body (old : List UInt8) (size : old.length = 12) :
      ((old.drop 2).take 2 ++ leBytes 8 authenticator.toNat).length = 10 := by
    rw [List.length_append, length_reserved (by omega), length_leBytes]
  obtain ⟨e, old, skb', size, kind, bytes, total, run, grown⟩ :=
    @pushPart_grown skb 12 (fun old => taasExt old authenticator) .taas room
      (fun old size =>
        extOk_extHdr old (by decide) (by rw [body old size]) (by decide)
          le_rfl)
      (fun old size => by
        rw [taasExt, List.length_append, body old size]
        rfl)
  refine ⟨e, skb', run, total, grown, ?_⟩
  have named : e.field 4 8 = leBytes 8 authenticator.toNat := by
    rw [SalExt.field, bytes]
    show (((old.drop 2).take 2 ++ leBytes 8 _).drop 2).take 8 = _
    rw [List.drop_left' (length_reserved (by omega)),
      List.take_of_length_le (by rw [length_leBytes])]
  constructor <;> simp [SalExt.select, kind, named]

theorem toNat_hasFlag (flags : UInt8) {bit : Nat} (inByte : bit < 8) :
    (hasFlag flags (2 ^ bit)).toNat = flags.toNat / 2 ^ bit % 2 := by
  have mask : (UInt8.ofNat (2 ^ bit)).toNat = 2 ^ bit :=
    UInt8.toNat_ofNat_of_lt' (Nat.pow_lt_pow_right (by decide) inByte)
  have both : (flags &&& UInt8.ofNat (2 ^ bit)).toNat =
        (flags.toNat.testBit bit).toNat * 2 ^ bit := by
    rw [UInt8.toNat_and, mask, Nat.and_two_pow]
  rw [← Nat.toNat_testBit, hasFlag]
  cases set : flags.toNat.testBit bit with
  | false =>
    rw [set, Bool.toNat_false, Nat.zero_mul] at both
    have none : flags &&& UInt8.ofNat (2 ^ bit) = 0 := UInt8.toNat_inj.mp both
    rw [none]
    rfl
  | true =>
    rw [set, Bool.toNat_true, Nat.one_mul] at both
    have some : flags &&& UInt8.ofNat (2 ^ bit) ≠ 0 := by
      intro zero
      rw [zero] at both
      exact absurd both (Nat.two_pow_pos bit).ne
    rw [bne_iff_ne.mpr some]

theorem hasFlag_sum (flags : UInt8) : svhSyn * (hasFlag flags svhSyn).toNat +
        svhRsyn * (hasFlag flags svhRsyn).toNat +
        svhAck * (hasFlag flags svhAck).toNat +
        svhNack * (hasFlag flags svhNack).toNat +
        svhRst * (hasFlag flags svhRst).toNat +
        svhFin * (hasFlag flags svhFin).toNat =
      flags.toNat % 64 := by
  have syn : (hasFlag flags svhSyn).toNat = flags.toNat / 1 % 2 :=
    @toNat_hasFlag flags 0 (by decide)
  have rsyn : (hasFlag flags svhRsyn).toNat = flags.toNat / 2 % 2 :=
    @toNat_hasFlag flags 1 (by decide)
  have ack : (hasFlag flags svhAck).toNat = flags.toNat / 4 % 2 :=
    @toNat_hasFlag flags 2 (by decide)
  have nack : (hasFlag flags svhNack).toNat = flags.toNat / 8 % 2 :=
    @toNat_hasFlag flags 3 (by decide)
  have rst : (hasFlag flags svhRst).toNat = flags.toNat / 16 % 2 :=
    @toNat_hasFlag flags 4 (by decide)
  have fin : (hasFlag flags svhFin).toNat = flags.toNat / 32 % 2 :=
    @toNat_hasFlag flags 5 (by decide)
  rw [syn, rsyn, ack, nack, rst, fin]
  simp only [svhSyn, svhRsyn, svhAck, svhNack, svhRst, svhFin]
  omega

theorem upperBits {low fin rst nack ack rsyn syn : Nat} (reserved : low < 4)
    (finBit : fin ≤ 1) (rstBit : rst ≤ 1) (nackBit : nack ≤ 1)
    (ackBit : ack ≤ 1) (rsynBit : rsyn ≤ 1) {value : Nat}
    (sum :
      value = low + 4 * fin + 8 * rst + 16 * nack + 32 * ack + 64 * rsyn +
        128 * syn) (byte : value < 256) :
    value / 2 ^ 7 % 2 = syn ∧ value / 2 ^ 6 % 2 = rsyn ∧
      value / 2 ^ 5 % 2 = ack ∧ value / 2 ^ 4 % 2 = nack ∧
      value / 2 ^ 3 % 2 = rst ∧ value / 2 ^ 2 % 2 = fin := by
  refine ⟨?_, ?_, ?_, ?_, ?_, ?_⟩ <;> omega

/-- The parser finds each flag at the bit where the builder put it. -/
theorem SalExt.flags_of_flagBits {e : SalExt} {old flags : UInt8}
    (bits : e.bytes.getD 2 0 = flagBits old flags) :
    e.flags = UInt16.ofNat (flags.toNat % 64) := by
  have reserved := Nat.mod_lt old.toNat (show 0 < 4 by decide)
  have fin := Bool.toNat_le (hasFlag flags svhFin)
  have rst := Bool.toNat_le (hasFlag flags svhRst)
  have nack := Bool.toNat_le (hasFlag flags svhNack)
  have ack := Bool.toNat_le (hasFlag flags svhAck)
  have rsyn := Bool.toNat_le (hasFlag flags svhRsyn)
  have syn := Bool.toNat_le (hasFlag flags svhSyn)
  have found := upperBits reserved fin rst nack ack rsyn (show (flagBits old flags).toNat = _ from
        UInt8.toNat_ofNat_of_lt' (by show _ < 256; omega))
      (flagBits old flags).toNat_lt
  rw [SalExt.flags, ← hasFlag_sum]
  simp only [SalExt.bit, Nat.toNat_testBit, bits, found]

/-- A control extension, over the memory `old`. -/
def SalExt.control (old : List UInt8) (sk : SalSock) (cb : SalSkbCb) : SalExt where
  kind := .control
  bytes := controlExt old sk cb
  ok := extOk_extHdr old (by decide) (by simp [length_htonl]) (by decide) le_rfl

theorem length_controlExt (sk : SalSock) (cb : SalSkbCb) : (controlExt old sk cb).length = 20 := by
  simp [controlExt, extHdr, length_htonl]

theorem SalExt.control_fields (sk : SalSock) (cb : SalSkbCb) :
    (SalExt.control old sk cb).controlFields =
      (UInt16.ofNat (cb.flags.toNat % 64), cb.verno, sk.rcvNxt, sk.localNonce.toList) := by
  have flags : (SalExt.control old sk cb).flags = UInt16.ofNat (cb.flags.toNat % 64) := by
    apply SalExt.flags_of_flagBits
    rfl
  have verno : (SalExt.control old sk cb).verno = cb.verno := by
    show ntohl ((htonl cb.verno ++ (htonl sk.rcvNxt ++ sk.localNonce.toList)).take 4) = _
    rw [List.take_left' (length_htonl _), ntohl_htonl]
  have ackno : (SalExt.control old sk cb).ackno = sk.rcvNxt := by
    show ntohl (((htonl cb.verno ++ (htonl sk.rcvNxt ++ sk.localNonce.toList)).drop 4).take 4) = _
    rw [List.drop_left' (length_htonl _), List.take_left' (length_htonl _), ntohl_htonl]
  have nonce : (SalExt.control old sk cb).field 12 8 = sk.localNonce.toList := by
    show ((htonl cb.verno ++ (htonl sk.rcvNxt ++ sk.localNonce.toList)).drop (4 + 4)).take 8 = _
    rw [← List.drop_drop, List.drop_left' (length_htonl _), List.drop_left' (length_htonl _),
      List.take_of_length_le (by rw [Vector.length_toList])]
  rw [SalExt.controlFields, flags, verno, ackno, nonce]

theorem servalSalAddCtrlExt_spec (sk : SalSock) {skb : SkBuff} (room : 20 ≤ skb.headroom.length) :
    ∃ e skb', servalSalAddCtrlExt sk skb = .ok (20, skb') ∧
      (SalExt.join [e]).length = 20 ∧ Grown skb [e] skb' ∧
      Contents [e]
        [(UInt16.ofNat (skb.cb.flags.toNat % 64), skb.cb.verno, sk.rcvNxt,
          sk.localNonce.toList)] [] [] := by
  obtain ⟨e, old, skb', -, kind, bytes, total, run, grown⟩ :=
    @pushPart_grown skb 20 (fun old => controlExt old sk skb.cb) .control
      room (fun old _ => (SalExt.control old sk skb.cb).ok)
      (fun old _ => length_controlExt old sk skb.cb)
  refine ⟨e, skb', run, total, grown, ?_⟩
  have same : e = SalExt.control old sk skb.cb := by
    cases e
    cases kind
    cases bytes
    rfl
  have fields := SalExt.control_fields old sk skb.cb
  rw [← same] at fields
  constructor <;> simp [SalExt.select, kind, fields]

def BuiltContents (sk : SalSock) (cb : SalSkbCb) (authenticator : UInt64)
    (exts : List SalExt) : Prop :=
  Contents exts
    (if isControl cb.flags then
      [(UInt16.ofNat (cb.flags.toNat % 64), cb.verno, sk.rcvNxt, sk.localNonce.toList)]
    else [])
    (if isControl cb.flags then
      if namesService cb.flags then [sk.peerSrvid.toList] else []
    else if unconnected sk then
      [sk.peerSrvid.toList, sk.localSrvid.toList]
    else [])
    (if authenticator ≠ 0 then [leBytes 8 authenticator.toNat] else [])

theorem addExtensions_spec (sk : SalSock) {skb : SkBuff} (room : 72 ≤ skb.headroom.length) :
    ∃ exts skb', addExtensions sk skb = .ok ((SalExt.join exts).length, skb') ∧
      (SalExt.join exts).length ≤ 72 ∧ (SalExt.join exts).length % 4 = 0 ∧
      Grown skb exts skb' ∧ BuiltContents sk skb.cb 0 exts := by
  cases control : isControl skb.cb.flags with
  | true =>
    cases named : namesService skb.cb.flags with
    | true =>
      obtain ⟨service, skb₁, addedService, serviceLen, grown₁, content₁⟩ :=
        @servalSalAddServiceExt_spec skb (by omega) sk.peerSrvid
      have left := grown₁.headroom
      obtain ⟨ctrl, skb₂, addedCtrl, ctrlLen, grown₂, content₂⟩ :=
        @servalSalAddCtrlExt_spec sk skb₁ (by omega)
      rw [grown₁.cb] at content₂
      have total : (SalExt.join ([ctrl] ++ [service])).length = 56 := by
        rw [SalExt.join_append, List.length_append, serviceLen, ctrlLen]
      refine ⟨[ctrl] ++ [service], skb₂, ?_, by omega, by omega, grown₁.trans grown₂, ?_⟩
      · rw [addExtensions, if_pos control, if_pos named, addedService]
        simp only [addedCtrl, ok_bind, total]
      · rw [BuiltContents, if_pos control, if_pos control, if_pos named]
        exact content₂.append content₁
    | false =>
      obtain ⟨ctrl, skb₁, addedCtrl, ctrlLen, grown₁, content₁⟩ :=
        @servalSalAddCtrlExt_spec sk skb (by omega)
      refine ⟨[ctrl], skb₁, ?_, by omega, by omega, grown₁, ?_⟩
      · rw [addExtensions, if_pos control, if_neg (by rw [named]; decide)]
        simp only [addedCtrl, ok_bind, ctrlLen]
      · rw [BuiltContents, if_pos control, if_pos control, if_neg (by rw [named]; decide)]
        exact content₁
  | false =>
    have noControl : ¬ isControl skb.cb.flags = true := by
      rw [control]
      decide
    cases datagram : unconnected sk with
    | true =>
      obtain ⟨own, skb₁, addedOwn, ownLen, grown₁, content₁⟩ :=
        @servalSalAddServiceExt_spec skb (by omega) sk.localSrvid
      have left := grown₁.headroom
      obtain ⟨peer, skb₂, addedPeer, peerLen, grown₂, content₂⟩ :=
        @servalSalAddServiceExt_spec skb₁ (by omega) sk.peerSrvid
      have total : (SalExt.join ([peer] ++ [own])).length = 72 := by
        rw [SalExt.join_append, List.length_append, ownLen, peerLen]
      refine ⟨[peer] ++ [own], skb₂, ?_, by omega, by omega, grown₁.trans grown₂, ?_⟩
      · rw [addExtensions, if_neg noControl, if_pos datagram, addedOwn]
        simp only [addedPeer, ok_bind, total]
      · rw [BuiltContents, if_neg noControl, if_neg noControl, if_pos datagram]
        exact content₂.append content₁
    | false =>
      have connected : ¬ unconnected sk = true := by
        rw [datagram]
        decide
      refine ⟨[], skb, ?_, by decide, rfl, Grown.refl skb, ?_⟩
      · rw [addExtensions, if_neg noControl, if_neg connected]
        rfl
      · rw [BuiltContents, if_neg noControl, if_neg noControl, if_neg connected]
        exact Contents.nil

theorem addAuthenticator_spec {skb : SkBuff} (authenticator : UInt64)
    (room : 12 ≤ skb.headroom.length) :
    ∃ exts skb', addAuthenticator skb authenticator = .ok ((SalExt.join exts).length, skb') ∧
      (SalExt.join exts).length ≤ 12 ∧ (SalExt.join exts).length % 4 = 0 ∧ Grown skb exts skb' ∧
      Contents exts [] []
        (if authenticator ≠ 0 then [leBytes 8 authenticator.toNat]
        else []) := by
  by_cases given : authenticator ≠ 0
  · obtain ⟨e, skb', added, length, grown, content⟩ := servalSalAddTaasExt_spec room authenticator
    rw [addAuthenticator, if_pos given, if_pos given]
    exact ⟨[e], skb', by rw [added, length], by omega, by omega, grown, content⟩
  · rw [addAuthenticator, if_neg given, if_neg given]
    exact ⟨[], skb, rfl, by decide, rfl, Grown.refl skb, Contents.nil⟩

/-- The header: the base header, the extensions, and the data as before. -/
theorem servalSalBuildHeader_spec (sk : SalSock) {skb : SkBuff} (authenticator : UInt64)
    (room : 96 ≤ skb.headroom.length) :
    ∃ exts old skb', servalSalBuildHeader sk skb authenticator = .ok skb' ∧
      old.length = 12 ∧ (SalExt.join exts).length ≤ 84 ∧ (SalExt.join exts).length % 4 = 0 ∧
      skb'.data = salHdr old sk ((SalExt.join exts).length + 12) ++ (SalExt.join exts ++ skb.data) ∧
      BuiltContents sk skb.cb authenticator exts := by
  obtain ⟨exts, skb₁, added, short, whole₁, grown, content⟩ := @addExtensions_spec sk skb (by omega)
  have left := grown.headroom
  obtain ⟨taas, skb₂, addedTaas, short', whole₂, grown', content'⟩ :=
    @addAuthenticator_spec skb₁ authenticator (by omega)
  have left' := grown'.headroom
  have whole := grown.trans grown'
  have length : (SalExt.join exts).length + (SalExt.join taas).length + salHeaderLen =
        (SalExt.join (taas ++ exts)).length + 12 := by
    rw [SalExt.join_append, List.length_append, salHeaderLen]
    omega
  obtain ⟨old, skb₃, size, pushed, data, -, -⟩ := @pushPart_of_le skb₂ salHeaderLen
      (fun old => salHdr old sk ((SalExt.join (taas ++ exts)).length + 12))
      (by rw [salHeaderLen]; omega)
  refine ⟨taas ++ exts, old, skb₃, ?_, size, ?_, ?_, ?_, ?_⟩
  · simp only [servalSalBuildHeader, added, ok_bind, addedTaas, length, pushed]
  · rw [SalExt.join_append, List.length_append]
    omega
  · rw [SalExt.join_append, List.length_append]
    omega
  · rw [data, whole.data]
  · have both := content'.append content
    simpa [BuiltContents] using both

/-! ## A smaller headroom -/

private def SkBuff.deeper (extra : List UInt8) (skb : SkBuff) : SkBuff :=
  { skb with headroom := extra ++ skb.headroom }

section

variable (extra : List UInt8) {skb skb' : SkBuff} {len : Nat}

theorem skbPush_deeper {size : Nat} {old : List UInt8} (run : skbPush skb size = .ok (old, skb')) :
    skbPush (skb.deeper extra) size = .ok (old, skb'.deeper extra) := by
  rw [skbPush] at run
  split_ifs at run with room
  cases run
  have keep : (extra ++ skb.headroom).length - size =
        extra.length + (skb.headroom.length - size) := by
    rw [List.length_append]
    omega
  have more : size ≤ (extra ++ skb.headroom).length := by
    rw [List.length_append]
    omega
  show (if size ≤ (extra ++ skb.headroom).length then _ else _) = _
  rw [if_pos more]
  simp only [SkBuff.deeper, keep, List.drop_length_add_append, List.take_length_add_append]

theorem pushPart_deeper {size : Nat} {part : List UInt8 → List UInt8}
    (run : pushPart skb size part = .ok (len, skb')) :
    pushPart (skb.deeper extra) size part = .ok (len, skb'.deeper extra) := by
  obtain ⟨⟨old, skb₁⟩, pushed, run⟩ := of_bind run
  cases run
  rw [pushPart, skbPush_deeper extra pushed]
  rfl

theorem addExtensions_deeper {sk : SalSock} (run : addExtensions sk skb = .ok (len, skb')) :
    addExtensions sk (skb.deeper extra) = .ok (len, skb'.deeper extra) := by
  have sameCb : (skb.deeper extra).cb = skb.cb := rfl
  have service {skb₁ skb₂ : SkBuff} {size : Nat} {srvid : Vector UInt8 32}
      (added : servalSalAddServiceExt skb₁ srvid = .ok (size, skb₂)) :
      servalSalAddServiceExt (skb₁.deeper extra) srvid = .ok (size, skb₂.deeper extra) :=
    pushPart_deeper extra added
  have ctrl {skb₁ skb₂ : SkBuff} {size : Nat}
      (added : servalSalAddCtrlExt sk skb₁ = .ok (size, skb₂)) :
      servalSalAddCtrlExt sk (skb₁.deeper extra) = .ok (size, skb₂.deeper extra) :=
    pushPart_deeper extra added
  rw [addExtensions] at run ⊢
  rw [sameCb]
  split_ifs at run ⊢ with control named datagram
  · obtain ⟨⟨srvLen, skb₁⟩, addedService, run⟩ := of_bind run
    obtain ⟨⟨ctrlLen, skb₂⟩, addedCtrl, run⟩ := of_bind run
    cases run
    rw [service addedService]
    simp only [ctrl addedCtrl, ok_bind]
  · rw [ok_bind] at run
    obtain ⟨⟨ctrlLen, skb₁⟩, addedCtrl, run⟩ := of_bind run
    cases run
    simp only [ctrl addedCtrl, ok_bind]
  · obtain ⟨⟨localLen, skb₁⟩, addedLocal, run⟩ := of_bind run
    obtain ⟨⟨peerLen, skb₂⟩, addedPeer, run⟩ := of_bind run
    cases run
    rw [service addedLocal]
    simp only [service addedPeer, ok_bind]
  · cases run
    rfl

theorem addAuthenticator_deeper {authenticator : UInt64}
    (run : addAuthenticator skb authenticator = .ok (len, skb')) :
    addAuthenticator (skb.deeper extra) authenticator = .ok (len, skb'.deeper extra) := by
  rw [addAuthenticator] at run ⊢
  split_ifs at run ⊢ with given
  · exact pushPart_deeper extra run
  · cases run
    rfl

theorem servalSalBuildHeader_deeper {sk : SalSock} {authenticator : UInt64}
    (run : servalSalBuildHeader sk skb authenticator = .ok skb') :
    servalSalBuildHeader sk (skb.deeper extra) authenticator = .ok (skb'.deeper extra) := by
  obtain ⟨⟨extLen, skb₁⟩, added, run⟩ := of_bind run
  obtain ⟨⟨taasLen, skb₂⟩, addedTaas, run⟩ := of_bind run
  obtain ⟨⟨baseLen, skb₃⟩, pushed, run⟩ := of_bind run
  cases run
  rw [servalSalBuildHeader, addExtensions_deeper extra added]
  simp only [addAuthenticator_deeper extra addedTaas, ok_bind, pushPart_deeper extra pushed]

end

/-- A header that was built is as the specification says, whether or not the
headroom would have sufficed for any other. -/
theorem servalSalBuildHeader_built {sk : SalSock} {skb' : SkBuff} {authenticator : UInt64}
    (run : servalSalBuildHeader sk skb authenticator = .ok skb') :
    ∃ exts old, old.length = 12 ∧ (SalExt.join exts).length ≤ 84 ∧
      (SalExt.join exts).length % 4 = 0 ∧
      skb'.data = salHdr old sk ((SalExt.join exts).length + 12) ++ (SalExt.join exts ++ skb.data) ∧
      BuiltContents sk skb.cb authenticator exts := by
  have deeper := servalSalBuildHeader_deeper (List.replicate 96 0) run
  obtain ⟨exts, old, skb₁, built, size, short, whole, data, content⟩ :=
    @servalSalBuildHeader_spec sk (skb.deeper (List.replicate 96 0))
      authenticator (by
        rw [SkBuff.deeper, List.length_append, List.length_replicate]
        omega)
  rw [deeper] at built
  cases built
  exact ⟨exts, old, size, short, whole, data, content⟩

end Serval
