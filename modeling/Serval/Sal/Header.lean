import Serval.Sal.Loops

/-!
# Headers as the handlers see them

The handlers of received packets look at the header through the context that
the parser filled in.
-/

namespace Serval

open Serval.Support

/-- The fields of `struct sal_control_ext`. -/
structure ControlExt where
  extLength : Nat
  syn : Bool
  rsyn : Bool
  ack : Bool
  nack : Bool
  rst : Bool
  fin : Bool
  verno : UInt32
  ackno : UInt32
  nonce : Vector UInt8 8
  deriving DecidableEq, Repr

structure ServiceExt where
  extLength : Nat
  srvid : Vector UInt8 32
  deriving DecidableEq, Repr

/-- A parsed header. The source extension is kept as it is, its addresses are
read by position. -/
structure SalHeader where
  srcFlowid : Vector UInt8 4
  dstFlowid : Vector UInt8 4
  protocol : UInt8
  length : Nat
  ctrlExt : Option ControlExt
  srvExt0 : Option ServiceExt
  srvExt1 : Option ServiceExt
  srcExt : Option (List UInt8)
  taasExt : Option UInt64
  deriving DecidableEq, Repr

namespace SalHeader

variable (hdr : SalHeader)

/-- The flags, the version and the acknowledgement in the context come from
the control extension and are zero without one, so that `ctx->flags & SVH_SYN`
is what the extension says. -/
def hasSyn : Bool := hdr.ctrlExt.any ControlExt.syn

def hasRsyn : Bool := hdr.ctrlExt.any ControlExt.rsyn

def hasAck : Bool := hdr.ctrlExt.any ControlExt.ack

def hasRst : Bool := hdr.ctrlExt.any ControlExt.rst

def hasFin : Bool := hdr.ctrlExt.any ControlExt.fin

def verno : UInt32 := (hdr.ctrlExt.map ControlExt.verno).getD 0

def ackno : UInt32 := (hdr.ctrlExt.map ControlExt.ackno).getD 0

end SalHeader

/-! ## What the context shows -/

section

variable (packet : List UInt8) (ext : Nat)

def bytesAt (start size : Nat) : Vector UInt8 size :=
  Vector.ofFn fun index => packet.getD (start + index) 0

def controlExtAt : ControlExt :=
  let bits := (packet.getD (ext + 2) 0).toNat
  { extLength := (packet.getD (ext + 1) 0).toNat
    syn := bits.testBit 7
    rsyn := bits.testBit 6
    ack := bits.testBit 5
    nack := bits.testBit 4
    rst := bits.testBit 3
    fin := bits.testBit 2
    verno := ntohl (fieldAt packet 4 4 ext)
    ackno := ntohl (fieldAt packet 8 4 ext)
    nonce := bytesAt packet (ext + 12) 8 }

def serviceExtAt : ServiceExt where
  extLength := (packet.getD (ext + 1) 0).toNat
  srvid := bytesAt packet (ext + 4) 32

def sourceExtAt : List UInt8 := (packet.drop ext).take (packet.getD (ext + 1) 0).toNat

def taasExtAt : UInt64 := UInt64.ofNat (leNat (fieldAt packet 4 8 ext))

def SalHeader.ofContext (ctx : SalContext) : SalHeader where
  srcFlowid := bytesAt packet 0 4
  dstFlowid := bytesAt packet 4 4
  protocol := packet.getD 9 0
  length := ctx.length.toNat
  ctrlExt := ctx.ctrlExt.map (controlExtAt packet)
  srvExt0 := ctx.srvExt0.map (serviceExtAt packet)
  srvExt1 := ctx.srvExt1.map (serviceExtAt packet)
  srcExt := ctx.srcExt.map (sourceExtAt packet)
  taasExt := ctx.taasExt.map (taasExtAt packet)

end

def ControlExt.ofBuild (sk : SalSock) (cb : SalSkbCb) : ControlExt where
  extLength := 20
  syn := hasFlag cb.flags svhSyn
  rsyn := hasFlag cb.flags svhRsyn
  ack := hasFlag cb.flags svhAck
  nack := hasFlag cb.flags svhNack
  rst := hasFlag cb.flags svhRst
  fin := hasFlag cb.flags svhFin
  verno := cb.verno
  ackno := sk.rcvNxt
  nonce := sk.localNonce

def builtServices (sk : SalSock) (flags : UInt8) : List (Vector UInt8 32) :=
  if isControl flags then
    if namesService flags then [sk.peerSrvid] else []
  else if unconnected sk then [sk.peerSrvid, sk.localSrvid]
  else []

def SalHeader.ofBuild (sk : SalSock) (cb : SalSkbCb) (authenticator : UInt64) : SalHeader where
  srcFlowid := sk.localFlowid
  dstFlowid := sk.peerFlowid
  protocol := sk.skProtocol
  length := 12 + (if isControl cb.flags then 20 else 0) + 36 * (builtServices sk cb.flags).length +
      (if authenticator ≠ 0 then 12 else 0)
  ctrlExt :=
    if isControl cb.flags then some (ControlExt.ofBuild sk cb) else none
  srvExt0 := (builtServices sk cb.flags)[0]?.map fun id => ⟨36, id⟩
  srvExt1 := (builtServices sk cb.flags)[1]?.map fun id => ⟨36, id⟩
  srcExt := none
  taasExt := if authenticator ≠ 0 then some authenticator else none

variable {cb : SalSkbCb} {packet : List UInt8} {skb' : SkBuff}
    {authenticator : UInt64} {rest : List UInt8}

theorem SalHeader.ofBuild_ctrlExt (control : isControl cb.flags = true)
    (sk : SalSock) (authenticator : UInt64) :
    (SalHeader.ofBuild sk cb authenticator).ctrlExt = some (ControlExt.ofBuild sk cb) :=
  if_pos control

/-! ## Reading an extension in its place -/

section

variable {e : SalExt} {packet rest : List UInt8} {offset : Nat}
  (here : packet.drop offset = e.bytes ++ rest)

include here

theorem getD_of_here {index : Nat} (inside : index < e.bytes.length) :
    packet.getD (offset + index) 0 = e.bytes.getD index 0 := by
  have moved : packet[offset + index]? = (e.bytes ++ rest)[index]? := by
    rw [← here, List.getElem?_drop]
  rw [List.getD_eq_getElem?_getD, List.getD_eq_getElem?_getD, moved,
    List.getElem?_append_left inside]

theorem bytesAt_of_here {start size : Nat} (inside : start + size ≤ e.bytes.length) :
    bytesAt packet (offset + start) size = bytesAt e.bytes start size := by
  ext index below
  simp only [bytesAt, Vector.getElem_ofFn, Nat.add_assoc]
  rw [getD_of_here here (by omega)]

theorem fieldAt_bytes {start size : Nat} (inside : start + size ≤ e.bytes.length) :
    fieldAt packet start size offset = fieldAt e.bytes start size 0 := by
  rw [fieldAt_of_here here inside, SalExt.field, fieldAt, Nat.zero_add]

theorem controlExtAt_of_here (long : 20 ≤ e.bytes.length) :
    controlExtAt packet offset = controlExtAt e.bytes 0 := by
  have bits := getD_of_here here (show 2 < e.bytes.length by omega)
  have length := getD_of_here here (show 1 < e.bytes.length by omega)
  have verno := fieldAt_bytes here (show 4 + 4 ≤ e.bytes.length by omega)
  have ackno := fieldAt_bytes here (show 8 + 4 ≤ e.bytes.length by omega)
  have nonce := bytesAt_of_here here (show 12 + 8 ≤ e.bytes.length by omega)
  simp only [controlExtAt, bits, length, verno, ackno, nonce, Nat.zero_add]

theorem serviceExtAt_of_here (long : 36 ≤ e.bytes.length) :
    serviceExtAt packet offset = serviceExtAt e.bytes 0 := by
  have length := getD_of_here here (show 1 < e.bytes.length by omega)
  have srvid := bytesAt_of_here here (show 4 + 32 ≤ e.bytes.length by omega)
  simp only [serviceExtAt, length, srvid, Nat.zero_add]

theorem taasExtAt_of_here (long : 12 ≤ e.bytes.length) :
    taasExtAt packet offset = taasExtAt e.bytes 0 := by
  rw [taasExtAt, taasExtAt, fieldAt_bytes here (show 4 + 8 ≤ e.bytes.length by omega)]

end

variable {e : SalExt} {sk : SalSock} {skb : SkBuff}

theorem sourceExtAt_of_here {offset : Nat}
    (here : packet.drop offset = e.bytes ++ rest) (sized : e.kind ≠ .pad) :
    sourceExtAt packet offset = e.bytes := by
  have long := SalExt.twelve_le_length sized
  rw [sourceExtAt, getD_of_here here (show 1 < e.bytes.length by omega), SalExt.lengthByte sized,
    here, List.take_left]

variable {exts : List SalExt}

theorem SalHeader.ofContext_eq {ctx : SalContext}
    (described : Describes (SalExt.placed 12 exts) ctx)
    (here : packet.drop 12 = SalExt.join exts ++ rest) :
    SalHeader.ofContext packet ctx =
      { srcFlowid := bytesAt packet 0 4
        dstFlowid := bytesAt packet 4 4
        protocol := packet.getD 9 0
        length := ctx.length.toNat
        ctrlExt := (SalExt.select .control exts)[0]?.map
            fun e => controlExtAt e.bytes 0
        srvExt0 := (SalExt.select .service exts)[0]?.map
            fun e => serviceExtAt e.bytes 0
        srvExt1 := (SalExt.select .service exts)[1]?.map
            fun e => serviceExtAt e.bytes 0
        srcExt := (SalExt.select .source exts)[0]?.map SalExt.bytes
        taasExt := (SalExt.select .taas exts)[0]?.map
            fun e => taasExtAt e.bytes 0 } := by
  have pointed {α : Type} {kind : SalExtType} {read : Nat → α} {view : SalExt → α}
      (local' : ∀ (e : SalExt) (rest : List UInt8) (offset : Nat), e.kind = kind →
          packet.drop offset = e.bytes ++ rest → read offset = view e)
      (index : Nat) :
      ((SalExt.ofKind kind (SalExt.placed 12 exts))[index]?.map Prod.fst).map read =
        (SalExt.select kind exts)[index]?.map view := by
    have all := congrArg (·[index]?) (SalExt.ofKind_read local' here)
    simp only [List.getElem?_map] at all
    rw [Option.map_map, ← all]
    rfl
  have least {e : SalExt} {kind : SalExtType} (same : e.kind = kind) :
      leastLength kind ≤ e.bytes.length := by
    rw [← same]
    exact e.least
  rw [SalHeader.ofContext, described.ctrlExt, described.srvExt0, described.srvExt1,
    described.srcExt, described.taasExt,
    pointed fun e _ _ same at' => controlExtAt_of_here at' (@least e .control same),
    pointed fun e _ _ same at' => serviceExtAt_of_here at' (@least e .service same),
    pointed fun e _ _ same at' => serviceExtAt_of_here at' (@least e .service same),
    pointed fun e _ _ same at' => sourceExtAt_of_here at' (by rw [same]; decide),
    pointed fun e _ _ same at' => taasExtAt_of_here at' (@least e .taas same)]

theorem bytesAt_eq {packet : List UInt8} {start size : Nat} {value : Vector UInt8 size}
    (read : (packet.drop start).take size = value.toList) :
    bytesAt packet start size = value := by
  ext index below
  have same : packet[start + index]? = some value[index] := by
    rw [← List.getElem?_drop, ← List.getElem?_take_of_lt below, read]
    simp [below]
  simp only [bytesAt, Vector.getElem_ofFn]
  rw [List.getD_eq_getElem?_getD, same, Option.getD_some]

theorem SalExt.bits_of_flags {flags : UInt8} (read : e.flags = UInt16.ofNat (flags.toNat % 64)) :
    (e.bytes.getD 2 0).toNat.testBit 7 = hasFlag flags svhSyn ∧
      (e.bytes.getD 2 0).toNat.testBit 6 = hasFlag flags svhRsyn ∧
      (e.bytes.getD 2 0).toNat.testBit 5 = hasFlag flags svhAck ∧
      (e.bytes.getD 2 0).toNat.testBit 4 = hasFlag flags svhNack ∧
      (e.bytes.getD 2 0).toNat.testBit 3 = hasFlag flags svhRst ∧
      (e.bytes.getD 2 0).toNat.testBit 2 = hasFlag flags svhFin := by
  have sum := congrArg UInt16.toNat read
  rw [← hasFlag_sum, SalExt.flags] at sum
  simp only [SalExt.bit, svhSyn, svhRsyn, svhAck, svhNack, svhRst, svhFin]
    at sum ⊢
  generalize (e.bytes.getD 2 0).toNat = bits at sum ⊢
  have left := fun index => Bool.toNat_le (bits.testBit index)
  have right := fun mask => Bool.toNat_le (hasFlag flags mask)
  have l7 := left 7
  have l6 := left 6
  have l5 := left 5
  have l4 := left 4
  have l3 := left 3
  have l2 := left 2
  have r1 := right 1
  have r2 := right 2
  have r4 := right 4
  have r8 := right 8
  have r16 := right 16
  have r32 := right 32
  rw [UInt16.toNat_ofNat_of_lt' (by show _ < 65536; omega),
    UInt16.toNat_ofNat_of_lt' (by show _ < 65536; omega)] at sum
  have inj {first second : Bool} (same : first.toNat = second.toNat) : first = second := by
    cases first <;> cases second <;> first | rfl | cases same
  refine ⟨?_, ?_, ?_, ?_, ?_, ?_⟩ <;> apply inj <;> omega

/-- No extension is longer than it must be when their whole length is the
least. -/
theorem SalExt.exact_of_sum
    (total : (join exts).length = (exts.map fun e => leastLength e.kind).sum) :
    ∀ e ∈ exts, e.bytes.length = leastLength e.kind := by
  have most (row : List SalExt) :
      (row.map fun e => leastLength e.kind).sum ≤ (join row).length := by
    induction row with
    | nil => simp
    | cons e rest ih =>
      have least := e.least
      simp only [List.map_cons, List.sum_cons, join, List.flatten_cons, List.length_append] at ih ⊢
      omega
  induction exts with
  | nil => simp
  | cons e rest ih =>
    have least := e.least
    have others := most rest
    simp only [List.map_cons, List.sum_cons, join, List.flatten_cons,
      List.length_append] at total others
    intro e' member
    rcases List.mem_cons.mp member with rfl | later
    · omega
    · exact ih (by rw [join]; omega) e' later

theorem length_of_pushPart {size len : Nat} {part : List UInt8 → List UInt8}
    (whole : ∀ old, old.length = size → (part old).length = size)
    (run : pushPart skb size part = .ok (len, skb')) :
    len = size ∧ skb'.data.length = size + skb.data.length ∧ skb'.cb = skb.cb := by
  obtain ⟨-, same, old, length, data, -, cb⟩ := pushPart_inv run
  refine ⟨same, ?_, cb⟩
  rw [data, List.length_append, whole old length]

theorem length_of_addExtensions {len : Nat} (run : addExtensions sk skb = .ok (len, skb')) :
    skb'.data.length = (if isControl skb.cb.flags then 20 else 0) +
          36 * (builtServices sk skb.cb.flags).length + skb.data.length := by
  have service {skb₁ skb₂ : SkBuff} {size : Nat} {srvid : Vector UInt8 32}
      (added : servalSalAddServiceExt skb₁ srvid = .ok (size, skb₂)) :=
    length_of_pushPart (fun old size => by
      simp [serviceExt, extHdr, size]) added
  have ctrl {skb₁ skb₂ : SkBuff} {size : Nat}
      (added : servalSalAddCtrlExt sk skb₁ = .ok (size, skb₂)) :=
    length_of_pushPart (fun old _ => length_controlExt old sk skb₁.cb) added
  rw [addExtensions] at run
  rw [builtServices]
  split_ifs at run ⊢ with control named datagram
  · obtain ⟨⟨srvLen, skb₁⟩, addedService, run⟩ := of_bind run
    obtain ⟨⟨ctrlLen, skb₂⟩, addedCtrl, run⟩ := of_bind run
    cases run
    rw [(ctrl addedCtrl).2.1, (service addedService).2.1]
    simp only [List.length_cons, List.length_nil]
    omega
  · rw [ok_bind] at run
    obtain ⟨⟨ctrlLen, skb₁⟩, addedCtrl, run⟩ := of_bind run
    cases run
    rw [(ctrl addedCtrl).2.1, List.length_nil]
  · obtain ⟨⟨localLen, skb₁⟩, addedLocal, run⟩ := of_bind run
    obtain ⟨⟨peerLen, skb₂⟩, addedPeer, run⟩ := of_bind run
    cases run
    rw [(service addedPeer).2.1, (service addedLocal).2.1]
    simp only [List.length_cons, List.length_nil]
    omega
  · cases run
    simp

theorem length_of_buildHeader (run : servalSalBuildHeader sk skb authenticator = .ok skb') :
    skb'.data.length = (SalHeader.ofBuild sk skb.cb authenticator).length + skb.data.length := by
  obtain ⟨⟨extLen, skb₁⟩, added, run⟩ := of_bind run
  obtain ⟨⟨taasLen, skb₂⟩, addedTaas, run⟩ := of_bind run
  obtain ⟨⟨baseLen, skb₃⟩, pushed, run⟩ := of_bind run
  cases run
  have base := length_of_pushPart (fun old size => by
    simp [salHdr, size, salHeaderLen]) pushed
  have taas : skb₂.data.length = (if authenticator ≠ 0 then 12 else 0) + skb₁.data.length := by
    rw [addAuthenticator] at addedTaas
    split_ifs at addedTaas ⊢ with given
    · exact (length_of_pushPart (fun old size => by
        simp [taasExt, extHdr, size, length_leBytes]) addedTaas).2.1
    · cases addedTaas
      rw [Nat.zero_add]
  rw [base.2.1, taas, length_of_addExtensions added, salHeaderLen]
  simp only [SalHeader.ofBuild]
  omega

theorem BuiltContents.exact (content : BuiltContents sk cb authenticator exts)
    (total : 12 + (SalExt.join exts).length = (SalHeader.ofBuild sk cb authenticator).length) :
    ∀ e ∈ exts, e.bytes.length = leastLength e.kind := by
  have sum (row : List SalExt)
      (kinds : ∀ e ∈ row, e.kind = .control ∨ e.kind = .service ∨ e.kind = .taas) :
      (row.map fun e => leastLength e.kind).sum =
        20 * SalExt.count .control row + 36 * SalExt.count .service row +
          12 * SalExt.count .taas row := by
    induction row with
    | nil => rfl
    | cons e rest ih =>
      have others := ih fun e' member =>
        kinds e' (List.mem_cons_of_mem e member)
      rw [List.map_cons, List.sum_cons, others, SalExt.count_cons, SalExt.count_cons,
        SalExt.count_cons]
      rcases kinds e List.mem_cons_self with kind | kind | kind <;>
        simp [kind, leastLength] <;> omega
  obtain ⟨-, -, -, -, whole⟩ := content.counts
  apply SalExt.exact_of_sum
  have controls := congrArg List.length content.ofControl
  have services := congrArg List.length content.ofService
  have authenticators := congrArg List.length content.ofTaas
  rw [List.length_map, ← SalExt.count_eq_select] at controls services
  rw [List.length_map, ← SalExt.count_eq_select] at authenticators
  rw [sum exts (kinds_of_total whole), controls, services, authenticators]
  simp only [SalHeader.ofBuild, builtServices] at total
  revert total
  cases isControl cb.flags <;> cases namesService cb.flags <;>
    cases unconnected sk <;> by_cases given : authenticator = 0 <;>
    simp [given] <;> omega

/-- The control extension that is built, as the receiver reads it. -/
theorem controlExtAt_built (kind : e.kind = .control) (length : e.bytes.length = 20)
    (fields :
      e.controlFields = (UInt16.ofNat (cb.flags.toNat % 64), cb.verno, sk.rcvNxt,
          sk.localNonce.toList)) :
    controlExtAt e.bytes 0 = ControlExt.ofBuild sk cb := by
  simp only [SalExt.controlFields, Prod.mk.injEq] at fields
  obtain ⟨flags, verno, ackno, nonce⟩ := fields
  obtain ⟨syn, rsyn, ack, nack, rst, fin⟩ := SalExt.bits_of_flags flags
  have lengthByte := SalExt.lengthByte (show e.kind ≠ .pad by
    rw [kind]
    decide)
  have first : ntohl (fieldAt e.bytes 4 4 0) = cb.verno := verno
  have second : ntohl (fieldAt e.bytes 8 4 0) = sk.rcvNxt := ackno
  rw [controlExtAt, first, second, bytesAt_eq nonce]
  simp only [Nat.zero_add, syn, rsyn, ack, nack, rst, fin, lengthByte, length, ControlExt.ofBuild]

theorem serviceExtAt_built {row : List SalExt} {ids : List (Vector UInt8 32)}
    (lengths : ∀ e ∈ row, e.kind = .service ∧ e.bytes.length = 36)
    (named : row.map (SalExt.field 4 32) = ids.map Vector.toList) :
    row.map (fun e => serviceExtAt e.bytes 0) = ids.map fun id => ⟨36, id⟩ := by
  induction row generalizing ids with
  | nil =>
    cases ids with
    | nil => rfl
    | cons id others => cases named
  | cons e rest ih =>
    cases ids with
    | nil => cases named
    | cons id others =>
      obtain ⟨first, tail⟩ := List.cons_eq_cons.mp named
      obtain ⟨kind, length⟩ := lengths e List.mem_cons_self
      have lengthByte := SalExt.lengthByte (show e.kind ≠ .pad by
        rw [kind]
        decide)
      rw [List.map_cons, List.map_cons,
        ih (fun e' member => lengths e' (List.mem_cons_of_mem e member)) tail, serviceExtAt,
        bytesAt_eq first, lengthByte, length]

section

variable {sk : SalSock} {cb : SalSkbCb} {authenticator : UInt64}
  {exts : List SalExt} (content : BuiltContents sk cb authenticator exts)
  (lengths : ∀ e ∈ exts, e.bytes.length = leastLength e.kind)

include content lengths

theorem BuiltContents.ctrlExt : ((SalExt.select .control exts)[0]?.map
        fun e => controlExtAt e.bytes 0) =
      if isControl cb.flags then some (ControlExt.ofBuild sk cb)
      else none := by
  have fields := content.ofControl
  split_ifs at fields ⊢ with control
  · obtain ⟨e, single, read⟩ := List.map_eq_singleton_iff.mp fields
    have member : e ∈ SalExt.select .control exts := by
      rw [single]
      exact List.mem_singleton_self e
    obtain ⟨inside, isControl⟩ := List.mem_filter.mp member
    have kind : e.kind = .control := of_decide_eq_true isControl
    have length := lengths e inside
    rw [kind] at length
    rw [single, List.getElem?_cons_zero, Option.map_some, controlExtAt_built kind length read]
  · rw [List.map_eq_nil_iff.mp fields]
    rfl

theorem BuiltContents.srvExts :
    (SalExt.select .service exts).map (fun e => serviceExtAt e.bytes 0) =
      (builtServices sk cb.flags).map fun id => ⟨36, id⟩ := by
  apply serviceExtAt_built
  · intro e member
    obtain ⟨inside, isService⟩ := List.mem_filter.mp member
    have kind : e.kind = .service := of_decide_eq_true isService
    have length := lengths e inside
    rw [kind] at length
    exact ⟨kind, length⟩
  · rw [content.ofService, builtServices]
    split_ifs <;> rfl

omit lengths in
theorem BuiltContents.taasExt : ((SalExt.select .taas exts)[0]?.map fun e => taasExtAt e.bytes 0) =
      if authenticator ≠ 0 then some authenticator else none := by
  have fields := content.ofTaas
  split_ifs at fields ⊢ with given
  · obtain ⟨e, single, read⟩ := List.map_eq_singleton_iff.mp fields
    have stored : fieldAt e.bytes 4 8 0 = leBytes 8 authenticator.toNat := read
    rw [single, List.getElem?_cons_zero, Option.map_some, taasExtAt, stored, ofNat_leNat_leBytes]
  · rw [List.map_eq_nil_iff.mp fields]
    rfl

end

theorem flowids_of_take (ids : packet.take 8 = sk.localFlowid.toList ++ sk.peerFlowid.toList) :
    bytesAt packet 0 4 = sk.localFlowid ∧ bytesAt packet 4 4 = sk.peerFlowid := by
  constructor
  · apply bytesAt_eq
    have cut := congrArg (List.take 4) ids
    rwa [List.take_take, List.take_left' (by simp)] at cut
  · apply bytesAt_eq
    have cut := congrArg (List.drop 4) ids
    rwa [List.drop_take, List.drop_left' (by simp)] at cut

/-- What the receiver sees of a header is what it was built from. -/
theorem Originates.header (originates : Originates sk skb authenticator packet) : ∃ ctx,
      servalSalParseHdr packet .all = .ok (0, ctx) ∧
      SalHeader.ofContext packet ctx = SalHeader.ofBuild sk skb.cb authenticator ∧
      packet.drop (salLength packet) = skb.data := by
  obtain ⟨exts, skb', built, length, shaped, plain, content⟩ := originates.shaped
  have few := plain.room
  obtain ⟨split, behind, inside⟩ := shaped.split (by omega) plain.controls plain.services
    (by rw [SalExt.count_eq_select, content.noSource]; decide) plain.taas
  obtain ⟨ctx, parsed, sameLength, described⟩ := split.parse inside
  obtain ⟨ids, protocol, here, total, whole⟩ := Framed.parts shaped
  have size := length_of_buildHeader built
  have lengths := content.exact (by omega)
  obtain ⟨source, destination⟩ := flowids_of_take ids
  have srvExt (index : Nat) : ((SalExt.select .service exts)[index]?.map
          fun e => serviceExtAt e.bytes 0) =
        (builtServices sk skb.cb.flags)[index]?.map fun id => ⟨36, id⟩ := by
    rw [← List.getElem?_map, content.srvExts lengths, List.getElem?_map]
  have noSource : (SalExt.select .source exts)[0]?.map SalExt.bytes = none := by
    rw [content.noSource]
    rfl
  have sum : ctx.length.toNat = (SalHeader.ofBuild sk skb.cb authenticator).length := by omega
  refine ⟨ctx, parsed, ?_, behind⟩
  rw [SalHeader.ofContext_eq described here, source, destination, protocol, sum,
    content.ctrlExt lengths, srvExt, srvExt, noSource, content.taasExt]
  rfl

end Serval