import Serval.Sal.Build
import Serval.Service.Basic

/-!
# The source extension of a forwarded packet

`serval_sal_add_source_ext` notes in the header where a packet has been. It
works in place: everything in front of the point of insertion is moved towards
the head of the buffer, and the new bytes are written into the gap. The
lengths are bytes and wrap around, and the place of the last address is
computed from the length that was just written.
-/

namespace Serval

open Serval.Support

/-- A linear socket buffer: its memory from `head` on, the bounds of the data,
the header pointers, and `dev->hard_header_len`. -/
structure LinearSkb where
  mem : List UInt8
  data : Nat
  tail : Nat
  networkHeader : Nat
  transportHeader : Nat
  hardHeaderLen : Nat
  deriving DecidableEq, Repr

namespace LinearSkb

section

variable (skb : LinearSkb)

def len : Nat := skb.tail - skb.data

/-- `skb_push`; `skb_under_panic` is a fault. -/
def push (len : Nat) : Except Fault LinearSkb :=
  if len ≤ skb.data then .ok { skb with data := skb.data - len }
  else .error .bounds

/-- `pskb_pull`, which does nothing when the data is shorter. -/
def pull (len : Nat) : LinearSkb :=
  if skb.len < len then skb else { skb with data := skb.data + len }

def sal : List UInt8 := skb.mem.drop skb.transportHeader

def withSal (sal : List UInt8) : LinearSkb :=
  { skb with mem := skb.mem.take skb.transportHeader ++ sal }

def ipSaddr : Except Fault (List UInt8) := Support.readBytes skb.mem (skb.networkHeader + 12) 4

def ipDaddr : Except Fault (List UInt8) := Support.readBytes skb.mem (skb.networkHeader + 16) 4

/-- `skb_copy_expand` with `extra` bytes more of headroom; `content` is what
the new memory holds. -/
def copyExpand (extra : Nat) (content : Nat → UInt8) :
    LinearSkb :=
  { skb with
    mem := (List.range extra).map content ++ (skb.mem.take skb.tail ++
          (List.range (skb.mem.length - skb.tail)).map
            fun i => content (extra + skb.tail + i))
    data := skb.data + extra
    tail := skb.tail + extra }

end

end LinearSkb

/-! ## The addresses of an extension -/

def salSourceExtGetAddr (ext n : Nat) : Nat := ext + 4 + n * 4

/-- The index is a `size_t`. One that wrapped around leads back to an address
in front of the extension's own. -/
def salSourceExtGetLastAddr (ext : Nat) (length : UInt8) :
    Except Fault Nat :=
  let index := (salSourceExtNumAddrs length - 1) * 4
  if index.toNat < 2 ^ 63 then
    .ok (ext + 4 + index.toNat)
  else if (0 - index).toNat ≤ ext + 4 then
    .ok (ext + 4 - (0 - index).toNat)
  else
    .error .bounds

inductive SourceExtRes where
  | ipExists
  | ipNone
  | none
  deriving DecidableEq, Repr

/-- The loop over the addresses, from the `i`-th on. -/
def hasAddr (packet : List UInt8) (ext : Nat) (ipaddr : List UInt8) : Nat → Nat → Except Fault Bool
  | 0, _ => .ok false
  | left + 1, i => do
    let addr ← Support.readBytes packet (salSourceExtGetAddr ext i) 4
    if addr = ipaddr then .ok true
    else hasAddr packet ext ipaddr left (i + 1)

def servalSalSourceExtCheck (packet : List UInt8) (ctx : SalContext) (ipaddr : List UInt8) :
    Except Fault SourceExtRes :=
  match ctx.srcExt with
  | none => .ok .none
  | some ext => do
    let length ← readByte packet (ext + 1)
    let found ← hasAddr packet ext ipaddr (salSourceExtNumAddrs length).toNat 0
    .ok (if found then .ipExists else .ipNone)

/-- Room in front of the IP header, and whether the buffer is a new one; there
is none when the allocation fails. -/
def makeRoom (skb : LinearSkb) (size extraLen : Nat) (fresh : Option (Nat → UInt8)) :
    Option (Bool × LinearSkb) :=
  if skb.data < extraLen + size + skb.hardHeaderLen then
    fresh.map fun content => (true, skb.copyExpand extraLen content)
  else
    some (false, skb)

/-- Where the new bytes go: behind the last address, or behind the header.
The extension is read through the context, which is `freed` together with the
old buffer. -/
def insertionPoint (packet : List UInt8) (ctx : SalContext) (freed : Bool) :
    Except Fault Nat :=
  match ctx.srcExt with
  | none => .ok ctx.length.toNat
  | some ext =>
    if freed then .error .freed
    else do
      let length ← readByte packet (ext + 1)
      let last ← salSourceExtGetLastAddr ext length
      .ok (last + 4)

section

variable (skb : LinearSkb) (ctx : SalContext)

/-- `memmove(skb_push(skb, extra_len), iph, ptr - iph)` for a buffer whose data
starts at the IP header, and the header pointers after it. -/
def openGap (size off extraLen : Nat) :
    Except Fault LinearSkb := do
  let iph := skb.data
  let skb ← skb.push extraLen
  let mem ← memmove skb.mem skb.data iph (size + off)
  let skb := { skb with mem := mem, networkHeader := skb.data }.pull size
  .ok { skb with transportHeader := skb.data }

/-- The type, the length and the addresses of the extension at `sxt`. The
last address is placed by the length as it is after the store. -/
def writeSourceExt (sal saddr daddr : List UInt8) (sxt : Nat) (append : Bool)
    (extLen : Nat) : Except Fault (List UInt8) := do
  let first ← readByte sal sxt
  let sal ← writeBytes sal sxt (extHdr [first] .source extLen)
  if append then do
    let length ← readByte sal (sxt + 1)
    let last ← salSourceExtGetLastAddr sxt length
    writeBytes sal last daddr
  else do
    let sal ← writeBytes sal (salSourceExtGetAddr sxt 0) saddr
    writeBytes sal (salSourceExtGetAddr sxt 1) daddr

def fillGap (sal saddr daddr : List UInt8) (ctx : SalContext)
    (extraLen extLen : Nat) : Except Fault (List UInt8) := do
  let sal ← writeSourceExt sal saddr daddr (ctx.srcExt.getD ctx.length.toNat)
      ctx.srcExt.isSome extLen
  let sal ← writeBytes sal 10 [0, 0]
  writeBytes sal 8 [UInt8.ofNat ((ctx.length.toNat + extraLen) / 4)]

def insertAt (size off extraLen extLen : Nat) :
    Except Fault LinearSkb := do
  let skb ← openGap skb size off extraLen
  let saddr ← skb.ipSaddr
  let daddr ← skb.ipDaddr
  let sal ← fillGap skb.sal saddr daddr ctx extraLen extLen
  .ok (skb.withSal sal)

def insertSourceExt (copied : Bool) (fresh : Option (Nat → UInt8)) (extraLen extLen : Nat) :
    Except Fault (Int × LinearSkb) := do
  let packet := skb.sal
  let size := skb.transportHeader - skb.networkHeader
  let skb ← skb.push size
  match makeRoom skb size extraLen fresh with
  | none => .ok (-ENOMEM, skb)
  | some (moved, skb) => do
    let off ← insertionPoint packet ctx (moved && !copied)
    let skb ← insertAt skb ctx size off extraLen extLen
    .ok (extraLen, skb)

/-- The context points into the buffer itself, unless that is `copied`. -/
def servalSalAddSourceExt (copied : Bool) (fresh : Option (Nat → UInt8)) :
    Except Fault (Int × LinearSkb) := do
  let daddr ← skb.ipDaddr
  match ← servalSalSourceExtCheck skb.sal ctx daddr with
  | .ipExists => .ok (-1, skb)
  | .ipNone => do
    let length ← readByte skb.sal (ctx.srcExt.getD 0 + 1)
    insertSourceExt skb ctx copied fresh 4 (length.toNat + 4)
  | .none => insertSourceExt skb ctx copied fresh 12 12

end

/-- The walk of `serval_sal_update_taas_ext`. An extension of length zero
keeps it in place for ever. -/
def updateTaas (authenticator : UInt64) : Nat → List UInt8 → Nat → Int → Except Fault (List UInt8)
  | 0, _, _, _ => .error .fuel
  | fuel + 1, packet, ext, hdrLen =>
    if 0 < hdrLen then do
      let first ← readByte packet ext
      if salExtType first = some .taas then
        writeBytes packet (ext + 4) (leBytes 8 authenticator.toNat)
      else do
        let len ← salExtLen packet ext
        let next ← salExtNext packet ext
        updateTaas authenticator fuel packet next (hdrLen - len)
    else
      .ok packet

def servalSalUpdateTaasExt (packet : List UInt8) (authenticator : UInt64) :
    Except Fault (List UInt8) := do
  let shl ← readByte packet 8
  let hdrLen := 4 * shl.toNat
  updateTaas authenticator (hdrLen + 1) packet salHeaderLen
    (hdrLen - salHeaderLen : Int)

end Serval
