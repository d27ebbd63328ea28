import Serval.Support.Bytes

/-!
# Reading a SAL header

`serval_sal_parse_hdr` and the handlers of the extension types. A packet is
the row of bytes from the start of the header on, so a pointer into it is an
offset, and a read past its last byte is a fault.
-/

namespace Serval

open Serval.Support

def salHeaderLen : Nat := 12

def maxNumSalExtensions : Nat := 10

inductive SalExtType where
  | pad
  | control
  | service
  | address
  | source
  | taas
  deriving DecidableEq, Repr

/-- The type in the upper half of an extension's first byte. There is none
from `__SAL_EXT_TYPE_MAX` on. -/
def salExtType (first : UInt8) : Option SalExtType :=
  match first.toNat / 16 with
  | 0 => some .pad
  | 1 => some .control
  | 2 => some .service
  | 3 => some .address
  | 4 => some .source
  | 5 => some .taas
  | _ => none

def minExtLength : SalExtType → Nat
  | .pad => 1
  | .control => 20
  | .service => 36
  | .address => 12
  | .source => 4
  | .taas => 12

/-! ## Control flags -/

def svhSyn : Nat := 1

def svhRsyn : Nat := 2

def svhAck : Nat := 4

def svhNack : Nat := 8

def svhRst : Nat := 16

def svhFin : Nat := 32

def svhConnAck : Nat := 64

def raiseFlag (bits : UInt8) (bit mask : Nat) (flags : UInt16) : UInt16 :=
  if bits.toNat.testBit bit then flags ||| UInt16.ofNat mask else flags

def parseCtrlFlags (bits : UInt8) (flags : UInt16) : UInt16 :=
  raiseFlag bits 3 svhRst <| raiseFlag bits 2 svhFin <| raiseFlag bits 4 svhNack <|
        raiseFlag bits 5 svhAck <| raiseFlag bits 6 svhRsyn <| raiseFlag bits 7 svhSyn flags

/-- `struct sal_context`; the pointers are offsets into the packet. -/
structure SalContext where
  length : UInt16
  flags : UInt16
  verno : UInt32
  ackno : UInt32
  ext : List Nat
  ctrlExt : Option Nat
  srvExt0 : Option Nat
  srvExt1 : Option Nat
  srcExt : Option Nat
  taasExt : Option Nat
  deriving DecidableEq, Repr

/-- The context after `memset`, with the length filled in. -/
def SalContext.blank (length : UInt16) : SalContext :=
  ⟨length, 0, 0, 0, [], none, none, none, none, none⟩

def parsePadExt (ctx : SalContext) : Except Fault (Int × SalContext) := .ok (1, ctx)

def parseControlExt (packet : List UInt8) (ext extLen : Nat) (ctx : SalContext) :
    Except Fault (Int × SalContext) :=
  if ctx.ctrlExt.isSome then
    .ok (-1, ctx)
  else do
    let verno ← readBytes packet (ext + 4) 4
    let ackno ← readBytes packet (ext + 8) 4
    let bits ← readByte packet (ext + 2)
    .ok (extLen,
      { ctx with
        ctrlExt := some ext
        verno := ntohl verno
        ackno := ntohl ackno
        flags := parseCtrlFlags bits ctx.flags })

def parseServiceExt (ext extLen : Nat) (ctx : SalContext) : Except Fault (Int × SalContext) :=
  if ctx.srvExt0.isSome && ctx.srvExt1.isSome then
    .ok (-1, ctx)
  else if ctx.srvExt0.isNone then
    .ok (extLen, { ctx with srvExt0 := some ext })
  else if ctx.srvExt1.isNone then
    .ok (extLen, { ctx with srvExt1 := some ext })
  else
    .ok (-1, ctx)

def parseAddressExt (extLen : Nat) (ctx : SalContext) : Except Fault (Int × SalContext) :=
  .ok (extLen, ctx)

def parseTaasExt (ext extLen : Nat) (ctx : SalContext) : Except Fault (Int × SalContext) :=
  if ctx.taasExt.isSome then
    .ok (-1, ctx)
  else
    .ok (extLen, { ctx with taasExt := some ext })

/-- The difference is taken in `size_t`. -/
def salSourceExtNumAddrs (length : UInt8) : UInt64 := (length.toUInt64 - 4) / 4

def parseSourceExt (packet : List UInt8) (ext extLen : Nat) (ctx : SalContext) :
    Except Fault (Int × SalContext) :=
  if ctx.srcExt.isSome then
    .ok (-1, ctx)
  else do
    let length ← readByte packet (ext + 1)
    -- The pointer is stored before the addresses are counted.
    let ctx := { ctx with srcExt := some ext }
    if salSourceExtNumAddrs length < 2 then
      .ok (-1, ctx)
    else
      .ok (extLen, ctx)

/-! ## The walk over the extensions -/

section

variable (packet : List UInt8)

def salExtLen (ext : Nat) : Except Fault Nat := do
  let first ← readByte packet ext
  if salExtType first = some .pad then
    .ok 1
  else do
    let length ← readByte packet (ext + 1)
    .ok length.toNat

def salExtNext (ext : Nat) : Except Fault Nat := do
  let first ← readByte packet ext
  if salExtType first = some .pad then
    .ok (ext + 1)
  else do
    let length ← readByte packet (ext + 1)
    .ok (ext + length.toNat)

/-- The table `parse_ext_func`. -/
def parseExtFunc (ext extLen : Nat) (ctx : SalContext) :
    SalExtType → Except Fault (Int × SalContext)
  | .pad => parsePadExt ctx
  | .control => parseControlExt packet ext extLen ctx
  | .service => parseServiceExt ext extLen ctx
  | .address => parseAddressExt extLen ctx
  | .source => parseSourceExt packet ext extLen ctx
  | .taas => parseTaasExt ext extLen ctx

def parseExt (ext : Nat) (ctx : SalContext) : Except Fault (Int × SalContext) := do
  let extLen ← salExtLen packet ext
  let first ← readByte packet ext
  match salExtType first with
  | none => .ok (-1, ctx)
  | some type =>
    if extLen < minExtLength type then
      .ok (-1, ctx)
    else
      parseExtFunc packet ext extLen ctx type

/-- The loop of `serval_sal_parse_hdr`. `room` counts the entries left in
`ctx->ext`; the remaining length is signed, since the last extension can reach
past the end of the header. -/
def parseExts (packet : List UInt8) : Nat → Nat → Int → SalContext → Except Fault (Int × SalContext)
  | 0, _, hdrLen, ctx => .ok (hdrLen, ctx)
  | room + 1, ext, hdrLen, ctx =>
    if 0 < hdrLen then do
      let (extLen, ctx) ← parseExt packet ext ctx
      if extLen ≤ 0 then
        .ok (-1, ctx)
      else do
        let next ← salExtNext packet ext
        parseExts packet room next (hdrLen - extLen)
          { ctx with ext := ctx.ext ++ [ext] }
    else
      .ok (hdrLen, ctx)

inductive SalParseMode where
  | base
  | all
  deriving DecidableEq, Repr

def servalSalParseHdr (mode : SalParseMode) : Except Fault (Int × SalContext) := do
  let shl ← readByte packet 8
  let ctx := SalContext.blank (shl.toUInt16 <<< 2)
  if ctx.length.toNat < salHeaderLen then
    .ok (-1, ctx)
  else
    match mode with
    | .base => .ok (0, ctx)
    | .all =>
      parseExts packet maxNumSalExtensions salHeaderLen
        (ctx.length.toNat - salHeaderLen : Int) ctx

end

end Serval
