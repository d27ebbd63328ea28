import Serval.Sal.Socket
import Serval.Service.TableHistory

/-!
# Names of sockets

How sockets get into the service table and out of it: `serval_bind`,
`serval_listen`, `serval_connect` and `serval_release` of `af_serval.c`, with
`serval_sock_hash` and `serval_sock_unhash` underneath. Whether a socket is
in the table is told by the length of its key and by a bit of its flags.
-/

namespace Serval.Registry

open Serval.Support

inductive SockFlag where
  | bound
  | autobound
  | hashed
  | child
  | finSent
  deriving DecidableEq, Repr

def SockFlag.number : SockFlag → UInt8
  | .bound => 0
  | .autobound => 1
  | .hashed => 2
  | .child => 3
  | .finSent => 4

def servalSockSetFlag (flags : UInt8) (flag : SockFlag) : UInt8 := flags ||| (1 <<< flag.number)

/-- The mask is made from the number of the flag, not from its bit. -/
def servalSockResetFlag (flags : UInt8) (flag : SockFlag) : UInt8 := flags &&& (flag.number ^^^ 255)

def servalSockFlag (flags : UInt8) (flag : SockFlag) : Bool := flags &&& (1 <<< flag.number) ≠ 0

inductive SocketState where
  | unconnected
  | connecting
  | connected
  deriving DecidableEq, Repr

/-- What the functions below use of a socket. `inFlowTable` tells whether it
is in the table of flows. `registration` is no field of the source: it is the
prefix of the last `service_add` that succeeded, until the socket is
unhashed. -/
structure RegSock where
  skState : SalState
  sockState : SocketState
  skProtocol : Int
  dead : Bool
  flags : UInt8
  localSrvid : ServiceId
  srvidPrefixBits : UInt8
  srvidFlags : UInt8
  hashKeyLen : Nat
  inFlowTable : Bool
  registration : Option (List Bool)

/-- `SERVICE_ID_MAX_PREFIX_BITS` stands for no prefix at all. -/
def RegSock.bits (sk : RegSock) : Nat :=
  if sk.srvidPrefixBits = 0 then serviceIdMaxPrefixBits
  else sk.srvidPrefixBits.toNat

def RegSock.key (sk : RegSock) : List Bool := prefixOf sk.localSrvid sk.bits

def servalSockInit (protocol : Int) : RegSock where
  skState := .init
  sockState := .unconnected
  skProtocol := protocol
  dead := false
  flags := 0
  localSrvid := defaultService
  srvidPrefixBits := 0
  srvidFlags := 0
  hashKeyLen := 0
  inFlowTable := false
  registration := none

structure World where
  socks : Ptr → RegSock
  table : ServiceTable

def World.setSock (w : World) (p : Ptr) (sk : RegSock) : World :=
  { w with socks := Function.update w.socks p sk }

def localServiceDefaultPriority : UInt32 := 32000
def localServiceDefaultWeight : UInt32 := 1024

def demuxRule (sk : RegSock) (p : Ptr) : TargetArgs where
  type := .demux
  flags := sk.srvidFlags.toUInt16
  priority := localServiceDefaultPriority
  weight := localServiceDefaultWeight
  taasAuth := 0
  dst := none
  dstlen := 0
  natSet := 0
  natSrcAddr := none
  out := .sk p sk.skProtocol

/-- The key length is set before `service_add` is tried, and stays when it
fails. -/
def servalSockHash (w : World) (p : Ptr) (alloc : Allocs) :
    Except Fault World :=
  let sk := w.socks p
  if sk.skState = .closed ∨ 0 < sk.hashKeyLen then
    .ok w
  else if sk.skState = .request ∨ sk.skState = .respond then
    .ok (w.setSock p
      { sk with
        hashKeyLen := 4
        inFlowTable := true
        flags := servalSockSetFlag sk.flags .hashed })
  else do
    let sk := { sk with hashKeyLen := sk.bits }
    let (err, table) ← serviceAdd w.table (some sk.localSrvid) sk.bits (demuxRule sk p) alloc
    let w := { w with table }
    if err < 0 then
      .ok (w.setSock p sk)
    else
      .ok (w.setSock p
        { sk with
          flags := servalSockSetFlag sk.flags .hashed
          registration := some (storedPrefix sk.localSrvid sk.bits) })

def servalSockUnhash (w : World) (p : Ptr) : Except Fault World :=
  let sk := w.socks p
  let unhashed :=
    { sk with
      flags := servalSockResetFlag sk.flags .hashed
      hashKeyLen := 0 }
  if sk.hashKeyLen = 0 then
    .ok w
  else if sk.skState = .listen ∨ sk.skState = .init then do
    let (_, table) ← serviceDelTarget w.table sk.localSrvid sk.bits .demux none 0
    .ok ({ w with table }.setSock p { unhashed with registration := none })
  else if sk.inFlowTable then
    .ok (w.setSock p { unhashed with inFlowTable := false })
  else
    .ok w

/-- `serval_sock_set_state` to `SAL_CLOSED`. -/
def setClosed (w : World) (p : Ptr) : Except Fault World := do
  let w ← servalSockUnhash w p
  .ok (w.setSock p { w.socks p with skState := .closed })

/-- What `serval_bind` is given. `addrLen` is the length of the address. -/
structure BindCall where
  addrLen : Nat
  srvid : ServiceId
  prefixBits : UInt8
  flags : UInt8
  alloc : Allocs

def sockaddrSvSize : Nat := 36

def BindCall.accepted (call : BindCall) : Bool :=
  sockaddrSvSize ≤ call.addrLen && call.addrLen % sockaddrSvSize = 0 &&
    call.srvid.sid ≠ defaultService.sid

section

variable (w : World) (p : Ptr)

/-- The part of `serval_bind` under the lock of the socket. -/
def takeName (call : BindCall) :
    Except Fault World := do
  let w ←
    if servalSockFlag (w.socks p).flags .bound then
      servalSockUnhash w p
    else
      .ok (w.setSock p
        { w.socks p with
          flags := servalSockSetFlag (w.socks p).flags .bound })
  .ok (w.setSock p
    { w.socks p with
      localSrvid := call.srvid
      srvidPrefixBits := call.prefixBits
      srvidFlags := call.flags })

def servalBind (call : BindCall) : Except Fault (Int × World) :=
  if !call.accepted then
    .ok (-EINVAL, w)
  else do
    let w ← takeName w p call
    let w ← servalSockHash w p call.alloc
    if servalSockFlag (w.socks p).flags .hashed then
      .ok (0, w)
    else
      .ok (-EINVAL, w)

/-- The name is random, and nobody looks whether it was free. -/
def servalAutobind (random : ServiceId) (alloc : Allocs) :
    Except Fault World :=
  let sk := w.socks p
  servalSockHash
    (w.setSock p
      { sk with
        localSrvid := random
        flags := servalSockSetFlag (servalSockSetFlag sk.flags .bound) .autobound
        srvidPrefixBits := 0
        srvidFlags := 0 })
    p alloc

/-- What `serval_listen` is given; `random` is the name that an unnamed socket
gets. -/
structure ListenCall where
  dgramOrStream : Bool
  random : ServiceId
  alloc : Allocs

def servalListen (call : ListenCall) : Except Fault (Int × World) :=
  if !call.dgramOrStream then
    .ok (-EOPNOTSUPP, w)
  else if (w.socks p).sockState ≠ .unconnected then
    .ok (-EINVAL, w)
  else do
    let w ←
      if servalSockFlag (w.socks p).flags .bound then .ok w
      else servalAutobind w p call.random call.alloc
    .ok (0, w.setSock p { w.socks p with skState := .listen })

def EISCONN : Int := 106
def EINPROGRESS : Int := 115
def EALREADY : Int := 114

def unhashIfBound : Except Fault World :=
  if servalSockFlag (w.socks p).flags .bound then servalSockUnhash w p
  else .ok w

/-- `serval_connect` up to where it waits; `err` is the answer of the
protocol. -/
def servalConnect (err : Int) (alloc : Allocs) : Except Fault (Int × World) :=
  match (w.socks p).sockState with
  | .connected => .ok (-EISCONN, w)
  | .connecting => .ok (-EALREADY, w)
  | .unconnected =>
    if (w.socks p).skState = .listen then
      .ok (-EISCONN, w)
    else do
      let w ← unhashIfBound w p
      let w := w.setSock p { w.socks p with skState := .request }
      let w ← servalSockHash w p alloc
      if err < 0 then do
        let w ← setClosed w p
        .ok (err, w)
      else
        .ok (-EINPROGRESS, w.setSock p { w.socks p with sockState := .connecting })

/-- The rest of `serval_connect`, when the connection was made or refused. -/
def connectWaited : World :=
  let sk := w.socks p
  if sk.sockState ≠ .connecting then w
  else if sk.skState = .closed then
    w.setSock p { sk with sockState := .unconnected }
  else
    w.setSock p { sk with sockState := .connected }

def servalSalClose : Except Fault World :=
  let sk := w.socks p
  match sk.skState with
  | .closewait => .ok (w.setSock p { sk with skState := .lastack })
  | .connected | .respond => .ok (w.setSock p { sk with skState := .finwait1 })
  | .finwait1 | .finwait2 | .closing | .timewait => .ok w
  | _ => setClosed w p

def closeIfOpen : Except Fault World :=
  if (w.socks p).skState = .listen then setClosed w p
  else if (w.socks p).skState ≠ .closed then servalSalClose w p
  else .ok w

def servalRelease : Except Fault World := do
  let w ← closeIfOpen w p
  .ok (w.setSock p { w.socks p with dead := true })

end

def flowState (state : SalState) : Bool :=
  match state with
  | .init | .listen | .closed => false
  | _ => true

/-- The calls of a user; `waited` is the end of an attempt to connect. -/
inductive SockCall
  | bind (call : BindCall)
  | listen (call : ListenCall)
  | connect (err : Int) (alloc : Allocs)
  | waited
  | close

/-- A call and what it returns. Nobody can call a socket that was
released. -/
def sockCall (w : World) (p : Ptr) (call : SockCall) : Except Fault (Int × World) :=
  if (w.socks p).dead then
    .ok (-EBADF, w)
  else
    match call with
    | .bind call => servalBind w p call
    | .listen call => servalListen w p call
    | .connect err alloc => servalConnect w p err alloc
    | .waited => .ok (0, connectWaited w p)
    | .close => do
      let w ← servalRelease w p
      .ok (0, w)

/-- Calls on any socket. Packets and timers lead a connection through its
states, and may end a socket in any state. -/
inductive RegEvent
  | call (p : Ptr) (call : SockCall)
  | progress (p : Ptr) (state : SalState)
  | done (p : Ptr)

def RegEvent.sock : RegEvent → Ptr
  | .call p _ | .progress p _ | .done p => p

def regStep (w : World) : RegEvent → Except Fault World
  | .call p call => do
    let (_, w) ← sockCall w p call
    .ok w
  | .progress p state =>
    if flowState (w.socks p).skState && flowState state then
      .ok (w.setSock p { w.socks p with skState := state })
    else
      .ok w
  | .done p => setClosed w p

end Serval.Registry
