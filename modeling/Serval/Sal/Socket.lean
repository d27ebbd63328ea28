import Serval.Sal.Header
import Serval.Sal.Resolve
import Serval.Support.Serial

/-!
# Sockets of the service access layer

The state that the handlers of `serval_sal.c` work on: a socket, the service
table, the sockets that a listener has made, and the packets that were sent.
What the handlers ask from the rest of the system comes from an environment.
-/

namespace Serval

open Serval.Support

def EBADF : Int := 9
def EAGAIN : Int := 11
def EBADFD : Int := 77
def EOPNOTSUPP : Int := 95
def ENOBUFS : Int := 105
def EADDRNOTAVAIL : Int := 99
def EHOSTUNREACH : Int := 113

abbrev NetAddr := Vector UInt8 4

def zeroAddr : NetAddr := Vector.replicate 4 0

/-- `local_addr`, 127.0.0.1. -/
def localAddr : NetAddr := ⟨#[127, 0, 0, 1], rfl⟩

/-- A packet on the wire: the addresses of its IP header, and the bytes from
the SAL header on. -/
structure WirePacket where
  saddr : NetAddr
  daddr : NetAddr
  sal : List UInt8

def WirePacket.hdr (p : WirePacket) : Option SalHeader :=
  match servalSalParseHdr p.sal .all with
  | .ok (0, ctx) => some (SalHeader.ofContext p.sal ctx)
  | _ => none

def WirePacket.payload (p : WirePacket) : List UInt8 := p.sal.drop (salLength p.sal)

/-- A packet as the handlers get it, with the SAL header pulled off. -/
structure RcvSkb where
  hdr : SalHeader
  saddr : NetAddr
  daddr : NetAddr
  data : List UInt8
  udp : Bool
  broadcast : Bool
  dev : Ptr
  ifindex : Nat

/-- `packet_has_transport_hdr`, after the pull. -/
def RcvSkb.hasTransportHdr (skb : RcvSkb) : Bool := !skb.data.isEmpty

structure CtrlSkb where
  cb : SalSkbCb
  data : List UInt8

/-- `SAL_RSYN_INITIAL` and the other states of a migration. -/
inductive RsynState where
  | initial
  | sent
  | recv
  | sentRecv
  deriving DecidableEq, Repr

structure RequestSock where
  localFlowid : Vector UInt8 4
  peerFlowid : Vector UInt8 4
  peerSrvid : Vector UInt8 32
  targetSrvid : Vector UInt8 32
  localNonce : Vector UInt8 8
  peerNonce : Vector UInt8 8
  rcvSeq : UInt32
  issSeq : UInt32
  rmtAddr : NetAddr
  locAddr : NetAddr
  replySaddr : NetAddr
  deriving DecidableEq

/-- `struct serval_sock`. The control queue is kept in two parts, cut at the
send head. -/
structure ServalSock extends SalSock where
  dead : Bool
  skShutdown : UInt8
  boundDevIf : Nat
  ackBacklog : UInt16
  maxAckBacklog : UInt16
  inetSaddr : NetAddr
  inetDaddr : NetAddr
  salState : RsynState
  finSent : Bool
  migDevIf : Nat
  migDaddr : NetAddr
  hashKey : Bool
  hashKeyLen : Nat
  srvidPrefixBits : Nat
  retransmitTimer : Bool
  twTimer : Bool
  retransmits : UInt8
  synQueue : List RequestSock
  acceptQueue : List RequestSock
  ctrlSent : List CtrlSkb
  ctrlUnsent : List CtrlSkb
  peerNonce : Vector UInt8 8
  sndIss : UInt32
  sndUna : UInt32
  sndNxt : UInt32
  sndWnd : UInt32

def ServalSock.ctrlQueue (sk : ServalSock) : List CtrlSkb := sk.ctrlSent ++ sk.ctrlUnsent

structure SameSending (sk sk' : ServalSock) : Prop where
  sndIss : sk'.sndIss = sk.sndIss
  sndUna : sk'.sndUna = sk.sndUna
  sndNxt : sk'.sndNxt = sk.sndNxt
  sndWnd : sk'.sndWnd = sk.sndWnd
  ctrlSent : sk'.ctrlSent = sk.ctrlSent
  ctrlUnsent : sk'.ctrlUnsent = sk.ctrlUnsent

/-- A socket and what it works on. `children` are the sockets that it has
made as a listener; `tick` counts the questions to the environment. -/
structure SalHost where
  sk : ServalSock
  table : ServiceTable
  children : List ServalSock
  out : List WirePacket
  tick : Nat

namespace SalHost

def bump (host : SalHost) : SalHost := { host with tick := host.tick + 1 }

def withSk (host : SalHost) (sk : ServalSock) : SalHost := { host with sk }

def withAddrs (host : SalHost) (saddr daddr : NetAddr) : SalHost :=
  host.withSk { host.sk with inetSaddr := saddr, inetDaddr := daddr }

def send (host : SalHost) (p : WirePacket) : SalHost := { host with out := host.out ++ [p] }

def setState (host : SalHost) (state : SalState) : SalHost :=
  host.withSk { host.sk with skState := state }

end SalHost

/-- What a call into the transport protocol does to the socket: packets that
it sends, `serval_sal_send_fin`, more packets, `serval_sal_rcv_reset`; and
what it returns. -/
structure Reply where
  early : List (List UInt8)
  fin : Bool
  late : List (List UInt8)
  reset : Bool
  ret : Int

/-- The operations of the transport protocol. The ones that fill in a packet
give its data or an error. TCP has a `conn_close`, UDP has not. -/
structure Transport where
  connBuildSyn : Nat → Int × List UInt8
  connBuildSynack : Nat → Int × List UInt8
  connBuildAck : Nat → Int × List UInt8
  connRequest : Nat → Int
  connChildSock : Nat → Int
  requestState : Nat → Reply
  respondState : Nat → Reply
  receive : Nat → Reply
  migrationCompleted : Nat → List (List UInt8)
  connClose : Option (Nat → Reply)

/-- What the handlers find, by the number of the question: `random()`, whether
memory is to be had, the memory in front of a new packet, a new request
socket, the answers of `queue_xmit` and `delay_queue_skb`; and the devices. -/
structure SalEnv where
  mode : IterMode
  random : Nat → UInt64
  alloc : Nat → Bool
  headroom : Nat → List UInt8
  reqsk : Nat → Option RequestSock
  xmit : Nat → Int
  delay : Nat → Int
  address : Nat
  devAddr : Ptr → Option NetAddr
  loopback : Option Ptr
  devByIndex : Nat → Option Ptr
  maxRetransmits : UInt8
  transport : Transport

def ServalSock.serviceBits (sk : ServalSock) : Nat :=
  if sk.srvidPrefixBits = 0 then serviceIdMaxPrefixBits
  else sk.srvidPrefixBits

def ServalSock.localService (sk : ServalSock) : ServiceId where
  sid := sk.localSrvid.toList
  size := sk.localSrvid.length_toList

/-- A socket that is not demultiplexed by its service leaves the table of
flows instead, which is known by its key length alone. -/
def servalSockUnhash (host : SalHost) : Except Fault SalHost :=
  let unhashed := host.withSk { host.sk with hashKeyLen := 0 }
  if host.sk.hashKeyLen = 0 then
    .ok host
  else if host.sk.skState = .listen ∨ host.sk.skState = .init then do
    let (_, table) ← serviceDelTarget host.table host.sk.localService host.sk.serviceBits
        .demux none 0
    .ok { unhashed with table }
  else
    .ok unhashed

def shutdownMask : UInt8 := 3

/-- The timers and the queue of a socket that no user holds any more. -/
def servalSockDestroy (sk : ServalSock) : ServalSock :=
  { sk with
    twTimer := false
    ctrlSent := []
    ctrlUnsent := [] }

/-- `serval_sock_done`, after the socket was taken out of its table. -/
def servalSockDone (sk : ServalSock) : ServalSock :=
  let sk :=
    { sk with
      skState := .closed
      retransmitTimer := false
      skShutdown := shutdownMask }
  if sk.dead then servalSockDestroy sk else sk

def servalSalDone (host : SalHost) : Except Fault SalHost := do
  let host ← servalSockUnhash host
  .ok (host.withSk (servalSockDone host.sk))

def servalSalRcvReset (host : SalHost) : Except Fault SalHost :=
  if host.sk.skState = .closed then .ok host else servalSalDone host

/-- `serval_sock_hash`, for a socket that is known by its flow. -/
def servalSockHash (sk : ServalSock) : ServalSock :=
  if 0 < sk.hashKeyLen then sk
  else { sk with hashKey := true, hashKeyLen := 4 }

end Serval
