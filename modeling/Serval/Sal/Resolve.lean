import Serval.Sal.Forward
import Serval.Service.Table

/-!
# Resolving a packet

`serval_sal_resolve_service` looks a service up, samples one of its targets,
and hands the packet to a local socket or passes it on. The user-space build
is modelled; the statistics of the service table are left out.
-/

namespace Serval

open Serval.Support

/-- `service_find`: the entry of the longest prefix, whatever its targets. -/
def serviceFind (table : ServiceTable) (srvid : List UInt8) (bits : Nat) :
    Except Fault (Option ServiceEntry) := do
  match ← bstFindLongestPrefixMatch table.tree srvid bits
      (some fun _ => true) with
  | none => .ok none
  | some n => do
    let se ← getService table n
    .ok (some se)

def serviceIdMaxPrefixBits : Nat := 256

def csumTcpudpMagic (saddr daddr : List UInt8) (len proto : Nat) (sum : UInt32) : UInt16 :=
  let s : UInt64 := sum.toUInt64 + (loadWord 4 saddr).toUInt64 + (loadWord 4 daddr).toUInt64 +
      UInt64.ofNat ((proto + len % 65536) * 256)
  let s := s + (s >>> 32)
  (~~~ (from32to16 s.toUInt32)).toUInt16

/-- The check of a transport header whose field lies at `off`; the data starts
at that header. It may lie behind the end of a short packet. -/
def writeTransportCsum (skb : LinearSkb) (off proto address : Nat) :
    Except Fault LinearSkb := do
  let mem ← writeBytes skb.mem (skb.data + off) [0, 0]
  let csum := doCsum (address + skb.data) (mem.drop skb.data) skb.len
  let saddr ← skb.ipSaddr
  let daddr ← skb.ipDaddr
  let check := csumTcpudpMagic saddr daddr skb.len proto csum
  let mem ← writeBytes mem (skb.data + off) (leBytes 2 check.toNat)
  .ok { skb with mem := mem }

def servalProtoTcp : UInt8 := 6

def servalProtoUdp : UInt8 := 17

def servalSalUpdateTransportCsum (skb : LinearSkb) (protocol : UInt8) (address : Nat) :
    Except Fault LinearSkb :=
  if protocol = servalProtoTcp then writeTransportCsum skb 16 6 address
  else if protocol = servalProtoUdp then writeTransportCsum skb 6 17 address
  else .ok skb

/-- `serval_ipv4_forward_out` up to `dev_queue_xmit`: the time to live, the
total length and the check of the IP header. -/
def servalIpv4ForwardOut (skb : LinearSkb) (address : Nat) :
    Except Fault LinearSkb := do
  let iph := skb.networkHeader
  let ttl ← readByte skb.mem (iph + 8)
  let mem ← writeBytes skb.mem (iph + 8) [ttl - 1]
  let mem ← writeBytes mem (iph + 2) (leBytes 2 skb.len).reverse
  let mem ← writeBytes mem (iph + 10) [0, 0]
  let first ← readByte mem iph
  let csum := doCsum (address + iph) (mem.drop iph) (4 * (first.toNat % 16))
  let mem ← writeBytes mem (iph + 10) (leBytes 2 (~~~ csum).toUInt16.toNat)
  .ok { skb with mem := mem }

/-! ## Forwarding to one target -/

/-- What a call finds besides its arguments: a value of `random()`, whether the
packet was sent to this host alone, the address of the buffer, whether and with
what content memory is to be had, `hard_header_len` of each device, and what
`dev_queue_xmit` answers. -/
structure ForwardEnv where
  random : UInt64
  unicast : Bool
  address : Nat
  fresh : Option (Nat → UInt8)
  hardHeaderLen : Ptr → Nat
  xmit : Int

section

variable (env : ForwardEnv) (skb : LinearSkb)

def setDev : TargetOut → Except Fault LinearSkb
  | .null => .ok skb
  | .dev p _ => .ok { skb with hardHeaderLen := env.hardHeaderLen p }
  | .sk .. => .error .bounds

def setAddrs (target : Target) :
    Except Fault LinearSkb := do
  let dst ← Support.readBytes target.dst 0 4
  let mem ← writeBytes skb.mem (skb.networkHeader + 16) dst
  if target.natSet = 0 then
    .ok { skb with mem := mem }
  else do
    let src ← Support.readBytes target.natSrcAddr 0 4
    let mem ← writeBytes mem (skb.networkHeader + 12) src
    .ok { skb with mem := mem }

/-- The transport checksum, with the SAL header pulled off for it. -/
def redoTransport (hdrLen : Nat) (protocol : UInt8) (address : Nat) :
    Except Fault LinearSkb := do
  let skb ← servalSalUpdateTransportCsum (skb.pull hdrLen) protocol address
  let skb ← skb.push hdrLen
  .ok { skb with transportHeader := skb.data }

/-- The packet after the source extension was added, up to the device. -/
def finishForward (target : Target) (hdrLen : Nat)
    (protocol : UInt8) (iphLen : Nat) : Except Fault LinearSkb := do
  let skb ← setAddrs skb target
  let sal ← updateAuthenticator skb.sal target.taasAuth
  let skb ← redoTransport (skb.withSal sal) hdrLen protocol env.address
  let sal ← servalSalSendCheck (env.address + skb.transportHeader) skb.sal
  let skb ← (skb.withSal sal).push iphLen
  servalIpv4ForwardOut skb env.address

/-- What `add_source_ext` answered, and the packet if it was passed on. -/
def forwardTo (ctx : SalContext) (target : Target) (copied : Bool) (hdrLen : Nat) :
    Except Fault (Int × Option LinearSkb) := do
  let protocol ← readByte skb.sal 9
  let first ← readByte skb.mem skb.networkHeader
  let skb ← setDev env skb target.out
  let (ret, skb) ← servalSalAddSourceExt skb ctx copied env.fresh
  if ret < 0 then
    .ok (ret, none)
  else do
    let skb ← finishForward env skb target (hdrLen + ret.toNat) protocol
        (4 * (first.toNat % 16))
    .ok (ret, if env.xmit = 0 then some skb else none)

end

/-! ## The loop over the targets -/

inductive SalResolve where
  | error
  | noMatch
  | demux
  | forward
  | delay
  | drop
  deriving DecidableEq, Repr

structure Resolution where
  err : SalResolve
  sk : Option Ptr
  forwarded : List LinearSkb

/-- One round for each target; `fuel` bounds their number. The last target
gets the packet itself, the others copies. -/
def resolveTargets (env : ForwardEnv) (skb : LinearSkb) (ctx : SalContext) :
    Nat → ServiceIter → Target → Nat → List LinearSkb → Except Fault Resolution
  | 0, _, _, _, _ => .error .fuel
  | fuel + 1, iter, target, hdrLen, forwarded => do
    let (next, iter) ← serviceIterNext iter
    match target.type with
    | .demux => .ok ⟨.demux, target.out.raw, forwarded⟩
    | .delay =>
      -- `delay_queue_skb` gets the copy, which is still null.
      if env.fresh.isNone then .ok ⟨.delay, none, forwarded⟩
      else .error .null
    | .drop => .ok ⟨.drop, none, forwarded⟩
    | _ =>
      if !env.unicast then
        .ok ⟨.drop, none, forwarded⟩
      else if next.isSome && env.fresh.isNone then
        .ok ⟨.drop, none, forwarded⟩
      else do
        let (ret, sent) ← forwardTo env skb ctx target next.isSome hdrLen
        let hdrLen := if ret < 0 then hdrLen else hdrLen + ret.toNat
        let forwarded := forwarded ++ sent.toList
        match next with
        | none => .ok ⟨.forward, none, forwarded⟩
        | some next =>
          resolveTargets env skb ctx fuel iter next hdrLen forwarded

def servalSalResolveService (env : ForwardEnv) (table : ServiceTable) (skb : LinearSkb)
    (ctx : SalContext) (srvid : List UInt8) :
    Except Fault Resolution := do
  match ← serviceFind table srvid serviceIdMaxPrefixBits with
  | none => .ok ⟨.noMatch, none, []⟩
  | some se =>
    let (ok, iter) := serviceIterInit se .anycast env.random
    if !ok then
      .ok ⟨.error, none, []⟩
    else do
      let (first, iter) ← serviceIterNext iter
      match first with
      | none => .ok ⟨.noMatch, none, []⟩
      | some target =>
        let fuel := (se.targetSet.map fun set => set.list.length).sum
        resolveTargets env skb ctx (fuel + 1) iter target
          ctx.length.toNat []

end Serval
