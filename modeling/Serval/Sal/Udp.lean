import Serval.Sal.State

/-!
# UDP sockets

The parts of `serval_udp.c` that a connection of datagrams goes through: the
operations that a new socket gets for its request, and the packets that the
state handlers pass up.
-/

namespace Serval

open Serval.Support

/-- `serval_udp_af_ops` and `serval_udp_encap_af_ops`. -/
inductive UdpAfOps where
  | plain
  | encap
  deriving DecidableEq, Repr

/-- An acknowledgement that may complete a request at a listener. A request
remembers the source port of the UDP packet it came in, if it came in one. -/
structure UdpAck where
  env : SalEnv
  host : SalHost
  skb : RcvSkb
  encap : RequestSock → Option UInt16

/-- `udp_encap_dport` of a request. -/
def UdpAck.dport (ack : UdpAck) (rsk : RequestSock) : UInt16 := (ack.encap rsk).getD 0

/-- The operations of the listener and those of the new socket, in this
order. The source writes those of `sk`. -/
def servalUdpConnectionRespondSock (dport : UInt16) (_sk child : UdpAfOps) : UdpAfOps × UdpAfOps :=
  (if dport ≠ 0 then .encap else .plain, child)

/-- The request that the acknowledgement completes; there is memory for the
clone. -/
def UdpAck.completed (ack : UdpAck) : Option RequestSock :=
  if ack.env.alloc ack.host.tick then
    matchRequest ack.host.sk ack.skb.hdr
  else none

structure UdpChild where
  ack : UdpAck
  rsk : RequestSock
  ops : UdpAfOps
  listener : UdpAfOps

/-- The new sockets of a run: the request, the operations of the socket and
those that the listener is left with. The socket is a clone of the
listener. -/
def udpChildren : UdpAfOps → List UdpAck → List UdpChild
  | _, [] => []
  | sk, ack :: acks =>
    match ack.completed with
    | none => udpChildren sk acks
    | some rsk =>
      let (sk, child) := servalUdpConnectionRespondSock (ack.dport rsk) sk sk
      ⟨ack, rsk, child, sk⟩ :: udpChildren sk acks

def UdpChild.encap (child : UdpChild) : Option UInt16 := child.ack.encap child.rsk

/-- The transport protocol has no objection, so that there is a new socket
for every request that is completed. -/
theorem UdpAck.completed_handle (ack : UdpAck)
    (udp : ack.env.transport.connChildSock ack.host.tick = 0) :
    (servalSalRequestSockHandle ack.env ack.host ack.skb).1 =
      ack.completed.map (respondSock ack.host.sk) := by
  rw [servalSalRequestSockHandle, UdpAck.completed, udp]
  cases matchRequest ack.host.sk ack.skb.hdr with
  | none => simp
  | some rsk => cases ack.env.alloc ack.host.tick <;> rfl

/-- For a request of its kind the listener keeps its operations, unless the
port is zero. -/
theorem UdpAck.keeps_iff {ack : UdpAck} {rsk : RequestSock} {sk : UdpAfOps}
    (kind : (ack.encap rsk).isSome = true ↔ sk = .encap) :
    (servalUdpConnectionRespondSock (ack.dport rsk) sk sk).1 = sk ↔ ack.encap rsk ≠ some 0 := by
  rw [servalUdpConnectionRespondSock, UdpAck.dport]
  cases came : ack.encap rsk with
  | none =>
    rw [came] at kind
    cases sk with
    | plain => simp
    | encap => simp at kind
  | some port =>
    rw [came] at kind
    rw [kind.mp rfl]
    by_cases zero : port = 0 <;> simp [zero]

/-- Every new socket has the operations of its request, and the listener keeps
its own, exactly if all requests that are completed came as the listener
expects them, and from no port zero. -/
theorem udpChildren_own_iff (sk : UdpAfOps) (acks : List UdpAck) :
    (∀ child ∈ udpChildren sk acks,
        (child.ops = .encap ↔ child.encap.isSome = true) ∧ child.listener = sk) ↔
      ∀ ack ∈ acks, ∀ rsk, ack.completed = some rsk →
        ((ack.encap rsk).isSome = true ↔ sk = .encap) ∧ ack.encap rsk ≠ some 0 := by
  induction acks with
  | nil => simp [udpChildren]
  | cons ack acks ih =>
    cases completed : ack.completed with
    | none => simp [udpChildren, completed, ih]
    | some rsk =>
      have run : udpChildren sk (ack :: acks) =
          ⟨ack, rsk, sk, (servalUdpConnectionRespondSock (ack.dport rsk) sk sk).1⟩ ::
            udpChildren (servalUdpConnectionRespondSock (ack.dport rsk) sk sk).1 acks := by
        rw [udpChildren, completed]
        rfl
      rw [run]
      constructor
      · intro own
        obtain ⟨kind, kept⟩ := own _ List.mem_cons_self
        dsimp only [UdpChild.encap] at kind kept
        rw [kept] at own
        have rest := ih.mp fun child member => own child (List.mem_cons_of_mem _ member)
        intro other member rsk' done
        rcases List.mem_cons.mp member with rfl | member
        · cases completed.symm.trans done
          exact ⟨kind.symm, (UdpAck.keeps_iff kind.symm).mp kept⟩
        · exact rest other member rsk' done
      · intro all
        obtain ⟨kind, port⟩ := all ack List.mem_cons_self rsk completed
        have kept := (UdpAck.keeps_iff kind).mpr port
        rw [kept]
        intro child member
        rcases List.mem_cons.mp member with rfl | member
        · exact ⟨kind.symm, rfl⟩
        · exact ih.mpr (fun ack member => all ack (.tail _ member)) child member

def firstUdpRsk : RequestSock := { plainRsk with localFlowid := Vector.replicate 4 7 }

/-- A listener with two requests, of which only the first came in a UDP packet,
and the acknowledgement of one of them. -/
def udpAckOf (rsk : RequestSock) : UdpAck :=
  let skb := plainSkb (plainControl 1 101 plainRsk.peerNonce)
  { env := plainEnv
    host := plainHost
      { plainSock with skState := .listen, synQueue := [firstUdpRsk, plainRsk] }
      ⟨bstInit, 0⟩
    skb := { skb with
      hdr := { skb.hdr with dstFlowid := rsk.localFlowid } }
    encap := fun rsk => if rsk = firstUdpRsk then some 5000 else none }

/-- Two requests at a plain listener: the socket of the first, from port 5000,
does not encapsulate, and that of the second does. -/
theorem udpChildren_mixed : (udpChildren .plain [udpAckOf firstUdpRsk, udpAckOf plainRsk]).map
        (fun child => (child.encap, child.ops, child.listener)) =
      [(some 5000, .plain, .encap), (none, .encap, .plain)] := by
  decide +kernel

/-! ## Packets that are passed up -/

structure UdpRcvEnv where
  debug : Bool
  unnecessary : Bool
  complete : Bool
  checksumFails : Bool
  queuesFull : Bool
  ownedByUser : Bool
  backlogFull : Bool
  queueErr : Int

section

variable (env : UdpRcvEnv) (data : List UInt8)

def udpField (offset : Nat) : Except Fault UInt16 := do
  let high ← readByte data offset
  let low ← readByte data (offset + 1)
  return UInt16.ofNat (256 * high.toNat + low.toNat)

def servalUdpCsumInit :
    Except Fault Bool := do
  let check ← udpField data 6
  return check = 0 || env.unnecessary || env.complete

def skbPull (size : Nat) : Except Fault (List UInt8) :=
  if data.length < size then .error .bounds else .ok (data.drop size)

def servalUdpDoRcv (unnecessary : Bool)
    (data : List UInt8) : Except Fault (Int × Option (List UInt8)) := do
  if env.debug then
    let _ ← udpField data 4
  if !unnecessary && env.checksumFails then
    return (0, none)
  let data ← skbPull data 8
  if env.queueErr < 0 then
    return (env.queueErr, none)
  return (env.queueErr, some data)

/-- What `serval_udp_rcv` does behind its validation. -/
def servalUdpAccept : Except Fault (Int × Option (List UInt8)) := do
  let unnecessary ← servalUdpCsumInit env data
  if env.queuesFull then
    return (-1, none)
  if !env.ownedByUser then
    servalUdpDoRcv env unnecessary data
  else if env.backlogFull then
    return (-1, none)
  else
    return (0, none)

/-- The length is read through a pointer before it is known that the packet
has it, and for a FIN nothing is tested. -/
def servalUdpRcv (skb : RcvSkb) : Except Fault (Int × Option (List UInt8)) :=
  if skb.hdr.hasFin then servalUdpAccept env skb.data
  else do
    let len ← udpField skb.data 4
    if skb.data.length < 8 then
      return (-1, none)
    if len - 8 = 0 then
      return (-1, none)
    servalUdpAccept env skb.data

end

variable {data : List UInt8} {offset : Nat}

theorem readByte_fails (outside : data.length ≤ offset) :
    readByte data offset = .error .bounds := by
  rw [readByte, List.getElem?_eq_none_iff.mpr outside]

theorem udpField_ok (inside : offset + 2 ≤ data.length) :
    ∃ field, udpField data offset = .ok field := by
  obtain ⟨high, first⟩ := readByte_of_lt (by omega : offset < data.length)
  obtain ⟨low, second⟩ := readByte_of_lt (by omega : offset + 1 < data.length)
  exact ⟨_, by rw [udpField, first, second]; rfl⟩

theorem udpField_error (outside : data.length < offset + 2) :
    udpField data offset = .error .bounds := by
  rw [udpField]
  by_cases first : data.length ≤ offset
  · rw [readByte_fails first]
    rfl
  · obtain ⟨high, read⟩ := readByte_of_lt (Nat.not_le.mp first)
    rw [read, readByte_fails (by omega)]
    rfl

/-- Behind a whole header nothing is read or pulled from outside. -/
theorem servalUdpDoRcv_ok (env : UdpRcvEnv) (unnecessary : Bool) (whole : 8 ≤ data.length) :
    ∃ result, servalUdpDoRcv env unnecessary data = .ok result := by
  obtain ⟨len, read⟩ := udpField_ok (by omega : 4 + 2 ≤ data.length)
  have pulled : skbPull data 8 = .ok (data.drop 8) := if_neg (Nat.not_lt.mpr whole)
  rw [servalUdpDoRcv, read, pulled]
  cases env.debug <;> simp only [ok_bind] <;> split_ifs <;> exact ⟨_, rfl⟩

theorem servalUdpAccept_ok_iff (env : UdpRcvEnv) (data : List UInt8) :
    (∃ result, servalUdpAccept env data = .ok result) ↔ 8 ≤ data.length := by
  rw [servalUdpAccept, servalUdpCsumInit]
  by_cases whole : 8 ≤ data.length
  · obtain ⟨check, read⟩ := udpField_ok (by omega : 6 + 2 ≤ data.length)
    refine iff_of_true ?_ whole
    simp only [read, ok_bind, pure_eq_ok]
    split_ifs
    · exact ⟨_, rfl⟩
    · exact servalUdpDoRcv_ok env _ whole
    · exact ⟨_, rfl⟩
    · exact ⟨_, rfl⟩
  · rw [udpField_error (by omega)]
    refine iff_of_false ?_ whole
    rintro ⟨result, run⟩
    cases run

/-- A packet is handled inside its bytes exactly if it has a whole UDP header,
or is no FIN and has the first six bytes of one. -/
theorem servalUdpRcv_inside_iff (env : UdpRcvEnv) (skb : RcvSkb) :
    (∃ result, servalUdpRcv env skb = .ok result) ↔
      8 ≤ skb.data.length ∨ skb.hdr.hasFin = false ∧ 6 ≤ skb.data.length := by
  rw [servalUdpRcv]
  by_cases fin : skb.hdr.hasFin = true
  · rw [if_pos fin, servalUdpAccept_ok_iff, fin]
    simp
  rw [if_neg fin]
  by_cases length : 6 ≤ skb.data.length
  · obtain ⟨len, read⟩ := udpField_ok (by omega : 4 + 2 ≤ skb.data.length)
    refine iff_of_true ?_ (.inr ⟨by simpa using fin, length⟩)
    rw [read, ok_bind]
    split_ifs with short empty
    · exact ⟨_, rfl⟩
    · exact ⟨_, rfl⟩
    · exact (servalUdpAccept_ok_iff env skb.data).mpr (Nat.not_lt.mp short)
  · rw [udpField_error (by omega)]
    refine iff_of_false ?_ (by omega)
    rintro ⟨result, run⟩
    cases run

/-- The FIN that `serval_sal_send_fin` builds has no data; a connected socket
passes it up, and its checksum is read behind the packet. -/
theorem servalUdpRcv_fin_outside :
    let skb := plainSkb
      { plainControl 7 0 (Vector.replicate 8 0) with fin := true }
    (skb.hasTransportHdr || skb.hdr.hasFin) = true ∧
      servalUdpRcv ⟨false, false, false, false, false, false, false, 0⟩ skb = .error .bounds := by
  decide +kernel

end Serval
