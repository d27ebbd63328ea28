import Serval.Sal.Malformed
import Serval.Sal.Requests

/-!
# Addresses that both ends learn

A request tells the listener where it came from, behind any number of
forwarders, and the response tells the client where the listener is.
-/

open Serval.Support

namespace Serval

private theorem length_quads (bytes : List UInt8) : (quads bytes).length = bytes.length / 4 := by
  induction size : bytes.length using Nat.strong_induction_on generalizing bytes with
  | h length ih =>
    by_cases long : 4 ≤ bytes.length
    · have rest : (bytes.drop 4).length = length - 4 := by rw [List.length_drop, size]
      rw [quads_of_le long, List.length_cons, ih (length - 4) (by omega) _ rest]
      omega
    · rw [quads_of_lt (not_le.mp long), List.length_nil]
      omega

private theorem quads_getElem? {bytes : List UInt8} {n : Nat} (inside : 4 * n + 4 ≤ bytes.length) :
    (quads bytes)[n]? = some ((bytes.drop (4 * n)).take 4) := by
  induction n generalizing bytes with
  | zero =>
    rw [quads_of_le (by omega)]
    rfl
  | succ n ih =>
    rw [quads_of_le (by omega), List.getElem?_cons_succ, ih (by rw [List.length_drop]; omega),
      List.drop_drop]
    congr 3
    omega

private theorem SalExt.sourceExtAddr_toList {e : SalExt} {n : Nat} {addr : List UInt8}
    (place : e.addrs[n]? = some addr) :
    (sourceExtAddr e.bytes n).toList = addr := by
  obtain ⟨below, -⟩ := List.getElem?_eq_some_iff.mp place
  rw [addrs, length_quads, List.length_drop] at below
  have inside : 4 * n + 4 ≤ (e.bytes.drop 4).length := by
    rw [List.length_drop]
    omega
  rw [addrs, quads_getElem? inside, List.drop_drop, Option.some.injEq] at place
  have size : addr.length = 4 := by
    rw [← place, List.length_take, List.length_drop]
    omega
  have start : salSourceExtGetAddr 0 n = 4 + 4 * n := by
    rw [salSourceExtGetAddr]
    omega
  rw [sourceExtAddr, start, @bytesAt_eq _ _ 4 ⟨addr.toArray, size⟩ place]
  rfl

/-- The number that the length gives is the place behind the last address. -/
theorem SalExt.sourceExtLastAddr_eq {e : SalExt} {row : List (List UInt8)} {addr : NetAddr}
    (kind : e.kind = .source) (addrs : e.addrs = row ++ [addr.toList]) :
    sourceExtLastAddr e.bytes = addr := by
  have size := @lengthByte e (by rw [kind]; decide)
  have count : row.length + 1 = (e.bytes.length - 4) / 4 := by
    rw [← List.length_drop, ← length_quads, ← SalExt.addrs, addrs, List.length_append]
    rfl
  have number : (salSourceExtNumAddrs (e.bytes.getD 1 0)).toNat = row.length + 1 := by
    rw [toNat_salSourceExtNumAddrs (by omega), size, count]
  rw [sourceExtLastAddr, number, Nat.add_sub_cancel]
  apply Vector.toList_inj.mp
  apply SalExt.sourceExtAddr_toList
  rw [addrs, List.getElem?_concat_length]

/-! ## What arrives behind the forwarders -/

private theorem Shaped.srcExt {p : WirePacket} {ids payload : List UInt8} {protocol : UInt8}
    {exts : List SalExt} {hdr : SalHeader}
    (shaped : Shaped ids protocol exts payload p.sal)
    (read : p.hdr = some hdr) :
    hdr.srcExt = (SalExt.select .source exts)[0]?.map SalExt.bytes := by
  rw [WirePacket.hdr] at read
  split at read
  · rename_i ctx parsed
    cases read
    have split := shaped.split_of_parse parsed
    obtain ⟨-, -, -, length, total⟩ := Framed.parts shaped
    obtain ⟨ctx', again, -, described⟩ := split.parse (by omega)
    rw [again] at parsed
    cases parsed
    rw [SalHeader.ofContext_eq described split.here]
  · cases read

/-- The source extension of a packet behind these hops, and its addresses. -/
inductive SourcedBehind (hdr : SalHeader) : List Hop → Prop
  | direct (none : hdr.srcExt = none) : SourcedBehind hdr []
  | noted {first : Hop} {rest : List Hop} {src : SalExt}
      (kind : src.kind = .source) (given : hdr.srcExt = some src.bytes)
      (length : src.bytes.length = 12 + 4 * rest.length)
      (addrs : src.addrs = first.saddr :: (first :: rest).map Hop.daddr) :
      SourcedBehind hdr (first :: rest)

private theorem OnPath.sourcedBehind
    {ids : List UInt8} {protocol : UInt8} {hops : List Hop} {p : WirePacket}
    {hdr : SalHeader} (onPath : OnPath ids protocol hops p.sal)
    (read : p.hdr = some hdr) (few : hops.length ≤ 60) :
    SourcedBehind hdr hops := by
  generalize sal : p.sal = packet at onPath
  cases onPath with
  | start plain shaped =>
    rw [← sal] at shaped
    have given := Shaped.srcExt shaped read
    rw [SalExt.select_of_none plain.noSource] at given
    exact .direct given
  | @noted exts src first rest payload _ plain kind length addrs most shaped =>
    rw [← sal] at shaped
    have given := Shaped.srcExt shaped read
    rw [SalExt.select_append, SalExt.select_of_none plain.noSource, SalExt.select_cons,
      if_pos kind] at given
    exact .noted kind given length addrs
  | stuck full refused framed => omega

/-! ## What both ends save -/

section

variable {env : SalEnv} {server server' : SalHost} {skb response : RcvSkb}
  {rsk : RequestSock} {p : WirePacket} {hops : List Hop}

/-- The request that a SYN puts into the queue, and the response to it. -/
theorem servalSalRcvSyn_queued (run : servalSalRcvSyn env server skb = .ok server')
    (queued : server'.sk.synQueue = rsk :: server.sk.synQueue)
    (out : server'.out = server.out ++ [p]) :
    rsk.rmtAddr = clientAddr skb ∧ env.devAddr skb.dev = some rsk.locAddr ∧
      IsSynack env rsk skb.hdr p := by
  rcases servalSalRcvSyn_spec run with
    ⟨tick, -, rfl⟩ | ⟨ctrl, srv, myaddr, fresh, -, -, address, -, sends⟩
  · exact absurd queued (List.cons_ne_self rsk _).symm
  have synack := sends.each out p (by simp)
  obtain ⟨_, _, _, _, rfl, -⟩ := sends
  obtain ⟨rfl, -⟩ := List.cons.inj queued
  refine ⟨fillRequestSock_rmtAddr .., ?_, synack⟩
  rw [address, fillRequestSock]
  cases skb.hdr.srcExt <;> rfl

private theorem SourcedBehind.clientAddr_eq (arrived : SourcedBehind skb.hdr hops) :
    (clientAddr skb).toList = (hops.head?.map Hop.saddr).getD skb.saddr.toList := by
  cases arrived with
  | direct none =>
    rw [clientAddr, none]
    rfl
  | noted kind given length addrs =>
    rw [clientAddr, given]
    apply SalExt.sourceExtAddr_toList
    rw [addrs]
    rfl

/-- The last address in the response is the one that the listener added. -/
theorem SourcedBehind.inetDaddr_eq (arrived : SourcedBehind skb.hdr hops) (few : hops.length ≤ 60)
    (synack : IsSynack env rsk skb.hdr p)
    (read : p.hdr = some response.hdr) (sk : ServalSock) :
    (saveResponse sk response).inetDaddr =
      if hops = [] then response.saddr else rsk.locAddr := by
  cases arrived with
  | direct none =>
    rw [synack.hdr_plain none, Option.some.injEq] at read
    rw [saveResponse, ← read]
    rfl
  | @noted first rest src kind given length addrs =>
    rw [List.length_cons] at few
    obtain ⟨src', kind', addrs', grown⟩ := synack.hdr_source kind given (by omega) (by omega)
    rw [grown, Option.some.injEq] at read
    rw [saveResponse, ← read]
    exact SalExt.sourceExtLastAddr_eq kind' addrs'

/-- Behind at most 60 forwarders, whatever they do to the addresses of the
packet, the listener learns the source that the packet had before the first
one, and the client learns the address of the listener. -/
theorem addresses_recovered {sk : SalSock} {syn : SkBuff} {authenticator : UInt64}
    {start : List UInt8} {arrival : WirePacket}
    (originates : Originates sk syn authenticator start)
    (path : ForwardPath start hops arrival.sal) (few : hops.length ≤ 60)
    (arrives : arrival.hdr = some skb.hdr)
    (request : skb.hdr.hasSyn = true ∧ skb.hdr.hasAck = false ∧
      skb.hdr.hasRst = false ∧ skb.hdr.hasRsyn = false)
    (listens : server.sk.skState = .listen)
    (run : servalSalStateProcess env server skb = .ok server')
    (queued : server'.sk.synQueue = rsk :: server.sk.synQueue)
    (answered : server'.out = server.out ++ [p])
    (returns : p.hdr = some response.hdr)
    (source : response.saddr = p.saddr) :
    rsk.rmtAddr.toList = (hops.head?.map Hop.saddr).getD skb.saddr.toList ∧
      env.devAddr skb.dev = some rsk.locAddr ∧
      ∀ client : ServalSock, (saveResponse client response).inetDaddr =
          if hops = [] then p.saddr else rsk.locAddr := by
  have arrived := (path.onPath originates.onPath).1.sourcedBehind arrives few
  obtain ⟨hasSyn, noAck, noRst, noRsyn⟩ := request
  rw [servalSalStateProcess_listen listens noRst noRsyn] at run
  obtain ⟨-, rcvSyn⟩ := servalSalListenStateProcess_queued hasSyn noAck run queued
  obtain ⟨rmtAddr, locAddr, synack⟩ := servalSalRcvSyn_queued rcvSyn queued answered
  refine ⟨?_, locAddr, ?_⟩
  · rw [rmtAddr, arrived.clientAddr_eq]
  · rw [← source]
    exact arrived.inetDaddr_eq few synack returns

end

def passesOn (env : ForwardEnv) (table : ServiceTable) (skb : LinearSkb)
    (srvid : List UInt8) : List (List UInt8) :=
  match servalSalParseHdr skb.sal .all with
  | .ok (0, ctx) =>
    match servalSalResolveService env table skb ctx srvid with
    | .ok resolution => resolution.forwarded.map LinearSkb.packet
    | .error _ => []
  | _ => []

private theorem ForwardStep.of_passesOn {env : ForwardEnv} {table : ServiceTable} {skb : LinearSkb}
    {srvid front ip packet post sent : List UInt8}
    (received : skb.Holds front ip packet post) (header : 20 ≤ ip.length)
    (passed : sent ∈ passesOn env table skb srvid) :
    ForwardStep packet ⟨(ip.drop 12).take 4, (ip.drop 16).take 4⟩ sent := by
  rw [passesOn] at passed
  split at passed
  · rename_i ctx parsed
    split at passed
    · rename_i resolution resolved
      obtain ⟨buffer, forwarded, rfl⟩ := List.mem_map.mp passed
      exact .mk received header parsed resolved forwarded
    · cases passed
  · cases passed

def notedSyn : WirePacket where
  saddr := ipv4 10 0 0 9
  daddr := ipv4 10 0 0 3
  sal := [1, 1, 1, 1, 2, 2, 2, 2, 20, 6, 99, 77] ++ ((synPacket.drop 12).take 56 ++
        ([68, 12, 4, 4, 10, 0, 0, 1, 10, 0, 0, 2] ++ (List.replicate 16 0 ++ [235, 225, 0, 0])))

def notedSynSkb : RcvSkb :=
  { requestSkb with
    hdr := notedSyn.hdr.getD requestSkb.hdr
    saddr := notedSyn.saddr
    daddr := notedSyn.daddr }

theorem notedSyn_path : ForwardPath synPacket [⟨[10, 0, 0, 1], [10, 0, 0, 2]⟩] notedSyn.sal := by
  have holds : (LinearSkb.mk (List.replicate 64 0 ++ (sampleIp ++ (synPacket ++ [])))
        84 172 64 84 14).Holds (List.replicate 64 0) sampleIp synPacket [] :=
    ⟨⟨rfl, rfl, rfl, rfl⟩, rfl⟩
  exact ForwardPath.nil.snoc
    (@ForwardStep.of_passesOn ⟨0, true, 0, none, fun _ => 14, 0⟩ onwardTable _
      (List.replicate 32 4) _ _ _ _ _ holds (by decide) (by decide +kernel))

theorem addresses_recovered_one : ∃ server' rsk p,
      servalSalStateProcess plainEnv plainListener notedSynSkb = .ok server' ∧
      server'.sk.synQueue = rsk :: plainListener.sk.synQueue ∧
      server'.out = plainListener.out ++ [p] ∧ rsk.rmtAddr.toList = [10, 0, 0, 1] ∧
      ∀ hdr, p.hdr = some hdr → ∀ client : ServalSock, (saveResponse client
          { requestSkb with hdr := hdr, saddr := p.saddr }).inetDaddr =
          rsk.locAddr := by
  obtain ⟨server', run, sent⟩ := @exists_of_leaves _
      (servalSalStateProcess plainEnv plainListener notedSynSkb)
      (fun host => host.sk.synQueue.length = 1 && host.out.length = 1 &&
        host.out.all fun p => p.hdr.isSome)
      (by decide +kernel)
  simp only [Bool.and_eq_true, decide_eq_true_eq] at sent
  obtain ⟨⟨one, single⟩, readable⟩ := sent
  obtain ⟨rsk, queued⟩ := List.length_eq_one_iff.mp one
  obtain ⟨p, answered⟩ := List.length_eq_one_iff.mp single
  have recovered (hdr : SalHeader) (returns : p.hdr = some hdr) :=
    @addresses_recovered plainEnv plainListener server' notedSynSkb
      { requestSkb with hdr := hdr, saddr := p.saddr } rsk p _ requestSock
      { synSkb with data := List.replicate 20 0 } 0 synPacket notedSyn
      ⟨_, 4, rfl, rfl⟩ notedSyn_path (by decide) (by decide +kernel)
      (by decide +kernel) rfl run queued answered returns rfl
  rw [answered] at readable
  obtain ⟨hdr, returns⟩ := Option.isSome_iff_exists.mp (by simpa using readable)
  exact ⟨server', rsk, p, run, queued, answered, (recovered hdr returns).1,
    fun hdr returns => (recovered hdr returns).2.2⟩

end Serval
