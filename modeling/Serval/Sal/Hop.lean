import Serval.Sal.Resolve

/-!
# One hop

What a forwarder sends, given what it received. The addresses and the
transport checksum change, the SAL header changes as `rewriteHeader` says, and
an anycast lookup passes the packet on once at most.
-/

namespace Serval

open Serval.Support

def LinearSkb.packet (skb : LinearSkb) : List UInt8 :=
  (skb.mem.take skb.tail).drop skb.transportHeader

namespace LinearSkb.Placed

variable {skb : LinearSkb} {front ip packet post : List UInt8}

theorem packet_eq (placed : skb.Placed front ip packet post) : skb.packet = packet := by
  rw [LinearSkb.packet, placed.mem, placed.tail, placed.transport, Nat.add_assoc,
    List.take_length_add_append,
    List.take_length_add_append, List.take_left, ← List.drop_drop,
    List.drop_left, List.drop_left]

theorem writeIp (placed : skb.Placed front ip packet post) {index : Nat} {bytes mem : List UInt8}
    (write : writeBytes skb.mem (skb.networkHeader + index) bytes = .ok mem)
    (inside : index + bytes.length ≤ ip.length) :
    ∃ ip', ip'.length = ip.length ∧
      ({ skb with mem := mem } : LinearSkb).Placed front ip' packet post := by
  rw [placed.mem, placed.network] at write
  obtain ⟨ip', length, same⟩ := writeBytes_piece write inside
  refine ⟨ip', length, same, placed.network, ?_, ?_⟩
  · rw [length]
    exact placed.transport
  · rw [length]
    exact placed.tail

end LinearSkb.Placed

section

variable {skb skb' : LinearSkb} {front ip packet post : List UInt8}

theorem setAddrs_holds {target : Target} (run : setAddrs skb target = .ok skb')
    (holds : skb.Holds front ip packet post) (header : 20 ≤ ip.length) :
    ∃ ip', ip'.length = ip.length ∧ skb'.Holds front ip' packet post := by
  obtain ⟨dst, readDst, run⟩ := of_bind run
  obtain ⟨mem, written, run⟩ := of_bind run
  have dstLength := length_of_readBytes readDst
  obtain ⟨ip', length, placed⟩ := holds.toPlaced.writeIp written (by omega)
  by_cases plain : target.natSet = 0
  · rw [if_pos plain] at run
    cases run
    refine ⟨ip', length, placed, ?_⟩
    rw [length]
    exact holds.data
  rw [if_neg plain] at run
  obtain ⟨src, readSrc, run⟩ := of_bind run
  obtain ⟨mem', written', run⟩ := of_bind run
  have srcLength := length_of_readBytes readSrc
  obtain ⟨ip'', length', placed'⟩ := placed.writeIp written' (by omega)
  cases run
  refine ⟨ip'', length'.trans length, placed', ?_⟩
  rw [length', length]
  exact holds.data

variable {address : Nat} {protocol : UInt8}

theorem servalIpv4ForwardOut_placed (run : servalIpv4ForwardOut skb address = .ok skb')
    (placed : skb.Placed front ip packet post) (header : 20 ≤ ip.length) :
    ∃ ip', skb'.Placed front ip' packet post := by
  obtain ⟨ttl, -, run⟩ := of_bind run
  obtain ⟨mem1, write1, run⟩ := of_bind run
  obtain ⟨mem2, write2, run⟩ := of_bind run
  obtain ⟨mem3, write3, run⟩ := of_bind run
  obtain ⟨first, -, run⟩ := of_bind run
  obtain ⟨mem4, write4, run⟩ := of_bind run
  cases run
  obtain ⟨ip1, length1, placed1⟩ :=
    placed.writeIp write1 (by simp only [List.length_singleton]; omega)
  obtain ⟨ip2, length2, placed2⟩ := placed1.writeIp write2 (by
      rw [List.length_reverse, length_leBytes]
      omega)
  obtain ⟨ip3, length3, placed3⟩ := placed2.writeIp write3 (by
      simp only [List.length_cons, List.length_nil]
      omega)
  obtain ⟨ip4, length4, placed4⟩ := placed3.writeIp write4 (by rw [length_leBytes]; omega)
  exact ⟨ip4, placed4⟩

theorem writeTransportCsum_mem {off proto : Nat} {lead rest : List UInt8}
    (run : writeTransportCsum skb off proto address = .ok skb')
    (mem : skb.mem = lead ++ rest) (data : skb.data = lead.length) :
    ∃ rest', rest'.length = rest.length ∧ skb' = { skb with mem := lead ++ rest' } := by
  obtain ⟨mem1, write1, run⟩ := of_bind run
  obtain ⟨saddr, -, run⟩ := of_bind run
  obtain ⟨daddr, -, run⟩ := of_bind run
  obtain ⟨mem2, write2, run⟩ := of_bind run
  cases run
  rw [mem, data] at write1
  obtain ⟨rest1, length1, same1⟩ := writeBytes_beyond write1
  rw [same1, data] at write2
  obtain ⟨rest2, length2, same2⟩ := writeBytes_beyond write2
  exact ⟨rest2, length2.trans length1, by rw [same2]⟩

theorem servalSalUpdateTransportCsum_mem {lead rest : List UInt8}
    (run : servalSalUpdateTransportCsum skb protocol address = .ok skb')
    (mem : skb.mem = lead ++ rest) (data : skb.data = lead.length) :
    ∃ rest', rest'.length = rest.length ∧ skb' = { skb with mem := lead ++ rest' } := by
  rw [servalSalUpdateTransportCsum] at run
  split_ifs at run with tcp udp
  · exact writeTransportCsum_mem run mem data
  · exact writeTransportCsum_mem run mem data
  · cases run
    exact ⟨rest, rfl, by rw [← mem]⟩

theorem redoTransport_holds {hdrLen : Nat} {header payload : List UInt8}
    (run : redoTransport skb hdrLen protocol address = .ok skb')
    (holds : skb.Holds front ip (header ++ payload) post)
    (size : header.length = hdrLen) :
    ∃ payload' post', payload'.length = payload.length ∧
      skb'.Holds front ip (header ++ payload') post' := by
  have data := holds.data
  have tail := holds.tail
  rw [List.length_append] at tail
  have pulled : skb.pull hdrLen = { skb with data := skb.data + hdrLen } := if_neg (by
      show ¬ skb.tail - skb.data < hdrLen
      omega)
  obtain ⟨summed, sum, run⟩ := of_bind run
  rw [pulled] at sum
  have mem : skb.mem = (front ++ (ip ++ header)) ++ (payload ++ post) := by
    rw [holds.mem]
    simp only [List.append_assoc]
  obtain ⟨rest, length, same⟩ := servalSalUpdateTransportCsum_mem sum mem (by
      show skb.data + hdrLen = _
      simp only [List.length_append]
      omega)
  rw [List.length_append] at length
  obtain ⟨pushed, push, run⟩ := of_bind run
  rw [same, LinearSkb.push] at push
  rw [if_pos (show hdrLen ≤ skb.data + hdrLen by omega)] at push
  cases push
  cases run
  have back : skb.data + hdrLen - hdrLen = front.length + ip.length := by omega
  refine ⟨rest.take payload.length, rest.drop payload.length, ?_, ⟨?_, holds.network, back, ?_⟩,
      back⟩
  · rw [List.length_take]
    omega
  · simp only [List.append_assoc, List.take_append_drop]
  · show skb.tail = _
    simp only [List.length_append, List.length_take]
    omega

/-- The packet that goes out is framed as the authenticator left it. -/
theorem finishForward_framed {env : ForwardEnv} {target : Target}
    {hdrLen iphLen : Nat} {proto : UInt8} {ids payload : List UInt8}
    {R : List UInt8 → Prop}
    (run : finishForward env skb target hdrLen proto iphLen = .ok skb')
    (holds : skb.Holds front ip packet post) (header : 20 ≤ ip.length)
    (stamps :
      ∀ sal, updateAuthenticator (packet ++ post) target.taasAuth = .ok sal →
          ∃ row packet', sal = packet' ++ post ∧ packet'.length = packet.length ∧
            Framed ids protocol row payload packet' ∧ 12 + row.length = hdrLen ∧ R row) :
    ∃ row payload', R row ∧ Framed ids protocol row payload' skb'.packet := by
  obtain ⟨addressed, address, run⟩ := of_bind run
  obtain ⟨ip1, length1, holds1⟩ := setAddrs_holds address holds header
  obtain ⟨sal, stamp, run⟩ := of_bind run
  rw [holds1.sal_eq] at stamp
  obtain ⟨row, packet1, rfl, packetLength, framed, rowLength, good⟩ := stamps sal stamp
  have holds2 := holds1.withSal post packetLength
  obtain ⟨size, shl, check, checkSize, words, form⟩ := framed
  obtain ⟨summed, sum, run⟩ := of_bind run
  rw [form, ← salPacket_append] at holds2 sum
  obtain ⟨payload', post', -, holds3⟩ := redoTransport_holds sum holds2
      (by rw [length_salPacket size checkSize, rowLength])
  rw [salPacket_append] at holds3
  have framed3 : Framed ids protocol row payload'
        (salPacket ids shl protocol check (row ++ payload')) :=
    ⟨size, shl, check, checkSize, words, rfl⟩
  obtain ⟨packet3, checked, length3, framed4, -⟩ :=
    framed3.sendCheck (env.address + summed.transportHeader) post'
  rw [holds3.sal_eq, checked, ok_bind] at run
  have holds4 := holds3.withSal post' length3
  obtain ⟨pushed, push, run⟩ := of_bind run
  have placed : pushed.Placed front ip1 packet3 post' := by
    rw [LinearSkb.push] at push
    split_ifs at push with room
    cases push
    exact ⟨holds4.mem, holds4.network, holds4.transport, holds4.tail⟩
  obtain ⟨ip2, placed'⟩ := servalIpv4ForwardOut_placed run placed (by omega)
  refine ⟨row, payload', good, ?_⟩
  rw [placed'.packet_eq]
  exact framed4

end

theorem serviceIterNext_anycast {se : ServiceEntry} {random : UInt64} {iter iter' : ServiceIter}
    {target : Option Target}
    (started : serviceIterInit se .anycast random = (true, iter))
    (first : serviceIterNext iter = .ok (target, iter')) :
    ∃ iter'', serviceIterNext iter' = .ok (none, iter'') := by
  have start : ∃ here, iter = ⟨.anycast, none, some here, none⟩ := by
    rw [serviceIterInit] at started
    cases sets : se.targetSet with
    | nil => simp [sets] at started
    | cons set rest =>
      rw [sets] at started
      simp only at started
      by_cases empty : se.count = 0
      · rw [if_pos empty] at started
        cases started
      rw [if_neg empty] at started
      by_cases multicast : True ∧ set.flags &&& SVSF_MULTICAST ≠ 0
      · rw [if_pos multicast] at started
        cases started
      · rw [if_neg multicast] at started
        cases started
        exact ⟨_, rfl⟩
  obtain ⟨here, rfl⟩ := start
  cases here with
  | nil => cases first
  | cons t rest =>
    cases first
    exact ⟨_, rfl⟩

variable {env : ForwardEnv} {skb : LinearSkb} {ctx : SalContext}
    {target : Target} {front ip post : List UInt8}

theorem resolveTargets_last {sent : LinearSkb} {fuel hdrLen : Nat}
    {iter iter' : ServiceIter} {resolution : Resolution}
    (last : serviceIterNext iter = .ok (none, iter'))
    (run :
      resolveTargets env skb ctx (fuel + 1) iter target hdrLen [] =
        .ok resolution) (member : sent ∈ resolution.forwarded) :
    ∃ ret, forwardTo env skb ctx target false hdrLen = .ok (ret, some sent) := by
  simp only [resolveTargets, last, ok_bind, Option.isSome_none, Bool.false_and, Bool.false_eq_true,
    if_false] at run
  split at run
  · cases run
    simp at member
  · split_ifs at run
    cases run
    simp at member
  · cases run
    simp at member
  split_ifs at run with broadcast
  · cases run
    simp at member
  obtain ⟨⟨ret, packet⟩, forwarded, run⟩ := of_bind run
  cases run
  simp only [List.nil_append, Option.mem_toList] at member
  rw [member] at forwarded
  exact ⟨ret, forwarded⟩

theorem servalSalResolveService_forwarded {table : ServiceTable}
    {sent : LinearSkb} {srvid : List UInt8} {resolution : Resolution}
    (run : servalSalResolveService env table skb ctx srvid = .ok resolution)
    (member : sent ∈ resolution.forwarded) :
    ∃ target ret, forwardTo env skb ctx target false ctx.length.toNat = .ok (ret, some sent) := by
  obtain ⟨found, -, run⟩ := of_bind run
  cases found with
  | none =>
    cases run
    simp at member
  | some se =>
    rcases started : serviceIterInit se .anycast env.random with ⟨ok, iter⟩
    simp only [started] at run
    cases ok with
    | false =>
      cases run
      simp at member
    | true =>
      obtain ⟨⟨target, iter'⟩, first, run⟩ := of_bind run
      obtain ⟨iter'', last⟩ := serviceIterNext_anycast started first
      cases target with
      | none =>
        cases run
        simp at member
      | some target =>
        obtain ⟨ret, forwarded⟩ := resolveTargets_last last run member
        exact ⟨target, ret, forwarded⟩

/-! ## The extensions of the packet that is sent -/

theorem setDev_holds {skb' : LinearSkb} {out : TargetOut}
    {packet : List UInt8} (run : setDev env skb out = .ok skb')
    (holds : skb.Holds front ip packet post) :
    skb'.Holds front ip packet post := by
  cases out with
  | null =>
    cases run
    exact holds
  | dev p name =>
    cases run
    exact ⟨⟨holds.mem, holds.network, holds.transport, holds.tail⟩, holds.data⟩
  | sk p protocol => cases run

/-- A packet that was sent went through `add_source_ext` and the rest. -/
theorem forwardTo_sent {sent : LinearSkb} {copied : Bool} {hdrLen : Nat}
    {ret : Int} {packet : List UInt8}
    (run : forwardTo env skb ctx target copied hdrLen = .ok (ret, some sent))
    (holds : skb.Holds front ip packet post) :
    ∃ skb1 skb2 proto iphLen, skb1.Holds front ip packet post ∧
      servalSalAddSourceExt skb1 ctx copied env.fresh = .ok (ret, skb2) ∧ 0 ≤ ret ∧
      finishForward env skb2 target (hdrLen + ret.toNat) proto iphLen = .ok sent := by
  obtain ⟨proto, -, run⟩ := of_bind run
  obtain ⟨first, -, run⟩ := of_bind run
  obtain ⟨skb1, dev, run⟩ := of_bind run
  obtain ⟨⟨value, skb2⟩, added, run⟩ := of_bind run
  simp only at run
  by_cases failed : value < 0
  · rw [if_pos failed] at run
    cases run
  rw [if_neg failed] at run
  obtain ⟨out, finished, run⟩ := of_bind run
  by_cases xmit : env.xmit = 0
  · rw [if_pos xmit] at run
    cases run
    exact ⟨skb1, skb2, proto, _, setDev_holds dev holds, added, not_lt.mp failed, finished⟩
  · rw [if_neg xmit] at run
    cases run

theorem length_join_stamped (taasAuth : UInt64) (exts : List SalExt) :
    (SalExt.join (stamped taasAuth exts)).length = (SalExt.join exts).length := by
  by_cases given : taasAuth ≠ 0
  · rw [stamped, if_pos given, SalExt.length_join_stamp]
  · rw [stamped, if_neg given]

/-- A packet that is passed on has not been here, and if the address had room
it is noted in what is sent. -/
theorem Accepted.sent {sent : LinearSkb} {copied : Bool} {ret : Int}
    {ids payload : List UInt8} {protocol : UInt8} {exts : List SalExt}
    (accepted : Accepted skb ctx front ip post ids protocol exts payload)
    (single : SalExt.count .taas exts ≤ 1)
    (run : forwardTo env skb ctx target copied ctx.length.toNat = .ok (ret, some sent)) :
    Unseen ip exts ∧
      (RoomForOne exts →
        ∃ exts' payload', Noted ((ip.drop 12).take 4) ((ip.drop 16).take 4) exts exts' ∧
          Shaped ids protocol (stamped target.taasAuth exts') payload'
            sent.packet) := by
  obtain ⟨packet, holds, shaped⟩ := accepted.packet
  obtain ⟨skb1, skb2, proto, iphLen, holds1, added, success, finished⟩ := forwardTo_sent run holds
  have accepted1 :
      Accepted skb1 ctx front ip post ids protocol exts payload :=
    { accepted with packet := ⟨packet, holds1, shaped⟩ }
  obtain ⟨unseen, noted⟩ := accepted1.addSource_inv added success
  refine ⟨unseen, ?_⟩
  intro room
  obtain ⟨value, front', packet', post', exts', holds', note, shaped'⟩ := noted room
  have hdrLen : ctx.length.toNat + ret.toNat = 12 + (SalExt.join exts').length := by
    rw [accepted.length, note.length_join]
    omega
  have taas : SalExt.count .taas exts' ≤ 1 := by
    rw [SalExt.count_eq_select, note.select_of_ne (by decide), ← SalExt.count_eq_select]
    exact single
  obtain ⟨row, payload', good, framed⟩ := finishForward_framed
      (R := fun row => row = SalExt.join (stamped target.taasAuth exts'))
      finished holds' accepted.header (by
        intro sal stamp
        obtain ⟨packet1, stamping, length, shaped1⟩ :=
          Shaped.updateAuthenticator shaped' taas target.taasAuth post'
        rw [stamping] at stamp
        cases stamp
        refine ⟨_, packet1, rfl, length, shaped1, ?_, rfl⟩
        rw [length_join_stamped, hdrLen])
  rw [good] at framed
  exact ⟨exts', payload', note, framed⟩

end Serval
