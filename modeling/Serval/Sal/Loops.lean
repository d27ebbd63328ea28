import Serval.Sal.Wrap

/-!
# Paths of a packet

The path of a packet that is passed on again and again, by any forwarders with
any tables. The source extension grows with the destinations that the packet
has had, and a forwarder refuses one that it holds already. After 62 hops its
length is zero and nobody parses the header any more.
-/

namespace Serval

open Serval.Support

structure Hop where
  saddr : List UInt8
  daddr : List UInt8

/-- One forwarder receives the packet, whatever else its buffer holds, accepts
the header and passes the packet on. -/
inductive ForwardStep (packet : List UInt8) : Hop → List UInt8 → Prop
  | mk {env : ForwardEnv} {table : ServiceTable} {skb sent : LinearSkb}
      {ctx : SalContext} {srvid front ip post : List UInt8}
      {resolution : Resolution}
      (received : skb.Holds front ip packet post) (header : 20 ≤ ip.length)
      (parsed : servalSalParseHdr skb.sal .all = .ok (0, ctx))
      (resolved : servalSalResolveService env table skb ctx srvid = .ok resolution)
      (forwarded : sent ∈ resolution.forwarded) :
      ForwardStep packet ⟨(ip.drop 12).take 4, (ip.drop 16).take 4⟩
        sent.packet

inductive ForwardPath (start : List UInt8) : List Hop → List UInt8 → Prop
  | nil : ForwardPath start [] start
  | snoc {hops : List Hop} {packet sent : List UInt8} {hop : Hop}
      (path : ForwardPath start hops packet)
      (step : ForwardStep packet hop sent) :
      ForwardPath start (hops ++ [hop]) sent

/-! ## What the header holds on the way -/

/-- The packet on its way behind these hops: the first source and every
destination are in the source extension, until it is full. -/
inductive OnPath (ids : List UInt8) (protocol : UInt8) : List Hop → List UInt8 → Prop
  | start {exts : List SalExt} {payload packet : List UInt8} (plain : Plain exts)
      (shaped : Shaped ids protocol exts payload packet) :
      OnPath ids protocol [] packet
  | noted {exts : List SalExt} {src : SalExt} {first : Hop}
      {rest : List Hop} {payload packet : List UInt8}
      (plain : Plain exts) (kind : src.kind = .source)
      (length : src.bytes.length = 12 + 4 * rest.length)
      (addrs : src.addrs = first.saddr :: (first :: rest).map Hop.daddr)
      (most : rest.length ≤ 60)
      (shaped : Shaped ids protocol (exts ++ [src]) payload packet) :
      OnPath ids protocol (first :: rest) packet
  | stuck {exts : List SalExt} {hops : List Hop} {protocol' : UInt8}
      {row payload packet : List UInt8} (full : hops.length = 62)
      (refused : StuckRow exts row)
      (framed : Framed ids protocol' row payload packet) :
      OnPath ids protocol hops packet

variable {packet : List UInt8}

private theorem OnPath.length_le {ids : List UInt8} {protocol : UInt8}
    {hops : List Hop} (onPath : OnPath ids protocol hops packet) :
    hops.length ≤ 62 := by
  cases onPath with
  | start plain shaped => exact Nat.zero_le _
  | noted plain kind length addrs most shaped =>
    rw [List.length_cons]
    omega
  | stuck full refused framed => exact full.le

private theorem stamped_snoc (taasAuth : UInt64) (exts : List SalExt) {src : SalExt}
    (kind : src.kind = .source) :
    stamped taasAuth (exts ++ [src]) = stamped taasAuth exts ++ [src] := by
  by_cases given : taasAuth ≠ 0
  · rw [stamped, stamped, if_pos given, if_pos given, List.map_append, List.map_singleton,
      SalExt.stamp_of_ne taasAuth (by rw [kind]; decide)]
  · rw [stamped, stamped, if_neg given, if_neg given]

variable {exts : List SalExt}

theorem Plain.stamped (plain : Plain exts) (taasAuth : UInt64) : Plain (stamped taasAuth exts) := by
  refine plain.of_kinds ?_ (length_join_stamped taasAuth exts)
  by_cases given : taasAuth ≠ 0
  · rw [Serval.stamped, if_pos given]
    exact kinds_map_stamp taasAuth exts
  · rw [Serval.stamped, if_neg given]

private theorem count_snoc (kind : SalExtType) (exts : List SalExt) (e : SalExt) :
    SalExt.count kind (exts ++ [e]) = SalExt.count kind exts + if e.kind = kind then 1 else 0 := by
  rw [SalExt.count, List.countP_append, List.countP_singleton]
  simp only [decide_eq_true_eq, SalExt.count]

private theorem Shaped.accepted {skb : LinearSkb} {ctx : SalContext}
    {front ip post ids payload : List UInt8} {protocol : UInt8}
    (shaped : Shaped ids protocol exts payload packet)
    (holds : skb.Holds front ip packet post) (header : 20 ≤ ip.length)
    (parsed : servalSalParseHdr skb.sal .all = .ok (0, ctx))
    (room : exts.length ≤ 10) (controls : SalExt.count .control exts ≤ 1)
    (services : SalExt.count .service exts ≤ 2)
    (sources : SalExt.count .source exts ≤ 1)
    (taas : SalExt.count .taas exts ≤ 1) :
    Accepted skb ctx front ip post ids protocol exts payload := by
  obtain ⟨split, behind, whole⟩ := Shaped.split shaped room controls services sources taas
  have accepted := split.accepted holds header whole parsed
  obtain ⟨first, ninth, -⟩ := Framed.parts shaped
  rw [first, ninth, behind] at accepted
  exact accepted

section

variable {ids packet sent : List UInt8} {protocol : UInt8} {hop : Hop}

variable {exts : List SalExt}

private theorem OnPath.step_start {payload : List UInt8} (plain : Plain exts)
    (shaped : Shaped ids protocol exts payload packet)
    (step : ForwardStep packet hop sent) :
    OnPath ids protocol [hop] sent := by
  obtain ⟨received, header, parsed, resolved, forwarded⟩ := step
  have room := plain.room
  have none := count_eq_zero_of_none plain.noSource
  have accepted := Shaped.accepted shaped received header parsed (by omega) plain.controls
      plain.services (by omega) plain.taas
  obtain ⟨target, ret, run⟩ := servalSalResolveService_forwarded resolved forwarded
  have fits : RoomForOne exts := by
    refine ⟨fun src member kind => absurd kind (plain.noSource src member), ?_⟩
    have short := plain.length
    rw [sourceGrowth, if_pos none]
    omega
  obtain ⟨exts', payload', noted, shaped'⟩ := (accepted.sent plain.taas run).2 fits
  cases noted with
  | first absent kind length addrs =>
    rw [stamped_snoc target.taasAuth exts kind] at shaped'
    exact .noted (plain.stamped target.taasAuth) kind length addrs (Nat.zero_le _) shaped'
  | @another before after src src' kind kind' length addrs =>
    exact absurd kind (plain.noSource src (by simp))

private theorem Noted.snoc_inv {saddr daddr : List UInt8} {exts' : List SalExt}
    {src : SalExt} (noted : Noted saddr daddr (exts ++ [src]) exts')
    (kind : src.kind = .source) (absent : ∀ e ∈ exts, e.kind ≠ .source) :
    ∃ src', exts' = exts ++ [src'] ∧ src'.kind = .source ∧
      src'.bytes.length = src.bytes.length + 4 ∧ src'.addrs = src.addrs ++ [daddr] := by
  generalize whole : exts ++ [src] = row at noted
  cases noted with
  | first none kind' length addrs =>
    exact absurd kind (none src (by rw [← whole]; simp))
  | @another before after old new oldKind newKind length addrs =>
    rcases List.eq_nil_or_concat after with empty | ⟨after', e, ends⟩
    · rw [empty] at whole ⊢
      obtain ⟨same, last⟩ := List.append_inj' whole rfl
      rw [List.singleton_inj] at last
      rw [← same, last]
      exact ⟨new, rfl, newKind, length, addrs⟩
    · rw [List.concat_eq_append] at ends
      rw [ends, ← List.cons_append, ← List.append_assoc] at whole
      obtain ⟨same, -⟩ := List.append_inj' whole rfl
      exact absurd oldKind (absent old (by rw [same]; simp))

private theorem OnPath.step_noted {src : SalExt} {first : Hop} {rest : List Hop}
    {payload : List UInt8} (plain : Plain exts) (kind : src.kind = .source)
    (length : src.bytes.length = 12 + 4 * rest.length)
    (addrs : src.addrs = first.saddr :: (first :: rest).map Hop.daddr)
    (most : rest.length ≤ 60)
    (shaped : Shaped ids protocol (exts ++ [src]) payload packet)
    (step : ForwardStep packet hop sent) :
    OnPath ids protocol (first :: rest ++ [hop]) sent ∧
      hop.daddr ∉ (first :: rest).map Hop.daddr := by
  obtain ⟨received, header, parsed, resolved, forwarded⟩ := step
  have room := plain.room
  have none := count_eq_zero_of_none plain.noSource
  have sameCount {other : SalExtType} (different : other ≠ .source) :
      SalExt.count other (exts ++ [src]) = SalExt.count other exts := by
    rw [count_snoc, if_neg (by rw [kind]; exact different.symm), Nat.add_zero]
  have single : SalExt.count .source (exts ++ [src]) = 1 := by rw [count_snoc, if_pos kind, none]
  have taas : SalExt.count .taas (exts ++ [src]) ≤ 1 := by
    rw [sameCount (by decide)]
    exact plain.taas
  have accepted := Shaped.accepted shaped received header parsed
      (by rw [List.length_append, List.length_singleton]; omega)
      (by rw [sameCount (by decide)]; exact plain.controls)
      (by rw [sameCount (by decide)]; exact plain.services) single.le taas
  obtain ⟨target, ret, run⟩ := servalSalResolveService_forwarded resolved forwarded
  obtain ⟨unseen, sends⟩ := accepted.sent taas run
  have fresh := unseen src (by simp) kind
  rw [addrs] at fresh
  refine ⟨?_, fun member => fresh (List.mem_cons_of_mem _ member)⟩
  by_cases more : rest.length < 60
  · have fits : RoomForOne (exts ++ [src]) := by
      constructor
      · intro other member otherKind
        rcases List.mem_append.mp member with inside | last
        · exact absurd otherKind (plain.noSource other inside)
        · rw [List.mem_singleton.mp last]
          omega
      · have short := plain.length
        rw [sourceGrowth, single, if_neg (by decide), join_snoc, List.length_append]
        omega
    obtain ⟨exts', payload', noted, shaped'⟩ := sends fits
    obtain ⟨src', rfl, kind', length', addrs'⟩ := noted.snoc_inv kind plain.noSource
    rw [stamped_snoc target.taasAuth exts kind'] at shaped'
    rw [List.cons_append]
    refine .noted (plain.stamped target.taasAuth) kind' ?_ ?_ ?_ shaped'
    · rw [List.length_append, List.length_singleton]
      omega
    · rw [addrs', addrs]
      simp
    · rw [List.length_append, List.length_singleton]
      omega
  · have full : rest.length = 60 := by omega
    obtain ⟨protocol', row, payload', ⟨exts', stuck⟩, framed⟩ :=
      accepted.sent_wrapped plain kind (by rw [length, full]) run
    refine .stuck ?_ stuck framed
    rw [List.length_append, List.length_cons, full]
    rfl

/-- One hop more, at an address that the packet did not have before. -/
theorem OnPath.step {hops : List Hop} (onPath : OnPath ids protocol hops packet)
    (step : ForwardStep packet hop sent) :
    OnPath ids protocol (hops ++ [hop]) sent ∧ hop.daddr ∉ hops.map Hop.daddr := by
  cases onPath with
  | start plain shaped =>
    exact ⟨.step_start plain shaped step, List.not_mem_nil⟩
  | noted plain kind length addrs most shaped =>
    exact OnPath.step_noted plain kind length addrs most shaped step
  | stuck full refused framed =>
    obtain ⟨received, header, parsed, resolved, forwarded⟩ := step
    rw [received.sal_eq] at parsed
    exact absurd parsed (refused.refused framed _ _)

theorem ForwardPath.onPath {start : List UInt8} {hops : List Hop}
    (path : ForwardPath start hops packet)
    (begins : OnPath ids protocol [] start) :
    OnPath ids protocol hops packet ∧ (hops.map Hop.daddr).Nodup := by
  induction path with
  | nil => exact ⟨begins, List.nodup_nil⟩
  | snoc path step ih =>
    obtain ⟨onPath, distinct⟩ := ih
    obtain ⟨onPath', fresh⟩ := onPath.step step
    refine ⟨onPath', ?_⟩
    rw [List.map_append]
    exact List.nodup_append.mpr ⟨distinct, List.nodup_singleton _, by
        intro a member b single
        rw [List.mem_singleton.mp single]
        rintro rfl
        exact fresh member⟩

end

theorem kinds_of_total
    (total :
      exts.length = SalExt.count .control exts + SalExt.count .service exts +
          SalExt.count .taas exts) :
    ∀ e ∈ exts, e.kind = .control ∨ e.kind = .service ∨ e.kind = .taas := by
  have sum (row : List SalExt) : row.countP (fun e =>
          e.kind = .control ∨ e.kind = .service ∨ e.kind = .taas) =
        SalExt.count .control row + SalExt.count .service row + SalExt.count .taas row := by
    induction row with
    | nil => rfl
    | cons e rest ih =>
      rw [List.countP_cons, ih, SalExt.count_cons, SalExt.count_cons, SalExt.count_cons]
      cases e.kind <;> simp <;> omega
  rw [← sum exts] at total
  intro e member
  simpa using List.countP_eq_length.mp total.symm e member

variable {sk : SalSock} {authenticator : UInt64}

private theorem Plain.of_built {cb : SalSkbCb} (content : BuiltContents sk cb authenticator exts)
    (short : (SalExt.join exts).length ≤ 84)
    (whole : (SalExt.join exts).length % 4 = 0) : Plain exts := by
  obtain ⟨atMostOne, atMostTwo, single, -, total⟩ := content.counts
  have kinds := kinds_of_total total
  refine ⟨?_, ?_, by omega, short, whole, atMostOne, atMostTwo, single⟩
  · intro e member isPad
    rcases kinds e member with kind | kind | kind <;> rw [kind] at isPad <;> cases isPad
  · intro e member isSource
    rcases kinds e member with kind | kind | kind <;> rw [kind] at isSource <;> cases isSource

structure Originates (sk : SalSock) (skb : SkBuff) (authenticator : UInt64)
    (packet : List UInt8) : Prop where
  sent :
    ∃ skb' address, servalSalBuildHeader sk skb authenticator = .ok skb' ∧
      servalSalSendCheck address skb'.data = .ok packet

theorem Originates.shaped {skb : SkBuff} (originates : Originates sk skb authenticator packet) :
    ∃ exts skb', servalSalBuildHeader sk skb authenticator = .ok skb' ∧
      packet.length = skb'.data.length ∧
      Shaped (sk.localFlowid.toList ++ sk.peerFlowid.toList) sk.skProtocol
        exts skb.data packet ∧ Plain exts ∧ BuiltContents sk skb.cb authenticator exts := by
  obtain ⟨skb', address, built, checked⟩ := originates.sent
  obtain ⟨exts, old, size, short, whole, data, content⟩ := servalSalBuildHeader_built built
  have framed : Shaped (sk.localFlowid.toList ++ sk.peerFlowid.toList) sk.skProtocol
        exts skb.data skb'.data := by
    refine ⟨by simp, UInt8.ofNat (((SalExt.join exts).length + 12) / 4), (old.drop 10).take 2, ?_,
      ?_, ?_⟩
    · rw [List.length_take, List.length_drop, size]
      rfl
    · rw [UInt8.toNat_ofNat_of_lt' (by show _ < 256; omega)]
      omega
    · rw [data, salHdr, salPacket]
      simp only [List.append_assoc]
  obtain ⟨same, shaped⟩ := framed.checked checked
  exact ⟨exts, skb', built, same, shaped, Plain.of_built content short whole, content⟩

theorem Originates.onPath {skb : SkBuff} (originates : Originates sk skb authenticator packet) :
    OnPath (sk.localFlowid.toList ++ sk.peerFlowid.toList) sk.skProtocol []
      packet := by
  obtain ⟨exts, -, -, -, shaped, plain, -⟩ := originates.shaped
  exact .start plain shaped

/-- A packet never comes back to an address where it was passed on, and it is
passed on 62 times at most. -/
theorem forwardPath_noLoops (sk : SalSock) (skb : SkBuff) (authenticator : UInt64)
    {start packet : List UInt8} {hops : List Hop}
    (originates : Originates sk skb authenticator start)
    (path : ForwardPath start hops packet) :
    (hops.map Hop.daddr).Nodup ∧ hops.length ≤ 62 := by
  obtain ⟨onPath, distinct⟩ := path.onPath originates.onPath
  exact ⟨distinct, onPath.length_le⟩

/-- The first packet that goes on to another host. -/
def passedOn (env : ForwardEnv) (table : ServiceTable) (skb : LinearSkb)
    (srvid : List UInt8) : Option (List UInt8) :=
  match servalSalParseHdr skb.sal .all with
  | .ok (0, ctx) =>
    match servalSalResolveService env table skb ctx srvid with
    | .ok resolution => resolution.forwarded.head?.map fun sent => sent.packet
    | .error _ => none
  | _ => none

private theorem ForwardStep.of_passedOn {env : ForwardEnv} {table : ServiceTable} {skb : LinearSkb}
    {srvid front ip packet post sent : List UInt8}
    (received : skb.Holds front ip packet post) (header : 20 ≤ ip.length)
    (run : passedOn env table skb srvid = some sent) :
    ForwardStep packet ⟨(ip.drop 12).take 4, (ip.drop 16).take 4⟩ sent := by
  rw [passedOn] at run
  split at run
  · rename_i ctx parsed
    split at run
    · rename_i resolution resolved
      obtain ⟨forwarded, head, rfl⟩ := Option.map_eq_some_iff.mp run
      exact .mk received header parsed resolved (List.mem_of_mem_head? head)
    · cases run
  · cases run

def synPacket : List UInt8 :=
  [1, 1, 1, 1, 2, 2, 2, 2, 17, 6, 194, 96, 31, 20, 131, 255, 0, 0, 0, 7, 0, 0, 0, 0] ++
    (List.replicate 8 5 ++ ([47, 36, 255, 255] ++ (List.replicate 32 4 ++ List.replicate 20 0)))

def onwardTable : ServiceTable where
  tree :=
    { heap := ⟨[some
          { parent := 0, left := none, right := none, ops := none
            priv := some
              { node := none
                targetSet := [⟨1, 1, 0, 1, [⟨.forward, 1, 0, ⟨0, 0, 0, 0⟩, .null, 0, [],
                      [10, 0, 0, 3]⟩]⟩]
                count := 1 }
            prefixBits := 0, prefixSize := 0, prefixBytes := [] }]⟩
      root := some 0
      entries := 1
      destroyed := [] }
  services := 1

def relayedPacket : List UInt8 :=
  [1, 1, 1, 1, 2, 2, 2, 2, 20, 6, 99, 77] ++ ((synPacket.drop 12).take 56 ++
    ([68, 12, 4, 4, 10, 0, 0, 1, 10, 0, 0, 2] ++ (List.replicate 16 0 ++ [235, 225, 0, 0])))

def relayedIp : List UInt8 :=
  [0x45, 0, 0, 0, 0, 0, 0, 0, 64, 144, 0, 0, 10, 0, 0, 2, 10, 0, 0, 3]

def arriving (ip packet : List UInt8) : LinearSkb where
  mem := List.replicate 64 0 ++ (ip ++ (packet ++ []))
  data := 64 + ip.length
  tail := 64 + ip.length + packet.length
  networkHeader := 64
  transportHeader := 64 + ip.length
  hardHeaderLen := 14

private theorem arriving_holds (ip packet : List UInt8) :
    (arriving ip packet).Holds (List.replicate 64 0) ip packet [] :=
  ⟨⟨rfl, rfl, rfl, rfl⟩, rfl⟩

theorem forwardPath_noLoops_syn : ∃ packet,
      Originates requestSock { synSkb with data := List.replicate 20 0 } 0 synPacket ∧
      ForwardPath synPacket [⟨[10, 0, 0, 1], [10, 0, 0, 2]⟩, ⟨[10, 0, 0, 2], [10, 0, 0, 3]⟩]
        packet ∧
      ([Hop.mk [10, 0, 0, 1] [10, 0, 0, 2], ⟨[10, 0, 0, 2], [10, 0, 0, 3]⟩].map
        Hop.daddr).Nodup ∧
      [Hop.mk [10, 0, 0, 1] [10, 0, 0, 2], ⟨[10, 0, 0, 2], [10, 0, 0, 3]⟩].length ≤ 62 := by
  have first := @ForwardStep.of_passedOn ⟨0, true, 0, none, fun _ => 14, 0⟩ onwardTable _
      (List.replicate 32 4) _ _ _ _ relayedPacket (arriving_holds sampleIp synPacket) (by decide)
      (by decide +kernel)
  obtain ⟨packet, second⟩ := Option.isSome_iff_exists.mp (show (passedOn
      ⟨0, true, 0, none, fun _ => 14, 0⟩ onwardTable (arriving relayedIp relayedPacket)
      (List.replicate 32 4)).isSome = true by decide +kernel)
  have path := (ForwardPath.nil.snoc first).snoc
    (.of_passedOn (arriving_holds relayedIp relayedPacket) (by decide) second)
  have originates : Originates requestSock { synSkb with data := List.replicate 20 0 } 0
        synPacket :=
    ⟨_, 4, rfl, rfl⟩
  exact ⟨packet, originates, path, forwardPath_noLoops requestSock _ 0 originates path⟩

end Serval
