import Serval.Service.Iterator
import Serval.Sal.Socket

/-!
# Sending a packet of a socket

`serval_sal_transmit_skb` looks the service of the peer up for every packet
and sends it to the targets that it finds, whatever address the socket knows
its peer by. The user-space build is modelled.
-/

namespace Serval

open Serval.Support

/-- The destination that a target gives. A short one overwrites the first
bytes of the address that was there. -/
def targetDaddr (daddr : NetAddr) (target : Target) : NetAddr :=
  if isSockTarget target then localAddr
  else Vector.ofFn fun index => target.dst.getD index daddr[index]

def targetDev (env : SalEnv) (target : Target) : Except Fault (Option Ptr) :=
  if isSockTarget target then .ok env.loopback
  else
    match target.out with
    | .null => .error .null
    | .dev p _ => .ok (some p)
    | .sk .. => .error .bounds

abbrev ipHdrSize : Nat := 20

/-- `serval_ipv4_fill_in_hdr`, as far as it needs head room. The addresses
that it fills in are those of the `WirePacket`. -/
def servalIpv4FillInHdr (skb : SkBuff) : Except Fault SkBuff := do
  let (_, skb) ← skbPush skb ipHdrSize
  .ok skb

/-- The SAL header, its check, and `queue_xmit`. -/
def queueXmit (env : SalEnv) (host : SalHost) (skb : CtrlSkb) (authenticator : UInt64) :
    Except Fault (Int × SalHost) := do
  let built ← servalSalBuildHeader host.sk.toSalSock
      ⟨skb.cb, env.headroom host.tick, skb.data⟩ authenticator
  let sal ← servalSalSendCheck env.address built.data
  let _ ← servalIpv4FillInHdr built
  let err := env.xmit host.tick
  if err < 0 then .ok (err, host)
  else .ok (err, host.send ⟨host.sk.inetSaddr, host.sk.inetDaddr, sal⟩)

def mergeErr (err localErr : Int) : Int :=
  if localErr < 0 then if err ≠ 0 then localErr else err else 0

/-- One round of the loop for each target; `freed` says that the packet
itself, which the last target gets, is freed already. -/
def transmitTargets (env : SalEnv) (skb : CtrlSkb) :
    Nat → ServiceIter → Target → Int → Bool → SalHost → Except Fault (Int × SalHost)
  | 0, _, _, _, _, _ => .error .fuel
  | fuel + 1, iter, target, err, freed, host => do
    let (next, iter) ← serviceIterNext iter
    let proceed (err : Int) (host : SalHost) : Except Fault (Int × SalHost) :=
      match next with
      | none => .ok (err, host)
      | some target => transmitTargets env skb fuel iter target err freed host
    if next.isSome && !env.alloc host.tick then
      .ok (-ENOBUFS, host.bump)
    else if next.isNone && freed then
      .error .freed
    else
      let host := host.bump
      match target.type with
      | .delay => proceed (env.delay host.tick) host
      | .drop =>
        -- The target is not advanced, so that it is met again.
        transmitTargets env skb fuel iter target (-EHOSTUNREACH)
          (freed || next.isNone) host
      | _ => do
        let host := host.withAddrs host.sk.inetSaddr
            (targetDaddr host.sk.inetDaddr target)
        match ← targetDev env target with
        | none => transmitTargets env skb fuel iter target err freed host
        | some dev =>
          match env.devAddr dev with
          | none => proceed err host
          | some saddr => do
            let (localErr, host) ← queueXmit env (host.withAddrs saddr host.sk.inetDaddr)
                skb target.taasAuth
            proceed (mergeErr err localErr) host

def servalSalTransmitSkb (env : SalEnv) (host : SalHost) (skb : CtrlSkb) (useCopy : Bool) :
    Except Fault (Int × SalHost) :=
  if useCopy && !env.alloc host.tick then
    .ok (-ENOBUFS, host.bump)
  else do
    let host := host.bump
    match ← serviceFind host.table host.sk.peerSrvid.toList
        serviceIdMaxPrefixBits with
    | none => .ok (-EADDRNOTAVAIL, host)
    | some se =>
      let (ok, iter) := serviceIterInit se env.mode (env.random host.tick)
      if !ok then
        .ok (-1, host)
      else do
        let (first, iter) ← serviceIterNext iter
        match first with
        | none => .ok (-EHOSTUNREACH, host)
        | some target => do
          let fuel := (se.targetSet.map fun set => set.list.length).sum
          let (err, host) ← transmitTargets env skb (fuel + 2) iter target (-1) false host
          .ok (err, host.withAddrs host.sk.inetSaddr zeroAddr)

def SalHost.after (host : SalHost) (saddr daddr : NetAddr) (packets : List WirePacket)
    (tick : Nat) : SalHost where
  sk := { host.sk with inetSaddr := saddr, inetDaddr := daddr }
  table := host.table
  children := host.children
  out := host.out ++ packets
  tick := tick

/-- The host sends packets of one kind, and does nothing else but note the
addresses of the last one. -/
def Sends (sent : WirePacket → Prop) (host host' : SalHost) : Prop :=
  ∃ saddr daddr packets tick, host' = host.after saddr daddr packets tick ∧
    (∀ p ∈ packets, sent p) ∧ host.tick ≤ tick

namespace Sends

variable {sent : WirePacket → Prop} {host host' host'' : SalHost}

theorem addrs (saddr daddr : NetAddr) {tick : Nat} (later : host.tick ≤ tick) :
    Sends sent host { host.withAddrs saddr daddr with tick } :=
  ⟨saddr, daddr, [], tick, by
    rw [SalHost.after, List.append_nil]
    rfl, by simp, later⟩

theorem refl : Sends sent host host :=
  addrs host.sk.inetSaddr host.sk.inetDaddr (Nat.le_refl host.tick)

theorem bump : Sends sent host host.bump :=
  addrs host.sk.inetSaddr host.sk.inetDaddr (Nat.le_succ host.tick)

theorem trans (first : Sends sent host host') (second : Sends sent host' host'') :
    Sends sent host host'' := by
  obtain ⟨saddr, daddr, packets, tick, rfl, each, later⟩ := first
  obtain ⟨saddr', daddr', packets', tick', rfl, each', later'⟩ := second
  refine ⟨saddr', daddr', packets ++ packets', tick', ?_, ?_, Nat.le_trans later later'⟩
  · simp only [SalHost.after, List.append_assoc]
  · intro p inside
    rcases List.mem_append.mp inside with before | after
    · exact each p before
    · exact each' p after

theorem mono {wider : WirePacket → Prop} (implies : ∀ p, sent p → wider p)
    (sends : Sends sent host host') : Sends wider host host' := by
  obtain ⟨saddr, daddr, packets, tick, form, each, later⟩ := sends
  exact ⟨saddr, daddr, packets, tick, form, fun p inside => implies p (each p inside), later⟩

end Sends

/-- The address of the peer behind the rounds for `targets`. A delayed packet
leaves it alone. -/
def aimed : NetAddr → List Target → NetAddr
  | daddr, [] => daddr
  | daddr, target :: rest =>
    aimed (if target.type = .delay then daddr else targetDaddr daddr target) rest

structure SentTo (sk : SalSock) (skb : CtrlSkb) (daddr : NetAddr) (targets : List Target)
    (target : Target) (p : WirePacket) : Prop where
  daddr : p.daddr = targetDaddr (aimed daddr targets) target
  hdr : p.hdr = some (SalHeader.ofBuild sk skb.cb target.taasAuth)
  payload : p.payload = skb.data

/-- A packet to one of `targets`; those in front of it were met before. -/
def SentToOne (sk : SalSock) (skb : CtrlSkb) (daddr : NetAddr) (targets : List Target)
    (p : WirePacket) : Prop :=
  ∃ before target, before ++ [target] <+: targets ∧ SentTo sk skb daddr before target p

variable {env : SalEnv} {skb : CtrlSkb} {fuel : Nat} {iter : ServiceIter}
    {host : SalHost} {target : Target} {err : Int} {host' : SalHost}
    {err' : Int} {freed : Bool}

theorem SentToOne.later {sk : SalSock} {daddr : NetAddr} {targets : List Target} {p : WirePacket}
    (sent : SentToOne sk skb (aimed daddr [target]) targets p) :
    SentToOne sk skb daddr (target :: targets) p := by
  obtain ⟨before, last, inside, sent⟩ := sent
  exact ⟨target :: before, last, List.cons_prefix_cons.mpr ⟨rfl, inside⟩,
    sent.daddr, sent.hdr, sent.payload⟩

theorem queueXmit_tick {authenticator : UInt64}
    (run : queueXmit env host skb authenticator = .ok (err, host')) :
    host'.tick = host.tick ∧ host'.sk = host.sk := by
  obtain ⟨built, -, run⟩ := of_bind run
  obtain ⟨sal, -, run⟩ := of_bind run
  obtain ⟨-, -, run⟩ := of_bind run
  dsimp only at run
  split_ifs at run
  · cases run
    exact ⟨rfl, rfl⟩
  · cases run
    exact ⟨rfl, rfl⟩

theorem queueXmit_sends {sk : SalSock} {daddr : NetAddr} {targets : List Target}
    (same : host.sk.toSalSock = sk) (goes : host.sk.inetDaddr = targetDaddr daddr target)
    (run : queueXmit env host skb target.taasAuth = .ok (err, host')) :
    Sends (SentToOne sk skb daddr (target :: targets)) host host' := by
  subst same
  obtain ⟨built, header, run⟩ := of_bind run
  obtain ⟨sal, checked, run⟩ := of_bind run
  obtain ⟨-, -, run⟩ := of_bind run
  dsimp only at run
  split_ifs at run with failed
  · cases run
    exact .refl
  cases run
  refine ⟨host.sk.inetSaddr, host.sk.inetDaddr, [⟨host.sk.inetSaddr, host.sk.inetDaddr, sal⟩],
    host.tick, rfl, ?_, Nat.le_refl host.tick⟩
  intro p member
  rw [List.mem_singleton] at member
  obtain ⟨ctx, parsed, view, payload⟩ := Originates.header ⟨built, env.address, header, checked⟩
  subst member
  refine ⟨[], target, ⟨targets, rfl⟩, goes, ?_, payload⟩
  rw [WirePacket.hdr, parsed]
  exact congrArg some view

/-- A target that the loop does not get past. -/
def Target.stuck (env : SalEnv) (target : Target) : Prop :=
  target.type = .drop ∨ (target.type ≠ .delay ∧ targetDev env target = .ok none)

theorem transmitTargets_stuck {sent : WirePacket → Prop} (stuck : target.stuck env)
    (run :
      transmitTargets env skb fuel iter target err freed host = .ok (err', host')) :
    Sends sent host host' := by
  induction fuel generalizing iter err freed host with
  | zero => cases run
  | succ fuel ih =>
    obtain ⟨⟨next, iter'⟩, -, run⟩ := of_bind run
    dsimp only at run
    split_ifs at run with failed freed
    · cases run
      exact .bump
    have aims : Sends sent host (host.bump.withAddrs host.sk.inetSaddr
        (targetDaddr host.sk.inetDaddr target)) := .addrs _ _ (Nat.le_succ host.tick)
    rcases stuck with drop | ⟨noDelay, noDev⟩
    · simp only [drop] at run
      exact Sends.bump.trans (ih run)
    split at run
    · rename_i delay
      exact absurd delay noDelay
    · exact Sends.bump.trans (ih run)
    · rw [noDev] at run
      exact aims.trans (ih run)

theorem transmitTargets_sends
    (run : transmitTargets env skb fuel iter target err freed host = .ok (err', host')) :
    Sends (SentToOne host.sk.toSalSock skb host.sk.inetDaddr (target :: iter.targets)) host
      host' := by
  induction fuel generalizing iter target err freed host with
  | zero => cases run
  | succ fuel ih =>
    obtain ⟨⟨next, iter'⟩, stepped, run⟩ := of_bind run
    have split := serviceIterNext_targets stepped
    have proceed {err : Int} {middle : SalHost} (same : middle.sk.toSalSock = host.sk.toSalSock)
        (goes : middle.sk.inetDaddr = aimed host.sk.inetDaddr [target])
        (run :
          (match next with
            | none => Except.ok (err, middle)
            | some target =>
              transmitTargets env skb fuel iter' target err freed middle) =
            .ok (err', host')) :
        Sends (SentToOne host.sk.toSalSock skb host.sk.inetDaddr (target :: iter.targets)) middle
          host' := by
      cases next with
      | none =>
        cases run
        exact .refl
      | some next =>
        rw [split]
        refine (ih run).mono fun p one => .later ?_
        rw [← goes, ← same]
        exact one
    simp only at run
    split_ifs at run with failed freed
    · cases run
      exact .bump
    split at run
    · rename_i delay
      exact Sends.bump.trans (proceed rfl (by simp only [aimed, delay]; rfl) run)
    · rename_i drop
      exact Sends.bump.trans (transmitTargets_stuck (.inl drop) run)
    rename_i noDelay noDrop
    have goes : targetDaddr host.sk.inetDaddr target = aimed host.sk.inetDaddr [target] :=
      (if_neg noDelay).symm
    have aims := @Sends.addrs (SentToOne host.sk.toSalSock skb host.sk.inetDaddr
      (target :: iter.targets)) host host.sk.inetSaddr (targetDaddr host.sk.inetDaddr target) _
      (Nat.le_succ host.tick)
    obtain ⟨dev, device, run⟩ := of_bind run
    cases dev with
    | none =>
      exact aims.trans (transmitTargets_stuck (.inr ⟨noDelay, device⟩) run)
    | some dev =>
      simp only at run
      cases source : env.devAddr dev with
      | none =>
        rw [source] at run
        exact aims.trans (proceed rfl goes run)
      | some saddr =>
        rw [source] at run
        obtain ⟨⟨localErr, sent⟩, queued, run⟩ := of_bind run
        obtain ⟨-, same⟩ := queueXmit_tick queued
        have first := @queueXmit_sends _ _ _ _ _ _ host.sk.toSalSock host.sk.inetDaddr
          iter.targets (by rfl) (by rfl) queued
        have rest := proceed (by rw [same]; rfl) (by rw [same]; exact goes) run
        refine (Sends.addrs saddr (targetDaddr host.sk.inetDaddr target)
          (Nat.le_succ host.tick)).trans (first.trans rest)

/-- A packet of the transmission that starts from `host`: the service is
looked up and its targets are sampled for this transmission. -/
def TransmittedAt (env : SalEnv) (host : SalHost) (skb : CtrlSkb) (p : WirePacket) : Prop :=
  ∃ se iter, serviceFind host.table host.sk.peerSrvid.toList serviceIdMaxPrefixBits =
      .ok (some se) ∧ serviceIterInit se env.mode (env.random (host.tick + 1)) = (true, iter) ∧
    SentToOne host.sk.toSalSock skb host.sk.inetDaddr iter.targets p

theorem servalSalTransmitSkb_sendsAt {useCopy : Bool}
    (run : servalSalTransmitSkb env host skb useCopy = .ok (err, host')) :
    Sends (TransmittedAt env host skb) host host' := by
  rw [servalSalTransmitSkb] at run
  split_ifs at run with failed
  · cases run
    exact .bump
  obtain ⟨found, lookup, run⟩ := of_bind run
  cases found with
  | none =>
    cases run
    exact .bump
  | some se =>
    rcases start : serviceIterInit se env.mode (env.random host.bump.tick) with ⟨ok, iter⟩
    simp only [start] at run
    cases ok with
    | false =>
      cases run
      exact .bump
    | true =>
      obtain ⟨⟨first, iter'⟩, stepped, run⟩ := of_bind run
      have split := serviceIterNext_targets stepped
      cases first with
      | none =>
        cases run
        exact .bump
      | some target =>
        obtain ⟨⟨err', middle⟩, looped, run⟩ := of_bind run
        cases run
        have sends : Sends (TransmittedAt env host skb) host.bump middle :=
          (transmitTargets_sends looped).mono fun p sent => by
            refine ⟨se, iter, lookup, start, ?_⟩
            rw [split]
            exact sent
        exact Sends.bump.trans (sends.trans (.addrs _ _ (Nat.le_refl middle.tick)))

/-- A packet of a transmission that starts from `host` or later. -/
def Transmitted (env : SalEnv) (host : SalHost) (skb : CtrlSkb) (p : WirePacket) : Prop :=
  ∃ saddr daddr packets tick, TransmittedAt env (host.after saddr daddr packets tick) skb p

theorem Transmitted.of_after {p : WirePacket} {sent : WirePacket → Prop}
    (sends : Sends sent host host') (transmitted : Transmitted env host' skb p) :
    Transmitted env host skb p := by
  obtain ⟨_, _, packets, _, rfl, -⟩ := sends
  obtain ⟨saddr, daddr, more, tick, transmitted⟩ := transmitted
  exact ⟨saddr, daddr, packets ++ more, tick, transmitted⟩

theorem Transmitted.hdr {p : WirePacket} (sent : Transmitted env host skb p) :
    ∃ authenticator, p.hdr = some (SalHeader.ofBuild host.sk.toSalSock skb.cb authenticator) := by
  obtain ⟨_, _, _, _, _, _, -, -, _, target, -, sent⟩ := sent
  exact ⟨target.taasAuth, sent.hdr⟩

theorem servalSalTransmitSkb_sends {useCopy : Bool}
    (run : servalSalTransmitSkb env host skb useCopy = .ok (err, host')) :
    Sends (Transmitted env host skb) host host' :=
  (servalSalTransmitSkb_sendsAt run).mono fun _ sent =>
    ⟨host.sk.inetSaddr, host.sk.inetDaddr, [], host.tick, sent⟩

end Serval
