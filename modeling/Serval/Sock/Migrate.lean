import Serval.Sal.State

/-!
# Requests for a migration

The three ways to move a connection to another device, from `serval_sock.c`:
for a flow, for a service, and for all connections of an interface. The last
one walks over the table of established sockets, and takes the device that it
has found for one socket along to the next.
-/

namespace Serval

open Serval.Support

/-- `serval_sock_set_mig_dev` and `serval_sal_migrate`, in which all requests
end. No device has an index below one. -/
def migrateSock (env : SalEnv) (host : SalHost) (dev : Int) : Except Fault (Int × SalHost) :=
  servalSalMigrate env
    (host.withSk { host.sk with migDevIf := dev.toNat })

def migrateFound (env : SalEnv) (host : SalHost) (dev : Int) :
    Option ServalSock → Except Fault (Option ServalSock × SalHost)
  | none => .ok (none, host)
  | some sk => do
    let (_, host) ← migrateSock env (host.withSk sk) dev
    .ok (some host.sk, host)

def servalSockMigrateFlow (env : SalEnv) (lookupFlow : Vector UInt8 4 → Option ServalSock)
    (host : SalHost) (oldFlow : Vector UInt8 4) (newDev : Int) :
    Except Fault (Option ServalSock × SalHost) :=
  migrateFound env host newDev (lookupFlow oldFlow)

def servalSockMigrateService
    (env : SalEnv) (lookupService : Vector UInt8 32 → Nat → Option ServalSock)
    (host : SalHost) (oldS : Vector UInt8 32) (newDev : Int) :
    Except Fault (Option ServalSock × SalHost) :=
  migrateFound env host newDev (lookupService oldS 6)

/-! ## All sockets of an interface -/

/-- What the loop asks from the rest of the system: whether the device of an
index is up, if there is one, and `rt_iif` of the route to an address. No
address has a route in user space. -/
structure Interfaces where
  up : Nat → Option Bool
  route : NetAddr → Option Int

/-- `should_migrate` for one socket, and `new_dev` after its turn. -/
def shouldMigrate (net : Interfaces) (oldDev newDev : Int) (sk : ServalSock) : Bool × Int :=
  if 0 < oldDev ∧ 0 < newDev then
    if oldDev = newDev then (true, newDev)
    else (decide ((sk.boundDevIf : Int) = oldDev), newDev)
  else if oldDev ≤ 0 then
    (net.up sk.boundDevIf == some false, newDev)
  else if newDev ≤ 0 ∧ oldDev = sk.boundDevIf then
    match net.route sk.inetDaddr with
    | some dev => (true, dev)
    | none => (false, newDev)
  else
    (false, newDev)

/-- `serval_sock_migrate_iface` over the sockets of the established table, slot
by slot. -/
def servalSockMigrateIface (env : SalEnv) (net : Interfaces) (oldDev : Int) :
    Int → List ServalSock → SalHost → Except Fault (List ServalSock × SalHost)
  | _, [], host => .ok ([], host)
  | newDev, sk :: sks, host => do
    let (migrate, newDev) := shouldMigrate net oldDev newDev sk
    let (_, host) ←
      if migrate then migrateSock env (host.withSk sk) newDev
      else .ok (0, host.withSk sk)
    let (rest, last) ← servalSockMigrateIface env net oldDev newDev sks host
    .ok (host.sk :: rest, last)

def migrations (net : Interfaces) (oldDev : Int) : Int → List ServalSock → List (Option Int)
  | _, [] => []
  | newDev, sk :: sks =>
    let (migrate, newDev) := shouldMigrate net oldDev newDev sk
    (if migrate then some newDev else none) :: migrations net oldDev newDev sks

def migrateEach (env : SalEnv) : List (ServalSock × Option Int) → SalHost →
      Except Fault (List ServalSock × SalHost)
  | [], host => .ok ([], host)
  | (sk, dev) :: rest, host => do
    let (_, host) ←
      match dev with
      | some dev => migrateSock env (host.withSk sk) dev
      | none => .ok (0, host.withSk sk)
    let (others, last) ← migrateEach env rest host
    .ok (host.sk :: others, last)

theorem servalSockMigrateIface_eq (env : SalEnv) (net : Interfaces) (oldDev newDev : Int)
    (sks : List ServalSock) (host : SalHost) :
    servalSockMigrateIface env net oldDev newDev sks host =
      migrateEach env (sks.zip (migrations net oldDev newDev sks)) host := by
  induction sks generalizing newDev host with
  | nil => rfl
  | cons sk sks ih =>
    rcases turn : shouldMigrate net oldDev newDev sk with ⟨migrate, dev⟩
    simp only [servalSockMigrateIface, migrations, turn, List.zip_cons_cons, migrateEach, ih]
    cases migrate with
    | true | false => rfl

def migrationAlone (net : Interfaces) (oldDev newDev : Int) (sk : ServalSock) : Option Int :=
  let (migrate, dev) := shouldMigrate net oldDev newDev sk
  if migrate then some dev else none

/-- A socket that another one has taken along to its device goes where it
goes alone. -/
def GoesAlong (net : Interfaces) (oldDev dev : Int) (sk : ServalSock) :
    Prop :=
  (oldDev = sk.boundDevIf → net.route sk.inetDaddr = some dev) ∧
    (dev = oldDev → oldDev = sk.boundDevIf)

/-- When an interface goes down, the first of two sockets may set the device
for the second one. -/
def Agree (net : Interfaces) (oldDev : Int) (first second : ServalSock) :
    Prop :=
  ∀ dev, oldDev = first.boundDevIf → net.route first.inetDaddr = some dev →
    0 < dev → GoesAlong net oldDev dev second

section

variable {net : Interfaces} {oldDev newDev : Int}

private theorem shouldMigrate_kept (kept : ¬ (0 < oldDev ∧ newDev ≤ 0)) (sk : ServalSock) :
    (shouldMigrate net oldDev newDev sk).2 = newDev := by
  rw [shouldMigrate]
  split_ifs with both same none down
  · rfl
  · rfl
  · rfl
  · exact absurd ⟨Int.not_le.mp none, down.1⟩ kept
  · rfl

/-- Without an interface that goes down, `new_dev` never changes. -/
theorem migrations_kept (kept : ¬ (0 < oldDev ∧ newDev ≤ 0)) (sks : List ServalSock) :
    migrations net oldDev newDev sks = sks.map (migrationAlone net oldDev newDev) := by
  induction sks with
  | nil => rfl
  | cons sk sks ih =>
    simp only [migrations, List.map_cons, migrationAlone, shouldMigrate_kept kept]
    rw [ih]

variable (down : 0 < oldDev)

include down

private theorem shouldMigrate_down (unset : newDev ≤ 0) (sk : ServalSock) :
    shouldMigrate net oldDev newDev sk =
      if oldDev = sk.boundDevIf then
        match net.route sk.inetDaddr with
        | some dev => (true, dev)
        | none => (false, newDev)
      else (false, newDev) := by
  have notBoth : ¬ (0 < oldDev ∧ 0 < newDev) := fun both => Int.not_le.mpr both.2 unset
  simp only [shouldMigrate, if_neg notBoth, if_neg (Int.not_le.mpr down), unset, true_and]

/-- When an interface goes down, a socket that is alone is migrated if it is
bound to the interface and has a route, to the device of the route. -/
theorem migrationAlone_down (unset : newDev ≤ 0) (sk : ServalSock) :
    migrationAlone net oldDev newDev sk =
      if oldDev = sk.boundDevIf then net.route sk.inetDaddr else none := by
  rw [migrationAlone, shouldMigrate_down down unset]
  split_ifs with bound
  · cases net.route sk.inetDaddr with
    | none | some dev => rfl
  · rfl

private theorem migrationAlone_set (set : 0 < newDev) (sk : ServalSock) :
    migrationAlone net oldDev newDev sk =
      if newDev = oldDev ∨ oldDev = sk.boundDevIf then some newDev
      else none := by
  rw [migrationAlone, shouldMigrate, if_pos ⟨down, set⟩]
  by_cases same : oldDev = newDev
  · rw [if_pos same, if_pos (.inl same.symm)]
    rfl
  rw [if_neg same]
  by_cases bound : oldDev = sk.boundDevIf
  · simp [← bound]
  · have neither : ¬ (newDev = oldDev ∨ oldDev = sk.boundDevIf) := not_or.mpr ⟨Ne.symm same, bound⟩
    rw [if_neg neither]
    simp [Ne.symm bound]

omit down in
private theorem Agree.of_goesAlong {dev : Int} {first second : ServalSock}
    (one : GoesAlong net oldDev dev first)
    (other : GoesAlong net oldDev dev second) :
    Agree net oldDev first second := by
  intro dev' bound route _
  have same : some dev' = some dev := route.symm.trans (one.1 bound)
  rw [Option.some.inj same]
  exact other

theorem migrationAlone_set_iff {dev : Int} (unset : newDev ≤ 0) (set : 0 < dev) (sk : ServalSock) :
    migrationAlone net oldDev dev sk = migrationAlone net oldDev newDev sk ↔
      GoesAlong net oldDev dev sk := by
  rw [migrationAlone_set down set, migrationAlone_down down unset, GoesAlong]
  by_cases bound : oldDev = sk.boundDevIf
  · simp [bound, eq_comm]
  · simp [bound]

private theorem migrations_set_iff {dev : Int} (unset : newDev ≤ 0) (set : 0 < dev)
    (sks : List ServalSock) :
    migrations net oldDev dev sks = sks.map (migrationAlone net oldDev newDev) ↔
      ∀ sk ∈ sks, GoesAlong net oldDev dev sk := by
  rw [migrations_kept (fun later => Int.not_le.mpr set later.2)]
  rw [List.map_inj_left]
  exact forall₂_congr fun sk _ => migrationAlone_set_iff down unset set sk

private theorem migrationAlone_unset {dev : Int} (unset : newDev ≤ 0) (unset' : dev ≤ 0) :
    migrationAlone net oldDev dev = migrationAlone net oldDev newDev := by
  funext sk
  rw [migrationAlone_down down unset, migrationAlone_down down unset']

private theorem migrations_down_iff (unset : newDev ≤ 0) (sks : List ServalSock) :
    migrations net oldDev newDev sks = sks.map (migrationAlone net oldDev newDev) ↔
      sks.Pairwise (Agree net oldDev) := by
  induction sks generalizing newDev with
  | nil => simp [migrations]
  | cons sk sks ih =>
    rw [List.pairwise_cons]
    -- The device behind the turn of `sk` decides about the rest.
    have turn : migrations net oldDev newDev (sk :: sks) = migrationAlone net oldDev newDev sk ::
            migrations net oldDev (shouldMigrate net oldDev newDev sk).2
              sks :=
      rfl
    rw [turn, List.map_cons, List.cons_inj_right]
    by_cases steers : ∃ dev, oldDev = sk.boundDevIf ∧ net.route sk.inetDaddr = some dev ∧ 0 < dev
    · obtain ⟨dev, bound, route, set⟩ := steers
      have next : (shouldMigrate net oldDev newDev sk).2 = dev := by
        rw [shouldMigrate_down down unset, if_pos bound, route]
      rw [next, migrations_set_iff down unset set]
      constructor
      · intro along
        refine ⟨?_, List.pairwise_of_forall_mem_list ?_⟩
        · intro other inside dev' _ route' _
          have same : some dev' = some dev := route'.symm.trans route
          rw [Option.some.inj same]
          exact along other inside
        · intro one inside other inside'
          exact .of_goesAlong (along one inside) (along other inside')
      · intro agree other inside
        exact agree.1 other inside dev bound route set
    · have next : (shouldMigrate net oldDev newDev sk).2 ≤ 0 := by
        rw [shouldMigrate_down down unset]
        split_ifs with bound
        · cases route : net.route sk.inetDaddr with
          | none => exact unset
          | some dev =>
            exact Int.not_lt.mp fun set =>
              steers ⟨dev, bound, route, set⟩
        · exact unset
      have free : ∀ other ∈ sks, Agree net oldDev sk other := fun _ _ dev bound route set =>
          absurd ⟨dev, bound, route, set⟩ steers
      rw [← migrationAlone_unset down unset next, ih next]
      exact (and_iff_right free).symm

end

/-- What is done with a socket does not depend on the others. When an
interface goes down, only its own sockets are migrated, each to the device of
its route. -/
structure DecidedPerFlow (net : Interfaces) (oldDev newDev : Int) (sks : List ServalSock) :
    Prop where
  alone : migrations net oldDev newDev sks = sks.map (migrationAlone net oldDev newDev)
  down : 0 < oldDev → newDev ≤ 0 →
    ∀ sk dev, (sk, some dev) ∈ sks.zip (migrations net oldDev newDev sks) →
      oldDev = sk.boundDevIf ∧ net.route sk.inetDaddr = some dev

/-- The loop decides for each socket by itself exactly if no interface goes
down, or if each socket goes along with any of those before it that sets the
device. -/
theorem migrations_decided_per_flow_iff
    (net : Interfaces) (oldDev newDev : Int) (sks : List ServalSock) :
    DecidedPerFlow net oldDev newDev sks ↔
      (0 < oldDev → newDev ≤ 0 → sks.Pairwise (Agree net oldDev)) := by
  constructor
  · intro decided down unset
    exact (migrations_down_iff down unset sks).mp decided.alone
  · intro agree
    have alone : migrations net oldDev newDev sks = sks.map (migrationAlone net oldDev newDev) := by
      by_cases down : 0 < oldDev ∧ newDev ≤ 0
      · exact (migrations_down_iff down.1 down.2 sks).mpr (agree down.1 down.2)
      · exact migrations_kept down sks
    refine ⟨alone, ?_⟩
    intro down unset sk dev inside
    rw [alone, ← List.map_prod_left_eq_zip, List.mem_map] at inside
    obtain ⟨other, -, equal⟩ := inside
    obtain ⟨rfl, decision⟩ := Prod.mk.inj equal
    rw [migrationAlone_down down unset] at decision
    split_ifs at decision with bound
    exact ⟨bound, decision⟩

/-- Two sockets of an interface that goes down, with routes over different
devices: the second one is sent to the device of the first. -/
def twoRoutes : Interfaces where
  up _ := some true
  route daddr := some daddr.toList.getLast!.toNat

def routedSock (last : UInt8) : ServalSock :=
  { plainSock with inetDaddr := ⟨#[10, 0, 0, last], rfl⟩ }

theorem migrations_twoRoutes : migrations twoRoutes 1 0 [routedSock 2, routedSock 3] =
        [some 2, some 2] ∧ ¬ DecidedPerFlow twoRoutes 1 0 [routedSock 2, routedSock 3] := by
  have decisions : migrations twoRoutes 1 0 [routedSock 2, routedSock 3] = [some 2, some 2] := by
    decide +kernel
  refine ⟨decisions, ?_⟩
  intro decided
  have alone := decided.alone
  exact absurd alone (by decide +kernel)

/-! ## Requests that are refused -/

def refusesMigration (state : SalState) : Bool :=
  state = .request || state = .listen || state = .closed

/-- The number of the request is taken before the state is looked at. -/
theorem migrateSock_refused (env : SalEnv) (host : SalHost) (dev : Int)
    (refuses : refusesMigration host.sk.skState = true) :
    migrateSock env host dev = .ok (0, host.withSk
        { host.sk with
          migDevIf := dev.toNat
          sndNxt := host.sk.sndNxt + 1 }) := by
  have state : host.sk.skState = .request ∨ host.sk.skState = .listen ∨
        host.sk.skState = .closed := by
    simpa [refusesMigration, or_assoc] using refuses
  exact if_pos state

private theorem ne_succ (number : UInt32) : number + 1 ≠ number :=
  succ_ne_of_not_before (before_self number)

/-- A request takes only the acknowledgement with the next number. -/
theorem matchRequest_verno {sk : ServalSock} {hdr : SalHeader} {rsk : RequestSock}
    (found : matchRequest sk hdr = some rsk) :
    hdr.verno = rsk.rcvSeq + 1 := by
  rw [matchRequest] at found
  simp at found
  exact found.2.1.2

/-- The packets that end the handshake have the number `snd_seq.nxt`. -/
theorem sendConnAck_verno {env : SalEnv} {host host' : SalHost}
    (run : sendConnAck env host = .ok host') :
    ∃ packets, host'.out = host.out ++ packets ∧
      ∀ p ∈ packets, ∃ hdr, p.hdr = some hdr ∧ hdr.verno = host.sk.sndNxt := by
  obtain ⟨_, _, packets, _, rfl, each, -⟩ := sendConnAck_sends run
  refine ⟨packets, rfl, ?_⟩
  intro p inside
  obtain ⟨data, sent⟩ := each p inside
  obtain ⟨authenticator, carries⟩ := sent.hdr
  have control : isControl (UInt8.ofNat (svhAck + svhConnAck)) = true := by decide
  refine ⟨_, carries, ?_⟩
  rw [SalHeader.verno, SalHeader.ofBuild_ctrlExt (by exact control)]
  rfl

/-- Both searches end in the same request, if they find the socket. -/
theorem migrateFound_of_migrateSock {env : SalEnv} {host host' : SalHost} {dev : Int}
    (run : migrateSock env host dev = .ok (0, host')) :
    (∀ lookup flow, lookup flow = some host.sk →
        servalSockMigrateFlow env lookup host flow dev = .ok (some host'.sk, host')) ∧
      ∀ lookup srvid, lookup srvid 6 = some host.sk →
        servalSockMigrateService env lookup host srvid dev = .ok (some host'.sk, host') := by
  have found : migrateFound env host dev (some host.sk) = .ok (some host'.sk, host') := by
    show (migrateSock env host dev >>= _) = _
    rw [run, ok_bind]
  constructor <;> intro lookup key hit
  · rw [servalSockMigrateFlow, hit, found]
  · rw [servalSockMigrateService, hit, found]

/-- A refused request uses up a number, whether the socket was named by its
flow or by its service. If the socket is connecting, the acknowledgement that
ends its handshake has then a number that the request at the listener does not
take. -/
theorem refused_migration_takes_verno (env : SalEnv) (host : SalHost) (dev : Int)
    (refuses : refusesMigration host.sk.skState = true) :
    ∃ host', migrateSock env host dev = .ok (0, host') ∧
      (∀ lookup flow, lookup flow = some host.sk →
        servalSockMigrateFlow env lookup host flow dev = .ok (some host'.sk, host')) ∧
      (∀ lookup srvid, lookup srvid 6 = some host.sk →
        servalSockMigrateService env lookup host srvid dev = .ok (some host'.sk, host')) ∧
      ¬ SameSending host.sk host'.sk ∧ ∀ later last, later.sk.sndNxt = host'.sk.sndNxt → sendConnAck env later = .ok last →
        ∃ packets, last.out = later.out ++ packets ∧
          ∀ p ∈ packets, ∃ hdr, p.hdr = some hdr ∧
            ∀ listener rsk, rsk.rcvSeq + 1 = host.sk.sndNxt →
              matchRequest listener hdr ≠ some rsk := by
  have run := migrateSock_refused env host dev refuses
  obtain ⟨byFlow, byService⟩ := migrateFound_of_migrateSock run
  refine ⟨_, run, byFlow, byService, ?_, ?_⟩
  · intro same
    exact ne_succ host.sk.sndNxt same.sndNxt
  · intro later last number run
    obtain ⟨packets, out, each⟩ := sendConnAck_verno run
    refine ⟨packets, out, ?_⟩
    intro p inside
    obtain ⟨hdr, parsed, verno⟩ := each p inside
    refine ⟨hdr, parsed, ?_⟩
    intro listener rsk expected found
    have taken : host.sk.sndNxt + 1 = host.sk.sndNxt := by
      calc
        host.sk.sndNxt + 1 = later.sk.sndNxt := number.symm
        _ = hdr.verno := verno.symm
        _ = rsk.rcvSeq + 1 := matchRequest_verno found
        _ = host.sk.sndNxt := expected
    exact ne_succ host.sk.sndNxt taken

def connectingHost : SalHost :=
  plainHost
    { plainSock with
      skState := .request
      sndUna := 9
      ctrlSent := [ctrlSkb svhSyn 9 []] }
    (rootTable .forward (.dev 1 "eth0") [10, 0, 0, 2])

theorem refused_migration_takes_verno_connecting :
    refusesMigration connectingHost.sk.skState = true ∧
      ∃ host', servalSockMigrateFlow plainEnv (fun _ => some connectingHost.sk) connectingHost
          (Vector.replicate 4 2) 2 = .ok (some host'.sk, host') ∧
        ¬ SameSending connectingHost.sk host'.sk := by
  have refuses : refusesMigration connectingHost.sk.skState = true := by decide
  obtain ⟨host', -, byFlow, -, moved, -⟩ :=
    refused_migration_takes_verno plainEnv connectingHost 2 refuses
  exact ⟨refuses, host', byFlow _ _ rfl, moved⟩

def responseSkb : RcvSkb :=
  plainSkb
    { plainControl 100 10 (Vector.replicate 8 6) with syn := true, ack := true }

private def requestedListener : ServalSock :=
  { plainSock with
    skState := .listen
    synQueue :=
      [{ plainRsk with
          localFlowid := Vector.replicate 4 2
          peerNonce := Vector.replicate 8 5
          rcvSeq := 9 }] }

/-- Whether the listener finds its request for the packets of a host. -/
def answersMatch (host : SalHost) : Bool :=
  host.out.any fun p =>
    match p.hdr with
    | some hdr => (matchRequest requestedListener hdr).isSome
    | none => false

/-- The request is matched without the migration, and is not with it. -/
theorem connecting_migration_loses_request :
    (∃ host, servalSalStateProcess plainEnv connectingHost responseSkb =
        .ok host ∧ answersMatch host = true) ∧
      ∃ moved, migrateSock plainEnv connectingHost 2 = .ok moved ∧
        moved.1 = 0 ∧ ¬ SameSending connectingHost.sk moved.2.sk ∧
        ∃ host, servalSalStateProcess plainEnv moved.2 responseSkb =
          .ok host ∧ (host.out.length = 1 ∧ answersMatch host = false) := by
  refine ⟨@exists_of_leaves _ _ _ (by decide +kernel), ?_⟩
  refine ⟨_, migrateSock_refused plainEnv connectingHost 2 (by decide), rfl, ?_, ?_⟩
  · intro same
    exact ne_succ _ same.sndNxt
  · obtain ⟨host, run, test⟩ := @exists_of_leaves _ (servalSalStateProcess plainEnv
        (connectingHost.withSk
          { connectingHost.sk with
            migDevIf := Int.toNat 2
            sndNxt := connectingHost.sk.sndNxt + 1 }) responseSkb)
      (fun host => host.out.length = 1 && !answersMatch host)
      (by decide +kernel)
    exact ⟨host, run, by simpa using test⟩

end Serval
