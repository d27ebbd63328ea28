import Serval.Sal.State
import Serval.Sock.Owners

/-!
# Registrations of sockets

A socket leaves the service table by its name. It takes its own target as
long as every name that was asked for was free: a call of `bind` that fails
leaves a socket that believes to be in the table.
-/

namespace Serval.Registry

open Serval.Support

private def World.regs (w : World) (p : Ptr) : Option (List Bool) := (w.socks p).registration

def serviceState (state : SalState) : Bool :=
  match state with
  | .init | .listen => true
  | _ => false

structure SockOk (sk : RegSock) : Prop where
  hashed :
    serviceState sk.skState = true → sk.hashKeyLen ≠ 0 →
      sk.registration = some sk.key ∧ servalSockFlag sk.flags .bound = true
  registered : sk.registration ≠ none → serviceState sk.skState = true ∧ sk.hashKeyLen ≠ 0
  flow : serviceState sk.skState = false → sk.hashKeyLen ≠ 0 → sk.inFlowTable = true
  closed : sk.skState = .closed → sk.hashKeyLen = 0
  waiting : sk.sockState = .unconnected → flowState sk.skState = false

/-- The table has the registered sockets. -/
structure Sound (w : World) : Prop where
  table : TableOwned w.table w.regs
  socks : ∀ p, SockOk (w.socks p)

theorem SockOk.registration_eq {sk : RegSock} (ok : SockOk sk) (unhashed : sk.hashKeyLen = 0) :
    sk.registration = none := by
  by_contra registered
  exact (ok.registered registered).2 unhashed

private theorem SockOk.of_unhashed {sk : RegSock} (unhashed : sk.hashKeyLen = 0)
    (unregistered : sk.registration = none)
    (waiting : sk.sockState = .unconnected → flowState sk.skState = false) :
    SockOk sk where
  hashed _ some := absurd unhashed some
  registered some := absurd unregistered some
  flow _ some := absurd unhashed some
  closed _ := unhashed
  waiting := waiting

section

variable {w w' : World} {p q : Ptr} {sk : RegSock}

@[simp]
theorem socks_setSock_self : (w.setSock p sk).socks p = sk := Function.update_self ..

private theorem socks_setSock_ne (other : q ≠ p) : (w.setSock p sk).socks q = w.socks q :=
  Function.update_of_ne other ..

theorem regs_setSock : (w.setSock p sk).regs = Function.update w.regs p sk.registration := by
  funext q
  by_cases same : q = p
  · rw [same, Function.update_self]
    exact congrArg RegSock.registration socks_setSock_self
  · rw [Function.update_of_ne same]
    exact congrArg RegSock.registration (socks_setSock_ne same)

private theorem socks_setSock (socks : ∀ q, SockOk (w.socks q)) (ok : SockOk sk) (q : Ptr) :
    SockOk ((w.setSock p sk).socks q) := by
  by_cases same : q = p
  · rw [same, socks_setSock_self]
    exact ok
  · rw [socks_setSock_ne same]
    exact socks q

private theorem Sound.setSock (sound : Sound w) (ok : SockOk sk)
    (same : sk.registration = (w.socks p).registration) :
    Sound (w.setSock p sk) where
  table := by
    rw [regs_setSock, same]
    show TableOwned w.table (Function.update w.regs p (w.regs p))
    rw [Function.update_eq_self]
    exact sound.table
  socks := socks_setSock sound.socks ok

def Others (w w' : World) (p : Ptr) : Prop := ∀ q, q ≠ p → w'.socks q = w.socks q

private theorem Others.trans {w'' : World} (first : Others w w' p) (second : Others w' w'' p) :
    Others w w'' p :=
  fun q other => (second q other).trans (first q other)

theorem others_setSock : Others w (w.setSock p sk) p := fun _ other => socks_setSock_ne other

structure Unhashed (sk sk' : RegSock) : Prop where
  skState : sk'.skState = sk.skState
  sockState : sk'.sockState = sk.sockState
  dead : sk'.dead = sk.dead
  bound : servalSockFlag sk'.flags .bound = servalSockFlag sk.flags .bound
  hashKeyLen : sk'.hashKeyLen = 0
  registration : sk'.registration = none

private theorem RegSock.bits_le (sk : RegSock) : sk.bits ≤ 256 := by
  rw [RegSock.bits]
  split
  · exact le_refl 256
  · exact sk.srvidPrefixBits.toNat_lt.le

private theorem Sound.unhash (sound : Sound w) (p : Ptr) :
    ∃ w', servalSockUnhash w p = .ok w' ∧ Sound w' ∧ Others w w' p ∧
      Unhashed (w.socks p) (w'.socks p) ∧ Fewer w.table w'.table := by
  have ok := sound.socks p
  rw [servalSockUnhash]
  by_cases unhashed : (w.socks p).hashKeyLen = 0
  · rw [if_pos unhashed]
    exact ⟨w, rfl, sound, fun _ _ => rfl,
      ⟨rfl, rfl, rfl, rfl, unhashed, ok.registration_eq unhashed⟩,
      Fewer.refl⟩
  rw [if_neg unhashed]
  by_cases service : (w.socks p).skState = .listen ∨ (w.socks p).skState = .init
  · rw [if_pos service]
    have known : serviceState (w.socks p).skState = true := by
      rcases service with state | state <;> rw [state] <;> rfl
    obtain ⟨stats, table, run, owned, fewer⟩ :=
      sound.table.remove (w.socks p).localSrvid (w.socks p).bits_le
        (ok.hashed known unhashed).1
    rw [run]
    refine ⟨_, rfl, ⟨?_, ?_⟩, others_setSock, ?_, fewer⟩
    · rw [regs_setSock]
      exact owned
    · exact socks_setSock sound.socks (.of_unhashed rfl rfl ok.waiting)
    · rw [socks_setSock_self]
      exact ⟨rfl, rfl, rfl, servalSockFlag_reset _, rfl, rfl⟩
  · rw [if_neg service]
    have other : serviceState (w.socks p).skState = false := by
      cases state : (w.socks p).skState with
      | init | listen => exact absurd (by simp [state]) service
      | _ => rfl
    have unregistered : (w.socks p).registration = none := by
      by_contra registered
      have known := (ok.registered registered).1
      rw [other] at known
      cases known
    rw [if_pos (ok.flow other unhashed)]
    refine ⟨_, rfl, sound.setSock ?_ rfl, others_setSock, ?_, Fewer.refl⟩
    · exact .of_unhashed rfl unregistered ok.waiting
    · rw [socks_setSock_self]
      exact ⟨rfl, rfl, rfl, servalSockFlag_reset _, rfl, unregistered⟩

private theorem Sound.close (sound : Sound w) (p : Ptr) :
    ∃ w', setClosed w p = .ok w' ∧ Sound w' ∧ Others w w' p := by
  obtain ⟨w', run, sound', others, left, -⟩ := sound.unhash p
  rw [setClosed, run]
  refine ⟨_, rfl, sound'.setSock ?_ rfl, others.trans others_setSock⟩
  exact .of_unhashed left.hashKeyLen left.registration (fun _ => rfl)

/-- What a name must meet for `serval_sock_hash`: it is free, there is memory,
and the counter of entries does not wrap. -/
structure NameFits (table : ServiceTable) (p : Ptr) (srvid : ServiceId) (bits : Nat)
    (alloc : Allocs) : Prop where
  alloc : alloc = Allocs.succeed
  vacant : Vacant table p (prefixOf srvid bits)
  room : table.tree.entries.toNat + 1 < 2 ^ 32

private theorem NameFits.fewer {table table' : ServiceTable} {srvid : ServiceId} {bits : Nat}
    {alloc : Allocs} (fits : NameFits table p srvid bits alloc)
    (fewer : Fewer table table') : NameFits table' p srvid bits alloc where
  alloc := fits.alloc
  vacant := by
    intro se' here holds
    obtain ⟨se, before, le⟩ := fewer.targets _ se' here
    obtain ⟨entry, member, blocks⟩ := ServiceEntry.holds_iff.mp holds
    exact fits.vacant se before
      (ServiceEntry.holds_iff.mpr ⟨entry, Multiset.mem_of_le le member, blocks⟩)
  room := by
    have := fewer.entries
    have := fits.room
    omega

private theorem RegSock.bits_pos (sk : RegSock) : 0 < sk.bits := by
  rw [RegSock.bits]
  split
  · decide
  · rename_i some
    refine Nat.pos_of_ne_zero fun zero => some ?_
    exact UInt8.toNat_inj.mp zero

private theorem RegSock.key_ne_nil (sk : RegSock) : sk.key ≠ [] := by
  intro empty
  have length := congrArg List.length empty
  rw [RegSock.key, prefixOf, takeBits_length] at length
  exact absurd length sk.bits_pos.ne'

/-- A socket with a new name and without a key is registered under it. -/
theorem Sound.hash {alloc : Allocs} (sound : Sound w)
    (known : serviceState (w.socks p).skState = true)
    (unhashed : (w.socks p).hashKeyLen = 0)
    (named : (w.socks p).localSrvid.sid ≠ defaultService.sid)
    (bound : servalSockFlag (w.socks p).flags .bound = true)
    (fits : NameFits w.table p (w.socks p).localSrvid (w.socks p).bits alloc) :
    ∃ w', servalSockHash w p alloc = .ok w' ∧ Sound w' ∧ Others w w' p ∧
      w'.socks p =
        { w.socks p with
          hashKeyLen := (w.socks p).bits
          flags := servalSockSetFlag (w.socks p).flags .hashed
          registration := some (w.socks p).key } := by
  have ok := sound.socks p
  have stored : storedPrefix (w.socks p).localSrvid (w.socks p).bits = (w.socks p).key := by
    rw [storedPrefix, storedBits, if_neg named]
    rfl
  obtain ⟨table, run, owned⟩ := sound.table.add (p := p)
      { w.socks p with hashKeyLen := (w.socks p).bits }
      (w.socks p).localSrvid (w.socks p).bits_le
      (by rw [stored]; exact (w.socks p).key_ne_nil)
      (ok.registration_eq unhashed) (by rw [stored]; exact fits.vacant)
      fits.room
  have opened : ¬ ((w.socks p).skState = .closed ∨ 0 < (w.socks p).hashKeyLen) := by
    rintro (closed | some)
    · rw [closed] at known
      cases known
    · exact absurd unhashed some.ne'
  have service : ¬ ((w.socks p).skState = .request ∨ (w.socks p).skState = .respond) := by
    rintro (state | state) <;> rw [state] at known <;> cases known
  rw [servalSockHash, if_neg opened, if_neg service]
  refine ⟨{ w with table }.setSock p
    { w.socks p with
      hashKeyLen := (w.socks p).bits
      flags := servalSockSetFlag (w.socks p).flags .hashed
      registration := some (w.socks p).key }, ?_, ⟨?_, ?_⟩, others_setSock,
    socks_setSock_self⟩
  · show (serviceAdd w.table (some (w.socks p).localSrvid) (w.socks p).bits
      (demuxRule { w.socks p with hashKeyLen := (w.socks p).bits } p)
      alloc).bind _ = _
    rw [fits.alloc, run, ← stored]
    rfl
  · rw [regs_setSock]
    rw [stored] at owned
    exact owned
  · refine socks_setSock sound.socks ?_
    exact {
      hashed := fun _ _ => ⟨rfl, by rw [servalSockFlag_set, bound]; rfl⟩
      registered := fun _ => ⟨known, (w.socks p).bits_pos.ne'⟩
      flow := by
        intro other
        rw [known] at other
        cases other
      closed := by
        intro closed
        rw [show (w.socks p).skState = .closed from closed] at known
        cases known
      waiting := ok.waiting }

private def RegSock.requesting (sk : RegSock) : RegSock :=
  { sk with
    skState := .request
    hashKeyLen := 4
    inFlowTable := true
    flags := servalSockSetFlag sk.flags .hashed }

theorem setSock_setSock {sk' : RegSock} : (w.setSock p sk).setSock p sk' = w.setSock p sk' := by
  simp [World.setSock]

private theorem servalSockHash_request (unhashed : sk.hashKeyLen = 0) (alloc : Allocs) :
    servalSockHash (w.setSock p { sk with skState := .request }) p alloc =
      .ok (w.setSock p sk.requesting) := by
  simp [servalSockHash, unhashed, setSock_setSock, RegSock.requesting]

private theorem setClosed_requesting : setClosed (w.setSock p sk.requesting) p = .ok (w.setSock p
        { sk with
          skState := .closed
          hashKeyLen := 0
          inFlowTable := false
          flags := servalSockResetFlag (servalSockSetFlag sk.flags .hashed)
              .hashed }) := by
  simp [setClosed, servalSockUnhash, RegSock.requesting, setSock_setSock]

def regFits (w : World) : RegEvent → Prop
  | .call p (.bind call) =>
    (w.socks p).dead = false → call.accepted = true →
      serviceState (w.socks p).skState = true ∧
        NameFits w.table p call.srvid
          (if call.prefixBits = 0 then 256 else call.prefixBits.toNat)
          call.alloc
  | .call p (.listen call) =>
    (w.socks p).dead = false →
      servalSockFlag (w.socks p).flags .bound = false →
        (w.socks p).skState ≠ .closed →
          call.random.sid ≠ defaultService.sid ∧ NameFits w.table p call.random 256 call.alloc
  | _ => True

def BindCall.key (call : BindCall) : List Bool :=
  prefixOf call.srvid
    (if call.prefixBits = 0 then 256 else call.prefixBits.toNat)

structure Named (call : BindCall) (sk sk' : RegSock) : Prop where
  skState : sk'.skState = sk.skState
  localSrvid : sk'.localSrvid = call.srvid
  srvidPrefixBits : sk'.srvidPrefixBits = call.prefixBits
  hashKeyLen : sk'.hashKeyLen = 0
  bound : servalSockFlag sk'.flags .bound = true

private theorem Named.bits_eq {call : BindCall} {sk' : RegSock} (named : Named call sk sk') :
    sk'.bits = if call.prefixBits = 0 then 256 else call.prefixBits.toNat := by
  rw [RegSock.bits, named.srvidPrefixBits]
  rfl

private theorem Sound.takeName (sound : Sound w) (known : serviceState (w.socks p).skState = true)
    (call : BindCall) :
    ∃ w', takeName w p call = .ok w' ∧ Sound w' ∧ Others w w' p ∧
      Fewer w.table w'.table ∧ Named call (w.socks p) (w'.socks p) := by
  have ok := sound.socks p
  rw [Registry.takeName]
  by_cases bound : servalSockFlag (w.socks p).flags .bound = true
  · obtain ⟨w', run, sound', others, left, fewer⟩ := sound.unhash p
    rw [if_pos bound, run]
    refine ⟨_, rfl, sound'.setSock ?_ rfl, others.trans others_setSock, fewer, ?_⟩
    · exact .of_unhashed left.hashKeyLen left.registration (sound'.socks p).waiting
    · rw [socks_setSock_self]
      exact ⟨left.skState, rfl, rfl, left.hashKeyLen, left.bound.trans bound⟩
  · have unhashed : (w.socks p).hashKeyLen = 0 := by
      by_contra some
      exact bound (ok.hashed known some).2
    have unregistered := ok.registration_eq unhashed
    have marked : Sound (w.setSock p
          { w.socks p with
            flags := servalSockSetFlag (w.socks p).flags .bound }) :=
      sound.setSock (.of_unhashed unhashed unregistered ok.waiting) rfl
    rw [if_neg bound]
    refine ⟨_, rfl, marked.setSock ?_ rfl, others_setSock.trans others_setSock, Fewer.refl, ?_⟩
    · rw [socks_setSock_self]
      exact .of_unhashed unhashed unregistered ok.waiting
    · rw [socks_setSock_self, socks_setSock_self]
      exact ⟨rfl, rfl, rfl, unhashed, by rw [servalSockFlag_set]; rfl⟩

private theorem Sound.bind {call : BindCall} (sound : Sound w) (accepted : call.accepted = true)
    (known : serviceState (w.socks p).skState = true)
    (fits :
      NameFits w.table p call.srvid
        (if call.prefixBits = 0 then 256 else call.prefixBits.toNat)
        call.alloc) :
    ∃ w', servalBind w p call = .ok (0, w') ∧ Sound w' ∧ Others w w' p ∧
      (w'.socks p).registration = some call.key := by
  obtain ⟨w₁, took, sound₁, others₁, fewer, named⟩ := sound.takeName known call
  have nonzero : call.srvid.sid ≠ defaultService.sid := by
    simp only [BindCall.accepted, Bool.and_eq_true, decide_eq_true_eq]
      at accepted
    exact accepted.2
  have fits₁ : NameFits w₁.table p (w₁.socks p).localSrvid (w₁.socks p).bits call.alloc := by
    rw [named.localSrvid, named.bits_eq]
    exact fits.fewer fewer
  obtain ⟨w₂, hashed, sound₂, others₂, after⟩ :=
    sound₁.hash (by rw [named.skState, known]) named.hashKeyLen
      (by rw [named.localSrvid]; exact nonzero) named.bound fits₁
  have flag : servalSockFlag (w₂.socks p).flags .hashed = true := by
    rw [after, servalSockFlag_set]
    rfl
  refine ⟨w₂, ?_, sound₂, others₁.trans others₂, ?_⟩
  · rw [servalBind, accepted]
    simp only [Bool.not_true, Bool.false_eq_true, if_false, took, hashed, ok_bind, flag, if_true]
  · rw [after]
    show some (prefixOf (w₁.socks p).localSrvid (w₁.socks p).bits) = _
    rw [named.localSrvid, named.bits_eq]
    rfl

private theorem idle_cases {state : SalState} (idle : flowState state = false) :
    state = .closed ∨ serviceState state = true := by
  cases state with
  | closed => exact .inl rfl
  | init | listen => exact .inr rfl
  | _ => cases idle

private theorem Sound.autobind {random : ServiceId} {alloc : Allocs} (sound : Sound w)
    (unbound : servalSockFlag (w.socks p).flags .bound = false)
    (idle : flowState (w.socks p).skState = false)
    (fits :
      (w.socks p).skState ≠ .closed →
        random.sid ≠ defaultService.sid ∧ NameFits w.table p random 256 alloc) :
    ∃ w', servalAutobind w p random alloc = .ok w' ∧ Sound w' ∧
      Others w w' p ∧ (w'.socks p).skState = (w.socks p).skState := by
  have ok := sound.socks p
  have unhashed : (w.socks p).hashKeyLen = 0 := by
    by_contra some
    rcases idle_cases idle with closed | known
    · exact some (ok.closed closed)
    · rw [(ok.hashed known some).2] at unbound
      cases unbound
  have unregistered := ok.registration_eq unhashed
  have flag : servalSockFlag (servalSockSetFlag (servalSockSetFlag (w.socks p).flags .bound)
            .autobound) .bound = true := by
    rw [servalSockFlag_set, servalSockFlag_set]
    rfl
  rw [servalAutobind]
  have named : Sound (w.setSock p
        { w.socks p with
          localSrvid := random
          flags := servalSockSetFlag (servalSockSetFlag (w.socks p).flags .bound)
              .autobound
          srvidPrefixBits := 0
          srvidFlags := 0 }) :=
    sound.setSock (.of_unhashed unhashed unregistered ok.waiting) rfl
  by_cases closed : (w.socks p).skState = .closed
  · refine ⟨_, ?_, named, others_setSock, ?_⟩
    · rw [servalSockHash, if_pos]
      left
      rw [socks_setSock_self]
      exact closed
    · rw [socks_setSock_self]
  · have known := (idle_cases idle).resolve_left closed
    obtain ⟨nonzero, fits⟩ := fits closed
    obtain ⟨w', hashed, sound', others, after⟩ := @Sound.hash _ p alloc named
        (by rw [socks_setSock_self]; exact known)
        (by rw [socks_setSock_self]; exact unhashed)
        (by rw [socks_setSock_self]; exact nonzero)
        (by rw [socks_setSock_self]; exact flag)
        (by rw [socks_setSock_self]; exact fits)
    refine ⟨w', hashed, sound', others_setSock.trans others, ?_⟩
    rw [after, socks_setSock_self]

private theorem Sound.listen {call : ListenCall} (sound : Sound w)
    (fits :
      servalSockFlag (w.socks p).flags .bound = false →
        (w.socks p).skState ≠ .closed →
          call.random.sid ≠ defaultService.sid ∧ NameFits w.table p call.random 256 call.alloc) :
    ∃ ret w', servalListen w p call = .ok (ret, w') ∧ Sound w' ∧ Others w w' p := by
  rw [servalListen]
  split
  · exact ⟨_, w, rfl, sound, fun _ _ => rfl⟩
  split
  · exact ⟨_, w, rfl, sound, fun _ _ => rfl⟩
  rename_i unconnected
  have idle : flowState (w.socks p).skState = false :=
    (sound.socks p).waiting (not_not.mp unconnected)
  -- A listener keeps the registration that it had, if it had one.
  have start : ∀ {w₁ : World}, Sound w₁ → (w₁.socks p).skState = (w.socks p).skState →
        Sound (w₁.setSock p { w₁.socks p with skState := .listen }) := by
    intro w₁ sound₁ same
    have ok := sound₁.socks p
    refine sound₁.setSock ?_ rfl
    rcases idle_cases idle with closed | known
    · have unhashed := ok.closed (same.trans closed)
      exact .of_unhashed unhashed (ok.registration_eq unhashed) fun _ => rfl
    rw [← same] at known
    exact {
      hashed := fun _ => ok.hashed known
      registered := fun some => ⟨rfl, (ok.registered some).2⟩
      flow := fun other => nomatch other
      closed := fun closed => nomatch closed
      waiting := fun _ => rfl }
  by_cases bound : servalSockFlag (w.socks p).flags .bound = true
  · rw [if_pos bound]
    exact ⟨0, _, rfl, start sound rfl, others_setSock⟩
  rw [if_neg bound]
  have unbound := Bool.eq_false_iff.mpr bound
  obtain ⟨w₁, run, sound₁, others, same⟩ := sound.autobind unbound idle (fits unbound)
  rw [run]
  exact ⟨0, _, rfl, start sound₁ same, others.trans others_setSock⟩

private theorem Sound.leave (sound : Sound w) (idle : flowState (w.socks p).skState = false) :
    ∃ w', unhashIfBound w p = .ok w' ∧ Sound w' ∧ Others w w' p ∧ (w'.socks p).hashKeyLen = 0 := by
  rw [unhashIfBound]
  by_cases bound : servalSockFlag (w.socks p).flags .bound = true
  · obtain ⟨w', run, sound', others, left, -⟩ := sound.unhash p
    rw [if_pos bound]
    exact ⟨w', run, sound', others, left.hashKeyLen⟩
  have ok := sound.socks p
  rw [if_neg bound]
  refine ⟨w, rfl, sound, fun _ _ => rfl, ?_⟩
  by_contra some
  rcases idle_cases idle with closed | known
  · exact some (ok.closed closed)
  · exact bound (ok.hashed known some).2

private theorem Sound.connect (sound : Sound w) (err : Int) (alloc : Allocs) :
    ∃ ret w', servalConnect w p err alloc = .ok (ret, w') ∧ Sound w' ∧ Others w w' p := by
  rw [servalConnect]
  split
  · exact ⟨_, w, rfl, sound, fun _ _ => rfl⟩
  · exact ⟨_, w, rfl, sound, fun _ _ => rfl⟩
  rename_i unconnected
  split
  · exact ⟨_, w, rfl, sound, fun _ _ => rfl⟩
  have idle := (sound.socks p).waiting unconnected
  obtain ⟨w₁, left, sound₁, others, unhashed⟩ := sound.leave idle
  have unregistered := (sound₁.socks p).registration_eq unhashed
  rw [left]
  simp only [ok_bind, servalSockHash_request unhashed]
  split
  · rw [setClosed_requesting]
    refine ⟨err, _, rfl, sound₁.setSock ?_ rfl, others.trans others_setSock⟩
    exact .of_unhashed rfl unregistered fun _ => rfl
  refine ⟨-EINPROGRESS, _, rfl, ?_, ?_⟩
  · rw [setSock_setSock, socks_setSock_self]
    refine sound₁.setSock ?_ rfl
    exact {
      hashed := fun known => nomatch known
      registered := fun some => absurd unregistered some
      flow := fun _ _ => rfl
      closed := fun closed => nomatch closed
      waiting := fun unconnected => nomatch unconnected }
  · exact (others.trans others_setSock).trans others_setSock

private theorem Sound.waited (sound : Sound w) : Sound (connectWaited w p) := by
  have ok := sound.socks p
  rw [connectWaited]
  split
  · exact sound
  split
  · rename_i closed
    refine sound.setSock ?_ rfl
    exact { ok with waiting := fun _ => by rw [closed]; rfl }
  · refine sound.setSock ?_ rfl
    exact { ok with waiting := fun unconnected => nomatch unconnected }

private theorem others_waited : Others w (connectWaited w p) p := by
  rw [connectWaited]
  split
  · exact fun _ _ => rfl
  split
  · exact others_setSock
  · exact others_setSock

private theorem Sound.progress {state : SalState} (sound : Sound w)
    (before : flowState (w.socks p).skState = true)
    (after : flowState state = true) :
    Sound (w.setSock p { w.socks p with skState := state }) := by
  have ok := sound.socks p
  have notService : ∀ {state}, flowState state = true → serviceState state = false := by
    intro state flow
    cases state <;> first | rfl | cases flow
  refine sound.setSock ?_ rfl
  exact {
    hashed := by
      intro known
      rw [notService after] at known
      cases known
    registered := by
      intro some
      have known := (ok.registered some).1
      rw [notService before] at known
      cases known
    flow := fun _ => ok.flow (notService before)
    closed := by
      rintro rfl
      cases after
    waiting := by
      intro unconnected
      rw [ok.waiting unconnected] at before
      cases before }

private theorem Sound.salClose (sound : Sound w) (p : Ptr) :
    ∃ w', servalSalClose w p = .ok w' ∧ Sound w' ∧ Others w w' p := by
  rw [servalSalClose]
  split
  case h_1 state | h_2 state | h_3 state =>
    exact ⟨_, rfl, sound.progress (by rw [state]; rfl) rfl, others_setSock⟩
  case h_8 => exact sound.close p
  all_goals exact ⟨w, rfl, sound, fun _ _ => rfl⟩

private theorem Sound.release (sound : Sound w) (p : Ptr) :
    ∃ w', servalRelease w p = .ok w' ∧ Sound w' ∧ Others w w' p := by
  have closes : ∃ w', closeIfOpen w p = .ok w' ∧ Sound w' ∧ Others w w' p := by
    rw [closeIfOpen]
    split
    · exact sound.close p
    split
    · exact sound.salClose p
    · exact ⟨w, rfl, sound, fun _ _ => rfl⟩
  obtain ⟨w', run, sound', others⟩ := closes
  have ok := sound'.socks p
  rw [servalRelease, run]
  refine ⟨_, rfl, sound'.setSock ?_ rfl, others.trans others_setSock⟩
  exact ⟨ok.hashed, ok.registered, ok.flow, ok.closed, ok.waiting⟩

private theorem Sound.call {call : SockCall} (sound : Sound w) (fits : regFits w (.call p call)) :
    ∃ ret w', sockCall w p call = .ok (ret, w') ∧ Sound w' ∧ Others w w' p := by
  unfold sockCall
  by_cases dead : (w.socks p).dead = true
  · rw [if_pos dead]
    exact ⟨_, w, rfl, sound, fun _ _ => rfl⟩
  rw [if_neg dead]
  have alive := Bool.eq_false_iff.mpr dead
  cases call with
  | bind call =>
    by_cases accepted : call.accepted = true
    · obtain ⟨known, name⟩ := fits alive accepted
      obtain ⟨w', run, sound', others, -⟩ := sound.bind accepted known name
      exact ⟨0, w', run, sound', others⟩
    · refine ⟨-EINVAL, w, ?_, sound, fun _ _ => rfl⟩
      simp only [servalBind, accepted, Bool.not_false, if_true]
  | listen call => exact sound.listen (fits alive)
  | connect err alloc => exact sound.connect err alloc
  | waited => exact ⟨0, _, rfl, sound.waited, others_waited⟩
  | close =>
    obtain ⟨w', run, sound', others⟩ := sound.release p
    exact ⟨0, w', by simp only [run, ok_bind], sound', others⟩

private theorem Sound.step {event : RegEvent} (sound : Sound w) (fits : regFits w event) :
    ∃ w', regStep w event = .ok w' ∧ Sound w' ∧ Others w w' event.sock := by
  cases event with
  | call p call =>
    obtain ⟨ret, w', run, sound', others⟩ := sound.call fits
    exact ⟨w', by rw [regStep, run]; rfl, sound', others⟩
  | progress p state =>
    rw [regStep]
    split
    · rename_i flow
      rw [Bool.and_eq_true] at flow
      exact ⟨_, rfl, sound.progress flow.1 flow.2, others_setSock⟩
    · exact ⟨w, rfl, sound, fun _ _ => rfl⟩
  | done p => exact sound.close p

/-- The DEMUX targets are exactly those of the registered sockets. -/
def OwnTargets (w : World) : Prop :=
  ∀ key p, Demuxes w.table key p ↔ (w.socks p).registration = some key

/-- An event leaves the targets of the other sockets, and a call of `bind`
that returns 0 has registered the socket under the name it asked for. -/
structure StepSound (w : World) (event : RegEvent) : Prop where
  others :
    ∀ w', regStep w event = .ok w' →
      ∀ q, q ≠ event.sock → ∀ key, Demuxes w.table key q → Demuxes w'.table key q
  bound :
    ∀ p call w', event = .call p (.bind call) →
      sockCall w p (.bind call) = .ok (0, w') → Demuxes w'.table call.key p

structure Fresh (w : World) : Prop where
  socks : ∀ p, ∃ protocol, w.socks p = servalSockInit protocol
  table : ∃ L m, TableRep w.table L m ∧ m.keys.card < 2 ^ 32
  nobody : ∀ key p, ¬ Demuxes w.table key p

private theorem Fresh.sound (fresh : Fresh w) : Sound w where
  table := by
    obtain ⟨L, m, rep, few⟩ := fresh.table
    have unregistered : ∀ p, w.regs p = none := by
      intro p
      obtain ⟨protocol, init⟩ := fresh.socks p
      rw [World.regs, init]
      rfl
    refine ⟨L, m, rep, few, ?_, ?_, ?_⟩
    · intro p key registered
      rw [unregistered] at registered
      cases registered
    · intro key se here _
      apply owners_eq_zero
      rintro ⟨set, setMember, t, member, demux⟩
      have sock := ((rep.shape key se here).targetOk set setMember t member
        |>.demux demux).1
      obtain ⟨p, protocol, out⟩ := sock.exists
      refine fresh.nobody key p ⟨se, by rw [rep.entryAt_eq, here], set, setMember, t, member, demux,
        ?_⟩
      rw [out]
      rfl
    · intro p registered
      rw [unregistered] at registered
      cases registered
  socks := by
    intro p
    obtain ⟨protocol, init⟩ := fresh.socks p
    rw [init]
    exact .of_unhashed rfl rfl fun _ => rfl

private theorem Sound.ownTargets (sound : Sound w) : OwnTargets w :=
  fun key p => sound.table.demuxes_iff key p

private theorem Sound.stepSound {event : RegEvent} (sound : Sound w) (fits : regFits w event) :
    StepSound w event where
  others := by
    intro w' run q other key here
    obtain ⟨w'', run', sound', others⟩ := sound.step fits
    rw [run] at run'
    cases run'
    rw [sound'.ownTargets, others q other, ← sound.ownTargets key q]
    exact here
  bound := by
    rintro p call w' rfl run
    by_cases dead : (w.socks p).dead = true
    · unfold sockCall at run
      rw [if_pos dead] at run
      cases run
    unfold sockCall at run
    rw [if_neg dead] at run
    by_cases accepted : call.accepted = true
    · obtain ⟨known, name⟩ := fits (Bool.eq_false_iff.mpr dead) accepted
      obtain ⟨w'', run', sound', -, registered⟩ := sound.bind accepted known name
      simp only [run', Except.ok.injEq, Prod.mk.injEq, true_and] at run
      rw [← run]
      exact (sound'.ownTargets call.key p).mpr registered
    · simp only [servalBind, accepted, Bool.not_false, if_true] at run
      cases run

/-- In every run whose calls only ask for names that are free, sockets
unregister themselves only. -/
theorem registry_sound {history : List RegEvent} (fresh : Fresh w)
    (fits : Admits regStep regFits w history) :
    ∃ w', runAll regStep w history = .ok w' ∧ OwnTargets w' ∧
      ∀ event, regFits w' event → StepSound w' event := by
  obtain ⟨w', run, sound⟩ := runAll_keeps (fun w event sound fits => by
        obtain ⟨w', run, sound', -⟩ := Sound.step sound fits
        exact ⟨w', run, sound'⟩)
      fresh.sound fits
  exact ⟨w', run, sound.ownTargets, fun event fits => sound.stepSound fits⟩

end

/-! ## Two sockets and two names -/

instance (table : ServiceTable) (p : Ptr) (key : List Bool) : Decidable (Vacant table p key) :=
  decidable_of_iff
    (∀ se ∈ entryAt table key, ∀ set ∈ se.targetSet, ∀ t ∈ set.list,
      ¬ (t.type = .drop ∨ t.type = .delay ∨ t.type = .demux ∧ t.out.raw ≠ some p))
    (by
      constructor
      · rintro vacant se here ⟨set, setMember, t, member, blocks⟩
        exact vacant se here set setMember t member blocks
      · intro vacant se here set setMember t member blocks
        exact vacant se here ⟨set, setMember, t, member, blocks⟩)

def newWorld : World where
  socks _ := servalSockInit 6
  table := serviceTableInit

private theorem newWorld_fresh : Fresh newWorld where
  socks _ := ⟨6, rfl⟩
  table := ⟨_, _, serviceTableInit_rep, by simp⟩
  nobody := by
    rintro key p ⟨se, here, -⟩
    cases here

def shortName (byte : UInt8) : BindCall where
  addrLen := 36
  srvid := ⟨List.replicate 32 byte, rfl⟩
  prefixBits := 2
  flags := 0
  alloc := Allocs.succeed

def bindTo (p : Ptr) (byte : UInt8) : RegEvent := .call p (.bind (shortName byte))

private theorem shortName_fits {w : World} {p : Ptr} {byte : UInt8}
    (checked :
      (serviceState (w.socks p).skState && decide (Vacant w.table p (shortName byte).key) &&
        decide (w.table.tree.entries.toNat + 1 < 2 ^ 32)) = true) :
    regFits w (bindTo p byte) := by
  simp only [Bool.and_eq_true, decide_eq_true_eq] at checked
  intro _ _
  exact ⟨checked.1.1, rfl, checked.1.2, checked.2⟩

theorem registry_sound_two : Fresh newWorld ∧
      Admits regStep regFits newWorld
        [bindTo 1 3, bindTo 2 128, .call 1 .close] ∧
      ∃ w', runAll regStep newWorld
          [bindTo 1 3, bindTo 2 128, .call 1 .close] = .ok w' ∧
        OwnTargets w' ∧ ∀ event, regFits w' event → StepSound w' event := by
  have first : regFits newWorld (bindTo 1 3) := shortName_fits (by decide +kernel)
  have second : leaves (regStep newWorld (bindTo 1 3)) (fun w => serviceState (w.socks 2).skState &&
          decide (Vacant w.table 2 (shortName 128).key) &&
          decide (w.table.tree.entries.toNat + 1 < 2 ^ 32)) = true := by
    decide +kernel
  have admitted : Admits regStep regFits newWorld [bindTo 1 3, bindTo 2 128, .call 1 .close] := by
    refine ⟨first, fun w run => ⟨?_, fun _ _ => ⟨trivial, fun _ _ => trivial⟩⟩⟩
    rw [run] at second
    exact shortName_fits second
  exact ⟨newWorld_fresh, admitted, registry_sound newWorld_fresh admitted⟩

/-- A socket that could not get a name takes the target of the socket that
has it, and one that had a name before is told that it got the new one. -/
theorem failed_bind_unregisters_other : Fresh newWorld ∧
      (∃ w', runAll regStep newWorld [bindTo 1 3, bindTo 2 3, .call 2 .close] = .ok w' ∧
        (w'.socks 1).registration = some (shortName 3).key ∧
        entryAt w'.table (shortName 3).key = none ∧ ¬ OwnTargets w') ∧
      ∃ w w', runAll regStep newWorld [bindTo 1 3, bindTo 2 128] = .ok w ∧
        sockCall w 2 (.bind (shortName 3)) = .ok (0, w') ∧ (w'.socks 2).registration = none := by
  refine ⟨newWorld_fresh, ?_, ?_⟩
  · obtain ⟨w', run, passed⟩ := @exists_of_leaves _
        (runAll regStep newWorld [bindTo 1 3, bindTo 2 3, .call 2 .close])
        (fun w => (w.socks 1).registration = some (shortName 3).key &&
          (entryAt w.table (shortName 3).key).isNone) (by decide +kernel)
    simp only [Bool.and_eq_true, decide_eq_true_eq, Option.isNone_iff_eq_none]
      at passed
    obtain ⟨registered, gone⟩ := passed
    refine ⟨w', run, registered, gone, ?_⟩
    intro own
    obtain ⟨se, here, -⟩ := (own _ 1).mpr registered
    rw [gone] at here
    cases here
  · obtain ⟨w, run, passed⟩ := @exists_of_leaves _
        (runAll regStep newWorld [bindTo 1 3, bindTo 2 128])
        (fun w => leaves (sockCall w 2 (.bind (shortName 3))) fun result => result.1 = 0 &&
            (result.2.socks 2).registration.isNone) (by decide +kernel)
    obtain ⟨⟨ret, w'⟩, called, passed⟩ := exists_of_leaves passed
    simp only [Bool.and_eq_true, decide_eq_true_eq, Option.isNone_iff_eq_none]
      at passed
    obtain ⟨rfl, unregistered⟩ := passed
    exact ⟨w, w', run, called, unregistered⟩

end Serval.Registry
