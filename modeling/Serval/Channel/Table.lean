import Mathlib.Data.Nat.ModEq
import Mathlib.Logic.Function.Basic
import Serval.Support.Bytes
import Serval.Support.Run

/-!
# The table of message channels

`libservalctrl` keeps the channels it has started in a hash table. The hash is
computed over the whole key; what `equalfn` compares is less. An address is
given by the memory behind it and a length. A channel whose reference count is
zero has been freed, and using it is a fault; so is freeing a channel that the
table still holds.
-/

namespace Serval.Channel

open Serval.Support

abbrev Memory := Nat → UInt8

structure ChannelKey where
  type : UInt8
  flags : UInt8
  sockType : UInt32
  protocol : UInt32
  localAddr : Option Memory
  localLen : Nat
  peer : Option Memory
  peerLen : Nat

/-- Whose operations a channel has: those of `message_channel_base`, those of a
shared UDP base, or those of a UDP channel, which refers to its base. -/
inductive ChannelOps where
  | base
  | udpBase
  | udp (base : Ptr)
  deriving DecidableEq, Repr

/-- `struct hashelm`; `hashed` says that its node is in a list. -/
structure HashElm where
  hash : UInt32
  hashed : Bool
  refcount : Nat
  deriving DecidableEq, Repr

/-- The local address, socket type and protocol of a UDP channel are those of
its base. -/
structure MessageChannel where
  ops : ChannelOps
  type : UInt8
  flags : UInt8
  sockType : UInt32
  protocol : UInt32
  localAddr : Memory
  localLen : Nat
  peer : Memory
  peerLen : Nat
  he : HashElm

structure ChannelTable where
  channel : Ptr → MessageChannel
  slots : Nat → List Ptr

def bytesOf (memory : Memory) (len : Nat) : List UInt8 := (List.range len).map memory

def partialNameHash (c : UInt8) (prevhash : UInt64) : UInt64 :=
  (prevhash + (c.toUInt64 <<< 4) + (c.toUInt64 >>> 4)) * 11

/-- The bytes of a key, in the order in which they are hashed. -/
def ChannelKey.bytes (key : ChannelKey) : List UInt8 :=
  let address (memory : Option Memory) (len : Nat) := memory.elim [] (bytesOf · len)
  [key.type] ++ [key.flags] ++ leBytes 4 key.sockType.toNat ++ leBytes 4 key.protocol.toNat ++
    address key.localAddr key.localLen ++ address key.peer key.peerLen

def messageChannelInternalHashfn (key : ChannelKey) : UInt32 :=
  (key.bytes.foldl (fun hash c => partialNameHash c hash) 0).toUInt32

/-- `hash & mask` in `get_slot`. -/
def getSlot (hash : UInt32) : Nat := (hash &&& 31).toNat

/-- The bytes as the digits of a number in base 11. A byte stands for sixteen
times itself and its upper half. -/
def weigh (bytes : List UInt8) : Nat :=
  bytes.foldl (fun sum c => (sum + 16 * c.toNat + c.toNat / 16) * 11) 0

private theorem partialNameHash_mod {c : UInt8} {hash : UInt64} {sum : Nat}
    (same : hash.toNat % 32 = sum % 32) :
    (partialNameHash c hash).toNat % 32 = (sum + 16 * c.toNat + c.toNat / 16) * 11 % 32 := by
  have small := c.toNat_lt
  have left : (c.toUInt64 <<< 4).toNat = 16 * c.toNat := by
    rw [UInt64.toNat_shiftLeft, UInt8.toNat_toUInt64]
    show c.toNat <<< 4 % 2 ^ 64 = _
    rw [Nat.shiftLeft_eq]
    omega
  have right : (c.toUInt64 >>> 4).toNat = c.toNat / 16 := by
    rw [UInt64.toNat_shiftRight, UInt8.toNat_toUInt64]
    exact Nat.shiftRight_eq_div_pow _ 4
  rw [partialNameHash, UInt64.toNat_mul, UInt64.toNat_add, UInt64.toNat_add, left, right]
  show (_ % 2 ^ 64 * 11) % 2 ^ 64 % 32 = _
  omega

/-- The slot of a key depends on its bytes only through this number. -/
theorem getSlot_hashfn (key : ChannelKey) :
    getSlot (messageChannelInternalHashfn key) = weigh key.bytes % 32 := by
  have folded (bytes : List UInt8) (hash : UInt64) (sum : Nat)
      (same : hash.toNat % 32 = sum % 32) :
      (bytes.foldl (fun hash c => partialNameHash c hash) hash).toNat % 32 =
        bytes.foldl (fun sum c => (sum + 16 * c.toNat + c.toNat / 16) * 11) sum % 32 := by
    induction bytes generalizing hash sum with
    | nil => exact same
    | cons c rest ih => exact ih _ _ (partialNameHash_mod same)
  rw [getSlot, messageChannelInternalHashfn, UInt32.toNat_and, UInt64.toNat_toUInt32]
  show _ % 2 ^ 32 &&& (2 ^ 5 - 1) = _
  rw [Nat.and_two_pow_sub_one_eq_mod, Nat.mod_mod_of_dvd _ (by decide)]
  exact folded key.bytes 0 0 rfl

namespace ChannelTable

section

variable (table : ChannelTable) (c : Ptr)

/-- The base of a UDP channel, and any other channel itself. -/
def base : MessageChannel :=
  match (table.channel c).ops with
  | .udp b => table.channel b
  | _ => table.channel c

def fillkey : ChannelKey :=
  let channel := table.channel c
  let base := table.base c
  ⟨channel.type, channel.flags, base.sockType, base.protocol, some base.localAddr, base.localLen,
    some channel.peer, channel.peerLen⟩

/-- An address that is not given, on either side, is equal to any other. -/
def equalAddr (given : Option Memory) (givenLen : Nat) (memory : Memory) (len : Nat) : Bool :=
  match given with
  | some bytes => !(decide (0 < givenLen) && decide (0 < len)) || bytesOf bytes len == bytesOf memory len
  | none => true

def equalfn (key : ChannelKey) (c : Ptr) : Bool :=
  let channel := table.channel c
  let base := table.base c
  key.type == channel.type && (match channel.ops with
    | .base => key.protocol == channel.protocol
    | .udpBase => key.protocol == channel.protocol && key.flags == channel.flags
    | .udp _ => true) &&
    equalAddr key.peer key.peerLen channel.peer channel.peerLen &&
    equalAddr key.localAddr key.localLen base.localAddr base.localLen

def update (change : MessageChannel → MessageChannel) : ChannelTable :=
  { table with channel := Function.update table.channel c (change (table.channel c)) }

def setHe (he : HashElm) : ChannelTable := table.update c fun channel => { channel with he := he }

/-- The element of a channel and the list of a slot change together. -/
def relink (he : HashElm) (slot : Nat) (members : List Ptr) : ChannelTable :=
  ⟨(table.setHe c he).channel, Function.update table.slots slot members⟩

/-- `hashtable_lookup`, which takes a reference to what it finds. -/
def lookup (key : ChannelKey) : Option (Ptr × ChannelTable) :=
  match (table.slots (getSlot (messageChannelInternalHashfn key))).find? (table.equalfn key) with
  | some c =>
    let he := (table.channel c).he
    some (c, table.setHe c { he with refcount := he.refcount + 1 })
  | none => none

/-- `hashelm_hash`. -/
def hash : Except Fault (Int × ChannelTable) :=
  let he := (table.channel c).he
  if he.refcount = 0 then .error .freed
  else if he.hashed then .ok (-1, table)
  else
    let hash := messageChannelInternalHashfn (table.fillkey c)
    let slot := getSlot hash
    .ok (0, table.relink c ⟨hash, true, he.refcount + 1⟩ slot (c :: table.slots slot))

/-- `hashelm_put` for the base of a UDP channel that is freed. -/
def putBase : Except Fault ChannelTable :=
  let he := (table.channel c).he
  if he.refcount = 0 ∨ (he.refcount = 1 ∧ he.hashed = true) then .error .freed
  else .ok (table.setHe c { he with refcount := he.refcount - 1 })

/-- `hashelm_unhash`. With the last reference to it a UDP channel gives up that
to its base. -/
def unhash : Except Fault ChannelTable :=
  let he := (table.channel c).he
  let slot := getSlot he.hash
  if he.refcount = 0 then .error .freed
  else
    let table' := table.relink c { he with hashed := false, refcount := he.refcount - 1 } slot
      ((table.slots slot).erase c)
    match (table.channel c).ops, he.refcount with
    | .udp b, 1 => table'.putBase b
    | _, _ => .ok table'

/-- `message_channel_start` behind the start of the channel itself, which
returned `ret`. -/
def hashStarted (ret : Int) : Except Fault ChannelTable :=
  if (table.channel c).he.refcount = 0 then .error .freed
  else if ret = 0 ∧ (table.channel c).he.hashed = false then do
    let (_, table) ← table.hash c
    return table
  else return table

/-- `message_channel_start`, where a UDP channel starts its base. What creating
the thread of the base returns is an input. -/
def messageChannelStart (ret : Int) : Except Fault ChannelTable :=
  match (table.channel c).ops with
  | .udp b => do
    let table ← table.hashStarted b ret
    table.hashStarted c ret
  | _ => table.hashStarted c ret

/-- `message_channel_stop`, where a UDP channel stops its base. -/
def messageChannelStop : Except Fault ChannelTable :=
  match (table.channel c).ops with
  | .udp b => do
    let table ← table.unhash b
    table.unhash c
  | _ => table.unhash c

/-! ## Changing the peer -/

/-- The size of `channel_addr_t`. -/
def channelAddrSize : Nat := 112

variable (addr : Memory) (len : Nat)

def copyPeer : ChannelTable :=
  table.update c fun channel =>
    { channel with peer := fun i => if i < len then addr i else channel.peer i }

def messageChannelBaseSetPeer : Except Fault (Int × ChannelTable) :=
  if channelAddrSize < len then .ok (-1, table)
  else if 0 < len then do
    let table ← (table.copyPeer c addr len).unhash c
    let (_, table) ← table.hash c
    return (0, table)
  else return (0, table)

/-- `message_channel_udp_set_peer`: the old length says how much is copied. -/
def messageChannelUdpSetPeer : ChannelTable :=
  (table.copyPeer c addr (table.channel c).peerLen).update c fun channel =>
    { channel with peerLen := len }

def setPeer : Except Fault (Int × ChannelTable) :=
  match (table.channel c).ops with
  | .udp _ => .ok (0, messageChannelUdpSetPeer table c addr len)
  | _ => messageChannelBaseSetPeer table c addr len

def getPeer : List UInt8 := bytesOf (table.channel c).peer (table.channel c).peerLen

end

/-! ## Runs -/

end ChannelTable

inductive ChannelOp where
  | start (c : Ptr) (ret : Int)
  | stop (c : Ptr)
  | setPeer (c : Ptr) (addr : Memory) (len : Nat)

open ChannelTable

def channelStep (table : ChannelTable) : ChannelOp → Except Fault ChannelTable
  | .start c ret => table.messageChannelStart c ret
  | .stop c => table.messageChannelStop c
  | .setPeer c addr len => do
    let (_, table) ← table.setPeer c addr len
    return table

namespace ChannelTable

/-- Channels of which none is started. -/
structure Fresh (table : ChannelTable) : Prop where
  empty : ∀ slot, table.slots slot = []
  idle : ∀ c, (table.channel c).he.hashed = false

/-- A channel is in the slot of its hash while it is hashed, once, and in no
other. The channels in `current` are hashed under the key that they have. -/
structure Placed (current : Ptr → Prop) (table : ChannelTable) : Prop where
  mem : ∀ slot c, c ∈ table.slots slot ↔
    (table.channel c).he.hashed = true ∧ getSlot (table.channel c).he.hash = slot
  once : ∀ slot, (table.slots slot).Nodup
  hash : ∀ c, current c → (table.channel c).he.hashed = true →
    (table.channel c).he.hash = messageChannelInternalHashfn (table.fillkey c)

variable {current : Ptr → Prop} {table table' : ChannelTable} {c : Ptr}

private theorem Placed.mono {before : Ptr → Prop} (placed : table.Placed before)
    (fewer : ∀ c, current c → before c) : table.Placed current :=
  ⟨placed.mem, placed.once, fun c kept => placed.hash c (fewer c kept)⟩

private theorem Fresh.placed (fresh : table.Fresh) : table.Placed current where
  mem slot c := by simp [fresh.empty, fresh.idle]
  once slot := by simp [fresh.empty]
  hash c _ hashed := by simp [fresh.idle] at hashed

private theorem channel_setHe (table : ChannelTable) (c other : Ptr) (he : HashElm) :
    (table.setHe c he).channel other =
      { table.channel other with he := if other = c then he else (table.channel other).he } := by
  by_cases same : other = c
  · subst same
    simp [setHe, update]
  · simp [setHe, update, same]

@[simp]
theorem he_relink (table : ChannelTable) (c : Ptr) (he : HashElm) (slot : Nat)
    (members : List Ptr) : ((table.relink c he slot members).channel c).he = he := by
  simp [relink, setHe, update]

@[simp]
theorem fillkey_setHe (table : ChannelTable) (c : Ptr) (he : HashElm) :
    (table.setHe c he).fillkey = table.fillkey := by
  funext other
  cases ops : (table.channel other).ops <;> simp [fillkey, base, channel_setHe, ops]

/-- The element of one channel changes, and the list of a slot with it. -/
private theorem Placed.relink {before : Ptr → Prop} (placed : table.Placed before)
    (rest : ∀ other ≠ c, current other → before other) {he : HashElm} {slot : Nat}
    {members : List Ptr} (others : ∀ other ≠ c, other ∈ members ↔ other ∈ table.slots slot)
    (inside : c ∈ members ↔ he.hashed = true ∧ getSlot he.hash = slot)
    (outside : ∀ apart ≠ slot, c ∉ table.slots apart ∧ (he.hashed = true → getSlot he.hash ≠ apart))
    (once : members.Nodup)
    (hash : current c → he.hashed = true →
      he.hash = messageChannelInternalHashfn (table.fillkey c)) :
    (table.relink c he slot members).Placed current where
  mem s other := by
    show other ∈ Function.update table.slots slot members s ↔
      ((table.setHe c he).channel other).he.hashed = true ∧
        getSlot ((table.setHe c he).channel other).he.hash = s
    rw [channel_setHe]
    by_cases here : s = slot
    · subst here
      rw [Function.update_self]
      by_cases same : other = c
      · subst same
        simpa using inside
      · rw [others other same, placed.mem s other]
        simp [same]
    · rw [Function.update_of_ne here]
      by_cases same : other = c
      · subst same
        simpa [(outside s here).1] using (outside s here).2
      · rw [placed.mem s other]
        simp [same]
  once s := by
    show (Function.update table.slots slot members s).Nodup
    by_cases here : s = slot
    · subst here
      rwa [Function.update_self]
    · rw [Function.update_of_ne here]
      exact placed.once s
  hash other kept hashed := by
    replace hashed : ((table.setHe c he).channel other).he.hashed = true := hashed
    show ((table.setHe c he).channel other).he.hash =
      messageChannelInternalHashfn ((table.setHe c he).fillkey other)
    rw [fillkey_setHe]
    rw [channel_setHe] at hashed ⊢
    by_cases same : other = c
    · subst same
      simp only [if_true] at hashed ⊢
      exact hash kept hashed
    · simp only [if_neg same] at hashed ⊢
      exact placed.hash other (rest other same kept) hashed

/-- The channels of the second table are those of the first, apart from their
elements. -/
def SameChannels (table table' : ChannelTable) : Prop :=
  ∀ c, table.channel c = { table'.channel c with he := (table.channel c).he }

private theorem SameChannels.setHe (table : ChannelTable) (c : Ptr) (he : HashElm) :
    table.SameChannels (table.setHe c he) := by
  intro other
  rw [channel_setHe]

private theorem SameChannels.ops (same : table.SameChannels table') (c : Ptr) :
    (table'.channel c).ops = (table.channel c).ops := by
  rw [same c]

theorem SameChannels.getPeer (same : table.SameChannels table') (c : Ptr) :
    table'.getPeer c = table.getPeer c := by
  rw [ChannelTable.getPeer, ChannelTable.getPeer, same c]

/-- A channel that is hashed anew is hashed under the key that it has. -/
theorem hash_placed {before : Ptr → Prop} {ret : Int} (placed : table.Placed before)
    (rest : ∀ other ≠ c, current other → before other)
    (idle : (table.channel c).he.hashed = false) (run : table.hash c = .ok (ret, table')) :
    table'.Placed current ∧ table.SameChannels table' := by
  simp only [ChannelTable.hash, idle, Bool.false_eq_true, if_false] at run
  split_ifs at run
  cases run
  have absent (slot : Nat) : c ∉ table.slots slot := by
    rw [placed.mem, idle]
    exact fun inside => by cases inside.1
  refine ⟨placed.relink rest ?_ ?_ ?_ ?_ fun _ _ => rfl, .setHe table c _⟩
  · intro other apart
    simp [apart]
  · simp
  · exact fun slot apart => ⟨absent slot, fun _ => apart.symm⟩
  · exact List.nodup_cons.mpr ⟨absent _, placed.once _⟩

private theorem putBase_placed (placed : table.Placed current) (run : table.putBase c = .ok table') :
    table'.Placed current ∧ table.SameChannels table' ∧
      ∀ other, (table'.channel other).he.hashed = (table.channel other).he.hashed := by
  rw [putBase] at run
  split_ifs at run
  cases run
  refine ⟨⟨fun slot other => ?_, placed.once, fun other kept hashed => ?_⟩, .setHe table c _,
    fun other => ?_⟩
  · show other ∈ table.slots slot ↔ _
    rw [placed.mem slot other, channel_setHe]
    split_ifs with same
    · rw [same]
    · rfl
  · rw [fillkey_setHe]
    rw [channel_setHe] at hashed ⊢
    split_ifs at hashed ⊢ with same
    · subst same
      exact placed.hash other kept hashed
    · exact placed.hash other kept hashed
  · rw [channel_setHe]
    split_ifs with same
    · rw [same]
    · rfl

theorem unhash_placed (placed : table.Placed current) (run : table.unhash c = .ok table') :
    table'.Placed current ∧ table.SameChannels table' ∧ (table'.channel c).he.hashed = false := by
  rw [unhash] at run
  split_ifs at run with freed
  extract_lets middle at run
  have kept : middle.Placed current := by
    refine placed.relink (fun _ _ kept => kept) ?_ ?_ ?_ ((placed.once _).erase c)
      fun _ hashed => by cases hashed
    · exact fun other apart => List.mem_erase_of_ne apart
    · simp [(placed.once _).mem_erase_iff]
    · refine fun slot apart => ⟨fun inside => ?_, fun hashed => by cases hashed⟩
      exact apart ((placed.mem slot c).mp inside).2.symm
  have alike : table.SameChannels middle := .setHe table c _
  have idle : (middle.channel c).he.hashed = false := by
    simp only [middle, he_relink]
  split at run
  · obtain ⟨placed', alike', hashed⟩ := putBase_placed kept run
    exact ⟨placed', fun other => by rw [alike other, alike' other], (hashed c).trans idle⟩
  · exact Except.ok.inj run ▸ ⟨kept, alike, idle⟩

private theorem hashStarted_placed {ret : Int} (placed : table.Placed current)
    (run : table.hashStarted c ret = .ok table') :
    table'.Placed current ∧ table.SameChannels table' := by
  rw [hashStarted] at run
  split_ifs at run with freed idle
  · obtain ⟨⟨_, last⟩, hashed, ends⟩ := of_bind run
    cases ends
    exact hash_placed placed (fun _ _ kept => kept) idle.2 hashed
  · cases run
    exact ⟨placed, fun _ => rfl⟩

/-- One channel gets another peer. -/
structure Repeered (c : Ptr) (table table' : ChannelTable) : Prop where
  slots : table'.slots = table.slots
  other : ∀ other ≠ c, table'.channel other = table.channel other
  self : table'.channel c =
    { table.channel c with
      peer := (table'.channel c).peer
      peerLen := (table'.channel c).peerLen }

namespace Repeered

theorem copyPeer (table : ChannelTable) (c : Ptr) (addr : Memory) (len : Nat) :
    Repeered c table (table.copyPeer c addr len) where
  slots := rfl
  other _ apart := Function.update_of_ne apart _ _
  self := by simp [ChannelTable.copyPeer, update]

theorem udpSetPeer (table : ChannelTable) (c : Ptr) (addr : Memory) (len : Nat) :
    Repeered c table (table.messageChannelUdpSetPeer c addr len) where
  slots := rfl
  other _ apart := by simp [messageChannelUdpSetPeer, ChannelTable.copyPeer, update, apart]
  self := by simp [messageChannelUdpSetPeer, ChannelTable.copyPeer, update]

variable (again : Repeered c table table')

include again

theorem channel (other : Ptr) : table'.channel other =
    { table.channel other with
      peer := (table'.channel other).peer
      peerLen := (table'.channel other).peerLen } := by
  by_cases same : other = c
  · rw [same]
    exact again.self
  · rw [again.other other same]

theorem he (other : Ptr) : (table'.channel other).he = (table.channel other).he := by
  rw [again.channel other]

theorem ops (other : Ptr) : (table'.channel other).ops = (table.channel other).ops := by
  rw [again.channel other]

theorem base (other : Ptr) : table'.base other =
    { table.base other with
      peer := (table'.base other).peer
      peerLen := (table'.base other).peerLen } := by
  rw [ChannelTable.base, ChannelTable.base, again.ops other]
  split <;> exact again.channel _

/-- Only the key of the channel itself changes. -/
theorem fillkey (other : Ptr) : table'.fillkey other =
    { table.fillkey other with
      peer := some (table'.channel other).peer
      peerLen := (table'.channel other).peerLen } := by
  rw [ChannelTable.fillkey, ChannelTable.fillkey, again.base other, again.channel other]

theorem equalfn {other : Ptr} (apart : other ≠ c) (key : ChannelKey) :
    table'.equalfn key other = table.equalfn key other := by
  rw [ChannelTable.equalfn, ChannelTable.equalfn, again.base other, again.other other apart]

theorem placed (placed : table.Placed current) :
    table'.Placed fun other => current other ∧ other ≠ c where
  mem slot other := by
    rw [again.slots, again.he other]
    exact placed.mem slot other
  once slot := again.slots ▸ placed.once slot
  hash other kept hashed := by
    rw [again.he other] at hashed ⊢
    rw [placed.hash other kept.1 hashed, again.fillkey other, again.other other kept.2]
    rfl

end Repeered

private theorem setPeer_placed {ret : Int} {addr : Memory} {len : Nat}
    (placed : table.Placed current)
    (quiet : current c → ∀ b, (table.channel c).ops ≠ .udp b)
    (run : table.setPeer c addr len = .ok (ret, table')) :
    table'.Placed current ∧ ∀ other, (table'.channel other).ops = (table.channel other).ops := by
  rw [setPeer] at run
  split at run
  · rename_i b udp
    cases run
    have again := Repeered.udpSetPeer table c addr len
    refine ⟨(again.placed placed).mono fun other kept => ⟨kept, ?_⟩, again.ops⟩
    rintro rfl
    exact quiet kept b udp
  · rw [messageChannelBaseSetPeer] at run
    split_ifs at run with large positive
    · cases run
      exact ⟨placed, fun _ => rfl⟩
    · obtain ⟨middle, first, run⟩ := of_bind run
      obtain ⟨⟨_, last⟩, second, ends⟩ := of_bind run
      cases ends
      have again := Repeered.copyPeer table c addr len
      obtain ⟨placed, same, idle⟩ := unhash_placed (again.placed placed) first
      obtain ⟨placed, same'⟩ :=
        hash_placed placed (fun _ apart kept => ⟨kept, apart⟩) idle second
      refine ⟨placed, fun other => ?_⟩
      rw [same'.ops, same.ops, again.ops]
    · cases run
      exact ⟨placed, fun _ => rfl⟩

/-- What a step keeps: `current` holds no UDP channel whose peer is set. -/
theorem channelStep_placed {op : ChannelOp} (placed : table.Placed current)
    (quiet : ∀ c addr len, op = .setPeer c addr len → current c →
      ∀ b, (table.channel c).ops ≠ .udp b)
    (run : channelStep table op = .ok table') :
    table'.Placed current ∧ ∀ c, (table'.channel c).ops = (table.channel c).ops := by
  cases op with
  | start c ret =>
    rw [channelStep, messageChannelStart] at run
    split at run
    · obtain ⟨middle, first, second⟩ := of_bind run
      obtain ⟨placed, same⟩ := hashStarted_placed placed first
      obtain ⟨placed', same'⟩ := hashStarted_placed placed second
      exact ⟨placed', fun c => (same'.ops c).trans (same.ops c)⟩
    · obtain ⟨placed, same⟩ := hashStarted_placed placed run
      exact ⟨placed, same.ops⟩
  | stop c =>
    rw [channelStep, messageChannelStop] at run
    split at run
    · obtain ⟨middle, first, second⟩ := of_bind run
      obtain ⟨placed, same, -⟩ := unhash_placed placed first
      obtain ⟨placed', same', -⟩ := unhash_placed placed second
      exact ⟨placed', fun c => (same'.ops c).trans (same.ops c)⟩
    · obtain ⟨placed, same, -⟩ := unhash_placed placed run
      exact ⟨placed, same.ops⟩
  | setPeer c addr len =>
    obtain ⟨⟨ret, last⟩, set, ends⟩ := of_bind run
    cases ends
    exact setPeer_placed placed (quiet c addr len rfl) set

private theorem runAll_placed {ops : List ChannelOp} (placed : table.Placed current)
    (quiet : ∀ c addr len, .setPeer c addr len ∈ ops → current c →
      ∀ b, (table.channel c).ops ≠ .udp b)
    (run : runAll channelStep table ops = .ok table') :
    table'.Placed current ∧ ∀ c, (table'.channel c).ops = (table.channel c).ops := by
  induction ops generalizing table with
  | nil =>
    cases run
    exact ⟨placed, fun _ => rfl⟩
  | cons op rest ih =>
    obtain ⟨middle, step, run⟩ := of_bind run
    obtain ⟨placed, same⟩ := channelStep_placed placed
      (fun c addr len here => quiet c addr len (here ▸ List.mem_cons_self)) step
    obtain ⟨placed, same'⟩ := ih placed (fun c addr len later => by
      rw [same c]
      exact quiet c addr len (List.mem_cons_of_mem _ later)) run
    exact ⟨placed, fun c => (same' c).trans (same c)⟩

/-- Whatever is started and stopped and whatever peers are set, the table holds
the hashed channels in their slots. A channel is hashed under its key unless it
is a UDP channel that got another peer. -/
theorem channelRun_placed {ops : List ChannelOp} (fresh : table.Fresh)
    (run : runAll channelStep table ops = .ok table') :
    table'.Placed fun c => (∀ addr len, .setPeer c addr len ∉ ops) ∨
      ∀ b, (table'.channel c).ops ≠ .udp b := by
  have same : ∀ c, (table'.channel c).ops = (table.channel c).ops :=
    (@runAll_placed (fun _ => False) _ _ _ fresh.placed (fun _ _ _ _ none => none.elim) run).2
  refine (runAll_placed fresh.placed (fun c addr len inside current => ?_) run).1
  rcases current with unset | plain
  · exact absurd inside (unset addr len)
  · exact same c ▸ plain

end ChannelTable

end Serval.Channel
