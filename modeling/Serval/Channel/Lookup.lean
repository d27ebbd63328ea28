import Mathlib.Data.List.TakeWhile
import Serval.Channel.Table

/-!
# Looking a channel up

`message_channel_lookup` finds a channel that accepts the key only in the slot
of the key. The slot depends on all bytes of the key, so the channels that
accept a key are spread over the table. A UDP channel is not moved when its peer
is set; then neither its own key nor a message from the new peer leads to it.
-/

namespace Serval.Channel.ChannelTable

open Serval.Support

variable {current : Ptr → Prop} {table start : ChannelTable} {key : ChannelKey} {c : Ptr}
    {ops : List ChannelOp}

/-- Plain channels, and a UDP channel on a base of its own. -/
def sampleChannels : ChannelTable where
  channel
    | 1 => ⟨.base, 1, 0, 2, 0, fun _ => 1, 2, fun _ => 0, 0, ⟨0, false, 1⟩⟩
    | 2 => ⟨.udp 3, 2, 0, 2, 0, fun _ => 0, 0, fun _ => 2, 2, ⟨0, false, 1⟩⟩
    | 3 => ⟨.udpBase, 2, 1, 2, 0, fun _ => 5, 2, fun _ => 0, 0, ⟨0, false, 2⟩⟩
    | _ => ⟨.base, 1, 0, 2, 0, fun _ => 9, 2, fun _ => 0, 0, ⟨0, false, 1⟩⟩
  slots _ := []

private theorem sampleChannels_fresh : sampleChannels.Fresh := by
  refine ⟨fun _ => rfl, fun c => ?_⟩
  simp only [sampleChannels]
  split <;> rfl

def sampleOps : List ChannelOp := [.start 1 0, .start 2 0, .start 4 0, .stop 4, .start 5 0]

def msgChannelUdp : UInt8 := 2

def sockDgram : UInt32 := 2

section

variable (table : ChannelTable) (c b : Ptr) (addr sender : Memory) (len : Nat) (key : ChannelKey)

/-- The key under which the base of UDP channels looks for the channel of a
sender; the length of the base's own address is used for that of the sender. -/
def senderKey : ChannelKey :=
  let base := table.channel b
  ⟨msgChannelUdp, 0, sockDgram, 0, some base.localAddr, base.localLen, some sender, base.localLen⟩

/-- `message_channel_udp_base_recv_callback`: the channel that a message of the
sender is handed to. -/
def messageChannelUdpBaseRecvCallback : Option Ptr :=
  (table.lookup (table.senderKey b sender)).map Prod.fst

def Finds : Prop := ∃ table', table.lookup key = some (c, table')

/-- After `set_peer` has returned zero, `get_peer` gives the address, and a
started channel is found with its own key. A UDP channel then gets the messages
of that peer. -/
def TakesPeer : Prop :=
  ∃ ret table', table.setPeer c addr len = .ok (ret, table') ∧
    (ret = 0 → table'.getPeer c = bytesOf addr len ∧
      ((table.channel c).he.hashed = true → table'.Finds c (table'.fillkey c) ∧
        ∀ b sender, (table.channel c).ops = .udp b → (∀ i < len, sender i = addr i) →
          table'.messageChannelUdpBaseRecvCallback b sender = some c))

/-- The channels in front of this one in its slot. -/
def ahead : List Ptr :=
  (table.slots (getSlot (table.channel c).he.hash)).takeWhile fun other => decide (other ≠ c)

/-- The key leads to the slot of the channel, and to no channel in front of
it. -/
def LeadsTo : Prop :=
  weigh key.bytes % 32 = getSlot (table.channel c).he.hash ∧
    ∀ other ∈ table.ahead c, table.equalfn key other = false

/-- The own key of a UDP channel with the new peer. Its buffer has as many bytes
of the address as the old peer had. -/
def peerKey : ChannelKey :=
  let channel := table.channel c
  { table.fillkey c with
    peer := some fun i => if i < channel.peerLen then addr i else channel.peer i
    peerLen := len }

/-- When `set_peer` takes effect. A base keeps the old length, and is freed if
there is no other reference to it. A UDP channel stays in its slot, so the new
keys must lead there too; and the bytes that are not copied must be there. -/
def SetsPeer : Prop :=
  let channel := table.channel c
  match channel.ops with
  | .udp b =>
    (∀ i, i < len → channel.peerLen ≤ i → channel.peer i = addr i) ∧
      (channel.he.hashed = true →
        table.LeadsTo c (table.peerKey c addr len) ∧ channel.type = msgChannelUdp ∧
        ∀ sender : Memory, (∀ i < len, sender i = addr i) → table.LeadsTo c (table.senderKey b sender))
  | _ => channelAddrSize < len ∨
      len = 0 ∧ channel.peerLen = 0 ∧ (channel.he.hashed = true →
        ∀ other ∈ table.ahead c, table.equalfn (table.fillkey c) other = false) ∨
      0 < len ∧ channel.peerLen = len ∧ 1 < channel.he.refcount

end

private theorem equalAddr_self (memory : Memory) (len : Nat) :
    equalAddr (some memory) len memory len = true := by
  simp [equalAddr]

private theorem equalfn_self (table : ChannelTable) (c : Ptr) :
    table.equalfn (table.fillkey c) c = true := by
  cases ops : (table.channel c).ops <;> simp [equalfn, fillkey, base, ops, equalAddr_self]

private theorem takeWhile_ne_append {before rest : List Ptr} (absent : c ∉ before) :
    (before ++ c :: rest).takeWhile (fun other => decide (other ≠ c)) = before := by
  induction before with
  | nil => simp
  | cons other before ih =>
    obtain ⟨apart, absent⟩ := not_or.mp (mt List.mem_cons.mpr absent)
    rw [List.cons_append, List.takeWhile_cons_of_pos (by simpa using Ne.symm apart), ih absent]

/-- A lookup ends at a channel just when the channel is hashed and accepts the
key, and the key leads to it. -/
theorem finds_iff (placed : table.Placed current) : table.Finds c key ↔
    (table.channel c).he.hashed = true ∧ table.equalfn key c = true ∧ table.LeadsTo c key := by
  have found : table.Finds c key ↔
      (table.slots (weigh key.bytes % 32)).find? (table.equalfn key) = some c := by
    rw [Finds, lookup, getSlot_hashfn]
    cases (table.slots (weigh key.bytes % 32)).find? (table.equalfn key) with
    | none => simp
    | some other => simp
  rw [found, List.find?_eq_some_iff_append]
  constructor
  · rintro ⟨accepts, before, rest, split, others⟩
    obtain ⟨hashed, slot⟩ := (placed.mem (weigh key.bytes % 32) c).mp (by simp [split])
    have absent : c ∉ before := fun inside => by simpa [accepts] using others c inside
    refine ⟨hashed, accepts, slot.symm, fun other inside => ?_⟩
    rw [ahead, slot, split, takeWhile_ne_append absent] at inside
    simpa using others other inside
  · rintro ⟨hashed, accepts, slot, others⟩
    have inside := (placed.mem (weigh key.bytes % 32) c).mpr ⟨hashed, slot.symm⟩
    obtain ⟨before, rest, split, absent⟩ := List.eq_append_cons_of_mem inside
    rw [ahead, ← slot, split, takeWhile_ne_append absent] at others
    exact ⟨accepts, before, rest, split, fun other member => by simpa using others other member⟩

private theorem bytesOf_eq_iff {first second : Memory} {n m : Nat} :
    bytesOf first n = bytesOf second m ↔ n = m ∧ ∀ i, i < m → first i = second i := by
  constructor
  · intro same
    have length := congrArg List.length same
    simp only [bytesOf, List.length_map, List.length_range] at length
    subst length
    exact ⟨rfl, fun i less => List.map_inj_left.mp same i (List.mem_range.mpr less)⟩
  · rintro ⟨rfl, same⟩
    exact List.map_inj_left.mpr fun i inside => same i (List.mem_range.mp inside)

/-- A channel that was just hashed is the first of its slot. -/
private theorem ahead_hash {ret : Int} {table' : ChannelTable}
    (idle : (table.channel c).he.hashed = false) (run : table.hash c = .ok (ret, table')) :
    (table'.channel c).he.hashed = true ∧ table'.ahead c = [] := by
  simp only [hash, idle, Bool.false_eq_true, if_false] at run
  split_ifs at run
  cases run
  rw [ahead, he_relink]
  refine ⟨rfl, ?_⟩
  simp only [relink, Function.update_self]
  exact List.takeWhile_cons_of_neg (by simp)

variable {addr : Memory} {len : Nat}

private theorem unhash_returns (counted : (table.channel c).he.refcount ≠ 0)
    (plain : ∀ b, (table.channel c).ops ≠ .udp b) :
    ∃ middle, table.unhash c = .ok middle ∧ (middle.channel c).he = { (table.channel c).he with
      hashed := false, refcount := (table.channel c).he.refcount - 1 } := by
  rw [unhash, if_neg counted]
  split
  · rename_i udp _
    exact absurd udp (plain _)
  · exact ⟨_, rfl, he_relink ..⟩

private theorem hash_returns (counted : (table.channel c).he.refcount ≠ 0)
    (idle : (table.channel c).he.hashed = false) : ∃ last, table.hash c = .ok (0, last) := by
  rw [hash, if_neg counted, if_neg (by rw [idle]; decide)]
  exact ⟨_, rfl⟩

/-- A base is hashed again if there is another reference to it. -/
private theorem rehash_returns (plain : ∀ b, (table.channel c).ops ≠ .udp b) :
    1 < (table.channel c).he.refcount ∧ (∃ middle last, table.unhash c = .ok middle ∧
        middle.hash c = .ok (0, last) ∧ (middle.channel c).he.hashed = false) ∨
      (table.channel c).he.refcount ≤ 1 ∧
        ∀ middle, table.unhash c = .ok middle → middle.hash c = .error .freed := by
  by_cases zero : (table.channel c).he.refcount = 0
  · refine .inr ⟨by omega, fun middle run => ?_⟩
    rw [unhash, if_pos zero] at run
    cases run
  obtain ⟨middle, run, he⟩ := unhash_returns zero plain
  by_cases last : (table.channel c).he.refcount ≤ 1
  · refine .inr ⟨last, fun other same => ?_⟩
    obtain rfl := Except.ok.inj (run.symm.trans same)
    rw [hash, he, if_pos (by simp only; omega)]
  · obtain ⟨last, hashed⟩ := @hash_returns middle c (by rw [he]; simp only; omega) (by rw [he])
    exact .inl ⟨by omega, middle, last, run, hashed, by rw [he]⟩

private theorem returned_iff {call : Except Fault (Int × ChannelTable)} {P : ChannelTable → Prop}
    (run : call = .ok (0, table)) :
    (∃ ret table', call = .ok (ret, table') ∧ (ret = 0 → P table')) ↔ P table := by
  constructor
  · rintro ⟨_, _, ends, works⟩
    obtain ⟨rfl, rfl⟩ := Prod.mk.inj (Except.ok.inj (run.symm.trans ends))
    exact works rfl
  · exact fun works => ⟨0, table, run, fun _ => works⟩

section Base

variable (plain : ∀ b, (table.channel c).ops ≠ .udp b)

include plain

private theorem setPeer_base :
    table.setPeer c addr len = messageChannelBaseSetPeer table c addr len := by
  rw [setPeer]
  split
  · rename_i b udp
    exact absurd udp (plain b)
  · rfl

/-- No messages come to a base. -/
private theorem takesPeer_plain {table' : ChannelTable}
    (run : table.setPeer c addr len = .ok (0, table')) :
    table.TakesPeer c addr len ↔ table'.getPeer c = bytesOf addr len ∧
      ((table.channel c).he.hashed = true → table'.Finds c (table'.fillkey c)) := by
  refine (returned_iff run).trans ?_
  refine and_congr_right fun _ => imp_congr_right fun _ => ?_
  exact and_iff_left fun b _ udp _ => absurd udp (plain b)

/-- An empty address is not copied. -/
private theorem takesPeer_base_empty (placed : table.Placed current) (kept : current c) :
    table.TakesPeer c addr 0 ↔ (table.channel c).peerLen = 0 ∧
      ((table.channel c).he.hashed = true →
        ∀ other ∈ table.ahead c, table.equalfn (table.fillkey c) other = false) := by
  have run : table.setPeer c addr 0 = .ok (0, table) := by
    rw [setPeer_base plain, messageChannelBaseSetPeer, if_neg (by decide), if_neg (by decide),
      pure_eq_ok]
  have peer : table.getPeer c = bytesOf addr 0 ↔ (table.channel c).peerLen = 0 :=
    bytesOf_eq_iff.trans (and_iff_left fun i less => absurd less i.not_lt_zero)
  rw [takesPeer_plain plain run, peer]
  refine and_congr_right fun _ => forall_congr' fun hashed => ?_
  rw [finds_iff placed, LeadsTo, ← getSlot_hashfn, ← placed.hash c kept hashed]
  simp [hashed, equalfn_self]

/-- Otherwise the base is hashed again, and only its element changes. -/
private theorem takesPeer_base_filled (placed : table.Placed current) (kept : current c)
    (positive : 0 < len) (fits : ¬channelAddrSize < len) : table.TakesPeer c addr len ↔
      (table.channel c).peerLen = len ∧ 1 < (table.channel c).he.refcount := by
  have again := Repeered.copyPeer table c addr len
  have count : ((table.copyPeer c addr len).channel c).he = (table.channel c).he := again.he c
  have run : table.setPeer c addr len =
      ((table.copyPeer c addr len).unhash c >>= fun table => table.hash c >>= fun hashed =>
        pure (0, hashed.2)) := by
    rw [setPeer_base plain, messageChannelBaseSetPeer, if_neg fits, if_pos positive]
  rcases @rehash_returns (table.copyPeer c addr len) c (by rw [again.ops]; exact plain) with
    ⟨counted, middle, last, first, second, idle⟩ | ⟨least, freed⟩
  · rw [first, ok_bind, second, ok_bind, pure_eq_ok] at run
    obtain ⟨placed₁, same, -⟩ := unhash_placed (again.placed placed) first
    obtain ⟨placed₂, same'⟩ : last.Placed current ∧ _ :=
      hash_placed placed₁ (fun _ apart kept => ⟨kept, apart⟩) idle second
    obtain ⟨hashed, front⟩ := ahead_hash idle second
    have peer : last.getPeer c = bytesOf addr len ↔ (table.channel c).peerLen = len := by
      rw [same'.getPeer, same.getPeer]
      simp only [getPeer, copyPeer, update, Function.update_self, bytesOf_eq_iff]
      exact and_iff_left fun i less => if_pos less
    have finds : last.Finds c (last.fillkey c) := by
      refine (finds_iff placed₂).mpr ⟨hashed, equalfn_self last c, ?_, by simp [front]⟩
      rw [← getSlot_hashfn, ← placed₂.hash c kept hashed]
    rw [takesPeer_plain plain run, peer]
    exact and_congr_right fun _ => iff_of_true (fun _ => finds) (count ▸ counted)
  · refine iff_of_false ?_ (by rw [count] at least; omega)
    rintro ⟨_, _, ends, -⟩
    rw [run] at ends
    obtain ⟨middle, first, ends⟩ := of_bind ends
    rw [freed middle first, error_bind] at ends
    cases ends

private theorem takesPeer_base_iff (placed : table.Placed current) (kept : current c) :
    table.TakesPeer c addr len ↔ channelAddrSize < len ∨
      len = 0 ∧ (table.channel c).peerLen = 0 ∧ ((table.channel c).he.hashed = true →
        ∀ other ∈ table.ahead c, table.equalfn (table.fillkey c) other = false) ∨
      0 < len ∧ (table.channel c).peerLen = len ∧ 1 < (table.channel c).he.refcount := by
  by_cases large : channelAddrSize < len
  · refine iff_of_true ⟨-1, table, ?_, fun zero => by cases zero⟩ (.inl large)
    rw [setPeer_base plain, messageChannelBaseSetPeer, if_pos large]
  rcases Nat.eq_zero_or_pos len with rfl | positive
  · rw [takesPeer_base_empty plain placed kept]
    simp [channelAddrSize]
  · rw [takesPeer_base_filled plain placed kept positive large]
    simp [large, positive, positive.ne']

end Base

/-- A channel is found with a key after its peer was set just when the key led
to it before. -/
private theorem Repeered.finds_iff {table' : ChannelTable} (again : Repeered c table table')
    (placed : table.Placed current) (accepts : table'.equalfn key c = true) :
    table'.Finds c key ↔ (table.channel c).he.hashed = true ∧ table.LeadsTo c key := by
  have same : table'.ahead c = table.ahead c := by
    rw [ahead, ahead, again.slots, again.he]
  rw [ChannelTable.finds_iff (again.placed placed), LeadsTo, LeadsTo, same, again.he]
  refine and_congr_right fun _ => (and_iff_right accepts).trans (and_congr_right fun _ => ?_)
  refine forall₂_congr fun other inside => ?_
  have apart : other ≠ c := by simpa using List.mem_takeWhile_imp inside
  rw [again.equalfn apart]

section Udp

variable {table' : ChannelTable} {b : Ptr} {sender : Memory} (again : Repeered c table table')

include again

/-- The key of a message names the new peer, so that only the type is left to
compare. -/
private theorem Repeered.accepts_sender (udp : (table.channel c).ops = .udp b)
    (copied : table'.getPeer c = bytesOf addr len) (agrees : ∀ i < len, sender i = addr i) :
    table'.equalfn (table.senderKey b sender) c = true ↔
      (table'.channel c).type = msgChannelUdp := by
  have home : (table'.base c).localAddr = (table.channel b).localAddr ∧
      (table'.base c).localLen = (table.channel b).localLen := by
    rw [again.base, ChannelTable.base, udp]
    exact ⟨rfl, rfl⟩
  obtain ⟨length, bytes⟩ := bytesOf_eq_iff.mp copied
  have known : bytesOf sender len = bytesOf (table'.channel c).peer len :=
    bytesOf_eq_iff.mpr ⟨rfl, fun i less => (agrees i less).trans (bytes i less).symm⟩
  simp only [ChannelTable.equalfn, senderKey, home, equalAddr_self, again.ops, udp, Bool.and_true]
  simp only [equalAddr, length, known, beq_self_eq_true, Bool.or_true, Bool.and_true]
  rw [beq_iff_eq]
  exact eq_comm

private theorem Repeered.delivers_iff : table'.messageChannelUdpBaseRecvCallback b sender = some c ↔
    table'.Finds c (table.senderKey b sender) := by
  rw [messageChannelUdpBaseRecvCallback, senderKey, senderKey, again.channel b,
    Option.map_eq_some_iff, Finds]
  constructor
  · rintro ⟨⟨_, after⟩, found, rfl⟩
    exact ⟨after, found⟩
  · rintro ⟨after, found⟩
    exact ⟨_, found, rfl⟩

end Udp

/-- For a UDP channel, which is not moved. -/
private theorem takesPeer_udp_iff (placed : table.Placed current) {b : Ptr}
    (udp : (table.channel c).ops = .udp b) :
    table.TakesPeer c addr len ↔
      (∀ i, i < len → (table.channel c).peerLen ≤ i → (table.channel c).peer i = addr i) ∧
      ((table.channel c).he.hashed = true →
        table.LeadsTo c (table.peerKey c addr len) ∧ (table.channel c).type = msgChannelUdp ∧
        ∀ sender : Memory, (∀ i < len, sender i = addr i) →
          table.LeadsTo c (table.senderKey b sender)) := by
  have run : table.setPeer c addr len = .ok (0, messageChannelUdpSetPeer table c addr len) := by
    rw [setPeer, udp]
  have again := Repeered.udpSetPeer table c addr len
  have peer : (table.messageChannelUdpSetPeer c addr len).channel c =
      { table.channel c with
        peer := fun i => if i < (table.channel c).peerLen then addr i else (table.channel c).peer i
        peerLen := len } := by
    simp [messageChannelUdpSetPeer, copyPeer, update]
  generalize messageChannelUdpSetPeer table c addr len = table' at run again peer
  have bytes : table'.getPeer c = bytesOf addr len ↔
      ∀ i, i < len → (table.channel c).peerLen ≤ i → (table.channel c).peer i = addr i := by
    simp only [getPeer, peer, bytesOf_eq_iff, true_and]
    refine forall₂_congr fun i _ => ?_
    split_ifs with old
    · simp [Nat.not_le.mpr old]
    · simp [Nat.not_lt.mp old]
  have own : table'.fillkey c = table.peerKey c addr len := by
    rw [again.fillkey, peer, peerKey]
  have type : (table'.channel c).type = (table.channel c).type := by rw [peer]
  refine (returned_iff run).trans ?_
  rw [← bytes]
  refine and_congr_right fun copied => forall_congr' fun hashed => ?_
  rw [again.finds_iff placed (equalfn_self table' c), own, and_iff_right hashed]
  refine and_congr_right fun _ => ⟨fun delivers => ?_, ?_⟩
  · have found (sender : Memory) (agrees : ∀ i < len, sender i = addr i) :=
      again.delivers_iff.mp (delivers b sender udp agrees)
    have accepted (sender : Memory) (agrees : ∀ i < len, sender i = addr i) :=
      ((ChannelTable.finds_iff (again.placed placed)).mp (found sender agrees)).2.1
    have same : ∀ i < len, addr i = addr i := fun _ _ => rfl
    refine ⟨type ▸ (again.accepts_sender udp copied same).mp (accepted addr same), ?_⟩
    intro sender agrees
    exact ((again.finds_iff placed (accepted sender agrees)).mp (found sender agrees)).2
  · rintro ⟨known, senders⟩ other sender udp' agrees
    obtain rfl := ChannelOps.udp.inj (udp.symm.trans udp')
    have accepted := (again.accepts_sender udp copied agrees).mpr (type.trans known)
    exact again.delivers_iff.mpr
      ((again.finds_iff placed accepted).mpr ⟨hashed, senders sender agrees⟩)

/-- Setting a peer takes effect in just these cases, whatever has been started
and stopped and whatever peers have been set before. -/
theorem takesPeer_iff (fresh : start.Fresh) (run : runAll channelStep start ops = .ok table)
    (c : Ptr) (addr : Memory) (len : Nat) :
    table.TakesPeer c addr len ↔ table.SetsPeer c addr len := by
  have placed := channelRun_placed fresh run
  rw [SetsPeer]
  cases kind : (table.channel c).ops with
  | base | udpBase =>
    have plain : ∀ b, (table.channel c).ops ≠ .udp b := by simp [kind]
    exact takesPeer_base_iff plain placed (.inr plain)
  | udp b => exact takesPeer_udp_iff placed kind

/-- The two addresses of the UDP channel weigh the same, so that the channel is
in the slot of its new key. -/
theorem takesPeer_sample : ∃ table, runAll channelStep sampleChannels sampleOps = .ok table ∧
    (table.channel 2).he.hashed = true ∧ table.getPeer 2 = [2, 2] ∧
      table.TakesPeer 2 (fun _ => 4) 2 := by
  have ends : leaves (runAll channelStep sampleChannels sampleOps) (fun table =>
      (table.channel 2).he.hashed && decide (table.getPeer 2 = [2, 2] ∧
        (table.channel 2).ops = .udp 3 ∧ (table.channel 2).type = msgChannelUdp ∧
        (table.channel 2).peerLen = 2 ∧ (table.channel 3).localLen = 2 ∧ table.ahead 2 = [] ∧
        weigh (table.peerKey 2 (fun _ => 4) 2).bytes % 32 = getSlot (table.channel 2).he.hash ∧
        weigh (table.senderKey 3 fun _ => 4).bytes % 32 = getSlot (table.channel 2).he.hash)) =
      true := by
    decide +kernel
  obtain ⟨table, run, facts⟩ := exists_of_leaves ends
  simp only [Bool.and_eq_true, decide_eq_true_eq] at facts
  obtain ⟨hashed, peer, udp, type, peerLen, localLen, front, own, sent⟩ := facts
  refine ⟨table, run, hashed, peer, (takesPeer_iff sampleChannels_fresh run 2 _ 2).mpr ?_⟩
  rw [SetsPeer, udp]
  refine ⟨fun i less old => by omega, fun _ => ⟨⟨own, by simp [front]⟩, type, ?_⟩⟩
  intro sender agrees
  have same : (table.senderKey 3 sender).bytes = (table.senderKey 3 fun _ => 4).bytes := by
    have first := agrees 0 (by decide)
    have second := agrees 1 (by decide)
    simp [ChannelKey.bytes, senderKey, localLen, bytesOf, List.range_succ, first, second]
  exact ⟨same ▸ sent, by simp [front]⟩

/-- A first peer is not seen, as the length of the peer stays zero. -/
theorem setPeer_keeps_length : ∃ table,
    runAll channelStep sampleChannels sampleOps = .ok table ∧
      (table.channel 1).he.hashed = true ∧ ¬ table.TakesPeer 1 (fun _ => 7) 2 := by
  have ends : leaves (runAll channelStep sampleChannels sampleOps) (fun table =>
      (table.channel 1).he.hashed && leaves (table.setPeer 1 (fun _ => 7) 2) fun set =>
        decide (set.1 = 0 ∧ set.2.getPeer 1 = [])) = true := by
    decide +kernel
  obtain ⟨table, run, facts⟩ := exists_of_leaves ends
  rw [Bool.and_eq_true] at facts
  refine ⟨table, run, facts.1, ?_⟩
  rintro ⟨ret, table', set, works⟩
  obtain ⟨result, ran, empty⟩ := exists_of_leaves facts.2
  obtain rfl := Except.ok.inj (set.symm.trans ran)
  obtain ⟨zero, none⟩ := of_decide_eq_true empty
  have copied := (works zero).1
  rw [none] at copied
  exact absurd copied (by decide)

end Serval.Channel.ChannelTable
