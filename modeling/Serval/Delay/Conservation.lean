import Serval.Delay.Queue

/-!
# Conservation of packets

Whatever happens to the delay queue, each packet that it was given waits in
the queue or was freed, sent or resolved again, once; and each reference to a
socket is held by a waiting packet or was given back. What ends a wait is said
event by event: a verdict ends that of the packet it names, a purge those of
the packets it matches.
-/

namespace Serval

open Serval.Support

namespace DelayCall

def took : DelayCall → Option Ptr
  | .given skb => some skb
  | _ => none

def disposed : DelayCall → Option Ptr
  | .kfreeSkb skb | .xmitSkb skb | .reresolve skb => some skb
  | _ => none

def held : DelayCall → Option Ptr
  | .sockHold sk => some sk
  | _ => none

def put : DelayCall → Option Ptr
  | .sockPut sk => some sk
  | _ => none

end DelayCall

/-- The queue accounts for everything; `used` numbers have been given out. -/
structure DelaySound (used : Nat) (q : DelayQueue) : Prop where
  total : q.queueTotal.toNat = q.queue.length
  most : q.queueTotal ≤ q.queueMaxlen
  ids : (q.queue.map DelayEntry.id).Nodup
  below : ∀ entry ∈ q.queue, entry.id.toNat < used
  next : q.queueId.toNat = used
  packets :
    Balanced DelayCall.took DelayCall.disposed (q.queue.map DelayEntry.skb)
      q.calls
  refs :
    Balanced DelayCall.held DelayCall.put (q.queue.filterMap DelayEntry.sk)
      q.calls

structure Disposes (entry : DelayEntry) (calls : List DelayCall) : Prop where
  took : calls.filterMap DelayCall.took = []
  disposed : calls.filterMap DelayCall.disposed = [entry.skb]
  held : calls.filterMap DelayCall.held = []
  put : calls.filterMap DelayCall.put = entry.sk.toList

private theorem DelayEntry.disposes (entry : DelayEntry) {call : DelayCall}
    (gone : call.disposed = some entry.skb) :
    Disposes entry (call :: entry.free) := by
  obtain ⟨id, skb, sk⟩ := entry
  cases call with
  | kfreeSkb _ | xmitSkb _ | reresolve _ =>
    cases gone
    cases sk with
    | none | some sk => exact ⟨rfl, rfl, rfl, rfl⟩
  | _ => cases gone

structure Takes (entry : DelayEntry) (calls : List DelayCall) : Prop where
  took : calls.filterMap DelayCall.took = [entry.skb]
  disposed : calls.filterMap DelayCall.disposed = []
  held : calls.filterMap DelayCall.held = entry.sk.toList
  put : calls.filterMap DelayCall.put = []

private theorem DelayEntry.takes (entry : DelayEntry) :
    Takes entry (.given entry.skb :: entry.sk.toList.map .sockHold) := by
  obtain ⟨id, skb, sk⟩ := entry
  cases sk with
  | none | some sk => exact ⟨rfl, rfl, rfl, rfl⟩

namespace DelaySound

variable {used : Nat} {q q' : DelayQueue}

private theorem initial : DelaySound 0 .initial where
  total := rfl
  most := by decide
  ids := List.nodup_nil
  below _ inside := by cases inside
  next := rfl
  packets := .nil
  refs := .nil

/-- The lock, the daemon and the number of drops have no part in it. -/
theorem frame (sound : DelaySound used q) (total : q'.queueTotal = q.queueTotal)
    (maxlen : q'.queueMaxlen = q.queueMaxlen)
    (next : q'.queueId = q.queueId) (queue : q'.queue = q.queue)
    (calls : q'.calls = q.calls) : DelaySound used q' where
  total := by
    rw [total, queue]
    exact sound.total
  most := by
    rw [total, maxlen]
    exact sound.most
  ids := by
    rw [queue]
    exact sound.ids
  below := by
    rw [queue]
    exact sound.below
  next := by
    rw [next]
    exact sound.next
  packets := by
    rw [queue, calls]
    exact sound.packets
  refs := by
    rw [queue, calls]
    exact sound.refs

variable {entry : DelayEntry}

private theorem removed {calls : List DelayCall} (sound : DelaySound used q)
    (member : entry ∈ q.queue) (disposes : Disposes entry calls) :
    DelaySound used ((q.remove entry).call calls) where
  total := by
    have size := List.length_erase_of_mem member
    have some := List.length_pos_of_mem member
    have total := sound.total
    show (q.queueTotal - 1).toNat = (q.queue.erase entry).length
    rw [UInt32.toNat_sub_of_le _ _ (UInt32.le_iff_toNat_le.mpr (by
      rw [total]
      exact some)), total, size]
    rfl
  most := by
    have some := List.length_pos_of_mem member
    have total := sound.total
    have most := UInt32.le_iff_toNat_le.mp sound.most
    refine UInt32.le_iff_toNat_le.mpr ?_
    show (q.queueTotal - 1).toNat ≤ q.queueMaxlen.toNat
    rw [UInt32.toNat_sub_of_le _ _ (UInt32.le_iff_toNat_le.mpr (by
      rw [total]
      exact some))]
    omega
  ids := (List.Sublist.map DelayEntry.id List.erase_sublist).nodup sound.ids
  below := fun other inside =>
    sound.below other (List.mem_of_mem_erase inside)
  next := sound.next
  packets := by
    refine sound.packets.append ?_
    rw [disposes.took, disposes.disposed, List.append_nil]
    have split := (List.perm_cons_erase member).map DelayEntry.skb
    exact split.trans (List.perm_append_singleton _ _).symm
  refs := by
    refine sound.refs.append ?_
    rw [disposes.held, disposes.put, List.append_nil]
    have split := (List.perm_cons_erase member).filterMap DelayEntry.sk
    rw [List.filterMap_cons] at split
    cases sk : entry.sk with
    | none =>
      rw [sk] at split
      rw [Option.toList, List.append_nil]
      exact split
    | some sk' =>
      rw [sk] at split
      exact split.trans (List.perm_append_singleton _ _).symm

private theorem numbered (sound : DelaySound used q) (room : used + 1 < 2 ^ 32) :
    (q.queueId + 1).toNat = used + 1 := by
  have next := sound.next
  rw [UInt32.toNat_add, next]
  exact Nat.mod_eq_of_lt room

/-- A packet is disposed of at once, with the number and the reference that
were taken for it. -/
theorem refused {front back : List DelayCall} (sound : DelaySound used q)
    (room : used + 1 < 2 ^ 32) (takes : Takes entry front)
    (disposes : Disposes entry back) :
    DelaySound (used + 1)
      { q with
        queueId := q.queueId + 1
        calls := q.calls ++ (front ++ back) } where
  total := sound.total
  most := sound.most
  ids := sound.ids
  below := fun other inside => Nat.lt_succ_of_lt (sound.below other inside)
  next := sound.numbered room
  packets := by
    refine sound.packets.append ?_
    rw [List.filterMap_append, List.filterMap_append, takes.took, takes.disposed, disposes.took,
      disposes.disposed]
    exact List.Perm.refl _
  refs := by
    refine sound.refs.append ?_
    rw [List.filterMap_append, List.filterMap_append, takes.held, takes.put, disposes.held,
      disposes.put, List.append_nil]
    exact List.Perm.refl _

private theorem added {front : List DelayCall} (sound : DelaySound used q)
    (room : used + 1 < 2 ^ 32) (takes : Takes entry front)
    (number : entry.id = q.queueId) (space : q.queueTotal < q.queueMaxlen) :
    DelaySound (used + 1)
      { q with
        queueId := q.queueId + 1
        queueTotal := q.queueTotal + 1
        queue := q.queue ++ [entry]
        calls := q.calls ++ front } := by
  have fits : q.queueTotal.toNat + 1 < 2 ^ 32 := by
    have most := q.queueMaxlen.toNat_lt
    have less := UInt32.lt_iff_toNat_lt.mp space
    omega
  have grown : (q.queueTotal + 1).toNat = q.queueTotal.toNat + 1 := by
    exact Nat.mod_eq_of_lt fits
  have fresh : entry.id.toNat = used := by
    rw [number]
    exact sound.next
  refine ⟨?_, ?_, ?_, ?_, sound.numbered room, ?_, ?_⟩
  · rw [grown, sound.total, List.length_append]
    rfl
  · refine UInt32.le_iff_toNat_le.mpr ?_
    rw [grown]
    exact UInt32.lt_iff_toNat_lt.mp space
  · rw [List.map_append, List.nodup_append]
    refine ⟨sound.ids, List.nodup_singleton _, ?_⟩
    intro id inside other last same
    obtain ⟨waiting, member, rfl⟩ := List.mem_map.mp inside
    rw [List.map_singleton, List.mem_singleton] at last
    have less := sound.below waiting member
    rw [same, last, fresh] at less
    exact absurd less (lt_irrefl _)
  · intro other inside
    rcases List.mem_append.mp inside with waiting | last
    · exact Nat.lt_succ_of_lt (sound.below other waiting)
    · rw [List.mem_singleton.mp last, fresh]
      exact Nat.lt_succ_self used
  · refine sound.packets.append ?_
    rw [takes.took, takes.disposed, List.map_append, List.append_nil]
    exact List.Perm.refl _
  · refine sound.refs.append ?_
    rw [takes.held, takes.put, List.filterMap_append, List.append_nil, List.filterMap_cons]
    cases entry.sk with
    | none | some sk => exact List.Perm.refl _

end DelaySound

/-! ## What an event does with the packets that wait -/

/-- What a verdict does with a packet: a packet that was received is resolved
again, one of a living socket is sent. -/
def DelayEntry.fate (entry : DelayEntry) : DelayVerdict → Bool → DelayCall
  | .drop, _ => .kfreeSkb entry.skb
  | .release, dead =>
    match entry.sk, dead with
    | none, _ => .reresolve entry.skb
    | some _, false => .xmitSkb entry.skb
    | some _, true => .kfreeSkb entry.skb

/-- The packets of a socket, or all of them. -/
def DelayEntry.belongs (sk : Option Ptr) (entry : DelayEntry) : Bool :=
  decide (sk = none ∨ sk = entry.sk)

/-- The queue holds `waiting` afterwards, and made these calls. -/
def Becomes (q : DelayQueue) (waiting : List DelayEntry) (calls : List DelayCall)
    (q' : DelayQueue) : Prop :=
  q'.queue = waiting ∧ q'.calls = q.calls ++ calls

/-- Every packet of the socket is freed with its reference, no other is
touched. -/
def Purges (sk : Option Ptr) (q q' : DelayQueue) : Prop :=
  Becomes q (q.queue.filter fun entry => !entry.belongs sk)
    ((q.queue.filter (DelayEntry.belongs sk)).flatMap fun entry =>
      .kfreeSkb entry.skb :: entry.free) q'

/-- What each event is for. A packet waits if there is room and the daemon was
told, and is freed otherwise. A verdict of the accepted daemon takes the packet
it names out of the queue, disposes of it once in its own way and gives the
reference back; any other verdict changes nothing. -/
def Settles (q : DelayQueue) : DelayEvent → DelayQueue → Prop
  | .skb skb sk alloc sent, q' =>
    let entry : DelayEntry := ⟨q.queueId, skb, sk⟩
    let front := DelayCall.given skb :: sk.toList.map .sockHold
    if alloc = false then Becomes q q.queue [.given skb, .kfreeSkb skb] q'
    else if q.queueTotal < q.queueMaxlen ∧ sent = 0 then Becomes q (q.queue ++ [entry]) front q'
    else Becomes q q.queue (front ++ .kfreeSkb skb :: entry.free) q'
  | .verdict pktId verdict pid dead, q' =>
    let accepted := q.peerPid = 0 ∨ q.peerPid = pid
    (∀ entry ∈ q.queue, entry.id = pktId → accepted →
      Becomes q (q.queue.erase entry) (entry.fate verdict dead :: entry.free) q') ∧
    ((∀ entry ∈ q.queue, entry.id ≠ pktId) ∨ ¬ accepted → Becomes q q.queue [] q')
  | .purge sk, q' => Purges sk q q'
  | .release pid, q' =>
    if pid = q.peerPid then Purges none q q' else Becomes q q.queue [] q'
  | .reset, q' => Purges none q q'

section

variable {used : Nat} {q q' : DelayQueue}

/-- The loop has passed the entries `kept` and has still to look at `rest`. -/
private theorem delayQueuePurgeLoop_sound {sk : Option Ptr} {kept rest : List DelayEntry}
    (sound : DelaySound used q) (queue : q.queue = kept ++ rest) :
    DelaySound used (delayQueuePurgeLoop sk rest q) ∧
      (delayQueuePurgeLoop sk rest q).locked = q.locked ∧
      Becomes q (kept ++ rest.filter fun entry => !entry.belongs sk)
        ((rest.filter (DelayEntry.belongs sk)).flatMap fun entry =>
          .kfreeSkb entry.skb :: entry.free) (delayQueuePurgeLoop sk rest q) := by
  induction rest generalizing q kept with
  | nil => exact ⟨sound, rfl, queue, (List.append_nil _).symm⟩
  | cons entry rest ih =>
    rw [delayQueuePurgeLoop]
    split
    · rename_i matched
      have belongs : entry.belongs sk = true := decide_eq_true matched
      have member : entry ∈ q.queue := by
        rw [queue]
        exact List.mem_append_right _ List.mem_cons_self
      have passed : entry ∉ kept := by
        have distinct := sound.ids.of_map
        rw [queue, List.nodup_append] at distinct
        exact fun inside => distinct.2.2 entry inside entry List.mem_cons_self rfl
      have gone : DelaySound used
          ((q.remove entry).call (.kfreeSkb entry.skb :: entry.free)).drop :=
        (sound.removed member (entry.disposes rfl)).frame rfl rfl rfl rfl rfl
      have left : q.queue.erase entry = kept ++ rest := by
        rw [queue, List.erase_append_right _ passed, List.erase_cons_head]
      obtain ⟨sound', lock, waiting, calls⟩ := ih gone left
      refine ⟨sound', lock, ?_, ?_⟩
      · rw [waiting, List.filter_cons_of_neg (by rw [belongs]; decide)]
      · rw [calls, List.filter_cons_of_pos belongs]
        exact List.append_assoc _ _ _
    · rename_i other
      have apart : entry.belongs sk = false := decide_eq_false other
      obtain ⟨sound', lock, waiting, calls⟩ :=
        @ih q (kept ++ [entry]) sound (by rw [queue, List.append_assoc]; rfl)
      refine ⟨sound', lock, ?_, ?_⟩
      · rw [waiting, List.filter_cons_of_pos (by rw [apart]; rfl), List.append_assoc]
        rfl
      · rw [calls, List.filter_cons_of_neg (by rw [apart]; decide)]

private theorem lock_of_free (free : q.locked = false) :
    q.lock = some { q with locked := true } := by
  rw [DelayQueue.lock, if_neg (by rw [free]; decide)]

private theorem purgeSock_sound (sk : Option Ptr) (sound : DelaySound used q) :
    DelaySound used (purgeSock sk q) ∧ (purgeSock sk q).locked = q.locked ∧
      Purges sk q (purgeSock sk q) :=
  @delayQueuePurgeLoop_sound _ _ sk [] q.queue sound rfl

private theorem delayQueueReset_sound (sound : DelaySound used q) :
    DelaySound used (delayQueueReset q) ∧ (delayQueueReset q).locked = q.locked ∧
      Purges none q (delayQueueReset q) := by
  obtain ⟨kept, lock, purged⟩ := purgeSock_sound none sound
  exact ⟨kept.frame rfl rfl rfl rfl rfl, lock, purged⟩

def DelayEvent.numbers : DelayEvent → Nat
  | .skb _ _ alloc _ => alloc.toNat
  | _ => 0

private theorem delayQueueSkb_sound (sound : DelaySound used q) (free : q.locked = false)
    (skb : Ptr) (sk : Option Ptr) (alloc : Bool) (sent : Int)
    (room : used + alloc.toNat < 2 ^ 32) :
    ∃ ret q', delayQueueSkb q skb sk alloc sent = some (ret, q') ∧
      DelaySound (used + alloc.toNat) q' ∧ q'.locked = false ∧
      Settles q (.skb skb sk alloc sent) q' := by
  cases alloc with
  | false =>
    refine ⟨-ENOMEM, _, rfl, ?_, free, rfl, List.append_assoc _ _ _⟩
    refine ⟨sound.total, sound.most, sound.ids, sound.below, sound.next, ?_, ?_⟩
    · show Balanced _ _ _ (q.calls ++ [.given skb] ++ [.kfreeSkb skb])
      rw [List.append_assoc]
      exact sound.packets.append (List.Perm.refl _)
    · show Balanced _ _ _ (q.calls ++ [.given skb] ++ [.kfreeSkb skb])
      rw [List.append_assoc]
      exact sound.refs.append (List.Perm.refl _)
  | true =>
    have takes := DelayEntry.takes ⟨q.queueId, skb, sk⟩
    have disposes : Disposes ⟨q.queueId, skb, sk⟩
          (.kfreeSkb skb :: DelayEntry.free ⟨q.queueId, skb, sk⟩) :=
      DelayEntry.disposes _ rfl
    have calls (back : List DelayCall) :
        q.calls ++ [.given skb] ++ sk.toList.map .sockHold ++ back =
          q.calls ++ ((.given skb :: sk.toList.map .sockHold) ++ back) := by
      simp
    show ∃ ret q', (DelayQueue.lock _ >>= _) = _ ∧ _ ∧ _ ∧
      if q.queueTotal < q.queueMaxlen ∧ sent = 0 then _ else _
    rw [lock_of_free]
    swap
    · exact free
    show ∃ ret q', (if q.queueMaxlen ≤ q.queueTotal then _ else _) = _ ∧ _
    by_cases full : q.queueMaxlen ≤ q.queueTotal
    · rw [if_pos full]
      refine ⟨-ENOSPC, _, rfl, ?_, rfl, ?_⟩
      · exact (sound.refused room takes disposes).frame rfl rfl rfl rfl (calls _)
      · rw [if_neg fun space => UInt32.not_lt.mpr full space.1]
        exact ⟨rfl, calls _⟩
    · rw [if_neg full]
      by_cases failed : sent ≠ 0
      · rw [if_pos failed]
        refine ⟨-EHOSTUNREACH, _, rfl, ?_, rfl, ?_⟩
        · exact (sound.refused room takes disposes).frame rfl rfl rfl rfl (calls _)
        · rw [if_neg fun space => failed space.2]
          exact ⟨rfl, calls _⟩
      · have space := UInt32.not_le.mp full
        have front : q.calls ++ [.given skb] ++ sk.toList.map .sockHold =
            q.calls ++ (.given skb :: sk.toList.map .sockHold) := List.append_assoc _ _ _
        rw [if_neg failed]
        refine ⟨0, _, rfl, ?_, rfl, ?_⟩
        · exact (sound.added room takes rfl space).frame rfl rfl rfl rfl front
        · rw [if_pos ⟨space, not_not.mp failed⟩]
          exact ⟨rfl, front⟩

private theorem applyVerdict_fate (entry : DelayEntry) (verdict : DelayVerdict) (dead : Bool) :
    ∃ ret dropped, applyVerdict q entry verdict dead =
      (ret, { q.call [entry.fate verdict dead] with queueDropped := dropped }) := by
  obtain ⟨id, skb, sk⟩ := entry
  cases verdict with
  | drop => exact ⟨0, _, rfl⟩
  | release =>
    cases sk with
    | none => exact ⟨1, q.queueDropped, rfl⟩
    | some sk =>
      cases dead with
      | false => exact ⟨1, q.queueDropped, rfl⟩
      | true => exact ⟨0, _, rfl⟩

private theorem DelayEntry.fate_disposed (entry : DelayEntry) (verdict : DelayVerdict)
    (dead : Bool) : (entry.fate verdict dead).disposed = some entry.skb := by
  obtain ⟨id, skb, sk⟩ := entry
  cases verdict <;> cases sk <;> cases dead <;> rfl

private theorem adopt_eq (pid : Int) : ∃ peer, q.adopt pid = { q with peerPid := peer } := by
  rw [DelayQueue.adopt]
  split
  · exact ⟨q.peerPid, rfl⟩
  · exact ⟨pid, rfl⟩

private theorem delayQueueSetVerdict_sound
    (sound : DelaySound used q) (free : q.locked = false) (pktId : UInt32)
    (verdict : DelayVerdict) (pid : Int) (dead : Bool) :
    ∃ ret q', delayQueueSetVerdict q pktId verdict pid dead = some (ret, q') ∧
      DelaySound used q' ∧ q'.locked = false ∧ Settles q (.verdict pktId verdict pid dead) q' := by
  rw [delayQueueSetVerdict, lock_of_free free]
  show ∃ ret q', (if q.peerPid ≠ 0 ∧ q.peerPid ≠ pid then _ else _) = _ ∧ _
  have still {q' : DelayQueue} (same : q'.queue = q.queue ∧ q'.calls = q.calls) :
      Becomes q q.queue [] q' := ⟨same.1, same.2.trans (List.append_nil _).symm⟩
  split
  · rename_i other
    refine ⟨-EBUSY, _, rfl, sound.frame rfl rfl rfl rfl rfl, rfl, ?_, fun _ => still ⟨rfl, rfl⟩⟩
    intro entry _ _ accepted
    rcases accepted with none | same
    · exact absurd none other.1
    · exact absurd same other.2
  rename_i accepted
  obtain ⟨peer, filled⟩ := @adopt_eq { q with locked := true } pid
  rw [filled]
  have kept : DelaySound used { q with locked := true, peerPid := peer } :=
    sound.frame rfl rfl rfl rfl rfl
  split
  · rename_i unknown
    refine ⟨0, _, rfl, kept.frame rfl rfl rfl rfl rfl, rfl, ?_, fun _ => still ⟨rfl, rfl⟩⟩
    intro entry member named
    have differs := List.find?_eq_none.mp unknown entry member
    exact absurd named.symm (by simpa using differs)
  rename_i entry found
  have found : q.queue.find? (fun other => pktId = other.id) = some entry := found
  have member := List.mem_of_find?_eq_some found
  have named : pktId = entry.id := by simpa using List.find?_some found
  obtain ⟨ret, dropped, applied⟩ := @applyVerdict_fate
      (DelayQueue.remove { q with locked := true, peerPid := peer } entry)
      entry verdict dead
  have calls : q.calls ++ [entry.fate verdict dead] ++ entry.free =
      q.calls ++ (entry.fate verdict dead :: entry.free) := List.append_assoc _ _ _
  rw [applied]
  refine ⟨ret, _, rfl, ?_, rfl, ?_, ?_⟩
  · exact (kept.removed member (entry.disposes (entry.fate_disposed verdict dead))).frame
      rfl rfl rfl rfl calls
  · intro other inside same _
    -- The numbers in the queue differ, so the packet found is the one that is named.
    obtain rfl := List.inj_on_of_nodup_map sound.ids inside member (same.trans named)
    exact ⟨rfl, calls⟩
  · rintro (unknown | refused)
    · exact absurd named.symm (unknown entry member)
    · refine absurd ?_ accepted
      rw [not_or] at refused
      exact refused

private theorem delayStep_sound (sound : DelaySound used q) (free : q.locked = false)
    (event : DelayEvent) (room : used + event.numbers < 2 ^ 32) :
    ∃ q', delayStep q event = some q' ∧
      DelaySound (used + event.numbers) q' ∧ q'.locked = false ∧ Settles q event q' := by
  have locks := lock_of_free free
  have held : DelaySound used { q with locked := true } := sound.frame rfl rfl rfl rfl rfl
  cases event with
  | skb skb sk alloc sent =>
    obtain ⟨ret, q', run, kept, lock, settles⟩ :=
      delayQueueSkb_sound sound free skb sk alloc sent room
    exact ⟨q', by rw [delayStep, run]; rfl, kept, lock, settles⟩
  | verdict pktId verdict pid dead =>
    obtain ⟨ret, q', run, kept, lock, settles⟩ :=
      delayQueueSetVerdict_sound sound free pktId verdict pid dead
    exact ⟨q', by rw [delayStep, run]; rfl, kept, lock, settles⟩
  | purge sk =>
    obtain ⟨kept, lock, purged⟩ := purgeSock_sound sk held
    refine ⟨{ purgeSock sk { q with locked := true } with locked := false }, ?_,
      kept.frame rfl rfl rfl rfl rfl, rfl, purged⟩
    rw [delayStep, delayQueuePurgeSock, locks]
    exact if_pos lock
  | release pid =>
    obtain ⟨kept, lock, purged⟩ := delayQueueReset_sound held
    rw [delayStep, delayQueueRcvNlEvent, locks]
    by_cases peer : pid = q.peerPid
    · refine ⟨{ delayQueueReset { q with locked := true } with
          locked := false }, ?_, kept.frame rfl rfl rfl rfl rfl, rfl, ?_⟩
      · show (if pid = q.peerPid then _ else _ : DelayQueue).unlock = _
        rw [if_pos peer]
        exact if_pos lock
      · rw [Settles, if_pos peer]
        exact purged
    · refine ⟨{ q with locked := false }, ?_, sound.frame rfl rfl rfl rfl rfl, rfl, ?_⟩
      · show (if pid = q.peerPid then _ else _ : DelayQueue).unlock = _
        rw [if_neg peer]
        rfl
      · rw [Settles, if_neg peer]
        exact ⟨rfl, (List.append_nil _).symm⟩
  | reset =>
    obtain ⟨kept, lock, purged⟩ := delayQueueReset_sound sound
    exact ⟨delayQueueReset q, rfl, kept, lock.trans free, purged⟩

def DelayEvent.given : DelayEvent → Option Ptr
  | .skb packet _ _ _ => some packet
  | _ => none

private theorem Becomes.took {waiting : List DelayEntry} {calls : List DelayCall}
    (becomes : Becomes q waiting calls q') :
    q'.calls.filterMap DelayCall.took =
      q.calls.filterMap DelayCall.took ++ calls.filterMap DelayCall.took := by
  rw [becomes.2, List.filterMap_append]

private theorem Purges.took {sk : Option Ptr} (purged : Purges sk q q') :
    q'.calls.filterMap DelayCall.took = q.calls.filterMap DelayCall.took := by
  have none (entries : List DelayEntry) :
      (entries.flatMap fun entry => DelayCall.kfreeSkb entry.skb :: entry.free).filterMap
        DelayCall.took = [] := by
    induction entries with
    | nil => rfl
    | cons entry rest ih =>
      rw [List.flatMap_cons, List.filterMap_append, ih, (entry.disposes rfl).took]
      rfl
  rw [Becomes.took purged, none, List.append_nil]

/-- The queue takes the packets it is given and no others. -/
private theorem Settles.took {event : DelayEvent} (settles : Settles q event q') :
    q'.calls.filterMap DelayCall.took = q.calls.filterMap DelayCall.took ++ event.given.toList := by
  cases event with
  | skb skb sk alloc sent =>
    have takes := (DelayEntry.takes ⟨q.queueId, skb, sk⟩).took
    have disposes := (DelayEntry.disposes ⟨q.queueId, skb, sk⟩
      (show (DelayCall.kfreeSkb skb).disposed = _ from rfl)).took
    simp only [Settles] at settles
    split_ifs at settles
    · exact settles.took
    · exact settles.took.trans (congrArg _ takes)
    · rw [settles.took, List.filterMap_append]
      exact congrArg _ ((congrArg₂ _ takes disposes).trans (List.append_nil _))
  | verdict pktId verdict pid dead =>
    refine Eq.trans ?_ (List.append_nil _).symm
    by_cases known : (∀ entry ∈ q.queue, entry.id ≠ pktId) ∨ ¬ (q.peerPid = 0 ∨ q.peerPid = pid)
    · exact (settles.2 known).took.trans (List.append_nil _)
    · push Not at known
      obtain ⟨⟨entry, member, named⟩, accepted⟩ := known
      rw [(settles.1 entry member named accepted).took,
        (entry.disposes (entry.fate_disposed verdict dead)).took, List.append_nil]
  | purge sk => exact (Purges.took settles).trans (List.append_nil _).symm
  | release pid =>
    refine Eq.trans ?_ (List.append_nil _).symm
    rw [Settles] at settles
    split at settles
    · exact settles.took
    · exact (Becomes.took settles).trans (List.append_nil _)
  | reset => exact (Purges.took settles).trans (List.append_nil _).symm

end

/-- The queue after these events: it counts its packets, all numbers differ,
each packet given to it waits or was disposed of, each reference is held by a
waiting packet or was given back, and the lock is free. After a reset nothing
waits. -/
structure DelayConserved (events : List DelayEvent) (q : DelayQueue) : Prop where
  total : q.queueTotal.toNat = q.queue.length
  most : q.queueTotal ≤ q.queueMaxlen
  ids : (q.queue.map DelayEntry.id).Nodup
  packets :
    (events.filterMap DelayEvent.given).Perm
      (q.queue.map DelayEntry.skb ++ q.calls.filterMap DelayCall.disposed)
  refs :
    (q.calls.filterMap DelayCall.held).Perm
      (q.queue.filterMap DelayEntry.sk ++ q.calls.filterMap DelayCall.put)
  unlocked : q.locked = false
  emptied : events.getLast? = some .reset → q.queue = []

private theorem delayRun_append (q : DelayQueue) (first second : List DelayEvent) :
    delayRun q (first ++ second) = (delayRun q first >>= fun q => delayRun q second) := by
  induction first generalizing q with
  | nil => rfl
  | cons event rest ih =>
    rw [List.cons_append, delayRun, delayRun]
    cases delayStep q event with
    | none => rfl
    | some q' => exact ih q'

private theorem DelayEvent.numbers_le (event : DelayEvent) :
    event.numbers ≤ event.given.toList.length := by
  cases event with
  | skb packet sk alloc sent => exact Bool.toNat_le alloc
  | _ => exact Nat.zero_le _

private theorem filterMap_given_cons (event : DelayEvent) (rest : List DelayEvent) :
    (event :: rest).filterMap DelayEvent.given =
      event.given.toList ++ rest.filterMap DelayEvent.given := by
  rw [List.filterMap_cons]
  cases event.given with
  | none | some skb => rfl

private theorem delayRun_sound {used : Nat} {q : DelayQueue} (sound : DelaySound used q)
    (free : q.locked = false) (events : List DelayEvent)
    (room : used + (events.filterMap DelayEvent.given).length < 2 ^ 32) :
    ∃ used' q', delayRun q events = some q' ∧ DelaySound used' q' ∧ q'.locked = false ∧
      used' ≤ used + (events.filterMap DelayEvent.given).length ∧
      q'.calls.filterMap DelayCall.took = q.calls.filterMap DelayCall.took ++
          events.filterMap DelayEvent.given := by
  induction events generalizing used q with
  | nil => exact ⟨used, q, rfl, sound, free, le_rfl, (List.append_nil _).symm⟩
  | cons event rest ih =>
    have numbers := event.numbers_le
    rw [filterMap_given_cons, List.length_append] at room ⊢
    obtain ⟨middle, step, kept, lock, settles⟩ := delayStep_sound sound free event (by omega)
    obtain ⟨used', last, run, sound', free', fewer, took⟩ := ih kept lock (by omega)
    refine ⟨used', last, ?_, sound', free', by omega, ?_⟩
    · rw [delayRun, step]
      exact run
    · rw [took, settles.took, List.append_assoc]

/-- The queue in front of an event, and what the event does with it. -/
private theorem delayRun_settles {front rest : List DelayEvent} {event : DelayEvent}
    (few : ((front ++ event :: rest).filterMap DelayEvent.given).length < 2 ^ 32) :
    ∃ before after, delayRun .initial front = some before ∧ delayStep before event = some after ∧
      Settles before event after := by
  rw [List.filterMap_append, filterMap_given_cons, List.length_append, List.length_append] at few
  have numbers := event.numbers_le
  obtain ⟨used, before, run, sound, free, fewer, -⟩ := delayRun_sound .initial rfl front (by omega)
  obtain ⟨after, step, -, -, settles⟩ := delayStep_sound sound free event (by omega)
  exact ⟨before, after, run, step, settles⟩

/-- In any run with fewer than 2^32 packets, each packet given to the queue
is waiting or disposed of, exactly once; and each event of the run ends the
waits that it should end, in its own way. -/
theorem delayRun_conserves (events : List DelayEvent)
    (few : (events.filterMap DelayEvent.given).length < 2 ^ 32) :
    (∃ q, delayRun .initial events = some q ∧ DelayConserved events q) ∧
      ∀ front event rest, events = front ++ event :: rest →
        ∃ before after, delayRun .initial front = some before ∧
          delayStep before event = some after ∧ Settles before event after := by
  refine ⟨?_, fun front event rest split => delayRun_settles (split ▸ few)⟩
  obtain ⟨used, q, run, sound, free, -, took⟩ := delayRun_sound .initial rfl events (by omega)
  refine ⟨q, run, sound.total, sound.most, sound.ids, ?_, sound.refs, free, ?_⟩
  · have packets := sound.packets
    rw [Support.Balanced, took] at packets
    exact packets
  · intro last
    obtain ⟨front, rfl⟩ := List.getLast?_eq_some_iff.mp last
    obtain ⟨before, after, ran, step, settles⟩ := delayRun_settles few
    rw [delayRun_append, ran] at run
    cases run
    cases step
    rw [settles.1]
    exact List.filter_eq_nil_iff.mpr fun _ _ => by simp [DelayEntry.belongs]

/-- Three packets wait. The daemon with the number 5 releases the packet of a
socket and the one that was received; another daemon is refused, and the reset
frees the third. -/
def delaySample : List DelayEvent :=
  [.skb 1 (some 7) true 0, .skb 2 none true 0, .skb 3 (some 8) true 0,
    .verdict 0 .release 5 false, .verdict 2 .release 6 false, .verdict 1 .release 5 false, .reset]

theorem delayRun_conserves_sample : (delaySample.filterMap DelayEvent.given).length < 2 ^ 32 ∧
      (∃ q, delayRun .initial delaySample = some q ∧ DelayConserved delaySample q ∧
        q.calls.filterMap DelayCall.disposed = [1, 2, 3]) ∧
      ∃ before after, delayRun .initial (delaySample.take 3) = some before ∧
        delayStep before (.verdict 0 .release 5 false) = some after ∧
        after.queue = before.queue.drop 1 ∧
        after.calls = before.calls ++ [.xmitSkb 1, .sockPut 7] := by
  have few : (delaySample.filterMap DelayEvent.given).length < 2 ^ 32 := by decide
  obtain ⟨⟨q, run, conserved⟩, settled⟩ := delayRun_conserves delaySample few
  refine ⟨few, ⟨q, run, conserved, ?_⟩, ?_⟩
  · cases run
    rfl
  · obtain ⟨before, after, ran, step, settles⟩ :=
      settled (delaySample.take 3) (.verdict 0 .release 5 false) (delaySample.drop 4) rfl
    cases ran
    obtain ⟨queue, calls⟩ := settles.1 ⟨0, 1, some 7⟩ List.mem_cons_self rfl (.inl rfl)
    exact ⟨_, after, rfl, step, queue, calls⟩

end Serval
