import Serval.Sal.Socket
import Serval.Support.Ledger

/-!
# The delay queue

Packets that met a DELAY rule wait for the verdict of a daemon. The calls to
the surroundings (freeing, sending and resolving packets, references to
sockets) are noted in a trace; a lock that is taken twice or given back
without being held is a fault.
-/

namespace Serval

open Serval.Support

def EBUSY : Int := 16

def ENOSPC : Int := 28

def delayQueueMaxDefault : UInt32 := 1024

structure DelayEntry where
  id : UInt32
  skb : Ptr
  sk : Option Ptr
  deriving DecidableEq, Repr

/-- What the queue does with packets and sockets. `given` is the call of
`delay_queue_skb` itself. -/
inductive DelayCall where
  | given (skb : Ptr)
  | kfreeSkb (skb : Ptr)
  | xmitSkb (skb : Ptr)
  | reresolve (skb : Ptr)
  | sockHold (sk : Ptr)
  | sockPut (sk : Ptr)
  deriving DecidableEq, Repr

structure DelayQueue where
  peerPid : Int
  queueId : UInt32
  queueTotal : UInt32
  queueDropped : UInt32
  queueMaxlen : UInt32
  locked : Bool
  queue : List DelayEntry
  calls : List DelayCall
  deriving DecidableEq, Repr

def DelayQueue.initial : DelayQueue where
  peerPid := 0
  queueId := 0
  queueTotal := 0
  queueDropped := 0
  queueMaxlen := delayQueueMaxDefault
  locked := false
  queue := []
  calls := []

namespace DelayQueue

section

variable (q : DelayQueue)

def call (calls : List DelayCall) : DelayQueue := { q with calls := q.calls ++ calls }

def lock : Option DelayQueue :=
  if q.locked then none else some { q with locked := true }

def unlock : Option DelayQueue :=
  if q.locked then some { q with locked := false } else none

/-- `__delay_queue_add`. -/
def add (de : DelayEntry) : DelayQueue :=
  { q with queue := q.queue ++ [de], queueTotal := q.queueTotal + 1 }

/-- `__delay_queue_remove`. -/
def remove (de : DelayEntry) : DelayQueue :=
  { q with queue := q.queue.erase de, queueTotal := q.queueTotal - 1 }

/-- `__delay_queue_find`. -/
def find (q : DelayQueue) (id : UInt32) : Option DelayEntry :=
  q.queue.find? fun entry => id = entry.id

def drop : DelayQueue := { q with queueDropped := q.queueDropped + 1 }

def adopt (pid : Int) : DelayQueue :=
  if q.peerPid ≠ 0 then q else { q with peerPid := pid }

end

end DelayQueue

/-- `delay_entry_free`, as far as others see it. -/
def DelayEntry.free (de : DelayEntry) : List DelayCall := de.sk.toList.map .sockPut

/-- The loop of `__delay_queue_purge_sock`; no socket stands for all. -/
def delayQueuePurgeLoop (sk : Option Ptr) : List DelayEntry → DelayQueue → DelayQueue
  | [], q => q
  | entry :: rest, q =>
    if sk = none ∨ sk = entry.sk then
      delayQueuePurgeLoop sk rest
        ((q.remove entry).call (.kfreeSkb entry.skb :: entry.free)).drop
    else
      delayQueuePurgeLoop sk rest q

/-- `__delay_queue_purge_sock`. -/
def purgeSock (sk : Option Ptr) (q : DelayQueue) : DelayQueue := delayQueuePurgeLoop sk q.queue q

section

variable (q : DelayQueue)

def delayQueuePurgeSock (sk : Option Ptr) :
    Option DelayQueue := do
  let q ← q.lock
  (purgeSock sk q).unlock

def delayQueueReset : DelayQueue := { purgeSock none q with peerPid := 0 }

/-- `delay_queue_skb`. The owner of the packet, the result of the allocation
and that of `ctrl_sendmsg` are inputs. -/
def delayQueueSkb (skb : Ptr) (sk : Option Ptr) (alloc : Bool)
    (sent : Int) : Option (Int × DelayQueue) :=
  let q := q.call [.given skb]
  if !alloc then
    some (-ENOMEM, q.call [.kfreeSkb skb])
  else do
    let de : DelayEntry := ⟨q.queueId, skb, sk⟩
    let q := { q with queueId := q.queueId + 1 }
    let q ← (q.call (de.sk.toList.map .sockHold)).lock
    if q.queueMaxlen ≤ q.queueTotal then do
      let q ← q.unlock
      some (-ENOSPC, (q.call (.kfreeSkb skb :: de.free)).drop)
    else if sent ≠ 0 then do
      let q ← q.unlock
      some (-EHOSTUNREACH, (q.call (.kfreeSkb skb :: de.free)).drop)
    else do
      let q ← (q.add de).unlock
      some (0, q)

inductive DelayVerdict where
  | release
  | drop
  deriving DecidableEq, Repr

/-- What becomes of a packet by the verdict; `dead` is the flag of its
socket. -/
def applyVerdict (entry : DelayEntry) (verdict : DelayVerdict) (dead : Bool) : Int × DelayQueue :=
  match verdict with
  | .drop => (0, (q.call [.kfreeSkb entry.skb]).drop)
  | .release =>
    if entry.sk.isSome then
      if dead then (0, (q.call [.kfreeSkb entry.skb]).drop)
      else (1, q.call [.xmitSkb entry.skb])
    else (1, q.call [.reresolve entry.skb])

def delayQueueSetVerdict (pktId : UInt32) (verdict : DelayVerdict) (pid : Int)
    (dead : Bool) : Option (Int × DelayQueue) := do
  let q ← q.lock
  if q.peerPid ≠ 0 ∧ q.peerPid ≠ pid then do
    let q ← q.unlock
    some (-EBUSY, q)
  else do
    let q := q.adopt pid
    match q.find pktId with
    | none => do
      let q ← q.unlock
      some (0, q)
    | some entry => do
      let (ret, q) := applyVerdict (q.remove entry) entry verdict dead
      let q ← q.unlock
      some (ret, q.call entry.free)

def delayQueueRcvNlEvent (pid : Int) :
    Option DelayQueue := do
  let q ← q.lock
  (if pid = q.peerPid then delayQueueReset q else q).unlock

end

inductive DelayEvent where
  | skb (skb : Ptr) (sk : Option Ptr) (alloc : Bool) (sent : Int)
  | verdict (pktId : UInt32) (verdict : DelayVerdict) (pid : Int) (dead : Bool)
  | purge (sk : Option Ptr)
  | release (pid : Int)
  | reset

def delayStep (q : DelayQueue) : DelayEvent → Option DelayQueue
  | .skb skb sk alloc sent => (delayQueueSkb q skb sk alloc sent).map Prod.snd
  | .verdict pktId verdict pid dead =>
    (delayQueueSetVerdict q pktId verdict pid dead).map Prod.snd
  | .purge sk => delayQueuePurgeSock q sk
  | .release pid => delayQueueRcvNlEvent q pid
  | .reset => some (delayQueueReset q)

def delayRun (q : DelayQueue) : List DelayEvent → Option DelayQueue
  | [] => some q
  | event :: rest => do
    let q ← delayStep q event
    delayRun q rest

end Serval
