import Serval.Support.Search

/-!
# Service entries and their targets

The data of `service.h` and the functions of `service.c` that work on one
service entry, in the order of the source. An entry keeps its targets in
sets, one for each priority. The user-space build is modelled; locks and the
reference counts of sockets and devices are not.
-/

namespace Serval

open Serval.Support

/-- `service_rule_type_t`. A control message can also carry a number that
the enumeration does not name. -/
inductive RuleType where
  | undefined
  | forward
  | demux
  | delay
  | drop
  | unnamed (code : UInt16)
  deriving DecidableEq, Repr

def ENOMEM : Int := 12
def EEXIST : Int := 17
def EINVAL : Int := 22
def EADDRINUSE : Int := 98

/-- `union target_out`, with what the code reads behind the pointer. -/
inductive TargetOut where
  | null
  | dev (p : Ptr) (name : String)
  | sk (p : Ptr) (protocol : Int)
  deriving DecidableEq, Repr

def TargetOut.raw : TargetOut → Option Ptr
  | .null => none
  | .dev p _ => some p
  | .sk p _ => some p

/-- Read `out.sk->sk_protocol`. A device read as a socket is out of
bounds. -/
def TargetOut.skProtocol : TargetOut → Except Fault Int
  | .null => .error .null
  | .dev .. => .error .bounds
  | .sk _ protocol => .ok protocol

/-- Test `out.dev && strcmp(out.dev->name, ifname) == 0`. -/
def TargetOut.devNamed (ifname : String) : TargetOut → Except Fault Bool
  | .null => .ok false
  | .dev _ name => .ok (name == ifname)
  | .sk .. => .error .bounds

structure Buf where
  addr : Ptr
  bytes : List UInt8
  deriving DecidableEq, Repr

def readBytes (source : Option Buf) (size : Nat) : Except Fault (List UInt8) :=
  match source with
  | none => .error .null
  | some buf =>
    if buf.bytes.length < size then .error .bounds
    else .ok (buf.bytes.take size)

/-- Test `memcmp(held, dst, dstlen) == 0`. -/
def memEqual (held : List UInt8) (dst : Option Buf) (dstlen : Nat) :
    Except Fault Bool := do
  if dstlen = 0 then
    return true
  let wanted ← readBytes dst dstlen
  if held.length < dstlen then
    .error .bounds
  return held.take dstlen == wanted

/-- The counters of a target that `struct target_stats` reports. -/
structure TargetStats where
  packetsResolved : Int
  bytesResolved : Int
  packetsDropped : Int
  bytesDropped : Int
  deriving DecidableEq, Repr

/-- `struct target`. The length of `dst` is the field `dstlen`. -/
structure Target where
  type : RuleType
  weight : UInt32
  taasAuth : UInt64
  stats : TargetStats
  out : TargetOut
  natSet : UInt8
  natSrcAddr : List UInt8
  dst : List UInt8
  deriving DecidableEq, Repr

def Target.dstlen (t : Target) : Nat := t.dst.length

/-- `struct target_set`: targets that share a priority. -/
structure TargetSet where
  normalizer : UInt32
  priority : UInt32
  flags : UInt16
  count : UInt16
  list : List Target
  deriving DecidableEq, Repr

structure ServiceEntry where
  node : Option Ptr
  targetSet : List TargetSet
  count : UInt32
  deriving DecidableEq, Repr

structure TargetArgs where
  type : RuleType
  flags : UInt16
  priority : UInt32
  weight : UInt32
  taasAuth : UInt64
  dst : Option Buf
  dstlen : Nat
  natSet : UInt8
  natSrcAddr : Option Buf
  out : TargetOut
  deriving DecidableEq, Repr

/-- Which of the allocations of a call succeed; `node d` is that of the trie
node at depth `d`. -/
structure Allocs where
  target : Bool
  set : Bool
  entry : Bool
  node : Nat → Bool

def Allocs.succeed : Allocs where
  target := true
  set := true
  entry := true
  node _ := true

def inAddrSize : Nat := 4

/-- `t->nat_src_addr` of a new target. -/
def copyNatSrcAddr (args : TargetArgs) : Except Fault (List UInt8) :=
  if args.natSet > 0 then readBytes args.natSrcAddr inAddrSize
  else return List.replicate inAddrSize 0

/-- `t->dst` of a new target. -/
def copyTargetDst (args : TargetArgs) : Except Fault (List UInt8) :=
  if args.dstlen > 0 then readBytes args.dst args.dstlen else return []

def targetCreate (args : TargetArgs) (alloc : Allocs) : Except Fault (Option Target) := do
  if args.dstlen = 0 ∧ args.out.raw = none then
    return none
  if !alloc.target then
    return none
  let natSrcAddr ← copyNatSrcAddr args
  let dst ← copyTargetDst args
  return some
    { type := args.type, weight := args.weight, taasAuth := args.taasAuth,
      stats := ⟨0, 0, 0, 0⟩, out := args.out, natSet := args.natSet,
      natSrcAddr, dst }

def targetSetCreate (flags : UInt16) (priority : UInt32) : TargetSet where
  normalizer := 0
  priority := priority
  flags := flags
  count := 0
  list := []

/-- `is_sock_target`; the array `dst` of a target has an address. -/
def isSockTarget (t : Target) : Bool := t.type = .demux && t.dstlen = 0

def isTarget (t : Target) (type : RuleType) (dst : Option Buf) (dstlen : Nat) : Except Fault Bool :=
  if t.type ≠ type then return false
  else
    match type with
    | .demux =>
      match dst with
      | none => return true
      | some buf => return t.out.raw = some buf.addr
    | .forward =>
      match dst with
      | none => return true
      | some _ => memEqual t.dst dst dstlen
    | _ => return true

def MATCH_NO_PROTOCOL : Int := -1
def MATCH_ANY_PROTOCOL : Int := 0

/-- A target within an entry: the set it is in among the sets, and its place
in that set. -/
structure Located where
  sets : Split TargetSet
  targets : Split Target

/-- The two nested loops that walk the sets of an entry and the targets of
each set. -/
def locate (test : Target → Except Fault Bool) : List TargetSet → Except Fault (Option Located)
  | [] => return none
  | set :: rest => do
    match ← splitFirstM test set.list with
    | some targets => return some ⟨⟨[], set, rest⟩, targets⟩
    | none =>
      let found ← locate test rest
      return found.map fun located =>
        { located with
          sets := { located.sets with
            before := set :: located.sets.before } }

/-- The test of `__service_entry_get_target`. -/
def getsTarget (type : RuleType) (dst : Option Buf) (dstlen : Nat)
    (protocol : Int) (t : Target) : Except Fault Bool := do
  if t.type ≠ type then
    return false
  if ← isTarget t type dst dstlen then
    if type = .demux then
      let held ← t.out.skProtocol
      return held = protocol || protocol = MATCH_ANY_PROTOCOL
    return true
  return false

def ServiceEntry.getTarget (se : ServiceEntry) (type : RuleType) (dst : Option Buf) (dstlen : Nat)
    (protocol : Int) : Except Fault (Option Located) :=
  locate (getsTarget type dst dstlen protocol) se.targetSet

def targetSetAddTarget (set : TargetSet) (t : Target) : TargetSet :=
  { set with
    list := set.list ++ [t]
    normalizer := set.normalizer + t.weight
    count := set.count + 1 }

/-- `service_entry_insert_target_set`, on the list of sets. -/
def insertTargetSet : List TargetSet → TargetSet → List TargetSet
  | [], set => [set]
  | pos :: rest, set =>
    if pos.priority < set.priority then set :: pos :: rest
    else pos :: insertTargetSet rest set

/-- `__service_entry_get_target_set`, on the list of sets. -/
def getTargetSet (sets : List TargetSet) (priority : UInt32) : Option (Split TargetSet) :=
  splitFirst (fun pos => pos.priority = priority) sets

/-- The protocol that an addition passes to `__service_entry_get_target`. -/
def addedProtocol (args : TargetArgs) : Except Fault Int :=
  if args.dstlen = 0 then args.out.skProtocol else return MATCH_NO_PROTOCOL

def ServiceEntry.addTarget (se : ServiceEntry) (args : TargetArgs) (alloc : Allocs) :
    Except Fault (Int × ServiceEntry) := do
  let protocol ← addedProtocol args
  match ← se.getTarget args.type args.dst args.dstlen protocol with
  | some found =>
    if isSockTarget found.targets.item then
      return (-EADDRINUSE, se)
    return (0, se)
  | none =>
    match ← targetCreate args alloc with
    | none => return (-ENOMEM, se)
    | some t =>
      match getTargetSet se.targetSet args.priority with
      | some split =>
        return (1, { se with
          targetSet := { split with
            item := targetSetAddTarget split.item t }.whole
          count := se.count + 1 })
      | none =>
        if !alloc.set then
          return (-ENOMEM, se)
        let set := targetSetCreate args.flags args.priority
        return (1, { se with
          targetSet := insertTargetSet se.targetSet (targetSetAddTarget set t)
          count := se.count + 1 })

/-- `target_set_remove_target`: the set goes on with the other targets. -/
def targetSetRemoveTarget (set : TargetSet) (targets : Split Target) :
    TargetSet :=
  { set with
    normalizer := set.normalizer - targets.item.weight
    list := targets.before ++ targets.after
    count := set.count - 1 }

/-- A set is freed, with all that is left in it, when its counter is zero. -/
def unlessEmpty (set : TargetSet) : List TargetSet :=
  if set.count = 0 then [] else [set]

structure ModifyArgs where
  type : RuleType
  flags : UInt16
  priority : UInt32
  weight : UInt32
  dst : Option Buf
  dstlen : Nat
  newDst : Option Buf
  newDstlen : Nat
  deriving DecidableEq, Repr

/-- The target with the new destination copied over the old one, when the
lengths agree. -/
def copyDst (args : ModifyArgs) (t : Target) : Except Fault Target :=
  if args.newDstlen = t.dstlen ∧ args.newDst.isSome then do
    let dst ← readBytes args.newDst args.newDstlen
    return { t with dst }
  else return t

/-- `service_entry_insert_target_set` while a set of the entry is in hand:
the new set is linked in front of it or behind it. -/
def linkTargetSet (sets : Split TargetSet) (nset : TargetSet) :
    Split TargetSet :=
  if sets.before.any (·.priority < nset.priority) then
    { sets with before := insertTargetSet sets.before nset }
  else if sets.item.priority < nset.priority then
    { sets with before := sets.before ++ [nset] }
  else
    { sets with after := insertTargetSet sets.after nset }

/-- The set that a target moves to takes over the flags of the call. -/
def targetSetMoveTarget (flags : UInt16) (t : Target) (nset : TargetSet) :
    TargetSet :=
  { targetSetAddTarget nset t with flags }

def updateTargetSet (priority : UInt32) (change : TargetSet → TargetSet)
    (sets : List TargetSet) : List TargetSet :=
  match getTargetSet sets priority with
  | some split => { split with item := change split.item }.whole
  | none => sets

/-- Change the first set with the given priority other than the set in
hand. -/
def updateOther (priority : UInt32) (change : TargetSet → TargetSet)
    (sets : Split TargetSet) : Split TargetSet :=
  if (getTargetSet sets.before priority).isSome then
    { sets with before := updateTargetSet priority change sets.before }
  else
    { sets with after := updateTargetSet priority change sets.after }

def ServiceEntry.modifyTarget (se : ServiceEntry) (args : ModifyArgs) (alloc : Allocs) :
    Except Fault (Int × ServiceEntry) := do
  if args.type = .demux ∨ args.dstlen = 0 then
    return (-1, se)
  match ← se.getTarget args.type args.dst args.dstlen MATCH_NO_PROTOCOL with
  | none => return (0, se)
  | some found =>
    let old := found.targets.item
    let t ← copyDst args old
    if found.sets.item.priority ≠ args.priority then
      -- The target moves to the set of the new priority.
      let missing := (getTargetSet se.targetSet args.priority).isNone
      if missing && !alloc.set then
        let set := { found.sets.item with
          list := { found.targets with item := t }.whole }
        return (-ENOMEM, { se with
          targetSet := { found.sets with item := set }.whole })
      let sets :=
        if missing then
          linkTargetSet found.sets
            (targetSetCreate args.flags args.priority)
        else found.sets
      let set := targetSetRemoveTarget found.sets.item found.targets
      let t := { t with weight := args.weight }
      let sets := updateOther args.priority (targetSetMoveTarget args.flags t) sets
      return (1, { se with
        targetSet := sets.before ++ unlessEmpty set ++ sets.after })
    else
      let set := { found.sets.item with
        normalizer := found.sets.item.normalizer - old.weight + args.weight
        flags := args.flags
        list :=
          { found.targets with
            item := { t with weight := args.weight } }.whole }
      return (1, { se with
        targetSet := { found.sets with item := set }.whole })

/-- The test of `__service_entry_remove_target_by_dev`. -/
def onDevice (ifname : String) (t : Target) : Except Fault Bool :=
  if t.type = .forward then t.out.devNamed ifname else return false

/-- The inner loop of `__service_entry_remove_target_by_dev`, with the targets
already passed and those to come. A set whose counter reaches zero is freed;
the loop must then be at its end, or it goes on in freed memory. (The macro
also loads the successor of the list head once more, a value that is never
used.) -/
def sweepTargets (ifname : String) : TargetSet → List Target → List Target →
      Except Fault (Option TargetSet × Nat)
  | set, passed, [] => return (some { set with list := passed }, 0)
  | set, passed, t :: rest => do
    if ← onDevice ifname t then
      let set := targetSetRemoveTarget set ⟨passed, t, rest⟩
      if set.count = 0 then
        if rest.isEmpty then
          return (none, 1)
        .error .freed
      let (set, removed) ← sweepTargets ifname set passed rest
      return (set, removed + 1)
    sweepTargets ifname set (passed ++ [t]) rest

/-- The outer loop of `__service_entry_remove_target_by_dev`. -/
def sweepSets (ifname : String) : List TargetSet → Except Fault (List TargetSet × Nat)
  | [] => return ([], 0)
  | set :: rest => do
    let (set, removed) ← sweepTargets ifname set [] set.list
    let (rest, more) ← sweepSets ifname rest
    return (set.toList ++ rest, removed + more)

def ServiceEntry.removeTargetByDev (se : ServiceEntry) (ifname : String) :
    Except Fault (Nat × ServiceEntry) := do
  let (targetSet, removed) ← sweepSets ifname se.targetSet
  return (removed, { se with targetSet, count := se.count - UInt32.ofNat removed })

/-- The test of `__service_entry_remove_target`. -/
def removesTarget (type : RuleType) (dst : Option Buf) (dstlen : Nat)
    (t : Target) : Except Fault Bool := do
  if t.type ≠ type then
    return false
  match t.type with
  | .demux => return dstlen = 0
  | .forward => memEqual t.dst dst dstlen
  | _ => return false

/-- `__service_entry_remove_target`. The statistics of the target that is
removed are there exactly when the source returns 1. -/
def ServiceEntry.removeTarget (se : ServiceEntry) (type : RuleType) (dst : Option Buf)
    (dstlen : Nat) : Except Fault (Option TargetStats × ServiceEntry) := do
  match ← locate (removesTarget type dst dstlen) se.targetSet with
  | none => return (none, se)
  | some found =>
    let set := targetSetRemoveTarget found.sets.item found.targets
    return (some found.targets.item.stats, { se with
      targetSet := found.sets.before ++ unlessEmpty set ++ found.sets.after
      count := se.count - 1 })

def serviceEntryCreate : ServiceEntry where
  node := none
  targetSet := []
  count := 0

/-! ## Iterating over the first set -/

inductive IterMode where
  | all
  | demux
  | forward
  | anycast
  deriving DecidableEq, Repr

def SVSF_MULTICAST : UInt16 := 32

def RAND_MAX : UInt64 := 2147483647

/-- `struct service_iter`. A position is the list from there on, which is
empty at the list head. -/
structure ServiceIter where
  mode : IterMode
  set : Option TargetSet
  pos : Option (List Target)
  lastPos : Option (List Target)
  deriving DecidableEq, Repr

/-- The sample that `service_iter_init` draws, for a value of `random()`. -/
def sampleOf (random : UInt64) (normalizer : UInt32) : UInt64 :=
  (random <<< 32) / RAND_MAX * normalizer.toUInt64

/-- The loop over the running sum of weights: the position it stops at. -/
def selectFrom (sample : UInt64) : UInt64 → List Target → List Target
  | _, [] => []
  | sumweight, t :: rest =>
    let sumweight := sumweight + (t.weight.toUInt64 <<< 32)
    if sample ≤ sumweight then t :: rest
    else selectFrom sample sumweight rest

/-- The result is `false` when the source returns -1. -/
def serviceIterInit (se : ServiceEntry) (mode : IterMode) (random : UInt64) : Bool × ServiceIter :=
  let iter : ServiceIter := ⟨mode, none, none, none⟩
  match se.targetSet with
  | [] => (false, iter)
  | set :: _ =>
    if se.count = 0 then (false, iter)
    else if mode = .anycast ∧ set.flags &&& SVSF_MULTICAST ≠ 0 then
      (false, iter)
    else if mode = .all ∨ mode = .demux ∨ mode = .forward then
      (true, { iter with pos := some set.list, set := some set })
    else
      let sample := sampleOf random set.normalizer
      (true, { iter with pos := some (selectFrom sample 0 set.list) })

/-- Whether `service_iter_next` stops at a target. -/
def IterMode.stops (mode : IterMode) (t : Target) : Bool :=
  match mode with
  | .all => true
  | .demux => t.type = .demux
  | .forward => t.type = .forward
  | .anycast => false

/-- The loop of `service_iter_next` inside a set: the target it stops at and
the position after it. -/
def nextInSet (mode : IterMode) : List Target → Option Target × List Target
  | [] => (none, [])
  | t :: rest => if mode.stops t then (some t, rest) else nextInSet mode rest

/-- Without a set the target at the position is returned, whatever the
position is; the list head is no target. -/
def serviceIterNext (iter : ServiceIter) : Except Fault (Option Target × ServiceIter) :=
  let iter := { iter with lastPos := iter.pos }
  match iter.pos with
  | none => return (none, iter)
  | some here =>
    match iter.set with
    | some _ =>
      let (t, rest) := nextInSet iter.mode here
      return (t, { iter with pos := some rest })
    | none =>
      match here with
      | [] => .error .bounds
      | t :: _ => return (some t, { iter with pos := none })

end Serval
