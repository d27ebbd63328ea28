import Serval.Bst.Subtree
import Serval.Service.Basic

/-!
# The service table

The functions of `service.c` that work on the whole table, with the trie of
`bst.c` underneath. An entry is kept in the node that holds it; the pointer
from the entry back to its node is a field of the entry.
-/

namespace Serval

open Serval.Support

def serviceIdSize : Nat := 32

structure ServiceId where
  sid : List UInt8
  size : sid.length = serviceIdSize

def defaultService : ServiceId where
  sid := List.replicate serviceIdSize 0
  size := List.length_replicate

structure ServiceTable where
  tree : Bst ServiceEntry
  services : UInt32

/-- `tbl->srv_ops`; `service_entry_init` returns 0. -/
def srvOps : BstNodeOps ServiceEntry where
  init := some fun _ => 0
  destroy := true

def serviceTableInit : ServiceTable where
  tree := bstInit
  services := 0

/-- `get_service`, followed by the use of the entry. -/
def getService (table : ServiceTable) (n : Ptr) :
    Except Fault ServiceEntry := do
  let node ← table.tree.heap.read n
  match node.priv with
  | some se => return se
  | none => .error .null

def setService (table : ServiceTable) (n : Ptr) (se : ServiceEntry) :
    Except Fault ServiceTable := do
  let node ← table.tree.heap.read n
  let heap ← table.tree.heap.write n { node with priv := some se }
  return { table with tree := { table.tree with heap } }

/-- The prefix bits under which `service_table_add` and
`service_table_modify` look: the all-zero id is the default service. -/
def storedBits (srvid : ServiceId) (prefixBits : Nat) : Nat :=
  if srvid.sid = defaultService.sid then 0 else prefixBits

def findExact (table : ServiceTable) (srvid : ServiceId) (bits : Nat) :
    Except Fault (Option Ptr) := do
  match ← bstFindLongestPrefix table.tree srvid.sid bits with
  | none => return none
  | some n =>
    let node ← table.tree.heap.read n
    if node.prefixBits ≥ bits then
      return some n
    return none

inductive RuleMatch where
  | matchLocal
  | matchGlobal
  | matchAny
  | matchExact
  deriving DecidableEq, Repr

def serviceEntryLocalMatch (node : BstNode ServiceEntry) : Bool :=
  match node.priv with
  | none => false
  | some se =>
    match se.getTarget .demux none 0 MATCH_ANY_PROTOCOL with
    | .ok (some located) => located.targets.item.out.raw.isSome
    | _ => false

/-- `service_entry_global_match`: the entry has a `FORWARD` target. -/
def serviceEntryGlobalMatch (node : BstNode ServiceEntry) : Bool :=
  node.priv.any fun se =>
    se.targetSet.any fun set => set.list.any fun t => t.type = .forward

def RuleMatch.func : RuleMatch → BstNode ServiceEntry → Bool
  | .matchLocal => serviceEntryLocalMatch
  | .matchGlobal => serviceEntryGlobalMatch
  | .matchExact => serviceEntryGlobalMatch
  | .matchAny => fun _ => true

def serviceTableFind (table : ServiceTable) (srvid : Option ServiceId) (prefixBits : Nat)
    (ruleMatch : RuleMatch) : Except Fault (Option ServiceEntry) :=
  match srvid with
  | none => return none
  | some srvid => do
    match ← bstFindLongestPrefixMatch table.tree srvid.sid prefixBits
        (some ruleMatch.func) with
    | none => return none
    | some n =>
      let node ← table.tree.heap.read n
      if ruleMatch ≠ .matchExact ∨ node.prefixBits = prefixBits then
        let se ← getService table n
        return some se
      return none

/-! ## Reading an entry's id back -/

/-- `service_get_id`: the prefix of the node, in an id of zeros. -/
def serviceGetId (table : ServiceTable) (se : ServiceEntry) : Except Fault (List UInt8) :=
  match se.node with
  | none => .error .null
  | some n => do
    let node ← table.tree.heap.read n
    let size := prefixSize node.prefixBits
    if node.prefixBytes.length < size ∨ serviceIdSize < size then
      .error .bounds
    return node.prefixBytes.take size ++ List.replicate (serviceIdSize - size) 0

/-- `service_get_prefix_bits`, an `unsigned char`. -/
def serviceGetPrefixBits (table : ServiceTable) (se : ServiceEntry) :
    Except Fault UInt8 :=
  match se.node with
  | none => .error .null
  | some n => do
    let node ← table.tree.heap.read n
    return UInt8.ofNat node.prefixBits

def serviceTableModify (table : ServiceTable) (srvid : Option ServiceId) (prefixBits : Nat)
    (args : ModifyArgs) (alloc : Allocs) :
    Except Fault (Int × ServiceTable) :=
  match srvid with
  | none => return (-EINVAL, table)
  | some srvid => do
    match ← findExact table srvid (storedBits srvid prefixBits) with
    | none => return (-EINVAL, table)
    | some n =>
      let se ← getService table n
      let (ret, se) ← se.modifyTarget args alloc
      let table ← setService table n se
      return (ret, table)

def weightOrOne (weight : UInt32) : UInt32 :=
  if weight = 0 then 1 else weight

def serviceModify (table : ServiceTable) (srvid : Option ServiceId) (prefixBits : Nat)
    (args : ModifyArgs) (alloc : Allocs) :
    Except Fault (Int × ServiceTable) :=
  serviceTableModify table srvid prefixBits
    { args with weight := weightOrOne args.weight } alloc

/-- The calls that `service_table_add` turns down at once. -/
def invalidAdd (args : TargetArgs) : Bool :=
  match args.type with
  | .undefined => true
  | .forward => args.dstlen = 0 || args.dst.isNone
  | .demux => args.dstlen > 0
  | .delay => false
  | .drop => false
  | .unnamed _ => false

/-- The loop of `service_table_add` that looks for duplicates. -/
def findDuplicate (type : RuleType) (dst : Option Buf) (dstlen : Nat) :
    Nat → ServiceIter → Except Fault Bool
  | 0, _ => .error .fuel
  | fuel + 1, iter => do
    let (target, iter) ← serviceIterNext iter
    match target with
    | none => return false
    | some t =>
      let same ← isTarget t type dst dstlen
      if same || t.type = .drop || t.type = .delay then
        return true
      findDuplicate type dst dstlen fuel iter

/-- One round for each target of the set, and one to reach its end. -/
def ServiceIter.rounds (iter : ServiceIter) : Nat :=
  match iter.pos with
  | none => 1
  | some here => here.length + 1

section

variable (table : ServiceTable) (srvid : Option ServiceId) (prefixBits : Nat) (args : TargetArgs)

/-- The part of `service_table_add` for a prefix that has an entry. -/
def addToEntry (n : Ptr) (args : TargetArgs) (alloc : Allocs) :
    Except Fault (Int × ServiceTable) := do
  let se ← getService table n
  let (_, iter) := serviceIterInit se .all 0
  if ← findDuplicate args.type args.dst args.dstlen iter.rounds iter then
    return (-EEXIST, table)
  if args.dst.isSome || args.dstlen = 0 then
    let (ret, se) ← se.addTarget args alloc
    let table ← setService table n se
    return (ret, table)
  return (0, table)

/-- The part of `service_table_add` for a prefix without an entry. -/
def addEntry (srvid : ServiceId) (bits : Nat) (args : TargetArgs) (alloc : Allocs) :
    Except Fault (Int × ServiceTable) := do
  if !alloc.entry then
    return (-ENOMEM, table)
  let (ret, se) ← serviceEntryCreate.addTarget args alloc
  if ret < 0 then
    return (-ENOMEM, table)
  let (n, tree) ← bstInsertPrefix table.tree (some srvOps) (some se) srvid.sid bits
      alloc.node
  match n with
  | none => return (-ENOMEM, { table with tree })
  | some n =>
    let table ← setService { table with tree } n { se with node := some n }
    return (ret, { table with services := table.services + 1 })

def serviceTableAdd (alloc : Allocs) : Except Fault (Int × ServiceTable) :=
  match srvid with
  | none => return (-EINVAL, table)
  | some srvid =>
    if invalidAdd args then return (-EINVAL, table)
    else do
      let bits := storedBits srvid prefixBits
      match ← findExact table srvid bits with
      | some n => addToEntry table n args alloc
      | none => addEntry table srvid bits args alloc

def serviceAdd (alloc : Allocs) : Except Fault (Int × ServiceTable) :=
  serviceTableAdd table srvid prefixBits
    { args with weight := weightOrOne args.weight } alloc

end

section

variable (table : ServiceTable)

def serviceDel (srvid : ServiceId) (prefixBits : Nat) :
    Except Fault ServiceTable := do
  let (removed, tree) ← bstRemovePrefix table.tree srvid.sid prefixBits
  return { table with
    tree := tree
    services := if removed then table.services - 1 else table.services }

def releaseEntry (n : Ptr) :
    Except Fault ServiceTable := do
  let tree ← bstNodeRelease table.tree n
  return { table with tree, services := table.services - 1 }

/-- Store the changed entry, and release the node when the caller has found
the entry to be empty. -/
def settleEntry (n : Ptr) (se : ServiceEntry) (empty : Bool) :
    Except Fault ServiceTable := do
  let table ← setService table n se
  if empty then releaseEntry table n else return table

/-- The node is the one of the longest prefix, which need not be as long as
the prefix of the call. -/
def serviceDelTarget (srvid : ServiceId) (prefixBits : Nat)
    (type : RuleType) (dst : Option Buf) (dstlen : Nat) :
    Except Fault (Option TargetStats × ServiceTable) := do
  match ← bstFindLongestPrefix table.tree srvid.sid prefixBits with
  | none => return (none, table)
  | some n =>
    let se ← getService table n
    let (stats, se) ← se.removeTarget type dst dstlen
    let table ← settleEntry table n se (stats.isSome && se.targetSet.isEmpty)
    return (stats, table)

/-- `service_entry_remove_target`, for the entry held by a node. The entry's
own pointer says which node is released. -/
def serviceEntryRemoveTarget (holder : Ptr) (type : RuleType) (dst : Option Buf) (dstlen : Nat) :
    Except Fault (Option TargetStats × ServiceTable) := do
  let se ← getService table holder
  let (stats, se) ← se.removeTarget type dst dstlen
  let table ← setService table holder se
  if stats.isSome && se.targetSet.isEmpty then
    match se.node with
    | none => .error .null
    | some n =>
      let table ← releaseEntry table n
      return (stats, table)
  else
    return (stats, table)

/-- The entry is released only when exactly one target went. -/
def delDevFunc (devname : String) (n : Ptr) (table : ServiceTable) :
    Except Fault (Int × ServiceTable) := do
  let se ← getService table n
  let (ret, se) ← se.removeTargetByDev devname
  let table ← settleEntry table n se (ret = 1 && se.targetSet.isEmpty)
  return (ret, table)

def delTargetFunc (type : RuleType) (dst : Option Buf) (dstlen : Nat)
    (n : Ptr) (table : ServiceTable) :
    Except Fault (Int × ServiceTable) := do
  let se ← getService table n
  let (stats, se) ← se.removeTarget type dst dstlen
  let table ← settleEntry table n se (stats.isSome && se.targetSet.isEmpty)
  return (if stats.isSome then 1 else 0, table)

def forAllEntries (func : Ptr → ServiceTable → Except Fault (Int × ServiceTable)) :
    Except Fault (Int × ServiceTable) :=
  match table.tree.root with
  | none => return (0, table)
  | some root => bstSubtreeFunc ServiceTable.tree func root table

def serviceDelDevAll (devname : String) : Except Fault (Int × ServiceTable) :=
  forAllEntries table (delDevFunc devname)

def serviceDelTargetAll (type : RuleType) (dst : Option Buf) (dstlen : Nat) :
    Except Fault (Int × ServiceTable) :=
  forAllEntries table (delTargetFunc type dst dstlen)

end

end Serval
