import Serval.Sal.Resolve
import Serval.Support.Collect

/-!
# The control channel

`ctrl_recvmsg` and the handlers of `ctrl_handler.c` for the messages that add,
remove, modify and read the rules of the service table. A message is the
bytes that were received, and an access outside of them is a fault. Numbers
are in the order of a little-endian host.

A field that is passed by value is accessed through the record it is a part of,
up to its last byte. Of a field that is passed by a pointer the callee gets the
bytes that were received, and it accesses them as it goes; `memcmp` and `memcpy`
access all that they are told to. The reply is handed to at least one client,
the one that `ctrl_recvmsg` has just registered.
-/

namespace Serval

open Serval.Support

inductive CtrlmsgType where
  | register
  | unregister
  | resolve
  | addService
  | delService
  | modService
  | getService
  | serviceStat
  | capabilities
  | migrate
  | delayNotify
  | delayVerdict
  | dummy
  deriving DecidableEq, Repr

/-- The values below `_CTRLMSG_TYPE_MAX`. -/
def CtrlmsgType.ofCode : Nat → Option CtrlmsgType
  | 0 => some .register
  | 1 => some .unregister
  | 2 => some .resolve
  | 3 => some .addService
  | 4 => some .delService
  | 5 => some .modService
  | 6 => some .getService
  | 7 => some .serviceStat
  | 8 => some .capabilities
  | 9 => some .migrate
  | 10 => some .delayNotify
  | 11 => some .delayVerdict
  | 12 => some .dummy
  | _ => none

inductive CtrlmsgRetval where
  | ok
  | error
  | noentry
  | malformed
  deriving DecidableEq, Repr

def CtrlmsgRetval.code : CtrlmsgRetval → UInt8
  | .ok => 0
  | .error => 1
  | .noentry => 2
  | .malformed => 3

/-- `sizeof(struct ctrlmsg_service)`, which is also that of
`struct ctrlmsg_service_info_stat`. -/
def ctrlmsgServiceSize : Nat := 12

def serviceInfoSize : Nat := 73

def serviceInfoStatSize : Nat := 101

def ctrlmsgServiceNumLen (num : Nat) : Nat := ctrlmsgServiceSize + num * serviceInfoSize

def ctrlmsgServiceInfoStatNumLen (num : Nat) : Nat := ctrlmsgServiceSize + num * serviceInfoStatSize

/-- `CTRLMSG_SERVICE_NUM`, in 64 bits, as an `unsigned int`. -/
def ctrlmsgServiceNum (len : Nat) : Nat :=
  (2 ^ 64 + len - ctrlmsgServiceSize) % 2 ^ 64 / serviceInfoSize % 2 ^ 32

def readLen (cm : List UInt8) : Except Fault Nat := do
  let bytes ← Support.readBytes cm 2 2
  .ok (leNat bytes)

def setRetval (cm : List UInt8) (retval : CtrlmsgRetval) : Except Fault (List UInt8) :=
  writeBytes cm 1 [retval.code]

def setLen (cm : List UInt8) (len : Nat) : Except Fault (List UInt8) :=
  writeBytes cm 2 (leBytes 2 len)

/-- What the message has of `service[i]`. -/
def serviceAt (cm : List UInt8) (i : Nat) : List UInt8 :=
  (cm.drop (ctrlmsgServiceNumLen i)).take serviceInfoSize

def access (record : List UInt8) (count : Nat) : Except Fault (List UInt8) :=
  if count ≤ record.length then .ok (record.take count) else .error .bounds

def field (record : List UInt8) (offset size : Nat) : List UInt8 := (record.drop offset).take size

def RuleType.ofCode : Nat → RuleType
  | 0 => .undefined
  | 1 => .forward
  | 2 => .demux
  | 3 => .delay
  | 4 => .drop
  | code => .unnamed (UInt16.ofNat code)

section

variable (entry : List UInt8)

def infoType : RuleType := RuleType.ofCode (leNat (field entry 0 2))

def infoPrefixBits : Nat := leNat (field entry 2 1)

def infoFlags : UInt16 := UInt16.ofNat (leNat (field entry 3 1))

def infoIfIndex : UInt32 := UInt32.ofNat (leNat (field entry 4 4))

def infoPriority : UInt32 := UInt32.ofNat (leNat (field entry 8 4))

def infoWeight : UInt32 := UInt32.ofNat (leNat (field entry 12 4))

def infoTaasAuth : UInt64 := UInt64.ofNat (leNat (field entry 16 8))

def infoAddress : List UInt8 := field entry 32 4

def infoSrvid : ServiceId where
  sid := (field entry 36 serviceIdSize ++ List.replicate serviceIdSize 0).take serviceIdSize
  size := by simp

def infoNatSet : UInt8 := UInt8.ofNat (leNat (field entry 68 1))

def infoNatSrcAddress : List UInt8 := field entry 69 4

/-- How much of a record is accessed: up to the end of one of its fields, or all
of it. -/
def uptoType : Nat := 2
def uptoPrefixBits : Nat := 3
def uptoIfIndex : Nat := 8
def uptoWeight : Nat := 16
def uptoAddress : Nat := 36
def uptoSrvid : Nat := 68
def uptoNatSet : Nat := 69

def requestPrefixBits : Nat :=
  if infoPrefixBits entry > 0 then infoPrefixBits entry
  else serviceIdMaxPrefixBits

end

/-! ## The handlers' surroundings -/

/-- `resolveDevImpl` is missing on a host without devices, where nothing is compared with the
address. `printk` is set when `PRINTK` prints, which it does in the kernel only; `alloc` when the
memory of a reply can be allocated. -/
structure CtrlEnv where
  resolveDevImpl : Option (List UInt8 → UInt32 → Option (Ptr × String))
  printk : Bool
  alloc : Bool

def resolveDev (env : CtrlEnv) (entry : List UInt8) : Except Fault (Option (Ptr × String)) := do
  let start ← access entry uptoIfIndex
  match env.resolveDevImpl with
  | none => .ok none
  | some impl => do
    let address ← access entry uptoAddress
    .ok (impl (infoAddress address) (infoIfIndex start))

def makeTarget : Option (Ptr × String) → TargetOut
  | none => .null
  | some (dev, name) => .dev dev name

structure CtrlDone where
  ret : Int
  sent : Option (List UInt8)
  table : ServiceTable

/-- The bytes that `sendto` is given. -/
def ctrlSendmsg (cm : List UInt8) : Except Fault (List UInt8) := do
  let len ← readLen cm
  Support.readBytes cm 0 len

def sendRetval (cm : List UInt8) (retval : CtrlmsgRetval) (ret : Int)
    (table : ServiceTable) : Except Fault CtrlDone := do
  let cm ← setRetval cm retval
  let sent ← ctrlSendmsg cm
  .ok ⟨ret, some sent, table⟩

/-- The end of the handlers that answer with the records in the message. -/
def sendServices (cm : List UInt8) (index : Nat) (table : ServiceTable) :
    Except Fault CtrlDone :=
  if index = 0 then
    sendRetval cm .noentry 0 table
  else do
    let cm ← setLen cm (ctrlmsgServiceNumLen index)
    sendRetval cm .ok 0 table

/-- The record moves towards the front of the message, unless all those in
front of it stay. -/
def copyOver (cm : List UInt8) (index i : Nat) (entry : List UInt8) : Except Fault (List UInt8) :=
  if index < i then do
    let entry ← access entry serviceInfoSize
    writeBytes cm (ctrlmsgServiceNumLen index) entry
  else
    .ok cm

def addArgs (entry : List UInt8) (out : TargetOut) : TargetArgs where
  type := infoType entry
  flags := infoFlags entry
  priority := infoPriority entry
  weight := infoWeight entry
  taasAuth := infoTaasAuth entry
  dst := some ⟨0, infoAddress entry⟩
  dstlen := inAddrSize
  natSet := infoNatSet entry
  natSrcAddr := some ⟨0, infoNatSrcAddress entry⟩
  out := out

/-- Only the device of a `FORWARD` rule is looked up. -/
def addDev (env : CtrlEnv) (entry : List UInt8) : Except Fault (Option (Ptr × String)) := do
  let start ← access entry uptoType
  if infoType start = .forward then resolveDev env entry else .ok none

/-- One round of the loop of `ctrl_handle_add_service_msg`: whether the rule
was added. -/
def addService (env : CtrlEnv) (table : ServiceTable) (entry : List UInt8) :
    Except Fault (Bool × ServiceTable) := do
  let dev ← addDev env entry
  if infoType entry = .forward && dev.isNone then
    .ok (false, table)
  else if env.printk && dev.isNone then
    -- `PRINTK` is passed the name of the device.
    .error .null
  else do
    -- The last argument by value is `nat_set`, behind the id and the address.
    let _ ← access entry uptoNatSet
    let (err, table) ← serviceAdd table (some (infoSrvid entry)) (requestPrefixBits entry)
        (addArgs entry (makeTarget dev)) Allocs.succeed
    .ok (0 < err, table)

def addBody (env : CtrlEnv) (i index : Nat) : List UInt8 × ServiceTable →
      Except Fault (Bool × (List UInt8 × ServiceTable))
  | (cm, table) => do
    let (added, table) ← addService env table (serviceAt cm i)
    if added then do
      let cm ← copyOver cm index i (serviceAt cm i)
      .ok (true, (cm, table))
    else
      .ok (false, (cm, table))

def ctrlHandleAddServiceMsg (env : CtrlEnv) (table : ServiceTable) (cm : List UInt8) :
    Except Fault CtrlDone := do
  let len ← readLen cm
  let (index, (cm, table)) ← countLoop (addBody env) (ctrlmsgServiceNum len) 0 0 (cm, table)
  sendServices cm index table

/-- `service_find_exact`: the node of the entry. -/
def serviceFindExact (table : ServiceTable) (srvid : ServiceId) (bits : Nat) :
    Except Fault (Option Ptr) := do
  match ← bstFindLongestPrefixMatch table.tree srvid.sid bits
      (some serviceEntryGlobalMatch) with
  | none => .ok none
  | some n => do
    let node ← table.tree.heap.read n
    .ok (if node.prefixBits = bits then some n else none)

def delPrefixBits (entry : List UInt8) : Nat :=
  if (infoSrvid entry).sid = defaultService.sid then infoPrefixBits entry
  else requestPrefixBits entry

/-- One round of the loop of `ctrl_handle_del_service_msg`: the statistics of
the target that was removed. -/
def delService (table : ServiceTable) (entry : List UInt8) :
    Except Fault (Option TargetStats × ServiceTable) := do
  -- The whole id is compared with that of the default service.
  let entry ← access entry uptoSrvid
  match ← serviceFindExact table (infoSrvid entry) (delPrefixBits entry) with
  | none => .ok (none, table)
  | some n =>
    serviceEntryRemoveTarget table n (infoType entry)
      (some ⟨0, infoAddress entry⟩) inAddrSize

def statBytes (counter : Int) : List UInt8 := leBytes 4 (counter % 2 ^ 32).toNat

/-- From `duration_sec` to `bytes_dropped`; `tstat` has no durations. -/
def delStat (stats : TargetStats) : List UInt8 :=
  statBytes 0 ++ statBytes 0 ++ statBytes stats.packetsResolved ++
    statBytes stats.bytesResolved ++ statBytes stats.packetsDropped ++
    -- The source has `tstat.packets_dropped` here.
    statBytes stats.packetsDropped

def copyService (cms : List UInt8) (index i : Nat) (entry : List UInt8) :
    Except Fault (List UInt8) :=
  if index < i then do
    let entry ← access entry serviceInfoSize
    writeBytes cms (ctrlmsgServiceInfoStatNumLen index) entry
  else
    .ok cms

def delBody (cm : List UInt8) (i index : Nat) : List UInt8 × ServiceTable →
      Except Fault (Bool × (List UInt8 × ServiceTable))
  | (cms, table) => do
    let (stats, table) ← delService table (serviceAt cm i)
    match stats with
    | none => .ok (false, (cms, table))
    | some stats => do
      let cms ← writeBytes cms
          (ctrlmsgServiceInfoStatNumLen index + serviceInfoSize)
          (delStat stats)
      let cms ← copyService cms index i (serviceAt cm i)
      .ok (true, (cms, table))

/-- The header of the reply; both transaction ids are those of the request. -/
def delHeader (cm cms : List UInt8) (index : Nat) : Except Fault (List UInt8) := do
  let cms ← writeBytes cms 0 [4]
  let xids ← Support.readBytes cm 4 8
  let cms ← writeBytes cms 4 xids
  setLen cms (ctrlmsgServiceInfoStatNumLen index)

def ctrlHandleDelServiceMsg (env : CtrlEnv) (table : ServiceTable) (cm : List UInt8) :
    Except Fault CtrlDone := do
  let len ← readLen cm
  let num := ctrlmsgServiceNum len
  if !env.alloc then
    sendRetval cm .error (-ENOMEM) table
  else do
    let cms := List.replicate (ctrlmsgServiceInfoStatNumLen num) 0
    let (index, (cms, table)) ← countLoop (delBody cm) num 0 0 (cms, table)
    if index = 0 then
      sendRetval cm .noentry 0 table
    else do
      let cms ← delHeader cm cms index
      sendRetval cms .ok 0 table

def modArgs (old new : List UInt8) : ModifyArgs where
  type := .forward
  flags := infoFlags old
  priority := infoPriority new
  weight := infoWeight new
  dst := some ⟨0, infoAddress old⟩
  dstlen := inAddrSize
  newDst := some ⟨0, infoAddress new⟩
  newDstlen := inAddrSize

/-- One round of the loop of `ctrl_handle_mod_service_msg`: whether the rule
was modified. -/
def modService (env : CtrlEnv) (table : ServiceTable) (entryOld entryNew : List UInt8) :
    Except Fault (Bool × ServiceTable) := do
  let _ ← access entryOld uptoPrefixBits
  match ← resolveDev env entryOld with
  | none => .ok (false, table)
  | some _ => do
    -- The callee compares the whole id with that of the default service.
    let old ← access entryOld uptoSrvid
    let _ ← access entryNew uptoWeight
    let (err, table) ← serviceModify table (some (infoSrvid old)) (requestPrefixBits old)
        (modArgs old entryNew) Allocs.succeed
    .ok (0 < err, table)

def modBody (env : CtrlEnv) (pair index : Nat) : List UInt8 × ServiceTable →
      Except Fault (Bool × (List UInt8 × ServiceTable))
  | (cm, table) => do
    let i := 2 * pair
    let (modified, table) ← modService env table (serviceAt cm i) (serviceAt cm (i + 1))
    if modified then do
      let cm ← copyOver cm index i (serviceAt cm (i + 1))
      .ok (true, (cm, table))
    else
      .ok (false, (cm, table))

def ctrlHandleModServiceMsg (env : CtrlEnv) (table : ServiceTable) (cm : List UInt8) :
    Except Fault CtrlDone := do
  let len ← readLen cm
  let num := ctrlmsgServiceNum len
  if num < 2 ∨ num % 2 ≠ 0 then
    .ok ⟨0, none, table⟩
  else do
    let (index, (cm, table)) ← countLoop (modBody env) (num / 2) 0 0 (cm, table)
    sendServices cm index table

/-- `service_iter_get_flags` and `service_iter_get_priority`, behind a target
that was found. -/
def iterFlags (iter : ServiceIter) : Nat := iter.set.elim 0 fun set => set.flags.toNat

def iterPriority (iter : ServiceIter) : Nat := iter.set.elim 0 fun set => set.priority.toNat

def getRecord (table : ServiceTable) (se : ServiceEntry) (cres : List UInt8) (i : Nat)
    (t : Target) (iter : ServiceIter) : Except Fault (List UInt8) := do
  let record := ctrlmsgServiceNumLen i
  let srvid ← serviceGetId table se
  let cres ← writeBytes cres (record + 36) srvid
  let cres ← writeBytes cres (record + 32) t.dst
  let bits ← serviceGetPrefixBits table se
  let cres ← writeBytes cres (record + 2) [bits]
  let cres ← writeBytes cres (record + 3) (leBytes 1 (iterFlags iter))
  let cres ← writeBytes cres (record + 12) (leBytes 4 t.weight.toNat)
  writeBytes cres (record + 8) (leBytes 4 (iterPriority iter))

def getTargets (table : ServiceTable) (se : ServiceEntry) :
    Nat → ServiceIter → List UInt8 → Nat → Except Fault (Nat × List UInt8)
  | 0, _, _, _ => .error .fuel
  | fuel + 1, iter, cres, i => do
    let (t, iter) ← serviceIterNext iter
    match t with
    | none => .ok (i, cres)
    | some t => do
      let cres ← getRecord table se cres i t iter
      getTargets table se fuel iter cres (i + 1)

def SVSF_INVALID : UInt8 := 255

def getReply (table : ServiceTable) (se : ServiceEntry) (cm : List UInt8) :
    Except Fault CtrlDone := do
  let size := ctrlmsgServiceNumLen se.count.toNat
  let cres ← writeBytes (List.replicate size 0) 0 [6]
  let cres ← setLen cres size
  let xids ← Support.readBytes cm 4 8
  let cres ← writeBytes cres 4 xids
  let (_, iter) := serviceIterInit se .forward 0
  let (i, cres) ← getTargets table se iter.rounds iter cres 0
  sendRetval cres (if i = 0 then .noentry else .ok) 0 table

def ctrlHandleGetServiceMsg (env : CtrlEnv) (table : ServiceTable) (cm : List UInt8) :
    Except Fault CtrlDone := do
  let _ ← access (serviceAt cm 0) uptoPrefixBits
  match ← serviceFind table (field (serviceAt cm 0) 36 serviceIdSize)
      (requestPrefixBits (serviceAt cm 0)) with
  | some se =>
    if !env.alloc then sendRetval cm .error (-ENOMEM) table
    else getReply table se cm
  | none => do
    let cm ← writeBytes cm (ctrlmsgServiceNumLen 0 + 3) [SVSF_INVALID]
    sendRetval cm .noentry 0 table

/-- The bytes of `rbuf` that `recvmsg` has filled. The handlers of other
messages do not look at services. -/
def ctrlRecvmsg (env : CtrlEnv) (table : ServiceTable) (cm : List UInt8) :
    Except Fault CtrlDone := do
  let type ← readByte cm 0
  match CtrlmsgType.ofCode type.toNat with
  | none => .ok ⟨-1, none, table⟩
  | some .addService => ctrlHandleAddServiceMsg env table cm
  | some .delService => ctrlHandleDelServiceMsg env table cm
  | some .modService => ctrlHandleModServiceMsg env table cm
  | some .getService => ctrlHandleGetServiceMsg env table cm
  | some _ => .ok ⟨0, none, table⟩

end Serval
