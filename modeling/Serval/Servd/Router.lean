import Serval.Servd.Timers

/-!
# The daemon of a service router

The part of `servd.c` that takes registrations at a router. A registration is
kept in a list, with a timer; the rule for it is kept by the stack, to which
the daemon sends its requests. Requests to the stack are carried out at once
when they can be.
-/

namespace Serval.Servd

open Serval.Support

structure Rule where
  srvid : List UInt8
  prefixBits : UInt16
  ip : UInt32
  deriving DecidableEq, Repr

/-- `hostctrl_service_add`; a rule is not added twice. -/
def hostctrlServiceAdd (rules : List Rule) (rule : Rule) : List Rule :=
  if rule ∈ rules then rules else rules ++ [rule]

/-- `hostctrl_service_modify`, when there is a rule to modify. -/
def hostctrlServiceModify (rules : List Rule) (old new : Rule) : List Rule := rules.replace old new

def hostctrlServiceRemove (rules : List Rule) (rule : Rule) : List Rule := rules.erase rule

inductive ServiceType where
  | local
  | remote
  deriving DecidableEq, Repr

/-- `struct registration`; `timer` is the address of its timer. -/
structure Registration where
  type : ServiceType
  srvid : List UInt8
  prefixBits : UInt16
  ipaddr : UInt32
  timer : Ptr
  deriving DecidableEq, Repr

def Registration.rule (r : Registration) : Rule := ⟨r.srvid, r.prefixBits, r.ipaddr⟩

def LOCAL_SERVICE_TIMEOUT : Nat := 20

def REMOTE_SERVICE_TIMEOUT : Nat := LOCAL_SERVICE_TIMEOUT * 2 + 10

/-- `struct servd_context` of a router, with the rules of its stack; `next` is
the address of the next registration. -/
structure ServdContext where
  tq : TimerQueue
  reglist : List Registration
  numRegs : UInt32
  next : Ptr
  rules : List Rule

def ServdContext.initial : ServdContext where
  tq := timerQueueInit
  reglist := []
  numRegs := 0
  next := 0
  rules := []

/-- What the surroundings contribute to a call: whether a registration can be
allocated, whether the timer queue can grow, and what the clock of the calling
thread reads. -/
structure Surroundings where
  malloc : Bool
  grow : Bool
  clock : Nat
  deriving DecidableEq, Repr

/-- `registration_add`; at a router every registration times out as a remote
one does. -/
def registrationAdd (ctx : ServdContext) (type : ServiceType) (rule : Rule)
    (env : Surroundings) : ServdContext :=
  if !env.malloc then ctx
  else
    let r : Registration := ⟨type, rule.srvid, rule.prefixBits, rule.ip, ctx.next⟩
    { ctx with
      reglist := ctx.reglist ++ [r]
      numRegs := ctx.numRegs + 1
      next := ctx.next + 1
      tq := (timerScheduleSecs ctx.tq r.timer REMOTE_SERVICE_TIMEOUT env.clock env.grow).2 }

def registrationTimeoutRemote (ctx : ServdContext) (r : Registration) :
    ServdContext :=
  { ctx with rules := hostctrlServiceRemove ctx.rules r.rule }

def isOldRecord (rule : Rule) (r : Registration) : Bool := r.type = .remote && r.rule = rule

/-- The loop of `registration_update_remote`. -/
def updateLoop (old : Rule) (newIp : UInt32) (env : Surroundings) : List Registration → TimerQueue →
      Bool × List Registration × TimerQueue
  | [], tq => (false, [], tq)
  | r :: rest, tq =>
    if isOldRecord old r then
      let tq := (timerMod tq r.timer (timerSecs REMOTE_SERVICE_TIMEOUT).toUInt64 env.clock env.grow).2
      let (_, rest, tq) := updateLoop old newIp env rest tq
      (true, { r with ipaddr := newIp } :: rest, tq)
    else
      let (ret, rest, tq) := updateLoop old newIp env rest tq
      (ret, r :: rest, tq)

def registrationUpdateRemote
    (ctx : ServdContext) (old : Rule) (newIp : UInt32) (env : Surroundings) :
    Bool × ServdContext :=
  let (ret, reglist, tq) := updateLoop old newIp env ctx.reglist ctx.tq
  (ret, { ctx with reglist := reglist, tq := tq })

/-- `registration_exists`, which is given an address and does not look at
it. -/
def registrationExists (ctx : ServdContext) (type : ServiceType) (srvid : List UInt8)
    (_ip : UInt32) : Bool :=
  ctx.reglist.any fun r => r.srvid = srvid && r.type = type

section

variable (ctx : ServdContext)

def registerNew (rule : Rule) (env : Surroundings) :
    ServdContext :=
  let ctx := registrationAdd ctx .remote rule env
  { ctx with rules := hostctrlServiceAdd ctx.rules rule }

def handleIncomingRegistration (srvid : List UInt8) (prefixBits : UInt16)
    (remoteIp oldIp : Option UInt32) (env : Surroundings) : ServdContext :=
  match remoteIp with
  | none => ctx
  | some ip =>
    match oldIp with
    | none => registerNew ctx ⟨srvid, prefixBits, ip⟩ env
    | some oldIp =>
      let (updated, ctx) := registrationUpdateRemote ctx ⟨srvid, prefixBits, oldIp⟩ ip env
      if updated then
        { ctx with
          rules := hostctrlServiceModify ctx.rules ⟨srvid, prefixBits, oldIp⟩
              ⟨srvid, prefixBits, ip⟩ }
      else
        registerNew ctx ⟨srvid, prefixBits, ip⟩ env

def handleIncomingUnregistration (rule : Rule) :
    ServdContext :=
  if registrationExists ctx .remote rule.srvid rule.ip then
    { ctx with rules := hostctrlServiceRemove ctx.rules rule }
  else ctx

def ServdContext.owner (t : Ptr) :
    Option Registration :=
  ctx.reglist.find? fun r => r.timer = t

/-- `timer_handle_timeout` in the loop of `main`, with the callback. -/
def handleTimeout : ServdContext :=
  match timerHandleTimeout ctx.tq with
  | none => ctx
  | some (t, tq) =>
    let ctx := { ctx with tq := tq }
    match ctx.owner t with
    | some r => registrationTimeoutRemote ctx r
    | none => ctx

end

inductive ServdEvent where
  | registration (srvid : List UInt8) (prefixBits : UInt16)
      (remoteIp oldIp : Option UInt32) (env : Surroundings)
  | unregistration (rule : Rule)
  | timeout
  deriving DecidableEq, Repr

def servdHandle (ctx : ServdContext) : ServdEvent → ServdContext
  | .registration srvid prefixBits remoteIp oldIp env =>
    handleIncomingRegistration ctx srvid prefixBits remoteIp oldIp env
  | .unregistration rule => handleIncomingUnregistration ctx rule
  | .timeout => handleTimeout ctx

end Serval.Servd
