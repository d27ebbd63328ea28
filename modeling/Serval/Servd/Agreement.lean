import Mathlib.Algebra.Group.Nat.Defs
import Mathlib.Data.List.Nodup
import Mathlib.Logic.Function.Basic
import Serval.Servd.Router
import Serval.Support.Run

/-!
# Registrations and rules

The rules that a router has given to its stack against what has happened to
the services: a rule is there when the last event for it was a registration
or a refresh that is not too old.
-/

namespace Serval.Servd

open Serval.Support

/-- A router at some time, and for each rule the time of the last event for
it, when that was a registration or a refresh. -/
structure RouterRun where
  now : Nat
  ctx : ServdContext
  last : Rule → Option Nat

def RouterRun.start (now : Nat) : RouterRun := ⟨now, .initial, fun _ => none⟩

def ServdContext.fires (ctx : ServdContext) : Option Registration :=
  ctx.tq.queue.map[0]?.bind ctx.owner

/-- An event ends what it is about, unless it is a registration; a refresh
with an old address ends the rule for that address. -/
def noted (ctx : ServdContext) (last : Rule → Option Nat) (time : Nat) :
    ServdEvent → Rule → Option Nat
  | .registration srvid prefixBits remoteIp oldIp _ =>
    match remoteIp, oldIp with
    | none, _ => last
    | some ip, none =>
      Function.update last ⟨srvid, prefixBits, ip⟩ (some time)
    | some ip, some oldIp =>
      Function.update
        (Function.update last ⟨srvid, prefixBits, oldIp⟩ none)
        ⟨srvid, prefixBits, ip⟩ (some time)
  | .unregistration rule => Function.update last rule none
  | .timeout =>
    match ctx.fires with
    | some r => Function.update last r.rule none
    | none => last

def routerStep (s : RouterRun) (event : Nat × ServdEvent) :
    Except Fault RouterRun :=
  .ok
    { now := event.1
      ctx := servdHandle s.ctx event.2
      last := noted s.ctx s.last event.1 event.2 }

/-- `REMOTE_SERVICE_TIMEOUT`, in nanoseconds. -/
def lifetime : Nat := REMOTE_SERVICE_TIMEOUT * 1000000 * 1000

/-- The rules are the registrations that have not expired. -/
structure Agreement (s : RouterRun) : Prop where
  rules :
    ∀ rule, rule ∈ s.ctx.rules ↔
      ∃ time, s.last rule = some time ∧ s.now < time + lifetime
  numRegs : s.ctx.numRegs.toNat = s.ctx.reglist.length

/-! ## Events in order -/

section

variable (ctx : ServdContext)

def NoneDue (time : Nat) (fires : Option Ptr) : Prop :=
  ∀ t ∈ ctx.tq.queue.map, some t ≠ fires → time < (ctx.tq.timers t).timeout

def Settled (rule : Rule) : Prop :=
  ∀ r ∈ ctx.reglist, r.rule = rule → timerScheduled ctx.tq r.timer = false

structure CanRegister (rule : Rule) (env : Surroundings) : Prop where
  malloc : env.malloc = true
  room : ctx.tq.queue.map.length < ctx.tq.queue.maxSize ∨ env.grow = true
  count : ctx.reglist.length + 1 < 2 ^ 32
  settled : Settled ctx rule

/-- The rule is still there, it has one record, and the index of its timer is
right. -/
structure CanRefresh (old new : Rule) : Prop where
  present : old ∈ ctx.rules
  record :
    ∃ r, ctx.reglist.filter (isOldRecord old) = [r] ∧
      ctx.tq.queue.map[(ctx.tq.queue.items r.timer).index]? = some r.timer
  settled : new = old ∨ Settled ctx new

private def EventInOrder (time : Nat) : ServdEvent → Prop
  | .registration _ _ none _ _ => NoneDue ctx time none
  | .registration srvid prefixBits (some ip) none env =>
    NoneDue ctx time none ∧ env.clock = time ∧ CanRegister ctx ⟨srvid, prefixBits, ip⟩ env
  | .registration srvid prefixBits (some ip) (some oldIp) env =>
    NoneDue ctx time none ∧ env.clock = time ∧
      if ctx.reglist.any (isOldRecord ⟨srvid, prefixBits, oldIp⟩) then
        CanRefresh ctx ⟨srvid, prefixBits, oldIp⟩ ⟨srvid, prefixBits, ip⟩
      else
        CanRegister ctx ⟨srvid, prefixBits, ip⟩ env
  | .unregistration _ => NoneDue ctx time none
  | .timeout => NoneDue ctx time ctx.tq.queue.map[0]?

end

def InOrder (s : RouterRun) (event : Nat × ServdEvent) : Prop :=
  s.now ≤ event.1 ∧ EventInOrder s.ctx event.1 event.2

/-! ## What is kept -/

structure Kept (s : RouterRun) : Prop where
  sound : s.ctx.tq.Sound
  remote : ∀ r ∈ s.ctx.reglist, r.type = .remote
  fresh : ∀ r ∈ s.ctx.reglist, r.timer < s.ctx.next
  distinct : (s.ctx.reglist.map Registration.timer).Nodup
  owned : ∀ t ∈ s.ctx.tq.queue.map, ∃ r ∈ s.ctx.reglist, r.timer = t
  nodup : s.ctx.rules.Nodup
  known : ∀ rule ∈ s.ctx.rules, ∃ r ∈ s.ctx.reglist, r.rule = rule ∧ r.timer ∈ s.ctx.tq.queue.map
  noted : ∀ rule, rule ∈ s.ctx.rules ↔ (s.last rule).isSome = true
  timed :
    ∀ r ∈ s.ctx.reglist, r.timer ∈ s.ctx.tq.queue.map →
      ∀ time, s.last r.rule = some time → (s.ctx.tq.timers r.timer).timeout = time + lifetime
  ahead : ∀ t ∈ s.ctx.tq.queue.map, s.now < (s.ctx.tq.timers t).timeout
  count : s.ctx.numRegs.toNat = s.ctx.reglist.length

private theorem kept_start (now : Nat) : Kept (.start now) where
  sound := timerQueueInit_sound
  remote := by simp [RouterRun.start, ServdContext.initial]
  fresh := by simp [RouterRun.start, ServdContext.initial]
  distinct := List.nodup_nil
  owned := by simp [RouterRun.start, ServdContext.initial, timerQueueInit]
  nodup := List.nodup_nil
  known := by simp [RouterRun.start, ServdContext.initial]
  noted := by simp [RouterRun.start, ServdContext.initial]
  timed := by simp [RouterRun.start, ServdContext.initial]
  ahead := by simp [RouterRun.start, ServdContext.initial, timerQueueInit]
  count := rfl

variable {old : Rule} {newIp : UInt32} {reglist : List Registration}
    {env : Surroundings} {r : Registration}

theorem hostctrlServiceModify_perm {rules : List Rule} (new : Rule) (present : old ∈ rules) :
    (hostctrlServiceModify rules old new).Perm (new :: rules.erase old) := by
  obtain ⟨before, behind, rfl, first⟩ := List.eq_append_cons_of_mem present
  rw [hostctrlServiceModify, List.replace_append_right first, List.replace_cons_self,
    List.erase_append_right _ first,
    List.erase_cons_head]
  exact List.perm_middle

private def refreshed (old : Rule) (newIp : UInt32) (r : Registration) :
    Registration :=
  if isOldRecord old r then { r with ipaddr := newIp } else r

private theorem refreshed_timer (old : Rule) (newIp : UInt32) (r : Registration) :
    (refreshed old newIp r).timer = r.timer := by
  unfold refreshed
  split <;> rfl

theorem updateLoop_unknown {tq : TimerQueue} (unknown : reglist.filter (isOldRecord old) = []) :
    updateLoop old newIp env reglist tq = (false, reglist.map (refreshed old newIp), tq) := by
  induction reglist with
  | nil => rfl
  | cons r rest ih =>
    rw [List.filter_cons] at unknown
    split at unknown
    · nomatch unknown
    · next other =>
        rw [updateLoop, if_neg other, ih unknown, List.map_cons, refreshed, if_neg other]

theorem updateLoop_single {tq : TimerQueue} (single : reglist.filter (isOldRecord old) = [r]) :
    updateLoop old newIp env reglist tq = (true, reglist.map (refreshed old newIp),
        (timerMod tq r.timer (timerSecs REMOTE_SERVICE_TIMEOUT).toUInt64 env.clock env.grow).2) := by
  induction reglist with
  | nil => nomatch single
  | cons first rest ih =>
    rw [List.filter_cons] at single
    split at single
    · next here =>
        obtain ⟨rfl, unknown⟩ := List.cons.inj single
        rw [List.map_cons, refreshed]
        simp only [updateLoop, if_pos here, updateLoop_unknown unknown]
    · next other =>
        rw [updateLoop, if_neg other, ih single, List.map_cons, refreshed, if_neg other]

private theorem map_refreshed_unknown (unknown : reglist.filter (isOldRecord old) = []) :
    reglist.map (refreshed old newIp) = reglist := by
  calc reglist.map (refreshed old newIp) = reglist.map id := List.map_congr_left fun r member =>
          if_neg (List.filter_eq_nil_iff.mp unknown r member)
    _ = reglist := List.map_id reglist

namespace Kept

variable {s : RouterRun} {time : Nat}

private theorem agreement (kept : Kept s) : Agreement s where
  rules := by
    intro rule
    constructor
    · intro present
      obtain ⟨since, noted⟩ := Option.isSome_iff_exists.mp ((kept.noted rule).mp present)
      obtain ⟨r, member, rfl, pending⟩ := kept.known rule present
      refine ⟨since, noted, ?_⟩
      have ends := kept.timed r member pending since noted
      have ahead := kept.ahead r.timer pending
      omega
    · rintro ⟨since, noted, -⟩
      rw [kept.noted rule, noted]
      rfl
  numRegs := kept.count

variable {r : Registration} {env : Surroundings}

private theorem same_of_timer (kept : Kept s) {r' : Registration}
    (member : r ∈ s.ctx.reglist) (member' : r' ∈ s.ctx.reglist)
    (same : r.timer = r'.timer) : r = r' :=
  List.inj_on_of_nodup_map kept.distinct member member' same

theorem owner_eq (kept : Kept s) (member : r ∈ s.ctx.reglist) : s.ctx.owner r.timer = some r := by
  cases found : s.ctx.owner r.timer with
  | none =>
    have absent := List.find?_eq_none.mp found r member
    simp at absent
  | some r' =>
    have same := List.find?_some found
    rw [decide_eq_true_eq] at same
    rw [kept.same_of_timer (List.mem_of_find?_eq_some found) member same]

variable {rule : Rule}

theorem absent_of_settled (kept : Kept s) (settled : Settled s.ctx rule) : rule ∉ s.ctx.rules := by
  intro present
  obtain ⟨r, member, same, pending⟩ := kept.known rule present
  have idle := settled r member same
  rw [kept.sound.active, idle] at pending
  exact Bool.false_ne_true pending

theorem last_of_absent (kept : Kept s) (absent : rule ∉ s.ctx.rules) : s.last rule = none := by
  rw [kept.noted, Bool.not_eq_true, Option.isSome_eq_false_iff, Option.isNone_iff_eq_none] at absent
  exact absent

theorem pass (kept : Kept s) (none : NoneDue s.ctx time none) : Kept { s with now := time } :=
  { kept with
    ahead := fun t member => none t member (by simp) }

private theorem drop (kept : Kept s) (rule : Rule) : Kept
      { s with
        ctx := { s.ctx with rules := s.ctx.rules.erase rule }
        last := Function.update s.last rule none } :=
  { kept with
    nodup := kept.nodup.erase rule
    known := fun other present =>
      kept.known other (List.mem_of_mem_erase present)
    noted := by
      intro other
      dsimp only
      rw [kept.nodup.mem_erase_iff]
      by_cases same : other = rule
      · subst same
        simp
      · rw [Function.update_of_ne same, ← kept.noted]
        exact and_iff_right same
    timed := by
      intro r member pending since since_eq
      dsimp only at since_eq
      by_cases same : r.rule = rule
      · rw [same, Function.update_self] at since_eq
        nomatch since_eq
      · rw [Function.update_of_ne same] at since_eq
        exact kept.timed r member pending since since_eq }

/-- The timer of a registration that has no rule any more is taken from the
queue. -/
theorem fire (kept : Kept s) (member : r ∈ s.ctx.reglist)
    (gone : r.rule ∉ s.ctx.rules) {tq : TimerQueue} (sound : tq.Sound)
    (queue : ∀ t, t ∈ tq.queue.map ↔ t ≠ r.timer ∧ t ∈ s.ctx.tq.queue.map)
    (timers : tq.timers = s.ctx.tq.timers) :
    Kept { s with ctx := { s.ctx with tq := tq } } :=
  { kept with
    sound := sound
    owned := fun t pending => kept.owned t ((queue t).mp pending).2
    known := by
      intro rule present
      obtain ⟨r', member', same, pending⟩ := kept.known rule present
      refine ⟨r', member', same, (queue r'.timer).mpr ⟨?_, pending⟩⟩
      intro sameTimer
      rw [← same, kept.same_of_timer member' member sameTimer] at present
      exact gone present
    timed := by
      intro r' member' pending
      rw [timers]
      exact kept.timed r' member' ((queue r'.timer).mp pending).2
    ahead := by
      intro t pending
      rw [timers]
      exact kept.ahead t ((queue t).mp pending).2 }

/-! ### Registrations -/

private theorem lifetime_eq : (timerSecs REMOTE_SERVICE_TIMEOUT * 1000).toInt = lifetime := by
  decide

private theorem next_idle (kept : Kept s) : s.ctx.next ∉ s.ctx.tq.queue.map := by
  intro pending
  obtain ⟨r, member, same⟩ := kept.owned s.ctx.next pending
  have below := kept.fresh r member
  rw [same] at below
  exact Nat.lt_irrefl _ below

/-- A rule is registered for the first time, or again after its timer has
fired. -/
theorem register (kept : Kept s) (can : CanRegister s.ctx rule env) (clock : env.clock = s.now) :
    Kept
      { s with
        ctx := registerNew s.ctx rule env
        last := Function.update s.last rule (some s.now) } := by
  have absent := kept.absent_of_settled can.settled
  have idle : timerScheduled s.ctx.tq s.ctx.next = false := by
    rw [← Bool.not_eq_true, ← kept.sound.active]
    exact kept.next_idle
  obtain ⟨tq, run, sound, queue, timeout, others⟩ :=
    @TimerQueue.Sound.schedule _ s.ctx.next env.clock env.grow kept.sound idle
      REMOTE_SERVICE_TIMEOUT can.room
  have added : registerNew s.ctx rule env =
        { s.ctx with
          tq := tq
          reglist := s.ctx.reglist ++ [⟨.remote, rule.srvid, rule.prefixBits, rule.ip, s.ctx.next⟩]
          numRegs := s.ctx.numRegs + 1
          next := s.ctx.next + 1
          rules := s.ctx.rules ++ [rule] } := by
    simp only [registerNew, registrationAdd, can.malloc, Bool.not_true, Bool.false_eq_true,
      if_false, run, hostctrlServiceAdd, if_neg absent]
  rw [added]
  constructor
  · exact sound
  · exact List.forall_mem_append.mpr ⟨kept.remote, List.forall_mem_singleton.mpr rfl⟩
  · exact List.forall_mem_append.mpr ⟨fun r member => Nat.lt_succ_of_lt (kept.fresh r member),
      List.forall_mem_singleton.mpr (Nat.lt_succ_self _)⟩
  · dsimp only
    rw [List.map_append, List.map_singleton, ← List.concat_eq_append]
    refine kept.distinct.concat fun listed => ?_
    obtain ⟨r, member, same⟩ := List.mem_map.mp listed
    exact Nat.ne_of_lt (kept.fresh r member) same
  · intro t pending
    rcases (queue t).mp pending with rfl | pending
    · exact ⟨_, List.mem_append_right _ (List.mem_singleton_self _), rfl⟩
    · obtain ⟨r, member, same⟩ := kept.owned t pending
      exact ⟨r, List.mem_append_left _ member, same⟩
  · dsimp only
    rw [← List.concat_eq_append]
    exact kept.nodup.concat absent
  · intro other present
    rw [List.mem_append, List.mem_singleton] at present
    rcases present with present | rfl
    · obtain ⟨r, member, same, pending⟩ := kept.known other present
      exact ⟨r, List.mem_append_left _ member, same, (queue _).mpr (Or.inr pending)⟩
    · exact ⟨_, List.mem_append_right _ (List.mem_singleton_self _), rfl,
        (queue _).mpr (Or.inl rfl)⟩
  · intro other
    dsimp only
    rw [List.mem_append, List.mem_singleton]
    by_cases same : other = rule
    · subst same
      simp
    · rw [Function.update_of_ne same, ← kept.noted]
      exact or_iff_left same
  · intro r member pending since since_eq
    dsimp only at member pending since_eq ⊢
    rw [List.mem_append, List.mem_singleton] at member
    rcases member with member | rfl
    · -- An old record of the rule waits for no timer.
      have old : r.timer ≠ s.ctx.next := Nat.ne_of_lt (kept.fresh r member)
      have pending : r.timer ∈ s.ctx.tq.queue.map := ((queue _).mp pending).resolve_left old
      have other : r.rule ≠ rule := by
        intro same
        rw [kept.sound.active, can.settled r member same] at pending
        exact Bool.false_ne_true pending
      rw [Function.update_of_ne other] at since_eq
      rw [others _ old]
      exact kept.timed r member pending since since_eq
    · have same : since = env.clock := by
        rw [clock]
        exact (Option.some.inj ((Function.update_self rule _ _).symm.trans since_eq)).symm
      rw [same]
      exact timeout.trans (congrArg _ lifetime_eq)
  · intro t pending
    rcases (queue t).mp pending with rfl | pending
    · rw [timeout, clock]
      exact Int.lt_add_of_pos_right _ (by decide)
    · rw [others t (fun same => kept.next_idle (same ▸ pending))]
      exact kept.ahead t pending
  · have small := can.count
    have count := kept.count
    rw [List.length_append, List.length_singleton, UInt32.toNat_add, UInt32.toNat_one]
    omega

/-- The one record of a rule gets a new address, and its timer runs anew in the
queue `tq`. -/
private structure Refreshes (s : RouterRun) (old new : Rule) (r : Registration)
    (tq : TimerQueue) : Prop where
  can : CanRefresh s.ctx old new
  srvid : new.srvid = old.srvid
  prefixBits : new.prefixBits = old.prefixBits
  single : s.ctx.reglist.filter (isOldRecord old) = [r]
  pending : r.timer ∈ s.ctx.tq.queue.map
  sound : tq.Sound
  queue : ∀ t, t ∈ tq.queue.map ↔ t ∈ s.ctx.tq.queue.map
  timeout : (tq.timers r.timer).timeout = s.now + lifetime
  others : ∀ t, t ≠ r.timer → tq.timers t = s.ctx.tq.timers t

namespace Refreshes

variable {old new : Rule} {tq : TimerQueue}

private theorem record (refreshes : Refreshes s old new r tq) :
    r ∈ s.ctx.reglist ∧ isOldRecord old r = true := by
  rw [← List.mem_filter, refreshes.single]
  exact List.mem_singleton_self r

private theorem oldRule (refreshes : Refreshes s old new r tq) : r.rule = old := by
  have here := refreshes.record.2
  simp only [isOldRecord, Bool.and_eq_true, decide_eq_true_eq] at here
  exact here.2

private theorem newRule (refreshes : Refreshes s old new r tq) :
    (refreshed old new.ip r).rule = new := by
  obtain ⟨srvid, prefixBits, ip⟩ := new
  obtain rfl : srvid = r.srvid := refreshes.srvid.trans (congrArg Rule.srvid refreshes.oldRule.symm)
  obtain rfl : prefixBits = r.prefixBits :=
    refreshes.prefixBits.trans (congrArg Rule.prefixBits refreshes.oldRule.symm)
  rw [refreshed, if_pos refreshes.record.2]
  rfl

private theorem other (refreshes : Refreshes s old new r tq) (kept : Kept s) {x : Registration}
    (listed : x ∈ s.ctx.reglist) (different : x ≠ r) :
    refreshed old new.ip x = x ∧ x.rule ≠ old := by
  have unmatched : ¬ isOldRecord old x = true := by
    intro matched
    have again := List.mem_filter.mpr ⟨listed, matched⟩
    rw [refreshes.single, List.mem_singleton] at again
    exact different again
  refine ⟨if_neg unmatched, fun same => unmatched ?_⟩
  simp [isOldRecord, kept.remote x listed, same]

private theorem mem_rules (refreshes : Refreshes s old new r tq) (kept : Kept s) (other : Rule) :
    other ∈ hostctrlServiceModify s.ctx.rules old new ↔
      other = new ∨ other ≠ old ∧ other ∈ s.ctx.rules := by
  rw [(hostctrlServiceModify_perm new refreshes.can.present).mem_iff, List.mem_cons,
    kept.nodup.mem_erase_iff]

private theorem nodup (refreshes : Refreshes s old new r tq) (kept : Kept s) :
    (hostctrlServiceModify s.ctx.rules old new).Nodup := by
  rw [(hostctrlServiceModify_perm new refreshes.can.present).nodup_iff, List.nodup_cons,
    kept.nodup.mem_erase_iff]
  refine ⟨?_, kept.nodup.erase old⟩
  rintro ⟨different, present⟩
  exact kept.absent_of_settled (refreshes.can.settled.resolve_left different) present

private theorem known (refreshes : Refreshes s old new r tq) (kept : Kept s) {other : Rule}
    (present : other ∈ hostctrlServiceModify s.ctx.rules old new) :
    ∃ x ∈ s.ctx.reglist.map (refreshed old new.ip), x.rule = other ∧ x.timer ∈ tq.queue.map := by
  rcases (refreshes.mem_rules kept other).mp present with rfl | ⟨different, present⟩
  · refine ⟨_, List.mem_map_of_mem refreshes.record.1, refreshes.newRule, ?_⟩
    rw [refreshed_timer]
    exact (refreshes.queue _).mpr refreshes.pending
  · obtain ⟨x, listed, same, pending⟩ := kept.known other present
    have another : x ≠ r := by
      rintro rfl
      exact different (same.symm.trans refreshes.oldRule)
    refine ⟨x, List.mem_map.mpr ⟨x, listed, ?_⟩, same, (refreshes.queue _).mpr pending⟩
    exact (refreshes.other kept listed another).1

private theorem noted (refreshes : Refreshes s old new r tq) (kept : Kept s) (other : Rule) :
    other ∈ hostctrlServiceModify s.ctx.rules old new ↔
      (Function.update (Function.update s.last old none) new (some s.now) other).isSome = true := by
  rw [refreshes.mem_rules kept]
  by_cases isNew : other = new
  · subst isNew
    simp
  rw [Function.update_of_ne isNew, or_iff_right isNew]
  by_cases isOld : other = old
  · subst isOld
    simp
  · rw [Function.update_of_ne isOld, ← kept.noted]
    exact and_iff_right isOld

private theorem timed_other (refreshes : Refreshes s old new r tq) (kept : Kept s)
    {x : Registration} (listed : x ∈ s.ctx.reglist) (different : x ≠ r)
    (pending : x.timer ∈ s.ctx.tq.queue.map) {since : Nat}
    (last : Function.update (Function.update s.last old none) new (some s.now) x.rule =
      some since) : (tq.timers x.timer).timeout = since + lifetime := by
  have notOld := (refreshes.other kept listed different).2
  -- Another record of the new rule waits for no timer.
  have notNew : x.rule ≠ new := by
    intro isNew
    rcases refreshes.can.settled with isOld | settled
    · exact notOld (isNew.trans isOld)
    · rw [kept.sound.active, settled x listed isNew] at pending
      exact Bool.false_ne_true pending
  rw [Function.update_of_ne notNew, Function.update_of_ne notOld] at last
  rw [refreshes.others _ fun same => different (kept.same_of_timer listed refreshes.record.1 same)]
  exact kept.timed x listed pending since last

private theorem timed (refreshes : Refreshes s old new r tq) (kept : Kept s) {x : Registration}
    (listed : x ∈ s.ctx.reglist) (pending : (refreshed old new.ip x).timer ∈ tq.queue.map)
    {since : Nat}
    (last : Function.update (Function.update s.last old none) new (some s.now)
      (refreshed old new.ip x).rule = some since) :
    (tq.timers (refreshed old new.ip x).timer).timeout = since + lifetime := by
  rw [refreshed_timer] at pending ⊢
  by_cases this : x = r
  · subst this
    rw [refreshes.newRule, Function.update_self, Option.some.injEq] at last
    rw [← last]
    exact refreshes.timeout
  · rw [(refreshes.other kept listed this).1] at last
    exact refreshes.timed_other kept listed this ((refreshes.queue _).mp pending) last

private theorem ahead (refreshes : Refreshes s old new r tq) (kept : Kept s) {t : Ptr}
    (pending : t ∈ tq.queue.map) : s.now < (tq.timers t).timeout := by
  by_cases this : t = r.timer
  · subst this
    rw [refreshes.timeout]
    exact Int.lt_add_of_pos_right _ (by decide)
  · rw [refreshes.others t this]
    exact kept.ahead t ((refreshes.queue t).mp pending)

end Refreshes

/-- The one record of a rule that is there gets a new address and a new
timeout. -/
theorem refresh (kept : Kept s) {old new : Rule}
    (can : CanRefresh s.ctx old new) (srvid : new.srvid = old.srvid)
    (prefixBits : new.prefixBits = old.prefixBits) (clock : env.clock = s.now)
    (single : s.ctx.reglist.filter (isOldRecord old) = [r])
    (index : s.ctx.tq.queue.map[(s.ctx.tq.queue.items r.timer).index]? = some r.timer) :
    Kept
      { s with
        ctx :=
          { s.ctx with
            reglist := s.ctx.reglist.map (refreshed old new.ip)
            tq := (timerMod s.ctx.tq r.timer (timerSecs REMOTE_SERVICE_TIMEOUT).toUInt64
                env.clock env.grow).2
            rules := hostctrlServiceModify s.ctx.rules old new }
        last := Function.update (Function.update s.last old none) new
            (some s.now) } := by
  obtain ⟨tq, run, sound, queue, timeout, others⟩ :=
    @TimerQueue.Sound.mod_scheduled _ _ (timerSecs REMOTE_SERVICE_TIMEOUT).toUInt64
      env.clock env.grow kept.sound index
  rw [clock, show ((timerSecs REMOTE_SERVICE_TIMEOUT).toUInt64.toInt64 * 1000).toInt = lifetime by
    decide] at timeout
  have refreshes : Refreshes s old new r tq :=
    ⟨can, srvid, prefixBits, single, List.mem_of_getElem? index, sound, queue, timeout, others⟩
  rw [run]
  constructor
  · exact sound
  · refine List.forall_mem_map.mpr fun x listed => ?_
    unfold refreshed
    split <;> exact kept.remote x listed
  · refine List.forall_mem_map.mpr fun x listed => ?_
    rw [refreshed_timer]
    exact kept.fresh x listed
  · have timers : (s.ctx.reglist.map (refreshed old new.ip)).map Registration.timer =
          s.ctx.reglist.map Registration.timer := by
      rw [List.map_map]
      exact List.map_congr_left fun x _ => refreshed_timer old new.ip x
    rw [timers]
    exact kept.distinct
  · intro t pending
    obtain ⟨x, listed, same⟩ := kept.owned t ((queue t).mp pending)
    exact ⟨_, List.mem_map_of_mem listed, (refreshed_timer old new.ip x).trans same⟩
  · exact refreshes.nodup kept
  · exact fun other present => refreshes.known kept present
  · exact refreshes.noted kept
  · intro x' mapped pending since last
    obtain ⟨x, listed, rfl⟩ := List.mem_map.mp mapped
    exact refreshes.timed kept listed pending last
  · exact fun t pending => refreshes.ahead kept pending
  · dsimp only
    rw [List.length_map]
    exact kept.count

/-! ### Events -/

private theorem registration (kept : Kept s) {srvid : List UInt8}
    {prefixBits : UInt16} {remoteIp oldIp : Option UInt32}
    (inOrder :
      EventInOrder s.ctx time
        (.registration srvid prefixBits remoteIp oldIp env)) :
    Kept
      { now := time
        ctx := handleIncomingRegistration s.ctx srvid prefixBits remoteIp oldIp env
        last := Servd.noted s.ctx s.last time
            (.registration srvid prefixBits remoteIp oldIp env) } := by
  match remoteIp, oldIp with
  | none, _ => exact kept.pass inOrder
  | some ip, none =>
    obtain ⟨notDue, clock, can⟩ := inOrder
    exact (kept.pass notDue).register can clock
  | some ip, some oldIp =>
    obtain ⟨notDue, clock, can⟩ := inOrder
    have kept := kept.pass notDue
    split_ifs at can with known
    · obtain ⟨r, single, index⟩ := can.record
      simp only [handleIncomingRegistration, registrationUpdateRemote, updateLoop_single single,
        if_true]
      exact kept.refresh can rfl rfl clock single index
    have unknown : s.ctx.reglist.filter (isOldRecord ⟨srvid, prefixBits, oldIp⟩) = [] := by
      rw [List.filter_eq_nil_iff]
      intro r member matched
      exact known (List.any_eq_true.mpr ⟨r, member, matched⟩)
    have absent : (⟨srvid, prefixBits, oldIp⟩ : Rule) ∉ s.ctx.rules := by
      intro present
      obtain ⟨r, member, same, -⟩ := kept.known _ present
      refine List.filter_eq_nil_iff.mp unknown r member ?_
      simp [isOldRecord, kept.remote r member, same]
    -- What ends with the old address was not there.
    have unchanged : Function.update s.last ⟨srvid, prefixBits, oldIp⟩ none = s.last := by
      rw [Function.update_eq_self_iff]
      exact (kept.last_of_absent absent).symm
    simp only [handleIncomingRegistration, registrationUpdateRemote, updateLoop_unknown unknown,
      map_refreshed_unknown unknown, Bool.false_eq_true, if_false, Servd.noted, unchanged]
    exact kept.register can clock

private theorem unregistration (kept : Kept s) (notDue : NoneDue s.ctx time none) : Kept
      { now := time
        ctx := handleIncomingUnregistration s.ctx rule
        last := Function.update s.last rule none } := by
  have dropped := (kept.pass notDue).drop rule
  rw [handleIncomingUnregistration]
  split
  · exact dropped
  next unknown =>
    have absent : rule ∉ s.ctx.rules := by
      intro present
      obtain ⟨r, member, rfl, -⟩ := kept.known rule present
      refine unknown (List.any_eq_true.mpr ⟨r, member, ?_⟩)
      simp [Registration.rule, kept.remote r member]
    rw [List.erase_of_not_mem absent] at dropped
    exact dropped

private theorem timeout (kept : Kept s) (notDue : NoneDue s.ctx time s.ctx.tq.queue.map[0]?) : Kept
      { now := time
        ctx := handleTimeout s.ctx
        last := Servd.noted s.ctx s.last time .timeout } := by
  cases front : s.ctx.tq.queue.map[0]? with
  | none =>
    rw [front] at notDue
    have idle : handleTimeout s.ctx = s.ctx := by
      simp only [handleTimeout, timerHandleTimeout, heapRemove, front]
    have unchanged : Servd.noted s.ctx s.last time .timeout = s.last := by
      simp only [Servd.noted, ServdContext.fires, front, Option.bind_none]
    rw [idle, unchanged]
    exact kept.pass notDue
  | some t =>
    obtain ⟨r, member, rfl⟩ := kept.owned t (List.mem_of_getElem? front)
    obtain ⟨tq, run, sound, queue, timers⟩ := kept.sound.fire front
    have owner := kept.owner_eq member
    have handled : handleTimeout s.ctx =
          { s.ctx with
            tq := tq
            rules := s.ctx.rules.erase r.rule } := by
      have owner' : ServdContext.owner { s.ctx with tq := tq } r.timer =
          some r :=
        owner
      simp only [handleTimeout, run, owner']
      rfl
    have dropped : Servd.noted s.ctx s.last time .timeout = Function.update s.last r.rule none := by
      simp only [Servd.noted, ServdContext.fires, front, Option.bind_some, owner]
    have gone : r.rule ∉ s.ctx.rules.erase r.rule := kept.nodup.not_mem_erase
    rw [handled, dropped]
    refine ((kept.drop r.rule).fire member gone sound queue timers).pass ?_
    intro t pending _
    obtain ⟨other, pending⟩ := (queue t).mp pending
    rw [timers]
    refine notDue t pending ?_
    rw [front]
    exact fun same => other (Option.some.inj same)

private theorem step (kept : Kept s) {event : Nat × ServdEvent} (inOrder : InOrder s event) :
    ∃ s', routerStep s event = .ok s' ∧ Kept s' := by
  refine ⟨_, rfl, ?_⟩
  obtain ⟨time, event⟩ := event
  obtain ⟨-, inOrder⟩ := inOrder
  cases event with
  | registration srvid prefixBits remoteIp oldIp env =>
    exact kept.registration inOrder
  | unregistration rule => exact kept.unregistration inOrder
  | timeout => exact kept.timeout inOrder

end Kept

/-! ## Whether an event is in order can be computed -/

instance (ctx : ServdContext) (time : Nat) (fires : Option Ptr) :
    Decidable (NoneDue ctx time fires) :=
  inferInstanceAs (Decidable (∀ t ∈ ctx.tq.queue.map, some t ≠ fires →
    time < (ctx.tq.timers t).timeout))

instance (ctx : ServdContext) (rule : Rule) : Decidable (Settled ctx rule) :=
  inferInstanceAs (Decidable (∀ r ∈ ctx.reglist, r.rule = rule →
    timerScheduled ctx.tq r.timer = false))

instance (ctx : ServdContext) (rule : Rule) (env : Surroundings) :
    Decidable (CanRegister ctx rule env) :=
  decidable_of_iff
    (env.malloc = true ∧ (ctx.tq.queue.map.length < ctx.tq.queue.maxSize ∨ env.grow = true) ∧
      ctx.reglist.length + 1 < 2 ^ 32 ∧ Settled ctx rule)
    ⟨fun ⟨malloc, room, count, settled⟩ => ⟨malloc, room, count, settled⟩,
      fun can => ⟨can.malloc, can.room, can.count, can.settled⟩⟩

private def singleRecord (ctx : ServdContext) (old : Rule) : Bool :=
  match ctx.reglist.filter (isOldRecord old) with
  | [r] =>
    ctx.tq.queue.map[(ctx.tq.queue.items r.timer).index]? = some r.timer
  | _ => false

private theorem singleRecord_iff (ctx : ServdContext) (old : Rule) : singleRecord ctx old = true ↔
      ∃ r, ctx.reglist.filter (isOldRecord old) = [r] ∧
        ctx.tq.queue.map[(ctx.tq.queue.items r.timer).index]? = some r.timer := by
  rw [singleRecord]
  split
  · next r single => simp [single]
  · next unmatched =>
      simp only [Bool.false_eq_true, false_iff, not_exists]
      rintro r ⟨single, -⟩
      exact unmatched r single

instance (ctx : ServdContext) (old new : Rule) : Decidable (CanRefresh ctx old new) :=
  decidable_of_iff
    (old ∈ ctx.rules ∧ singleRecord ctx old = true ∧ (new = old ∨ Settled ctx new))
    ⟨fun ⟨present, single, settled⟩ =>
        ⟨present, (singleRecord_iff ctx old).mp single, settled⟩,
      fun can =>
        ⟨can.present, (singleRecord_iff ctx old).mpr can.record, can.settled⟩⟩

instance (ctx : ServdContext) (time : Nat) :
    (event : ServdEvent) → Decidable (EventInOrder ctx time event)
  | .registration _ _ none _ _ => inferInstanceAs (Decidable (NoneDue _ _ _))
  | .registration _ _ (some _) none _ =>
    inferInstanceAs (Decidable (NoneDue _ _ _ ∧ _ = _ ∧ CanRegister _ _ _))
  | .registration _ _ (some _) (some _) _ =>
    inferInstanceAs (Decidable (NoneDue _ _ _ ∧ _ = _ ∧ ite _ _ _))
  | .unregistration _ => inferInstanceAs (Decidable (NoneDue _ _ _))
  | .timeout => inferInstanceAs (Decidable (NoneDue _ _ _))

instance (s : RouterRun) (event : Nat × ServdEvent) : Decidable (InOrder s event) :=
  inferInstanceAs (Decidable (_ ∧ _))

def serviceA : List UInt8 := [65]

private def alright (clock : Nat) : Surroundings := ⟨true, true, clock⟩

def quietHistory : List (Nat × ServdEvent) :=
  [(0, .registration serviceA 256 (some 1) none (alright 0)),
    (5000000000, .registration serviceA 256 (some 2) (some 1) (alright 5000000000)),
    (5000000000 + lifetime, .timeout)]

def lateHistory : List (Nat × ServdEvent) :=
  [(0, .registration serviceA 256 (some 1) none (alright 0)), (lifetime, .timeout),
    (lifetime + 1000000000, .registration serviceA 256 (some 1) (some 1)
      (alright (lifetime + 1000000000)))]

/-- When every event is in order, registrations and rules agree after every
event, and until the next timer is due. -/
theorem registrations_agree (start : Nat) (history : List (Nat × ServdEvent))
    (inOrder : Admits routerStep InOrder (.start start) history) :
    ∃ s, runAll routerStep (.start start) history = .ok s ∧ Agreement s ∧
      ∀ time, s.now ≤ time → NoneDue s.ctx time none → Agreement { s with now := time } := by
  obtain ⟨s, run, kept⟩ := runAll_keeps (fun _ _ kept inOrder => kept.step inOrder)
      (kept_start start) inOrder
  exact ⟨s, run, kept.agreement, fun _ _ notDue =>
    (kept.pass notDue).agreement⟩

theorem registrations_agree_quiet : Admits routerStep InOrder (.start 0) quietHistory ∧
    ∃ s, runAll routerStep (.start 0) quietHistory = .ok s ∧ Agreement s ∧
      ∀ time, s.now ≤ time → NoneDue s.ctx time none → Agreement { s with now := time } := by
  have inOrder : Admits routerStep InOrder (.start 0) quietHistory := by decide +kernel
  exact ⟨inOrder, registrations_agree 0 quietHistory inOrder⟩

/-- The refresh finds the record of the registration that timed out, and
modifies a rule that is not there. -/
theorem lateHistory_unrestored : ∃ s, runAll routerStep (.start 0) lateHistory = .ok s ∧
      s.last ⟨serviceA, 256, 1⟩ = some s.now ∧ s.ctx.rules = [] ∧ ¬ Agreement s := by
  obtain ⟨s, run, test⟩ := @exists_of_leaves _ (runAll routerStep (.start 0) lateHistory)
      (fun s => decide (s.last ⟨serviceA, 256, 1⟩ = some s.now ∧ s.ctx.rules = []))
      (by decide +kernel)
  obtain ⟨last, rules⟩ := of_decide_eq_true test
  refine ⟨s, run, last, rules, ?_⟩
  intro agreement
  have present : (⟨serviceA, 256, 1⟩ : Rule) ∈ s.ctx.rules := (agreement.rules _).mpr
      ⟨s.now, last, Nat.lt_add_of_pos_right (by decide)⟩
  rw [rules] at present
  exact List.not_mem_nil present

end Serval.Servd
