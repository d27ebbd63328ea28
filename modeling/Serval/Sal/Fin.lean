import Serval.Sal.Calls
import Serval.Sal.CtrlQueue
import Serval.Support.Run

/-!
# The acknowledgement of our FIN

Our side is closed when the FIN is acknowledged. The test is made against the
oldest number that is not acknowledged, and passes for that number itself.
-/

namespace Serval

open Serval.Support

private def CtrlSkb.isFin (skb : CtrlSkb) : Bool := hasFlag skb.cb.flags svhFin

private theorem isFin_markRetrans (skb : CtrlSkb) : (markRetrans skb).isFin = skb.isFin := by
  have other : hasFlag (UInt8.ofNat svhRetrans) svhFin = false := by decide
  rw [CtrlSkb.isFin, markRetrans, hasFlag_or, other, Bool.or_false]
  rfl

private theorem isFin_finFlags (state : RsynState) (verno : UInt32) :
    (ctrlSkb (finFlags state) verno []).isFin = true := by
  show hasFlag (UInt8.ofNat (finFlags state)) svhFin = true
  cases state <;> decide

private theorem enqueue_spec (sk : ServalSock) (skb : CtrlSkb) : ∃ queued : CtrlSkb,
      queued.cb.verno = skb.cb.verno ∧ (enqueue sk skb).ctrlSent = [] ∧
      (enqueue sk skb).ctrlUnsent = sk.ctrlUnsent ++ [queued] ∧
      (sk.ctrlUnsent = [] → (enqueue sk skb).sndUna = skb.cb.verno) ∧
      (skb.isFin = true ∨ (∃ old ∈ sk.ctrlSent, old.isFin = true) → queued.isFin = true) ∧
      (enqueue sk skb).sndNxt = sk.sndNxt ∧ (enqueue sk skb).finSent = sk.finSent := by
  refine ⟨skb.overriding sk.ctrlSent, rfl, enqueue_ctrlSent sk skb, enqueue_ctrlUnsent sk skb, ?_,
    ?_, rfl, rfl⟩
  · intro none
    rw [enqueue_sndUna, none]
    rfl
  · rintro (new | ⟨old, inside, isFin⟩)
    · exact hasFlag_overriding List.mem_cons_self new
    · exact hasFlag_overriding (List.mem_cons_of_mem skb inside) isFin

/-! ## The numbers of our FIN -/

def finsQueued (sk : ServalSock) : List UInt32 :=
  (sk.ctrlQueue.filter CtrlSkb.isFin).map (·.cb.verno)

variable {sk sk' : ServalSock}

private theorem mem_finsQueued {f : UInt32} : f ∈ finsQueued sk ↔
      ∃ skb ∈ sk.ctrlQueue, skb.isFin = true ∧ skb.cb.verno = f := by
  simp [finsQueued, and_assoc]

/-- Our FIN with the number `f` was sent, and the numbers since then are at
most `bound`. -/
structure Behind (bound : Nat) (sk : ServalSock) (f : UInt32) : Prop where
  order : (sk.sndUna - f).toNat ≤ (sk.sndNxt - f).toNat
  used : 1 ≤ (sk.sndNxt - f).toNat
  near : (sk.sndNxt - f).toNat ≤ bound
  waits : sk.sndUna = f → ∃ skb ∈ sk.ctrlSent, skb.cb.verno = f

/-- The socket keeps account of its FIN, whose earlier numbers are `fins`. A
packet that could not be sent stays in the queue for good, so that an empty
rest tells that the FIN was sent. -/
structure Counted (fins : List UInt32) (bound : Nat) (sk : ServalSock) : Prop where
  sent : sk.finSent = true → fins ≠ [] ∨ finsQueued sk ≠ []
  behind :
    sk.ctrlUnsent = [] →
      ∀ f, f ∈ fins ∨ f ∈ finsQueued sk → Behind bound sk f

def CtrlSkb.key (skb : CtrlSkb) : Bool × UInt32 := (skb.isFin, skb.cb.verno)

private theorem key_markRetrans (skb : CtrlSkb) : (markRetrans skb).key = skb.key := by
  rw [CtrlSkb.key, isFin_markRetrans]
  rfl

structure SameCtrl (sk sk' : ServalSock) : Prop where
  finSent : sk'.finSent = sk.finSent
  ctrlSent : sk'.ctrlSent.map CtrlSkb.key = sk.ctrlSent.map CtrlSkb.key
  ctrlUnsent : sk'.ctrlUnsent.map CtrlSkb.key = sk.ctrlUnsent.map CtrlSkb.key
  sndUna : sk'.sndUna = sk.sndUna
  sndNxt : sk'.sndNxt = sk.sndNxt

private theorem SameCtrl.finsQueued (frame : SameCtrl sk sk') : finsQueued sk' = finsQueued sk := by
  have byKey (sk : ServalSock) : Serval.finsQueued sk =
        ((sk.ctrlSent.map CtrlSkb.key ++ sk.ctrlUnsent.map CtrlSkb.key).filter
          (·.1)).map (·.2) := by
    rw [← List.map_append, List.filter_map, List.map_map]
    rfl
  rw [byKey, byKey, frame.ctrlSent, frame.ctrlUnsent]

namespace Counted

variable {fins : List UInt32} {bound : Nat} {sk sk' : ServalSock}

private theorem same (counted : Counted fins bound sk) (frame : SameCtrl sk sk') :
    Counted fins bound sk' := by
  refine ⟨?_, ?_⟩
  · rw [frame.finSent, frame.finsQueued]
    exact counted.sent
  · rw [frame.finsQueued]
    intro none f known
    have empty : sk.ctrlUnsent = [] := by
      have keys := frame.ctrlUnsent
      rw [none] at keys
      exact List.map_eq_nil_iff.mp keys.symm
    obtain ⟨order, used, near, waits⟩ := counted.behind empty f known
    rw [← frame.sndNxt] at order used near
    rw [← frame.sndUna] at order
    refine ⟨order, used, near, fun atFin => ?_⟩
    obtain ⟨skb, inside, verno⟩ := waits (frame.sndUna.symm.trans atFin)
    have listed := List.mem_map_of_mem (f := CtrlSkb.key) inside
    rw [← frame.ctrlSent] at listed
    obtain ⟨skb', inside', key⟩ := List.mem_map.mp listed
    exact ⟨skb', inside', (congrArg Prod.snd key).trans verno⟩

private theorem mono {wider : Nat} (counted : Counted fins bound sk) (more : bound ≤ wider) :
    Counted fins wider sk := by
  refine ⟨counted.sent, ?_⟩
  intro none f known
  obtain ⟨order, used, near, waits⟩ := counted.behind none f known
  exact ⟨order, used, near.trans more, waits⟩

private theorem useVerno (counted : Counted fins bound sk) (room : bound < 2 ^ 32 - 1) :
    Counted fins (bound + 1) sk.useVerno := by
  refine ⟨counted.sent, ?_⟩
  intro none f known
  obtain ⟨order, used, near, waits⟩ := counted.behind none f known
  have next : (sk.useVerno.sndNxt - f).toNat = (sk.sndNxt - f).toNat + 1 :=
    toNat_succ_sub (by omega)
  refine ⟨?_, ?_, ?_, waits⟩
  · rw [next]
    exact order.trans (Nat.le_succ _)
  · omega
  · omega

/-- An acknowledgement that is accepted moves the oldest number forward, and
keeps our FIN in the queue unless it covers it. -/
theorem acked {hdr : SalHeader} (counted : Counted fins bound sk)
    (accepts : acceptsAck sk hdr = true)
    (known : sk.finSent = true → fins ≠ []) :
    Counted fins bound (ackedSk sk hdr.ackno) := by
  have kept : (ackedSk sk hdr.ackno).ctrlSent =
        sk.ctrlSent.dropWhile fun skb => after hdr.ackno skb.cb.verno :=
    ackedSk_ctrlSent sk hdr.ackno
  simp only [acceptsAck, Bool.and_eq_true, Bool.not_eq_true'] at accepts
  obtain ⟨⟨-, notOld⟩, notNew⟩ := accepts
  refine ⟨fun sent => .inl (known sent), ?_⟩
  intro none f member
  have before : f ∈ fins ∨ f ∈ finsQueued sk := by
    rcases member with member | member
    · exact .inl member
    right
    rw [mem_finsQueued] at member ⊢
    obtain ⟨skb, inside, isFin, verno⟩ := member
    refine ⟨skb, ?_, isFin, verno⟩
    rw [ServalSock.ctrlQueue, kept] at inside
    rcases List.mem_append.mp inside with sent | unsent
    · exact List.mem_append_left _ ((List.dropWhile_sublist _).mem sent)
    · exact List.mem_append_right _ unsent
  obtain ⟨order, used, near, waits⟩ := counted.behind none f before
  obtain ⟨low, high⟩ := sub_window order notOld notNew
  refine ⟨high, used, near, ?_⟩
  intro (same : hdr.ackno = f)
  subst same
  have atFin : sk.sndUna = hdr.ackno := by
    rw [UInt32.sub_self] at low
    exact sub_eq_zero.mp (UInt32.toNat.inj (Nat.le_zero.mp low))
  obtain ⟨skb, inside, verno⟩ := waits atFin
  refine ⟨skb, ?_, verno⟩
  rw [← @List.takeWhile_append_dropWhile _
    (fun skb : CtrlSkb => after hdr.ackno skb.cb.verno) sk.ctrlSent] at inside
  rw [kept]
  rcases List.mem_append.mp inside with covered | left
  · have later := List.mem_takeWhile_imp covered
    rw [verno, after, before_self] at later
    cases later
  · exact left

end Counted

namespace Behind

variable {bound : Nat} {sk sk' : ServalSock} {f : UInt32}

private theorem next (behind : Behind bound sk f) (room : bound < 2 ^ 32 - 1)
    (una : sk'.sndUna = sk.sndNxt) (nxt : sk'.sndNxt = sk.sndNxt + 1) :
    Behind (bound + 1) sk' f := by
  obtain ⟨order, used, near, waits⟩ := behind
  have grows : (sk'.sndNxt - f).toNat = (sk.sndNxt - f).toNat + 1 := by
    rw [nxt]
    exact toNat_succ_sub (by omega)
  refine ⟨?_, ?_, ?_, ?_⟩
  · rw [una, grows]
    exact Nat.le_succ _
  · omega
  · omega
  · intro same
    rw [una] at same
    rw [same, UInt32.sub_self] at used
    exact absurd used (by decide)

private theorem first (una : sk'.sndUna = f) (nxt : sk'.sndNxt = f + 1)
    (waits : ∃ skb ∈ sk'.ctrlSent, skb.cb.verno = f) :
    Behind (bound + 1) sk' f := by
  have one : (sk'.sndNxt - f).toNat = 1 := by
    rw [nxt, toNat_succ_sub, UInt32.sub_self]
    · rfl
    · rw [UInt32.sub_self]
      decide
  refine ⟨?_, ?_, ?_, fun _ => waits⟩
  · rw [una, UInt32.sub_self]
    exact Nat.zero_le _
  · rw [one]
  · rw [one]
    exact Nat.le_add_left 1 bound

end Behind

structure Numbered (sk sk' : ServalSock) (skb : CtrlSkb) : Prop where
  verno : skb.cb.verno = sk.sndNxt
  sndNxt : sk'.sndNxt = sk.sndNxt + 1
  ctrlSent : sk'.ctrlSent = sk.ctrlSent
  ctrlUnsent : sk'.ctrlUnsent = sk.ctrlUnsent
  finSent : sk'.finSent = true → sk.finSent = true ∨ skb.isFin = true

private theorem Counted.pushed {env : SalEnv} {fins : List UInt32} {bound : Nat}
    {host host' : SalHost} {skb : CtrlSkb} {err : Int}
    (counted : Counted fins bound sk) (room : bound < 2 ^ 32 - 1)
    (numbered : Numbered sk sk' skb)
    (run : servalSalQueueAndPush env (host.withSk sk') skb = .ok (err, host')) :
    Counted fins (bound + 1) host'.sk := by
  obtain ⟨queued, verno, noneSent, unsent, una, carries, nxt, finSent⟩ := enqueue_spec sk' skb
  rw [numbered.ctrlSent] at carries
  rw [numbered.ctrlUnsent] at unsent una
  -- The FIN, if there is one, is in the new packet or waits in front of it.
  have known : sk'.finSent = true →
        fins ≠ [] ∨
          ∃ old ∈ sk.ctrlUnsent ++ [queued], old.isFin = true := by
    intro sent
    rcases numbered.finSent sent with earlier | new
    · rcases counted.sent earlier with some | waiting
      · exact .inl some
      right
      obtain ⟨f, member⟩ := List.exists_mem_of_ne_nil _ waiting
      obtain ⟨old, inside, isFin, -⟩ := mem_finsQueued.mp member
      rcases List.mem_append.mp inside with inSent | inUnsent
      · exact ⟨queued, by simp, carries (.inr ⟨old, inSent, isFin⟩)⟩
      · exact ⟨old, List.mem_append_left _ inUnsent, isFin⟩
    · exact .inr ⟨queued, by simp, carries (.inl new)⟩
  have listed {sk'' : ServalSock} (queue : sk''.ctrlQueue = sk.ctrlUnsent ++ [queued])
      (same : sk''.finSent = sk'.finSent) :
      sk''.finSent = true → fins ≠ [] ∨ finsQueued sk'' ≠ [] := by
    intro sent
    rw [same] at sent
    refine (known sent).imp id ?_
    rintro ⟨old, inside, isFin⟩
    apply List.ne_nil_of_mem
    exact mem_finsQueued.mpr ⟨old, by rw [queue]; exact inside, isFin, rfl⟩
  obtain ⟨middle, ⟨_, _, _, _, rfl, -⟩, rfl | ⟨first, rest, head,
    rfl⟩⟩ := servalSalWriteXmit_spec run
  · refine ⟨listed ?_ finSent, ?_⟩
    · show (enqueue sk' skb).ctrlSent ++ (enqueue sk' skb).ctrlUnsent = _
      rw [noneSent, unsent, List.nil_append]
    · intro (none : (enqueue sk' skb).ctrlUnsent = [])
      rw [unsent] at none
      simp at none
  · have head : sk.ctrlUnsent ++ [queued] = first :: rest := unsent.symm.trans head
    refine ⟨listed ?_ finSent, ?_⟩
    · show (enqueue sk' skb).ctrlSent ++ [first] ++ rest = _
      rw [noneSent, head]
      rfl
    · intro (none : rest = [])
      subst none
      obtain ⟨empty, only⟩ : sk.ctrlUnsent = [] ∧ [queued] = [first] :=
        (List.append_eq_singleton_iff.mp head).elim id (by simp)
      obtain rfl : queued = first := List.singleton_inj.mp only
      have una : (enqueue sk' skb).sndUna = sk.sndNxt := (una empty).trans numbered.verno
      have nxt : (enqueue sk' skb).sndNxt = sk.sndNxt + 1 := nxt.trans numbered.sndNxt
      rintro f (earlier | now)
      · exact (counted.behind empty f (.inl earlier)).next room una nxt
      · obtain ⟨skb', inside, -, rfl⟩ := mem_finsQueued.mp now
        have inside : skb' ∈ (enqueue sk' skb).ctrlSent ++ [queued] ++ [] := inside
        rw [noneSent] at inside
        obtain rfl : skb' = queued := by simpa using inside
        have number : skb'.cb.verno = sk.sndNxt := verno.trans numbered.verno
        rw [number]
        exact .first una nxt ⟨skb', List.mem_append_right _ List.mem_cons_self, number⟩

private theorem Bookkeeping.dead (books : Bookkeeping sk sk') : sk'.dead = sk.dead := by
  obtain ⟨_, _, _, _, _, _, _, _, _, _, _, _, -, rfl⟩ := books
  rfl

/-- The account is kept until the socket is closed and nobody holds it.
`known` is what is known besides. -/
structure FinTracked (known : Prop) (fins : List UInt32) (bound : Nat) (sk : ServalSock) :
    Prop where
  notInit : sk.skState ≠ .init
  notListen : sk.skState ≠ .listen
  gone : sk.dead = true → parted sk.skState = true
  live : (sk.dead = true ∧ sk.skState = .closed) ∨ (Counted fins bound sk ∧ known)

namespace FinTracked

variable {known : Prop} {fins : List UInt32} {bound : Nat} {sk sk' : ServalSock}

private theorem lift {bound' : Nat} (tracked : FinTracked known fins bound sk)
    (state : sk'.skState = sk.skState) (dead : sk'.dead = sk.dead)
    (counts : Counted fins bound sk → known → Counted fins bound' sk') :
    FinTracked known fins bound' sk' := by
  refine ⟨?_, ?_, ?_, ?_⟩
  · rw [state]
    exact tracked.notInit
  · rw [state]
    exact tracked.notListen
  · rw [state, dead]
    exact tracked.gone
  · rw [state, dead]
    exact tracked.live.imp id fun ⟨counted, more⟩ => ⟨counts counted more, more⟩

private theorem same (tracked : FinTracked known fins bound sk) (frame : SameCtrl sk sk')
    (state : sk'.skState = sk.skState) (dead : sk'.dead = sk.dead) :
    FinTracked known fins bound sk' :=
  tracked.lift state dead fun counted _ => counted.same frame

private theorem moved (state : SalState) (tracked : FinTracked known fins bound sk)
    (frame : SameCtrl sk sk') (here : sk'.skState = state)
    (dead : sk'.dead = sk.dead) (notInit : state ≠ .init)
    (notListen : state ≠ .listen)
    (open' : sk.dead = true → sk.skState ≠ .closed ∧ parted state = true) :
    FinTracked known fins bound sk' := by
  refine ⟨by rwa [here], by rwa [here], ?_, ?_⟩
  · rw [here, dead]
    exact fun isDead => (open' isDead).2
  · rcases tracked.live with ⟨isDead, closed⟩ | ⟨counted, more⟩
    · exact absurd closed (open' isDead).1
    · exact .inr ⟨counted.same frame, more⟩

variable {host host' : SalHost}

private theorem sends {sent : WirePacket → Prop} (tracked : FinTracked known fins bound host.sk)
    (sends : Sends sent host host') :
    FinTracked known fins bound host'.sk := by
  obtain ⟨_, _, _, _, rfl, -⟩ := sends
  exact tracked.same ⟨rfl, rfl, rfl, rfl, rfl⟩ rfl rfl

private theorem done (tracked : FinTracked known fins bound host.sk)
    (run : servalSalDone host = .ok host') :
    FinTracked known fins bound host'.sk := by
  obtain ⟨_, _, _, _, _, rfl, -, ⟨rfl, rfl⟩ | ⟨dead, rfl, rfl⟩⟩ := servalSalDone_spec run
  · refine ⟨nofun, nofun, fun _ => rfl, ?_⟩
    rcases tracked.live with ⟨dead, -⟩ | ⟨counted, more⟩
    · exact .inl ⟨dead, rfl⟩
    · exact .inr ⟨counted.same ⟨rfl, rfl, rfl, rfl, rfl⟩, more⟩
  · exact ⟨nofun, nofun, fun _ => rfl, .inl ⟨dead, rfl⟩⟩

private theorem pushed {env : SalEnv} {sk' : ServalSock} {skb : CtrlSkb} {err : Int}
    (tracked : FinTracked known fins bound host.sk)
    (room : bound < 2 ^ 32 - 1) (numbered : Numbered host.sk sk' skb)
    (state : sk'.skState = host.sk.skState) (dead : sk'.dead = host.sk.dead)
    (run : servalSalQueueAndPush env (host.withSk sk') skb = .ok (err, host')) :
    FinTracked known fins (bound + 1) host'.sk := by
  have stage : host'.sk.skState = host.sk.skState :=
    (servalSalQueueAndPush_stage run).skState.trans state
  have held : host'.sk.dead = host.sk.dead := (Bookkeeping.of_push run).dead.trans dead
  exact tracked.lift stage held fun counted _ => counted.pushed room numbered run

private theorem useVerno (tracked : FinTracked known fins bound sk) (room : bound < 2 ^ 32 - 1) :
    FinTracked known fins (bound + 1) sk.useVerno :=
  tracked.lift rfl rfl fun counted _ => counted.useVerno room

private theorem mono {wider : Nat} (tracked : FinTracked known fins bound sk)
    (more : bound ≤ wider) : FinTracked known fins wider sk :=
  tracked.lift rfl rfl fun counted _ => counted.mono more

end FinTracked

private theorem ReceivedPush.numbered {env : SalEnv} {rcv : RcvSkb} {skb : CtrlSkb}
    (push : ReceivedPush env rcv sk sk' skb) :
    Numbered sk sk' skb ∧ sk'.skState = sk.skState ∧ sk'.dead = sk.dead := by
  cases push with
  | rsynack rsyn => exact ⟨⟨rfl, rfl, rfl, rfl, .inl⟩, rfl, rfl⟩
  | fin ends =>
    refine ⟨⟨rfl, rfl, rfl, rfl, fun _ => .inr ?_⟩, rfl, rfl⟩
    exact isFin_finFlags sk.salState sk.sndNxt

private theorem CalledPush.numbered {start : ServalSock} {skb : CtrlSkb}
    (notInit : start.skState ≠ .init) (push : CalledPush start sk sk' skb) :
    Numbered sk sk' skb ∧ sk'.skState = sk.skState ∧ sk'.dead = sk.dead := by
  cases push with
  | syn data init => exact absurd init notInit
  | fin =>
    refine ⟨⟨rfl, rfl, rfl, rfl, fun _ => .inr ?_⟩, rfl, rfl⟩
    exact isFin_finFlags sk.salState sk.sndNxt
  | rsyn => exact ⟨⟨rfl, rfl, rfl, rfl, .inl⟩, rfl, rfl⟩

section

variable {env : SalEnv} {known : Prop} {fins : List UInt32} {bound : Nat}
  {skb : RcvSkb} {start sk sk' : ServalSock}

private theorem Received.tracked (gone : start.dead = true → parted start.skState = true)
    (dead : sk.dead = start.dead)
    (tracked : FinTracked (start.finSent = true → fins ≠ []) fins bound sk)
    (change : Received env skb start sk sk') :
    FinTracked (start.finSent = true → fins ≠ []) fins bound sk' := by
  have revived {state : SalState} (here : start.skState = state)
      (held : parted state = false) : ¬ sk.dead = true := by
    intro isDead
    rw [dead] at isDead
    rw [← here, gone isDead] at held
    cases held
  cases change with
  | acked accepts early =>
    refine tracked.lift rfl rfl fun counted known => counted.acked accepts ?_
    rw [early]
    exact known
  | connected here | established here | closewait here =>
    exact tracked.moved _ ⟨rfl, rfl, rfl, rfl, rfl⟩ rfl rfl nofun nofun fun isDead =>
      absurd isDead (revived here rfl)
  | @moves state moves timer =>
    have allowed : sk.skState ≠ .closed ∧ state ≠ .init ∧ state ≠ .listen ∧
          parted state = true := by
      generalize sk.skState = here at moves
      cases moves <;> decide
    exact tracked.moved state ⟨rfl, rfl, rfl, rfl, rfl⟩ rfl rfl allowed.2.1
      allowed.2.2.1 fun _ => ⟨allowed.1, allowed.2.2.2⟩
  | _ => exact tracked.same ⟨rfl, rfl, rfl, rfl, rfl⟩ rfl rfl

private theorem Received.dead (change : Received env skb start sk sk') : sk'.dead = sk.dead := by
  cases change <;> rfl

private theorem Called.tracked (tracked : FinTracked known fins bound sk) (change : Called sk sk') :
    FinTracked known fins bound sk' := by
  cases change with
  | request srvid init => exact absurd init tracked.notInit
  | closed keyLen =>
    refine ⟨by show SalState.closed ≠ .init; decide, by show SalState.closed ≠ .listen; decide,
      fun _ => rfl, ?_⟩
    rcases tracked.live with ⟨dead, -⟩ | ⟨counted, more⟩
    · exact .inl ⟨dead, rfl⟩
    · exact .inr ⟨counted.same ⟨rfl, rfl, rfl, rfl, rfl⟩, more⟩
  | finwait1 here =>
    refine tracked.moved .finwait1 ⟨rfl, rfl, rfl, rfl, rfl⟩ rfl rfl
      (by decide) (by decide) fun _ => ⟨?_, rfl⟩
    rcases here with here | here
    · rw [here]
      decide
    · rw [here]
      decide
  | lastack here =>
    refine tracked.moved .lastack ⟨rfl, rfl, rfl, rfl, rfl⟩ rfl rfl
      (by decide) (by decide) fun _ => ⟨?_, rfl⟩
    rw [here]
    decide
  | orphaned gone =>
    refine ⟨tracked.notInit, tracked.notListen, fun _ => gone, ?_⟩
    rcases tracked.live with ⟨-, closed⟩ | ⟨counted, more⟩
    · exact .inl ⟨rfl, closed⟩
    · exact .inr ⟨counted.same ⟨rfl, rfl, rfl, rfl, rfl⟩, more⟩
  | destroyed gone =>
    refine ⟨tracked.notInit, tracked.notListen, ?_, .inl ⟨rfl, gone⟩⟩
    intro _
    show parted sk.skState = true
    rw [gone]
    rfl
  | @markSent skb rest first =>
    refine tracked.same ⟨rfl, ?_, rfl, rfl, rfl⟩ rfl rfl
    rw [first, List.map_cons, List.map_cons, key_markRetrans]
  | @markUnsent skb rest first =>
    refine tracked.same ⟨rfl, rfl, ?_, rfl, rfl⟩ rfl rfl
    rw [first, List.map_cons, List.map_cons, key_markRetrans]
  | _ => exact tracked.same ⟨rfl, rfl, rfl, rfl, rfl⟩ rfl rfl

variable {host host' : SalHost} {n : Nat}

/-- A packet keeps the account, if what is known of our FIN is known. -/
theorem Acts.tracked_received
    (tracked : FinTracked (host.sk.finSent = true → fins ≠ []) fins bound host.sk)
    (room : bound + n < 2 ^ 32)
    (acts : Acts env (receiving env skb host.sk) n host host') :
    FinTracked (host.sk.finSent = true → fins ≠ []) fins (bound + n)
      host'.sk := by
  have kept := @Acts.keeps env (receiving env skb host.sk) n host host'
      (fun n middle => middle.sk.dead = host.sk.dead ∧
        (bound + n < 2 ^ 32 →
          FinTracked (host.sk.finSent = true → fins ≠ []) fins (bound + n)
            middle.sk))
      ?send ?answer ?done ?change ?push ?skip ⟨rfl, fun _ => tracked⟩ acts
  · exact kept.2 room
  case send =>
    rintro n middle after ⟨dead, tracked⟩ sends
    exact ⟨(Bookkeeping.of_sends sends).dead.trans dead, fun room => (tracked room).sends sends⟩
  case answer =>
    rintro n middle after ⟨dead, tracked⟩ sends
    exact ⟨(Bookkeeping.of_sends sends).dead.trans dead, fun room => (tracked room).sends sends⟩
  case done =>
    rintro n middle after ⟨dead, tracked⟩ ended
    exact ⟨(Bookkeeping.of_done ended).dead.trans dead, fun room => (tracked room).done ended⟩
  case change =>
    rintro n middle sk ⟨dead, isTracked⟩ change
    refine ⟨(Received.dead change).trans dead, fun room => ?_⟩
    exact Received.tracked tracked.gone dead (isTracked room) change
  case push =>
    rintro n middle after sk skb err ⟨dead, tracked⟩ push run
    obtain ⟨numbered, state, same⟩ := ReceivedPush.numbered push
    exact ⟨(Bookkeeping.of_push run).dead.trans (same.trans dead), fun room =>
      (tracked (by omega)).pushed (by omega) numbered state same run⟩
  case skip =>
    rintro n middle ⟨dead, tracked⟩ impossible
    exact impossible.elim

private theorem Acts.tracked_called
    (tracked : FinTracked known fins bound host.sk) (room : bound + n < 2 ^ 32)
    (acts : Acts env (calling host.sk) n host host') :
    FinTracked known fins (bound + n) host'.sk := by
  have kept := @Acts.keeps env (calling host.sk) n host host' (fun n middle => bound + n < 2 ^ 32 →
        FinTracked known fins (bound + n) middle.sk)
      ?send ?answer ?done ?change ?push ?skip (fun _ => tracked) acts
  · exact kept room
  case send =>
    exact fun tracked sends room => (tracked room).sends sends
  case answer =>
    exact fun tracked sends room => (tracked room).sends sends
  case done =>
    exact fun tracked ended room => (tracked room).done ended
  case change =>
    exact fun tracked change room => Called.tracked (tracked room) change
  case push =>
    intro n middle after sk skb err isTracked push run room
    obtain ⟨numbered, state, same⟩ := CalledPush.numbered tracked.notInit push
    exact (isTracked (by omega)).pushed (by omega) numbered state same run
  case skip =>
    intro n middle isTracked _ room
    exact (isTracked (by omega)).useVerno (by omega)

private theorem sockStep_tracked {event : SockEvent}
    (tracked : FinTracked (host.sk.finSent = true → fins ≠ []) fins bound host.sk)
    (room : bound + 2 < 2 ^ 32)
    (run : sockStep env host event = .ok host') :
    FinTracked (host.sk.finSent = true → fins ≠ []) fins (bound + 2)
      host'.sk := by
  rcases sockStep_does tracked.notListen run with
    ⟨n, few, acts⟩ | ⟨table, rfl⟩
  · have some : FinTracked (host.sk.finSent = true → fins ≠ []) fins (bound + n) host'.sk := by
      cases event with
      | receive skb => exact Acts.tracked_received tracked (by omega) acts
      | _ => exact Acts.tracked_called tracked (by omega) acts
    exact some.mono (by omega)
  · exact tracked.mono (Nat.le_add_right _ _)

end

/-- The steps that need the ACK of our FIN. -/
inductive Completes : SalState → SalState → Prop
  | finwait2 : Completes .finwait1 .finwait2
  | timewait : Completes .finwait1 .timewait
  | closing : Completes .closing .timewait
  | lastack : Completes .lastack .closed

private theorem Completes.closesOwn {state next : SalState} (completes : Completes state next) :
    closesOwn state = true := by
  cases completes <;> rfl

section

variable {env : SalEnv} {skb : RcvSkb} {host host' : SalHost}

private theorem runReply_skState {reply : Reply} (run : runReply env host reply = .ok host') :
    host'.sk.skState = host.sk.skState ∨ reply.reset = true ∧ host'.sk.skState = .closed := by
  refine @runReply_keeps _ (fun middle => middle.sk.skState = host.sk.skState ∨
      reply.reset = true ∧ middle.sk.skState = .closed) _ _ _
    ?_ ?_ ?_ (.inl rfl) run
  · rintro middle after same ⟨_, _, _, _, rfl, -⟩
    exact same
  · intro _ middle after err same run
    rw [(servalSalQueueAndPush_stage run).skState]
    exact same
  · intro resets middle after _ run
    exact .inr ⟨resets, servalSalRcvReset_closed run⟩

private theorem receiveIf_skState {wanted : Bool} (run : receiveIf env host wanted = .ok host') :
    host'.sk.skState = host.sk.skState ∨
      (∃ tick, (env.transport.receive tick).reset = true) ∧ host'.sk.skState = .closed := by
  rw [receiveIf] at run
  split at run
  · exact (runReply_skState run).imp id fun reset => ⟨⟨host.tick, reset.1⟩, reset.2⟩
  · cases run
    exact .inl rfl

private theorem rcvMigration_acceptsAck (run : rcvMigration env host skb = .ok host') :
    acceptsAck host'.sk skb.hdr = acceptsAck host.sk skb.hdr := by
  rw [rcvMigration] at run
  split at run
  · split at run
    · rw [servalSalRcvRsynack] at run
      split at run
      · cases run
        rfl
      split at run
      · obtain ⟨middle, sent, run⟩ := of_bind run
        obtain ⟨⟨err, last⟩, acked, run⟩ := of_bind run
        cases run
        obtain ⟨_, _, _, _, rfl, -⟩ := xmitAll_sends sent
        obtain ⟨_, _, _, _, rfl, -⟩ := servalSalSendAck_sends acked
        rfl
      · obtain ⟨⟨err, last⟩, acked, run⟩ := of_bind run
        cases run
        obtain ⟨_, _, _, _, rfl, -⟩ := servalSalSendAck_sends acked
        rfl
      · cases run
        rfl
    · rename_i noAck
      have none : skb.hdr.hasAck = false := by simpa using noAck
      simp only [acceptsAck, none, Bool.false_and]
  · cases run
    rfl

private theorem servalSalFinwait1StateProcess_completes (state : host.sk.skState = .finwait1)
    (run : servalSalFinwait1StateProcess env host skb = .ok host')
    (reached : host'.sk.skState = .finwait2 ∨ host'.sk.skState = .timewait) :
    acceptsAck host.sk skb.hdr = true := by
  obtain ⟨⟨acked, first⟩, processed, run⟩ := of_bind run
  obtain ⟨⟨close, second⟩, finned, run⟩ := of_bind run
  obtain ⟨accepts, -⟩ := servalSalAckProcess_spec processed
  rw [← accepts]
  by_contra refused
  have here : second.sk.skState = .finwait1 := by
    rw [(@rcvFinIf_does _ _ host.sk _ _ _ finned).2.1, servalSalAckProcess_skState processed, state]
  have still : (if skb.hdr.hasFin then
          if close then
            if acked then servalSalTimewait second .timewait
            else second.setState .closing
          else second
        else if acked then servalSalTimewait second .finwait2
        else second).sk.skState ∈ [SalState.finwait1, .closing] := by
    split_ifs
    · exact List.mem_cons_of_mem _ List.mem_cons_self
    · rw [here]
      exact List.mem_cons_self
    · rw [here]
      exact List.mem_cons_self
  rcases receiveIf_skState run with same | ⟨-, closed⟩
  · rw [← same] at still
    rcases reached with reached | reached
    · rw [reached] at still
      revert still
      decide
    · rw [reached] at still
      revert still
      decide
  · rw [closed] at reached
    revert reached
    decide

private theorem servalSalClosingStateProcess_completes (state : host.sk.skState = .closing)
    (run : servalSalClosingStateProcess env host skb = .ok host')
    (reached : host'.sk.skState = .timewait) :
    acceptsAck host.sk skb.hdr = true := by
  obtain ⟨⟨acked, first⟩, processed, run⟩ := of_bind run
  obtain ⟨second, reacked, run⟩ := of_bind run
  obtain ⟨accepts, -⟩ := servalSalAckProcess_spec processed
  rw [← accepts]
  by_contra refused
  rw [if_neg refused] at reacked
  have here : second.sk.skState = .closing := by
    rw [(reackIf_sends reacked).stage.skState, servalSalAckProcess_skState processed, state]
  rcases receiveIf_skState run with same | ⟨-, closed⟩
  · rw [same, here] at reached
    cases reached
  · rw [closed] at reached
    cases reached

private theorem servalSalLastackStateProcess_completes (state : host.sk.skState = .lastack)
    (noReset : ∀ tick, (env.transport.receive tick).reset = false)
    (run : servalSalLastackStateProcess env host skb = .ok host')
    (reached : host'.sk.skState = .closed) :
    acceptsAck host.sk skb.hdr = true := by
  obtain ⟨first, reacked, run⟩ := of_bind run
  obtain ⟨⟨acked, second⟩, processed, run⟩ := of_bind run
  obtain ⟨third, received, run⟩ := of_bind run
  obtain ⟨accepts, -⟩ := servalSalAckProcess_spec processed
  rw [← @reackIf_acceptsAck _ skb _ _ _ reacked, ← accepts]
  by_contra refused
  rw [if_neg refused] at run
  cases run
  rcases receiveIf_skState received with same | ⟨⟨tick, resets⟩, -⟩
  · rw [same, servalSalAckProcess_skState processed, (reackIf_sends reacked).stage.skState,
      state] at reached
    cases reached
  · rw [noReset] at resets
    cases resets

private theorem servalSalStateProcess_completes
    (noReset :
      host.sk.skState = .lastack →
        skb.hdr.hasRst = false ∧
          ∀ tick, (env.transport.receive tick).reset = false)
    (run : servalSalStateProcess env host skb = .ok host')
    (completes : Completes host.sk.skState host'.sk.skState) :
    acceptsAck host.sk skb.hdr = true := by
  rw [servalSalStateProcess, stateProcess] at run
  split at run
  · cases run
    generalize host.sk.skState = state at completes
    cases completes
  split at run
  · rename_i reset
    rw [servalSalRcvReset_closed run] at completes
    generalize state : host.sk.skState = here at completes
    cases completes
    rw [(noReset state).1] at reset
    cases reset
  obtain ⟨middle, migrated, run⟩ := of_bind run
  have same := (@rcvMigration_does _ _ host.sk _ _ migrated).2.skState
  rw [← rcvMigration_acceptsAck migrated]
  rw [← same] at completes noReset
  generalize state : middle.sk.skState = here at completes noReset
  generalize reached : host'.sk.skState = there at completes
  cases completes with
  | finwait2 =>
    simp only [stateSwitch, state] at run
    exact servalSalFinwait1StateProcess_completes state run (.inl reached)
  | timewait =>
    simp only [stateSwitch, state] at run
    exact servalSalFinwait1StateProcess_completes state run (.inr reached)
  | closing =>
    simp only [stateSwitch, state] at run
    exact servalSalClosingStateProcess_completes state run reached
  | lastack =>
    simp only [stateSwitch, state] at run
    exact servalSalLastackStateProcess_completes state (noReset rfl).2 run reached

end

/-- A connection, with the numbers that our FIN has had. A migration gives it
a new one. -/
structure Connection where
  host : SalHost
  fins : List UInt32

def connStep (env : SalEnv) (c : Connection) (event : SockEvent) :
    Except Fault Connection := do
  let host ← sockStep env c.host event
  .ok ⟨host, c.fins ++ finsQueued host.sk⟩

/-- Our side has not sent a FIN yet. -/
structure Unclosed (host : SalHost) : Prop where
  notInit : host.sk.skState ≠ .init
  notListen : host.sk.skState ≠ .listen
  held : host.sk.dead = false
  finSent : host.sk.finSent = false
  noFin : finsQueued host.sk = []

/-- When our FIN is on its way, an acknowledgement comes after the FIN was
sent, and not with the number of the packet that still waits; and the end of a
connection does not come from a reset. The numbers since the FIN stay in the
window of serial arithmetic. -/
def Timely (env : SalEnv) (c : Connection) (event : SockEvent) : Prop :=
  (∀ f ∈ c.fins, before c.host.sk.sndNxt f = false) ∧
    match event with
    | .receive skb =>
      (closesOwn c.host.sk.skState = true → skb.hdr.hasAck = true →
        c.host.sk.finSent = true ∧ c.host.sk.ctrlUnsent = [] ∧
          (skb.hdr.ackno ≠ c.host.sk.sndUna ∨ c.host.sk.ctrlSent = [])) ∧
      (c.host.sk.skState = .lastack →
        skb.hdr.hasRst = false ∧
          ∀ tick, (env.transport.receive tick).reset = false)
    | _ => True

/-- `fins` has every FIN that was queued. -/
structure Connection.Accounted (c : Connection) : Prop where
  tracked : FinTracked True c.fins (2 ^ 32) c.host.sk
  listed : ∀ f ∈ finsQueued c.host.sk, f ∈ c.fins

namespace Connection.Accounted

variable {env : SalEnv} {c c' : Connection} {event : SockEvent}

private theorem known (accounted : c.Accounted) (counted : Counted c.fins (2 ^ 32) c.host.sk)
    (sent : c.host.sk.finSent = true) : c.fins ≠ [] := by
  rcases counted.sent sent with known | waiting
  · exact known
  · obtain ⟨f, member⟩ := List.exists_mem_of_ne_nil _ waiting
    exact List.ne_nil_of_mem (accounted.listed f member)

theorem start (accounted : c.Accounted) (near : ∀ f ∈ c.fins, before c.host.sk.sndNxt f = false) :
    FinTracked (c.host.sk.finSent = true → c.fins ≠ []) c.fins (2 ^ 31)
      c.host.sk := by
  obtain ⟨notInit, notListen, gone, live⟩ := accounted.tracked
  refine ⟨notInit, notListen, gone, live.imp id ?_⟩
  rintro ⟨counted, -⟩
  refine ⟨⟨counted.sent, ?_⟩, accounted.known counted⟩
  intro none f member
  obtain ⟨order, used, -, waits⟩ := counted.behind none f member
  have close := near f (member.elim id (accounted.listed f))
  refine ⟨order, used, ?_, waits⟩
  rw [before, decide_eq_false_iff_not] at close
  omega

private theorem step (accounted : c.Accounted) (timely : Timely env c event)
    (run : connStep env c event = .ok c') : c'.Accounted := by
  obtain ⟨host', stepped, run⟩ := of_bind run
  cases run
  have tracked := sockStep_tracked (accounted.start timely.1) (by decide) stepped
  refine ⟨?_, fun f member => List.mem_append_right _ member⟩
  obtain ⟨notInit, notListen, gone, live⟩ := tracked
  refine ⟨notInit, notListen, gone, live.imp id ?_⟩
  rintro ⟨counted, -⟩
  refine ⟨⟨?_, ?_⟩, trivial⟩
  · intro sent
    refine (counted.sent sent).imp ?_ id
    intro some empty
    exact some (List.append_eq_nil_iff.mp empty).1
  · intro none f member
    have before : f ∈ c.fins ∨ f ∈ finsQueued host'.sk := by
      rcases member with member | member
      · exact List.mem_append.mp member
      · exact .inr member
    obtain ⟨order, used, near, waits⟩ := counted.behind none f before
    exact ⟨order, used, near.trans (by decide), waits⟩

end Connection.Accounted

private theorem Unclosed.accounted {host : SalHost} (unclosed : Unclosed host) :
    (⟨host, []⟩ : Connection).Accounted := by
  refine ⟨⟨unclosed.notInit, unclosed.notListen, ?_, .inr ⟨⟨?_, ?_⟩, trivial⟩⟩, ?_⟩
  · intro dead
    rw [unclosed.held] at dead
    cases dead
  · intro sent
    rw [unclosed.finSent] at sent
    cases sent
  · intro _ f member
    rw [unclosed.noFin] at member
    simp at member
  · intro f member
    rw [unclosed.noFin] at member
    cases member

/-- In every run in time, the packet that ends the wait acknowledges our FIN,
with every number that it has had. -/
theorem connRun_completes {env : SalEnv} {host : SalHost} {events : List SockEvent}
    {c c' : Connection} {skb : RcvSkb} (unclosed : Unclosed host)
    (timely : Admits (connStep env) (Timely env) ⟨host, []⟩ events)
    (run : runAll (connStep env) ⟨host, []⟩ events = .ok c)
    (now : Timely env c (.receive skb))
    (step : connStep env c (.receive skb) = .ok c')
    (completes : Completes c.host.sk.skState c'.host.sk.skState) :
    c.host.sk.finSent = true ∧ c.fins ≠ [] ∧ skb.hdr.hasAck = true ∧
      ∀ f ∈ c.fins, after skb.hdr.ackno f = true := by
  have accounted : c.Accounted := runAll_invariant
      (fun c event c' accounted timely step => accounted.step timely step)
      unclosed.accounted timely run
  obtain ⟨host', stepped, step⟩ := of_bind step
  cases step
  have accepts := servalSalStateProcess_completes now.2.2 stepped completes
  simp only [acceptsAck, Bool.and_eq_true, Bool.not_eq_true'] at accepts
  obtain ⟨⟨ack, notOld⟩, notNew⟩ := accepts
  have closes := completes.closesOwn
  have notClosed : c.host.sk.skState ≠ .closed := by
    intro closed
    rw [closed] at closes
    cases closes
  obtain ⟨sent, none, moved⟩ := now.2.1 closes ack
  rcases (accounted.start now.1).live with ⟨-, closed⟩ | ⟨counted, known⟩
  · exact absurd closed notClosed
  refine ⟨sent, known sent, ack, ?_⟩
  intro f member
  obtain ⟨order, used, near, waits⟩ := counted.behind none f (.inl member)
  obtain ⟨low, high⟩ := sub_window order notOld notNew
  have close := now.1 f member
  rw [before, decide_eq_false_iff_not] at close
  apply after_of_sub
  · rintro rfl
    rw [UInt32.sub_self] at low
    have atFin : c.host.sk.sndUna = skb.hdr.ackno :=
      sub_eq_zero.mp (UInt32.toNat.inj (Nat.le_zero.mp low))
    rcases moved with moved | empty
    · exact moved atFin.symm
    · obtain ⟨waiting, inside, -⟩ := waits atFin
      rw [empty] at inside
      cases inside
  · omega

def ackSkb (ackno : UInt32) : RcvSkb :=
  plainSkb { plainControl 7 ackno (Vector.replicate 8 6) with ack := true }

theorem plainConnection_unclosed : Unclosed plainConnection := ⟨by decide, by decide, rfl, rfl, rfl⟩

/-- The user gives the connection up, and the FIN is sent with number 10. -/
theorem release_plainConnection :
    ∃ c, runAll (connStep plainEnv) ⟨plainConnection, []⟩ [.release] = .ok c ∧
      c.host.sk.skState = .finwait1 ∧ c.fins = [10] ∧
      c.host.sk.finSent = true ∧ c.host.sk.ctrlUnsent = [] ∧
      c.host.sk.sndUna = 10 ∧ c.host.sk.sndNxt = 11 ∧
      leaves (connStep plainEnv c (.receive (ackSkb 11)))
        (fun c' => c'.host.sk.skState = .finwait2) = true ∧
      leaves (connStep plainEnv c (.receive (ackSkb 10)))
        (fun c' => c'.host.sk.skState = .finwait2) = true := by
  obtain ⟨c, run, passed⟩ := @exists_of_leaves _
      (runAll (connStep plainEnv) ⟨plainConnection, []⟩ [.release])
      (fun c => c.host.sk.skState = .finwait1 && c.fins = [10] &&
        c.host.sk.finSent && c.host.sk.ctrlUnsent.isEmpty &&
        c.host.sk.sndUna = 10 && c.host.sk.sndNxt = 11 &&
        leaves (connStep plainEnv c (.receive (ackSkb 11)))
          (fun c' => c'.host.sk.skState = .finwait2) &&
        leaves (connStep plainEnv c (.receive (ackSkb 10)))
          (fun c' => c'.host.sk.skState = .finwait2)) (by decide +kernel)
  simp only [Bool.and_eq_true, decide_eq_true_eq, List.isEmpty_iff]
    at passed
  obtain ⟨⟨⟨⟨⟨⟨⟨state, fins⟩, sent⟩, none⟩, una⟩, nxt⟩, acked⟩, stale⟩ := passed
  exact ⟨c, run, state, fins, sent, none, una, nxt, acked, stale⟩

theorem connRun_completes_release : ∃ c c', Unclosed plainConnection ∧
      Admits (connStep plainEnv) (Timely plainEnv) ⟨plainConnection, []⟩
        [.release] ∧ runAll (connStep plainEnv) ⟨plainConnection, []⟩ [.release] = .ok c ∧
      Timely plainEnv c (.receive (ackSkb 11)) ∧
      connStep plainEnv c (.receive (ackSkb 11)) = .ok c' ∧
      Completes c.host.sk.skState c'.host.sk.skState ∧ c.fins = [10] ∧
      (c.host.sk.finSent = true ∧ c.fins ≠ [] ∧ (ackSkb 11).hdr.hasAck = true ∧
        ∀ f ∈ c.fins, after (ackSkb 11).hdr.ackno f = true) := by
  obtain ⟨c, run, state, fins, sent, none, una, nxt, acked, -⟩ := release_plainConnection
  obtain ⟨c', step, reached⟩ := exists_of_leaves acked
  have reached : c'.host.sk.skState = .finwait2 := by simpa using reached
  have timely : Admits (connStep plainEnv) (Timely plainEnv) ⟨plainConnection, []⟩ [.release] :=
    ⟨⟨by simp, trivial⟩, fun _ _ => trivial⟩
  have now : Timely plainEnv c (.receive (ackSkb 11)) := by
    refine ⟨?_, ?_, ?_⟩
    · intro f member
      rw [fins, List.mem_singleton] at member
      rw [member, nxt]
      decide
    · intro _ _
      refine ⟨sent, none, .inl ?_⟩
      rw [una]
      decide
    · rw [state]
      intro impossible
      cases impossible
  have completes : Completes c.host.sk.skState c'.host.sk.skState := by
    rw [state, reached]
    exact .finwait2
  exact ⟨c, c', plainConnection_unclosed, timely, run, now, step, completes, fins,
    connRun_completes plainConnection_unclosed timely run now step
      completes⟩

/-- An acknowledgement of what came in front of the FIN ends the wait. -/
theorem stale_ack_completes : ∃ c c', Unclosed plainConnection ∧
      runAll (connStep plainEnv) ⟨plainConnection, []⟩ [.release] = .ok c ∧ c.fins = [10] ∧
      connStep plainEnv c (.receive (ackSkb 10)) = .ok c' ∧
      Completes c.host.sk.skState c'.host.sk.skState ∧ after (ackSkb 10).hdr.ackno 10 = false := by
  obtain ⟨c, run, state, fins, -, -, -, -, -, stale⟩ := release_plainConnection
  obtain ⟨c', step, reached⟩ := exists_of_leaves stale
  have reached : c'.host.sk.skState = .finwait2 := by simpa using reached
  refine ⟨c, c', plainConnection_unclosed, run, fins, step, ?_, by decide⟩
  rw [state, reached]
  exact .finwait2

end Serval
