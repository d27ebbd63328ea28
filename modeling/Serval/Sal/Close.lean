import Serval.Sal.State

/-!
# A FIN that comes again

The peer sends its FIN again when our acknowledgement was lost. The test of
version numbers in front of the state switch takes it for an old packet.
-/

namespace Serval

open Serval.Support

/-- Some packet of the call acknowledges everything in front of `ackno`. -/
def acksWith (host host' : SalHost) (ackno : UInt32) : Bool :=
  (host'.out.drop host.out.length).any fun p =>
    match p.hdr with
    | some hdr => hdr.hasAck && hdr.ackno = ackno
    | none => false

/-- A copy of the FIN with the number `f` that the socket has handled. -/
structure RepeatedFin (host : SalHost) (skb : RcvSkb) (f : UInt32) : Prop where
  state :
    host.sk.skState = .closewait ∨ host.sk.skState = .closing ∨
      host.sk.skState = .lastack ∨ host.sk.skState = .timewait
  rcvNxt : host.sk.rcvNxt = f + 1
  fin : skb.hdr.hasFin = true
  verno : skb.hdr.verno = f
  valid : hasValidControlExtension host.sk skb.hdr = true

section

variable {env : SalEnv} {host : SalHost} {skb : RcvSkb} {f : UInt32}

private theorem RepeatedFin.old (repeated : RepeatedFin host skb f) :
    hasValidVerno skb.hdr.verno host.sk = false := by
  have earlier : before skb.hdr.verno host.sk.rcvNxt = true := by
    rw [repeated.verno, repeated.rcvNxt, before_succ]
  rcases repeated.state with state | state | state | state
  · simp [hasValidVerno, state, earlier]
  · simp [hasValidVerno, state, earlier]
  · simp [hasValidVerno, state, earlier]
  · simp [hasValidVerno, state, earlier]

/-- The handlers of the four states, which would acknowledge it, are never
reached. -/
theorem servalSalStateProcess_repeatedFin (repeated : RepeatedFin host skb f) :
    servalSalStateProcess env host skb = .ok host := by
  have control : skb.hdr.ctrlExt.isSome = true := by
    have fin := repeated.fin
    rw [SalHeader.hasFin] at fin
    cases ext : skb.hdr.ctrlExt with
    | none => simp [ext] at fin
    | some ext => rfl
  rw [servalSalStateProcess, stateProcess, repeated.old, control]
  rfl

/-- A FIN that the socket has had is before the number it expects, so that it is
dropped in front of the handlers that would acknowledge it again. -/
theorem repeatedFin_unacknowledged (repeated : RepeatedFin host skb f) :
    ¬ ∃ host', servalSalStateProcess env host skb = .ok host' ∧
        acksWith host host' (f + 1) = true := by
  rintro ⟨host', run, acked⟩
  rw [servalSalStateProcess_repeatedFin repeated] at run
  cases run
  simp [acksWith] at acked

end

def finSkb : RcvSkb := plainSkb { plainControl 7 10 (Vector.replicate 8 6) with fin := true }

def plainClosewait : SalHost :=
  plainConnection.withSk { plainSock with skState := .closewait, rcvNxt := 8 }

theorem repeatedFin_unacknowledged_closewait : RepeatedFin plainClosewait finSkb 7 ∧
      ¬ ∃ host', servalSalStateProcess plainEnv plainClosewait finSkb = .ok host' ∧
          acksWith plainClosewait host' (7 + 1) = true := by
  have repeated : RepeatedFin plainClosewait finSkb 7 := ⟨.inl rfl, rfl, rfl, rfl, by decide⟩
  exact ⟨repeated, repeatedFin_unacknowledged repeated⟩

/-- The first copy is acknowledged, the second one is not. -/
theorem second_fin_unacknowledged : ∃ host₁,
      servalSalStateProcess plainEnv plainConnection finSkb = .ok host₁ ∧
      host₁.sk.skState = .closewait ∧ host₁.sk.rcvNxt = 7 + 1 ∧
      acksWith plainConnection host₁ (7 + 1) = true ∧
      servalSalStateProcess plainEnv host₁ finSkb = .ok host₁ ∧
      acksWith host₁ host₁ (7 + 1) = false := by
  obtain ⟨host₁, run, passed⟩ :=
    @exists_of_leaves _ (servalSalStateProcess plainEnv plainConnection finSkb)
      (fun host => host.sk.skState = .closewait && host.sk.rcvNxt = 8 &&
        acksWith plainConnection host 8 &&
        hasValidControlExtension host.sk finSkb.hdr) (by decide +kernel)
  simp only [Bool.and_eq_true, decide_eq_true_eq] at passed
  obtain ⟨⟨⟨state, next⟩, acked⟩, valid⟩ := passed
  have repeated : RepeatedFin host₁ finSkb 7 := ⟨.inl state, next, rfl, rfl, valid⟩
  refine ⟨host₁, run, state, next, acked, servalSalStateProcess_repeatedFin repeated, ?_⟩
  simp [acksWith]

end Serval
