import Serval.Sal.Close
import Serval.Sal.SeqNumbers

/-!
# A FIN whose acknowledgement failed

The number of a FIN is taken before its acknowledgement is sent. When this
fails, the socket stays in its state and waits for the FIN to come again, but
the copy is then an old packet.
-/

namespace Serval

open Serval.Support

/-- A FIN that passes every check. -/
structure ValidFin (host : SalHost) (skb : RcvSkb) : Prop where
  state : host.sk.skState = .connected ∨ host.sk.skState = .finwait1 ∨ host.sk.skState = .finwait2
  fin : skb.hdr.hasFin = true
  noRst : skb.hdr.hasRst = false
  valid : hasValidControlExtension host.sk skb.hdr = true
  verno : hasValidVerno skb.hdr.verno host.sk = true

/-- Where a FIN takes a socket to; in FINWAIT1 it may acknowledge our own FIN
as well. -/
def finTargets : SalState → List SalState
  | .connected => [.closewait]
  | .finwait1 => [.closing, .timewait]
  | .finwait2 => [.timewait]
  | _ => []

section

variable {env : SalEnv} {host host' : SalHost} {skb : RcvSkb} {start : ServalSock}

private theorem servalSalAckProcess_peerNonce {hdr : SalHeader} {acked : Bool}
    (run : servalSalAckProcess env host hdr = .ok (acked, host')) :
    host'.sk.peerNonce = host.sk.peerNonce := by
  rcases (servalSalAckProcess_spec run).2 with
    ⟨-, rfl⟩ | ⟨-, rfl | ⟨_, _, _, _, rfl, -⟩⟩
  · rfl
  · rfl
  · rfl

private theorem Received.peerNonce {sk sk' : ServalSock} (notRequest : start.skState ≠ .request)
    (change : Received env skb start sk sk') :
    sk'.peerNonce = sk.peerNonce := by
  cases change with
  | responded request => exact absurd request notRequest
  | _ => rfl

private theorem rcvMigration_peerNonce (notRequest : host.sk.skState ≠ .request)
    (run : rcvMigration env host skb = .ok host') :
    host'.sk.peerNonce = host.sk.peerNonce := by
  obtain ⟨⟨n, -, acts⟩, -⟩ := @rcvMigration_does _ _ host.sk _ _ run
  refine @Acts.keeps_sk _ _ _ _ _ (fun sk => sk.peerNonce = host.sk.peerNonce) ?_
    (fun changed kept => (changed.peerNonce notRequest).trans kept) ?_ rfl acts
  · rintro sk sk' ⟨_, _, _, _, _, _, _, _, _, _, _, _, -, rfl⟩ kept
    exact kept
  · intro sk sk' skb pushes kept
    cases pushes with
    | rsynack | fin => exact kept

private theorem hasValidControlExtension_same {sk sk' : ServalSock} {hdr : SalHeader}
    (same : sk'.peerNonce = sk.peerNonce) :
    hasValidControlExtension sk' hdr = hasValidControlExtension sk hdr := by
  rw [hasValidControlExtension, hasValidControlExtension, same]

/-! ## The number of the FIN -/

private theorem rcvFinIf_rcvNxt {close : Bool} (fin : skb.hdr.hasFin = true)
    (valid : hasValidControlExtension host.sk skb.hdr = true)
    (run : rcvFinIf env host skb = .ok (close, host')) :
    host'.sk.rcvNxt = skb.hdr.verno + 1 := by
  rw [rcvFinIf, if_pos fin, servalSalRcvFin, valid] at run
  obtain ⟨⟨err, middle⟩, acked, run⟩ := of_bind run
  cases run
  obtain ⟨_, _, _, _, rfl, -⟩ := servalSalSendAck_sends acked
  rfl

/-- The number, once taken, stays for the rest of the packet's treatment. -/
theorem Does.rcvNxt_taken {k : Nat} (taken : host.sk.rcvNxt = skb.hdr.verno + 1)
    (does : Does env (handling env skb start).still k host host') :
    host'.sk.rcvNxt = skb.hdr.verno + 1 := by
  obtain ⟨n, -, acts⟩ := does
  refine @Acts.rcvNxt env n host host' (handling env skb start).still
    (fun next => next = skb.hdr.verno + 1) ?_ ?_ taken acts
  · intro sk sk' changed before
    rcases Received.rcvNxt changed.1.received with same | ⟨-, later⟩
    · exact same.trans before
    · exact later
  · intro sk sk' skb pushes
    cases pushes with
    | fin => rfl

private theorem receiveIf_rcvNxt {wanted : Bool} (taken : host.sk.rcvNxt = skb.hdr.verno + 1)
    (run : receiveIf env host wanted = .ok host') :
    host'.sk.rcvNxt = skb.hdr.verno + 1 :=
  (@receiveIf_does env skb host.sk _ _ _ run).rcvNxt_taken taken

private theorem servalSalConnectedStateProcess_rcvNxt (fin : skb.hdr.hasFin = true)
    (valid : hasValidControlExtension host.sk skb.hdr = true)
    (run : servalSalConnectedStateProcess env host skb = .ok host') :
    host'.sk.rcvNxt = skb.hdr.verno + 1 := by
  obtain ⟨⟨acked, first⟩, processed, run⟩ := of_bind run
  obtain ⟨⟨close, second⟩, finned, run⟩ := of_bind run
  obtain ⟨third, received, run⟩ := of_bind run
  cases run
  rw [← hasValidControlExtension_same (servalSalAckProcess_peerNonce processed)] at valid
  have taken := receiveIf_rcvNxt (rcvFinIf_rcvNxt fin valid finned) received
  split
  · exact taken
  · exact taken

private theorem servalSalFinwait1StateProcess_rcvNxt (fin : skb.hdr.hasFin = true)
    (valid : hasValidControlExtension host.sk skb.hdr = true)
    (run : servalSalFinwait1StateProcess env host skb = .ok host') :
    host'.sk.rcvNxt = skb.hdr.verno + 1 := by
  obtain ⟨⟨acked, first⟩, processed, run⟩ := of_bind run
  obtain ⟨⟨close, second⟩, finned, run⟩ := of_bind run
  rw [← hasValidControlExtension_same (servalSalAckProcess_peerNonce processed)] at valid
  have taken := rcvFinIf_rcvNxt fin valid finned
  refine receiveIf_rcvNxt ?_ run
  split_ifs
  all_goals exact taken

private theorem servalSalFinwait2StateProcess_rcvNxt (fin : skb.hdr.hasFin = true)
    (valid : hasValidControlExtension host.sk skb.hdr = true)
    (run : servalSalFinwait2StateProcess env host skb = .ok host') :
    host'.sk.rcvNxt = skb.hdr.verno + 1 := by
  obtain ⟨⟨close, second⟩, finned, run⟩ := of_bind run
  have taken := rcvFinIf_rcvNxt fin valid finned
  refine receiveIf_rcvNxt ?_ run
  split
  · exact taken
  · exact taken

/-- The number of a FIN is taken, whether it can be acknowledged or not. -/
theorem ValidFin.rcvNxt (valid : ValidFin host skb)
    (run : servalSalStateProcess env host skb = .ok host') :
    host'.sk.rcvNxt = skb.hdr.verno + 1 := by
  have notRequest : host.sk.skState ≠ .request := by
    rcases valid.state with state | state | state <;> rw [state] <;> decide
  rw [servalSalStateProcess, stateProcess, valid.verno, valid.noRst, Bool.not_true,
    Bool.and_false] at run
  obtain ⟨middle, migrated, run⟩ := of_bind run
  have same := (@rcvMigration_does _ _ host.sk _ _ migrated).2.skState
  have known : hasValidControlExtension middle.sk skb.hdr = true := by
    rw [hasValidControlExtension_same (rcvMigration_peerNonce notRequest migrated)]
    exact valid.valid
  rcases valid.state with state | state | state
  · rw [stateSwitch, same, state] at run
    exact servalSalConnectedStateProcess_rcvNxt valid.fin known run
  · rw [stateSwitch, same, state] at run
    exact servalSalFinwait1StateProcess_rcvNxt valid.fin known run
  · rw [stateSwitch, same, state] at run
    exact servalSalFinwait2StateProcess_rcvNxt valid.fin known run

/-- A FIN that did not change the state, because it could not be acknowledged,
changes nothing when it comes again. -/
theorem unacknowledged_fin_ignored {env' : SalEnv} {again : RcvSkb} (valid : ValidFin host skb)
    (run : servalSalStateProcess env host skb = .ok host')
    (unchanged : host'.sk.skState = host.sk.skState)
    (fin : again.hdr.hasFin = true)
    (same : again.hdr.verno = skb.hdr.verno) :
    servalSalStateProcess env' host' again = .ok host' ∧
      ¬ ∃ host'', servalSalStateProcess env' host' again = .ok host'' ∧
        host''.sk.skState ∈ finTargets host.sk.skState := by
  have next := valid.rcvNxt run
  have old : hasValidVerno again.hdr.verno host'.sk = false := by
    have earlier : before again.hdr.verno host'.sk.rcvNxt = true := by rw [same, next, before_succ]
    rcases valid.state with state | state | state
    · simp [hasValidVerno, unchanged, state, earlier]
    · simp [hasValidVerno, unchanged, state, earlier]
    · simp [hasValidVerno, unchanged, state, earlier]
  have ignored : servalSalStateProcess env' host' again = .ok host' := by
    rw [servalSalStateProcess, stateProcess, old, Option.isSome_of_any fin]
    rfl
  refine ⟨ignored, ?_⟩
  rintro ⟨host'', repeated, target⟩
  rw [ignored] at repeated
  cases repeated
  rw [unchanged] at target
  rcases valid.state with state | state | state
  · rw [state] at target
    simp [finTargets] at target
  · rw [state] at target
    simp [finTargets] at target
  · rw [state] at target
    simp [finTargets] at target

end

def fullEnv : SalEnv := { plainEnv with alloc := fun _ => false }

private theorem plainConnection_validFin : ValidFin plainConnection finSkb :=
  ⟨.inl rfl, rfl, rfl, by decide, by decide⟩

theorem unacknowledged_fin_ignored_connected :
    ∃ host', servalSalStateProcess fullEnv plainConnection finSkb = .ok host' ∧
      host'.sk.skState = .connected ∧ servalSalStateProcess plainEnv host' finSkb = .ok host' := by
  obtain ⟨host', run, state⟩ :=
    @exists_of_leaves _ (servalSalStateProcess fullEnv plainConnection finSkb)
      (fun host => host.sk.skState = .connected) (by decide +kernel)
  rw [decide_eq_true_eq] at state
  exact ⟨host', run, state,
    (unacknowledged_fin_ignored plainConnection_validFin run state rfl rfl).1⟩

/-- The FIN closes the connection when it can be acknowledged. When it could
not be acknowledged once, the copy leaves the socket in CONNECTED. -/
theorem unacknowledged_fin_lost : leaves (servalSalStateProcess plainEnv plainConnection finSkb)
        (fun host => host.sk.skState = .closewait) = true ∧
      leaves (servalSalStateProcess fullEnv plainConnection finSkb)
        (fun host => host.sk.skState = .connected &&
          leaves (servalSalStateProcess plainEnv host finSkb)
            fun host => host.sk.skState = .connected) = true := by
  decide +kernel

end Serval
