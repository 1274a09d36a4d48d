import PqLightning.Commitment.Solvency

/-!
# The balances of a channel never underflow

In every run of a channel, whatever the counterparty sends, both commitments can be built at any
time and a revocation leaves the balance within the channel. The proof takes the accounts through
every event.
-/

namespace PqLightning.Commitment

open List OutboundHTLCState Weights Weighted ChannelState Handled

namespace FundedChannel

/-! ### Every event -/

namespace Steady

variable {crypto : Crypto} {feeEstimator : FeeEstimator} {self self' : FundedChannel}

/-- Once we have committed to them, no removals wait to be. -/
theorem withCommitment (h : self.Solvent) : self.withCommitment.Steady := by
  refine ⟨h.withCommitment, fun _ htlc hmem => ?_⟩
  obtain ⟨htlc', -, rfl⟩ := mem_map.mp hmem
  cases htlc'.state <;> rfl

theorem answered (h : self.Solvent) {commit : Bool} (hsteady : commit = false → self.Steady) :
    (self.answered commit).Steady := by
  cases commit with
  | true => exact withCommitment h
  | false => exact hsteady rfl

theorem withRevocation (h : self.Solvent) (secrets : CounterpartyCommitmentSecrets)
    (point : PublicKey) : (self.withRevocation secrets point).Steady := by
  refine ⟨h.withRevocation secrets point, fun _ htlc hmem => ?_⟩
  obtain ⟨htlc', -, rfl⟩ := mem_map.mp hmem
  cases htlc'.state <;> rfl

variable (h : self.Steady)

include h

/-- Flags that this part does not own, and what is to be sent, may change. -/
theorem frame (hparams : self'.params = self.params)
    (hvalue : self'.valueToSelfMsat = self.valueToSelfMsat)
    (hin : self'.pendingInboundHtlcs = self.pendingInboundHtlcs)
    (hout : self'.pendingOutboundHtlcs = self.pendingOutboundHtlcs)
    (hfee : self'.pendingUpdateFee = self.pendingUpdateFee)
    (hawaiting : self'.channelState.isAwaitingRemoteRevoke =
      self.channelState.isAwaitingRemoteRevoke) : self'.Steady := by
  refine ⟨h.toSolvent.frame hparams hvalue hin hout hfee, ?_⟩
  rw [hawaiting, hout]
  exact h.removals

theorem monitorUpdatingPaused (resendRaa resendCommitment : Bool) :
    (self.monitorUpdatingPaused resendRaa resendCommitment).Steady :=
  h.frame rfl rfl rfl rfl rfl (isAwaitingRemoteRevoke_setMonitorUpdateInProgress _ _)

theorem holderUpdate (hupdate : HolderUpdate crypto feeEstimator self self') :
    self'.Steady := by
  cases hupdate with
  | holdingCell => exact h.frame rfl rfl rfl rfl rfl rfl
  | add hcan hne havailable hmin hlimit =>
    next amountMsat _ _ _ =>
    have hle := Solvent.outbound_le_of_getAvailableBalances h hcan havailable hne hmin hlimit
    refine ⟨⟨fun account => ?_, h.value_le, h.channelValue_lt, h.fee⟩,
      fun hawaiting htlc hmem => ?_⟩
    · have hbefore := h.balance_nonneg account
      cases account <;>
        simp only [balance, funds, channelValueMsat, weighed, outboundTotal, total_append,
          total_cons, total_nil, Account.weights, holderOnLocal,
          holderOnRemote, counterpartyOnLocal, counterpartyOnRemote,
          counterpartyOnNext] at hbefore hle ⊢ <;> omega
    · rcases mem_append.mp hmem with hold | hnew
      · exact h.removals hawaiting htlc hold
      · obtain rfl := mem_singleton.mp hnew
        rfl
  | remove hcan hsplit hcommitted hclaims =>
    refine ⟨h.of_balance_le id (fun account => ?_) rfl h.value_le h.fee, h.removals⟩
    refine Solvent.balance_le rfl rfl rfl ?_ (Int.le_refl _)
    rw [hsplit]
    exact total_le_set rfl (by rw [hcommitted]; exact Solvent.weights_localRemoved account _)
  | fee hcan hfunder hnone =>
    refine ⟨h.of_balance_le id (fun account => Int.le_refl _) rfl h.value_le ?_, h.removals⟩
    simpa [feeUpdateMatchesFunder] using hfunder

theorem holderUpdates
    (hupdates : Relation.ReflTransGen (HolderUpdate crypto feeEstimator) self self') :
    self'.Steady := by
  induction hupdates with
  | refl => exact h
  | tail _ hupdate ih => exact ih.holderUpdate hupdate

theorem updateAddHtlc {msg : Htlc}
    (hok : self.updateAddHtlc feeEstimator msg = .ok self') : self'.Steady := by
  obtain ⟨-, hvalid, rfl⟩ := updateAddHtlc_spec hok
  have hle := h.inbound_le_of_validateUpdateAddHtlc hvalid
  refine ⟨⟨fun account => ?_, h.value_le, h.channelValue_lt, h.fee⟩, h.removals⟩
  have hbefore := h.balance_nonneg account
  cases account <;>
    simp only [balance, funds, channelValueMsat, weighed, inboundTotal, total_append,
      total_cons, total_nil, Account.weights, holderOnLocal,
      holderOnRemote, counterpartyOnLocal, counterpartyOnRemote,
      counterpartyOnNext] at hbefore hle ⊢ <;> omega

theorem updateRemoveHtlc {kind message : String} {htlcId : ℕ}
    {outcome : OutboundHTLCOutcome}
    (hok : self.updateRemoveHtlc crypto kind message htlcId outcome = .ok self') :
    self'.Steady := by
  obtain ⟨l₁, htlc, l₂, hsplit, -, hcommitted, -, rfl⟩ := updateRemoveHtlc_spec hok
  refine ⟨h.of_balance_le id (fun account => ?_) rfl h.value_le h.fee, fun hawaiting => ?_⟩
  · refine Solvent.balance_le rfl rfl rfl (Int.le_refl _) ?_
    rw [hsplit]
    exact total_le_set rfl (by rw [hcommitted]; exact Solvent.weights_remoteRemoved account _)
  · have hbefore := h.removals hawaiting
    simp only [hsplit, forall_mem_append, forall_mem_cons] at hbefore ⊢
    exact ⟨hbefore.1, rfl, hbefore.2.2⟩

theorem updateFee {feerate : UInt32}
    (hok : self.updateFee feeEstimator feerate = .ok self') : self'.Steady := by
  obtain ⟨hfunder, rfl⟩ := updateFee_spec hok
  refine ⟨h.of_balance_le id (fun account => Int.le_refl _) rfl h.value_le ?_, h.removals⟩
  simp [feeUpdateMatchesFunder, hfunder]

theorem commitmentSigned {msg : CommitmentSigned}
    (hok : self.commitmentSigned crypto feeEstimator msg = .ok self') : self'.Steady := by
  obtain ⟨point, -, -, -, rfl⟩ := commitmentSigned_spec hok
  refine (answered (h.withCommitmentSigned point) fun hanswers => ?_).monitorUpdatingPaused _ _
  refine ⟨h.withCommitmentSigned point, fun hawaiting htlc hmem => ?_⟩
  -- there was nothing to commit to, so that no removal was announced
  have hneed : self.needCommitment = false := by
    simpa [answersCommitment, show self.channelState.isAwaitingRemoteRevoke = false from hawaiting]
      using hanswers
  simp only [needCommitment, Bool.or_eq_false_iff, any_eq_false] at hneed
  obtain ⟨htlc', hmem', rfl⟩ := mem_map.mp hmem
  have hbefore := h.removals hawaiting htlc' hmem'
  have hremoved := hneed.2 htlc' hmem'
  revert hbefore hremoved
  cases htlc'.state <;>
    simp [requiresCommitment, isRemoteRemoved,
      onCommitmentSigned]

theorem revokeAndAck {msg : RevokeAndACK}
    (hok : self.revokeAndAck crypto feeEstimator msg = .ok self') : self'.Steady := by
  obtain ⟨secrets, mid, commit, -, hupdates, -, -, rfl⟩ := revokeAndAck_spec hok
  have hmid := (withRevocation h.toSolvent secrets msg.nextPerCommitmentPoint).holderUpdates
    hupdates
  exact (answered hmid.toSolvent fun _ => hmid).monitorUpdatingPaused _ _

theorem disconnected : self.disconnected.Steady := by
  refine ⟨h.toSolvent.disconnected, fun hawaiting htlc hmem => ?_⟩
  obtain ⟨htlc', hmem', rfl⟩ := mem_map.mp hmem
  have hbefore := h.removals (by simpa [FundedChannel.disconnected] using hawaiting) htlc' hmem'
  revert hbefore
  cases htlc'.state <;> simp [onDisconnect, isRemoteRemoved,
    requiresCommitment]

theorem handle {msg : Message}
    (hok : self.handle crypto feeEstimator msg = .ok self') : self'.Steady := by
  cases msg with
  | updateAddHtlc htlc => exact h.updateAddHtlc hok
  | updateFulfillHtlc htlcId preimage => exact h.updateRemoveHtlc hok
  | updateFailHtlc htlcId reason => exact h.updateRemoveHtlc hok
  | updateFailMalformedHtlc htlcId sha256OfOnion failureCode =>
    obtain ⟨-, -, hok⟩ := bind_eq_ok.mp hok
    exact h.updateRemoveHtlc hok
  | updateFee feerate => exact h.updateFee hok
  | commitmentSigned msg => exact h.commitmentSigned hok
  | revokeAndAck msg => exact h.revokeAndAck hok

theorem act {action : Action} {msgs : List Message}
    (hok : self.act crypto feeEstimator action = .ok (some (self', msgs))) : self'.Steady := by
  cases action with
  | sendHtlc amountMsat cltvExpiry paymentHash force =>
    obtain ⟨hok, -⟩ := quietly_eq_ok hok
    obtain ⟨⟨_, sent⟩, hsend, rfl⟩ := map_eq_ok.mp (outcome_eq_some.mp hok)
    have hupdate : HolderUpdate crypto feeEstimator self _ := sendHtlc_spec hsend
    exact h.holderUpdate hupdate
  | fulfillHtlc htlcId preimage =>
    obtain ⟨hok, -⟩ := quietly_eq_ok hok
    obtain ⟨⟨_, fetch⟩, hclaim, hsome⟩ := map_eq_ok.mp hok
    cases hsome
    have hupdate : HolderUpdate crypto feeEstimator self _ := getUpdateFulfillHtlc_spec hclaim
    exact h.holderUpdate hupdate
  | failHtlc htlcId contents force =>
    obtain ⟨hok, -⟩ := quietly_eq_ok hok
    obtain ⟨⟨_, sent⟩, hfail, rfl⟩ := map_eq_ok.mp (outcome_eq_some.mp hok)
    have hupdate : HolderUpdate crypto feeEstimator self _ := failHtlc_spec hfail
    exact h.holderUpdate hupdate
  | sendUpdateFee feerate force =>
    obtain ⟨hok, -⟩ := quietly_eq_ok hok
    obtain ⟨⟨_, sent⟩, hsend, hsome⟩ := map_eq_ok.mp hok
    cases hsome
    have hupdate : HolderUpdate crypto feeEstimator self _ := sendUpdateFee_spec hsend
    exact h.holderUpdate hupdate
  | commit =>
    obtain ⟨hok, -⟩ := quietly_eq_ok hok
    simp only [FundedChannel.commit] at hok
    split at hok
    · obtain ⟨committed, hcommit, hsome⟩ := map_eq_ok.mp hok
      cases hsome
      obtain ⟨-, rfl⟩ := buildCommitmentNoStatusCheck_spec hcommit
      exact (withCommitment h.toSolvent).monitorUpdatingPaused _ _
    · cases hok
  | freeHoldingCell =>
    obtain ⟨hok, -⟩ := quietly_eq_ok hok
    obtain ⟨⟨_, freed⟩, hfree, hsome⟩ := map_eq_ok.mp hok
    cases hsome
    obtain ⟨mid, hupdates, ⟨-, rfl⟩ | ⟨-, -, rfl⟩⟩ := maybeFreeHoldingCellHtlcs_spec hfree
    · exact h.holderUpdates hupdates
    · exact (withCommitment (h.holderUpdates hupdates).toSolvent).monitorUpdatingPaused _ _
  | monitorPaused =>
    obtain ⟨hok, -⟩ := quietly_eq_ok hok
    cases hok
    exact h.monitorUpdatingPaused _ _
  | monitorRestored =>
    obtain ⟨⟨_, msgs'⟩, hrestored, hsome⟩ := map_eq_ok.mp hok
    cases hsome
    obtain ⟨rfl, -⟩ := monitorUpdatingRestored_spec hrestored
    exact h.frame rfl rfl rfl rfl rfl (isAwaitingRemoteRevoke_setMonitorUpdateInProgress _ _)
  | setFlags =>
    obtain ⟨hok, -⟩ := quietly_eq_ok hok
    cases hok
    exact h.frame rfl rfl rfl rfl rfl (isAwaitingRemoteRevoke_setOtherFlags _ _ _ _ _ _)

/-- **Step.** Every event keeps the accounts. -/
theorem step {event : Event} {msgs : List Message}
    (hok : self.step crypto feeEstimator event = .ok (some (self', msgs))) : self'.Steady := by
  cases event with
  | act action => exact h.act hok
  | receive msg =>
    obtain ⟨_, hhandle, hsome⟩ := map_eq_ok.mp (outcome_eq_some.mp hok)
    obtain ⟨rfl, -⟩ := Prod.mk.inj hsome
    exact h.handle hhandle
  | disconnect =>
    obtain ⟨_, hdisconnect, hsome⟩ := map_eq_ok.mp hok
    obtain ⟨rfl, -⟩ := Prod.mk.inj (Option.some.inj hsome)
    rcases removeUncommittedHtlcsAndMarkPaused_spec hdisconnect with ⟨-, rfl⟩ | ⟨-, rfl⟩
    · exact h
    · exact h.disconnected
  | reestablish msg =>
    obtain ⟨⟨_, responses⟩, hreestablish, hsome⟩ := map_eq_ok.mp (outcome_eq_some.mp hok)
    obtain ⟨rfl, -⟩ := Prod.mk.inj hsome
    obtain ⟨raa, update, rfl⟩ := channelReestablish_frame hreestablish
    exact h.frame rfl rfl rfl rfl rfl (isAwaitingRemoteRevoke_setPeerDisconnected _ _)

end Steady

end FundedChannel

end PqLightning.Commitment
