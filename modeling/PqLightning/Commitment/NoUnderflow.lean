import PqLightning.Commitment.Balance

/-!
# No balance underflows in any run

Only the subtractions of a commitment that is built can underflow. They do not in a channel whose
accounts are not overdrawn, and all the other functions do not subtract balances in this way, so
that no event makes a channel underflow.
-/

namespace PqLightning

/-- A check in front of a computation, -/
theorem Avoids.assert {α : Type} {p : Prop} [Decidable p] {panic : Panic}
    {f : Unit → Except Panic α}
    (hpanic : panic ≠ .underflow) (h : Avoids .underflow (f ())) :
    Avoids .underflow (Panic.unless p panic >>= f) :=
  .bind (.panicUnless hpanic) fun _ _ => h

/-- and one that refuses. -/
theorem Avoids.check {ε α : Type} {p : Prop} [Decidable p] {e : ε}
    {f : Unit → Commitment.Handled ε α}
    (h : Avoids (.panic .underflow) (f ())) :
    Avoids (.panic .underflow) (Commitment.Handled.check p e >>= f) :=
  .bind Commitment.Handled.check_ne_panic fun _ _ => h

/-! ### The predictions -/

theorem avoids_unwrap {α : Type} {o : Option α} : Avoids Panic.underflow (unwrap o) := by
  cases o with
  | none => exact .error (by decide)
  | some a => exact .ok

section Predictions

variable {isLocal funder spike : Bool} {channelValue value addl maxDust dustLimit a b c d e : ℕ}
  {htlcs : List HTLCAmountDirection} {feerate spiked : UInt32} {limiting : Option UInt32}
  {constraints : ChannelConstraints} {channelType : ChannelTypeFeatures}

theorem avoids_getDustExposureStats :
    Avoids .underflow (getDustExposureStats isLocal htlcs feerate limiting dustLimit
      channelType) := by
  refine .assert (by decide) <| .assert (by decide) <| ?_
  split <;> exact .ok

theorem avoids_getNextCommitmentStats :
    Avoids .underflow (getNextCommitmentStats isLocal funder channelValue value htlcs addl
      feerate spike limiting dustLimit channelType) := by
  unfold getNextCommitmentStats
  refine .assert (by decide) <| ?_
  split
  case h_2 => exact .ok
  split
  case h_2 => exact .ok
  split
  case h_2 => exact .ok
  split
  case h_2 => exact .ok
  refine .bind avoids_getDustExposureStats fun _ _ => ?_
  dsimp only
  split <;> split
  · exact .ok
  · split <;> exact .ok
  · exact .ok
  · split <;> exact .ok

theorem avoids_assertSpliceOutMaximum : Avoids .underflow (assertSpliceOutMaximum a b c d e) := by
  unfold assertSpliceOutMaximum
  split
  · exact .bind avoids_unwrap fun _ _ => .panicUnless (by decide)
  · refine .bind avoids_unwrap fun _ _ => .assert (by decide) <| ?_
    dsimp only
    split
    · exact .panicUnless (by decide)
    · exact .ok

theorem avoids_getAvailableBalances :
    Avoids .underflow (getAvailableBalances funder channelValue value htlcs feerate limiting maxDust
      constraints channelType) := by
  have hsplice {a b c : ℕ} :
      Avoids .underflow (spliceOutMaximumAboveReserve a b c constraints) := by
    unfold spliceOutMaximumAboveReserve
    split
    · exact .bind avoids_assertSpliceOutMaximum fun _ _ => .ok
    · exact .ok
  have hcounterparty {a b c d : ℕ} : Avoids .underflow
      (capacityAfterCounterpartyFee a b c d feerate constraints channelType) := by
    unfold capacityAfterCounterpartyFee
    dsimp only
    split
    · exact .assert (by decide) <| .ok
    · exact .ok
  have hcapacity {a b c d : ℕ} {spiked : UInt32} : Avoids .underflow
      (adjustCapacityForReservedFee funder a b c d feerate spiked constraints channelType) := by
    unfold adjustCapacityForReservedFee
    split
    · exact .ok
    · exact .bind hcounterparty fun _ _ => .bind hcounterparty fun _ _ => .ok
  unfold getAvailableBalances
  refine .bind avoids_unwrap fun _ _ => .bind (.bind hsplice fun _ _ => .ok) fun _ _ =>
    .bind hcapacity fun _ _ => .bind ?_ fun _ _ => .ok
  exact .bind avoids_getDustExposureStats fun _ _ =>
    .bind avoids_getDustExposureStats fun _ _ => .ok

theorem avoids_getChannelStats :
    Avoids .underflow (getChannelStats isLocal funder channelValue value htlcs addl feerate
      spike limiting maxDust constraints channelType) := by
  refine .bind avoids_getNextCommitmentStats fun stats _ => ?_
  cases stats with
  | none => exact .ok
  | some stats => exact .bind avoids_getAvailableBalances fun _ _ => .ok

theorem avoids_getAvailableBalancesForScope :
    Avoids .underflow (getAvailableBalancesForScope funder channelValue value htlcs feerate limiting
      maxDust constraints channelType) := by
  refine .bind avoids_getChannelStats fun stats _ => ?_
  cases stats with
  | none => exact .ok
  | some stats =>
    dsimp only
    split
    · exact .bind avoids_getChannelStats fun _ _ =>
        .bind avoids_unwrap fun _ _ => .assert (by decide) <| .ok
    · exact .ok

end Predictions

namespace Commitment

/-! ### The results of handlers -/

section Handled

variable {ε α : Type}

theorem avoids_refuse {e : ε} : Avoids (.panic .underflow) (Handled.refuse e : Handled ε α) :=
  .error (by simp)

theorem avoids_check {p : Prop} [Decidable p] {e : ε} :
    Avoids (.panic .underflow) (Handled.check p e) := Handled.check_ne_panic

theorem avoids_orRefuse {o : Option α} {e : ε} :
    Avoids (.panic .underflow) (Handled.orRefuse o e) := Handled.orRefuse_ne_panic

theorem avoids_lift {x : Except Panic α} (h : Avoids .underflow x) :
    Avoids (.panic .underflow) (Handled.lift x : Handled ε α) := fun hpanic =>
  h (Handled.lift_eq_panic.mp hpanic)

theorem avoids_outcome {x : Handled ε α} (h : Avoids (.panic .underflow) x) :
    Avoids .underflow x.outcome := fun hpanic => h (Handled.outcome_eq_error.mp hpanic)

end Handled

namespace FundedChannel

variable {crypto : Crypto} {feeEstimator : FeeEstimator} {self : FundedChannel}

/-! ### The holder's updates -/

theorem avoids_getNextStats {isLocal unknown : Bool} {candidate : Option HTLCAmountDirection}
    {addl : ℕ} {feerate : UInt32} {limiting : Option UInt32} :
    Avoids .underflow (self.getNextStats isLocal candidate unknown addl feerate limiting) :=
  .bind avoids_getChannelStats fun _ _ => .ok

theorem avoids_sendHtlc {amountMsat cltvExpiry : ℕ} {paymentHash : Bytes32} {force : Bool} :
    Avoids (.panic .underflow)
      (self.sendHtlc feeEstimator amountMsat cltvExpiry paymentHash force) := by
  refine .check <| .check <|
    .bind (avoids_lift avoids_getAvailableBalancesForScope) fun _ _ =>
    .bind avoids_orRefuse fun _ _ => .check <| .check <| .check <| ?_
  split <;> exact .ok

theorem avoids_getUpdateFulfillHtlc {htlcId : ℕ} {preimage : Bytes32} :
    Avoids .underflow (self.getUpdateFulfillHtlc crypto htlcId preimage) := by
  refine .assert (by decide) <| ?_
  split
  · exact .ok
  refine .assert (by decide) <| ?_
  split
  · exact .ok
  · split
    · split
      · exact .ok
      · exact .error (by decide)
      · exact .ok
    · exact .ok
  · exact .error (by decide)

theorem avoids_failHtlc {htlcId : ℕ} {contents : FailHTLCContents} {force : Bool} :
    Avoids (.panic .underflow) (self.failHtlc htlcId contents force) := by
  have hidx (htlcs : List InboundHTLCOutput) (idx : ℕ) (found : Option ℕ) :
      Avoids (.panic .underflow) (pendingIdx htlcId htlcs idx found) := by
    induction htlcs generalizing idx found with
    | nil => exact .ok
    | cons htlc htlcs ih =>
      unfold pendingIdx
      split
      · split
        · exact ih _ _
        · exact avoids_refuse
        · exact .error (by simp)
      · exact ih _ _
  refine .bind (avoids_lift (.panicUnless (by decide))) fun _ _ => .bind (hidx _ _ _) fun _ _ =>
    .bind avoids_orRefuse fun _ _ => .bind (avoids_lift (.panicUnless (by decide))) fun _ _ => ?_
  split
  · split
    · exact avoids_refuse
    · exact avoids_refuse
    · exact .ok
  · exact .ok

theorem avoids_sendUpdateFee {feerate : UInt32} {force : Bool} :
    Avoids .underflow (self.sendUpdateFee feeEstimator feerate force) := by
  have hcan : Avoids .underflow (self.canSendUpdateFee feeEstimator feerate) := by
    refine .bind avoids_getNextStats fun stats _ => ?_
    cases stats with
    | none => exact .ok
    | some stats =>
      dsimp only
      split
      · exact .ok
      split
      · exact .ok
      refine .bind avoids_getNextStats fun stats _ => ?_
      cases stats <;> exact .ok
  refine .assert (by decide) <| .assert (by decide) <|
    .assert (by decide) <| .assert (by decide) <|
    .bind hcan fun _ _ => ?_
  split
  · exact .ok
  split
  · exact .ok
  · exact .assert (by decide) <| .ok

/-! ### Commitments -/

theorem Solvent.avoids_buildCommitmentTransaction (h : self.Solvent) (number : ℕ)
    (point : PublicKey)
    (isLocal : Bool) :
    Avoids .underflow (self.buildCommitmentTransaction number point isLocal (!isLocal)) := by
  obtain ⟨tx, htx⟩ := h.exists_build number point isLocal
  rw [htx]
  exact .ok

theorem Solvent.avoids_buildCommitmentNoStateUpdate (h : self.Solvent) :
    Avoids .underflow self.buildCommitmentNoStateUpdate :=
  .bind avoids_unwrap fun _ _ => h.avoids_buildCommitmentTransaction _ _ false

theorem Solvent.avoids_buildCommitmentNoStatusCheck (h : self.Solvent) :
    Avoids .underflow self.buildCommitmentNoStatusCheck :=
  .assert (by decide) <|
    .bind h.promoteForCommitment.avoids_buildCommitmentNoStateUpdate fun _ _ => .ok

theorem avoids_freeHoldingCellUpdate (update : HTLCUpdateAwaitingACK) :
    Avoids .underflow (self.freeHoldingCellUpdate crypto feeEstimator update) := by
  have hfail (htlcId : ℕ) (contents : FailHTLCContents) :
      Avoids .underflow (freeHoldingCellUpdate.freeFail self htlcId contents) := by
    have hfail : Avoids (.panic .underflow) (self.failHtlc htlcId contents false) :=
      avoids_failHtlc
    simp only [freeHoldingCellUpdate.freeFail]
    split
    · exact .assert (by decide) <| .ok
    · exact .ok
    · exact .error (by decide)
    · next hpanic => exact .error fun h => hfail (by rw [hpanic, h])
  cases update with
  | addHtlc amountMsat cltvExpiry paymentHash =>
    have hsend : Avoids (.panic .underflow)
        (self.sendHtlc feeEstimator amountMsat cltvExpiry paymentHash false) :=
      avoids_sendHtlc
    simp only [freeHoldingCellUpdate]
    split
    · exact .assert (by decide) <| .ok
    · exact .ok
    · next hpanic => exact .error fun h => hsend (by rw [hpanic, h])
  | claimHtlc preimage htlcId =>
    refine .bind avoids_getUpdateFulfillHtlc fun claimed _ => ?_
    obtain ⟨mid, _ | _⟩ := claimed
    · exact .ok
    · exact .error (by decide)
  | failHtlc htlcId errPacket => exact hfail _ _
  | failMalformedHtlc htlcId failureCode sha256OfOnion => exact hfail _ _

theorem avoids_freeHoldingCellUpdates (updates : List HTLCUpdateAwaitingACK) :
    Avoids .underflow (self.freeHoldingCellUpdates crypto feeEstimator updates) := by
  induction updates generalizing self with
  | nil => exact .ok
  | cons update updates ih =>
    exact .bind (avoids_freeHoldingCellUpdate update) fun _ _ => .bind ih fun _ _ => .ok

theorem Steady.avoids_maybeFreeHoldingCellHtlcs (h : self.Steady) :
    Avoids .underflow (self.maybeFreeHoldingCellHtlcs crypto feeEstimator) := by
  unfold maybeFreeHoldingCellHtlcs
  split
  swap
  · exact .ok
  refine .assert (by decide) <| .assert (by decide) <|
    .assert (by decide) <| ?_
  split
  · exact .ok
  refine .bind (avoids_freeHoldingCellUpdates _) fun updated hupdated => .bind ?_ fun charged
    hcharged => ?_
  · unfold freeHoldingCellUpdateFee
    split
    · exact avoids_sendUpdateFee
    · exact .ok
  · have hcell : FundedChannel.Steady { self with holdingCellHtlcUpdates := [] } :=
      h.frame rfl rfl rfl rfl rfl rfl
    have hfee : Relation.ReflTransGen (HolderUpdate crypto feeEstimator) updated.1 charged.1 :=
      freeHoldingCellUpdateFee_spec hcharged
    have hmid := (hcell.holderUpdates (freeHoldingCellUpdates_spec hupdated)).holderUpdates hfee
    dsimp only
    split
    · exact .ok
    · exact .bind hmid.avoids_buildCommitmentNoStatusCheck fun _ _ => .ok

/-! ### Messages -/

theorem avoids_validateUpdateAddHtlc (msg : Htlc) :
    Avoids (.panic .underflow) (self.validateUpdateAddHtlc feeEstimator msg) :=
  .check <| .bind (avoids_lift avoids_getNextStats) fun _ _ =>
    .bind avoids_orRefuse fun _ _ => .check <| .check <| .check <|
    .bind (avoids_lift avoids_getNextStats) fun _ _ =>
    .bind avoids_orRefuse fun _ _ => .ok

theorem avoids_updateAddHtlc (msg : Htlc) :
    Avoids (.panic .underflow) (self.updateAddHtlc feeEstimator msg) :=
  .check <| .check <| .check <| .check <| .check <| .check <| .check <| .check <|
    .bind (avoids_validateUpdateAddHtlc msg) fun _ _ => .ok

theorem avoids_updateRemoveHtlc {kind message : String} {htlcId : ℕ}
    {outcome : OutboundHTLCOutcome} :
    Avoids (.panic .underflow) (self.updateRemoveHtlc crypto kind message htlcId outcome) := by
  refine .check <| .check <| .check <| .bind avoids_orRefuse fun _ _ => .check <| ?_
  split
  · exact avoids_refuse
  · exact .ok
  · exact avoids_refuse

theorem avoids_updateFee (feerate : UInt32) :
    Avoids (.panic .underflow) (self.updateFee feeEstimator feerate) := by
  refine .check <| .check <| .check <| .check <| .bind ?_ fun _ _ => .ok
  cases feeEstimator.checkRemoteFee self.params.channelType feerate (some self.feeratePerKw) with
  | ok => exact .ok
  | error e => exact .error (by simp)

theorem avoids_validatePendingUpdateFee :
    Avoids (.panic .underflow) (self.validatePendingUpdateFee feeEstimator) := by
  unfold validatePendingUpdateFee
  split
  · exact .bind (avoids_lift (.panicUnless (by decide))) fun _ _ =>
      .bind (avoids_lift avoids_getNextStats) fun _ _ =>
      .bind avoids_orRefuse fun _ _ => .check <|
      .bind (avoids_lift avoids_getNextStats) fun _ _ =>
      .bind avoids_orRefuse fun _ _ => .check <| avoids_check
  · exact .ok

theorem avoids_subU64 {a b : ℕ} : Avoids Panic.underflow (subU64 a b) := by
  unfold subU64
  split
  · exact .ok
  · exact .error (by decide)

theorem Steady.avoids_commitmentSigned (h : self.Steady) (msg : CommitmentSigned) :
    Avoids (.panic .underflow) (self.commitmentSigned crypto feeEstimator msg) := by
  have hcheck : Avoids (.panic .underflow) self.commitmentSignedCheckState :=
    .check <| .check <| .check <| avoids_check
  have hvalidate : Avoids (.panic .underflow)
      (self.validateCommitmentSigned crypto feeEstimator msg) :=
    .bind (avoids_lift (h.avoids_buildCommitmentTransaction _ _ true)) fun _ _ =>
      .check <| .check <| .bind avoids_validatePendingUpdateFee fun _ _ => .check <|
      avoids_check
  refine .bind hcheck fun _ _ => .bind hvalidate fun _ _ => avoids_lift ?_
  refine .bind (.bind avoids_subU64 fun _ _ => .bind avoids_subU64 fun _ _ => .ok)
    fun point _ => ?_
  have hsigned := h.withCommitmentSigned point
  dsimp only
  split
  · split
    · refine Solvent.avoids_buildCommitmentNoStatusCheck ?_
      exact hsigned.frame rfl rfl rfl rfl rfl
    · exact .ok
  · split
    · exact .bind hsigned.avoids_buildCommitmentNoStatusCheck fun _ _ => .ok
    · exact .ok

theorem Steady.avoids_revokeAndAck (h : self.Steady) (msg : RevokeAndACK) :
    Avoids (.panic .underflow) (self.revokeAndAck crypto feeEstimator msg) := by
  have hcheck : Avoids (.panic .underflow) (self.revokeAndAckCheck crypto msg) :=
    .check <| .check <| .check <| .check <| .check <| .check <| avoids_check
  refine .bind hcheck fun _ _ => .bind avoids_orRefuse fun secrets _ =>
    .bind (avoids_lift avoids_subU64) fun number _ =>
    .bind (avoids_lift (.panicUnless (by decide))) fun _ _ => ?_
  have hrevoked : FundedChannel.Steady { self.promoteForRevokeAndAck with
      commitmentSecrets := secrets
      counterpartyNextCommitmentTransactionNumber := number
      channelState := self.channelState.setAwaitingRemoteRevoke false
      counterpartyCurrentCommitmentPoint := self.counterpartyNextCommitmentPoint
      counterpartyNextCommitmentPoint := some msg.nextPerCommitmentPoint } :=
    (Steady.withRevocation h.toSolvent secrets msg.nextPerCommitmentPoint).frame
      rfl rfl rfl rfl rfl rfl
  refine .bind (avoids_lift hrevoked.avoids_maybeFreeHoldingCellHtlcs) fun freed hfreed => ?_
  obtain ⟨mid, hupdates, hresult⟩ := maybeFreeHoldingCellHtlcs_spec (Handled.lift_eq_ok.mp hfreed)
  dsimp only
  split
  · exact .ok
  split
  · rcases hresult with ⟨-, hmid⟩ | ⟨htrue, -⟩
    · have hsteady := hrevoked.holderUpdates hupdates
      rw [← hmid] at hsteady
      exact .bind (avoids_lift hsteady.avoids_buildCommitmentNoStatusCheck) fun _ _ => .ok
    · contradiction
  · exact .ok

theorem Steady.avoids_handle (h : self.Steady) (msg : Message) :
    Avoids (.panic .underflow) (self.handle crypto feeEstimator msg) := by
  cases msg with
  | updateAddHtlc htlc => exact avoids_updateAddHtlc htlc
  | updateFulfillHtlc htlcId preimage => exact avoids_updateRemoveHtlc
  | updateFailHtlc htlcId reason => exact avoids_updateRemoveHtlc
  | updateFailMalformedHtlc htlcId sha256OfOnion failureCode =>
    exact .check <| avoids_updateRemoveHtlc
  | updateFee feerate => exact avoids_updateFee feerate
  | commitmentSigned msg => exact h.avoids_commitmentSigned msg
  | revokeAndAck msg => exact h.avoids_revokeAndAck msg

/-! ### Events -/

theorem Solvent.avoids_getLastCommitmentUpdateForSend (h : self.Solvent) :
    Avoids .underflow self.getLastCommitmentUpdateForSend :=
  .bind (.bind h.avoids_buildCommitmentNoStateUpdate fun _ _ => .ok) fun _ _ => .ok

theorem avoids_getLastRevokeAndAck : Avoids .underflow (self.getLastRevokeAndAck crypto) :=
  .assert (by decide) <| .ok

theorem Solvent.avoids_monitorUpdatingRestored (h : self.Solvent) :
    Avoids .underflow (self.monitorUpdatingRestored crypto) := by
  refine .assert (by decide) <| ?_
  dsimp only
  split
  · exact .ok
  refine .bind ?_ fun _ _ => .bind ?_ fun _ _ => .ok
  · unfold pendingRevokeAndAck
    split
    · exact .map avoids_getLastRevokeAndAck
    · exact .ok
  · unfold pendingCommitmentUpdate
    split
    · exact h.avoids_getLastCommitmentUpdateForSend
    · exact .ok

theorem Steady.avoids_act (h : self.Steady) (action : Action) :
    Avoids .underflow (self.act crypto feeEstimator action) := by
  cases action with
  | sendHtlc amountMsat cltvExpiry paymentHash force =>
    exact .map (avoids_outcome (.map avoids_sendHtlc))
  | fulfillHtlc htlcId preimage => exact .map (.map avoids_getUpdateFulfillHtlc)
  | failHtlc htlcId contents force => exact .map (avoids_outcome (.map avoids_failHtlc))
  | sendUpdateFee feerate force => exact .map (.map avoids_sendUpdateFee)
  | commit =>
    refine .map ?_
    unfold commit
    split
    · exact .map h.avoids_buildCommitmentNoStatusCheck
    · exact .ok
  | freeHoldingCell => exact .map (.map h.avoids_maybeFreeHoldingCellHtlcs)
  | monitorPaused => exact .map (.ok)
  | monitorRestored => exact .map h.avoids_monitorUpdatingRestored
  | setFlags => exact .map (.ok)

theorem avoids_channelReestablishCheck (msg : ChannelReestablish) :
    Avoids (.panic .underflow) (self.channelReestablishCheck crypto msg) := by
  have hgiven (point : Option PublicKey) (secret : Bytes32) :
      Avoids (.panic .underflow) (checkGivenSecret crypto point secret) :=
    .bind (avoids_lift avoids_unwrap) fun _ _ => avoids_check
  have hsecret : Avoids (.panic .underflow) (self.checkLastSecret crypto msg) := by
    simp only [checkLastSecret]
    split
    · exact .ok
    refine .check <| ?_
    split
    · exact .check <| .error (by simp)
    split
    · exact hgiven _ _
    split
    · exact hgiven _ _
    · exact .ok
  exact .check <| .check <| .bind hsecret fun _ _ => avoids_check

theorem Steady.avoids_channelReestablish (h : self.Steady) (msg : ChannelReestablish) :
    Avoids (.panic .underflow) (self.channelReestablish crypto msg) := by
  refine .bind (avoids_channelReestablishCheck msg) fun _ _ => .bind ?_ fun revoked hrevoked => ?_
  · simp only [requiredRevoke]
    split
    · exact .ok
    split
    · split
      · exact .ok
      · exact .bind (avoids_lift avoids_getLastRevokeAndAck) fun _ _ => .ok
    · exact .error (by simp)
  have hsolvent : revoked.1.Solvent := by
    simp only [requiredRevoke] at hrevoked
    split at hrevoked
    · cases hrevoked
      exact h.toSolvent.frame rfl rfl rfl rfl rfl
    split at hrevoked
    · split at hrevoked
      · cases hrevoked
        exact h.toSolvent.frame rfl rfl rfl rfl rfl
      · obtain ⟨_, -, hrevoked⟩ := bind_eq_ok.mp hrevoked
        cases hrevoked
        exact h.toSolvent.frame rfl rfl rfl rfl rfl
    · cases hrevoked
  dsimp only
  split
  · exact .ok
  split
  · split
    · exact .ok
    · exact .bind (avoids_lift hsolvent.avoids_getLastCommitmentUpdateForSend) fun _ _ => .ok
  split <;> exact avoids_refuse

/-- **No event underflows.** -/
theorem Steady.avoids_step (h : self.Steady) (event : Event) :
    Avoids .underflow (self.step crypto feeEstimator event) := by
  cases event with
  | act action => exact h.avoids_act action
  | receive msg => exact avoids_outcome (.map (h.avoids_handle msg))
  | disconnect =>
    refine .map (.assert (by decide) <| ?_)
    split
    · exact .ok
    · exact .bind avoids_subU64 fun _ _ => .assert (by decide) <| .ok
  | reestablish msg => exact avoids_outcome (.map (h.avoids_channelReestablish msg))

/-! ### Runs -/

/-- A channel with nothing pending but committed HTLCs, which the balances cover. -/
structure AtRest (ch : FundedChannel) : Prop where
  channelValue_le : ch.params.channelValueSatoshis ≤ totalBitcoinSupplySatoshis
  not_awaiting : ch.channelState.isAwaitingRemoteRevoke = false
  inbound_committed : ∀ htlc ∈ ch.pendingInboundHtlcs, htlc.state = .committed
  outbound_committed : ∀ htlc ∈ ch.pendingOutboundHtlcs, htlc.state = .committed
  no_fee_update : ch.pendingUpdateFee = none
  holder_covers : (ch.pendingOutboundHtlcs.map (·.amountMsat)).sum ≤ ch.valueToSelfMsat
  counterparty_covers : ch.valueToSelfMsat + (ch.pendingInboundHtlcs.map (·.amountMsat)).sum ≤
    ch.params.channelValueSatoshis * 1000

theorem AtRest.steady (h : self.AtRest) : self.Steady := by
  have hsupply := h.channelValue_le
  have hholder := h.holder_covers
  have hcounterparty := h.counterparty_covers
  have hvalue : self.channelValueMsat = self.params.channelValueSatoshis * 1000 := rfl
  rw [totalBitcoinSupplySatoshis] at hsupply
  -- no HTLC counts for less than its amount against a balance
  have hin : (((self.pendingInboundHtlcs.map (·.amountMsat)).sum : ℕ) : ℤ) =
      Weighted.total (·.amountMsat) (fun _ => 1) self.pendingInboundHtlcs := by
    simpa using @Weighted.cast_sum_filter _ (·.amountMsat) (fun _ => true) self.pendingInboundHtlcs
  have hout : (((self.pendingOutboundHtlcs.map (·.amountMsat)).sum : ℕ) : ℤ) =
      Weighted.total (·.amountMsat) (fun _ => 1) self.pendingOutboundHtlcs := by
    simpa using @Weighted.cast_sum_filter _ (·.amountMsat) (fun _ => true) self.pendingOutboundHtlcs
  have hinWeights (c : ℤ) (w : InboundHTLCState → ℤ) (hw : w .committed = c) :
      inboundTotal w self.pendingInboundHtlcs =
        c * Weighted.total (·.amountMsat) (fun _ => 1) self.pendingInboundHtlcs := by
    rw [← Weighted.total_mul]
    exact Weighted.total_congr fun htlc hmem => by rw [h.inbound_committed htlc hmem, hw, mul_one]
  have houtWeights (c : ℤ) (w : OutboundHTLCState → ℤ) (hw : w .committed = c) :
      outboundTotal w self.pendingOutboundHtlcs =
        c * Weighted.total (·.amountMsat) (fun _ => 1) self.pendingOutboundHtlcs := by
    rw [← Weighted.total_mul]
    exact Weighted.total_congr fun htlc hmem => by rw [h.outbound_committed htlc hmem, hw, mul_one]
  refine ⟨⟨fun account => ?_, by omega, by omega, ?_⟩, fun _ htlc hmem => ?_⟩
  · cases account <;>
      simp only [balance, funds, weighed, hinWeights _ _ rfl, houtWeights _ _ rfl, Account.weights,
        Weights.holderOnLocal, Weights.holderOnRemote, Weights.counterpartyOnLocal,
        Weights.counterpartyOnRemote, Weights.counterpartyOnNext] <;> omega
  · rw [feeUpdateMatchesFunder, h.no_fee_update]
  · rw [h.outbound_committed htlc hmem]
    rfl

end FundedChannel

/-- **Run.** The accounts are not overdrawn in any state of a run. -/
theorem Reachable.steady {crypto : Crypto} {start self : FundedChannel} (hstart : start.AtRest)
    (h : Reachable crypto start self) : self.Steady := by
  induction h with
  | start => exact hstart.steady
  | step _ hstep ih => exact ih.step hstep

/-- **No balance underflows.** In every state of every run, whatever the counterparty sends, both
commitments can be built, a revocation leaves our balance between zero and the value of the channel,
and no event makes a subtraction of balances fail. -/
theorem reachable_balances_nonneg {crypto : Crypto} {start self : FundedChannel}
    (hstart : start.AtRest) (h : Reachable crypto start self) :
    (∀ number point, (∃ tx, self.buildCommitmentTransaction number point true false = .ok tx) ∧
      ∃ tx, self.buildCommitmentTransaction number point false true = .ok tx) ∧
    (0 ≤ self.valueToSelfMsat + self.valueToSelfMsatDiff ∧
      self.valueToSelfMsat + self.valueToSelfMsatDiff ≤ self.params.channelValueSatoshis * 1000 ∧
      self.promoteForRevokeAndAck.valueToSelfMsat =
        self.valueToSelfMsat + self.valueToSelfMsatDiff) ∧
    ∀ feeEstimator event, self.step crypto feeEstimator event ≠ .error .underflow := by
  have hsteady := h.steady hstart
  refine ⟨fun number point => ⟨hsteady.exists_build number point true,
    hsteady.exists_build number point false⟩, ?_,
    fun feeEstimator event => hsteady.avoids_step event⟩
  obtain ⟨hnonneg, hle⟩ := hsteady.revoked_value_mem
  rw [hsteady.valueToSelfMsatDiff_eq]
  exact ⟨hnonneg, by exact_mod_cast hle, hsteady.revoked_value_eq⟩

def plainCrypto : Crypto where
  sha256 := id
  isSecretKey _ := true
  publicKey _ := Vector.replicate 33 2
  verify _ _ := true
  verifyHtlc _ _ _ := true

def plainEstimator : FeeEstimator := ⟨253, 253, 253, 253, 253⟩

def plainChannel : FundedChannel where
  params := {
    isOutboundFromHolder := true
    channelValueSatoshis := 1000000
    channelType := ⟨true, false⟩
    constraints := ⟨354, 10000, 354, 10000, 1, 1000000000, 50⟩
    holderHtlcMinimumMsat := 1
    holderMaxAcceptedHtlcs := 50
    holderMaxHtlcValueInFlightMsat := 1000000000
    maxDustHtlcExposure := .fixedLimitMsat 5000000
    commitmentSeed := Vector.replicate 32 7 }
  channelState := .channelReady ⟨⟨false, false, false, false⟩, false, false, false, false⟩
  valueToSelfMsat := 500000000
  pendingInboundHtlcs := []
  pendingOutboundHtlcs := []
  holdingCellHtlcUpdates := []
  holdingCellUpdateFee := none
  feeratePerKw := 253
  pendingUpdateFee := none
  nextHolderHtlcId := 0
  nextCounterpartyHtlcId := 0
  resendOrder := .commitmentFirst
  monitorPendingRevokeAndAck := false
  monitorPendingCommitmentSigned := false
  monitorPendingChannelReady := false
  closingFeeSent := false
  holderCommitmentPoint := {
    nextTransactionNumber := initialCommitmentNumber - 1
    currentPoint := some (Vector.replicate 33 2)
    nextPoint := Vector.replicate 33 2
    pendingNextPoint := Vector.replicate 33 2
    previousRevokedPoint := none
    lastRevokedPoint := none }
  counterpartyNextCommitmentTransactionNumber := initialCommitmentNumber - 1
  counterpartyCurrentCommitmentPoint := some (Vector.replicate 33 2)
  counterpartyNextCommitmentPoint := some (Vector.replicate 33 2)
  commitmentSecrets := .new

theorem plainChannel_atRest : plainChannel.AtRest where
  channelValue_le := by decide
  not_awaiting := rfl
  inbound_committed := by simp [plainChannel]
  outbound_committed := by simp [plainChannel]
  no_fee_update := rfl
  holder_covers := Nat.zero_le _
  counterparty_covers := by decide

def plainChannelWithHtlc : FundedChannel :=
  { plainChannel with
    nextCounterpartyHtlcId := 1
    pendingInboundHtlcs := [⟨⟨0, 2000000, 500, Vector.replicate 32 1⟩, .remoteAnnounced .pending⟩] }

theorem plainChannel_updateAddHtlc : plainChannel.step plainCrypto plainEstimator
    (.receive (.updateAddHtlc ⟨0, 2000000, 500, Vector.replicate 32 1⟩)) =
      .ok (some (plainChannelWithHtlc, [])) := rfl

theorem reachable_balances_nonneg_plain :
    plainChannel.AtRest ∧ Reachable plainCrypto plainChannel plainChannelWithHtlc ∧
      ∃ tx, plainChannelWithHtlc.buildCommitmentTransaction (initialCommitmentNumber - 1)
        (Vector.replicate 33 2) true false = .ok tx :=
  ⟨plainChannel_atRest, .step .start plainChannel_updateAddHtlc,
    ((reachable_balances_nonneg plainChannel_atRest
      (.step .start plainChannel_updateAddHtlc)).1 _ _).1⟩

/-! ### The value of a commitment -/

/-- What the outputs of a commitment add up to, apart from the anchors. -/
def CommitmentTransaction.totalSat (self : CommitmentTransaction) : ℕ :=
  self.toBroadcasterValueSat + self.toCountersignatoryValueSat +
    (self.nondustHtlcs.map fun htlc => htlc.amountMsat / 1000).sum

/-- The HTLC outputs are rounded down, and those that are dust left out. -/
theorem sum_nondustOutputs_le (channelType : ChannelTypeFeatures) (feerate : UInt32) (dustLimit : ℕ)
    (isLocal : Bool) (htlcs : List HTLCOutputInCommitment) :
    ((nondustOutputs channelType feerate dustLimit htlcs).map fun htlc =>
      htlc.amountMsat / 1000).sum *
        1000 ≤ offeredTotalMsat isLocal htlcs + offeredTotalMsat (!isLocal) htlcs := by
  induction htlcs with
  | nil => simp [nondustOutputs, offeredTotalMsat]
  | cons htlc htlcs ih =>
    simp only [nondustOutputs, offeredTotalMsat] at ih ⊢
    grind

/-- **No commitment pays out more than the channel has.** In every state of every run, whatever the
counterparty sends, the balances and the HTLCs on either commitment add up to at most its value. -/
theorem reachable_totalSat_le {crypto : Crypto} {start self : FundedChannel} (hstart : start.AtRest)
    (h : Reachable crypto start self) (number : ℕ) (point : PublicKey) (isLocal : Bool) :
    ∃ tx, self.buildCommitmentTransaction number point isLocal (!isLocal) = .ok tx ∧
      tx.totalSat ≤ self.params.channelValueSatoshis := by
  obtain ⟨tx, htx⟩ := (h.steady hstart).exists_build number point isLocal
  refine ⟨tx, htx, ?_⟩
  obtain ⟨hcovers, feerate, -, rfl⟩ :=
    FundedChannel.buildCommitmentTransaction_eq_ok_iff.mp htx
  have hself := hcovers.self_le
  have hremote := hcovers.remote_le
  have hhtlcs := sum_nondustOutputs_le self.params.channelType feerate
    (self.broadcasterDustLimitSat isLocal) isLocal (self.htlcsIncluded isLocal (!isLocal))
  simp only [CommitmentTransaction.totalSat, commitmentOf, commitmentWithBalances,
    saturatingSubFromFunder]
  split_ifs <;> omega

theorem reachable_totalSat_le_plain :
    ∃ tx, plainChannelWithHtlc.buildCommitmentTransaction (initialCommitmentNumber - 1)
      (Vector.replicate 33 2) true false = .ok tx ∧ tx.totalSat ≤ 1000000 :=
  reachable_totalSat_le plainChannel_atRest (.step .start plainChannel_updateAddHtlc) _ _ true

end Commitment

end PqLightning
