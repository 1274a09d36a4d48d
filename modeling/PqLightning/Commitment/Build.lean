import PqLightning.Commitment.Channel

/-!
# Building a commitment, and predicting one

`build_commitment_transaction` of `ln/channel.rs`, with the half of it that is in
`sign/tx_builder.rs`: which HTLCs are on a commitment that we or the counterparty generate, what the
two parties have on it, and the subtractions that must not fail. Next to it the functions with which
an update is validated before it is accepted: they predict which HTLCs the next commitments can
have.
-/

namespace PqLightning.Commitment

open Handled

/-- `a.checked_sub(b).unwrap()`, of a balance. -/
def subBalance (a b : ℕ) : Except Panic ℕ := if b ≤ a then .ok (a - b) else .error .underflow

@[simp] theorem subBalance_eq_ok {a b c : ℕ} : subBalance a b = .ok c ↔ b ≤ a ∧ a - b = c := by
  unfold subBalance
  split <;> simp [*]

/-! ### The transaction -/

variable (channelType : ChannelTypeFeatures) (isLocal : Bool) (commitmentNumber : ℕ)
  (perCommitmentPoint : PublicKey) (params : ChannelParameters)

def isDustOutput (feeratePerKw : UInt32) (broadcasterDustLimitSatoshis : ℕ)
    (htlc : HTLCOutputInCommitment) : Bool :=
  let htlcTxFeeSat :=
    if channelType.supportsAnchorsZeroFeeHtlcTx then 0
    else
      let htlcTxWeight :=
        if htlc.offered then htlcTimeoutTxWeight channelType else htlcSuccessTxWeight channelType
      feeratePerKw.toNat * htlcTxWeight / 1000
  htlc.amountMsat / 1000 < broadcasterDustLimitSatoshis + htlcTxFeeSat

def nondustOutputs (feeratePerKw : UInt32) (broadcasterDustLimitSatoshis : ℕ)
    (htlcsInTx : List HTLCOutputInCommitment) : List HTLCOutputInCommitment :=
  htlcsInTx.filter fun htlc =>
    !isDustOutput channelType feeratePerKw broadcasterDustLimitSatoshis htlc

def offeredTotalMsat (offered : Bool) (htlcs : List HTLCOutputInCommitment) : ℕ :=
  ((htlcs.filter fun htlc => htlc.offered == offered).map (·.amountMsat)).sum

/-- The commitment on which the parties have these balances after the HTLCs. The funder pays the
anchors and the fee as far as its balance goes, and an output below the dust limit is left out. -/
def commitmentWithBalances (isOutboundFromHolder : Bool) (channelType : ChannelTypeFeatures)
    (valueToSelfAfterHtlcsMsat valueToRemoteAfterHtlcsMsat : ℕ)
    (nondustHtlcs : List HTLCOutputInCommitment) (feeratePerKw : UInt32)
    (broadcasterDustLimitSatoshis : ℕ) : CommitmentTransaction :=
  let commitTxFeeSat := commitTxFeeSat feeratePerKw nondustHtlcs.length channelType
  let (localBalanceBeforeFeeMsat, remoteBalanceBeforeFeeMsat) :=
    saturatingSubFromFunder isOutboundFromHolder valueToSelfAfterHtlcsMsat
      valueToRemoteAfterHtlcsMsat (totalAnchorsSat channelType * 1000)
  let (valueToSelf, valueToRemote) := saturatingSubFromFunder isOutboundFromHolder
    (localBalanceBeforeFeeMsat / 1000) (remoteBalanceBeforeFeeMsat / 1000) commitTxFeeSat
  let trimmed (value : ℕ) := if broadcasterDustLimitSatoshis ≤ value then value else 0
  { commitmentNumber
    perCommitmentPoint
    toBroadcasterValueSat := trimmed (if isLocal then valueToSelf else valueToRemote)
    toCountersignatoryValueSat := trimmed (if isLocal then valueToRemote else valueToSelf)
    nondustHtlcs
    feeratePerKw }

/-- `SpecTxBuilder::build_commitment_transaction`. The value going to each party must be zero or
positive, even if all HTLCs pending in the commitment clear by failure. -/
def specBuildCommitmentTransaction (valueToSelfMsat : ℕ) (htlcsInTx : List HTLCOutputInCommitment)
    (feeratePerKw : UInt32) (broadcasterDustLimitSatoshis : ℕ) :
    Except Panic CommitmentTransaction := do
  let valueToSelfAfterHtlcsMsat ← subBalance valueToSelfMsat (offeredTotalMsat isLocal htlcsInTx)
  let valueToRemoteMsat ← subBalance (params.channelValueSatoshis * 1000) valueToSelfMsat
  let valueToRemoteAfterHtlcsMsat ←
    subBalance valueToRemoteMsat (offeredTotalMsat (!isLocal) htlcsInTx)
  return commitmentWithBalances isLocal commitmentNumber perCommitmentPoint
    params.isOutboundFromHolder params.channelType valueToSelfAfterHtlcsMsat
    valueToRemoteAfterHtlcsMsat
    (nondustOutputs params.channelType feeratePerKw broadcasterDustLimitSatoshis htlcsInTx)
    feeratePerKw broadcasterDustLimitSatoshis

def commitmentOf (valueToSelfMsat : ℕ) (htlcsInTx : List HTLCOutputInCommitment)
    (feeratePerKw : UInt32) (broadcasterDustLimitSatoshis : ℕ) : CommitmentTransaction :=
  commitmentWithBalances isLocal commitmentNumber perCommitmentPoint params.isOutboundFromHolder
    params.channelType (valueToSelfMsat - offeredTotalMsat isLocal htlcsInTx)
    (params.channelValueSatoshis * 1000 - valueToSelfMsat - offeredTotalMsat (!isLocal) htlcsInTx)
    (nondustOutputs params.channelType feeratePerKw broadcasterDustLimitSatoshis htlcsInTx)
    feeratePerKw broadcasterDustLimitSatoshis

/-- **No subtraction fails** exactly if each party has at least the HTLCs it offered. -/
theorem specBuildCommitmentTransaction_eq_ok_iff {isLocal : Bool} {number : ℕ} {point : PublicKey}
    {params : ChannelParameters} {value : ℕ} {htlcs : List HTLCOutputInCommitment}
    {feerate : UInt32}
    {dustLimit : ℕ} {tx : CommitmentTransaction} :
    specBuildCommitmentTransaction isLocal number point params value htlcs feerate dustLimit =
      .ok tx ↔
      (offeredTotalMsat isLocal htlcs ≤ value ∧
        value + offeredTotalMsat (!isLocal) htlcs ≤ params.channelValueSatoshis * 1000) ∧
      commitmentOf isLocal number point params value htlcs feerate dustLimit = tx := by
  simp only [specBuildCommitmentTransaction, bind_eq_ok, subBalance_eq_ok, pure_eq_ok]
  constructor
  · rintro ⟨_, ⟨hself, rfl⟩, _, ⟨hchannel, rfl⟩, _, ⟨hremote, rfl⟩, rfl⟩
    exact ⟨⟨hself, by omega⟩, rfl⟩
  · rintro ⟨⟨hself, hremote⟩, rfl⟩
    exact ⟨_, ⟨hself, rfl⟩, _, ⟨by omega, rfl⟩, _, ⟨by omega, rfl⟩, rfl⟩

/-- Whether the transaction has any output. Commitments that pay no fee always have an anchor. -/
def CommitmentTransaction.hasOutputs (self : CommitmentTransaction)
    (channelType : ChannelTypeFeatures) : Bool :=
  self.toBroadcasterValueSat ≠ 0 || self.toCountersignatoryValueSat ≠ 0 ||
    !self.nondustHtlcs.isEmpty || channelType.supportsAnchorZeroFeeCommitments

namespace FundedChannel

/-! ### What is on a commitment -/

/-- The feerate of a commitment: an update that is pending applies to what its sender generates. -/
def getCommitmentFeerate (self : FundedChannel) (generatedByLocal : Bool) : Except Panic UInt32 :=
  match self.pendingUpdateFee with
  | some (feerate, .remoteAnnounced) | some (feerate, .awaitingRemoteRevokeToAnnounce) => do
    Panic.unless (!self.params.isOutboundFromHolder) .debugAssertion
    return if !generatedByLocal then feerate else self.feeratePerKw
  | some (feerate, .outbound) => do
    Panic.unless self.params.isOutboundFromHolder .assertion
    return if generatedByLocal then feerate else self.feeratePerKw
  | none => .ok self.feeratePerKw

end FundedChannel

def Htlc.toOutput (self : Htlc) (outbound isLocal : Bool) : HTLCOutputInCommitment where
  offered := outbound == isLocal
  amountMsat := self.amountMsat
  cltvExpiry := self.cltvExpiry
  paymentHash := self.paymentHash

variable (generatedByLocal : Bool)

def inboundIncluded (htlcs : List InboundHTLCOutput) : List Htlc :=
  (htlcs.filter fun htlc => htlc.state.includedInCommitment generatedByLocal).map (·.toHtlc)

def outboundIncluded (htlcs : List OutboundHTLCOutput) : List Htlc :=
  (htlcs.filter fun htlc => htlc.state.includedInCommitment generatedByLocal).map (·.toHtlc)

/-- The value of the inbound HTLCs that are claimed and not on a commitment. -/
def inboundClaimedMsat (htlcs : List InboundHTLCOutput) : ℕ :=
  ((htlcs.filter fun htlc => !htlc.state.includedInCommitment generatedByLocal &&
    htlc.state.preimage.isSome).map (·.amountMsat)).sum

def outboundClaimedMsat (htlcs : List OutboundHTLCOutput) : ℕ :=
  ((htlcs.filter fun htlc => !htlc.state.includedInCommitment generatedByLocal &&
    htlc.state.preimage.isSome).map (·.amountMsat)).sum

namespace FundedChannel

variable (self : FundedChannel)

variable (isLocal : Bool)

def broadcasterDustLimitSat : ℕ := self.params.constraints.broadcasterDustLimitSatoshis isLocal

def htlcsIncluded (generatedByLocal : Bool) : List HTLCOutputInCommitment :=
  (inboundIncluded generatedByLocal self.pendingInboundHtlcs).map (·.toOutput false isLocal) ++
    (outboundIncluded generatedByLocal self.pendingOutboundHtlcs).map (·.toOutput true isLocal)

/-- Builds a commitment that we (`isLocal`) or the counterparty can broadcast, generated by us or by
the counterparty. After all HTLC claims have been accounted for, the local balance must remain
greater than or equal to zero. -/
def buildCommitmentTransaction (commitmentNumber : ℕ)
    (perCommitmentPoint : PublicKey) (isLocal generatedByLocal : Bool) :
    Except Panic CommitmentTransaction := do
  let feeratePerKw ← self.getCommitmentFeerate generatedByLocal
  let valueToSelfClaimedMsat := inboundClaimedMsat generatedByLocal self.pendingInboundHtlcs
  let valueToRemoteClaimedMsat := outboundClaimedMsat generatedByLocal self.pendingOutboundHtlcs
  let valueToSelfMsat ←
    subBalance (self.valueToSelfMsat + valueToSelfClaimedMsat) valueToRemoteClaimedMsat
  specBuildCommitmentTransaction isLocal commitmentNumber perCommitmentPoint self.params
    valueToSelfMsat (self.htlcsIncluded isLocal generatedByLocal) feeratePerKw
    (self.broadcasterDustLimitSat isLocal)

def valueOnCommitmentMsat (generatedByLocal : Bool) : ℕ :=
  self.valueToSelfMsat + inboundClaimedMsat generatedByLocal self.pendingInboundHtlcs -
    outboundClaimedMsat generatedByLocal self.pendingOutboundHtlcs

/-- The balances cover the claims and the HTLCs on a commitment. -/
structure CoversCommitment (ch : FundedChannel) (isLocal generatedByLocal : Bool) : Prop where
  claims_le : outboundClaimedMsat generatedByLocal ch.pendingOutboundHtlcs ≤
    ch.valueToSelfMsat + inboundClaimedMsat generatedByLocal ch.pendingInboundHtlcs
  self_le : offeredTotalMsat isLocal (ch.htlcsIncluded isLocal generatedByLocal) ≤
    ch.valueOnCommitmentMsat generatedByLocal
  remote_le : ch.valueOnCommitmentMsat generatedByLocal +
    offeredTotalMsat (!isLocal) (ch.htlcsIncluded isLocal generatedByLocal) ≤
      ch.params.channelValueSatoshis * 1000

/-- **When a commitment is built, and which.** -/
theorem buildCommitmentTransaction_eq_ok_iff {self : FundedChannel} {number : ℕ} {point : PublicKey}
    {isLocal generatedByLocal : Bool} {tx : CommitmentTransaction} :
    self.buildCommitmentTransaction number point isLocal generatedByLocal = .ok tx ↔
      self.CoversCommitment isLocal generatedByLocal ∧
      ∃ feerate, self.getCommitmentFeerate generatedByLocal = .ok feerate ∧
        commitmentOf isLocal number point self.params (self.valueOnCommitmentMsat generatedByLocal)
          (self.htlcsIncluded isLocal generatedByLocal) feerate
          (self.broadcasterDustLimitSat isLocal) = tx := by
  simp only [buildCommitmentTransaction, bind_eq_ok, subBalance_eq_ok,
    specBuildCommitmentTransaction_eq_ok_iff]
  constructor
  · rintro ⟨feerate, hfeerate, _, ⟨hclaims, rfl⟩, ⟨hself, hremote⟩, htx⟩
    exact ⟨⟨hclaims, hself, hremote⟩, feerate, hfeerate, htx⟩
  · rintro ⟨⟨hclaims, hself, hremote⟩, feerate, hfeerate, htx⟩
    exact ⟨feerate, hfeerate, _, ⟨hclaims, rfl⟩, ⟨hself, hremote⟩, htx⟩

/-! ### What the next commitment can have -/

/-- Whether an inbound HTLC can be on the next local or remote commitment: one that we have removed
will certainly not be on any future remote commitment. -/
def nextIncludesInbound : InboundHTLCState → Bool
  | .localRemoved _ => isLocal
  | _ => true

def nextIncludesOutbound (includeCounterpartyUnknownHtlcs : Bool) : OutboundHTLCState → Bool
  | .localAnnounced => includeCounterpartyUnknownHtlcs
  | .committed => true
  | .remoteRemoved _ => !isLocal
  | .awaitingRemoteRevokeToRemove _ => false
  | .awaitingRemovedRemoteRevoke _ => false

/-- Returns a best-effort guess of the set of HTLCs that will be present on the next local or remote
commitment. We only assume that a HTLC will not be in it when it is guaranteed that it won't be. -/
def getNextCommitmentHtlcs (htlcCandidate : Option HTLCAmountDirection)
    (includeCounterpartyUnknownHtlcs : Bool) : List HTLCAmountDirection :=
  let pendingInboundHtlcs :=
    (self.pendingInboundHtlcs.filter fun htlc => nextIncludesInbound isLocal htlc.state).map
      fun htlc => ⟨false, htlc.amountMsat⟩
  let pendingOutboundHtlcs :=
    (self.pendingOutboundHtlcs.filter fun htlc =>
      nextIncludesOutbound isLocal includeCounterpartyUnknownHtlcs htlc.state).map
      fun htlc => ⟨true, htlc.amountMsat⟩
  let holdingCellHtlcs := self.holdingCellHtlcUpdates.filterMap fun
    | .addHtlc amountMsat _ _ => some ⟨true, amountMsat⟩
    | _ => none
  htlcCandidate.toList ++ pendingInboundHtlcs ++ pendingOutboundHtlcs ++
    if includeCounterpartyUnknownHtlcs then holdingCellHtlcs else []

/-- The claims of inbound HTLCs that the next local or remote commitment accounts for. -/
def nextClaimsInbound : InboundHTLCState → Bool
  | .localRemoved (.fulfill _) => !isLocal
  | _ => false

def nextClaimsOutbound : OutboundHTLCState → Bool
  | .remoteRemoved (.success _) => isLocal
  | .awaitingRemoteRevokeToRemove (.success _) => true
  | .awaitingRemovedRemoteRevoke (.success _) => true
  | _ => false

/-- The value of `value_to_self_msat` after accounting for all the successful inbound and outbound
HTLCs that won't be present on the next commitment. -/
def getNextCommitmentValueToSelfMsat : ℕ :=
  let inboundClaimedHtlcMsat := ((self.pendingInboundHtlcs.filter fun htlc =>
    nextClaimsInbound isLocal htlc.state).map (·.amountMsat)).sum
  let outboundClaimedHtlcMsat := ((self.pendingOutboundHtlcs.filter fun htlc =>
    nextClaimsOutbound isLocal htlc.state).map (·.amountMsat)).sum
  satAdd64 (self.valueToSelfMsat - outboundClaimedHtlcMsat) inboundClaimedHtlcMsat

def getDustExposureLimitingFeerate (feeEstimator : FeeEstimator) : Option UInt32 :=
  if self.params.channelType.supportsAnchorZeroFeeCommitments then none
  else some feeEstimator.maximumFeeEstimate

def getMaxDustHtlcExposureMsat (limitingFeerateSatPerKw : Option UInt32) : ℕ :=
  match self.params.maxDustHtlcExposure with
  | .feeRateMultiplier multiplier =>
    min ((limitingFeerateSatPerKw.getD 250).toNat * multiplier) (2 ^ 64 - 1)
  | .fixedLimitMsat limit => limit

def getNextStats (htlcCandidate : Option HTLCAmountDirection)
    (includeCounterpartyUnknownHtlcs : Bool) (addlNondustHtlcCount : ℕ) (feeratePerKw : UInt32)
    (dustExposureLimitingFeerate : Option UInt32) :
    Except Panic (Option (ChannelStats × List HTLCAmountDirection)) := do
  let nextCommitmentHtlcs :=
    self.getNextCommitmentHtlcs isLocal htlcCandidate includeCounterpartyUnknownHtlcs
  let stats ← getChannelStats isLocal self.params.isOutboundFromHolder
    self.params.channelValueSatoshis (self.getNextCommitmentValueToSelfMsat isLocal)
    nextCommitmentHtlcs addlNondustHtlcCount feeratePerKw false dustExposureLimitingFeerate
    (self.getMaxDustHtlcExposureMsat dustExposureLimitingFeerate) self.params.constraints
    self.params.channelType
  return stats.map fun stats => (stats, nextCommitmentHtlcs)

def getNextLocalCommitmentStats := self.getNextStats true

def getNextRemoteCommitmentStats := self.getNextStats false

variable (feeEstimator : FeeEstimator)

def validateUpdateAddHtlc (self : FundedChannel) (msg : Htlc) : Handled ChannelError Unit := do
  check (msg.amountMsat ≤ self.params.channelValueSatoshis * 1000)
    (.close "Remote side tried to send more than the total value of the channel")
  let dustExposureLimitingFeerate := self.getDustExposureLimitingFeerate feeEstimator
  let candidate := some ⟨false, msg.amountMsat⟩
  -- outbound HTLCs that the counterparty has not yet acknowledged are not counted
  let (remoteStats, remoteHtlcs) ← orRefuse (← lift (self.getNextRemoteCommitmentStats
    candidate false 0 self.feeratePerKw dustExposureLimitingFeerate))
    (.close "Remote HTLC add would overdraw remaining funds")
  let inboundHtlcsCount := remoteHtlcs.countP fun htlc => !htlc.outbound
  let maxAccepted := self.params.holderMaxAcceptedHtlcs
  let maxInFlight := self.params.holderMaxHtlcValueInFlightMsat
  check (inboundHtlcsCount ≤ maxAccepted)
    (.close s!"Remote tried to push more than our max accepted HTLCs ({maxAccepted})")
  check (inboundHtlcsValueMsat remoteHtlcs ≤ maxInFlight)
    (.close s!"Remote HTLC add would put them over our max HTLC value ({maxInFlight})")
  check (self.params.constraints.holderSelectedChannelReserveSatoshis * 1000 ≤
      remoteStats.commitmentStats.counterpartyBalanceMsat)
    (.close "Remote HTLC add would put them under remote reserve value")
  let _ ← orRefuse (← lift (self.getNextLocalCommitmentStats candidate false 0
    self.feeratePerKw dustExposureLimitingFeerate))
    (.close "Balance exhausted on local commitment")

def validateUpdateFee (self : FundedChannel)
    (newFeeratePerKw : UInt32) : Handled ChannelError Unit := do
  let dustExposureLimitingFeerate := self.getDustExposureLimitingFeerate feeEstimator
  let (localStats, _) ← orRefuse (← lift (self.getNextLocalCommitmentStats none false 0
    newFeeratePerKw dustExposureLimitingFeerate))
    (.close "Funding remote cannot afford proposed new fee")
  check (self.params.constraints.holderSelectedChannelReserveSatoshis * 1000 ≤
      localStats.commitmentStats.counterpartyBalanceMsat)
    (.close "Funding remote cannot afford proposed new fee")
  let (remoteStats, _) ← orRefuse (← lift (self.getNextRemoteCommitmentStats none false 0
    newFeeratePerKw dustExposureLimitingFeerate))
    (.close "Balance exhausted on remote commitment")
  let maxDustHtlcExposureMsat := self.getMaxDustHtlcExposureMsat dustExposureLimitingFeerate
  let feerate := newFeeratePerKw.toNat
  let localExposure := localStats.commitmentStats.dustExposureMsat
  let remoteExposure := remoteStats.commitmentStats.dustExposureMsat
  check (localExposure ≤ maxDustHtlcExposureMsat)
    (.close
      (s!"Peer sent update_fee with a feerate ({feerate}) which may over-expose us to " ++
       s!"dust-in-flight on our own transactions (totaling {localExposure} msat)"))
  check (remoteExposure ≤ maxDustHtlcExposureMsat)
    (.close
      (s!"Peer sent update_fee with a feerate ({feerate}) which may over-expose us to " ++
       s!"dust-in-flight on our counterparty's transactions (totaling {remoteExposure} msat)"))

def concurrentInboundHtlcFeeBuffer : ℕ := 2

def canSendUpdateFee (self : FundedChannel) (feeratePerKw : UInt32) : Except Panic Bool := do
  let dustExposureLimitingFeerate := self.getDustExposureLimitingFeerate feeEstimator
  let maxDustHtlcExposureMsat := self.getMaxDustHtlcExposureMsat dustExposureLimitingFeerate
  let some (remoteStats, _) ← self.getNextRemoteCommitmentStats none true
      concurrentInboundHtlcFeeBuffer feeratePerKw dustExposureLimitingFeerate
    | return false
  if remoteStats.commitmentStats.holderBalanceMsat <
      self.params.constraints.counterpartySelectedChannelReserveSatoshis * 1000 then
    return false
  if maxDustHtlcExposureMsat < remoteStats.commitmentStats.dustExposureMsat then return false
  let some (localStats, _) ← self.getNextLocalCommitmentStats none true
      concurrentInboundHtlcFeeBuffer feeratePerKw dustExposureLimitingFeerate
    | return false
  return decide (localStats.commitmentStats.dustExposureMsat ≤ maxDustHtlcExposureMsat)

def getAvailableBalances (self : FundedChannel) : Except Panic (Option AvailableBalances) :=
  let dustExposureLimitingFeerate := self.getDustExposureLimitingFeerate feeEstimator
  getAvailableBalancesForScope self.params.isOutboundFromHolder self.params.channelValueSatoshis
    (self.getNextCommitmentValueToSelfMsat false) (self.getNextCommitmentHtlcs false none true)
    self.feeratePerKw dustExposureLimitingFeerate
    (self.getMaxDustHtlcExposureMsat dustExposureLimitingFeerate) self.params.constraints
    self.params.channelType

end FundedChannel

end PqLightning.Commitment
