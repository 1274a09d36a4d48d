import PqLightning.TxBuilder.Stats

/-!
# What the holder can send next

`get_available_balances` of `sign/tx_builder.rs` and the functions it is made of. It tells the
holder between which amounts the next outbound HTLC has to be. The upper end starts from the
holder's balance above its reserve and is lowered for the fee, for the dust exposure, for the limits
of the counterparty, and so that no commitment is left without an output; the last two of these may
instead raise the lower end.

The maximum the holder could splice out is computed on the way, in a debug build together with
assertions that it is exact. Those are modelled too: `get_available_balances` panics if one fails.
-/

namespace PqLightning

/-! ### Splicing out -/

variable (channelValueSatoshis outboundCapacityMsat remoteBalanceBeforeFeeMsat : ℕ)

/-- Returns a minimum channel reserve value the remote needs to maintain, required by us according
to the configured or specification-defined channel reserve in dual-funded channels. -/
def getV2ChannelReserveSatoshis (dustLimitSatoshis : ℕ) (is0reserve : Bool) : Option ℕ :=
  if channelValueSatoshis < dustLimitSatoshis then none
  else if is0reserve then some 0
  else some (max (channelValueSatoshis / 100) dustLimitSatoshis)

/-- The assertions, in a debug build, that a splice-out maximum is exact: with a maximum of zero the
holder is at or below the reserve, with another one splicing it out lands the holder exactly on the
new reserve, and splicing out one satoshi more puts it below. -/
def assertSpliceOutMaximum
    (localBalanceBeforeFeeSat postSpliceDeltaAboveReserveSat holderDustLimitSatoshis maxSpliceOutSat
      : ℕ) : Except Panic Unit := do
  if maxSpliceOutSat = 0 then
    let currentBalanceSat := localBalanceBeforeFeeSat - postSpliceDeltaAboveReserveSat
    let v2ReserveSat ← unwrap <|
      getV2ChannelReserveSatoshis channelValueSatoshis holderDustLimitSatoshis false
    Panic.unless (currentBalanceSat ≤ v2ReserveSat) .debugAssertion
  else
    let postSpliceReserveSat ← unwrap <|
      getV2ChannelReserveSatoshis (channelValueSatoshis - maxSpliceOutSat) holderDustLimitSatoshis
        false
    Panic.unless (localBalanceBeforeFeeSat - maxSpliceOutSat =
      postSpliceReserveSat + postSpliceDeltaAboveReserveSat) .debugAssertion
    let offsideSpliceOutSat := maxSpliceOutSat + 1
    match getV2ChannelReserveSatoshis (channelValueSatoshis - offsideSpliceOutSat)
      holderDustLimitSatoshis false with
    | some reserve =>
      Panic.unless (localBalanceBeforeFeeSat - offsideSpliceOutSat <
        reserve + postSpliceDeltaAboveReserveSat) .debugAssertion
    | none => return ()

/-- The maximum that leaves the holder at or above its reserve after the splice. The percentage
constraint solves `floor((c - s) / 100) = h - s - d` for the greatest `s`, where `c` is the value of
the channel, `h` the holder's balance and `d` what it needs above the reserve. -/
def spliceOutMaximumAboveReserve (localBalanceBeforeFeeSat postSpliceDeltaAboveReserveSat : ℕ)
    (channelConstraints : ChannelConstraints) : Except Panic ℕ := do
  if channelConstraints.counterpartySelectedChannelReserveSatoshis ≠ 0 then
    let dividendSat := localBalanceBeforeFeeSat * 100 + 100 -
      postSpliceDeltaAboveReserveSat * 100 - channelValueSatoshis
    let maxSplicePercentageConstraintSat := (dividendSat - 1) / 99
    let maxSpliceDustLimitConstraintSat := localBalanceBeforeFeeSat -
      channelConstraints.holderDustLimitSatoshis - postSpliceDeltaAboveReserveSat
    let maxSpliceOutSat := min maxSplicePercentageConstraintSat maxSpliceDustLimitConstraintSat
    assertSpliceOutMaximum channelValueSatoshis localBalanceBeforeFeeSat
      postSpliceDeltaAboveReserveSat channelConstraints.holderDustLimitSatoshis maxSpliceOutSat
    return maxSpliceOutSat
  else
    return localBalanceBeforeFeeSat - postSpliceDeltaAboveReserveSat

variable (isOutboundFromHolder : Bool)

/-- Determines the maximum value that the holder can splice out of the channel, accounting for the
updated reserves after said splice. -/
def getNextSpliceOutMaximumSat
    (channelValueSatoshis localBalanceBeforeFeeMsat remoteBalanceBeforeFeeMsat
      localNondustHtlcCount remoteNondustHtlcCount : ℕ)
    (feeratePerKw spikedFeerate : UInt32) (channelConstraints : ChannelConstraints)
    (channelType : ChannelTypeFeatures) : Except Panic ℕ := do
  let postSpliceDeltaAboveReserveSat :=
    if isOutboundFromHolder then
      commitTxFeeSat spikedFeerate (max localNondustHtlcCount remoteNondustHtlcCount + 1)
        channelType
    else 0
  let nextSpliceOutMaximumSat ← spliceOutMaximumAboveReserve channelValueSatoshis
    (localBalanceBeforeFeeMsat / 1000) postSpliceDeltaAboveReserveSat channelConstraints
  -- If the maximum would produce a commitment with no outputs, lower it such that, after the
  -- splice, the holder's balance covers at least the dust limit and, for the funder, the fee.
  let currentTxFeeSat := commitTxFeeSat feeratePerKw 0 channelType
  let trimSpliceOutMaxIfNoOutputs
      (nextSpliceOutMaximumSat nondustHtlcCount dustLimitSatoshis : ℕ) :=
    if !hasOutput isOutboundFromHolder
        (localBalanceBeforeFeeMsat - nextSpliceOutMaximumSat * 1000) remoteBalanceBeforeFeeMsat
        feeratePerKw nondustHtlcCount dustLimitSatoshis channelType then
      let minBalanceSat :=
        if isOutboundFromHolder then dustLimitSatoshis + currentTxFeeSat else dustLimitSatoshis
      localBalanceBeforeFeeMsat / 1000 - minBalanceSat
    else nextSpliceOutMaximumSat
  let nextSpliceOutMaximumSat := trimSpliceOutMaxIfNoOutputs nextSpliceOutMaximumSat
    localNondustHtlcCount channelConstraints.holderDustLimitSatoshis
  let nextSpliceOutMaximumSat := trimSpliceOutMaxIfNoOutputs nextSpliceOutMaximumSat
    remoteNondustHtlcCount channelConstraints.counterpartyDustLimitSatoshis
  -- a channel keeps at least `MIN_CHANNEL_VALUE_SATOSHIS`
  return if channelValueSatoshis < nextSpliceOutMaximumSat + 1000 then channelValueSatoshis - 1000
    else nextSpliceOutMaximumSat

/-! ### The fee -/

/-- What is left of a capacity once the holder, who is the funder, keeps the fee of one commitment
with the HTLC to be sent and one more. The fee depends on whether the HTLC is dust and the answer
changes the amount: the fee is first taken as if it were not, and if that leaves less than the dust
limit, the lower fee is taken and the amount capped right below it. -/
def capacityAfterHolderFee (nondustHtlcCount htlcDustLimitSat : ℕ) (spikedFeerate : UInt32)
    (channelType : ChannelTypeFeatures) : ℕ :=
  let maxCommitTxFeeSat := commitTxFeeSat spikedFeerate (nondustHtlcCount + 2) channelType
  let minCommitTxFeeSat := commitTxFeeSat spikedFeerate (nondustHtlcCount + 1) channelType
  let capacityMinusMaxCommitmentFeeMsat := outboundCapacityMsat - maxCommitTxFeeSat * 1000
  if capacityMinusMaxCommitmentFeeMsat < htlcDustLimitSat * 1000 then
    let capacityMinusMinCommitmentFeeMsat := outboundCapacityMsat - minCommitTxFeeSat * 1000
    -- the branch is only taken for a dust limit above zero, so this does not underflow
    min (htlcDustLimitSat * 1000 - 1) capacityMinusMinCommitmentFeeMsat
  else capacityMinusMaxCommitmentFeeMsat

/-- The capacity of a holder that is the funder, on both commitments. -/
def adjustCapacityForHolderReservedFee (localNondustHtlcCount remoteNondustHtlcCount : ℕ)
    (feeratePerKw spikedFeerate : UInt32) (channelConstraints : ChannelConstraints)
    (channelType : ChannelTypeFeatures) : ℕ :=
  let (realHtlcSuccessTxFeeSat, realHtlcTimeoutTxFeeSat) :=
    secondStageTxFeesSat channelType feeratePerKw
  min
    (capacityAfterHolderFee outboundCapacityMsat localNondustHtlcCount
      (channelConstraints.holderDustLimitSatoshis + realHtlcTimeoutTxFeeSat) spikedFeerate
      channelType)
    (capacityAfterHolderFee outboundCapacityMsat remoteNondustHtlcCount
      (channelConstraints.counterpartyDustLimitSatoshis + realHtlcSuccessTxFeeSat) spikedFeerate
      channelType)

/-- What is left of a capacity when the counterparty is the funder: if the fee of one more HTLC
would reduce its balance below the reserve, the holder can only send dust. -/
def capacityAfterCounterpartyFee (nondustHtlcCount htlcDustLimitSat : ℕ) (feeratePerKw : UInt32)
    (channelConstraints : ChannelConstraints) (channelType : ChannelTypeFeatures) :
    Except Panic ℕ := do
  let feeSat := commitTxFeeSat feeratePerKw (nondustHtlcCount + 1) channelType
  if remoteBalanceBeforeFeeMsat <
      feeSat * 1000 + channelConstraints.holderSelectedChannelReserveSatoshis * 1000 then
    Panic.unless (1 ≤ htlcDustLimitSat * 1000) .overflow
    return min outboundCapacityMsat (htlcDustLimitSat * 1000 - 1)
  else
    return outboundCapacityMsat

/-- The capacity of a holder that is not the funder, on both commitments. -/
def adjustCapacityForCounterpartyReservedFee (localNondustHtlcCount remoteNondustHtlcCount : ℕ)
    (feeratePerKw : UInt32) (channelConstraints : ChannelConstraints)
    (channelType : ChannelTypeFeatures) : Except Panic ℕ := do
  let (realHtlcSuccessTxFeeSat, realHtlcTimeoutTxFeeSat) :=
    secondStageTxFeesSat channelType feeratePerKw
  let availableCapacityOnLocalCommitment ← capacityAfterCounterpartyFee outboundCapacityMsat
    remoteBalanceBeforeFeeMsat localNondustHtlcCount
    (channelConstraints.holderDustLimitSatoshis + realHtlcTimeoutTxFeeSat) feeratePerKw
    channelConstraints channelType
  let availableCapacityOnRemoteCommitment ← capacityAfterCounterpartyFee outboundCapacityMsat
    remoteBalanceBeforeFeeMsat remoteNondustHtlcCount
    (channelConstraints.counterpartyDustLimitSatoshis + realHtlcSuccessTxFeeSat) feeratePerKw
    channelConstraints channelType
  return min availableCapacityOnLocalCommitment availableCapacityOnRemoteCommitment

def adjustCapacityForReservedFee
    (outboundCapacityMsat remoteBalanceBeforeFeeMsat localNondustHtlcCount
      remoteNondustHtlcCount : ℕ)
    (feeratePerKw spikedFeerate : UInt32) (channelConstraints : ChannelConstraints)
    (channelType : ChannelTypeFeatures) : Except Panic ℕ :=
  if isOutboundFromHolder then
    .ok (adjustCapacityForHolderReservedFee outboundCapacityMsat localNondustHtlcCount
      remoteNondustHtlcCount feeratePerKw spikedFeerate channelConstraints channelType)
  else
    adjustCapacityForCounterpartyReservedFee outboundCapacityMsat remoteBalanceBeforeFeeMsat
      localNondustHtlcCount remoteNondustHtlcCount feeratePerKw channelConstraints channelType

/-! ### The dust exposure -/

/-- The capacity once the fees of one more HTLC are counted as exposure: if adding an extra HTLC
would put us over the dust limit in total fees, we cannot send any non-dust HTLCs. -/
def capacityBelowFeeExposure (extraHtlcRemoteDustExposureMsat : Option ℕ)
    (bufferDustLimitSuccessSat maxDustHtlcExposureMsat availableCapacityMsat : ℕ) : ℕ :=
  match extraHtlcRemoteDustExposureMsat with
  | some extraHtlcRemoteDustExposure =>
    if maxDustHtlcExposureMsat < extraHtlcRemoteDustExposure then
      min availableCapacityMsat (bufferDustLimitSuccessSat * 1000)
    else availableCapacityMsat
  | none => availableCapacityMsat

/-- Adjusts the ends of the range so that the dust exposure stays below its limit. Close to the
limit the holder could send up to the rest of it or above the dust limit. As this is not one range,
the function prefers the HTLCs above the dust limit. -/
def dustExposureRange (localDustExposureMsat remoteDustExposureMsat : ℕ)
    (extraHtlcRemoteDustExposureMsat : Option ℕ)
    (bufferDustLimitTimeoutSat bufferDustLimitSuccessSat maxDustHtlcExposureMsat
      counterpartyHtlcMinimumMsat availableCapacityMsat : ℕ) : ℕ × ℕ :=
  let availableCapacityMsat := capacityBelowFeeExposure extraHtlcRemoteDustExposureMsat
    bufferDustLimitSuccessSat maxDustHtlcExposureMsat availableCapacityMsat
  let (remainingMsatBelowDustExposureLimit, dustExposureDustLimitMsat) : Option ℕ × ℕ :=
    if maxDustHtlcExposureMsat + 1 < remoteDustExposureMsat + bufferDustLimitSuccessSat * 1000 then
      (some (maxDustHtlcExposureMsat - remoteDustExposureMsat), bufferDustLimitSuccessSat * 1000)
    else (none, 0)
  let (remainingMsatBelowDustExposureLimit, dustExposureDustLimitMsat) : Option ℕ × ℕ :=
    -- the comparison is made in `i64`, with the limit capped to what fits
    if min (maxDustHtlcExposureMsat : ℤ) (2 ^ 63 - 1) <
        (localDustExposureMsat : ℤ) + (bufferDustLimitTimeoutSat : ℤ) * 1000 - 1 then
      (some (match remainingMsatBelowDustExposureLimit with
          | some remaining => min remaining (maxDustHtlcExposureMsat - localDustExposureMsat)
          | none => maxDustHtlcExposureMsat - localDustExposureMsat),
        max dustExposureDustLimitMsat (bufferDustLimitTimeoutSat * 1000))
    else (remainingMsatBelowDustExposureLimit, dustExposureDustLimitMsat)
  match remainingMsatBelowDustExposureLimit with
  | some remainingLimitMsat =>
    if availableCapacityMsat < dustExposureDustLimitMsat then
      (counterpartyHtlcMinimumMsat, min availableCapacityMsat remainingLimitMsat)
    else (max counterpartyHtlcMinimumMsat dustExposureDustLimitMsat, availableCapacityMsat)
  | none => (counterpartyHtlcMinimumMsat, availableCapacityMsat)

/-- The adjustment for the dust exposure of the pending HTLCs. Returns the minimum, the maximum and
the current exposure. -/
def adjustMinMaxHtlcForDustExposure (pendingHtlcs : List HTLCAmountDirection)
    (feeratePerKw : UInt32) (dustExposureLimitingFeerate : Option UInt32)
    (maxDustHtlcExposureMsat : ℕ) (channelConstraints : ChannelConstraints)
    (channelType : ChannelTypeFeatures) (availableCapacityMsat : ℕ) :
    Except Panic (ℕ × ℕ × ℕ) := do
  let (localDustExposureMsat, _) ← getDustExposureStats true pendingHtlcs feeratePerKw
    dustExposureLimitingFeerate channelConstraints.holderDustLimitSatoshis channelType
  let (remoteDustExposureMsat, extraHtlcRemoteDustExposureMsat) ← getDustExposureStats false
    pendingHtlcs feeratePerKw dustExposureLimitingFeerate
    channelConstraints.counterpartyDustLimitSatoshis channelType
  let dustBufferFeerate := getDustBufferFeerate feeratePerKw
  let (bufferHtlcSuccessTxFeeSat, bufferHtlcTimeoutTxFeeSat) :=
    secondStageTxFeesSat channelType dustBufferFeerate
  let bufferDustLimitSuccessSat :=
    bufferHtlcSuccessTxFeeSat + channelConstraints.counterpartyDustLimitSatoshis
  let bufferDustLimitTimeoutSat :=
    bufferHtlcTimeoutTxFeeSat + channelConstraints.holderDustLimitSatoshis
  let (nextOutboundHtlcMinimumMsat, availableCapacityMsat) :=
    dustExposureRange localDustExposureMsat remoteDustExposureMsat extraHtlcRemoteDustExposureMsat
      bufferDustLimitTimeoutSat bufferDustLimitSuccessSat maxDustHtlcExposureMsat
      channelConstraints.counterpartyHtlcMinimumMsat availableCapacityMsat
  return (nextOutboundHtlcMinimumMsat, availableCapacityMsat,
    max localDustExposureMsat remoteDustExposureMsat)

/-! ### The last output -/

/-- If the biggest dust HTLC the holder could send would leave a commitment without an output, the
range is restricted to non-dust HTLCs, or, where there are none in it, to those that leave the
holder's own output untrimmed. -/
def adjustBoundariesIfMaxDustHtlcProducesNoOutput (isLocal isOutboundFromHolder : Bool)
    (holderBalanceBeforeFeeMsat counterpartyBalanceBeforeFeeMsat : ℕ) (feeratePerKw : UInt32)
    (nondustHtlcCount dustLimitSatoshis : ℕ) (channelType : ChannelTypeFeatures)
    (nextOutboundHtlcMinimumMsat availableCapacityMsat : ℕ) : ℕ × ℕ :=
  let (htlcSuccessTxFeeSat, htlcTimeoutTxFeeSat) := secondStageTxFeesSat channelType feeratePerKw
  let minNondustHtlcSat :=
    dustLimitSatoshis + if isLocal then htlcTimeoutTxFeeSat else htlcSuccessTxFeeSat
  let maxDustHtlcMsat := minNondustHtlcSat * 1000 - 1
  if !hasOutput isOutboundFromHolder (holderBalanceBeforeFeeMsat - maxDustHtlcMsat)
      counterpartyBalanceBeforeFeeMsat feeratePerKw nondustHtlcCount dustLimitSatoshis
      channelType then
    -- If we are allowed to send non-dust HTLCs, set the min HTLC to the smallest non-dust HTLC...
    if minNondustHtlcSat * 1000 ≤ availableCapacityMsat then
      (max (minNondustHtlcSat * 1000) nextOutboundHtlcMinimumMsat, availableCapacityMsat)
    else
      -- ... otherwise there are no non-dust HTLCs on the commitment
      let currentTxFeeSat := commitTxFeeSat feeratePerKw 0 channelType
      let spikeBufferTxFeeSat := commitTxFeeSat feeratePerKw 1 channelType
      let minBalanceMsat :=
        if isOutboundFromHolder then
          max (dustLimitSatoshis + currentTxFeeSat) spikeBufferTxFeeSat * 1000
        else dustLimitSatoshis * 1000
      (nextOutboundHtlcMinimumMsat,
        min (holderBalanceBeforeFeeMsat - minBalanceMsat) availableCapacityMsat)
  else (nextOutboundHtlcMinimumMsat, availableCapacityMsat)

/-- The restriction for the local and then for the remote commitment. -/
def adjustMinMaxHtlcIfMaxDustHtlcProducesNoOutput
    (localBalanceBeforeFeeMsat remoteBalanceBeforeFeeMsat localNondustHtlcCount
      remoteNondustHtlcCount : ℕ) (feeratePerKw : UInt32)
    (channelConstraints : ChannelConstraints) (channelType : ChannelTypeFeatures)
    (nextOutboundHtlcMinimumMsat availableCapacityMsat : ℕ) : ℕ × ℕ :=
  let (nextOutboundHtlcMinimumMsat, availableCapacityMsat) :=
    adjustBoundariesIfMaxDustHtlcProducesNoOutput true isOutboundFromHolder
      localBalanceBeforeFeeMsat remoteBalanceBeforeFeeMsat feeratePerKw localNondustHtlcCount
      channelConstraints.holderDustLimitSatoshis channelType nextOutboundHtlcMinimumMsat
      availableCapacityMsat
  adjustBoundariesIfMaxDustHtlcProducesNoOutput false isOutboundFromHolder
    localBalanceBeforeFeeMsat remoteBalanceBeforeFeeMsat feeratePerKw remoteNondustHtlcCount
    channelConstraints.counterpartyDustLimitSatoshis channelType nextOutboundHtlcMinimumMsat
    availableCapacityMsat

/-! ### The balances -/

structure AvailableBalances where
  (inboundCapacityMsat outboundCapacityMsat nextOutboundHtlcLimitMsat nextOutboundHtlcMinimumMsat
    dustExposureMsat nextSpliceOutMaximumSat : ℕ)
deriving DecidableEq, Repr

/-- The amounts the channel can carry with the given HTLCs pending. -/
def getAvailableBalances
    (channelValueSatoshis valueToHolderMsat : ℕ) (pendingHtlcs : List HTLCAmountDirection)
    (feeratePerKw : UInt32) (dustExposureLimitingFeerate : Option UInt32)
    (maxDustHtlcExposureMsat : ℕ) (channelConstraints : ChannelConstraints)
    (channelType : ChannelTypeFeatures) : Except Panic AvailableBalances := do
  let spikedFeerate :=
    satMul32 feeratePerKw (if !channelType.supportsAnchorsZeroFeeHtlcTx then 2 else 1)
  let localNondustHtlcCount := nondustHtlcCount true pendingHtlcs feeratePerKw
    channelConstraints.holderDustLimitSatoshis channelType
  let remoteNondustHtlcCount := nondustHtlcCount false pendingHtlcs feeratePerKw
    channelConstraints.counterpartyDustLimitSatoshis channelType
  let outboundHtlcsValueMsat := outboundHtlcsValueMsat pendingHtlcs
  let inboundHtlcsValueMsat := inboundHtlcsValueMsat pendingHtlcs
  let valueToCounterpartyMsat ← unwrap (checkedSub (channelValueSatoshis * 1000) valueToHolderMsat)
  let (localBalanceBeforeFeeMsat, remoteBalanceBeforeFeeMsat) :=
    saturatingSubFromFunder isOutboundFromHolder (valueToHolderMsat - outboundHtlcsValueMsat)
      (valueToCounterpartyMsat - inboundHtlcsValueMsat) (totalAnchorsSat channelType * 1000)
  let nextSpliceOutMaximumSat ← getNextSpliceOutMaximumSat isOutboundFromHolder
    channelValueSatoshis localBalanceBeforeFeeMsat remoteBalanceBeforeFeeMsat localNondustHtlcCount
    remoteNondustHtlcCount feeratePerKw spikedFeerate channelConstraints channelType
  let outboundCapacityMsat := localBalanceBeforeFeeMsat -
    channelConstraints.counterpartySelectedChannelReserveSatoshis * 1000
  let availableCapacityMsat ← adjustCapacityForReservedFee isOutboundFromHolder
    outboundCapacityMsat remoteBalanceBeforeFeeMsat localNondustHtlcCount remoteNondustHtlcCount
    feeratePerKw spikedFeerate channelConstraints channelType
  let (nextOutboundHtlcMinimumMsat, availableCapacityMsat, dustExposureMsat) ←
    adjustMinMaxHtlcForDustExposure pendingHtlcs feeratePerKw dustExposureLimitingFeerate
      maxDustHtlcExposureMsat channelConstraints channelType availableCapacityMsat
  let availableCapacityMsat := min availableCapacityMsat
    (channelConstraints.counterpartyMaxHtlcValueInFlightMsat - outboundHtlcsValueMsat)
  let availableCapacityMsat :=
    if channelConstraints.counterpartyMaxAcceptedHtlcs <
        pendingHtlcs.countP (fun htlc => htlc.outbound) + 1 then 0
    else availableCapacityMsat
  -- Now adjust our min and max size HTLC to make sure both the local and the remote commitments
  -- still have at least one output at the current feerate.
  let (nextOutboundHtlcMinimumMsat, availableCapacityMsat) :=
    adjustMinMaxHtlcIfMaxDustHtlcProducesNoOutput isOutboundFromHolder localBalanceBeforeFeeMsat
      remoteBalanceBeforeFeeMsat localNondustHtlcCount remoteNondustHtlcCount feeratePerKw
      channelConstraints channelType nextOutboundHtlcMinimumMsat availableCapacityMsat
  return {
    inboundCapacityMsat := remoteBalanceBeforeFeeMsat -
      channelConstraints.holderSelectedChannelReserveSatoshis * 1000
    outboundCapacityMsat
    nextOutboundHtlcLimitMsat := availableCapacityMsat
    nextOutboundHtlcMinimumMsat
    dustExposureMsat
    nextSpliceOutMaximumSat }

/-- The stats of a commitment together with the amounts the channel can carry. -/
structure ChannelStats where
  commitmentStats : NextCommitmentStats
  availableBalances : AvailableBalances
deriving DecidableEq, Repr

def getChannelStats (isLocal isOutboundFromHolder : Bool)
    (channelValueSatoshis valueToHolderMsat : ℕ) (pendingHtlcs : List HTLCAmountDirection)
    (addlNondustHtlcCount : ℕ) (feeratePerKw : UInt32) (assumeFeeSpike : Bool)
    (dustExposureLimitingFeerate : Option UInt32) (maxDustHtlcExposureMsat : ℕ)
    (channelConstraints : ChannelConstraints) (channelType : ChannelTypeFeatures) :
    Except Panic (Option ChannelStats) := do
  let some commitmentStats ← getNextCommitmentStats isLocal isOutboundFromHolder
      channelValueSatoshis valueToHolderMsat pendingHtlcs addlNondustHtlcCount feeratePerKw
      assumeFeeSpike dustExposureLimitingFeerate
      (channelConstraints.broadcasterDustLimitSatoshis isLocal) channelType
    | return none
  let availableBalances ← getAvailableBalances isOutboundFromHolder channelValueSatoshis
    valueToHolderMsat pendingHtlcs feeratePerKw dustExposureLimitingFeerate maxDustHtlcExposureMsat
    channelConstraints channelType
  return some { commitmentStats, availableBalances }

/-- `ChannelContext::get_available_balances_for_scope`, over the HTLCs and the balance the context
predicts for the remote commitment. A debug build checks the answer by adding an HTLC of the
greatest amount offered. -/
def getAvailableBalancesForScope
    (channelValueSatoshis valueToHolderMsat : ℕ) (pendingHtlcs : List HTLCAmountDirection)
    (feeratePerKw : UInt32) (dustExposureLimitingFeerate : Option UInt32)
    (maxDustHtlcExposureMsat : ℕ) (channelConstraints : ChannelConstraints)
    (channelType : ChannelTypeFeatures) : Except Panic (Option AvailableBalances) := do
  let some stats ← getChannelStats false isOutboundFromHolder channelValueSatoshis
      valueToHolderMsat pendingHtlcs 0 feeratePerKw false dustExposureLimitingFeerate
      maxDustHtlcExposureMsat channelConstraints channelType
    | return none
  let balances := stats.availableBalances
  if balances.nextOutboundHtlcMinimumMsat ≤ balances.nextOutboundHtlcLimitMsat ∧
      balances.nextOutboundHtlcLimitMsat ≠ 0 then
    let remoteStats ← unwrap (← getChannelStats false isOutboundFromHolder channelValueSatoshis
      valueToHolderMsat (⟨true, balances.nextOutboundHtlcLimitMsat⟩ :: pendingHtlcs) 0 feeratePerKw
      false dustExposureLimitingFeerate maxDustHtlcExposureMsat channelConstraints channelType)
    Panic.unless (channelConstraints.counterpartySelectedChannelReserveSatoshis * 1000 ≤
      remoteStats.commitmentStats.holderBalanceMsat) .assertion
  return some balances

end PqLightning
