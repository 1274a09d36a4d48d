import PqLightning.TxBuilder.Fees
import Mathlib.Algebra.BigOperators.Group.List.Basic

/-!
# What the next commitment would look like

The predictions of `sign/tx_builder.rs` about a commitment with a given list of HTLCs: which of them
are dust, what the two parties are left with, whether any output remains, and how much is exposed
as dust. `get_next_commitment_stats` is the function every addition of an HTLC and every change of
the feerate is validated with.

A `Result<_, ()>` of the source is an `Option` here. The two `debug_assert_eq!` are about channels
whose commitments pay no fee, for which the feerate has to be zero.
-/

namespace PqLightning

def checkedSub (a b : ℕ) : Option ℕ := if b ≤ a then some (a - b) else none

@[simp] theorem checkedSub_eq_some {a b c : ℕ} : checkedSub a b = some c ↔ b ≤ a ∧ c = a - b := by
  unfold checkedSub
  split <;> simp [*, eq_comm]

/-! ### HTLCs and dust -/

/-- What the size and the balances of a commitment depend on in an HTLC. -/
structure HTLCAmountDirection where
  /-- Whether the holder offered it. -/
  outbound : Bool
  /-- Its value. -/
  amountMsat : ℕ
deriving DecidableEq, Repr

/-- The lowest value in satoshis of an HTLC that is not dust: the dust limit of the broadcaster, and
the fee of the transaction that would claim the HTLC, which is the timeout transaction for the HTLCs
the broadcaster offered and the success transaction for those it received. -/
def minNondustHtlcSat (isLocal outbound : Bool) (feeratePerKw : UInt32)
    (broadcasterDustLimitSatoshis : ℕ) (channelType : ChannelTypeFeatures) : ℕ :=
  let (successTxFeeSat, timeoutTxFeeSat) := secondStageTxFeesSat channelType feeratePerKw
  let htlcTxFeeSat := if outbound == isLocal then timeoutTxFeeSat else successTxFeeSat
  broadcasterDustLimitSatoshis + htlcTxFeeSat

/-- Whether the HTLC is too small for an output of its own on the local or the remote commitment. -/
def HTLCAmountDirection.isDust (self : HTLCAmountDirection) (isLocal : Bool)
    (feeratePerKw : UInt32) (broadcasterDustLimitSatoshis : ℕ) (channelType : ChannelTypeFeatures) :
    Bool :=
  self.amountMsat / 1000 <
    minNondustHtlcSat isLocal self.outbound feeratePerKw broadcasterDustLimitSatoshis channelType

theorem HTLCAmountDirection.isDust_eq_decide (self : HTLCAmountDirection) (isLocal : Bool)
    (feeratePerKw : UInt32) (dustLimit : ℕ) (channelType : ChannelTypeFeatures) :
    self.isDust isLocal feeratePerKw dustLimit channelType = decide (self.amountMsat <
      minNondustHtlcSat isLocal self.outbound feeratePerKw dustLimit channelType * 1000) := by
  rw [isDust, decide_eq_decide]
  omega

variable (isLocal : Bool)

variable (htlcs : List HTLCAmountDirection)

def nondustHtlcCount (feeratePerKw : UInt32) (broadcasterDustLimitSatoshis : ℕ)
    (channelType : ChannelTypeFeatures) : ℕ :=
  htlcs.countP fun htlc =>
    !htlc.isDust isLocal feeratePerKw broadcasterDustLimitSatoshis channelType

def outboundHtlcsValueMsat : ℕ :=
  (htlcs.filterMap fun htlc => if htlc.outbound then some htlc.amountMsat else none).sum

def inboundHtlcsValueMsat : ℕ :=
  (htlcs.filterMap fun htlc => if !htlc.outbound then some htlc.amountMsat else none).sum

@[simp] theorem outboundHtlcsValueMsat_cons_outbound (amountMsat : ℕ)
    (htlcs : List HTLCAmountDirection) :
    outboundHtlcsValueMsat (⟨true, amountMsat⟩ :: htlcs) =
      amountMsat + outboundHtlcsValueMsat htlcs := by
  simp [outboundHtlcsValueMsat]

@[simp] theorem inboundHtlcsValueMsat_cons_outbound (amountMsat : ℕ)
    (htlcs : List HTLCAmountDirection) :
    inboundHtlcsValueMsat (⟨true, amountMsat⟩ :: htlcs) = inboundHtlcsValueMsat htlcs := by
  simp [inboundHtlcsValueMsat]

/-! ### Anchors and the funder -/

def totalAnchorsSat (channelType : ChannelTypeFeatures) : ℕ :=
  if channelType.supportsAnchorsZeroFeeHtlcTx then 330 * 2 else 0

variable (isOutboundFromHolder : Bool)

/-- Takes a value from the balance of the funder, which must cover it. -/
def checkedSubFromFunder (valueToHolder valueToCounterparty valueToSubtract : ℕ) : Option (ℕ × ℕ) :=
  if isOutboundFromHolder then
    (checkedSub valueToHolder valueToSubtract).map fun v => (v, valueToCounterparty)
  else
    (checkedSub valueToCounterparty valueToSubtract).map fun v => (valueToHolder, v)

/-- Takes a value from the balance of the funder, as far as the balance goes. -/
def saturatingSubFromFunder (valueToHolder valueToCounterparty valueToSubtract : ℕ) : ℕ × ℕ :=
  if isOutboundFromHolder then (valueToHolder - valueToSubtract, valueToCounterparty)
  else (valueToHolder, valueToCounterparty - valueToSubtract)

def funderBalance (valueToHolder valueToCounterparty : ℕ) : ℕ :=
  if isOutboundFromHolder then valueToHolder else valueToCounterparty

/-- The checked version is the saturating one wherever it is defined. -/
theorem checkedSubFromFunder_eq_some {isOutboundFromHolder : Bool} {h c s : ℕ} {r : ℕ × ℕ} :
    checkedSubFromFunder isOutboundFromHolder h c s = some r ↔
      s ≤ funderBalance isOutboundFromHolder h c ∧
        r = saturatingSubFromFunder isOutboundFromHolder h c s := by
  rw [eq_comm (a := r)]
  cases isOutboundFromHolder <;>
    simp [checkedSubFromFunder, saturatingSubFromFunder, funderBalance, and_assoc]

/-! ### Dust exposure -/

/-- When calculating our exposure to dust HTLCs, we assume that the channel feerate may, at any
point, increase by at least 10 sat/vB or 25%, whichever is higher. -/
def getDustBufferFeerate (feeratePerKw : UInt32) : UInt32 :=
  let feeratePlusQuarter : UInt32 :=
    if feeratePerKw.toNat * 1250 < 2 ^ 32 then UInt32.ofNat (feeratePerKw.toNat * 1250 / 1000)
    else UInt32.ofNat (2 ^ 32 - 1)
  max (satAdd32 feeratePerKw 2530) feeratePlusQuarter

/-- The limits the two parties chose for a channel. -/
structure ChannelConstraints where
  (holderDustLimitSatoshis counterpartySelectedChannelReserveSatoshis counterpartyDustLimitSatoshis
    holderSelectedChannelReserveSatoshis counterpartyHtlcMinimumMsat
    counterpartyMaxHtlcValueInFlightMsat counterpartyMaxAcceptedHtlcs : ℕ)
deriving DecidableEq, Repr

/-- The dust limit of the party that can broadcast the local or the remote commitment. -/
def ChannelConstraints.broadcasterDustLimitSatoshis (self : ChannelConstraints) (isLocal : Bool) :
    ℕ :=
  if isLocal then self.holderDustLimitSatoshis else self.counterpartyDustLimitSatoshis

/-- The fees of a commitment and its second stage transactions, as they are and with one more HTLC
accepted by the broadcaster. -/
def commitPlusHtlcTxFeesMsat (nextCommitmentHtlcs : List HTLCAmountDirection)
    (dustBufferFeerate feerate : UInt32) (broadcasterDustLimitSatoshis : ℕ)
    (channelType : ChannelTypeFeatures) : ℕ × ℕ :=
  let acceptedNondustHtlcs := nextCommitmentHtlcs.countP fun htlc =>
    htlc.outbound != isLocal &&
      !htlc.isDust isLocal dustBufferFeerate broadcasterDustLimitSatoshis channelType
  let offeredNondustHtlcs := nextCommitmentHtlcs.countP fun htlc =>
    htlc.outbound == isLocal &&
      !htlc.isDust isLocal dustBufferFeerate broadcasterDustLimitSatoshis channelType
  let commitmentFeeSat :=
    commitTxFeeSat feerate (acceptedNondustHtlcs + offeredNondustHtlcs) channelType
  let secondStageFeesSat :=
    htlcTxFeesSat feerate acceptedNondustHtlcs offeredNondustHtlcs channelType
  let totalFeesMsat := (commitmentFeeSat + secondStageFeesSat) * 1000
  let extraAcceptedHtlcCommitmentFeeSat :=
    commitTxFeeSat feerate (acceptedNondustHtlcs + 1 + offeredNondustHtlcs) channelType
  let extraAcceptedHtlcSecondStageFeesSat :=
    htlcTxFeesSat feerate (acceptedNondustHtlcs + 1) offeredNondustHtlcs channelType
  let extraAcceptedHtlcTotalFeesMsat :=
    (extraAcceptedHtlcCommitmentFeeSat + extraAcceptedHtlcSecondStageFeesSat) * 1000
  (totalFeesMsat, extraAcceptedHtlcTotalFeesMsat)

def dustHtlcsValueMsat (feerate : UInt32) (broadcasterDustLimitSatoshis : ℕ)
    (channelType : ChannelTypeFeatures) : ℕ :=
  (htlcs.filterMap fun htlc =>
    if htlc.isDust isLocal feerate broadcasterDustLimitSatoshis channelType then
      some htlc.amountMsat else none).sum

/-- The dust exposure of a commitment, and on the counterparty's commitment, where fees in excess of
a limiting feerate count as dust, also the exposure with one more HTLC that is not dust. -/
def getDustExposureStats (commitmentHtlcs : List HTLCAmountDirection)
    (feeratePerKw : UInt32) (dustExposureLimitingFeerate : Option UInt32)
    (broadcasterDustLimitSatoshis : ℕ) (channelType : ChannelTypeFeatures) :
    Except Panic (ℕ × Option ℕ) := do
  let excessFeerate := satSub32 feeratePerKw (dustExposureLimitingFeerate.getD feeratePerKw)
  Panic.unless (channelType.supportsAnchorZeroFeeCommitments → feeratePerKw = 0) .debugAssertion
  Panic.unless (channelType.supportsAnchorZeroFeeCommitments → excessFeerate = 0) .debugAssertion
  let dustBufferFeerate := getDustBufferFeerate feeratePerKw
  let dustExposureMsat := dustHtlcsValueMsat isLocal commitmentHtlcs dustBufferFeerate
    broadcasterDustLimitSatoshis channelType
  if isLocal || excessFeerate == 0 then return (dustExposureMsat, none)
  else
    let (excessFeesMsat, extraAcceptedHtlcExcessFeesMsat) :=
      commitPlusHtlcTxFeesMsat isLocal commitmentHtlcs dustBufferFeerate excessFeerate
        broadcasterDustLimitSatoshis channelType
    return (dustExposureMsat + excessFeesMsat,
      some (dustExposureMsat + extraAcceptedHtlcExcessFeesMsat))

/-- The value of `getDustExposureStats`, where its assertions hold. -/
def dustExposure (commitmentHtlcs : List HTLCAmountDirection)
    (feeratePerKw : UInt32) (dustExposureLimitingFeerate : Option UInt32)
    (broadcasterDustLimitSatoshis : ℕ) (channelType : ChannelTypeFeatures) : ℕ × Option ℕ :=
  let excessFeerate := satSub32 feeratePerKw (dustExposureLimitingFeerate.getD feeratePerKw)
  let dustExposureMsat := dustHtlcsValueMsat isLocal commitmentHtlcs
    (getDustBufferFeerate feeratePerKw) broadcasterDustLimitSatoshis channelType
  if isLocal || excessFeerate == 0 then (dustExposureMsat, none)
  else
    let fees := commitPlusHtlcTxFeesMsat isLocal commitmentHtlcs (getDustBufferFeerate feeratePerKw)
      excessFeerate broadcasterDustLimitSatoshis channelType
    (dustExposureMsat + fees.1, some (dustExposureMsat + fees.2))

variable {channelType : ChannelTypeFeatures}

/-- There is no excess over a feerate of zero, so the second assertion follows from the first. -/
theorem getDustExposureStats_eq_ok_iff {isLocal : Bool} {htlcs : List HTLCAmountDirection}
    {feerate : UInt32} {limitingFeerate : Option UInt32} {dustLimit : ℕ} {r : ℕ × Option ℕ} :
    getDustExposureStats isLocal htlcs feerate limitingFeerate dustLimit channelType = .ok r ↔
      (channelType.supportsAnchorZeroFeeCommitments → feerate = 0) ∧
        r = dustExposure isLocal htlcs feerate limitingFeerate dustLimit channelType := by
  have hexcess : feerate = 0 → satSub32 feerate (limitingFeerate.getD feerate) = 0 := by
    rintro rfl
    simp [satSub32]
  simp only [getDustExposureStats, dustExposure, bind_eq_ok, Panic.unless_eq_ok, exists_and_left,
    exists_const]
  constructor
  · rintro ⟨hzero, -, hr⟩
    refine ⟨hzero, ?_⟩
    split at hr <;> rename_i hif <;> rw [Except.ok.inj hr.symm]
    · rw [if_pos hif]
    · rw [if_neg hif]
  · rintro ⟨hzero, rfl⟩
    refine ⟨hzero, fun h => hexcess (hzero h), ?_⟩
    split <;> rfl

/-! ### Outputs -/

def hasOutput
    (holderBalanceBeforeFeeMsat counterpartyBalanceBeforeFeeMsat : ℕ) (feeratePerKw : UInt32)
    (nondustHtlcCount broadcasterDustLimitSatoshis : ℕ) (channelType : ChannelTypeFeatures) :
    Bool :=
  let feeSat := commitTxFeeSat feeratePerKw nondustHtlcCount channelType
  let (holderBalanceMsat, counterpartyBalanceMsat) :=
    saturatingSubFromFunder isOutboundFromHolder holderBalanceBeforeFeeMsat
      counterpartyBalanceBeforeFeeMsat (feeSat * 1000)
  let dustLimitMsat := broadcasterDustLimitSatoshis * 1000
  let hasNoOutput := decide (holderBalanceMsat < dustLimitMsat) &&
    decide (counterpartyBalanceMsat < dustLimitMsat) && nondustHtlcCount == 0 &&
    -- these channels always have a pay-to-anchor output on the commitment transaction
    !channelType.supportsAnchorZeroFeeCommitments
  !hasNoOutput

theorem hasOutput_iff {isOutboundFromHolder : Bool} {h c : ℕ} {feerate : UInt32} {n dustLimit : ℕ} :
    hasOutput isOutboundFromHolder h c feerate n dustLimit channelType = true ↔
      dustLimit * 1000 ≤ (saturatingSubFromFunder isOutboundFromHolder h c
        (commitTxFeeSat feerate n channelType * 1000)).1 ∨
      dustLimit * 1000 ≤ (saturatingSubFromFunder isOutboundFromHolder h c
        (commitTxFeeSat feerate n channelType * 1000)).2 ∨
      n ≠ 0 ∨ channelType.supportsAnchorZeroFeeCommitments = true := by
  simp [hasOutput, or_assoc]

/-- **Monotonicity.** A commitment that has an output keeps one when the holder has more. -/
theorem hasOutput_mono {isOutboundFromHolder : Bool} {h h' c : ℕ} {feerate : UInt32}
    {n dustLimit : ℕ} (hle : h ≤ h')
    (hout : hasOutput isOutboundFromHolder h c feerate n dustLimit channelType = true) :
    hasOutput isOutboundFromHolder h' c feerate n dustLimit channelType = true := by
  rw [hasOutput_iff] at hout ⊢
  refine hout.imp (fun h1 => h1.trans ?_) (Or.imp_left fun h2 => h2.trans ?_)
  · cases isOutboundFromHolder
    · exact hle
    · exact Nat.sub_le_sub_right hle _
  · cases isOutboundFromHolder <;> exact Nat.le_refl _

/-! ### The stats -/

structure NextCommitmentStats where
  (holderBalanceMsat counterpartyBalanceMsat dustExposureMsat : ℕ)
deriving DecidableEq, Repr

/-- The stats of a commitment with the given HTLCs, or nothing if the balances do not cover the
HTLCs, the anchors and the fee, or no output would remain. -/
def getNextCommitmentStats (isLocal isOutboundFromHolder : Bool)
    (channelValueSatoshis valueToHolderMsat : ℕ) (nextCommitmentHtlcs : List HTLCAmountDirection)
    (addlNondustHtlcCount : ℕ) (feeratePerKw : UInt32) (assumeFeeSpike : Bool)
    (dustExposureLimitingFeerate : Option UInt32) (broadcasterDustLimitSatoshis : ℕ)
    (channelType : ChannelTypeFeatures) : Except Panic (Option NextCommitmentStats) := do
  Panic.unless (channelType.supportsAnchorZeroFeeCommitments → feeratePerKw = 0) .debugAssertion
  -- Calculate balances after htlcs
  let some valueToCounterpartyMsat := checkedSub (channelValueSatoshis * 1000) valueToHolderMsat
    | return none
  let some valueToHolderAfterHtlcsMsat :=
      checkedSub valueToHolderMsat (outboundHtlcsValueMsat nextCommitmentHtlcs)
    | return none
  let some valueToCounterpartyAfterHtlcsMsat :=
      checkedSub valueToCounterpartyMsat (inboundHtlcsValueMsat nextCommitmentHtlcs)
    | return none
  -- Subtract the anchors from the channel funder
  let some (holderBalanceBeforeFeeMsat, counterpartyBalanceBeforeFeeMsat) :=
      checkedSubFromFunder isOutboundFromHolder valueToHolderAfterHtlcsMsat
        valueToCounterpartyAfterHtlcsMsat (totalAnchorsSat channelType * 1000)
    | return none
  let (dustExposureMsat, _) ← getDustExposureStats isLocal nextCommitmentHtlcs feeratePerKw
    dustExposureLimitingFeerate broadcasterDustLimitSatoshis channelType
  let spikedFeerate :=
    if assumeFeeSpike && !channelType.supportsAnchorsZeroFeeHtlcTx then satMul32 feeratePerKw 2
    else feeratePerKw
  let spikedNondustHtlcCount := nondustHtlcCount isLocal nextCommitmentHtlcs spikedFeerate
    broadcasterDustLimitSatoshis channelType
  if !hasOutput isOutboundFromHolder holderBalanceBeforeFeeMsat counterpartyBalanceBeforeFeeMsat
      spikedFeerate spikedNondustHtlcCount broadcasterDustLimitSatoshis channelType then
    return none
  -- Including any additional non-dust HTLCs, does the funder cover this bigger transaction fee?
  let nondustHtlcCount := nondustHtlcCount isLocal nextCommitmentHtlcs feeratePerKw
    broadcasterDustLimitSatoshis channelType
  let feeSat := commitTxFeeSat spikedFeerate (nondustHtlcCount + addlNondustHtlcCount) channelType
  let some (holderBalanceMsat, counterpartyBalanceMsat) :=
      checkedSubFromFunder isOutboundFromHolder holderBalanceBeforeFeeMsat
        counterpartyBalanceBeforeFeeMsat (feeSat * 1000)
    | return none
  return some { holderBalanceMsat, counterpartyBalanceMsat, dustExposureMsat }

section Spec

variable {isLocal isOutboundFromHolder : Bool} {channelValueSatoshis valueToHolderMsat : ℕ}
  {htlcs : List HTLCAmountDirection} {addlNondustHtlcCount : ℕ} {feerate : UInt32}
  {limitingFeerate : Option UInt32} {dustLimit : ℕ} {channelType : ChannelTypeFeatures}

/-- The two balances after the HTLCs and the anchors, as far as they go. -/
def balancesBeforeFee (isOutboundFromHolder : Bool) (channelValueSatoshis valueToHolderMsat : ℕ)
    (htlcs : List HTLCAmountDirection) (channelType : ChannelTypeFeatures) : ℕ × ℕ :=
  saturatingSubFromFunder isOutboundFromHolder (valueToHolderMsat - outboundHtlcsValueMsat htlcs)
    (channelValueSatoshis * 1000 - valueToHolderMsat - inboundHtlcsValueMsat htlcs)
    (totalAnchorsSat channelType * 1000)

/-- The balances cover the HTLCs, and the funder's the anchors. -/
structure CoversHtlcs (isOutboundFromHolder : Bool) (channelValueSatoshis valueToHolderMsat : ℕ)
    (htlcs : List HTLCAmountDirection) (channelType : ChannelTypeFeatures) : Prop where
  holder_le_channel : valueToHolderMsat ≤ channelValueSatoshis * 1000
  outbound_le : outboundHtlcsValueMsat htlcs ≤ valueToHolderMsat
  inbound_le : inboundHtlcsValueMsat htlcs ≤ channelValueSatoshis * 1000 - valueToHolderMsat
  anchors_le : totalAnchorsSat channelType * 1000 ≤ funderBalance isOutboundFromHolder
    (valueToHolderMsat - outboundHtlcsValueMsat htlcs)
    (channelValueSatoshis * 1000 - valueToHolderMsat - inboundHtlcsValueMsat htlcs)

/-- **When the stats exist.** Without a fee spike they do exactly when the balances cover the HTLCs
and the anchors, an output remains, and the funder covers the fee; they are then the balances after
all of these. -/
theorem getNextCommitmentStats_eq_some_iff {stats : NextCommitmentStats} :
    getNextCommitmentStats isLocal isOutboundFromHolder channelValueSatoshis valueToHolderMsat htlcs
        addlNondustHtlcCount feerate false limitingFeerate dustLimit channelType =
          .ok (some stats) ↔
      (channelType.supportsAnchorZeroFeeCommitments → feerate = 0) ∧
      CoversHtlcs isOutboundFromHolder channelValueSatoshis valueToHolderMsat htlcs channelType ∧
      let before := balancesBeforeFee isOutboundFromHolder channelValueSatoshis
        valueToHolderMsat htlcs
        channelType
      let count := nondustHtlcCount isLocal htlcs feerate dustLimit channelType
      let after := saturatingSubFromFunder isOutboundFromHolder before.1 before.2
        (commitTxFeeSat feerate (count + addlNondustHtlcCount) channelType * 1000)
      hasOutput isOutboundFromHolder before.1 before.2 feerate count dustLimit channelType ∧
      commitTxFeeSat feerate (count + addlNondustHtlcCount) channelType * 1000 ≤
        funderBalance isOutboundFromHolder before.1 before.2 ∧
      stats =
        { holderBalanceMsat := after.1
          counterpartyBalanceMsat := after.2
          dustExposureMsat :=
            (dustExposure isLocal htlcs feerate limitingFeerate dustLimit channelType).1 } := by
  unfold getNextCommitmentStats
  rw [bind_eq_ok]
  simp only [Panic.unless_eq_ok, exists_const]
  refine and_congr_right fun hzero => ?_
  constructor
  · intro hok
    split at hok
    case h_2 => cases hok
    next h1 =>
    split at hok
    case h_2 => cases hok
    next h2 =>
    split at hok
    case h_2 => cases hok
    next h3 =>
    split at hok
    case h_2 => cases hok
    next h4 =>
    obtain ⟨exposure, hexposure, hok⟩ := bind_eq_ok.mp hok
    obtain ⟨-, rfl⟩ := getDustExposureStats_eq_ok_iff.mp hexposure
    simp only [Bool.false_and, Bool.false_eq_true, if_false] at hok
    split at hok
    case isTrue => cases hok
    next hout =>
    split at hok
    case h_2 => cases hok
    next hfee =>
    simp only [checkedSub_eq_some, checkedSubFromFunder_eq_some] at h1 h2 h3 h4 hfee
    obtain ⟨hle, rfl⟩ := h1
    obtain ⟨hle2, rfl⟩ := h2
    obtain ⟨hle3, rfl⟩ := h3
    obtain ⟨hle4, hbal⟩ := h4
    obtain ⟨hle5, hafter⟩ := hfee
    refine ⟨⟨hle, hle2, hle3, hle4⟩, ?_⟩
    rw [balancesBeforeFee, ← hbal]
    simp only [Bool.not_eq_true', Bool.not_eq_false] at hout
    refine ⟨hout, hle5, ?_⟩
    rw [← hafter]
    exact (Option.some.inj (Except.ok.inj hok)).symm
  · rintro ⟨⟨hle, hle2, hle3, hle4⟩, hout, hfee, rfl⟩
    have h1 := checkedSub_eq_some.mpr ⟨hle, rfl⟩
    have h2 := checkedSub_eq_some.mpr ⟨hle2, rfl⟩
    have h3 := checkedSub_eq_some.mpr ⟨hle3, rfl⟩
    have h4 := checkedSubFromFunder_eq_some.mpr ⟨hle4, rfl⟩
    have h5 : getDustExposureStats isLocal htlcs feerate limitingFeerate dustLimit channelType =
        .ok _ := getDustExposureStats_eq_ok_iff.mpr ⟨hzero, rfl⟩
    have h6 := checkedSubFromFunder_eq_some.mpr ⟨hfee, rfl⟩
    rw [balancesBeforeFee] at hout h6
    simp only [h1, h2, h3, h4, h5]
    simp only [bind, Except.bind, Bool.false_and, Bool.false_eq_true, if_false, hout, Bool.not_true,
      h6]
    rfl

end Spec

end PqLightning
