import PqLightning.TxBuilder.AvailableBalances

/-!
# Every HTLC the channel offers to send keeps both commitments valid

`get_available_balances` finds the range of the next outbound HTLC by its own arithmetic, and
`get_next_commitment_stats` validates an HTLC by another. This module shows that the first is
within the second: each adjustment of the range is summed up in one lemma about the amounts it
leaves, and an amount that survived all of them keeps both commitments valid.

The amounts are arbitrary and so are the limits. The one thing assumed is that the commitments are
valid before the HTLC is added.
-/

namespace PqLightning

/-! ### Adding one outbound HTLC -/

/-- The dust boundary of an HTLC the holder offers, as the range computation writes it. -/
theorem minNondustHtlcSat_outbound (isLocal : Bool) (feerate : UInt32) (dustLimit : ℕ)
    (channelType : ChannelTypeFeatures) :
    minNondustHtlcSat isLocal true feerate dustLimit channelType =
      dustLimit + if isLocal then (secondStageTxFeesSat channelType feerate).2
        else (secondStageTxFeesSat channelType feerate).1 := by
  cases isLocal <;> rfl

def nondustBit (amountMsat minNondustHtlcSat : ℕ) : ℕ :=
  if amountMsat < minNondustHtlcSat * 1000 then 0 else 1

theorem nondustHtlcCount_cons_outbound (isLocal : Bool) (amountMsat : ℕ)
    (htlcs : List HTLCAmountDirection) (feerate : UInt32) (dustLimit : ℕ)
    (channelType : ChannelTypeFeatures) :
    nondustHtlcCount isLocal (⟨true, amountMsat⟩ :: htlcs) feerate dustLimit channelType =
      nondustHtlcCount isLocal htlcs feerate dustLimit channelType +
        nondustBit amountMsat (minNondustHtlcSat isLocal true feerate dustLimit channelType) := by
  unfold nondustHtlcCount nondustBit
  rw [List.countP_cons]
  congr 1
  simp only [HTLCAmountDirection.isDust_eq_decide, Bool.not_eq_true', decide_eq_false_iff_not,
    ite_not]

section Balances

variable {funder : Bool} {channelValue toHolder : ℕ} {htlcs : List HTLCAmountDirection}
  {channelType : ChannelTypeFeatures}

/-- An outbound HTLC comes out of the holder's balance and nothing else. -/
theorem balancesBeforeFee_cons_outbound (amountMsat : ℕ) :
    balancesBeforeFee funder channelValue toHolder (⟨true, amountMsat⟩ :: htlcs) channelType =
      ((balancesBeforeFee funder channelValue toHolder htlcs channelType).1 - amountMsat,
        (balancesBeforeFee funder channelValue toHolder htlcs channelType).2) := by
  cases funder <;>
    simp only [balancesBeforeFee, saturatingSubFromFunder, outboundHtlcsValueMsat_cons_outbound,
      inboundHtlcsValueMsat_cons_outbound, Bool.false_eq_true, if_false, if_true] <;>
    congr 1 <;> omega

theorem CoversHtlcs.cons_outbound
    (h : CoversHtlcs funder channelValue toHolder htlcs channelType) {amountMsat : ℕ}
    (hle : amountMsat ≤ (balancesBeforeFee funder channelValue toHolder htlcs channelType).1) :
    CoversHtlcs funder channelValue toHolder (⟨true, amountMsat⟩ :: htlcs) channelType := by
  obtain ⟨h1, h2, h3, h4⟩ := h
  refine ⟨h1, ?_, by simpa using h3, ?_⟩ <;> rw [outboundHtlcsValueMsat_cons_outbound]
  · cases funder <;>
      simp only [balancesBeforeFee, saturatingSubFromFunder, Bool.false_eq_true, if_false, if_true]
        at hle <;> omega
  · rw [inboundHtlcsValueMsat_cons_outbound]
    cases funder
    · exact h4
    · simp only [balancesBeforeFee, saturatingSubFromFunder, funderBalance, if_true] at hle h4 ⊢
      omega

end Balances

/-! ### The fee -/

variable {channelType : ChannelTypeFeatures}

/-- **The circular computation is sound.** An amount within the capacity after the holder's fee
leaves the fee of the commitment with it and one more HTLC, whether it is dust or not. -/
theorem capacityAfterHolderFee_sound {capacity count htlcDustLimitSat : ℕ} {spiked : UInt32} {a : ℕ}
    (hpos : 1 ≤ a)
    (hle : a ≤ capacityAfterHolderFee capacity count htlcDustLimitSat spiked channelType) :
    a + commitTxFeeSat spiked (count + nondustBit a htlcDustLimitSat + 1) channelType * 1000 ≤
      capacity := by
  have hmono : commitTxFeeSat spiked (count + 1) channelType ≤
      commitTxFeeSat spiked (count + 2) channelType :=
    commitTxFeeSat_mono le_rfl (by omega) channelType
  simp only [capacityAfterHolderFee] at hle
  unfold nondustBit
  split at hle <;> split
  -- below the dust boundary the lower fee is reserved, and above it the higher one; an amount above
  -- the boundary cannot be within a capacity capped right below it
  · rw [Nat.add_zero]
    omega
  · omega
  · rw [Nat.add_zero]
    omega
  · rw [show count + 1 + 1 = count + 2 by omega]
    omega

variable {constraints : ChannelConstraints}

/-- An amount within the capacity when the counterparty pays the fee is within the capacity, and if
it is not dust the counterparty can pay for its output above the reserve. -/
theorem capacityAfterCounterpartyFee_sound {capacity remoteBalance count htlcDustLimitSat : ℕ}
    {feerate : UInt32}
    {c a : ℕ} (hok : capacityAfterCounterpartyFee capacity remoteBalance count htlcDustLimitSat
      feerate constraints channelType = .ok c) (hle : a ≤ c) :
    a ≤ capacity ∧ (htlcDustLimitSat * 1000 ≤ a →
      commitTxFeeSat feerate (count + 1) channelType * 1000 +
        constraints.holderSelectedChannelReserveSatoshis * 1000 ≤ remoteBalance) := by
  simp only [capacityAfterCounterpartyFee] at hok
  split at hok <;> rename_i hcovers
  · obtain ⟨u, hdust, hok⟩ := bind_eq_ok.mp hok
    rw [Panic.unless_eq_ok] at hdust
    cases hok
    exact ⟨hle.trans (Nat.min_le_left _ _), fun h => absurd (hle.trans (Nat.min_le_right _ _))
      (by omega)⟩
  · cases hok
    exact ⟨hle, fun _ => Nat.not_lt.mp hcovers⟩

/-! ### The last output -/

/-- **An amount within the adjusted boundaries leaves an output.** It is also within the boundaries
before the adjustment. -/
theorem adjustBoundaries_sound {isLocal funder : Bool} {h c : ℕ} {feerate : UInt32}
    {count dustLimit : ℕ} {lo hi a : ℕ} (hpos : 1 ≤ a)
    (hlo : (adjustBoundariesIfMaxDustHtlcProducesNoOutput isLocal funder h c feerate count
      dustLimit channelType lo hi).1 ≤ a)
    (hhi : a ≤ (adjustBoundariesIfMaxDustHtlcProducesNoOutput isLocal funder h c feerate count
      dustLimit channelType lo hi).2) :
    lo ≤ a ∧ a ≤ hi ∧ hasOutput funder (h - a) c feerate
      (count + nondustBit a (minNondustHtlcSat isLocal true feerate dustLimit channelType))
      dustLimit channelType = true := by
  unfold adjustBoundariesIfMaxDustHtlcProducesNoOutput at hlo hhi
  simp only [← minNondustHtlcSat_outbound] at hlo hhi
  generalize minNondustHtlcSat isLocal true feerate dustLimit channelType = d at hlo hhi ⊢
  cases hout : hasOutput funder (h - (d * 1000 - 1)) c feerate count dustLimit channelType with
  | true =>
    simp only [hout, Bool.not_true, Bool.false_eq_true, if_false] at hlo hhi
    refine ⟨hlo, hhi, ?_⟩
    by_cases hdust : a < d * 1000
    · rw [nondustBit, if_pos hdust]
      exact hasOutput_mono (by omega) hout
    · rw [nondustBit, if_neg hdust]
      exact hasOutput_iff.mpr (by simp)
  | false =>
    simp only [hout, Bool.not_false, if_true] at hlo hhi
    split at hlo <;> rename_i hnondust
    · -- only non-dust HTLCs are offered, and those are an output
      rw [if_pos hnondust] at hhi
      rw [nondustBit, if_neg (by omega)]
      exact ⟨by omega, hhi, hasOutput_iff.mpr (by simp)⟩
    · rw [if_neg hnondust] at hhi
      refine ⟨hlo, hhi.trans (Nat.min_le_right _ _), hasOutput_iff.mpr ?_⟩
      -- the holder's own output is not trimmed, unless another output exists anyway
      by_cases hcount : count = 0
      swap
      · exact .inr (.inr (.inl (by omega)))
      have hdust : a < d * 1000 := by
        have := hhi.trans (Nat.min_le_right _ _)
        omega
      left
      have hbal := hhi.trans (Nat.min_le_left _ _)
      rw [nondustBit, if_pos hdust, hcount, Nat.add_zero]
      cases funder <;>
        simp only [saturatingSubFromFunder, Bool.false_eq_true, if_false, if_true] at hbal ⊢ <;>
        omega

/-! ### The dust exposure -/

theorem capacityBelowFeeExposure_le (extra : Option ℕ) (successSat maxExposure capacity : ℕ) :
    capacityBelowFeeExposure extra successSat maxExposure capacity ≤ capacity := by
  unfold capacityBelowFeeExposure
  split
  · split
    · exact Nat.min_le_left _ _
    · exact Nat.le_refl _
  · exact Nat.le_refl _

/-- The range for one boundary above which HTLCs do not add to the exposure and one remaining
exposure: whichever of the two parts of the allowed amounts the capacity reaches. -/
def rangeAround (remaining boundary htlcMinimum capacity : ℕ) : ℕ × ℕ :=
  if capacity < boundary then (htlcMinimum, min capacity remaining)
  else (max htlcMinimum boundary, capacity)

/-- **The four cases of the dust exposure.** The range is untouched when neither commitment comes
close to the limit with one more dust HTLC, and otherwise around the higher of the boundaries of the
commitments that do. -/
theorem dustExposureRange_eq (localExposure remoteExposure : ℕ) (extra : Option ℕ)
    (timeoutSat successSat maxExposure htlcMinimum capacity : ℕ) :
    dustExposureRange localExposure remoteExposure extra timeoutSat successSat maxExposure
      htlcMinimum capacity =
      let capacity := capacityBelowFeeExposure extra successSat maxExposure capacity
      let remoteClose := maxExposure + 1 < remoteExposure + successSat * 1000
      let localClose := min (maxExposure : ℤ) (2 ^ 63 - 1) <
        (localExposure : ℤ) + (timeoutSat : ℤ) * 1000 - 1
      if remoteClose then
        if localClose then
          rangeAround (min (maxExposure - remoteExposure) (maxExposure - localExposure))
            (max (successSat * 1000) (timeoutSat * 1000)) htlcMinimum capacity
        else rangeAround (maxExposure - remoteExposure) (successSat * 1000) htlcMinimum capacity
      else
        if localClose then
          rangeAround (maxExposure - localExposure) (timeoutSat * 1000) htlcMinimum capacity
        else (htlcMinimum, capacity) := by
  by_cases hremote : maxExposure + 1 < remoteExposure + successSat * 1000 <;>
    by_cases hlocal : min (maxExposure : ℤ) (2 ^ 63 - 1) <
      (localExposure : ℤ) + (timeoutSat : ℤ) * 1000 - 1 <;>
    simp only [dustExposureRange, rangeAround, hremote, hlocal, if_true, if_false, Nat.zero_max]

theorem rangeAround_narrows (remaining boundary htlcMinimum capacity : ℕ) :
    (rangeAround remaining boundary htlcMinimum capacity).2 ≤ capacity := by
  unfold rangeAround
  split
  · exact Nat.min_le_left _ _
  · exact Nat.le_refl _

theorem dustExposureRange_le_capacity (localExposure remoteExposure : ℕ) (extra : Option ℕ)
    (timeoutSat successSat maxExposure htlcMinimum capacity : ℕ) :
    (dustExposureRange localExposure remoteExposure extra timeoutSat successSat maxExposure
      htlcMinimum capacity).2 ≤ capacityBelowFeeExposure extra successSat maxExposure capacity := by
  rw [dustExposureRange_eq]
  simp only
  split <;> split
  · exact rangeAround_narrows _ _ _ _
  · exact rangeAround_narrows _ _ _ _
  · exact rangeAround_narrows _ _ _ _
  · exact Nat.le_refl _

/-! ### The assertions on the way -/

theorem getV2ChannelReserveSatoshis_eq_some {channelValue dustLimit r : ℕ} :
    getV2ChannelReserveSatoshis channelValue dustLimit false = some r ↔
      dustLimit ≤ channelValue ∧ r = max (channelValue / 100) dustLimit := by
  unfold getV2ChannelReserveSatoshis
  split
  · simp only [reduceCtorEq, false_iff, not_and]
    omega
  · simp only [Bool.false_eq_true, if_false, Option.some.injEq]
    omega

/-- The splice-out maximum is exact, so that the assertions about it hold, in every channel that is
worth at least the dust limit. -/
theorem assertSpliceOutMaximum_eq_ok {channelValue balance dustLimit : ℕ} (delta : ℕ)
    (hbalance : balance ≤ channelValue) (hdust : dustLimit ≤ channelValue) (hpos : 0 < dustLimit) :
    assertSpliceOutMaximum channelValue balance delta dustLimit
      (min ((balance * 100 + 100 - delta * 100 - channelValue - 1) / 99)
        (balance - dustLimit - delta)) = .ok () := by
  generalize hm : min ((balance * 100 + 100 - delta * 100 - channelValue - 1) / 99)
    (balance - dustLimit - delta) = m
  unfold assertSpliceOutMaximum
  split
  · rw [bind_eq_ok]
    refine ⟨_, unwrap_eq_ok.mpr (getV2ChannelReserveSatoshis_eq_some.mpr ⟨hdust, rfl⟩), ?_⟩
    rw [Panic.unless_eq_ok]
    omega
  · have hle : dustLimit ≤ channelValue - m := by omega
    rw [bind_eq_ok]
    refine ⟨_, unwrap_eq_ok.mpr (getV2ChannelReserveSatoshis_eq_some.mpr ⟨hle, rfl⟩), ?_⟩
    rw [bind_eq_ok]
    refine ⟨(), Panic.unless_eq_ok.mpr (by omega), ?_⟩
    simp only
    split
    next reserve hreserve =>
      obtain ⟨-, rfl⟩ := getV2ChannelReserveSatoshis_eq_some.mp hreserve
      rw [Panic.unless_eq_ok]
      omega
    · rfl

/-- Where the assertions were evaluated, the channel is worth at least the dust limit. -/
theorem dustLimit_le_of_assertSpliceOutMaximum {channelValue balance delta dustLimit m : ℕ}
    (hok : assertSpliceOutMaximum channelValue balance delta dustLimit m = .ok ()) :
    dustLimit ≤ channelValue := by
  unfold assertSpliceOutMaximum at hok
  split at hok <;> obtain ⟨reserve, hreserve, -⟩ := bind_eq_ok.mp hok
  · exact (getV2ChannelReserveSatoshis_eq_some.mp (unwrap_eq_ok.mp hreserve)).1
  · exact (getV2ChannelReserveSatoshis_eq_some.mp (unwrap_eq_ok.mp hreserve)).1.trans
      (Nat.sub_le _ _)

theorem exists_spliceOutMaximumAboveReserve {channelValue balance : ℕ} (delta : ℕ)
    (hbalance : balance ≤ channelValue)
    (hdust : constraints.counterpartySelectedChannelReserveSatoshis ≠ 0 →
      constraints.holderDustLimitSatoshis ≤ channelValue)
    (hpos : 0 < constraints.holderDustLimitSatoshis) :
    ∃ m, spliceOutMaximumAboveReserve channelValue balance delta constraints = .ok m := by
  unfold spliceOutMaximumAboveReserve
  split <;> rename_i hreserve
  · exact ⟨_, bind_eq_ok.mpr
      ⟨(), assertSpliceOutMaximum_eq_ok delta hbalance (hdust hreserve) hpos, rfl⟩⟩
  · exact ⟨_, rfl⟩

theorem exists_getNextSpliceOutMaximumSat {funder : Bool} {channelValue localBalance : ℕ}
    (remoteBalance localCount remoteCount : ℕ) (feerate spiked : UInt32)
    (channelType : ChannelTypeFeatures)
    (hbalance : localBalance / 1000 ≤ channelValue)
    (hdust : constraints.counterpartySelectedChannelReserveSatoshis ≠ 0 →
      constraints.holderDustLimitSatoshis ≤ channelValue)
    (hpos : 0 < constraints.holderDustLimitSatoshis) :
    ∃ m, getNextSpliceOutMaximumSat funder channelValue localBalance remoteBalance localCount
      remoteCount feerate spiked constraints channelType = .ok m := by
  obtain ⟨m, hm⟩ := exists_spliceOutMaximumAboveReserve
    (if funder then commitTxFeeSat spiked (max localCount remoteCount + 1) channelType else 0)
    hbalance hdust hpos
  exact ⟨_, bind_eq_ok.mpr ⟨m, hm, rfl⟩⟩

/-! ### Amounts in the range -/

section Range

variable (funder : Bool) (channelValue toHolder : ℕ) (htlcs : List HTLCAmountDirection)
  (feerate : UInt32) (limitingFeerate : Option UInt32) (maxExposure : ℕ)
  (constraints : ChannelConstraints) (channelType : ChannelTypeFeatures)

/-- The range the dust exposure of the pending HTLCs leaves of a capacity. -/
def pendingDustExposureRange (capacity : ℕ) : ℕ × ℕ :=
  dustExposureRange
    (dustExposure true htlcs feerate limitingFeerate constraints.holderDustLimitSatoshis
      channelType).1
    (dustExposure false htlcs feerate limitingFeerate
      constraints.counterpartyDustLimitSatoshis channelType).1
    (dustExposure false htlcs feerate limitingFeerate
      constraints.counterpartyDustLimitSatoshis channelType).2
    (minNondustHtlcSat true true (getDustBufferFeerate feerate)
      constraints.holderDustLimitSatoshis channelType)
    (minNondustHtlcSat false true (getDustBufferFeerate feerate)
      constraints.counterpartyDustLimitSatoshis channelType)
    maxExposure constraints.counterpartyHtlcMinimumMsat capacity

/-- The adjustment for the dust exposure succeeds where the exposure is defined. -/
theorem adjustMinMaxHtlcForDustExposure_eq_ok_iff {capacity : ℕ} {r : ℕ × ℕ × ℕ} :
    adjustMinMaxHtlcForDustExposure htlcs feerate limitingFeerate maxExposure constraints
        channelType
        capacity = .ok r ↔
      (channelType.supportsAnchorZeroFeeCommitments → feerate = 0) ∧
      let range := pendingDustExposureRange htlcs feerate limitingFeerate maxExposure constraints
        channelType capacity
      r = (range.1, range.2,
        max (dustExposure true htlcs feerate limitingFeerate constraints.holderDustLimitSatoshis
            channelType).1
          (dustExposure false htlcs feerate limitingFeerate
            constraints.counterpartyDustLimitSatoshis
            channelType).1) := by
  simp only [adjustMinMaxHtlcForDustExposure, bind_eq_ok, getDustExposureStats_eq_ok_iff,
    pendingDustExposureRange, minNondustHtlcSat_outbound, Nat.add_comm]
  constructor
  · rintro ⟨_, ⟨hzero, rfl⟩, _, ⟨-, rfl⟩, hr⟩
    exact ⟨hzero, (Except.ok.inj hr).symm⟩
  · rintro ⟨hzero, rfl⟩
    exact ⟨_, ⟨hzero, rfl⟩, _, ⟨hzero, rfl⟩, rfl⟩

/-- Everything that the range of `getAvailableBalances` says about an amount within it. -/
structure OfferedAmount (a : ℕ) : Prop where
  /-- The amount is not zero. -/
  pos : 1 ≤ a
  /-- The holder's balance is part of the channel. -/
  holder_le_channel : toHolder ≤ channelValue * 1000
  /-- A channel whose commitments pay no fee has a feerate of zero. -/
  feerate_zero : channelType.supportsAnchorZeroFeeCommitments → feerate = 0
  /-- A holder that is the funder keeps the fee. -/
  holder_fee : funder = true → ∀ isLocal, a ≤ capacityAfterHolderFee
    ((balancesBeforeFee funder channelValue toHolder htlcs channelType).1 -
      constraints.counterpartySelectedChannelReserveSatoshis * 1000)
    (nondustHtlcCount isLocal htlcs feerate
      (constraints.broadcasterDustLimitSatoshis isLocal) channelType)
    (minNondustHtlcSat isLocal true feerate
      (constraints.broadcasterDustLimitSatoshis isLocal) channelType)
    (satMul32 feerate (if !channelType.supportsAnchorsZeroFeeHtlcTx then 2 else 1)) channelType
  /-- A counterparty that is the funder can pay the fee. -/
  counterparty_fee : funder = false → ∀ isLocal, ∃ c, capacityAfterCounterpartyFee
    ((balancesBeforeFee funder channelValue toHolder htlcs channelType).1 -
      constraints.counterpartySelectedChannelReserveSatoshis * 1000)
    (balancesBeforeFee funder channelValue toHolder htlcs channelType).2
    (nondustHtlcCount isLocal htlcs feerate
      (constraints.broadcasterDustLimitSatoshis isLocal) channelType)
    (minNondustHtlcSat isLocal true feerate
      (constraints.broadcasterDustLimitSatoshis isLocal) channelType)
    feerate constraints channelType = .ok c ∧ a ≤ c
  /-- The dust exposure was adjusted for. -/
  dust_exposure : ∃ capacity,
    (pendingDustExposureRange htlcs feerate limitingFeerate maxExposure constraints channelType
      capacity).1 ≤ a ∧
    a ≤ (pendingDustExposureRange htlcs feerate limitingFeerate maxExposure constraints channelType
      capacity).2
  /-- The counterparty accepts the value. -/
  in_flight : a + outboundHtlcsValueMsat htlcs ≤ constraints.counterpartyMaxHtlcValueInFlightMsat
  /-- The counterparty accepts the number. -/
  count : htlcs.countP (fun htlc => htlc.outbound) + 1 ≤ constraints.counterpartyMaxAcceptedHtlcs
  /-- An output remains on both commitments. -/
  output : ∀ isLocal, hasOutput funder
    ((balancesBeforeFee funder channelValue toHolder htlcs channelType).1 - a)
    (balancesBeforeFee funder channelValue toHolder htlcs channelType).2 feerate
    (nondustHtlcCount isLocal htlcs feerate
        (constraints.broadcasterDustLimitSatoshis isLocal) channelType +
      nondustBit a (minNondustHtlcSat isLocal true feerate
        (constraints.broadcasterDustLimitSatoshis isLocal) channelType))
    (constraints.broadcasterDustLimitSatoshis isLocal) channelType = true

variable {funder channelValue toHolder htlcs feerate limitingFeerate maxExposure constraints
  channelType}

section Offered

variable {a : ℕ} (h : OfferedAmount funder channelValue toHolder htlcs feerate limitingFeerate
  maxExposure constraints channelType a)

include h

set_option maxRecDepth 4000 in
/-- The holder keeps its reserve and the funder covers the fee, with one more HTLC if the funder is
the holder. -/
theorem OfferedAmount.fee_covered (isLocal : Bool) {addl : ℕ}
    (haddl : addl ≤ if funder then 1 else 0)
    (hfee : funder = false → commitTxFeeSat feerate
      (nondustHtlcCount isLocal htlcs feerate
        (constraints.broadcasterDustLimitSatoshis isLocal) channelType) channelType * 1000 ≤
      (balancesBeforeFee funder channelValue toHolder htlcs channelType).2) :
    let before := balancesBeforeFee funder channelValue toHolder htlcs channelType
    let feeMsat := commitTxFeeSat feerate
      (nondustHtlcCount isLocal htlcs feerate
          (constraints.broadcasterDustLimitSatoshis isLocal) channelType +
        nondustBit a (minNondustHtlcSat isLocal true feerate
          (constraints.broadcasterDustLimitSatoshis isLocal) channelType) + addl)
      channelType * 1000
    a ≤ before.1 ∧
    feeMsat ≤ funderBalance funder (before.1 - a) before.2 ∧
    constraints.counterpartySelectedChannelReserveSatoshis * 1000 ≤
      (saturatingSubFromFunder funder (before.1 - a) before.2 feeMsat).1 := by
  have hpos := h.pos
  cases funder
  · obtain ⟨c, hc, hle⟩ := h.counterparty_fee rfl isLocal
    obtain ⟨hcapacity, hnondust⟩ := capacityAfterCounterpartyFee_sound hc hle
    have hfee := hfee rfl
    obtain rfl : addl = 0 := by simpa using haddl
    simp only [funderBalance, saturatingSubFromFunder, Bool.false_eq_true, if_false, Nat.add_zero]
    refine ⟨by omega, ?_, by omega⟩
    unfold nondustBit
    split
    · exact hfee
    · exact (Nat.le_add_right _ _).trans (hnondust (by omega))
  · have hcapacity := capacityAfterHolderFee_sound hpos (h.holder_fee rfl isLocal)
    have hspiked := le_satMul32 feerate
      (if !channelType.supportsAnchorsZeroFeeHtlcTx then 2 else 1) (by split <;> decide)
    have hmono := commitTxFeeSat_mono hspiked (Nat.add_le_add_left haddl
      (nondustHtlcCount isLocal htlcs feerate
          (constraints.broadcasterDustLimitSatoshis isLocal) channelType +
        nondustBit a (minNondustHtlcSat isLocal true feerate
          (constraints.broadcasterDustLimitSatoshis isLocal) channelType))) channelType
    simp only [funderBalance, saturatingSubFromFunder, if_true] at hcapacity hmono ⊢
    omega

/-- **An offered amount keeps a commitment valid**, the local and the remote one. -/
theorem OfferedAmount.exists_stats {isLocal : Bool} {addl : ℕ}
    (haddl : addl ≤ if funder then 1 else 0)
    {stats : NextCommitmentStats}
    (hstats : getNextCommitmentStats isLocal funder channelValue toHolder htlcs 0 feerate false
      limitingFeerate (constraints.broadcasterDustLimitSatoshis isLocal) channelType =
        .ok (some stats)) :
    ∃ stats', getNextCommitmentStats isLocal funder channelValue toHolder (⟨true, a⟩ :: htlcs) addl
        feerate false limitingFeerate (constraints.broadcasterDustLimitSatoshis isLocal)
        channelType = .ok (some stats') ∧
      constraints.counterpartySelectedChannelReserveSatoshis * 1000 ≤ stats'.holderBalanceMsat := by
  obtain ⟨hzero, hcovers, -, hfee, -⟩ := getNextCommitmentStats_eq_some_iff.mp hstats
  obtain ⟨hle, hfee', hreserve⟩ := h.fee_covered isLocal haddl fun hout => by
    subst hout
    exact hfee
  refine ⟨_, getNextCommitmentStats_eq_some_iff.mpr ⟨hzero, hcovers.cons_outbound hle, ?_, ?_, rfl⟩,
    ?_⟩ <;> rw [balancesBeforeFee_cons_outbound] <;> simp only [nondustHtlcCount_cons_outbound]
  · exact h.output isLocal
  · exact hfee'
  · exact hreserve

end Offered

theorem exists_capacityAfterCounterpartyFee (capacity remoteBalance count : ℕ)
    {htlcDustLimitSat : ℕ} (hdust : 0 < htlcDustLimitSat) :
    ∃ c, capacityAfterCounterpartyFee capacity remoteBalance count htlcDustLimitSat feerate
      constraints channelType = .ok c := by
  simp only [capacityAfterCounterpartyFee]
  split
  · exact ⟨_, bind_eq_ok.mpr ⟨(), Panic.unless_eq_ok.mpr (by omega), rfl⟩⟩
  · exact ⟨_, rfl⟩

theorem exists_adjustCapacityForReservedFee (hholder : 0 < constraints.holderDustLimitSatoshis)
    (hcounterparty : 0 < constraints.counterpartyDustLimitSatoshis)
    (capacity remoteBalance localCount remoteCount : ℕ) (spiked : UInt32) :
    ∃ c, adjustCapacityForReservedFee funder capacity remoteBalance localCount
      remoteCount feerate spiked constraints channelType = .ok c := by
  cases funder
  · obtain ⟨onLocal, hlocal⟩ :=
      exists_capacityAfterCounterpartyFee capacity remoteBalance localCount
      (Nat.add_pos_left hholder (secondStageTxFeesSat channelType feerate).2)
    obtain ⟨onRemote, hremote⟩ := exists_capacityAfterCounterpartyFee capacity remoteBalance
      remoteCount (Nat.add_pos_left hcounterparty (secondStageTxFeesSat channelType feerate).1)
    exact ⟨_, bind_eq_ok.mpr ⟨_, hlocal, bind_eq_ok.mpr ⟨_, hremote, rfl⟩⟩⟩
  · exact ⟨_, rfl⟩

/-- **The balances can always be computed.** In a channel worth at least the dust limit, with dust
limits above zero, nothing on the way panics. -/
theorem getAvailableBalances_total (hle : toHolder ≤ channelValue * 1000)
    (hzero : channelType.supportsAnchorZeroFeeCommitments → feerate = 0)
    (hreserve : constraints.counterpartySelectedChannelReserveSatoshis ≠ 0 →
      constraints.holderDustLimitSatoshis ≤ channelValue)
    (hholder : 0 < constraints.holderDustLimitSatoshis)
    (hcounterparty : 0 < constraints.counterpartyDustLimitSatoshis) :
    ∃ b, getAvailableBalances funder channelValue toHolder htlcs feerate limitingFeerate maxExposure
      constraints channelType = .ok b := by
  have hbalance : (balancesBeforeFee funder channelValue toHolder htlcs channelType).1 / 1000 ≤
      channelValue := by
    cases funder <;>
      simp only [balancesBeforeFee, saturatingSubFromFunder, Bool.false_eq_true, if_false,
        if_true] <;>
      omega
  simp only [balancesBeforeFee] at hbalance
  obtain ⟨spliceOut, hspliceOut⟩ := exists_getNextSpliceOutMaximumSat _ _ _ feerate _
    channelType hbalance hreserve hholder
  obtain ⟨capacity, hcapacity⟩ :=
    exists_adjustCapacityForReservedFee hholder hcounterparty _ _ _ _ _
  exact ⟨_, bind_eq_ok.mpr ⟨_, unwrap_eq_ok.mpr (checkedSub_eq_some.mpr ⟨hle, rfl⟩),
    bind_eq_ok.mpr ⟨_, hspliceOut, bind_eq_ok.mpr ⟨_, hcapacity, bind_eq_ok.mpr
      ⟨_, (adjustMinMaxHtlcForDustExposure_eq_ok_iff _ _ _ _ _ _).mpr ⟨hzero, rfl⟩, rfl⟩⟩⟩⟩⟩

section Computed

variable {b : AvailableBalances} (hok : getAvailableBalances funder channelValue toHolder htlcs
  feerate limitingFeerate maxExposure constraints channelType = .ok b)

include hok

/-- **Inversion.** An amount between the ends of the range survived every adjustment. -/
theorem offeredAmount_of_getAvailableBalances {a : ℕ}
    (hmin : max 1 b.nextOutboundHtlcMinimumMsat ≤ a) (hmax : a ≤ b.nextOutboundHtlcLimitMsat) :
    OfferedAmount funder channelValue toHolder htlcs feerate limitingFeerate maxExposure constraints
      channelType a := by
  have hpos : 1 ≤ a := (Nat.le_max_left _ _).trans hmin
  have hlo := (Nat.le_max_right _ _).trans hmin
  simp only [getAvailableBalances] at hok
  obtain ⟨toCounterparty, hunwrap, hok⟩ := bind_eq_ok.mp hok
  obtain ⟨spliceOut, -, hok⟩ := bind_eq_ok.mp hok
  obtain ⟨capacity, hcapacity, hok⟩ := bind_eq_ok.mp hok
  obtain ⟨range, hrange, hok⟩ := bind_eq_ok.mp hok
  cases hok
  obtain ⟨hle, rfl⟩ := checkedSub_eq_some.mp (unwrap_eq_ok.mp hunwrap)
  obtain ⟨hzero, rfl⟩ := adjustMinMaxHtlcForDustExposure_eq_ok_iff _ _ _ _ _ _ |>.mp hrange
  simp only [adjustMinMaxHtlcIfMaxDustHtlcProducesNoOutput] at hlo hmax
  rw [← balancesBeforeFee] at hlo hmax hcapacity
  obtain ⟨hlo, hmax, hremote⟩ := adjustBoundaries_sound hpos hlo hmax
  obtain ⟨hlo, hmax, hlocal⟩ := adjustBoundaries_sound hpos hlo hmax
  split at hmax <;> rename_i hcount
  · omega
  have hrangeLe := hmax.trans (Nat.min_le_left _ _)
  have hcapacityLe : a ≤ capacity := hrangeLe.trans
    ((dustExposureRange_le_capacity _ _ _ _ _ _ _ _).trans (capacityBelowFeeExposure_le _ _ _ _))
  refine ⟨hpos, hle, hzero, ?_, ?_, ⟨capacity, hlo, hrangeLe⟩, by omega, by omega, ?_⟩
  · rintro rfl
    cases hcapacity
    rintro (_ | _)
    · exact hcapacityLe.trans (Nat.min_le_right _ _)
    · exact hcapacityLe.trans (Nat.min_le_left _ _)
  · rintro rfl
    obtain ⟨onLocal, hlocalCap, hcapacity⟩ := bind_eq_ok.mp hcapacity
    obtain ⟨onRemote, hremoteCap, hcapacity⟩ := bind_eq_ok.mp hcapacity
    cases hcapacity
    rintro (_ | _)
    · exact ⟨onRemote, hremoteCap, hcapacityLe.trans (Nat.min_le_right _ _)⟩
    · exact ⟨onLocal, hlocalCap, hcapacityLe.trans (Nat.min_le_left _ _)⟩
  · rintro (_ | _)
    · exact hremote
    · exact hlocal

/-- A computed range means that the channel is worth at least the holder's dust limit, unless the
holder has no reserve. -/
theorem dustLimit_le_of_getAvailableBalances
    (hreserve : constraints.counterpartySelectedChannelReserveSatoshis ≠ 0) :
    constraints.holderDustLimitSatoshis ≤ channelValue := by
  simp only [getAvailableBalances] at hok
  obtain ⟨toCounterparty, -, hok⟩ := bind_eq_ok.mp hok
  obtain ⟨spliceOut, hspliceOut, -⟩ := bind_eq_ok.mp hok
  obtain ⟨m, hm, -⟩ := bind_eq_ok.mp hspliceOut
  rw [spliceOutMaximumAboveReserve, if_pos hreserve] at hm
  obtain ⟨u, hu, -⟩ := bind_eq_ok.mp hm
  exact dustLimit_le_of_assertSpliceOutMaximum hu

/-- What the debug build asserts of the range: the greatest offered amount can be added, and leaves
the holder at or above its reserve. -/
theorem exists_stats_limit {stats : NextCommitmentStats}
    (hstats : getNextCommitmentStats false funder channelValue toHolder htlcs 0 feerate false
      limitingFeerate constraints.counterpartyDustLimitSatoshis channelType = .ok (some stats))
    (hrange : b.nextOutboundHtlcMinimumMsat ≤ b.nextOutboundHtlcLimitMsat ∧
      b.nextOutboundHtlcLimitMsat ≠ 0) :
    ∃ stats', getNextCommitmentStats false funder channelValue toHolder
        (⟨true, b.nextOutboundHtlcLimitMsat⟩ :: htlcs) 0 feerate false limitingFeerate
        constraints.counterpartyDustLimitSatoshis channelType = .ok (some stats') ∧
      constraints.counterpartySelectedChannelReserveSatoshis * 1000 ≤ stats'.holderBalanceMsat :=
  (offeredAmount_of_getAvailableBalances hok (a := b.nextOutboundHtlcLimitMsat) (by omega)
    le_rfl).exists_stats (Nat.zero_le _) hstats

/-- With positive dust limits the debug build's own check of the range passes. -/
theorem getAvailableBalancesForScope_eq_ok {stats : NextCommitmentStats}
    (hstats : getNextCommitmentStats false funder channelValue toHolder htlcs 0 feerate false
      limitingFeerate constraints.counterpartyDustLimitSatoshis channelType = .ok (some stats))
    (hholder : 0 < constraints.holderDustLimitSatoshis)
    (hcounterparty : 0 < constraints.counterpartyDustLimitSatoshis) :
    getAvailableBalancesForScope funder channelValue toHolder htlcs feerate limitingFeerate
      maxExposure constraints channelType = .ok (some b) := by
  have hchannel : getChannelStats false funder channelValue toHolder htlcs 0 feerate false
      limitingFeerate maxExposure constraints channelType = .ok (some ⟨stats, b⟩) :=
    bind_eq_ok.mpr ⟨_, hstats, bind_eq_ok.mpr ⟨_, hok, rfl⟩⟩
  refine bind_eq_ok.mpr ⟨_, hchannel, ?_⟩
  simp only
  split <;> rename_i hrange
  swap
  · rfl
  have hoffered := offeredAmount_of_getAvailableBalances hok
    (a := b.nextOutboundHtlcLimitMsat) (by omega) le_rfl
  obtain ⟨stats', hstats', hreserve⟩ := exists_stats_limit hok hstats hrange
  obtain ⟨b', hb'⟩ := getAvailableBalances_total hoffered.holder_le_channel hoffered.feerate_zero
    (dustLimit_le_of_getAvailableBalances hok) hholder hcounterparty
  refine bind_eq_ok.mpr ⟨some ⟨stats', b'⟩, bind_eq_ok.mpr ⟨_, hstats',
    bind_eq_ok.mpr ⟨_, hb', rfl⟩⟩, bind_eq_ok.mpr ⟨_, rfl, ?_⟩⟩
  exact bind_eq_ok.mpr ⟨(), Panic.unless_eq_ok.mpr hreserve, rfl⟩

end Computed

end Range

variable {isOutboundFromHolder : Bool} {channelValueSatoshis valueToHolderMsat : ℕ}
  {pendingHtlcs : List HTLCAmountDirection} {feeratePerKw : UInt32}
  {dustExposureLimitingFeerate : Option UInt32} {maxDustHtlcExposureMsat : ℕ}
  {channelConstraints : ChannelConstraints} {channelType : ChannelTypeFeatures}

/-- **Any HTLC the channel offers to send keeps both commitments valid.** Let the local and the
remote commitment of the pending HTLCs be valid. Adding an outbound HTLC of any amount in the range
keeps both valid, with room for one more HTLC if the holder is the funder. It leaves the holder at
or above its reserve on both, leaves an output on both, and stays within the counterparty's limits
on the value and the number of HTLCs. Hence what the caller asserts holds: the greatest amount can
be added to the remote commitment, and leaves the holder its reserve. The caller computes another
range on the way, which can panic only if a dust limit is zero. -/
theorem offered_htlc_keeps_commitments_valid {localStats remoteStats : NextCommitmentStats}
    {b : AvailableBalances}
    (hlocal : getNextCommitmentStats true isOutboundFromHolder channelValueSatoshis
      valueToHolderMsat pendingHtlcs 0 feeratePerKw false dustExposureLimitingFeerate
      channelConstraints.holderDustLimitSatoshis channelType = .ok (some localStats))
    (hremote : getNextCommitmentStats false isOutboundFromHolder channelValueSatoshis
      valueToHolderMsat pendingHtlcs 0 feeratePerKw false dustExposureLimitingFeerate
      channelConstraints.counterpartyDustLimitSatoshis channelType = .ok (some remoteStats))
    (hok : getAvailableBalances isOutboundFromHolder channelValueSatoshis valueToHolderMsat
      pendingHtlcs feeratePerKw dustExposureLimitingFeerate maxDustHtlcExposureMsat
      channelConstraints channelType = .ok b) :
    (∀ a, max 1 b.nextOutboundHtlcMinimumMsat ≤ a → a ≤ b.nextOutboundHtlcLimitMsat →
      (∀ isLocal, ∃ stats, getNextCommitmentStats isLocal isOutboundFromHolder channelValueSatoshis
          valueToHolderMsat (⟨true, a⟩ :: pendingHtlcs) (if isOutboundFromHolder then 1 else 0)
          feeratePerKw false dustExposureLimitingFeerate
          (channelConstraints.broadcasterDustLimitSatoshis isLocal) channelType = .ok (some stats) ∧
        channelConstraints.counterpartySelectedChannelReserveSatoshis * 1000 ≤
          stats.holderBalanceMsat ∧
        hasOutput isOutboundFromHolder
          (balancesBeforeFee isOutboundFromHolder channelValueSatoshis valueToHolderMsat
            (⟨true, a⟩ :: pendingHtlcs) channelType).1
          (balancesBeforeFee isOutboundFromHolder channelValueSatoshis valueToHolderMsat
            (⟨true, a⟩ :: pendingHtlcs) channelType).2 feeratePerKw
          (nondustHtlcCount isLocal (⟨true, a⟩ :: pendingHtlcs) feeratePerKw
            (channelConstraints.broadcasterDustLimitSatoshis isLocal) channelType)
          (channelConstraints.broadcasterDustLimitSatoshis isLocal) channelType = true) ∧
      outboundHtlcsValueMsat (⟨true, a⟩ :: pendingHtlcs) ≤
        channelConstraints.counterpartyMaxHtlcValueInFlightMsat ∧
      (⟨true, a⟩ :: pendingHtlcs : List HTLCAmountDirection).countP (fun htlc => htlc.outbound) ≤
        channelConstraints.counterpartyMaxAcceptedHtlcs) ∧
    (b.nextOutboundHtlcMinimumMsat ≤ b.nextOutboundHtlcLimitMsat ∧
        b.nextOutboundHtlcLimitMsat ≠ 0 →
      ∃ stats, getNextCommitmentStats false isOutboundFromHolder channelValueSatoshis
          valueToHolderMsat (⟨true, b.nextOutboundHtlcLimitMsat⟩ :: pendingHtlcs) 0 feeratePerKw
          false dustExposureLimitingFeerate channelConstraints.counterpartyDustLimitSatoshis
          channelType = .ok (some stats) ∧
        channelConstraints.counterpartySelectedChannelReserveSatoshis * 1000 ≤
          stats.holderBalanceMsat) ∧
    (0 < channelConstraints.holderDustLimitSatoshis →
      0 < channelConstraints.counterpartyDustLimitSatoshis →
      getAvailableBalancesForScope isOutboundFromHolder channelValueSatoshis valueToHolderMsat
        pendingHtlcs feeratePerKw dustExposureLimitingFeerate maxDustHtlcExposureMsat
        channelConstraints channelType = .ok (some b)) := by
  refine ⟨fun a hmin hmax => ?_, exists_stats_limit hok hremote,
    getAvailableBalancesForScope_eq_ok hok hremote⟩
  have hoffered := offeredAmount_of_getAvailableBalances hok hmin hmax
  refine ⟨fun isLocal => ?_, ?_, ?_⟩
  · have hstats : ∃ stats, getNextCommitmentStats isLocal isOutboundFromHolder channelValueSatoshis
        valueToHolderMsat pendingHtlcs 0 feeratePerKw false dustExposureLimitingFeerate
        (channelConstraints.broadcasterDustLimitSatoshis isLocal) channelType =
          .ok (some stats) := by
      cases isLocal
      · exact ⟨_, hremote⟩
      · exact ⟨_, hlocal⟩
    obtain ⟨stats, hstats⟩ := hstats
    obtain ⟨stats', hstats', hreserve⟩ := hoffered.exists_stats le_rfl hstats
    exact ⟨stats', hstats', hreserve, (getNextCommitmentStats_eq_some_iff.mp hstats').2.2.1⟩
  · rw [outboundHtlcsValueMsat_cons_outbound]
    exact hoffered.in_flight
  · rw [List.countP_cons]
    exact hoffered.count

/-- A funder with half of a million satoshis, in an anchor channel with no HTLC pending, can add an
HTLC of a hundred thousand satoshis. -/
theorem offered_htlc_keeps_commitments_valid_anchors :
    ∃ stats, getNextCommitmentStats true true 1000000 500000000 [⟨true, 100000000⟩] 1 253 false none
        354 ⟨true, false⟩ = .ok (some stats) ∧ 10000 * 1000 ≤ stats.holderBalanceMsat := by
  have hvalid := @offered_htlc_keeps_commitments_valid true 1000000 500000000 [] 253 none 5000000
    ⟨354, 10000, 354, 10000, 1000, 1000000000, 50⟩ ⟨true, false⟩ ⟨499056000, 500000000, 0⟩
    ⟨499056000, 500000000, 0⟩ ⟨490000000, 489340000, 488969000, 1000, 0, 493953⟩
    (by decide +kernel) (by decide +kernel) (by decide +kernel)
  obtain ⟨stats, hstats, hreserve, -⟩ := (hvalid.1 100000000 (by decide) (by decide)).1 true
  exact ⟨stats, hstats, hreserve⟩

end PqLightning
