import PqLightning.TxBuilder.HtlcRange

/-!
# The dust exposure of the HTLCs the channel offers to send

An outbound HTLC adds to the dust exposure of a commitment by its value, if it is dust there, and on
the counterparty's commitment, if it is not, by the fee in excess of the limiting feerate that one
more accepted HTLC costs. `adjust_min_max_htlc_for_dust_exposure` folds the amounts that stay within
the limit on both commitments into one range.

It is off by one millisatoshi at one place. When the fees of one more HTLC would exceed the limit,
the source says that no non-dust HTLC can be sent, and caps the range at the dust boundary of the
counterparty's commitment. The boundary itself is the smallest non-dust amount, so it is offered
although it exceeds the limit. Everywhere else the range is right: an offered amount exceeds the
limit exactly when it is that one.
-/

namespace PqLightning

/-! ### Adding one outbound HTLC -/

section Cons

variable (amountMsat : ℕ) (htlcs : List HTLCAmountDirection) (feerate : UInt32)
  (limitingFeerate : Option UInt32) (dustLimit : ℕ) (channelType : ChannelTypeFeatures)

theorem dustHtlcsValueMsat_cons_outbound (isLocal : Bool) :
    dustHtlcsValueMsat isLocal (⟨true, amountMsat⟩ :: htlcs) feerate dustLimit channelType =
      (if amountMsat < minNondustHtlcSat isLocal true feerate dustLimit channelType * 1000 then
        amountMsat else 0) + dustHtlcsValueMsat isLocal htlcs feerate dustLimit channelType := by
  unfold dustHtlcsValueMsat
  split <;> rename_i h <;> simp [HTLCAmountDirection.isDust_eq_decide, h]

/-- The holder's HTLCs are the ones the counterparty's commitment accepts, so one that is not dust
makes the fees those with an extra accepted HTLC. -/
theorem commitPlusHtlcTxFeesMsat_cons_outbound (bufferFeerate : UInt32) :
    (commitPlusHtlcTxFeesMsat false (⟨true, amountMsat⟩ :: htlcs) bufferFeerate feerate dustLimit
      channelType).1 =
      if amountMsat < minNondustHtlcSat false true bufferFeerate dustLimit channelType * 1000 then
        (commitPlusHtlcTxFeesMsat false htlcs bufferFeerate feerate dustLimit channelType).1
      else (commitPlusHtlcTxFeesMsat false htlcs bufferFeerate feerate dustLimit
        channelType).2 := by
  unfold commitPlusHtlcTxFeesMsat
  split <;> rename_i h <;> simp [HTLCAmountDirection.isDust_eq_decide, h]

/-- On the local commitment only a dust HTLC adds to the exposure. -/
theorem dustExposure_local_cons :
    (dustExposure true (⟨true, amountMsat⟩ :: htlcs) feerate limitingFeerate dustLimit
      channelType).1 =
      (if amountMsat < minNondustHtlcSat true true (getDustBufferFeerate feerate) dustLimit
          channelType * 1000 then amountMsat else 0) +
        (dustExposure true htlcs feerate limitingFeerate dustLimit channelType).1 := by
  simp [dustExposure, dustHtlcsValueMsat_cons_outbound]

/-- On the remote commitment a dust HTLC adds its value, and another one makes the exposure that
with an extra HTLC, if fees count at all. -/
theorem dustExposure_remote_cons :
    (dustExposure false (⟨true, amountMsat⟩ :: htlcs) feerate limitingFeerate dustLimit
      channelType).1 =
      if amountMsat < minNondustHtlcSat false true (getDustBufferFeerate feerate) dustLimit
          channelType * 1000 then
        amountMsat + (dustExposure false htlcs feerate limitingFeerate dustLimit channelType).1
      else
        (dustExposure false htlcs feerate limitingFeerate dustLimit channelType).2.getD
          (dustExposure false htlcs feerate limitingFeerate dustLimit channelType).1 := by
  simp only [dustExposure, Bool.false_or, dustHtlcsValueMsat_cons_outbound,
    commitPlusHtlcTxFeesMsat_cons_outbound]
  split <;> split <;> simp [Nat.add_assoc]

end Cons

/-! ### The range -/

/-- An amount in the range around a boundary that is below that boundary is within the remaining
exposure. -/
theorem le_remaining_of_rangeAround {remaining boundary htlcMinimum capacity a : ℕ}
    (hlo : (rangeAround remaining boundary htlcMinimum capacity).1 ≤ a)
    (hhi : a ≤ (rangeAround remaining boundary htlcMinimum capacity).2) (hlt : a < boundary) :
    a ≤ remaining := by
  unfold rangeAround at hlo hhi
  split_ifs at hlo hhi
  · exact hhi.trans (Nat.min_le_right _ _)
  · exact absurd (Nat.lt_of_lt_of_le hlt (Nat.le_max_right _ _)) (Nat.not_lt.mpr hlo)

section Range

variable {localExposure remoteExposure : ℕ} {extra : Option ℕ}
  {timeoutSat successSat maxExposure htlcMinimum capacity a : ℕ}

section

variable
  (hlo : (dustExposureRange localExposure remoteExposure extra timeoutSat successSat maxExposure
    htlcMinimum capacity).1 ≤ a)
  (hhi : a ≤ (dustExposureRange localExposure remoteExposure extra timeoutSat successSat maxExposure
    htlcMinimum capacity).2)

include hlo hhi

/-- An offered amount that is dust on the remote commitment keeps the limit there. -/
theorem remote_dust_le_of_dustExposureRange (hremote : remoteExposure ≤ maxExposure)
    (hdust : a < successSat * 1000) : a + remoteExposure ≤ maxExposure := by
  rw [dustExposureRange_eq] at hlo hhi
  by_cases hclose : maxExposure + 1 < remoteExposure + successSat * 1000
  · simp only [hclose, if_true] at hlo hhi
    split_ifs at hlo hhi
    · have hle := le_remaining_of_rangeAround hlo hhi (by omega)
      omega
    · have hle := le_remaining_of_rangeAround hlo hhi hdust
      omega
  · omega

/-- An offered amount that is dust on the local commitment keeps the limit there. -/
theorem local_dust_le_of_dustExposureRange (hlocal : localExposure ≤ maxExposure)
    (hdust : a < timeoutSat * 1000) : a + localExposure ≤ maxExposure := by
  rw [dustExposureRange_eq] at hlo hhi
  by_cases hclose : min (maxExposure : ℤ) (2 ^ 63 - 1) <
      (localExposure : ℤ) + (timeoutSat : ℤ) * 1000 - 1
  · simp only [hclose, if_true] at hlo hhi
    split_ifs at hlo hhi
    · have hle := le_remaining_of_rangeAround hlo hhi (by omega)
      omega
    · have hle := le_remaining_of_rangeAround hlo hhi hdust
      omega
  · omega

end

/-- When one more HTLC would exceed the limit through fees, the range ends at the smallest amount
that is not dust on the remote commitment. -/
theorem le_boundary_of_dustExposureRange {e : ℕ} (he : maxExposure < e)
    (hhi : a ≤ (dustExposureRange localExposure remoteExposure (some e) timeoutSat successSat
      maxExposure htlcMinimum capacity).2) : a ≤ successSat * 1000 := by
  have hcap : capacityBelowFeeExposure (some e) successSat maxExposure capacity ≤
      successSat * 1000 := by
    simp only [capacityBelowFeeExposure, if_pos he]
    exact Nat.min_le_right _ _
  refine hhi.trans (le_trans ?_ hcap)
  exact dustExposureRange_le_capacity _ _ _ _ _ _ _ _

end Range

/-! ### The limit -/

section Limit

variable {isOutboundFromHolder : Bool} {channelValueSatoshis valueToHolderMsat : ℕ}
  {pendingHtlcs : List HTLCAmountDirection} {feeratePerKw : UInt32}
  {dustExposureLimitingFeerate : Option UInt32} {maxDustHtlcExposureMsat : ℕ}
  {channelConstraints : ChannelConstraints} {channelType : ChannelTypeFeatures}

/-- **The limit is kept by every offered amount but one.** Let the exposure of the pending HTLCs be
within the limit on both commitments. An amount of the range keeps it there exactly when it is not
the smallest non-dust amount of the remote commitment in a situation in which the fees of one more
HTLC exceed the limit. -/
theorem offered_htlc_dust_exposure_le_iff {b : AvailableBalances} {localExposure remoteExposure : ℕ}
    {extra extraLocal : Option ℕ} {a : ℕ}
    (hlocal : getDustExposureStats true pendingHtlcs feeratePerKw dustExposureLimitingFeerate
      channelConstraints.holderDustLimitSatoshis channelType = .ok (localExposure, extraLocal))
    (hremote : getDustExposureStats false pendingHtlcs feeratePerKw dustExposureLimitingFeerate
      channelConstraints.counterpartyDustLimitSatoshis channelType = .ok (remoteExposure, extra))
    (hlocalLe : localExposure ≤ maxDustHtlcExposureMsat)
    (hremoteLe : remoteExposure ≤ maxDustHtlcExposureMsat)
    (hok : getAvailableBalances isOutboundFromHolder channelValueSatoshis valueToHolderMsat
      pendingHtlcs feeratePerKw dustExposureLimitingFeerate maxDustHtlcExposureMsat
      channelConstraints channelType = .ok b)
    (hmin : max 1 b.nextOutboundHtlcMinimumMsat ≤ a) (hmax : a ≤ b.nextOutboundHtlcLimitMsat) :
    (∃ localExposure' remoteExposure' extraLocal' extra',
      getDustExposureStats true (⟨true, a⟩ :: pendingHtlcs) feeratePerKw dustExposureLimitingFeerate
        channelConstraints.holderDustLimitSatoshis channelType = .ok (localExposure', extraLocal') ∧
      getDustExposureStats false (⟨true, a⟩ :: pendingHtlcs) feeratePerKw
        dustExposureLimitingFeerate channelConstraints.counterpartyDustLimitSatoshis channelType =
          .ok (remoteExposure', extra') ∧
      localExposure' ≤ maxDustHtlcExposureMsat ∧ remoteExposure' ≤ maxDustHtlcExposureMsat) ↔
    ¬ ((∃ e, extra = some e ∧ maxDustHtlcExposureMsat < e) ∧
      a = minNondustHtlcSat false true (getDustBufferFeerate feeratePerKw)
        channelConstraints.counterpartyDustLimitSatoshis channelType * 1000) := by
  obtain ⟨hzero, hlocalEq⟩ := getDustExposureStats_eq_ok_iff.mp hlocal
  obtain ⟨-, hremoteEq⟩ := getDustExposureStats_eq_ok_iff.mp hremote
  obtain ⟨capacity, hlo, hhi⟩ := (offeredAmount_of_getAvailableBalances hok hmin hmax).dust_exposure
  simp only [pendingDustExposureRange, ← hlocalEq, ← hremoteEq] at hlo hhi
  have hlocal' := dustExposure_local_cons a pendingHtlcs feeratePerKw dustExposureLimitingFeerate
    channelConstraints.holderDustLimitSatoshis channelType
  have hremote' := dustExposure_remote_cons a pendingHtlcs feeratePerKw dustExposureLimitingFeerate
    channelConstraints.counterpartyDustLimitSatoshis channelType
  simp only [← hlocalEq, ← hremoteEq] at hlocal' hremote'
  have hlocalKept : (dustExposure true (⟨true, a⟩ :: pendingHtlcs) feeratePerKw
      dustExposureLimitingFeerate channelConstraints.holderDustLimitSatoshis channelType).1 ≤
      maxDustHtlcExposureMsat := by
    rw [hlocal']
    split <;> rename_i hdust
    · exact local_dust_le_of_dustExposureRange hlo hhi hlocalLe hdust
    · rwa [Nat.zero_add]
  have hremoteKept : (dustExposure false (⟨true, a⟩ :: pendingHtlcs) feeratePerKw
      dustExposureLimitingFeerate channelConstraints.counterpartyDustLimitSatoshis channelType).1 ≤
      maxDustHtlcExposureMsat ↔ ¬ ((∃ e, extra = some e ∧ maxDustHtlcExposureMsat < e) ∧
        a = minNondustHtlcSat false true (getDustBufferFeerate feeratePerKw)
          channelConstraints.counterpartyDustLimitSatoshis channelType * 1000) := by
    rw [hremote']
    split <;> rename_i hdust
    · exact iff_of_true (remote_dust_le_of_dustExposureRange hlo hhi hremoteLe hdust)
        fun h => by have := h.2; omega
    · -- not dust: the exposure is the one with an extra HTLC, which the cap excludes but for `a`
      -- right at the boundary
      cases extra with
      | none => exact iff_of_true hremoteLe (by simp)
      | some e =>
        rw [Option.getD_some]
        constructor
        · rintro he ⟨⟨e', he', hlt⟩, -⟩
          cases he'
          omega
        · intro hnot
          by_contra hlt
          have hle := le_boundary_of_dustExposureRange (Nat.not_le.mp hlt) hhi
          exact hnot ⟨⟨e, rfl, Nat.not_le.mp hlt⟩, by omega⟩
  rw [← hremoteKept]
  constructor
  · rintro ⟨l, r, xl, xr, -, hr, -, hle⟩
    obtain ⟨-, hr⟩ := getDustExposureStats_eq_ok_iff.mp hr
    rw [← hr]
    exact hle
  · intro hle
    exact ⟨_, _, _, _, getDustExposureStats_eq_ok_iff.mpr ⟨hzero, rfl⟩,
      getDustExposureStats_eq_ok_iff.mpr ⟨hzero, rfl⟩, hlocalKept, hle⟩

/-- **The amount that exceeds the limit.** A legacy channel with no HTLC pending, at a feerate of
1253 and a limiting feerate of 253 satoshis per kiloweight, has an exposure of 724,000
millisatoshis, and 1,599,000 with one more HTLC. With a limit of 1,000,000 the range is the single
amount 3,013,000, the smallest that is not dust, and adding it exceeds the limit. -/
theorem offered_htlc_exceeds_dust_exposure :
    ∃ b, getAvailableBalances true 1000000 500000000 [] 1253 (some 253) 1000000
        ⟨354, 10000, 354, 10000, 1000, 1000000000, 50⟩ ⟨false, false⟩ = .ok b ∧
      getDustExposureStats true [] 1253 (some 253) 354 ⟨false, false⟩ = .ok (0, none) ∧
      getDustExposureStats false [] 1253 (some 253) 354 ⟨false, false⟩ =
        .ok (724000, some 1599000) ∧
      max 1 b.nextOutboundHtlcMinimumMsat ≤ 3013000 ∧ 3013000 ≤ b.nextOutboundHtlcLimitMsat ∧
      getDustExposureStats false [⟨true, 3013000⟩] 1253 (some 253) 354 ⟨false, false⟩ =
        .ok (1599000, some 2474000) :=
  ⟨⟨490000000, 490000000, 3013000, 3013000, 724000, 492682⟩, by decide +kernel, by decide +kernel,
    by decide +kernel, by decide, by decide, by decide +kernel⟩

/-- With a limit of two million millisatoshis the same channel offers the same amount, and keeps the
limit. -/
theorem offered_htlc_dust_exposure_le_iff_legacy :
    ∃ localExposure' remoteExposure' extraLocal' extra',
      getDustExposureStats true [⟨true, 3013000⟩] 1253 (some 253) 354 ⟨false, false⟩ =
        .ok (localExposure', extraLocal') ∧
      getDustExposureStats false [⟨true, 3013000⟩] 1253 (some 253) 354 ⟨false, false⟩ =
        .ok (remoteExposure', extra') ∧ localExposure' ≤ 2000000 ∧ remoteExposure' ≤ 2000000 :=
  (@offered_htlc_dust_exposure_le_iff true 1000000 500000000 [] 1253 (some 253) 2000000
    ⟨354, 10000, 354, 10000, 1000, 1000000000, 50⟩ ⟨false, false⟩
    ⟨490000000, 490000000, 487324000, 3013000, 724000, 492682⟩ 0 724000 (some 1599000) none 3013000
    (by decide +kernel) (by decide +kernel) (by decide) (by decide) (by decide +kernel) (by decide)
    (by decide)).mpr (by rintro ⟨⟨e, he, hlt⟩, -⟩; obtain rfl := Option.some.inj he; omega)

end Limit

end PqLightning
