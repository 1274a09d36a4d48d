import PqLightning.Chain.Package

/-!
# Fee bumps

A claim that does not confirm is made again, with a fee computed from the feerate of its last
transaction. That feerate was rounded down, so a satoshi that was paid may be missing from the fee.
The relay fee, at 253 sat per 1000 weight units, makes up for it against the 250 sat that nodes ask
for, if the transaction has at least 333 weight units.

The numbers are unbounded here. With the checks of the 64-bit ones, and with the assertions, the
functions return the same for the amounts and weights that can occur (`computePackageOutputU64_eq`).
-/

namespace PqLightning.Chain.PackageTemplate

/-- **A round.** The package with its new feerate, and the fee that its last transaction pays.
Without a result both stay. -/
def bumpRound (weight dust : ℕ) (claim : PackageTemplate × ℕ)
    (round : FeerateStrategy × ℕ) : PackageTemplate × ℕ :=
  match claim.1.computePackageOutput weight dust round.1 round.2 with
  | none => claim
  | some (value, feerate) =>
    ({ claim.1 with feeratePrevious := feerate }, claim.1.packageAmount - value)

/-- **A replacement that nodes relay**: the feerate does not fall, the output is between the dust
limit and the inputs, and a new feerate pays for the replacement. -/
structure Replaces (weight dust : ℕ) (claim : PackageTemplate × ℕ) (value feerate : ℕ) : Prop where
  feerate_le : claim.1.feeratePrevious ≤ feerate
  value_le : value ≤ claim.1.packageAmount
  dust_le : dust ≤ value
  pays : claim.1.feeratePrevious ≠ 0 → feerate ≠ claim.1.feeratePrevious →
    claim.2 + 250 * weight / 1000 ≤ claim.1.packageAmount - value

variable {weight dust estimate : ℕ} {strategy : FeerateStrategy}

/-! ### One round -/

theorem fee_of_computeFeeFromSpentAmounts {inputAmounts : ℕ} {fee : ℕ × ℕ}
    (h : computeFeeFromSpentAmounts inputAmounts weight estimate = some fee) :
    fee.1 = fee.2 * weight / 1000 := by
  unfold computeFeeFromSpentAmounts at h
  dsimp only at h
  split_ifs at h
  cases h
  rfl

theorem fee_of_propose {previousFeerate : ℕ} {new : ℕ × ℕ} (h : new.1 = new.2 * weight / 1000) :
    (strategy.propose weight previousFeerate new).1 =
      (strategy.propose weight previousFeerate new).2 * weight / 1000 := by
  unfold FeerateStrategy.propose
  cases strategy <;> dsimp only <;> split_ifs <;> first | rfl | exact h

/-- A bump keeps the feerate, or it pays the relay fee on top and leaves more than dust. -/
theorem feerateBump_spec {inputAmounts previousFeerate : ℕ} {fee : ℕ × ℕ}
    (h : feerateBump weight inputAmounts dust previousFeerate strategy estimate = some fee) :
    (fee.2 = previousFeerate ∧ fee.1 = fee.2 * weight / 1000) ∨
    (previousFeerate * weight / 1000 + 253 * weight / 1000 ≤ fee.1 ∧
      dust ≤ inputAmounts - fee.1 ∧ fee.2 = fee.1 * 1000 / weight) := by
  unfold feerateBump at h
  split at h
  · cases h
  next new hnew =>
    have hfee := @fee_of_propose weight strategy previousFeerate new
      (fee_of_computeFeeFromSpentAmounts hnew)
    dsimp only at h
    split_ifs at h with hsame hdust
    · cases h
      exact .inl ⟨hsame, hfee⟩
    · cases h
      exact .inr ⟨Nat.le_max_right _ _, Nat.not_lt.mp hdust, rfl⟩

/-- **Step.** The fee that is paid is below that of the next feerate, and a new feerate pays the
relay fee on top of the fee of the last one. -/
theorem computePackageOutput_spec {self : PackageTemplate} {value feerate : ℕ}
    (hweight : 8 ≤ weight) (hdust : 0 < dust) (hle : dust ≤ self.packageAmount)
    (h : self.computePackageOutput weight dust strategy estimate = some (value, feerate)) :
    self.feeratePrevious ≤ feerate ∧ value ≤ self.packageAmount ∧ dust ≤ value ∧
    (self.packageAmount - value) * 1000 < (feerate + 1) * weight ∧
    (self.feeratePrevious ≠ 0 → feerate ≠ self.feeratePrevious →
      self.feeratePrevious * weight / 1000 + 253 * weight / 1000 ≤ self.packageAmount - value) := by
  obtain ⟨⟨fee, rate⟩, hfee, heq⟩ := Option.map_eq_some_iff.mp h
  cases heq
  dsimp only
  rw [Nat.succ_mul]
  split_ifs at hfee with hprevious
  · rcases feerateBump_spec hfee with ⟨hsame, hsat⟩ | ⟨hrelay, hleft, hrate⟩
    · dsimp only at hsame hsat
      exact ⟨by omega, by omega, by omega, by omega, fun _ hne => absurd hsame hne⟩
    · dsimp only at hrelay hleft hrate
      have hlow : self.feeratePrevious ≤ rate := by
        rw [hrate, Nat.le_div_iff_mul_le (by omega)]
        omega
      have hhigh : fee * 1000 < rate * weight + weight := by
        rw [hrate]
        exact Nat.lt_div_mul_add (by omega)
      have hpaid : self.packageAmount - max (self.packageAmount - fee) dust = fee := by omega
      rw [hpaid]
      exact ⟨hlow, by omega, by omega, hhigh, fun _ _ => hrelay⟩
  · have hsat := fee_of_computeFeeFromSpentAmounts hfee
    dsimp only at hsat
    exact ⟨by omega, by omega, by omega, by omega, fun hne => absurd hne hprevious⟩

/-! ### Rounds -/

/-- **Run.** What the last transaction pays is below the fee of the next feerate. -/
theorem foldl_bumpRound (hweight : 8 ≤ weight) (hdust : 0 < dust)
    (rounds : List (FeerateStrategy × ℕ)) {claim : PackageTemplate × ℕ}
    (hle : dust ≤ claim.1.packageAmount)
    (hpaid : claim.2 * 1000 < (claim.1.feeratePrevious + 1) * weight) :
    let last := rounds.foldl (bumpRound weight dust) claim
    last.1.packageAmount = claim.1.packageAmount ∧
      last.2 * 1000 < (last.1.feeratePrevious + 1) * weight := by
  induction rounds generalizing claim with
  | nil => exact ⟨rfl, hpaid⟩
  | cons round rounds ih =>
    have hround : ∀ next, bumpRound weight dust claim round = next →
        next.1.packageAmount = claim.1.packageAmount ∧
          next.2 * 1000 < (next.1.feeratePrevious + 1) * weight := by
      rintro _ rfl
      unfold bumpRound
      split
      · exact ⟨rfl, hpaid⟩
      next value feerate hsome =>
        exact ⟨rfl, (computePackageOutput_spec hweight hdust hle hsome).2.2.2.1⟩
    obtain ⟨hsame, hnext⟩ := hround _ rfl
    obtain ⟨hamount, hlast⟩ := ih (hsame.symm ▸ hle) hnext
    exact ⟨hamount.trans hsame, hlast⟩

/-- **Every round replaces the last transaction**, for any estimates and strategies, if the weight
is at least 333. Before the first round nothing is paid. The dust limit is positive, which the
source asserts. -/
theorem rounds_replace (self : PackageTemplate) (weight dust : ℕ) (hweight : 333 ≤ weight)
    (hdust : 0 < dust) (hle : dust ≤ self.packageAmount) (rounds : List (FeerateStrategy × ℕ))
    (strategy : FeerateStrategy) (estimate value feerate : ℕ)
    (h : (rounds.foldl (bumpRound weight dust) (self, 0)).1.computePackageOutput
      weight dust strategy estimate = some (value, feerate)) :
    Replaces weight dust (rounds.foldl (bumpRound weight dust) (self, 0)) value feerate := by
  obtain ⟨hamount, hpaid⟩ := @foldl_bumpRound _ _ (show 8 ≤ weight by omega) hdust rounds
    (self, 0) hle (by simp; omega)
  obtain ⟨hfeerate, hvalue, hdustValue, -, hpays⟩ := computePackageOutput_spec (by omega) hdust
    (hamount.symm ▸ hle) h
  refine ⟨hfeerate, hvalue, hdustValue, fun hprevious hnew => ?_⟩
  have hrelay := hpays hprevious hnew
  rw [Nat.succ_mul] at hpaid
  have hmissing : 250 * weight / 1000 + (weight + 998) / 1000 ≤ 253 * weight / 1000 := by omega
  omega

/-! ### A light claim -/

/-- A claim of an output of 100,000 sat. -/
def lightClaim : PackageTemplate :=
  buildPackage 0 0 (.revokedOutput default default 100000 default none) 0

theorem rounds_replace_light : Replaces 333 330
    ([(.forceBump, 254), (.forceBump, 253)].foldl (bumpRound 333 330) (lightClaim, 0)) 99749 753 :=
  rounds_replace lightClaim 333 330 (by decide) (by decide) (by decide)
    [(.forceBump, 254), (.forceBump, 253)] .forceBump 253 99749 753 (by decide)

/-- **A weight of 332 is too low**: the second bump, from 167 sat to 249 sat, pays a satoshi less
than the replacement costs. -/
theorem light_claim_underpays : ∃ value feerate,
    ([(.forceBump, 254), (.forceBump, 253)].foldl (bumpRound 332 330)
      (lightClaim, 0)).1.computePackageOutput 332 330 .forceBump 253 = some (value, feerate) ∧
    ¬ Replaces 332 330 ([(.forceBump, 254), (.forceBump, 253)].foldl (bumpRound 332 330)
      (lightClaim, 0)) value feerate := by
  refine ⟨99751, 750, by decide, fun h => ?_⟩
  exact absurd (h.pays (by decide) (by decide)) (by decide)

/-! ### In 64 bits -/

/-- `compute_fee_from_spent_amounts` with the checks of its arithmetic. -/
def computeFeeFromSpentAmountsU64 (inputAmounts predictedWeight estimate : ℕ) :
    Except Panic (Option (ℕ × ℕ)) := do
  let half ← mulU64 (inputAmounts / 2) 1000
  Panic.unless (predictedWeight ≠ 0) .overflow
  let feeRate := min (boundedSatPer1000Weight estimate) (min (half / predictedWeight) (2 ^ 32 - 1))
  let fee ← mulU64 feeRate predictedWeight
  .ok (if feeRate < feerateFloorSatsPerKw then none else some (fee / 1000, feeRate))

/-- The fee of a feerate, and the feerate. -/
def withFeeU64 (predictedWeight feerate : ℕ) : Except Panic (ℕ × ℕ) := do
  let fee ← mulU64 feerate predictedWeight
  .ok (fee / 1000, feerate)

def FeerateStrategy.proposeU64 (strategy : FeerateStrategy) (predictedWeight previousFeerate : ℕ)
    (new : ℕ × ℕ) : Except Panic (ℕ × ℕ) :=
  match strategy with
  | .retryPrevious => withFeeU64 predictedWeight previousFeerate
  | .highestOfPreviousOrNew =>
    if new.2 > previousFeerate then .ok new else withFeeU64 predictedWeight previousFeerate
  | .forceBump =>
    if new.2 > previousFeerate then .ok new
    else do
      let bumpedFeerate ← addU64 previousFeerate (previousFeerate / 4)
      withFeeU64 predictedWeight bumpedFeerate

/-- `feerate_bump` with the checks of its arithmetic and its assertion. -/
def feerateBumpU64 (predictedWeight inputAmounts dustLimitSats previousFeerate : ℕ)
    (strategy : FeerateStrategy) (estimate : ℕ) : Except Panic (Option (ℕ × ℕ)) := do
  let (previousFee, _) ← withFeeU64 predictedWeight previousFeerate
  match ← computeFeeFromSpentAmountsU64 inputAmounts predictedWeight estimate with
  | none => .ok none
  | some new =>
    let (newFee, newFeerate) ← strategy.proposeU64 predictedWeight previousFeerate new
    Panic.unless (previousFeerate ≤ newFeerate) .debugAssertion
    if newFeerate = previousFeerate then .ok (some (newFee, newFeerate))
    else
      let minRelayFee ← mulU64 incrementalRelayFeeSatPer1000Weight predictedWeight
      let leastFee ← addU64 previousFee (minRelayFee / 1000)
      let newFee := max newFee leastFee
      if inputAmounts - newFee < dustLimitSats then .ok none
      else
        let scaled ← mulU64 newFee 1000
        .ok (some (newFee, scaled / predictedWeight))

/-- `compute_package_output` with the checks of its arithmetic and its assertion on the dust limit.
-/
def computePackageOutputU64 (self : PackageTemplate) (predictedWeight dustLimitSats : ℕ)
    (strategy : FeerateStrategy) (estimate : ℕ) : Except Panic (Option (ℕ × ℕ)) := do
  Panic.unless (0 < asI64 dustLimitSats) .assertion
  let fee ←
    if self.feeratePrevious ≠ 0 then
      feerateBumpU64 predictedWeight self.packageAmount dustLimitSats self.feeratePrevious strategy
        estimate
    else computeFeeFromSpentAmountsU64 self.packageAmount predictedWeight estimate
  .ok (fee.map fun fee => (max (self.packageAmount - fee.1) dustLimitSats, fee.2))

section

variable {amount previous : ℕ} (hpositive : 0 < weight)

include hpositive

theorem feerate_mul_weight_le {fee : ℕ × ℕ}
    (h : computeFeeFromSpentAmounts amount weight estimate = some fee) :
    fee.2 * weight ≤ amount / 2 * 1000 := by
  unfold computeFeeFromSpentAmounts computeFeerateSatPer1000Weight at h
  dsimp only at h
  split_ifs at h
  cases h
  rw [← Nat.le_div_iff_mul_le hpositive]
  omega

/-- **Step.** The fee of the feerate does not exceed the inputs. -/
theorem computePackageOutput_feerate_le {self : PackageTemplate} {value feerate : ℕ}
    (hdust : 0 < dust) (hprevious : self.feeratePrevious * weight ≤ self.packageAmount * 1000)
    (h : self.computePackageOutput weight dust strategy estimate = some (value, feerate)) :
    feerate * weight ≤ self.packageAmount * 1000 := by
  obtain ⟨⟨fee, rate⟩, hfee, heq⟩ := Option.map_eq_some_iff.mp h
  cases heq
  dsimp only
  split_ifs at hfee
  · rcases feerateBump_spec hfee with ⟨hsame, -⟩ | ⟨-, hleft, hrate⟩
    · exact (congrArg (· * weight) hsame).trans_le hprevious
    · dsimp only at hleft hrate
      have hdiv : rate * weight ≤ fee * 1000 := hrate ▸ Nat.div_mul_le_self _ _
      have hpaid : fee ≤ self.packageAmount := by omega
      exact hdiv.trans (Nat.mul_le_mul_right _ hpaid)
  · exact (feerate_mul_weight_le hpositive hfee).trans
      (Nat.mul_le_mul_right _ (Nat.div_le_self _ _))

/-- **Run.** -/
theorem foldl_bumpRound_feerate_le (hdust : 0 < dust) (rounds : List (FeerateStrategy × ℕ))
    {claim : PackageTemplate × ℕ}
    (hprevious : claim.1.feeratePrevious * weight ≤ claim.1.packageAmount * 1000) :
    let last := rounds.foldl (bumpRound weight dust) claim
    last.1.packageAmount = claim.1.packageAmount ∧
      last.1.feeratePrevious * weight ≤ claim.1.packageAmount * 1000 := by
  induction rounds generalizing claim with
  | nil => exact ⟨rfl, hprevious⟩
  | cons round rounds ih =>
    rw [List.foldl_cons, bumpRound]
    split
    · exact ih hprevious
    next value feerate hsome =>
      have hnext : feerate * weight ≤ claim.1.packageAmount * 1000 :=
        computePackageOutput_feerate_le hpositive hdust hprevious hsome
      exact @ih ({ claim.1 with feeratePrevious := feerate }, claim.1.packageAmount - value) hnext

omit hpositive in
theorem withFeeU64_eq {feerate : ℕ} (h : feerate * weight < 2 ^ 64) :
    withFeeU64 weight feerate = .ok (feerate * weight / 1000, feerate) := by
  rw [withFeeU64, mulU64_of_lt h, ok_bind]

omit hpositive in
/-- A quarter more than a feerate that the inputs can pay. -/
theorem bumped_mul_weight_le (hprevious : previous * weight ≤ amount * 1000) :
    (previous + previous / 4) * weight ≤ amount * 1250 := by
  have hquarter : previous / 4 * weight ≤ previous * weight / 4 := by
    rw [Nat.le_div_iff_mul_le (by decide), Nat.mul_right_comm]
    exact Nat.mul_le_mul_right _ (Nat.div_mul_le_self _ _)
  rw [Nat.add_mul]
  omega

section

variable (hweight : weight ≤ 4000000) (hamount : amount ≤ totalBitcoinSupplySatoshis)

include hamount

theorem computeFeeFromSpentAmountsU64_eq :
    computeFeeFromSpentAmountsU64 amount weight estimate =
      .ok (computeFeeFromSpentAmounts amount weight estimate) := by
  have hsupply : amount ≤ 2100000000000000 := hamount
  have hfee : min (boundedSatPer1000Weight estimate)
      (computeFeerateSatPer1000Weight (amount / 2) weight) * weight < 2 ^ 64 := by
    have hle : min (boundedSatPer1000Weight estimate)
        (computeFeerateSatPer1000Weight (amount / 2) weight) ≤ amount / 2 * 1000 / weight :=
      le_trans (Nat.min_le_right _ _) (Nat.min_le_left _ _)
    rw [Nat.le_div_iff_mul_le hpositive] at hle
    omega
  rw [computeFeeFromSpentAmountsU64, mulU64_of_lt (by omega), ok_bind,
    Panic.unless_of _ (by omega), ok_bind]
  exact congrArg (· >>= _) (mulU64_of_lt hfee)

variable (hprevious : previous * weight ≤ amount * 1000)

include hprevious

theorem proposeU64_eq (new : ℕ × ℕ) :
    strategy.proposeU64 weight previous new = .ok (strategy.propose weight previous new) := by
  have hsupply : amount ≤ 2100000000000000 := hamount
  have hbumped := bumped_mul_weight_le hprevious
  have hle : previous ≤ previous * weight := Nat.le_mul_of_pos_right _ hpositive
  unfold FeerateStrategy.proposeU64 FeerateStrategy.propose
  cases strategy with
  | retryPrevious => exact withFeeU64_eq (by omega)
  | highestOfPreviousOrNew =>
    dsimp only
    split_ifs
    · rfl
    · exact withFeeU64_eq (by omega)
  | forceBump =>
    dsimp only
    split_ifs
    · rfl
    · rw [addU64_of_lt (by omega), ok_bind]
      exact withFeeU64_eq (by omega)

omit hamount in
/-- What is proposed is the estimate, or comes from the previous feerate. -/
theorem propose_bounds (strategy : FeerateStrategy) {new : ℕ × ℕ}
    (hnew : computeFeeFromSpentAmounts amount weight estimate = some new) :
    previous ≤ (strategy.propose weight previous new).2 ∧
      (strategy.propose weight previous new).1 ≤ amount * 2 := by
  have hbumped := bumped_mul_weight_le hprevious
  have hsat := fee_of_computeFeeFromSpentAmounts hnew
  have hhalf := feerate_mul_weight_le hpositive hnew
  unfold FeerateStrategy.propose
  cases strategy <;> dsimp only <;> (try split_ifs) <;> constructor <;> omega

include hweight

/-- **A bump does not overflow**, and its feerate does not fall. -/
theorem feerateBumpU64_eq :
    feerateBumpU64 weight amount dust previous strategy estimate =
      .ok (feerateBump weight amount dust previous strategy estimate) := by
  have hsupply : amount ≤ 2100000000000000 := hamount
  rw [feerateBumpU64, feerateBump, withFeeU64_eq (by omega), ok_bind]
  dsimp only
  rw [computeFeeFromSpentAmountsU64_eq hpositive hamount, ok_bind]
  cases hnew : computeFeeFromSpentAmounts amount weight estimate with
  | none => rfl
  | some new =>
    obtain ⟨hrises, hproposed⟩ := propose_bounds hpositive hprevious strategy hnew
    have hrelay : incrementalRelayFeeSatPer1000Weight * weight ≤ 1012000000 :=
      Nat.mul_le_mul_left 253 hweight
    simp only [proposeU64_eq hpositive hamount hprevious, ok_bind, Panic.unless_of _ hrises]
    rw [mulU64_of_lt (by omega), ok_bind, addU64_of_lt (by omega), ok_bind]
    split_ifs
    · rfl
    · rfl
    · rw [mulU64_of_lt (by omega), ok_bind]

end

/-- **No round overflows or fails an assertion**, for inputs within the supply and the weight that a
block can hold: in 64 bits it returns what the unbounded numbers give. -/
theorem computePackageOutputU64_eq (self : PackageTemplate) (hweight : weight ≤ 4000000)
    (hamount : self.packageAmount ≤ totalBitcoinSupplySatoshis) (hdust : 0 < dust)
    (hle : dust ≤ self.packageAmount)
    (hprevious : self.feeratePrevious * weight ≤ self.packageAmount * 1000)
    (rounds : List (FeerateStrategy × ℕ)) :
    let last := (rounds.foldl (bumpRound weight dust) (self, 0)).1
    last.computePackageOutputU64 weight dust strategy estimate =
      .ok (last.computePackageOutput weight dust strategy estimate) := by
  intro last
  obtain ⟨hsame, hlast⟩ := @foldl_bumpRound_feerate_le _ dust hpositive hdust rounds (self, 0)
    hprevious
  have hamount' : last.packageAmount ≤ totalBitcoinSupplySatoshis := hsame.trans_le hamount
  have hsupply : self.packageAmount ≤ 2100000000000000 := hamount
  have hasserted : 0 < asI64 dust := by
    rw [asI64_of_lt (by omega)]
    exact Int.natCast_pos.mpr hdust
  rw [computePackageOutputU64, computePackageOutput, Panic.unless_of _ hasserted, ok_bind]
  split_ifs
  · rw [feerateBumpU64_eq hpositive hweight hamount' (hlast.trans_eq (by rw [← hsame])), ok_bind]
  · rw [computeFeeFromSpentAmountsU64_eq hpositive hamount', ok_bind]

end

end PqLightning.Chain.PackageTemplate
