import PqLightning.Basic

/-!
# Feerates, weights and fees

The fee arithmetic of `ln/chan_utils.rs`: what a commitment transaction and its second stage
transactions cost at a feerate. Feerates are `u32` and saturate as the source makes them saturate.
Amounts are natural numbers: an amount the source handles is bounded by the supply of bitcoin, for
which none of its `u64` sums and products overflows, so that its `saturating_add` and
`saturating_mul` on `u64` are plain operations and its `saturating_sub` is the subtraction of ℕ.
-/

namespace PqLightning

/-! ### Saturating `u32` arithmetic -/

variable (a b : UInt32)

def satAdd32 : UInt32 := UInt32.ofNat (min (a.toNat + b.toNat) (2 ^ 32 - 1))

def satMul32 : UInt32 := UInt32.ofNat (min (a.toNat * b.toNat) (2 ^ 32 - 1))

def satSub32 : UInt32 := UInt32.ofNat (a.toNat - b.toNat)

@[simp] theorem toNat_satMul32 :
    (satMul32 a b).toNat = min (a.toNat * b.toNat) (2 ^ 32 - 1) :=
  Nat.mod_eq_of_lt (by omega)

/-- Multiplying a feerate by one or more does not lower it, even where it saturates. -/
theorem le_satMul32 (hb : 1 ≤ b.toNat) : a.toNat ≤ (satMul32 a b).toNat := by
  have h1 := a.toNat_lt
  have h2 : a.toNat * 1 ≤ a.toNat * b.toNat := Nat.mul_le_mul_left _ hb
  rw [toNat_satMul32]
  omega

/-! ### Channel types and weights -/

/-- The features of a channel type that the fee and output rules read. -/
structure ChannelTypeFeatures where
  /-- Keyed anchors, and second stage transactions that pay no fee. -/
  supportsAnchorsZeroFeeHtlcTx : Bool
  /-- A pay-to-anchor output, and commitments that pay no fee at all. -/
  supportsAnchorZeroFeeCommitments : Bool
deriving DecidableEq, Repr

variable (channelType : ChannelTypeFeatures)

def htlcSuccessTxWeight : ℕ := if channelType.supportsAnchorsZeroFeeHtlcTx then 706 else 703

def htlcTimeoutTxWeight : ℕ := if channelType.supportsAnchorsZeroFeeHtlcTx then 666 else 663

def commitmentTxWeightPerHtlc : ℕ := 172

def commitmentTxBaseWeight : ℕ := if channelType.supportsAnchorsZeroFeeHtlcTx then 1124 else 724

/-! ### Fees -/

/-- Get the fee cost of a commitment tx with a given number of HTLC outputs.
Note that `numHtlcs` should not include dust HTLCs. -/
def commitTxFeeSat (feeratePerKw : UInt32) (numHtlcs : ℕ) (channelType : ChannelTypeFeatures) : ℕ :=
  feeratePerKw.toNat *
    (commitmentTxBaseWeight channelType + numHtlcs * commitmentTxWeightPerHtlc) / 1000

/-- Returns the fees for success and timeout second stage HTLC transactions. -/
def secondStageTxFeesSat (feerate : UInt32) : ℕ × ℕ :=
  if channelType.supportsAnchorsZeroFeeHtlcTx || channelType.supportsAnchorZeroFeeCommitments then
    (0, 0)
  else
    (feerate.toNat * htlcSuccessTxWeight channelType / 1000,
      feerate.toNat * htlcTimeoutTxWeight channelType / 1000)

def htlcTxFeesSat (feeratePerKw : UInt32) (numAcceptedHtlcs numOfferedHtlcs : ℕ)
    (channelType : ChannelTypeFeatures) : ℕ :=
  let (htlcSuccessTxFeeSat, htlcTimeoutTxFeeSat) := secondStageTxFeesSat channelType feeratePerKw
  numAcceptedHtlcs * htlcSuccessTxFeeSat + numOfferedHtlcs * htlcTimeoutTxFeeSat

/-- **Monotonicity.** A commitment costs no less at a higher feerate or with more HTLCs. -/
theorem commitTxFeeSat_mono {f f' : UInt32} {n n' : ℕ} (hf : f.toNat ≤ f'.toNat) (hn : n ≤ n')
    (channelType : ChannelTypeFeatures) :
    commitTxFeeSat f n channelType ≤ commitTxFeeSat f' n' channelType := by
  unfold commitTxFeeSat
  gcongr

end PqLightning
