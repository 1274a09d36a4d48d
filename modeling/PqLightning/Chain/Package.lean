import PqLightning.Chain.Types

/-!
# Packages of claims

`chain/package.rs`: an output the monitor can claim with what is needed to spend it
(`PackageSolvingData`), and packages of such outputs that are claimed in one transaction.

Fees are computed on exact numbers: the amounts of a package are bounded by the bitcoin supply and
its weight by that of a transaction, so the products of `feerate_bump` stay far below `u64::MAX`.
-/

namespace PqLightning.Chain

/-! ### What is claimed -/

/-- `enum PackageSolvingData` with the structures of its variants. The weights and the features that
the source stores are functions of the other fields. -/
inductive PackageSolvingData where
  | revokedOutput (perCommitmentPoint : PublicKey) (perCommitmentKey : Bytes32) (amount : ℕ)
    (channelParameters : ChannelTransactionParameters) (outpointConfirmationHeight : Option ℕ)
  | revokedHTLCOutput (perCommitmentPoint : PublicKey) (perCommitmentKey : Bytes32)
    (htlc : HTLCOutputInCommitment) (channelParameters : ChannelTransactionParameters)
    (outpointConfirmationHeight : Option ℕ)
  | counterpartyOfferedHTLCOutput (perCommitmentPoint : PublicKey) (preimage : PaymentPreimage)
    (htlc : HTLCOutputInCommitment) (channelParameters : ChannelTransactionParameters)
    (outpointConfirmationHeight : Option ℕ)
  | counterpartyReceivedHTLCOutput (perCommitmentPoint : PublicKey)
    (htlc : HTLCOutputInCommitment) (channelParameters : ChannelTransactionParameters)
    (outpointConfirmationHeight : Option ℕ)
  | holderHTLCOutput (preimage : Option PaymentPreimage) (htlc : HTLCOutputInCommitment)
    (channelParameters : ChannelTransactionParameters) (outpointConfirmationHeight : Option ℕ)
  | holderFundingOutput (commitmentTx : CommitmentTransaction)
    (channelParameters : ChannelTransactionParameters)
deriving DecidableEq

def PackageSolvingData.features : PackageSolvingData → ChannelTypeFeatures
  | revokedOutput _ _ _ params _ | revokedHTLCOutput _ _ _ params _
  | counterpartyOfferedHTLCOutput _ _ _ params _ | counterpartyReceivedHTLCOutput _ _ params _
  | holderHTLCOutput _ _ params _ | holderFundingOutput _ params => params.channelTypeFeatures

/-- The fee of a transaction that spends the output is paid by other inputs. -/
def ChannelTypeFeatures.free (self : ChannelTypeFeatures) : Bool :=
  self.anchorsZeroFeeHtlcTx || self.anchorZeroFeeCommitments

namespace PackageSolvingData

/-- `amount()`. For outputs of a holder's commitment it is only asked where fees are paid by other
inputs, which the source asserts in debug builds. -/
def amount : PackageSolvingData → ℕ
  | revokedOutput _ _ amount _ _ => amount
  | revokedHTLCOutput _ _ htlc _ _ | counterpartyOfferedHTLCOutput _ _ htlc _ _
  | counterpartyReceivedHTLCOutput _ htlc _ _ | holderHTLCOutput _ htlc _ _ =>
    htlc.amountMsat / 1000
  | holderFundingOutput _ params => params.channelValueSatoshis

end PackageSolvingData

inductive AggregationCluster where
  | pinnable
  | unpinnable
deriving DecidableEq, Repr

inductive PackageMalleability where
  | malleable (cluster : AggregationCluster)
  | untractable
deriving DecidableEq, Repr

def PackageSolvingData.mapOutputTypeFlags (self : PackageSolvingData) : PackageMalleability :=
  match self with
  | revokedOutput .. => .malleable .unpinnable
  | revokedHTLCOutput _ _ htlc _ _ => .malleable (if htlc.offered then .unpinnable else .pinnable)
  | counterpartyOfferedHTLCOutput .. => .malleable .unpinnable
  | counterpartyReceivedHTLCOutput .. => .malleable .pinnable
  | holderHTLCOutput preimage _ _ _ =>
    if self.features.free then .malleable (if preimage.isSome then .unpinnable else .pinnable)
    else .untractable
  | holderFundingOutput .. => .untractable

/-! ### Packages -/

structure PackageTemplate where
  inputs : List (OutPoint × PackageSolvingData)
  malleability : PackageMalleability
  (counterpartySpendableHeight feeratePrevious heightTimer : ℕ)
deriving DecidableEq

namespace PackageTemplate

def buildPackage (txid : Txid) (vout : ℕ) (inputSolvingData : PackageSolvingData)
    (counterpartySpendableHeight : ℕ) : PackageTemplate where
  inputs := [(⟨txid, vout⟩, inputSolvingData)]
  malleability := inputSolvingData.mapOutputTypeFlags
  counterpartySpendableHeight := counterpartySpendableHeight
  feeratePrevious := 0
  heightTimer := 0

variable (self : PackageTemplate)

def outpoints : List OutPoint := self.inputs.map Prod.fst

def packageAmount : ℕ := (self.inputs.map fun input => input.2.amount).sum

/-! ### Fees -/

inductive FeerateStrategy where
  | retryPrevious
  | highestOfPreviousOrNew
  | forceBump
deriving DecidableEq, Repr

def feerateFloorSatsPerKw : ℕ := 253

def incrementalRelayFeeSatPer1000Weight : ℕ := 253

def boundedSatPer1000Weight (estimate : ℕ) : ℕ := max estimate feerateFloorSatsPerKw

def computeFeerateSatPer1000Weight (feeSat weight : ℕ) : ℕ :=
  min (feeSat * 1000 / weight) (2 ^ 32 - 1)

def computeFeeFromSpentAmounts (inputAmounts predictedWeight estimate : ℕ) : Option (ℕ × ℕ) :=
  let feeRate := min (boundedSatPer1000Weight estimate)
    (computeFeerateSatPer1000Weight (inputAmounts / 2) predictedWeight)
  if feeRate < feerateFloorSatsPerKw then none
  else some (feeRate * predictedWeight / 1000, feeRate)

def FeerateStrategy.propose (strategy : FeerateStrategy) (predictedWeight previousFeerate : ℕ)
    (new : ℕ × ℕ) : ℕ × ℕ :=
  match strategy with
  | .retryPrevious => (previousFeerate * predictedWeight / 1000, previousFeerate)
  | .highestOfPreviousOrNew =>
    if new.2 > previousFeerate then new
    else (previousFeerate * predictedWeight / 1000, previousFeerate)
  | .forceBump =>
    if new.2 > previousFeerate then new
    else
      let bumpedFeerate := previousFeerate + previousFeerate / 4
      (bumpedFeerate * predictedWeight / 1000, bumpedFeerate)

def feerateBump (predictedWeight inputAmounts dustLimitSats previousFeerate : ℕ)
    (strategy : FeerateStrategy) (estimate : ℕ) : Option (ℕ × ℕ) :=
  match computeFeeFromSpentAmounts inputAmounts predictedWeight estimate with
  | none => none
  | some new =>
    let previousFee := previousFeerate * predictedWeight / 1000
    let (newFee, newFeerate) := strategy.propose predictedWeight previousFeerate new
    if newFeerate = previousFeerate then some (newFee, newFeerate)
    else
      let minRelayFee := incrementalRelayFeeSatPer1000Weight * predictedWeight / 1000
      let newFee := max newFee (previousFee + minRelayFee)
      if inputAmounts - newFee < dustLimitSats then none
      else some (newFee, newFee * 1000 / predictedWeight)

/-- `compute_package_output`: the value of the claim's output and its feerate. -/
def computePackageOutput (predictedWeight dustLimitSats : ℕ)
    (strategy : FeerateStrategy) (estimate : ℕ) : Option (ℕ × ℕ) :=
  let inputAmounts := self.packageAmount
  let fee :=
    if self.feeratePrevious ≠ 0 then
      feerateBump predictedWeight inputAmounts dustLimitSats self.feeratePrevious strategy estimate
    else computeFeeFromSpentAmounts inputAmounts predictedWeight estimate
  fee.map fun fee => (max (inputAmounts - fee.1) dustLimitSats, fee.2)

end PackageTemplate

end PqLightning.Chain
