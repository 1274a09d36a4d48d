import PqLightning.Lib.AssocMap
import PqLightning.CommitmentSecrets
import PqLightning.Chain.Package

/-!
# The state of a channel monitor

`struct ChannelMonitorImpl` of `chain/channelmonitor.rs`, with the records it is made of.

Nothing that the monitor does depends on the state of the claim handler (`OnchainTxHandler`), so
here that is only the list of the claims it was asked to make. Events for the user
(`SpendableOutputs`, `DiscardFunding`), the balances, and the data for watchtowers and downgrades
are left out.

What depends on cryptography is the parameter `Crypto`: which secrets are valid keys, their points,
and the scripts of outputs that can be revoked. The base points and delays that these depend on do
not change in the life of a channel.
-/

namespace PqLightning.Monitor

open AssocMap Chain

/-! ### Records -/

structure Crypto where
  /-- The hash of a commitment secret, and of a preimage. -/
  sha256 : Bytes32 → Bytes32
  /-- `SecretKey::from_slice`, then the public key. -/
  pointOfSecret : Bytes32 → Option PublicKey
  /-- The script of the counterparty's delayed output, from its per-commitment point. -/
  counterpartyRevokeableScript : PublicKey → Script
  /-- The script of the holder's delayed output. -/
  holderRevokeableScript : CommitmentTransaction → Script
  /-- `make_funding_redeemscript().to_p2wsh()` -/
  fundingScript : ChannelTransactionParameters → Script

/-- The HTLCs of a commitment; an outbound one has a source, until it is pruned. -/
abbrev CommitmentHtlcs : Type := List (HTLCOutputInCommitment × Option HTLCSource)

structure FundingScope where
  channelParameters : ChannelTransactionParameters
  (currentCounterpartyCommitmentTxid prevCounterpartyCommitmentTxid : Option Txid)
  counterpartyClaimableOutpoints : Map Txid CommitmentHtlcs
  currentHolderCommitmentTx : CommitmentTransaction
  prevHolderCommitmentTx : Option CommitmentTransaction
deriving DecidableEq

def FundingScope.fundingOutpoint (self : FundingScope) : OutPoint :=
  self.channelParameters.fundingOutpoint

variable (self : FundingScope)

def FundingScope.fundingTxid : Txid := self.fundingOutpoint.txid

def FundingScope.isSplice : Bool := self.channelParameters.spliceParentFundingTxid.isSome

def FundingScope.counterpartyHtlcs (txid : Option Txid) : CommitmentHtlcs :=
  (txid.bind fun txid => self.counterpartyClaimableOutpoints.lookup txid).getD []

structure HTLCUpdate where
  paymentHash : PaymentHash
  paymentPreimage : Option PaymentPreimage
  source : HTLCSource
  htlcValueSatoshis : ℕ
deriving DecidableEq, Repr

/-- `enum MonitorEvent`, those that a monitor makes. -/
inductive MonitorEvent where
  | htlcEvent (update : HTLCUpdate)
  | holderForceClosedWithInfo (outpoint : OutPoint)
  | commitmentTxConfirmed
deriving DecidableEq, Repr

inductive SpendableOutputDescriptor where
  | staticOutput (outpoint : OutPoint)
  | delayedPaymentOutput (outpoint : OutPoint) (toSelfDelay : ℕ)
  | staticPaymentOutput (outpoint : OutPoint)
deriving DecidableEq, Repr

inductive OnchainEvent where
  | htlcUpdate (source : HTLCSource) (paymentHash : PaymentHash) (htlcValueSatoshis : ℕ)
    (commitmentTxOutputIdx : Option ℕ)
  | maturingOutput (descriptor : SpendableOutputDescriptor)
  | fundingSpendConfirmation (onLocalOutputCsv : Option ℕ)
  | htlcSpendConfirmation (commitmentTxOutputIdx : ℕ) (preimage : Option PaymentPreimage)
    (onToLocalOutputCsv : Option ℕ)
  | alternativeFundingConfirmation
deriving DecidableEq, Repr

structure OnchainEventEntry where
  txid : Txid
  height : ℕ
  blockHash : BlockHash
  event : OnchainEvent
deriving DecidableEq, Repr

/-- The delay after which what an event is about can be spent. -/
def OnchainEvent.csv : OnchainEvent → Option ℕ
  | .maturingOutput (.delayedPaymentOutput _ toSelfDelay) => some toSelfDelay
  | .fundingSpendConfirmation onLocalOutputCsv => onLocalOutputCsv
  | .htlcSpendConfirmation _ _ onToLocalOutputCsv => onToLocalOutputCsv
  | _ => none

def OnchainEventEntry.confirmationThreshold (self : OnchainEventEntry) : ℕ :=
  match self.event.csv with
  | some csv => max (self.height + antiReorgDelay - 1) (self.height + csv - 1)
  | none => self.height + antiReorgDelay - 1

structure IrrevocablyResolvedHTLC where
  commitmentTxOutputIdx : Option ℕ
  resolvingTxid : Option Txid
  paymentPreimage : Option PaymentPreimage
deriving DecidableEq, Repr

/-- `struct PaymentClaimDetails`, which is only stored. -/
abbrev PaymentClaimDetails : Type := List UInt8

/-! ### The monitor -/

structure ChannelMonitorImpl where
  funding : FundingScope
  pendingFunding : List FundingScope
  (isManualBroadcast fundingSeenOnchain : Bool)
  commitmentTransactionNumberObscureFactor : ℕ
  destinationScript : Script
  broadcastedHolderRevokableScript : Option Script
  counterpartyPaymentScript : Script
  shutdownScript : Option Script
  onCounterpartyTxCsv : ℕ
  theirCurPerCommitmentPoints : Option (ℕ × PublicKey × Option PublicKey)
  onHolderTxCsv : ℕ
  commitmentSecrets : CounterpartyCommitmentSecrets
  counterpartyCommitmentTxnOnChain : Map Txid ℕ
  counterpartyHashCommitmentNumber : Map PaymentHash ℕ
  counterpartyFulfilledHtlcs : Map SentHTLCId PaymentPreimage
  (currentCounterpartyCommitmentNumber currentHolderCommitmentNumber : ℕ)
  paymentPreimages : Map PaymentHash (PaymentPreimage × List PaymentClaimDetails)
  pendingMonitorEvents : List MonitorEvent
  onchainEventsAwaitingThresholdConf : List OnchainEventEntry
  outputsToWatch : Map Txid (List (ℕ × Script))
  /-- What the claim handler was asked to claim. -/
  claimRequests : List PackageTemplate
  (lockdownFromOffchain holderTxSigned fundingSpendSeen : Bool)
  fundingSpendConfirmed : Option Txid
  htlcsResolvedOnChain : List IrrevocablyResolvedHTLC
  spendableTxidsConfirmed : List Txid
  bestBlock : BlockLocator
  failedBackHtlcIds : List SentHTLCId
  currentHolderHtlcData : CommitmentHTLCData
  prevHolderHtlcData : Option CommitmentHTLCData
  alternativeFundingConfirmed : Option (Txid × ℕ)

namespace ChannelMonitorImpl

def new (crypto : Crypto) (shutdownScript : Option Script) (onCounterpartyTxCsv onHolderTxCsv : ℕ)
    (destinationScript counterpartyPaymentScript : Script)
    (channelParameters : ChannelTransactionParameters) (obscureFactor : ℕ)
    (initialHolderCommitmentTx : CommitmentTransaction) (bestBlock : BlockLocator)
    (isManualBroadcast : Bool) : ChannelMonitorImpl where
  funding :=
    { channelParameters := channelParameters
      currentCounterpartyCommitmentTxid := none
      prevCounterpartyCommitmentTxid := none
      counterpartyClaimableOutpoints := ∅
      currentHolderCommitmentTx := initialHolderCommitmentTx
      prevHolderCommitmentTx := none }
  pendingFunding := []
  isManualBroadcast := isManualBroadcast
  fundingSeenOnchain := false
  commitmentTransactionNumberObscureFactor := obscureFactor
  destinationScript := destinationScript
  broadcastedHolderRevokableScript := none
  counterpartyPaymentScript := counterpartyPaymentScript
  shutdownScript := shutdownScript
  onCounterpartyTxCsv := onCounterpartyTxCsv
  theirCurPerCommitmentPoints := none
  onHolderTxCsv := onHolderTxCsv
  commitmentSecrets := .new
  counterpartyCommitmentTxnOnChain := ∅
  counterpartyHashCommitmentNumber := ∅
  counterpartyFulfilledHtlcs := ∅
  currentCounterpartyCommitmentNumber := 1 <<< 48
  currentHolderCommitmentNumber := initialHolderCommitmentTx.commitmentNumber
  paymentPreimages := ∅
  pendingMonitorEvents := []
  onchainEventsAwaitingThresholdConf := []
  outputsToWatch := (∅ : Map Txid (List (ℕ × Script))).insert
    channelParameters.fundingOutpoint.txid
    [(channelParameters.fundingOutpoint.vout, crypto.fundingScript channelParameters)]
  claimRequests := []
  lockdownFromOffchain := false
  holderTxSigned := false
  fundingSpendSeen := false
  fundingSpendConfirmed := none
  htlcsResolvedOnChain := []
  spendableTxidsConfirmed := []
  bestBlock := bestBlock
  failedBackHtlcIds := []
  currentHolderHtlcData := ⟨[], []⟩
  prevHolderHtlcData := none
  alternativeFundingConfirmed := none

variable (self : ChannelMonitorImpl)

def fundings : List FundingScope := self.funding :: self.pendingFunding

def getConfirmedFundingScope : Except Panic FundingScope :=
  match self.alternativeFundingConfirmed with
  | none => .ok self.funding
  | some (txid, _) =>
    match self.pendingFunding.find? fun funding => funding.fundingTxid = txid with
    | some funding => .ok funding
    | none => .error .unwrap

def noFurtherUpdatesAllowed : Bool :=
  self.fundingSpendSeen || self.lockdownFromOffchain || self.holderTxSigned

end ChannelMonitorImpl

/-! ### The HTLCs of the holder's commitments -/

/-- The HTLCs of a commitment that have an output, with their sources: an outbound one, which is
offered on the holder's commitments and not on the counterparty's, takes the next source. -/
def withSources (outbound : Bool) : List HTLCOutputInCommitment → List HTLCSource → CommitmentHtlcs
  | [], _ => []
  | htlc :: htlcs, sources =>
    if htlc.offered = outbound then (htlc, sources.head?) :: withSources outbound htlcs sources.tail
    else (htlc, none) :: withSources outbound htlcs sources

/-- There is a source for every outbound HTLC that has an output. The source code panics otherwise.
-/
def enoughSources (outbound : Bool) (htlcs : List HTLCOutputInCommitment)
    (sources : List HTLCSource) : Bool :=
  (htlcs.filter fun htlc => htlc.offered = outbound).length ≤ sources.length

/-- `holder_commitment_htlcs!` of a commitment and its data. -/
def holderCommitmentHtlcs (commitmentTx : CommitmentTransaction) (htlcData : CommitmentHTLCData) :
    CommitmentHtlcs :=
  withSources true commitmentTx.nondustHtlcs htlcData.nondustHtlcSources ++ htlcData.dustHtlcs

namespace ChannelMonitorImpl

/-- `holder_commitment_htlcs!(self, CURRENT_WITH_SOURCES)` -/
def currentHolderHtlcs (self : ChannelMonitorImpl) : Except Panic CommitmentHtlcs := do
  let funding ← self.getConfirmedFundingScope
  .ok (holderCommitmentHtlcs funding.currentHolderCommitmentTx self.currentHolderHtlcData)

/-- `holder_commitment_htlcs!(self, PREV_WITH_SOURCES)`; none if there is no previous commitment. -/
def prevHolderHtlcs (self : ChannelMonitorImpl) : Except Panic (Option CommitmentHtlcs) := do
  let funding ← self.getConfirmedFundingScope
  match funding.prevHolderCommitmentTx with
  | none => .ok none
  | some commitmentTx =>
    match self.prevHolderHtlcData with
    | some htlcData => .ok (some (holderCommitmentHtlcs commitmentTx htlcData))
    | none => .error .unwrap

end ChannelMonitorImpl

end PqLightning.Monitor
