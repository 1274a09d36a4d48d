import PqLightning.Monitor.Updates

/-!
# How a monitor resolves the HTLCs of a closed channel

When a commitment confirms, an outbound HTLC that is not on it is failed
(`fail_unbroadcast_htlcs`). One that is on it is resolved by the transaction that spends its output:
with a preimage it is fulfilled at once, without one it is failed when the transaction is buried
(`is_resolving_htlc_output`).

A commitment keeps the sources of its outbound HTLCs until it is revoked. From then on an HTLC on it
is recognised by its payment hash and amount.
-/

namespace PqLightning.Monitor

open AssocMap Chain

/-! ### Witnesses -/

inductive HTLCClaim where
  | offeredTimeout
  | offeredPreimage
  | acceptedTimeout
  | acceptedPreimage
  | revocation
deriving DecidableEq, Repr

def offeredHtlcScriptWeight : ℕ := 133

/-- `OFFERED_HTLC_SCRIPT_WEIGHT_KEYED_ANCHORS` and `MIN_ACCEPTED_HTLC_SCRIPT_WEIGHT` -/
def offeredHtlcScriptWeightKeyedAnchors : ℕ := 136

def maxAcceptedHtlcScriptWeight : ℕ := 143

variable (witness : List (List UInt8))

def secondToLast : List UInt8 := witness.dropLast.getLastD []

def HTLCClaim.fromWitness : Option HTLCClaim :=
  let script := (witness.getLastD []).length
  let second := (secondToLast witness).length
  if witness.length < 2 then none
  else if script = offeredHtlcScriptWeight then
    if witness.length = 3 ∧ second = 33 then some .revocation
    else if witness.length = 3 ∧ second = 32 then some .offeredPreimage
    else if witness.length = 5 ∧ second = 0 then some .offeredTimeout
    else none
  else if script = offeredHtlcScriptWeightKeyedAnchors then
    if witness.length = 3 ∧ second = 33 then some .revocation
    else if witness.length = 3 ∧ second = 32 then some .offeredPreimage
    else if witness.length = 5 ∧ second = 0 then some .offeredTimeout
    else if witness.length = 3 ∧ second = 0 then some .acceptedTimeout
    else if witness.length = 5 ∧ second = 32 then some .acceptedPreimage
    else none
  else if script > offeredHtlcScriptWeightKeyedAnchors ∧ script ≤ maxAcceptedHtlcScriptWeight then
    if witness.length = 3 ∧ second = 33 then some .revocation
    else if witness.length = 3 ∧ second = 0 then some .acceptedTimeout
    else if witness.length = 5 ∧ second = 32 then some .acceptedPreimage
    else none
  else none

def HTLCClaim.revealsPreimage : Option HTLCClaim → Bool
  | some .offeredPreimage | some .acceptedPreimage => true
  | _ => false

def preimageOfWitness : PaymentPreimage := Vector.ofFn fun i => ((secondToLast witness)[i]?).getD 0

/-- The assertions of `log_claim!`: the script that was spent is that of the HTLC. -/
def HTLCClaim.fits (htlc : HTLCOutputInCommitment) : Option HTLCClaim → Bool
  | some .revocation => true
  | some .offeredPreimage | some .offeredTimeout => htlc.offered
  | some .acceptedPreimage | some .acceptedTimeout => !htlc.offered
  | none => false

/-! ### HTLCs that are not on the commitment -/

def OnchainEventEntry.fails (entry : OnchainEventEntry) (source : HTLCSource) : Bool :=
  match entry.event with
  | .htlcUpdate entrySource _ _ _ => entrySource = source
  | _ => false

def MonitorEvent.resolves (event : MonitorEvent) (source : HTLCSource) : Bool :=
  match event with
  | .htlcEvent update => update.source = source
  | _ => false

/-- An HTLC of the confirmed commitment stands for an outbound HTLC of a later state. -/
def matchesBroadcast (htlc : HTLCOutputInCommitment) (source : HTLCSource)
    (broadcast : HTLCOutputInCommitment × Option HTLCSource) : Bool :=
  broadcast.1.transactionOutputIndex.isSome &&
    (decide (broadcast.2 = some source) ||
      (broadcast.2.isNone && decide (broadcast.1.paymentHash = htlc.paymentHash) &&
        decide (broadcast.1.amountMsat = htlc.amountMsat)))

namespace ChannelMonitorImpl

variable (self : ChannelMonitorImpl)

/-- Queues the failure of an HTLC, in place of one that was queued at the same height. -/
def queueHtlcFailure (txid : Txid) (height : ℕ) (blockHash : BlockHash)
    (source : HTLCSource) (paymentHash : PaymentHash) (amountMsat : ℕ)
    (commitmentTxOutputIdx : Option ℕ) : ChannelMonitorImpl :=
  { self with
    onchainEventsAwaitingThresholdConf :=
      self.onchainEventsAwaitingThresholdConf.filter
        (fun entry => !(decide (entry.height = height) && entry.fails source)) ++
      [{ txid := txid
         height := height
         blockHash := blockHash
         event := .htlcUpdate source paymentHash (amountMsat / 1000) commitmentTxOutputIdx }] }

def checkHtlcFails (commitmentTxid : Txid) (confHeight : ℕ) (confHash : BlockHash)
    (confirmedHtlcs : CommitmentHtlcs) (self : ChannelMonitorImpl)
    (htlc : HTLCOutputInCommitment × Option HTLCSource) : ChannelMonitorImpl :=
  match htlc.2 with
  | none => self
  | some source =>
    if confirmedHtlcs.any (matchesBroadcast htlc.1 source) then self
    else if (self.counterpartyFulfilledHtlcs.lookup (.fromSource source)).isSome then self
    else self.queueHtlcFailure commitmentTxid confHeight confHash source htlc.1.paymentHash
      htlc.1.amountMsat none

def failUnbroadcastHtlcs (commitmentTxid : Txid) (confHeight : ℕ)
    (confHash : BlockHash) (confirmedHtlcs : CommitmentHtlcs) : ChannelMonitorImpl :=
  let latest := self.funding.counterpartyHtlcs self.funding.currentCounterpartyCommitmentTxid ++
    self.funding.counterpartyHtlcs self.funding.prevCounterpartyCommitmentTxid
  latest.foldl (checkHtlcFails commitmentTxid confHeight confHash confirmedHtlcs) self

/-! ### HTLC outputs that are spent -/

/-- The source that a spent output resolves, with its payment. -/
structure PaymentData where
  source : HTLCSource
  paymentHash : PaymentHash
  amountMsat : ℕ
deriving DecidableEq, Repr

/-- Where a scan of a commitment ends: with what was found so far, or at an HTLC that has no source,
whose spend is only recorded. -/
inductive Scan where
  | done (paymentData : Option PaymentData)
  | spent (outboundHtlc : Bool)

/-- `check_htlc_valid_counterparty!`: the first outbound HTLC with the hash and the amount. -/
def matchingSource (htlcOutput : HTLCOutputInCommitment) (perCommitmentData : CommitmentHtlcs) :
    Option HTLCSource :=
  perCommitmentData.findSome? fun (pendingHtlc, pendingSource) =>
    if pendingHtlc.offered = htlcOutput.offered ∧ pendingHtlc.paymentHash = htlcOutput.paymentHash ∧
        pendingHtlc.amountMsat = htlcOutput.amountMsat then pendingSource
    else none

variable (fundingSpent : FundingScope)

/-- An HTLC of a revoked commitment, on one of the commitments that are not revoked. -/
def checkHtlcValidCounterparty (htlcClaim : Option HTLCClaim)
    (htlcOutput : HTLCOutputInCommitment) (paymentData : Option PaymentData) :
    Option Txid → Except Panic (Option PaymentData)
  | none => .ok paymentData
  | some txid => do
    let perCommitmentData ← unwrap (fundingSpent.counterpartyClaimableOutpoints.lookup txid)
    match matchingSource htlcOutput perCommitmentData with
    | none => .ok paymentData
    | some source => do
      Panic.unless (HTLCClaim.fits htlcOutput htlcClaim) .assertion
      .ok (some ⟨source, htlcOutput.paymentHash, htlcOutput.amountMsat⟩)

def resolvedPayment (htlcClaim : Option HTLCClaim)
    (spentCounterpartyRevoked : Bool) (paymentData : Option PaymentData)
    (htlcOutput : HTLCOutputInCommitment) (sourceOption : Option HTLCSource) :
    Except Panic (Option PaymentData) :=
  match sourceOption with
  | some source => do
    Panic.unless (HTLCClaim.fits htlcOutput htlcClaim) .assertion
    .ok (some ⟨source, htlcOutput.paymentHash, htlcOutput.amountMsat⟩)
  | none =>
    if spentCounterpartyRevoked then do
      let paymentData ← checkHtlcValidCounterparty fundingSpent htlcClaim htlcOutput paymentData
        fundingSpent.currentCounterpartyCommitmentTxid
      if paymentData.isSome then .ok paymentData
      else
        checkHtlcValidCounterparty fundingSpent htlcClaim htlcOutput paymentData
          fundingSpent.prevCounterpartyCommitmentTxid
    else .ok paymentData

def scanCommitment (fundingSpent : FundingScope) (htlcClaim : Option HTLCClaim) (vout : ℕ)
    (holderTx spentCounterpartyRevoked : Bool) :
    CommitmentHtlcs → Option PaymentData → Except Panic Scan
  | [], paymentData => .ok (.done paymentData)
  | (htlcOutput, sourceOption) :: htlcs, paymentData =>
    if htlcOutput.transactionOutputIndex = some vout then do
      let paymentData ← resolvedPayment fundingSpent htlcClaim spentCounterpartyRevoked paymentData
        htlcOutput sourceOption
      if paymentData.isSome then
        scanCommitment fundingSpent htlcClaim vout holderTx spentCounterpartyRevoked htlcs
          paymentData
      else do
        Panic.unless (HTLCClaim.fits htlcOutput htlcClaim) .assertion
        .ok (.spent (holderTx = htlcOutput.offered))
    else scanCommitment fundingSpent htlcClaim vout holderTx spentCounterpartyRevoked htlcs
      paymentData

def Scan.andThen (scan : Scan) (next : Option PaymentData → Except Panic Scan) :
    Except Panic Scan :=
  match scan with
  | .done paymentData => next paymentData
  | .spent outboundHtlc => .ok (.spent outboundHtlc)

/-- The scan of the holder's current commitment, if the input spends it. -/
def scanCurrentHolder (fundingSpent : FundingScope) (input : TxIn) : Except Panic Scan :=
  if input.previousOutput.txid = fundingSpent.currentHolderCommitmentTx.txid then do
    let htlcs ← self.currentHolderHtlcs
    scanCommitment fundingSpent (HTLCClaim.fromWitness input.witness) input.previousOutput.vout true
      false htlcs none
  else .ok (.done none)

def scanPrevHolder (fundingSpent : FundingScope) (input : TxIn)
    (paymentData : Option PaymentData) : Except Panic Scan :=
  if (fundingSpent.prevHolderCommitmentTx.map CommitmentTransaction.txid) =
      some input.previousOutput.txid then do
    let htlcs ← self.prevHolderHtlcs
    let htlcs ← unwrap htlcs
    scanCommitment fundingSpent (HTLCClaim.fromWitness input.witness) input.previousOutput.vout true
      false htlcs paymentData
  else .ok (.done paymentData)

variable (tx : Transaction) (height : ℕ) (blockHash : BlockHash) (input : TxIn)

def scanCounterparty (paymentData : Option PaymentData) : Except Panic Scan :=
  match fundingSpent.counterpartyClaimableOutpoints.lookup input.previousOutput.txid with
  | some htlcs =>
    let spentCounterpartyRevoked :=
      decide (fundingSpent.currentCounterpartyCommitmentTxid ≠ some input.previousOutput.txid) &&
      decide (fundingSpent.prevCounterpartyCommitmentTxid ≠ some input.previousOutput.txid)
    scanCommitment fundingSpent (HTLCClaim.fromWitness input.witness)
      input.previousOutput.vout false
      spentCounterpartyRevoked htlcs paymentData
  | none => .ok (.done paymentData)

/-- The commitments that an input can spend. -/
def scanInput (fundingSpent : FundingScope) (input : TxIn) : Except Panic Scan := do
  let scan ← self.scanCurrentHolder fundingSpent input
  let scan ← scan.andThen (self.scanPrevHolder fundingSpent input)
  scan.andThen (scanCounterparty fundingSpent input)

def recordHtlcSpend (vout : ℕ) (preimage : Option PaymentPreimage) (onToLocalOutputCsv : Option ℕ) :
    ChannelMonitorImpl :=
  { self with
    onchainEventsAwaitingThresholdConf := self.onchainEventsAwaitingThresholdConf ++
      [⟨tx.txid, height, blockHash, .htlcSpendConfirmation vout preimage onToLocalOutputCsv⟩] }

def fulfillFromChain (data : PaymentData) : ChannelMonitorImpl :=
  let preimage := preimageOfWitness input.witness
  if self.pendingMonitorEvents.any fun event => event.resolves data.source then self
  else
    { self.recordHtlcSpend tx height blockHash input.previousOutput.vout (some preimage) none with
      counterpartyFulfilledHtlcs :=
        self.counterpartyFulfilledHtlcs.insert (.fromSource data.source) preimage
      pendingMonitorEvents := self.pendingMonitorEvents ++
        [.htlcEvent ⟨data.paymentHash, some preimage, data.source, data.amountMsat / 1000⟩] }

def applyScan : Scan → ChannelMonitorImpl
  | .spent outboundHtlc =>
    let htlcClaim := HTLCClaim.fromWitness input.witness
    self.recordHtlcSpend tx height blockHash input.previousOutput.vout
      (if HTLCClaim.revealsPreimage htlcClaim then some (preimageOfWitness input.witness) else none)
      (if htlcClaim = some .acceptedPreimage ∧ ¬ outboundHtlc then
        some self.onHolderTxCsv else none)
  | .done none => self
  | .done (some data) =>
    if HTLCClaim.revealsPreimage (HTLCClaim.fromWitness input.witness) then
      self.fulfillFromChain tx height blockHash input data
    else
      self.queueHtlcFailure tx.txid height blockHash data.source data.paymentHash data.amountMsat
        (some input.previousOutput.vout)

/-- `is_resolving_htlc_output`, of one input. -/
def resolveInput (self : ChannelMonitorImpl) (input : TxIn) : Except Panic ChannelMonitorImpl := do
  let scan ← self.scanInput fundingSpent input
  .ok (self.applyScan tx height blockHash input scan)

def isResolvingHtlcOutput : Except Panic ChannelMonitorImpl := do
  let fundingSpent ← self.getConfirmedFundingScope
  tx.input.foldlM (resolveInput fundingSpent tx height blockHash) self

end ChannelMonitorImpl

end PqLightning.Monitor
