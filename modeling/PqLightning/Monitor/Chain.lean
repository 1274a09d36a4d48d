import PqLightning.Monitor.Resolution

/-!
# A monitor follows the chain

Blocks reach a monitor either whole (`block_connected`, `blocks_disconnected`) or as the
transactions it asked for and a new tip (`transactions_confirmed`, `best_block_updated`,
`transaction_unconfirmed`). It looks at three kinds of transactions: one that funds the channel
anew, one that spends the funding output, and one that spends an output of a commitment. What they
lead to waits in `onchain_events_awaiting_threshold_conf` until it is buried deep enough.

The claim handler is the list of requests made to it. Calls that only concern the handler
(`cancel_prev_commitment_claims`, its own view of blocks and reorganisations) are left out, and so
is the choice of a confirmation target for its fees.
-/

namespace PqLightning.Monitor

open AssocMap Chain

structure Block where
  blockHash : BlockHash
  height : ℕ
  txdata : List Transaction
deriving DecidableEq, Repr

abbrev TransactionOutputs : Type := Txid × List (ℕ × Script)

def maxMoney : ℕ := 21000000 * 100000000

def latencyGracePeriodBlocks : ℕ := 3

def cltvClaimBuffer : ℕ := 36

def OnchainEventEntry.isFundingSpend (entry : OnchainEventEntry) : Bool :=
  match entry.event with
  | .fundingSpendConfirmation _ => true
  | _ => false

def OnchainEventEntry.isAlternativeFunding (entry : OnchainEventEntry) : Bool :=
  match entry.event with
  | .alternativeFundingConfirmation => true
  | _ => false

namespace ChannelMonitorImpl

/-! ### Commitments of the counterparty -/

variable (self : ChannelMonitorImpl)

variable (txdata : List Transaction) (watchOutputs : List TransactionOutputs)
  (claimableOutpoints : List PackageTemplate) (fundingSpent : FundingScope) (txid : Txid)
  (blockHash : BlockHash) (tx : Transaction) (input : TxIn) (height : ℕ)

/-- The number of a commitment of the counterparty, from its lock time and sequence. -/
def commitmentNumberOf : ℕ :=
  0xffffffffffff - ((((input.sequence &&& 0xffffff) <<< 24) ||| (tx.lockTime &&& 0xffffff)) ^^^
    self.commitmentTransactionNumberObscureFactor)

variable (crypto : Crypto)

def revokedOutputClaims (self : ChannelMonitorImpl) (fundingSpent : FundingScope)
    (point : PublicKey) (secret : Bytes32) (tx : Transaction) (height : ℕ) : List PackageTemplate :=
  tx.output.zipIdx.filterMap fun (output, idx) =>
    if output.scriptPubkey = crypto.counterpartyRevokeableScript point then
      some (.buildPackage tx.txid idx
        (.revokedOutput point secret output.value fundingSpent.channelParameters (some height))
        (height + self.onCounterpartyTxCsv))
    else none

/-- The claims of the HTLC outputs of a revoked commitment, up to the first that does not match. -/
def revokedHtlcClaims (point : PublicKey) (secret : Bytes32) (tx : Transaction) (height : ℕ)
    (htlcs : CommitmentHtlcs) : List PackageTemplate :=
  (matchingHtlcs tx htlcs).filterMap fun (htlc, _) =>
    htlc.transactionOutputIndex.map fun index =>
      .buildPackage tx.txid index
        (.revokedHTLCOutput point secret htlc fundingSpent.channelParameters (some height))
        (if htlc.offered then htlc.cltvExpiry else height)

def recordOnChain (commitmentNumber : ℕ) : ChannelMonitorImpl :=
  { self with
    counterpartyCommitmentTxnOnChain :=
      self.counterpartyCommitmentTxnOnChain.insert txid commitmentNumber }

/-- The revoked branch of `check_spend_counterparty_transaction`, from the secret on. -/
def claimRevoked (self : ChannelMonitorImpl) (fundingSpent : FundingScope)
    (commitmentNumber : ℕ) (secret : Bytes32) (point : PublicKey) (tx : Transaction) (height : ℕ)
    (blockHash : BlockHash) : Except Panic (ChannelMonitorImpl × List PackageTemplate) :=
  let outputClaims := self.revokedOutputClaims crypto fundingSpent point secret tx height
  match fundingSpent.counterpartyClaimableOutpoints.lookup tx.txid with
  | some htlcs =>
    let claims := outputClaims ++ revokedHtlcClaims fundingSpent point secret tx height htlcs
    if (matchingHtlcs tx htlcs).length < htlcs.length then .ok (self, claims)
    else
      .ok ((self.recordOnChain tx.txid commitmentNumber).failUnbroadcastHtlcs tx.txid height
        blockHash htlcs, claims)
  | none =>
    if outputClaims.isEmpty then .ok (self, [])
    else .error .debugAssertion

/-- The revoked branch of `check_spend_counterparty_transaction`. -/
def checkSpendRevoked (self : ChannelMonitorImpl) (fundingSpent : FundingScope)
    (tx : Transaction) (input : TxIn) (height : ℕ) (blockHash : BlockHash) :
    Except Panic (ChannelMonitorImpl × List PackageTemplate) := do
  Panic.unless (fundingSpent.fundingTxid = input.previousOutput.txid) .assertion
  let secret ← self.commitmentSecrets.getSecret crypto.sha256 (self.commitmentNumberOf tx input)
  let secret ← unwrap secret
  match crypto.pointOfSecret secret with
  | none => .ok (self, [])
  | some point =>
    self.claimRevoked crypto fundingSpent (self.commitmentNumberOf tx input) secret point tx height
      blockHash

/-- The other branch of `check_spend_counterparty_transaction`. -/
def checkSpendUnrevoked (blockHash : BlockHash) :
    Except Panic (ChannelMonitorImpl × List PackageTemplate) :=
  match fundingSpent.counterpartyClaimableOutpoints.lookup tx.txid with
  | none => .ok (self, [])
  | some htlcs => do
    Panic.unless (fundingSpent.fundingTxid = input.previousOutput.txid) .assertion
    let commitmentNumber := self.commitmentNumberOf tx input
    let self := (self.recordOnChain tx.txid commitmentNumber).failUnbroadcastHtlcs tx.txid height
      blockHash htlcs
    .ok (self, self.getCounterpartyOutputClaimInfo fundingSpent commitmentNumber tx.txid tx htlcs
      (some height))

def checkSpendCounterpartyTransaction (self : ChannelMonitorImpl)
    (tx : Transaction) (input : TxIn) (height : ℕ) (blockHash : BlockHash) :
    Except Panic (ChannelMonitorImpl × List PackageTemplate) := do
  let fundingSpent ← self.getConfirmedFundingScope
  if self.commitmentSecrets.getMinSeenSecret ≤ self.commitmentNumberOf tx input then
    self.checkSpendRevoked crypto fundingSpent tx input height blockHash
  else self.checkSpendUnrevoked fundingSpent tx input height blockHash

/-- The claim of the output of an HTLC transaction of the counterparty, at the index of an input
that spends the commitment. The channel parameters are those of `self.funding`, whichever funding
the commitment spends. -/
def revokedHtlcTxClaim (point : PublicKey) (secret : Bytes32)
    (commitmentTxid : Txid) (tx : Transaction) (height : ℕ) (input : TxIn × ℕ) :
    Option (PackageTemplate × ℕ × Script) :=
  if input.1.previousOutput.txid = commitmentTxid ∧ input.1.witness.length = 5 then
    (tx.output[input.2]?).map fun output =>
      (.buildPackage tx.txid input.2
        (.revokedOutput point secret output.value self.funding.channelParameters (some height))
        (height + self.onCounterpartyTxCsv), input.2, output.scriptPubkey)
  else none

def checkSpendCounterpartyHtlc (self : ChannelMonitorImpl) (tx : Transaction)
    (commitmentNumber : ℕ) (commitmentTxid : Txid) (height : ℕ) :
    Except Panic (List PackageTemplate × Option TransactionOutputs) := do
  let secret ← self.commitmentSecrets.getSecret crypto.sha256 commitmentNumber
  match secret.bind fun secret =>
      (crypto.pointOfSecret secret).map fun point => (secret, point) with
  | none => .ok ([], none)
  | some (secret, point) =>
    let fundingSpent ← self.getConfirmedFundingScope
    Panic.unless (fundingSpent.counterpartyClaimableOutpoints.lookup commitmentTxid).isSome
      .debugAssertion
    let claims := tx.input.zipIdx.filterMap
      (self.revokedHtlcTxClaim point secret commitmentTxid tx height)
    .ok (claims.map Prod.fst,
      if claims.isEmpty then none else some (tx.txid, claims.map Prod.snd))

/-! ### Commitments of the holder -/

def getBroadcastedHolderWatchOutputs (holderTx : CommitmentTransaction) :
    Except Panic (List (ℕ × Script)) :=
  holderTx.nondustHtlcs.mapM fun htlc =>
    match htlc.transactionOutputIndex with
    | none => .error .debugAssertion
    | some index => do
      let output ← unwrap holderTx.builtTransaction.output[index]?
      .ok (index, output.scriptPubkey)

/-- The commitment of the holder that has this id, and whether it is the current one. -/
def holderCommitment : Option (CommitmentTransaction × Bool) :=
  if fundingSpent.currentHolderCommitmentTx.txid = txid then
    some (fundingSpent.currentHolderCommitmentTx, true)
  else
    (fundingSpent.prevHolderCommitmentTx.filter fun prev => prev.txid = txid).map fun prev =>
      (prev, false)

def holderHtlcs (current : Bool) : Except Panic CommitmentHtlcs := do
  if current then self.currentHolderHtlcs
  else
    let htlcs ← self.prevHolderHtlcs
    unwrap htlcs

def checkSpendHolderTransaction (self : ChannelMonitorImpl) (tx : Transaction)
    (input : TxIn) (height : ℕ) (blockHash : BlockHash) :
    Except Panic (Option (ChannelMonitorImpl × List PackageTemplate × TransactionOutputs)) := do
  let fundingSpent ← self.getConfirmedFundingScope
  match holderCommitment fundingSpent tx.txid with
  | none => .ok none
  | some (holderTx, current) =>
    Panic.unless (fundingSpent.fundingTxid = input.previousOutput.txid) .assertion
    let claims ← self.getBroadcastedHolderClaims fundingSpent holderTx height
    let watchOutputs ← getBroadcastedHolderWatchOutputs holderTx
    let htlcs ← self.holderHtlcs current
    let broadcasted : ChannelMonitorImpl :=
      { self with
        broadcastedHolderRevokableScript := some (crypto.holderRevokeableScript holderTx) }
    .ok (some (broadcasted.failUnbroadcastHtlcs tx.txid height blockHash htlcs, claims,
      (tx.txid, watchOutputs)))

/-! ### Transactions -/

/-- What `transactions_confirmed` keeps while it goes through the transactions of a block. -/
structure Confirmation where
  monitor : ChannelMonitorImpl
  shouldBroadcastCommitment : Bool
  watchOutputs : List TransactionOutputs
  claimableOutpoints : List PackageTemplate

def alreadyConfirmed : Except Panic Bool :=
  if (self.alternativeFundingConfirmed.any fun confirmed => confirmed.1 = txid) ∨
      self.fundingSpendConfirmed = some txid then .ok true
  else
    match self.onchainEventsAwaitingThresholdConf.find? fun entry => entry.txid = txid with
    | some entry => do
      Panic.unless (blockHash = entry.blockHash) .assertion
      .ok true
    | none =>
      .ok ((self.htlcsResolvedOnChain.any fun htlc => htlc.resolvingTxid = some txid) ||
        decide (txid ∈ self.spendableTxidsConfirmed))

variable (confirmation : Confirmation)

/-- The transaction funds the channel anew. -/
def confirmAlternativeFunding (alternativeFunding : FundingScope)
    (tx : Transaction) (height : ℕ) (blockHash : BlockHash) : Except Panic Confirmation := do
  let self := confirmation.monitor
  Panic.unless (self.alternativeFundingConfirmed = none) .assertion
  Panic.unless (¬ self.onchainEventsAwaitingThresholdConf.any
    OnchainEventEntry.isAlternativeFunding)
    .assertion
  Panic.unless (self.fundingSpendConfirmed = none) .assertion
  Panic.unless (¬ self.onchainEventsAwaitingThresholdConf.any OnchainEventEntry.isFundingSpend)
    .assertion
  Panic.unless (alternativeFunding.isSplice → tx.input.any fun input =>
    input.previousOutput = self.funding.fundingOutpoint) .debugAssertion
  .ok { confirmation with
    monitor := { self with
      alternativeFundingConfirmed := some (tx.txid, height)
      onchainEventsAwaitingThresholdConf := self.onchainEventsAwaitingThresholdConf ++
        if self.noFurtherUpdatesAllowed then
          [⟨tx.txid, height, blockHash, .alternativeFundingConfirmation⟩]
        else [] }
    shouldBroadcastCommitment := confirmation.shouldBroadcastCommitment || self.holderTxSigned ||
      self.fundingSpendSeen }

def isCommitmentTransaction : Bool := input.sequence >>> 24 = 0x80 ∧ tx.lockTime >>> 24 = 0x20

def confirmCommitment (confirmation : Confirmation) (tx : Transaction)
    (input : TxIn) (height : ℕ) (blockHash : BlockHash) :
    Except Panic (Confirmation × Option ℕ) := do
  let self := confirmation.monitor
  match ← self.checkSpendHolderTransaction crypto tx input height blockHash with
  | some (monitor, claims, watchOutputs) =>
    .ok ({ confirmation with
        monitor := monitor
        shouldBroadcastCommitment := false
        watchOutputs := confirmation.watchOutputs ++
          if watchOutputs.2.isEmpty then [] else [watchOutputs]
        claimableOutpoints := confirmation.claimableOutpoints ++ claims },
      some self.onHolderTxCsv)
  | none =>
    let (monitor, claims) ←
      self.checkSpendCounterpartyTransaction crypto tx input height blockHash
    .ok ({ confirmation with
        monitor := monitor
        shouldBroadcastCommitment := false
        watchOutputs := confirmation.watchOutputs ++
          [(tx.txid, tx.output.zipIdx.map fun output => (output.2, output.1.scriptPubkey))]
        claimableOutpoints := confirmation.claimableOutpoints ++ claims },
      none)

def seeFundingSpend : ChannelMonitorImpl :=
  { self with
    pendingMonitorEvents := self.pendingMonitorEvents ++
      if self.fundingSpendSeen then [] else [.commitmentTxConfirmed]
    fundingSpendSeen := true }

/-- The spend of the funding output waits for its confirmations. -/
def recordFundingSpend (tx : Transaction) (height : ℕ)
    (blockHash : BlockHash) (onLocalOutputCsv : Option ℕ) : Confirmation :=
  { confirmation with
    monitor := { confirmation.monitor with
      onchainEventsAwaitingThresholdConf :=
        confirmation.monitor.onchainEventsAwaitingThresholdConf ++
          [⟨tx.txid, height, blockHash, .fundingSpendConfirmation onLocalOutputCsv⟩] } }

/-- A transaction that spends the funding output, which need not be a commitment. -/
def confirmClose (confirmation : Confirmation) (tx : Transaction)
    (input : TxIn) (height : ℕ) (blockHash : BlockHash) : Except Panic (Confirmation × Option ℕ) :=
  if isCommitmentTransaction tx input then
    confirmCommitment crypto confirmation tx input height blockHash
  else .ok (confirmation, none)

/-- A transaction with one input, if that spends a funding output of the channel. -/
def confirmFundingSpend (confirmation : Confirmation) (tx : Transaction)
    (input : TxIn) (height : ℕ) (blockHash : BlockHash) : Except Panic Confirmation :=
  let self := confirmation.monitor
  match self.fundings.find? fun funding => funding.fundingOutpoint = input.previousOutput with
  | none => .ok confirmation
  | some funding => do
    Panic.unless (funding.fundingTxid =
      (self.alternativeFundingConfirmed.map Prod.fst).getD self.funding.fundingTxid) .assertion
    let (confirmation, onLocalOutputCsv) ← confirmClose crypto
      { confirmation with monitor := self.seeFundingSpend } tx input height blockHash
    .ok (recordFundingSpend confirmation tx height blockHash onLocalOutputCsv)

def confirmHtlcSpend (confirmation : Confirmation) (tx : Transaction)
    (height : ℕ) : Except Panic Confirmation :=
  let self := confirmation.monitor
  match tx.input.findSome? fun input =>
      (self.counterpartyCommitmentTxnOnChain.lookup input.previousOutput.txid).map fun number =>
        (input.previousOutput.txid, number) with
  | none => .ok confirmation
  | some (commitmentTxid, commitmentNumber) => do
    let (claims, outputs) ←
      self.checkSpendCounterpartyHtlc crypto tx commitmentNumber commitmentTxid height
    .ok { confirmation with
      watchOutputs := confirmation.watchOutputs ++ outputs.toList
      claimableOutpoints := confirmation.claimableOutpoints ++ claims }

def getSpendableOutputs : List SpendableOutputDescriptor :=
  tx.output.zipIdx.flatMap fun (output, i) =>
    let outpoint : OutPoint := ⟨tx.txid, i⟩
    (if output.scriptPubkey = self.destinationScript then [.staticOutput outpoint] else []) ++
    (if self.broadcastedHolderRevokableScript = some output.scriptPubkey then
      [.delayedPaymentOutput outpoint self.onHolderTxCsv] else []) ++
    (if self.counterpartyPaymentScript = output.scriptPubkey then
      [.staticPaymentOutput outpoint] else []) ++
    if self.shutdownScript = some output.scriptPubkey then [.staticOutput outpoint] else []

def checkTxAndPushSpendableOutputs (blockHash : BlockHash) : ChannelMonitorImpl :=
  { self with
    onchainEventsAwaitingThresholdConf := self.onchainEventsAwaitingThresholdConf ++
      (self.getSpendableOutputs tx).map fun descriptor =>
        ⟨tx.txid, height, blockHash, .maturingOutput descriptor⟩ }

def confirmSingleInput (confirmation : Confirmation) (tx : Transaction)
    (height : ℕ) (blockHash : BlockHash) : Except Panic Confirmation :=
  match tx.input with
  | [input] => confirmFundingSpend crypto confirmation tx input height blockHash
  | _ => .ok confirmation

/-- What a transaction that is not a funding leads to, by the outputs it spends and has. -/
def confirmSpend (confirmation : Confirmation) (tx : Transaction) (height : ℕ)
    (blockHash : BlockHash) : Except Panic Confirmation := do
  let confirmation ← confirmHtlcSpend crypto confirmation tx height
  let monitor ← confirmation.monitor.isResolvingHtlcOutput tx height blockHash
  .ok { confirmation with monitor := monitor.checkTxAndPushSpendableOutputs tx height blockHash }

def confirmTransaction (height : ℕ) (blockHash : BlockHash)
    (confirmation : Confirmation) (tx : Transaction) : Except Panic Confirmation := do
  let already ← confirmation.monitor.alreadyConfirmed tx.txid blockHash
  if already then .ok confirmation
  else
    match confirmation.monitor.pendingFunding.find?
        fun funding => funding.fundingTxid = tx.txid with
    | some alternativeFunding =>
      confirmAlternativeFunding confirmation alternativeFunding tx height blockHash
    | none => do
      let confirmation ← confirmSingleInput crypto confirmation tx height blockHash
      if tx.input.isEmpty then .ok confirmation
      else confirmSpend crypto confirmation tx height blockHash

/-! ### The holder's commitment is broadcast -/

/-- `generate_claimable_outpoints_and_watch_outputs`; the reason of the event is left out. -/
def generateClaimableOutpointsAndWatchOutputs (generateMonitorEvent requireFundingSeen : Bool) :
    Except Panic (ChannelMonitorImpl × List PackageTemplate × List TransactionOutputs) := do
  let funding ← self.getConfirmedFundingScope
  let holderTx := funding.currentHolderCommitmentTx
  let commitmentPackage := PackageTemplate.buildPackage funding.fundingOutpoint.txid
    funding.fundingOutpoint.vout (.holderFundingOutput holderTx funding.channelParameters)
    self.bestBlock.height
  let signed : ChannelMonitorImpl :=
    { self with
      pendingMonitorEvents := self.pendingMonitorEvents ++
        if generateMonitorEvent then [.holderForceClosedWithInfo funding.fundingOutpoint] else []
      holderTxSigned := true }
  if requireFundingSeen ∧ self.isManualBroadcast ∧ ¬ self.fundingSeenOnchain then
    .ok (signed, [], [])
  else if self.funding.channelParameters.channelTypeFeatures.free then
    .ok (signed, [commitmentPackage], [])
  else
    let claims ← self.getBroadcastedHolderClaims funding holderTx self.bestBlock.height
    let outputs ← getBroadcastedHolderWatchOutputs holderTx
    .ok (signed, commitmentPackage :: claims,
      if outputs.isEmpty then [] else [(holderTx.txid, outputs)])

/-- `scan_commitment!` of `should_broadcast_holder_commitment_txn`: an HTLC that has to be resolved
on the chain. -/
def mustGoOnChain (holderTx : Bool) (htlc : HTLCOutputInCommitment) : Bool :=
  let height := self.bestBlock.height
  if holderTx = htlc.offered then htlc.cltvExpiry + latencyGracePeriodBlocks ≤ height
  else htlc.cltvExpiry ≤ height + cltvClaimBuffer ∧
    (self.paymentPreimages.lookup htlc.paymentHash).isSome

/-- `should_broadcast_holder_commitment_txn`; the payment hash it returns is only reported. -/
def shouldBroadcastHolderCommitmentTxn : Except Panic Bool := do
  if self.fundingSpendConfirmed.isSome ∨
      self.onchainEventsAwaitingThresholdConf.any OnchainEventEntry.isFundingSpend then .ok false
  else
    let holderHtlcs ← self.currentHolderHtlcs
    let counterpartyHtlcs :=
      self.funding.counterpartyHtlcs self.funding.currentCounterpartyCommitmentTxid ++
        self.funding.counterpartyHtlcs self.funding.prevCounterpartyCommitmentTxid
    .ok ((holderHtlcs.any fun htlc => self.mustGoOnChain true htlc.1) ||
      counterpartyHtlcs.any fun htlc => self.mustGoOnChain false htlc.1)

/-! ### Blocks -/

/-- The monitor with the failure of an HTLC to be passed on. -/
def emitFailure (source : HTLCSource) (paymentHash : PaymentHash)
    (htlcValueSatoshis : ℕ) : ChannelMonitorImpl :=
  { self with
    pendingMonitorEvents := self.pendingMonitorEvents ++
      [.htlcEvent ⟨paymentHash, none, source, htlcValueSatoshis⟩] }

def matureEvent (unmatured : List HTLCSource) (state : ChannelMonitorImpl × List HTLCSource)
    (entry : OnchainEventEntry) : Except Panic (ChannelMonitorImpl × List HTLCSource) :=
  let (self, matured) := state
  match entry.event with
  | .htlcUpdate source paymentHash htlcValueSatoshis commitmentTxOutputIdx => do
    Panic.unless (source ∉ unmatured) .debugAssertion
    Panic.unless (source ∉ matured) .debugAssertion
    .ok ({ self.emitFailure source paymentHash htlcValueSatoshis with
        htlcsResolvedOnChain := self.htlcsResolvedOnChain ++
          [⟨commitmentTxOutputIdx, some entry.txid, none⟩] },
      matured ++ [source])
  | .maturingOutput _ =>
    .ok ({ self with
        spendableTxidsConfirmed := self.spendableTxidsConfirmed ++ [entry.txid] }, matured)
  | .htlcSpendConfirmation commitmentTxOutputIdx preimage _ =>
    .ok ({ self with
        htlcsResolvedOnChain := self.htlcsResolvedOnChain ++
          [⟨some commitmentTxOutputIdx, some entry.txid, preimage⟩] }, matured)
  | .fundingSpendConfirmation _ =>
    let confirmed := { self with fundingSpendConfirmed := some entry.txid }
    if self.alternativeFundingConfirmed.isNone then
      .ok ({ confirmed with
          outputsToWatch := self.pendingFunding.foldl
            (fun map funding => map.erase funding.fundingTxid) self.outputsToWatch
          pendingFunding := [] }, matured)
    else .ok (confirmed, matured)
  | .alternativeFundingConfirmation => do
    Panic.unless self.noFurtherUpdatesAllowed .debugAssertion
    Panic.unless (self.funding.fundingTxid ≠ entry.txid) .debugAssertion
    match ← self.promoteFunding entry.txid with
    | some monitor => .ok (monitor, matured)
    | none => .error .debugAssertion

def matureEvents : Except Panic ChannelMonitorImpl := do
  let reached (entry : OnchainEventEntry) : Bool :=
    entry.confirmationThreshold ≤ self.bestBlock.height
  let awaiting := self.onchainEventsAwaitingThresholdConf.filter fun entry => !reached entry
  let unmatured := awaiting.filterMap fun entry =>
    match entry.event with
    | .htlcUpdate source _ _ _ => some source
    | _ => none
  let (self, _) ← (self.onchainEventsAwaitingThresholdConf.filter reached).foldlM
    (matureEvent unmatured) ({ self with onchainEventsAwaitingThresholdConf := awaiting }, [])
  .ok self

/-- An HTLC whose inbound HTLC expires soon is failed back, once. -/
def failBackHtlc (htlc : HTLCOutputInCommitment × Option HTLCSource) : ChannelMonitorImpl :=
  match htlc.2 with
  | none => self
  | some source =>
    match source.inboundHtlcExpiry with
    | none => self
    | some inboundHtlcExpiry =>
      if inboundHtlcExpiry > self.bestBlock.height + latencyGracePeriodBlocks then self
      else if self.pendingMonitorEvents.any fun event => event.resolves source then self
      else if SentHTLCId.fromSource source ∈ self.failedBackHtlcIds then self
      else
        { self.emitFailure source htlc.1.paymentHash (htlc.1.amountMsat / 1000) with
          failedBackHtlcIds := .fromSource source :: self.failedBackHtlcIds }

def failBackHtlcs : Except Panic ChannelMonitorImpl := do
  if self.noFurtherUpdatesAllowed then
    let holderHtlcs ← self.currentHolderHtlcs
    let htlcs := holderHtlcs ++
      self.funding.counterpartyHtlcs self.funding.currentCounterpartyCommitmentTxid ++
      self.funding.counterpartyHtlcs self.funding.prevCounterpartyCommitmentTxid
    .ok (htlcs.foldl failBackHtlc self)
  else .ok self

/-- The first part of `block_confirmed`: the holder's commitment is broadcast if an HTLC requires
it, unless there are claims already. -/
def broadcastIfDue :
    Except Panic (ChannelMonitorImpl × List TransactionOutputs × List PackageTemplate) := do
  if claimableOutpoints.isEmpty then
    let shouldBroadcast ← self.shouldBroadcastHolderCommitmentTxn
    if shouldBroadcast then
      let (self, claims, outputs) ← self.generateClaimableOutpointsAndWatchOutputs true false
      if !self.isManualBroadcast || self.fundingSeenOnchain then
        .ok (self, watchOutputs ++ outputs, claims)
      else .ok (self, watchOutputs, [])
    else .ok (self, watchOutputs, [])
  else .ok (self, watchOutputs, claimableOutpoints)

/-- The end of `block_confirmed`: the claims go to the handler, and their outputs are watched. -/
def requestClaims : ChannelMonitorImpl :=
  { self with
    claimRequests := self.claimRequests ++ claimableOutpoints
    outputsToWatch := watchOutputs.foldl (fun map outputs => map.insert outputs.1 outputs.2)
      self.outputsToWatch }

def blockConfirmed (confHeight : ℕ)
    (watchOutputs : List TransactionOutputs) (claimableOutpoints : List PackageTemplate) :
    Except Panic ChannelMonitorImpl := do
  Panic.unless (confHeight ≤ self.bestBlock.height) .debugAssertion
  let (self, watchOutputs, claimableOutpoints) ←
    self.broadcastIfDue watchOutputs claimableOutpoints
  let self ← self.matureEvents
  let self ← self.failBackHtlcs
  .ok (self.requestClaims watchOutputs claimableOutpoints)

def spendsWatchedOutput : Bool :=
  tx.input.any fun input =>
    ((self.outputsToWatch.lookup input.previousOutput.txid).getD []).any fun output =>
      output.1 = input.previousOutput.vout

/-- One step of `filter_block`: a transaction matches if it spends a watched output, or an output of
one that matched. -/
def filterStep (matchedTxn : List Transaction) (tx : Transaction) : List Transaction :=
  if self.spendsWatchedOutput tx || tx.input.any fun input =>
      matchedTxn.any fun other => other.txid = input.previousOutput.txid then
    matchedTxn ++ [tx]
  else matchedTxn

def filterBlock : List Transaction := txdata.foldl self.filterStep []

/-- The check of the amounts that `transactions_confirmed` makes. -/
def checkOutputValues : Except Panic Unit :=
  Panic.unless ((tx.output.map fun output => output.value).sum ≤ maxMoney) .unreachable

def updateForNewTip : ChannelMonitorImpl :=
  if height > self.bestBlock.height then { self with bestBlock := ⟨blockHash, height⟩ } else self

/-- The end of `transactions_confirmed`: the holder's commitment is broadcast if its funding was
replaced. -/
def finishConfirmation (blockHash : BlockHash) (height : ℕ) : Except Panic ChannelMonitorImpl := do
  let self := confirmation.monitor.updateForNewTip blockHash height
  if confirmation.shouldBroadcastCommitment then
    let (self, claims, outputs) ← self.generateClaimableOutpointsAndWatchOutputs false false
    self.blockConfirmed height (confirmation.watchOutputs ++ outputs)
      (confirmation.claimableOutpoints ++ claims)
  else self.blockConfirmed height confirmation.watchOutputs confirmation.claimableOutpoints

def startConfirmation : Confirmation :=
  let fundingSeenOnchain := self.fundingSeenOnchain || txdata.any fun tx =>
    self.fundings.any fun funding => funding.fundingTxid = tx.txid
  { monitor := { self with fundingSeenOnchain := fundingSeenOnchain }
    shouldBroadcastCommitment := self.isManualBroadcast && !self.fundingSeenOnchain &&
      fundingSeenOnchain && self.holderTxSigned
    watchOutputs := []
    claimableOutpoints := [] }

/-- `transactions_confirmed`, and `block_connected`. -/
def transactionsConfirmed (self : ChannelMonitorImpl) (block : Block) :
    Except Panic ChannelMonitorImpl := do
  let txnMatched := self.filterBlock block.txdata
  txnMatched.forM checkOutputValues
  let confirmation ← txnMatched.foldlM (confirmTransaction crypto block.height block.blockHash)
    (self.startConfirmation block.txdata)
  finishConfirmation confirmation block.blockHash block.height

end ChannelMonitorImpl

end PqLightning.Monitor
