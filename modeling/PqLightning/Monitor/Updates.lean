import PqLightning.Monitor.Claims

/-!
# Updates of a monitor

The updates that the channel sends to its monitor: new commitments of both parties, revocation
secrets, preimages and fundings. A function that the source gives a `Result<(), &'static str>`
returns the error text or the new monitor; an update that is refused leaves the monitor as it is.
-/

namespace PqLightning.Monitor

open AssocMap Chain

/-! ### Revocation secrets -/

/-- `prune_htlc_sources`, of one funding: it forgets its previous counterparty commitment and the
sources of its HTLCs. With it come, if there was such a commitment, the ids of the sources that are
not on the current one. -/
def FundingScope.pruneHtlcSources (self : FundingScope) :
    Except Panic (FundingScope × Option (List SentHTLCId)) :=
  match self.prevCounterpartyCommitmentTxid with
  | none => .ok (self, none)
  | some txid => do
    let currentTxid ← unwrap self.currentCounterpartyCommitmentTxid
    Panic.unless (currentTxid ≠ txid) .assertion
    let curClaimables ← unwrap (self.counterpartyClaimableOutpoints.lookup currentTxid)
    let htlcs ← unwrap (self.counterpartyClaimableOutpoints.lookup txid)
    let fulfilled := (htlcs.filterMap Prod.snd).filter fun source =>
      ¬ curClaimables.any fun htlc => htlc.2 = some source
    .ok ({ self with
        prevCounterpartyCommitmentTxid := none
        counterpartyClaimableOutpoints := self.counterpartyClaimableOutpoints.insert txid
          (htlcs.map fun htlc => (htlc.1, none)) },
      some (fulfilled.map .fromSource))

namespace ChannelMonitorImpl

/-- The first part of `provide_secret`: every funding forgets its previous counterparty commitment.
The fulfilled HTLCs are removed once, for the first funding that has such a commitment. -/
def pruneHtlcSources (self : ChannelMonitorImpl) : Except Panic ChannelMonitorImpl := do
  let funding ← self.funding.pruneHtlcSources
  let pending ← self.pendingFunding.mapM FundingScope.pruneHtlcSources
  let removed := ((funding :: pending).findSome? Prod.snd).getD []
  .ok { self with
    funding := funding.1
    pendingFunding := pending.map Prod.fst
    counterpartyFulfilledHtlcs := removed.foldl (fun map id => map.erase id)
      self.counterpartyFulfilledHtlcs }

variable (self : ChannelMonitorImpl)

/-- The test of `payment_preimages.retain` in `provide_secret`. -/
def keepsPreimage (currentHtlcs : CommitmentHtlcs)
    (prevHtlcs : Option CommitmentHtlcs) (minIdx : ℕ) (k : PaymentHash) : Bool :=
  currentHtlcs.any (fun htlc => k = htlc.1.paymentHash) ||
    (prevHtlcs.getD []).any (fun htlc => k = htlc.1.paymentHash) ||
    (self.counterpartyHashCommitmentNumber.lookup k).any fun cn => cn < minIdx

/-- The second part of `provide_secret`: the preimages that no commitment needs any more, with their
commitment numbers. -/
def prunePreimages : Except Panic ChannelMonitorImpl :=
  if self.paymentPreimages.entries.isEmpty then .ok self
  else do
    let currentHtlcs ← self.currentHolderHtlcs
    let prevHtlcs ← self.prevHolderHtlcs
    let keeps := self.keepsPreimage currentHtlcs prevHtlcs self.commitmentSecrets.getMinSeenSecret
    .ok { self with
      paymentPreimages := retain (fun k _ => keeps k) self.paymentPreimages
      counterpartyHashCommitmentNumber :=
        retain (fun k _ => (self.paymentPreimages.lookup k).isNone || keeps k)
          self.counterpartyHashCommitmentNumber }

def provideSecret (crypto : Crypto) (self : ChannelMonitorImpl) (idx : ℕ) (secret : Bytes32) :
    Except Panic (Except String ChannelMonitorImpl) :=
  match self.commitmentSecrets.provideSecret crypto.sha256 idx secret with
  | .error _ => .ok (.error "Previous secret did not match new one")
  | .ok commitmentSecrets => do
    let self ← { self with commitmentSecrets := commitmentSecrets }.pruneHtlcSources
    let self ← self.prunePreimages
    .ok (.ok self)

/-! ### Commitments of the counterparty -/

def nextPerCommitmentPoints (points : Option (ℕ × PublicKey × Option PublicKey))
    (commitmentNumber : ℕ) (point : PublicKey) : ℕ × PublicKey × Option PublicKey :=
  match points with
  | none => (commitmentNumber, point, none)
  | some (number, oldPoint, oldSecondPoint) =>
    if number = commitmentNumber + 1 then (number, oldPoint, some point)
    else if number = commitmentNumber + 2 then
      match oldSecondPoint with
      | some oldSecondPoint => (number - 1, oldSecondPoint, some point)
      | none => (commitmentNumber, point, none)
    else (commitmentNumber, point, none)

def provideLatestCounterpartyCommitmentTx (txid : Txid)
    (htlcOutputs : CommitmentHtlcs) (commitmentNumber : ℕ) (theirPerCommitmentPoint : PublicKey) :
    ChannelMonitorImpl :=
  { self with
    counterpartyHashCommitmentNumber := htlcOutputs.foldl
      (fun map htlc => map.insert htlc.1.paymentHash commitmentNumber)
      self.counterpartyHashCommitmentNumber
    funding := { self.funding with
      prevCounterpartyCommitmentTxid := self.funding.currentCounterpartyCommitmentTxid
      currentCounterpartyCommitmentTxid := some txid
      counterpartyClaimableOutpoints :=
        self.funding.counterpartyClaimableOutpoints.insert txid htlcOutputs }
    currentCounterpartyCommitmentNumber := commitmentNumber
    theirCurPerCommitmentPoints := some
      (nextPerCommitmentPoints self.theirCurPerCommitmentPoints commitmentNumber
        theirPerCommitmentPoint) }

/-- The checks of `verify_matching_commitment_transactions` on one transaction and the one before.
-/
def verifyMatchingCommitmentTransaction (funding : FundingScope)
    (commitmentTx : CommitmentTransaction)
    (other : Option CommitmentTransaction) : Except String Unit :=
  match commitmentTx.builtTransaction.input with
  | [input] =>
    if input.previousOutput ≠ funding.fundingOutpoint then
      .error "Commitment transaction spends invalid funding outpoint"
    else
      match other with
      | none => .ok ()
      | some other =>
        if commitmentTx.commitmentNumber ≠ other.commitmentNumber then
          .error "Commitment number mismatch"
        else if commitmentTx.perCommitmentPoint ≠ other.perCommitmentPoint then
          .error "Per-commitment-point mismatch"
        else if commitmentTx.negotiatedFeeratePerKw ≠ other.negotiatedFeeratePerKw then
          .error "Commitment fee rate mismatch"
        else if commitmentTx.nondustHtlcs.length ≠ other.nondustHtlcs.length then
          .error "Non-dust HTLC count mismatch"
        else if (commitmentTx.nondustHtlcs.zip other.nondustHtlcs).all
            fun htlcs => htlcs.1.isDataEqual htlcs.2 then .ok ()
        else .error "Non-dust HTLC mismatch"
  | _ => .error "Commitment transactions must only spend one input"

/-- The loop of `verify_matching_commitment_transactions`. -/
def verifyMatchingFrom : Option CommitmentTransaction →
    List (FundingScope × CommitmentTransaction) →
    Except String Unit
  | _, [] => .ok ()
  | other, (funding, commitmentTx) :: rest => do
    verifyMatchingCommitmentTransaction funding commitmentTx other
    verifyMatchingFrom (some commitmentTx) rest

variable (crypto : Crypto) (commitmentTxs : List CommitmentTransaction)

def verifyMatchingCommitmentTransactions : Except String Unit :=
  if self.pendingFunding.length + 1 ≠ commitmentTxs.length then
    .error "Commitment transaction count mismatch"
  else verifyMatchingFrom none (self.fundings.zip commitmentTxs)

def htlcsForCommitment (htlcData : CommitmentHTLCData) (commitment : CommitmentTransaction) :
    CommitmentHtlcs :=
  withSources false commitment.nondustHtlcs htlcData.nondustHtlcSources ++ htlcData.dustHtlcs

def updatePendingFunding (htlcData : CommitmentHTLCData) (funding : FundingScope)
    (commitmentTx : CommitmentTransaction) : FundingScope :=
  { funding with
    prevCounterpartyCommitmentTxid := funding.currentCounterpartyCommitmentTxid
    currentCounterpartyCommitmentTxid := some commitmentTx.txid
    counterpartyClaimableOutpoints := funding.counterpartyClaimableOutpoints.insert
      commitmentTx.txid (htlcsForCommitment htlcData commitmentTx) }

def updateCounterpartyCommitmentData (htlcData : CommitmentHTLCData) :
    Except Panic (Except String ChannelMonitorImpl) :=
  match self.verifyMatchingCommitmentTransactions commitmentTxs with
  | .error err => .ok (.error err)
  | .ok _ =>
    match commitmentTxs with
    | [] => .error .unwrap
    | commitmentTx :: rest => do
      Panic.unless (∀ tx ∈ commitmentTxs,
        htlcData.nondustHtlcSources.length ≤ tx.nondustHtlcs.length) .debugAssertion
      Panic.unless (∀ tx ∈ commitmentTxs,
        enoughSources false tx.nondustHtlcs htlcData.nondustHtlcSources) .unwrap
      let self := self.provideLatestCounterpartyCommitmentTx commitmentTx.txid
        (htlcsForCommitment htlcData commitmentTx) commitmentTx.commitmentNumber
        commitmentTx.perCommitmentPoint
      .ok (.ok { self with
        pendingFunding := self.pendingFunding.zipWith (updatePendingFunding htlcData) rest })

/-! ### Commitments of the holder -/

/-- `update_holder_commitment_data`. In debug builds an HTLC that was claimed has to be on the
counterparty's current commitment. -/
def updateHolderCommitmentData (htlcData : CommitmentHTLCData)
    (claimedHtlcs : List (SentHTLCId × PaymentPreimage)) :
    Except Panic (Except String ChannelMonitorImpl) :=
  match self.verifyMatchingCommitmentTransactions commitmentTxs with
  | .error err => .ok (.error err)
  | .ok _ =>
    match commitmentTxs with
    | [] => .error .unwrap
    | commitmentTx :: rest => do
      let advance (funding : FundingScope) (tx : CommitmentTransaction) : FundingScope :=
        { funding with
          currentHolderCommitmentTx := tx
          prevHolderCommitmentTx := some funding.currentHolderCommitmentTx }
      let claimable := self.funding.counterpartyHtlcs self.funding.currentCounterpartyCommitmentTxid
      Panic.unless (∀ claimed ∈ claimedHtlcs, claimable.any fun htlc =>
        htlc.2.any fun source => .fromSource source = claimed.1) .debugAssertion
      .ok (.ok { self with
        currentHolderCommitmentNumber := commitmentTx.commitmentNumber
        funding := advance self.funding commitmentTx
        pendingFunding := self.pendingFunding.zipWith advance rest
        currentHolderHtlcData := htlcData
        prevHolderHtlcData := some self.currentHolderHtlcData
        counterpartyFulfilledHtlcs := claimedHtlcs.foldl
          (fun map claimed => map.insert claimed.1 claimed.2) self.counterpartyFulfilledHtlcs })

/-- An HTLC given to `provide_latest_holder_commitment_tx`; whether it came with a signature. -/
structure HolderHtlcOutput where
  htlc : HTLCOutputInCommitment
  signed : Bool
  source : Option HTLCSource

def indicesAscend : ℤ → List HTLCOutputInCommitment → Bool
  | _, [] => true
  | prev, htlc :: htlcs => htlc.transactionOutputIndex.any fun index =>
    decide ((index : ℤ) > prev) && indicesAscend index htlcs

/-- The HTLC data of `provide_latest_holder_commitment_tx`. With signatures the HTLCs are all in
`htlcOutputs`; without, those with an output are on the transaction, and their sources are given. -/
def holderHtlcData (holderCommitmentTx : CommitmentTransaction)
    (htlcOutputs : List HolderHtlcOutput)
    (nondustHtlcSources : List HTLCSource) : Except Panic CommitmentHTLCData :=
  if htlcOutputs.any HolderHtlcOutput.signed then do
    Panic.unless ((htlcOutputs.filter HolderHtlcOutput.signed).map HolderHtlcOutput.htlc =
      holderCommitmentTx.nondustHtlcs) .debugAssertion
    Panic.unless (nondustHtlcSources = []) .debugAssertion
    let nondust := htlcOutputs.filter fun output => output.htlc.transactionOutputIndex.isSome
    let dust := htlcOutputs.filter fun output => output.htlc.transactionOutputIndex.isNone
    let sources ← (nondust.filter fun output => output.htlc.offered).mapM
      fun output => unwrap output.source
    .ok ⟨sources, dust.map fun output => (output.htlc, output.source)⟩
  else do
    Panic.unless (indicesAscend (-1) holderCommitmentTx.nondustHtlcs) .assertion
    Panic.unless (∀ output ∈ htlcOutputs, output.htlc.transactionOutputIndex = none) .debugAssertion
    let offered := holderCommitmentTx.nondustHtlcs.filter fun htlc => htlc.offered
    Panic.unless (offered.length ≤ nondustHtlcSources.length) .unwrap
    Panic.unless ((nondustHtlcSources.zip offered).all
      fun pair => pair.1.possiblyMatchesOutput pair.2) .assertion
    Panic.unless (nondustHtlcSources.length = offered.length) .assertion
    .ok ⟨nondustHtlcSources, htlcOutputs.map fun output => (output.htlc, output.source)⟩

def provideLatestHolderCommitmentTx
    (holderCommitmentTx : CommitmentTransaction) (htlcOutputs : List HolderHtlcOutput)
    (claimedHtlcs : List (SentHTLCId × PaymentPreimage)) (nondustHtlcSources : List HTLCSource) :
    Except Panic (Except String ChannelMonitorImpl) := do
  let htlcData ← holderHtlcData holderCommitmentTx htlcOutputs nondustHtlcSources
  self.updateHolderCommitmentData [holderCommitmentTx] htlcData claimedHtlcs

/-! ### Preimages -/

/-- The spend of the funding output that has confirmed, with its height while it may be reorged. -/
def confirmedSpendInfo : Option (Txid × Option ℕ) :=
  (self.fundingSpendConfirmed.map fun txid => (txid, none)).or
    (self.onchainEventsAwaitingThresholdConf.findSome? fun entry =>
      match entry.event with
      | .fundingSpendConfirmation _ => some (entry.txid, some entry.height)
      | _ => none)

def claimsForPreimage (self : ChannelMonitorImpl) (preimage : PaymentPreimage) :
    Except Panic (List PackageTemplate) :=
  match self.confirmedSpendInfo with
  | none => .ok []
  | some (confirmedTxid, confirmedHeight) => do
    let funding ← self.getConfirmedFundingScope
    if funding.currentCounterpartyCommitmentTxid = some confirmedTxid ∨
        funding.prevCounterpartyCommitmentTxid = some confirmedTxid then
      let number ← match self.counterpartyCommitmentTxnOnChain.lookup confirmedTxid with
        | some number => .ok number
        | none => .error .debugAssertion
      .ok (self.getCounterpartyOutputClaimsForPreimage crypto preimage funding number confirmedTxid
        (funding.counterpartyClaimableOutpoints.lookup confirmedTxid) confirmedHeight)
    else if self.broadcastedHolderRevokableScript.isSome then
      match ([funding.currentHolderCommitmentTx] ++ funding.prevHolderCommitmentTx.toList).find?
          fun tx => tx.txid = confirmedTxid with
      | some holderTx => self.getBroadcastedHolderClaims funding holderTx self.bestBlock.height
      | none => .ok []
    else .ok []

def providePaymentPreimage (self : ChannelMonitorImpl) (paymentHash : PaymentHash)
    (preimage : PaymentPreimage) (paymentInfo : Option PaymentClaimDetails) :
    Except Panic ChannelMonitorImpl := do
  let entry := match self.paymentPreimages.lookup paymentHash with
    | some (preimage, infos) =>
      (preimage, infos ++ paymentInfo.toList.filter fun info => info ∉ infos)
    | none => (preimage, paymentInfo.toList)
  let self := { self with paymentPreimages := self.paymentPreimages.insert paymentHash entry }
  let claims ← self.claimsForPreimage crypto preimage
  .ok { self with claimRequests := self.claimRequests ++ claims }

/-! ### Fundings -/

/-- `promote_funding`; `none` is its error. The funding that was current takes the place of the
promoted one among the pending fundings, which are then dropped. -/
def promoteFunding (newFundingTxid : Txid) : Except Panic (Option ChannelMonitorImpl) :=
  match self.pendingFunding.find? fun funding => funding.fundingTxid = newFundingTxid with
  | none => .ok none
  | some newFunding => do
    let dropped := self.funding ::
      self.pendingFunding.filter fun funding => funding.fundingTxid ≠ newFundingTxid
    Panic.unless (∀ confirmed ∈ self.alternativeFundingConfirmed, confirmed.1 = newFundingTxid)
      .debugAssertion
    .ok (some { self with
      funding := newFunding
      pendingFunding := []
      prevHolderHtlcData :=
        if newFunding.prevHolderCommitmentTx.isNone then none else self.prevHolderHtlcData
      outputsToWatch := dropped.foldl (fun map funding => map.erase funding.fundingTxid)
        self.outputsToWatch
      alternativeFundingConfirmed := none })

end ChannelMonitorImpl

end PqLightning.Monitor
