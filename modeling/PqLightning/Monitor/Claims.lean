import PqLightning.Monitor.State

/-!
# The claims a monitor makes on a commitment

Which outputs of a commitment that was not revoked the monitor asks the claim handler to claim: on
the counterparty's, the HTLCs it has a preimage for and those it offered; on the holder's, the HTLCs
it offered and those it has a preimage for.
-/

namespace PqLightning.Monitor

open AssocMap Chain

namespace ChannelMonitorImpl

variable (self : ChannelMonitorImpl)

def getPointForCommitmentNumber (commitmentNumber : ℕ) : Option PublicKey :=
  match self.theirCurPerCommitmentPoints with
  | none => none
  | some (number, point, nextPoint) =>
    if number = commitmentNumber then some point
    else if number = commitmentNumber + 1 then nextPoint
    else none

variable (funding : FundingScope)

def offeredHtlcClaim (point : PublicKey) (preimage : PaymentPreimage) (commitmentTxid : Txid)
    (index : ℕ) (htlc : HTLCOutputInCommitment) (confirmationHeight : Option ℕ) : PackageTemplate :=
  .buildPackage commitmentTxid index
    (.counterpartyOfferedHTLCOutput point preimage htlc funding.channelParameters
      confirmationHeight)
    htlc.cltvExpiry

def getCounterpartyOutputClaimsForPreimage (crypto : Crypto) (self : ChannelMonitorImpl)
    (preimage : PaymentPreimage) (fundingSpent : FundingScope) (commitmentNumber : ℕ)
    (commitmentTxid : Txid) (perCommitmentOption : Option CommitmentHtlcs)
    (confirmationHeight : Option ℕ) : List PackageTemplate :=
  match perCommitmentOption, self.getPointForCommitmentNumber commitmentNumber with
  | some perCommitmentClaimableData, some point =>
    perCommitmentClaimableData.filterMap fun (htlc, _) =>
      htlc.transactionOutputIndex.bind fun index =>
        if htlc.offered ∧ htlc.paymentHash = crypto.sha256 preimage then
          some (offeredHtlcClaim fundingSpent point preimage commitmentTxid index htlc
            confirmationHeight)
        else none
  | _, _ => []

/-- The output of an HTLC is on the transaction, with its value. -/
def htlcOutputMatches (tx : Transaction) (htlc : HTLCOutputInCommitment) (index : ℕ) : Bool :=
  (tx.output[index]?).any fun output => output.value = htlc.toBitcoinAmount

/-- The HTLCs of a commitment up to the first one whose output does not match. -/
def matchingHtlcs (tx : Transaction) (htlcs : CommitmentHtlcs) : CommitmentHtlcs :=
  htlcs.takeWhile fun (htlc, _) =>
    htlc.transactionOutputIndex.all fun index => htlcOutputMatches tx htlc index

def getCounterpartyOutputClaimInfo (fundingSpent : FundingScope)
    (commitmentNumber : ℕ) (commitmentTxid : Txid) (tx : Transaction)
    (perCommitmentClaimableData : CommitmentHtlcs) (confirmationHeight : Option ℕ) :
    List PackageTemplate :=
  match self.getPointForCommitmentNumber commitmentNumber with
  | none => []
  | some point =>
    (matchingHtlcs tx perCommitmentClaimableData).filterMap fun (htlc, _) =>
      htlc.transactionOutputIndex.bind fun index =>
        if htlc.offered then
          (self.paymentPreimages.lookup htlc.paymentHash).map fun (preimage, _) =>
            offeredHtlcClaim fundingSpent point preimage commitmentTxid index htlc
              confirmationHeight
        else
          some (.buildPackage commitmentTxid index
            (.counterpartyReceivedHTLCOutput point htlc fundingSpent.channelParameters
              confirmationHeight)
            htlc.cltvExpiry)

def holderHtlcClaim (holderTx : CommitmentTransaction) (confHeight : ℕ)
    (htlc : HTLCOutputInCommitment) : Except Panic (Option PackageTemplate) :=
  match htlc.transactionOutputIndex with
  | none => .error .assertion
  | some index =>
    let claim (preimage : Option PaymentPreimage) : PackageTemplate :=
      .buildPackage holderTx.txid index
        (.holderHTLCOutput preimage htlc funding.channelParameters (some confHeight))
        (if htlc.offered then confHeight else htlc.cltvExpiry)
    if htlc.offered then .ok (some (claim none))
    else .ok ((self.paymentPreimages.lookup htlc.paymentHash).map fun p => claim (some p.1))

def getBroadcastedHolderClaims (holderTx : CommitmentTransaction) (confHeight : ℕ) :
    Except Panic (List PackageTemplate) := do
  let claims ← holderTx.nondustHtlcs.mapM (self.holderHtlcClaim funding holderTx confHeight)
  .ok (claims.filterMap id)

end ChannelMonitorImpl

end PqLightning.Monitor
