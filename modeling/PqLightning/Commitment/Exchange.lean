import PqLightning.Commitment.Updates

/-!
# Exchanging commitments

The functions of `ln/channel.rs` that receive a commitment and a revocation, those that generate the
messages which answer them once the monitor update has completed, and those that bring two parties
back into step after they were disconnected.
-/

namespace PqLightning.Commitment

open Handled

/-! ### Receiving a commitment -/

def InboundHTLCState.onCommitmentSigned : InboundHTLCState → InboundHTLCState
  | remoteAnnounced resolution => awaitingRemoteRevokeToAnnounce resolution
  | state => state

def OutboundHTLCState.onCommitmentSigned : OutboundHTLCState → OutboundHTLCState
  | remoteRemoved outcome => awaitingRemoteRevokeToRemove outcome
  | state => state

def InboundHTLCState.isRemoteAnnounced : InboundHTLCState → Bool
  | remoteAnnounced _ => true
  | _ => false

def OutboundHTLCState.isRemoteRemoved : OutboundHTLCState → Bool
  | remoteRemoved _ => true
  | _ => false

variable (crypto : Crypto) (feeEstimator : FeeEstimator) (self : FundedChannel)

def HolderCommitmentPoint.advance (commitmentSeed : Bytes32) (self : HolderCommitmentPoint) :
    Except Panic HolderCommitmentPoint := do
  let nextTransactionNumber ← subU64 self.nextTransactionNumber 1
  let pendingNumber ← subU64 nextTransactionNumber 1
  return {
    nextTransactionNumber
    previousRevokedPoint := self.lastRevokedPoint
    lastRevokedPoint := self.currentPoint
    currentPoint := some self.nextPoint
    nextPoint := self.pendingNextPoint
    pendingNextPoint := perCommitmentPoint crypto commitmentSeed pendingNumber }

namespace FundedChannel

/-- If our counterparty updated the channel fee in this commitment transaction, check that they can
actually afford the new fee now. -/
def validatePendingUpdateFee : Handled ChannelError Unit :=
  match self.pendingUpdateFee with
  | some (newFeeratePerKw, .remoteAnnounced) => do
    lift (Panic.unless (!self.params.isOutboundFromHolder) .debugAssertion)
    self.validateUpdateFee feeEstimator newFeeratePerKw
  | _ => .ok ()

def validateCommitmentSigned (msg : CommitmentSigned) : Handled ChannelError Unit := do
  let tx ← lift (self.buildCommitmentTransaction self.holderCommitmentPoint.nextTransactionNumber
    self.holderCommitmentPoint.nextPoint true false)
  check (tx.hasOutputs self.params.channelType) (.close "Commitment tx from peer has 0 outputs")
  check (crypto.verify tx msg.signature) (.close "Invalid commitment tx signature from peer")
  self.validatePendingUpdateFee feeEstimator
  let got := msg.htlcSignatures.length
  let needed := tx.nondustHtlcs.length
  check (got = needed)
    (.close s!"Got wrong number of HTLC signatures ({got}) from remote. It must be {needed}")
  check (∀ p ∈ tx.nondustHtlcs.zip msg.htlcSignatures, crypto.verifyHtlc tx p.1 p.2)
    (.close "Invalid HTLC tx signature from peer")

def commitmentSignedCheckState : Handled ChannelError Unit := do
  check (!self.channelState.isQuiescent)
    (.warnAndDisconnect "Got commitment_signed message while quiescent")
  check self.channelState.isChannelReady
    (.close "Got commitment signed message when channel was not in an operational state")
  check (!self.channelState.isPeerDisconnected)
    (.close "Peer sent commitment_signed when we needed a channel_reestablish")
  check (!(self.channelState.isBothSidesShutdown && self.closingFeeSent))
    (.close "Peer sent commitment_signed after we'd started exchanging closing_signeds")

/-- Whether a commitment of the counterparty has updates that we have to commit to in turn. -/
def needCommitment : Bool :=
  self.pendingUpdateFee.any (·.2 == .remoteAnnounced) ||
    self.pendingInboundHtlcs.any (·.state.isRemoteAnnounced) ||
    self.pendingOutboundHtlcs.any (·.state.isRemoteRemoved)

/-- The updates of states that go with a commitment of the counterparty. -/
def promoteForCommitmentSigned : FundedChannel :=
  { self with
    pendingInboundHtlcs := mapInbound .onCommitmentSigned self.pendingInboundHtlcs
    pendingOutboundHtlcs := mapOutbound .onCommitmentSigned self.pendingOutboundHtlcs
    pendingUpdateFee := self.pendingUpdateFee.map fun
      | (feerate, .remoteAnnounced) => (feerate, .awaitingRemoteRevokeToAnnounce)
      | pending => pending
    -- reset if we generate a commitment in answer
    resendOrder := .commitmentFirst }

def commitmentSignedUpdateMonitor : Except Panic FundedChannel := do
  let holderCommitmentPoint ←
    self.holderCommitmentPoint.advance crypto self.params.commitmentSeed
  let commit := self.needCommitment && !self.channelState.isAwaitingRemoteRevoke
  let self := { self.promoteForCommitmentSigned with holderCommitmentPoint }
  if self.channelState.isMonitorUpdateInProgress then
    let self := { self with monitorPendingRevokeAndAck := true }
    if commit then buildCommitmentNoStatusCheck { self with monitorPendingCommitmentSigned := true }
    else return self
  else if commit then return (← self.buildCommitmentNoStatusCheck).monitorUpdatingPaused true true
  else return self.monitorUpdatingPaused true false

def commitmentSigned (msg : CommitmentSigned) : Handled ChannelError FundedChannel := do
  self.commitmentSignedCheckState
  self.validateCommitmentSigned crypto feeEstimator msg
  lift (self.commitmentSignedUpdateMonitor crypto)

end FundedChannel

/-! ### Receiving a revocation -/

def InboundHTLCState.onRevokeAndAck : InboundHTLCState → InboundHTLCState
  | awaitingRemoteRevokeToAnnounce resolution => awaitingAnnouncedRemoteRevoke resolution
  | awaitingAnnouncedRemoteRevoke (.resolved (.fail contents)) => contents.toInboundHtlcState
  | awaitingAnnouncedRemoteRevoke (.resolved .forward) => committed
  | awaitingAnnouncedRemoteRevoke .pending => committed
  | state => state

def OutboundHTLCState.onRevokeAndAck : OutboundHTLCState → OutboundHTLCState
  | localAnnounced => committed
  | awaitingRemoteRevokeToRemove outcome => awaitingRemovedRemoteRevoke outcome
  | state => state

def InboundHTLCState.isLocalRemoved : InboundHTLCState → Bool
  | localRemoved _ => true
  | _ => false

def OutboundHTLCState.isAwaitingRemovedRemoteRevoke : OutboundHTLCState → Bool
  | awaitingRemovedRemoteRevoke _ => true
  | _ => false

def InboundHTLCState.requiresCommitment : InboundHTLCState → Bool
  | awaitingRemoteRevokeToAnnounce _ => true
  | awaitingAnnouncedRemoteRevoke (.resolved (.fail _)) => true
  | _ => false

def OutboundHTLCState.requiresCommitment : OutboundHTLCState → Bool
  | awaitingRemoteRevokeToRemove _ => true
  | _ => false

/-- `x as u64`, of an `i64`. -/
def asU64 (x : ℤ) : ℕ := (x % 2 ^ 64).toNat

namespace FundedChannel

variable (self : FundedChannel)

/-- What the HTLCs that are dropped on a revocation change about our balance. -/
def valueToSelfMsatDiff : ℤ :=
  ((self.pendingInboundHtlcs.filter fun htlc =>
      htlc.state.isLocalRemoved && htlc.state.preimage.isSome).map fun htlc =>
        asI64 htlc.amountMsat).sum -
    ((self.pendingOutboundHtlcs.filter fun htlc =>
      htlc.state.isAwaitingRemovedRemoteRevoke && htlc.state.preimage.isSome).map fun htlc =>
        asI64 htlc.amountMsat).sum

/-- Whether a revocation lets updates get so far that we have to commit to them. -/
def requireCommitment : Bool :=
  self.pendingInboundHtlcs.any (·.state.requiresCommitment) ||
    self.pendingOutboundHtlcs.any (·.state.requiresCommitment) || self.awaitsToAnnounceFee

/-- The updates of states that go with a revocation by the counterparty. -/
def promoteForRevokeAndAck : FundedChannel :=
  { self with
    pendingInboundHtlcs := mapInbound .onRevokeAndAck
      (self.pendingInboundHtlcs.filter fun htlc => !htlc.state.isLocalRemoved)
    pendingOutboundHtlcs := mapOutbound .onRevokeAndAck
      (self.pendingOutboundHtlcs.filter fun htlc => !htlc.state.isAwaitingRemovedRemoteRevoke)
    valueToSelfMsat := asU64 (asI64 self.valueToSelfMsat + self.valueToSelfMsatDiff)
    feeratePerKw := match self.pendingUpdateFee with
      | some (feerate, .outbound) | some (feerate, .awaitingRemoteRevokeToAnnounce) => feerate
      | _ => self.feeratePerKw
    pendingUpdateFee := match self.pendingUpdateFee with
      | some (_, .outbound) | some (_, .awaitingRemoteRevokeToAnnounce) => none
      | pending => pending }

variable (crypto : Crypto)

def revokeAndAckCheck (self : FundedChannel) (msg : RevokeAndACK) : Handled ChannelError Unit := do
  check (!self.channelState.isQuiescent)
    (.warnAndDisconnect "Got revoke_and_ack message while quiescent")
  check self.channelState.isChannelReady
    (.close "Got revoke/ACK message when channel was not in an operational state")
  check (!self.channelState.isPeerDisconnected)
    (.close "Peer sent revoke_and_ack when we needed a channel_reestablish")
  check (!(self.channelState.isBothSidesShutdown && self.closingFeeSent))
    (.close "Peer sent revoke_and_ack after we'd started exchanging closing_signeds")
  check (crypto.isSecretKey msg.perCommitmentSecret)
    (.close "Peer provided an invalid per_commitment_secret")
  check (self.counterpartyCurrentCommitmentPoint.all
      (crypto.publicKey msg.perCommitmentSecret == ·))
    (.close "Got a revoke commitment secret which didn't correspond to their current pubkey")
  check self.channelState.isAwaitingRemoteRevoke
    (.close "Received an unexpected revoke_and_ack")

/-- The assertions on a pending update of the feerate: only the funder's counterparty receives one.
-/
def feeUpdateMatchesFunder : Bool :=
  match self.pendingUpdateFee with
  | some (_, .outbound) => self.params.isOutboundFromHolder
  | some _ => !self.params.isOutboundFromHolder
  | none => true

def revokeAndAck (feeEstimator : FeeEstimator) (self : FundedChannel)
    (msg : RevokeAndACK) : Handled ChannelError FundedChannel := do
  self.revokeAndAckCheck crypto msg
  let number := self.counterpartyNextCommitmentTransactionNumber + 1
  let commitmentSecrets ← orRefuse
    (self.commitmentSecrets.provideSecret crypto.sha256 number msg.perCommitmentSecret).toOption
    (.close "Previous secrets did not match new one")
  let counterpartyNextCommitmentTransactionNumber ←
    lift (subU64 self.counterpartyNextCommitmentTransactionNumber 1)
  lift (Panic.unless self.feeUpdateMatchesFunder .debugAssertion)
  let requireCommitment := self.requireCommitment
  let self := { self.promoteForRevokeAndAck with
    commitmentSecrets
    counterpartyNextCommitmentTransactionNumber
    channelState := self.channelState.setAwaitingRemoteRevoke false
    counterpartyCurrentCommitmentPoint := self.counterpartyNextCommitmentPoint
    counterpartyNextCommitmentPoint := some msg.nextPerCommitmentPoint }
  let (self, freed) ← lift (self.maybeFreeHoldingCellHtlcs crypto feeEstimator)
  if freed then return self.monitorUpdatingPaused false true
  else if requireCommitment then
    let self ← lift self.buildCommitmentNoStatusCheck
    return self.monitorUpdatingPaused false true
  else return self.monitorUpdatingPaused false false

/-! ### Answering -/

def getLastRevokeAndAck (self : FundedChannel) : Except Panic RevokeAndACK := do
  let number := self.holderCommitmentPoint.nextTransactionNumber
  Panic.unless (number ≤ initialCommitmentNumber - 2) .debugAssertion
  return {
    perCommitmentSecret :=
      buildCommitmentSecret crypto.sha256 self.params.commitmentSeed (number + 2)
    nextPerCommitmentPoint := self.holderCommitmentPoint.nextPoint }

def updateAddHtlcs : List Message :=
  self.pendingOutboundHtlcs.filterMap fun htlc =>
    match htlc.state with
    | .localAnnounced => some (.updateAddHtlc htlc.toHtlc)
    | _ => none

def updateFulfillHtlcs : List Message :=
  self.pendingInboundHtlcs.filterMap fun htlc =>
    match htlc.state with
    | .localRemoved (.fulfill preimage) => some (.updateFulfillHtlc htlc.htlcId preimage)
    | _ => none

def updateFailHtlcs : List Message :=
  self.pendingInboundHtlcs.filterMap fun htlc =>
    match htlc.state with
    | .localRemoved (.failRelay errPacket) => some (.updateFailHtlc htlc.htlcId errPacket)
    | _ => none

def updateFailMalformedHtlcs : List Message :=
  self.pendingInboundHtlcs.filterMap fun htlc =>
    match htlc.state with
    | .localRemoved (.failMalformed sha256OfOnion failureCode) =>
      some (.updateFailMalformedHtlc htlc.htlcId sha256OfOnion failureCode)
    | _ => none

def updateFees : List Message :=
  if self.params.isOutboundFromHolder then
    (self.pendingUpdateFee.map fun pending => Message.updateFee pending.1).toList
  else []

/-- The updates that our latest commitment covers, in the order in which they are sent. -/
def updateMessages : List Message :=
  self.updateAddHtlcs ++ self.updateFulfillHtlcs ++ self.updateFailHtlcs ++
    self.updateFailMalformedHtlcs ++ self.updateFees

def sendCommitmentNoStateUpdate : Except Panic CommitmentSigned := do
  let tx ← self.buildCommitmentNoStateUpdate
  return { signature := tx, htlcSignatures := tx.nondustHtlcs }

def getLastCommitmentUpdateForSend : Except Panic (List Message) := do
  let commitmentSigned ← self.sendCommitmentNoStateUpdate
  return self.updateMessages ++ [.commitmentSigned commitmentSigned]

def orderMessages (order : RAACommitmentOrder) (raa : Option RevokeAndACK)
    (commitmentUpdate : List Message) : List Message :=
  let raa := (raa.map Message.revokeAndAck).toList
  match order with
  | .revokeAndAckFirst => raa ++ commitmentUpdate
  | .commitmentFirst => commitmentUpdate ++ raa

def pendingRevokeAndAck (self : FundedChannel) : Except Panic (Option RevokeAndACK) :=
  if self.monitorPendingRevokeAndAck then (self.getLastRevokeAndAck crypto).map some else .ok none

def pendingCommitmentUpdate : Except Panic (List Message) :=
  if self.monitorPendingCommitmentSigned then self.getLastCommitmentUpdateForSend else .ok []

/-- The latest monitor update has completed. Returns the messages it held back. -/
def monitorUpdatingRestored (self : FundedChannel) :
    Except Panic (FundedChannel × List Message) := do
  Panic.unless self.channelState.isMonitorUpdateInProgress .assertion
  let restored := { self with
    channelState := self.channelState.setMonitorUpdateInProgress false
    monitorPendingRevokeAndAck := false
    monitorPendingCommitmentSigned := false }
  if self.channelState.isPeerDisconnected then return (restored, [])
  let raa ← self.pendingRevokeAndAck crypto
  let commitmentUpdate ← self.pendingCommitmentUpdate
  return (restored, orderMessages self.resendOrder raa commitmentUpdate)

/-! ### Reconnecting -/

/-- Removes any uncommitted inbound HTLCs and resets the state of uncommitted outbound HTLC updates,
to be used on peer disconnection. -/
def removeUncommittedHtlcsAndMarkPaused : Except Panic FundedChannel := do
  Panic.unless (self.channelState ≠ .shutdownComplete) .assertion
  if self.channelState.isPeerDisconnected then return self
  let inboundDropCount := self.pendingInboundHtlcs.countP (·.state.isRemoteAnnounced)
  let nextCounterpartyHtlcId ← subU64 self.nextCounterpartyHtlcId inboundDropCount
  Panic.unless (self.pendingUpdateFee.any (·.2 == .remoteAnnounced) →
    !self.params.isOutboundFromHolder) .debugAssertion
  return { self with
    closingFeeSent := false
    pendingInboundHtlcs := self.pendingInboundHtlcs.filter fun htlc => !htlc.state.isRemoteAnnounced
    nextCounterpartyHtlcId
    pendingUpdateFee := match self.pendingUpdateFee with
      | some (_, .remoteAnnounced) => none
      | pending => pending
    pendingOutboundHtlcs := mapOutbound
      (fun state => if state.isRemoteRemoved then .committed else state) self.pendingOutboundHtlcs
    channelState := self.channelState.setPeerDisconnected true }

def ourCommitmentTransaction : ℕ :=
  initialCommitmentNumber - (self.holderCommitmentPoint.nextTransactionNumber + 1)

def checkGivenSecret (point : Option PublicKey) (secret : Bytes32) : Handled ChannelError Unit := do
  let expected ← lift (unwrap point)
  check (expected = crypto.publicKey secret)
    (.close
      ("Peer sent a garbage channel_reestablish with secret key not matching the commitment " ++
       "height provided"))

/-- The peer has to prove how many of our commitments we have revoked to it. -/
def checkLastSecret (self : FundedChannel) (msg : ChannelReestablish) :
    Handled ChannelError Unit := do
  let ours := self.ourCommitmentTransaction
  let theirs := msg.nextRemoteCommitmentNumber
  let secret := msg.yourLastPerCommitmentSecret
  if theirs = 0 then return ()
  check (crypto.isSecretKey secret)
    (.close "Peer sent a garbage channel_reestablish with unparseable secret key")
  if ours < theirs then
    check (perCommitmentPoint crypto self.params.commitmentSeed
        (initialCommitmentNumber - theirs + 1) = crypto.publicKey secret)
      (.close
        "Peer sent a channel_reestablish indicating we're stale with an invalid commitment secret")
    -- we have received proof that we have fallen behind
    .error (.panic .unreachable)
  else if theirs = ours then
    checkGivenSecret crypto self.holderCommitmentPoint.lastRevokedPoint secret
  else if theirs + 1 = ours then
    checkGivenSecret crypto self.holderCommitmentPoint.previousRevokedPoint secret
  else return ()

def channelReestablishCheck (self : FundedChannel) (msg : ChannelReestablish) :
    Handled ChannelError Unit := do
  check self.channelState.isPeerDisconnected
    (.close "Peer sent a loose channel_reestablish not after reconnect")
  check (msg.nextLocalCommitmentNumber ≠ 0 ∧
      msg.nextLocalCommitmentNumber < initialCommitmentNumber ∧
      msg.nextRemoteCommitmentNumber < initialCommitmentNumber)
    (.close "Peer sent an invalid channel_reestablish to force close in a non-standard way")
  self.checkLastSecret crypto msg
  let ours := self.ourCommitmentTransaction
  let theirs := msg.nextRemoteCommitmentNumber
  check (ours ≤ theirs + 1)
    (.warn
      ("Peer attempted to reestablish channel with a very old local commitment transaction: " ++
       s!"{theirs} (received) vs {ours} (expected)"))

structure ReestablishResponses where
  raa : Option RevokeAndACK
  commitmentUpdate : List Message
  commitmentOrder : RAACommitmentOrder

def requiredRevoke (self : FundedChannel) (msg : ChannelReestablish) :
    Handled ChannelError (FundedChannel × Option RevokeAndACK) :=
  let ours := self.ourCommitmentTransaction
  let theirs := msg.nextRemoteCommitmentNumber
  if theirs = ours then .ok ({ self with monitorPendingRevokeAndAck := false }, none)
  else if theirs + 1 = ours then
    if self.channelState.isMonitorUpdateInProgress then
      .ok ({ self with monitorPendingRevokeAndAck := true }, none)
    else do
      let raa ← lift (self.getLastRevokeAndAck crypto)
      return (self, some raa)
  else .error (.panic .debugAssertion)

def nextCounterpartyCommitmentNumber : ℕ :=
  initialCommitmentNumber - self.counterpartyNextCommitmentTransactionNumber +
    if self.channelState.isAwaitingRemoteRevoke then 1 else 0

def channelReestablish (self : FundedChannel) (msg : ChannelReestablish) :
    Handled ChannelError (FundedChannel × ReestablishResponses) := do
  self.channelReestablishCheck crypto msg
  let self := { self with channelState := self.channelState.setPeerDisconnected false }
  let (self, raa) ← self.requiredRevoke crypto msg
  let nextCounterpartyCommitmentNumber := self.nextCounterpartyCommitmentNumber
  let theirs := msg.nextLocalCommitmentNumber
  if theirs = nextCounterpartyCommitmentNumber then
    return ({ self with monitorPendingCommitmentSigned := false },
      { raa, commitmentUpdate := [], commitmentOrder := self.resendOrder })
  else if theirs = nextCounterpartyCommitmentNumber - 1 then
    if self.channelState.isMonitorUpdateInProgress then
      return ({ self with monitorPendingCommitmentSigned := true },
        { raa := none, commitmentUpdate := [], commitmentOrder := self.resendOrder })
    else
      let commitmentUpdate ← lift self.getLastCommitmentUpdateForSend
      return (self, { raa, commitmentUpdate, commitmentOrder := self.resendOrder })
  else if theirs < nextCounterpartyCommitmentNumber then
    refuse (.close
      ("Peer attempted to reestablish channel with a very old remote commitment transaction: " ++
       s!"{theirs} (received) vs {nextCounterpartyCommitmentNumber} (expected)"))
  else
    refuse (.close
      ("Peer attempted to reestablish channel with a future remote commitment transaction: " ++
       s!"{theirs} (received) vs {nextCounterpartyCommitmentNumber} (expected)"))

end FundedChannel

end PqLightning.Commitment
