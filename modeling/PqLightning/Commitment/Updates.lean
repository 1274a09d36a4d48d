import PqLightning.Commitment.Build

/-!
# Updates of a channel

The functions of `ln/channel.rs` that add, claim and fail HTLCs and change the feerate: those the
holder calls, which put an update into the holding cell when it cannot be committed to now, and
those that handle the messages of the counterparty. A commitment to the updates is generated by
`build_commitment_no_status_check`, also when the holding cell is freed.
-/

namespace PqLightning.Commitment

open Handled

def modifyFirst {α : Type} (p : α → Bool) (f : α → α) : List α → List α
  | [] => []
  | a :: l => if p a then f a :: l else a :: modifyFirst p f l

inductive LocalHTLCFailureReason where
  | channelNotReady
  | zeroAmount
  | channelBalanceOverdrawn
  | htlcMinimum
  | htlcMaximum
  | peerOffline
deriving DecidableEq, Repr

inductive UpdateFulfillFetch where
  | newClaim (htlcValueMsat : ℕ) (updateBlocked : Bool)
  | duplicateClaim
deriving DecidableEq, Repr

namespace FundedChannel

/-! ### The holder's updates -/

/-- Adds a pending outbound HTLC. Returns whether it can be sent now: if we cannot commit to it, it
goes into the holding cell. -/
def sendHtlc (feeEstimator : FeeEstimator) (self : FundedChannel) (amountMsat cltvExpiry : ℕ)
    (paymentHash : Bytes32) (forceHoldingCell : Bool) :
    Handled (LocalHTLCFailureReason × String) (FundedChannel × Bool) := do
  check (self.channelState.isChannelReady ∧ !self.channelState.isLocalShutdownSent ∧
      !self.channelState.isRemoteShutdownSent)
    (.channelNotReady,
      "Cannot send HTLC until channel is fully established and we haven't started shutting down")
  check (amountMsat ≠ 0) (.zeroAmount, "Cannot send 0-msat HTLC")
  let availableBalances ← orRefuse
    (← lift (self.getAvailableBalances feeEstimator))
    (.channelBalanceOverdrawn, "Channel balance overdrawn")
  let minimum := availableBalances.nextOutboundHtlcMinimumMsat
  let limit := availableBalances.nextOutboundHtlcLimitMsat
  check (minimum ≤ amountMsat)
    (.htlcMinimum, s!"Cannot send less than our next-HTLC minimum - {minimum} msat")
  check (amountMsat ≤ limit)
    (.htlcMaximum, s!"Cannot send more than our next-HTLC maximum - {limit} msat")
  check (!self.channelState.isPeerDisconnected)
    (.peerOffline, "Cannot send an HTLC while disconnected from channel counterparty")
  if forceHoldingCell || !self.channelState.canGenerateNewCommitment then
    return ({ self with
      holdingCellHtlcUpdates :=
        self.holdingCellHtlcUpdates ++ [.addHtlc amountMsat cltvExpiry paymentHash] }, false)
  else
    return ({ self with
      pendingOutboundHtlcs := self.pendingOutboundHtlcs ++
        [⟨⟨self.nextHolderHtlcId, amountMsat, cltvExpiry, paymentHash⟩, .localAnnounced⟩]
      nextHolderHtlcId := self.nextHolderHtlcId + 1 }, true)

variable (self : FundedChannel)

/-- The update of an HTLC that is in the holding cell, if any: whether it is a claim. -/
def holdingCellResolution (htlcIdArg : ℕ) : Option Bool :=
  self.holdingCellHtlcUpdates.findSome? fun
    | .claimHtlc _ htlcId => if htlcIdArg = htlcId then some true else none
    | .failHtlc htlcId _ | .failMalformedHtlc htlcId _ _ =>
      if htlcIdArg = htlcId then some false else none
    | .addHtlc .. => none

def getUpdateFulfillHtlc (crypto : Crypto) (self : FundedChannel) (htlcIdArg : ℕ)
    (paymentPreimageArg : Bytes32) : Except Panic (FundedChannel × UpdateFulfillFetch) := do
  Panic.unless self.channelState.isChannelReady .unreachable
  match self.pendingInboundHtlcs.find? (·.htlcId == htlcIdArg) with
  | none => return (self, .duplicateClaim)
  | some htlc =>
    Panic.unless (htlc.paymentHash = crypto.sha256 paymentPreimageArg) .debugAssertion
    match htlc.state with
    | .localRemoved (.fulfill _) => return (self, .duplicateClaim)
    | .committed =>
      if !self.channelState.canGenerateNewCommitment then
        match self.holdingCellResolution htlcIdArg with
        | some true => return (self, .duplicateClaim)
        | some false => .error .debugAssertion
        | none =>
          return ({ self with
            holdingCellHtlcUpdates :=
              self.holdingCellHtlcUpdates ++ [.claimHtlc paymentPreimageArg htlcIdArg] },
            .newClaim htlc.amountMsat true)
      else
        return ({ self with
          pendingInboundHtlcs := modifyFirst (·.htlcId == htlcIdArg)
            (fun htlc => { htlc with state := .localRemoved (.fulfill paymentPreimageArg) })
            self.pendingInboundHtlcs },
          .newClaim htlc.amountMsat false)
    -- it was failed already, or is not fully committed to
    | _ => .error .debugAssertion

/-- The loop in `fail_htlc` over the inbound HTLCs from index `idx` on: the last one with the given
identifier, all of which must be committed. -/
def pendingIdx (htlcIdArg : ℕ) :
    List InboundHTLCOutput → (idx : ℕ) → Option ℕ → Handled ChannelError (Option ℕ)
  | [], _, pendingIdx => .ok pendingIdx
  | htlc :: htlcs, idx, found =>
    if htlc.htlcId = htlcIdArg then
      match htlc.state with
      | .committed => pendingIdx htlcIdArg htlcs (idx + 1) (some idx)
      | .localRemoved _ => refuse (.ignore s!"HTLC {htlcIdArg} was already resolved")
      | _ => .error (.panic .debugAssertion)
    else pendingIdx htlcIdArg htlcs (idx + 1) found

def failHtlc (htlcIdArg : ℕ) (errContents : FailHTLCContents)
    (forceHoldingCell : Bool) : Handled ChannelError (FundedChannel × Bool) := do
  lift (Panic.unless self.channelState.isChannelReady .unreachable)
  let idx ← orRefuse (← pendingIdx htlcIdArg self.pendingInboundHtlcs 0 none)
    (.ignore s!"Unable to find a pending HTLC which matched the given HTLC ID ({htlcIdArg})")
  -- only emptying the holding cell does not force it, and that is done when we can commit
  lift (Panic.unless (self.channelState.canGenerateNewCommitment ∨ forceHoldingCell)
    .debugAssertion)
  if forceHoldingCell then
    match self.holdingCellResolution htlcIdArg with
    | some true => refuse (.ignore s!"HTLC {htlcIdArg} was already claimed!")
    | some false => refuse (.ignore s!"HTLC {htlcIdArg} was already pending failure")
    | none =>
      return ({ self with
        holdingCellHtlcUpdates := self.holdingCellHtlcUpdates ++
          [errContents.toHtlcUpdateAwaitingAck htlcIdArg] }, false)
  else
    return ({ self with
      pendingInboundHtlcs := self.pendingInboundHtlcs.modify idx
        fun htlc => { htlc with state := errContents.toInboundHtlcState } }, true)

def isUsable : Bool :=
  self.channelState.isChannelReady && !self.channelState.isLocalShutdownSent &&
    !self.channelState.isRemoteShutdownSent && !self.monitorPendingChannelReady

def isLive : Bool := self.isUsable && !self.channelState.isPeerDisconnected

def sendUpdateFee (feeEstimator : FeeEstimator) (self : FundedChannel) (feeratePerKw : UInt32)
    (forceHoldingCell : Bool) : Except Panic (FundedChannel × Bool) := do
  Panic.unless self.params.isOutboundFromHolder .unreachable
  Panic.unless self.isUsable .unreachable
  Panic.unless self.isLive .unreachable
  Panic.unless (!self.params.channelType.supportsAnchorZeroFeeCommitments) .debugAssertion
  if !(← self.canSendUpdateFee feeEstimator feeratePerKw) then return (self, false)
  if forceHoldingCell || !self.channelState.canGenerateNewCommitment then
    return ({ self with holdingCellUpdateFee := some feeratePerKw }, false)
  else
    Panic.unless self.pendingUpdateFee.isNone .debugAssertion
    return ({ self with pendingUpdateFee := some (feeratePerKw, .outbound) }, true)

/-! ### Committing to updates -/

/-- `unwrap` of a commitment point that the counterparty has to have sent. -/
def counterpartyNextPoint : Except Panic PublicKey := unwrap self.counterpartyNextCommitmentPoint

def buildCommitmentNoStateUpdate : Except Panic CommitmentTransaction := do
  let point ← self.counterpartyNextPoint
  self.buildCommitmentTransaction self.counterpartyNextCommitmentTransactionNumber point false true

end FundedChannel

def InboundHTLCState.onCommitment : InboundHTLCState → InboundHTLCState
  | awaitingRemoteRevokeToAnnounce resolution => awaitingAnnouncedRemoteRevoke resolution
  | state => state

def OutboundHTLCState.onCommitment : OutboundHTLCState → OutboundHTLCState
  | awaitingRemoteRevokeToRemove outcome => awaitingRemovedRemoteRevoke outcome
  | state => state

def mapInbound (f : InboundHTLCState → InboundHTLCState) (htlcs : List InboundHTLCOutput) :
    List InboundHTLCOutput :=
  htlcs.map fun htlc => { htlc with state := f htlc.state }

def mapOutbound (f : OutboundHTLCState → OutboundHTLCState) (htlcs : List OutboundHTLCOutput) :
    List OutboundHTLCOutput :=
  htlcs.map fun htlc => { htlc with state := f htlc.state }

namespace FundedChannel

variable (self : FundedChannel)

/-- The updates of states that go with a new commitment of ours. -/
def promoteForCommitment : FundedChannel :=
  { self with
    pendingInboundHtlcs := mapInbound .onCommitment self.pendingInboundHtlcs
    pendingOutboundHtlcs := mapOutbound .onCommitment self.pendingOutboundHtlcs
    feeratePerKw := match self.pendingUpdateFee with
      | some (feerate, .awaitingRemoteRevokeToAnnounce) => feerate
      | _ => self.feeratePerKw
    pendingUpdateFee := match self.pendingUpdateFee with
      | some (_, .awaitingRemoteRevokeToAnnounce) => none
      | pending => pending
    resendOrder := .revokeAndAckFirst }

/-- Whether we have yet to commit to an update of the feerate by the counterparty. -/
def awaitsToAnnounceFee : Bool := self.pendingUpdateFee.any (·.2 == .awaitingRemoteRevokeToAnnounce)

def buildCommitmentNoStatusCheck : Except Panic FundedChannel := do
  Panic.unless (self.awaitsToAnnounceFee → !self.params.isOutboundFromHolder) .debugAssertion
  let self := self.promoteForCommitment
  let _ ← self.buildCommitmentNoStateUpdate
  return { self with channelState := self.channelState.setAwaitingRemoteRevoke true }

/-- A monitor update is in progress; what it holds back is sent when it completes. -/
def monitorUpdatingPaused (resendRaa resendCommitment : Bool) : FundedChannel :=
  { self with
    monitorPendingRevokeAndAck := self.monitorPendingRevokeAndAck || resendRaa
    monitorPendingCommitmentSigned := self.monitorPendingCommitmentSigned || resendCommitment
    channelState := self.channelState.setMonitorUpdateInProgress true }

variable (crypto : Crypto)

def freeHoldingCellUpdate (feeEstimator : FeeEstimator) (self : FundedChannel) :
    HTLCUpdateAwaitingACK → Except Panic (FundedChannel × Bool)
  | .addHtlc amountMsat cltvExpiry paymentHash =>
    match self.sendHtlc feeEstimator amountMsat cltvExpiry paymentHash false with
    | .ok (self, canAddHtlc) => do
      Panic.unless canAddHtlc .debugAssertion
      return (self, true)
    -- the HTLC is failed backwards
    | .error (.refused _) => .ok (self, false)
    | .error (.panic panic) => .error panic
  | .claimHtlc paymentPreimage htlcId => do
    match ← self.getUpdateFulfillHtlc crypto htlcId paymentPreimage with
    | (self, .newClaim ..) => return (self, true)
    | (_, .duplicateClaim) => .error .unreachable
  | .failHtlc htlcId errPacket => freeFail htlcId (.relay errPacket)
  | .failMalformedHtlc htlcId failureCode sha256OfOnion =>
    freeFail htlcId (.malformed sha256OfOnion failureCode)
where
  freeFail (htlcId : ℕ) (contents : FailHTLCContents) : Except Panic (FundedChannel × Bool) :=
    match self.failHtlc htlcId contents false with
    | .ok (self, failMsg) => do
      Panic.unless failMsg .debugAssertion
      return (self, true)
    | .error (.refused (.ignore _)) => .ok (self, false)
    | .error (.refused _) => .error .unreachable
    | .error (.panic panic) => .error panic

/-- Frees updates of the holding cell one after the other. Returns whether any is to be committed
to. -/
def freeHoldingCellUpdates (crypto : Crypto) (feeEstimator : FeeEstimator) (self : FundedChannel) :
    List HTLCUpdateAwaitingACK → Except Panic (FundedChannel × Bool)
  | [] => .ok (self, false)
  | update :: updates => do
    let (self, freed) ← self.freeHoldingCellUpdate crypto feeEstimator update
    let (self, anyFreed) ← self.freeHoldingCellUpdates crypto feeEstimator updates
    return (self, freed || anyFreed)

variable (feeEstimator : FeeEstimator)

def freeHoldingCellUpdateFee (self : FundedChannel) : Except Panic (FundedChannel × Bool) :=
  match self.holdingCellUpdateFee with
  | some feerate =>
    sendUpdateFee feeEstimator { self with holdingCellUpdateFee := none } feerate false
  | none => .ok (self, false)

def freeHoldingCellHtlcs (feeEstimator : FeeEstimator) (self : FundedChannel) :
    Except Panic (FundedChannel × Bool) := do
  Panic.unless self.channelState.isChannelReady .assertion
  Panic.unless (!self.channelState.isMonitorUpdateInProgress) .assertion
  Panic.unless (!self.channelState.isQuiescent) .assertion
  if self.holdingCellHtlcUpdates.isEmpty && self.holdingCellUpdateFee.isNone then
    return (self, false)
  let (self, freed) ← freeHoldingCellUpdates crypto feeEstimator
    { self with holdingCellHtlcUpdates := [] } self.holdingCellHtlcUpdates
  let (self, updateFee) ← self.freeHoldingCellUpdateFee feeEstimator
  if !freed && !updateFee then return (self, false)
  let self ← self.buildCommitmentNoStatusCheck
  return (self.monitorUpdatingPaused false true, true)

def maybeFreeHoldingCellHtlcs (feeEstimator : FeeEstimator) (self : FundedChannel) :
    Except Panic (FundedChannel × Bool) :=
  if self.channelState.isChannelReady && self.channelState.canGenerateNewCommitment then
    self.freeHoldingCellHtlcs crypto feeEstimator
  else .ok (self, false)

/-! ### The counterparty's updates -/

def updateAddHtlc (self : FundedChannel) (msg : Htlc) : Handled ChannelError FundedChannel := do
  check (!(self.channelState.isRemoteStfuSent || self.channelState.isQuiescent))
    (.warnAndDisconnect "Got add HTLC message while quiescent")
  check self.channelState.isChannelReady
    (.close "Got add HTLC message when channel was not in an operational state")
  check (!self.channelState.isRemoteShutdownSent)
    (.close "Got add HTLC message when channel was not in an operational state")
  check (!self.channelState.isPeerDisconnected)
    (.close "Peer sent update_add_htlc when we needed a channel_reestablish")
  check (msg.amountMsat ≠ 0) (.close "Remote side tried to send a 0-msat HTLC")
  let minimum := self.params.holderHtlcMinimumMsat
  let amount := msg.amountMsat
  check (minimum ≤ amount)
    (.close
      (s!"Remote side tried to send less than our minimum HTLC value. Lower limit: ({minimum}). " ++
       s!"Actual: ({amount})"))
  let nextId := self.nextCounterpartyHtlcId
  check (nextId = msg.htlcId) (.close s!"Remote skipped HTLC ID (skipped ID: {nextId})")
  check (msg.cltvExpiry < 500000000)
    (.close "Remote provided CLTV expiry in seconds instead of block height")
  self.validateUpdateAddHtlc feeEstimator msg
  return { self with
    nextCounterpartyHtlcId := self.nextCounterpartyHtlcId + 1
    pendingInboundHtlcs := self.pendingInboundHtlcs ++ [⟨msg, .remoteAnnounced .pending⟩] }

/-- Marks an outbound HTLC which we have received `update_fail`, `update_fulfill` or
`update_fail_malformed` for. -/
def markOutboundHtlcRemoved (self : FundedChannel) (htlcId : ℕ)
    (outcome : OutboundHTLCOutcome) : Handled ChannelError FundedChannel := do
  let htlc ← orRefuse (self.pendingOutboundHtlcs.find? (·.htlcId == htlcId))
    (.close "Remote tried to fulfill/fail an HTLC we couldn't find")
  check (outcome.preimage.all (crypto.sha256 · == htlc.paymentHash))
    (.close s!"Remote tried to fulfill HTLC ({htlcId}) with an incorrect preimage")
  match htlc.state with
  | .localAnnounced =>
    refuse (.close s!"Remote tried to fulfill/fail HTLC ({htlcId}) before it had been committed")
  | .committed =>
    return { self with
      pendingOutboundHtlcs := modifyFirst (·.htlcId == htlcId)
        (fun htlc => { htlc with state := .remoteRemoved outcome }) self.pendingOutboundHtlcs }
  | _ =>
    refuse
      (.close s!"Remote tried to fulfill/fail HTLC ({htlcId}) that they'd already fulfilled/failed")

/-- Handles a message that removes an HTLC. The three kinds of it differ in what they are called. -/
def updateRemoveHtlc (self : FundedChannel) (kind message : String) (htlcId : ℕ)
    (outcome : OutboundHTLCOutcome) : Handled ChannelError FundedChannel := do
  check (!(self.channelState.isRemoteStfuSent || self.channelState.isQuiescent))
    (.warnAndDisconnect s!"Got {kind} HTLC message while quiescent")
  check self.channelState.isChannelReady
    (.close s!"Got {kind} HTLC message when channel was not in an operational state")
  check (!self.channelState.isPeerDisconnected)
    (.close s!"Peer sent {message} when we needed a channel_reestablish")
  self.markOutboundHtlcRemoved crypto htlcId outcome

def updateFulfillHtlc (self : FundedChannel) (htlcId : ℕ)
    (paymentPreimage : Bytes32) : Handled ChannelError FundedChannel :=
  self.updateRemoveHtlc crypto "fulfill" "update_fulfill_htlc" htlcId (.success paymentPreimage)

def updateFailHtlc (self : FundedChannel) (htlcId : ℕ)
    (failReason : HTLCFailReason) : Handled ChannelError FundedChannel :=
  self.updateRemoveHtlc crypto "fail" "update_fail_htlc" htlcId (.failure failReason)

def updateFailMalformedHtlc (self : FundedChannel) (htlcId : ℕ)
    (failReason : HTLCFailReason) : Handled ChannelError FundedChannel :=
  self.updateRemoveHtlc crypto "fail malformed" "update_fail_malformed_htlc" htlcId
    (.failure failReason)

def updateFee (self : FundedChannel) (feeratePerKw : UInt32) :
    Handled ChannelError FundedChannel := do
  check (!self.params.isOutboundFromHolder)
    (.close "Non-funding remote tried to update channel fee")
  check (!self.channelState.isPeerDisconnected)
    (.close "Peer sent update_fee when we needed a channel_reestablish")
  check (!(self.channelState.isRemoteStfuSent || self.channelState.isQuiescent))
    (.warnAndDisconnect "Got fee update message while quiescent")
  check (!self.params.channelType.supportsAnchorZeroFeeCommitments)
    (.warnAndDisconnect "Update fee message received for zero fee commitment channel")
  (feeEstimator.checkRemoteFee self.params.channelType feeratePerKw
    (some self.feeratePerKw)).mapError
    Failure.refused
  return { self with pendingUpdateFee := some (feeratePerKw, .remoteAnnounced) }

end FundedChannel

end PqLightning.Commitment
