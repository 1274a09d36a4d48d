import PqLightning.TxBuilder.Fees

/-!
# The state of a funded channel

The states and flags of `ln/channel.rs` that several parts of the channel read, and the errors its
handlers return. A flag of the source is a bit of a number; here it is a field. The feerate the
counterparty proposes is checked against an estimate, which is a parameter.
-/

namespace PqLightning

/-- Flags that apply to all states in which the channel is funded. -/
structure FundedStateFlags where
  /-- No updates are allowed until after we've done a `channel_reestablish` dance. -/
  peerDisconnected : Bool
  /-- A `ChannelMonitor` update is pending async persistence. -/
  monitorUpdateInProgress : Bool
  (remoteShutdownSent localShutdownSent : Bool)
deriving DecidableEq, Repr

structure ChannelReadyFlags extends FundedStateFlags where
  /-- We have sent a `commitment_signed` but are awaiting the responding `revoke_and_ack`. -/
  awaitingRemoteRevoke : Bool
  (localStfuSent remoteStfuSent quiescent : Bool)
deriving DecidableEq, Repr

inductive ChannelState where
  | fundingNegotiated (flags : FundedStateFlags)
  | awaitingChannelReady (flags : FundedStateFlags)
  | channelReady (flags : ChannelReadyFlags)
  | shutdownComplete
deriving DecidableEq, Repr

namespace ChannelState

def fundedStateFlags : ChannelState → FundedStateFlags
  | fundingNegotiated flags | awaitingChannelReady flags => flags
  | channelReady flags => flags.toFundedStateFlags
  | shutdownComplete => ⟨false, false, false, false⟩

variable (self : ChannelState)

def isPeerDisconnected : Bool := self.fundedStateFlags.peerDisconnected

def isMonitorUpdateInProgress : Bool := self.fundedStateFlags.monitorUpdateInProgress

def isBothSidesShutdown : Bool :=
  self.fundedStateFlags.localShutdownSent && self.fundedStateFlags.remoteShutdownSent

def isRemoteStfuSent : ChannelState → Bool
  | channelReady flags => flags.remoteStfuSent
  | _ => false

def isQuiescent : ChannelState → Bool
  | channelReady flags => flags.quiescent
  | _ => false

def isChannelReady : ChannelState → Bool
  | channelReady _ => true
  | _ => false

def isLocalShutdownSent : Bool := self.fundedStateFlags.localShutdownSent

def isRemoteShutdownSent : Bool := self.fundedStateFlags.remoteShutdownSent

def isAwaitingRemoteRevoke : ChannelState → Bool
  | channelReady flags => flags.awaitingRemoteRevoke
  | _ => false

def canGenerateNewCommitment : ChannelState → Bool
  | channelReady flags => !flags.awaitingRemoteRevoke && !flags.localStfuSent && !flags.quiescent &&
      !flags.monitorUpdateInProgress && !flags.peerDisconnected
  | _ => false

def modifyFunded (f : FundedStateFlags → FundedStateFlags) : ChannelState → ChannelState
  | fundingNegotiated flags => fundingNegotiated (f flags)
  | awaitingChannelReady flags => awaitingChannelReady (f flags)
  | channelReady flags =>
    channelReady { flags with toFundedStateFlags := f flags.toFundedStateFlags }
  | shutdownComplete => shutdownComplete

def setPeerDisconnected (value : Bool) : ChannelState → ChannelState :=
  modifyFunded fun flags => { flags with peerDisconnected := value }

def setMonitorUpdateInProgress (value : Bool) : ChannelState → ChannelState :=
  modifyFunded fun flags => { flags with monitorUpdateInProgress := value }

def setAwaitingRemoteRevoke (value : Bool) : ChannelState → ChannelState
  | channelReady flags => channelReady { flags with awaitingRemoteRevoke := value }
  | state => state

def setOtherFlags
    (localShutdownSent remoteShutdownSent localStfuSent remoteStfuSent quiescent : Bool) :
    ChannelState :=
  match self with
  | channelReady flags => channelReady { flags with
      localShutdownSent, remoteShutdownSent, localStfuSent, remoteStfuSent, quiescent }
  | state => state

section Flags

variable (state : ChannelState) (value : Bool)

@[simp] theorem isAwaitingRemoteRevoke_setPeerDisconnected :
    (state.setPeerDisconnected value).isAwaitingRemoteRevoke = state.isAwaitingRemoteRevoke := by
  cases state <;> rfl

@[simp] theorem isAwaitingRemoteRevoke_setMonitorUpdateInProgress :
    (state.setMonitorUpdateInProgress value).isAwaitingRemoteRevoke =
      state.isAwaitingRemoteRevoke := by
  cases state <;> rfl

@[simp] theorem isAwaitingRemoteRevoke_setOtherFlags (a b c d e : Bool) :
    (state.setOtherFlags a b c d e).isAwaitingRemoteRevoke = state.isAwaitingRemoteRevoke := by
  cases state <;> rfl

theorem not_awaiting_of_canGenerateNewCommitment {state : ChannelState}
    (h : state.canGenerateNewCommitment) : state.isAwaitingRemoteRevoke = false := by
  cases state with
  | channelReady flags =>
    simp only [canGenerateNewCommitment, Bool.and_eq_true, Bool.not_eq_true'] at h
    exact h.1.1.1.1
  | fundingNegotiated | awaitingChannelReady | shutdownComplete => cases h

end Flags

end ChannelState

inductive FeeUpdateState where
  /-- Inbound: we are the fundee, and have received `update_fee`. -/
  | remoteAnnounced
  /-- Inbound: it is in our commitment, and we have yet to commit to it. -/
  | awaitingRemoteRevokeToAnnounce
  /-- Outbound: we are the funder, and have sent `update_fee`. -/
  | outbound
deriving DecidableEq, Repr

inductive ChannelError where
  | ignore (msg : String)
  | warn (msg : String)
  | warnAndDisconnect (msg : String)
  | close (msg : String)
deriving DecidableEq, Repr

/-- The bounded estimates of the feerate for the confirmation targets that a channel asks for. -/
structure FeeEstimator where
  (maximumFeeEstimate channelCloseMinimum nonAnchorChannelFee minAllowedAnchorChannelRemoteFee
    minAllowedNonAnchorChannelRemoteFee : UInt32)
deriving DecidableEq, Repr

def FeeEstimator.checkRemoteFee (self : FeeEstimator) (channelType : ChannelTypeFeatures)
    (feeratePerKw : UInt32) (curFeeratePerKw : Option UInt32) : Except ChannelError Unit :=
  if channelType.supportsAnchorZeroFeeCommitments then
    if feeratePerKw ≠ 0 then .error (.close "Zero Fee Channels must never attempt to use a fee")
    else .ok ()
  else
    let lowerLimit :=
      if channelType.supportsAnchorsZeroFeeHtlcTx then self.minAllowedAnchorChannelRemoteFee
      else self.minAllowedNonAnchorChannelRemoteFee
    if feeratePerKw < lowerLimit then if curFeeratePerKw.any (· < feeratePerKw) then .ok ()
      else
        let actual := feeratePerKw.toNat
        let limit := lowerLimit.toNat
        .error (.close
          s!"Peer's feerate much too low. Actual: {actual}. Our expected lower limit: {limit}")
    else .ok ()

end PqLightning
