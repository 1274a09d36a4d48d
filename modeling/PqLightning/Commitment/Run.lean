import PqLightning.Commitment.Steps

/-!
# Runs of a channel

What can happen to a channel: its holder calls one of its functions, a message of the counterparty
arrives, or the connection is lost and comes back. A call that is refused leaves the channel as it
was. Nothing is assumed about the messages.

Monitor updates complete at any time after they were started, which is when what they held back is
sent.
-/

namespace PqLightning.Commitment

/-- What a call comes to: a refusal is no panic, and changes nothing. -/
def Handled.outcome {ε α : Type} : Handled ε α → Except Panic (Option α)
  | .ok a => .ok (some a)
  | .error (.refused _) => .ok none
  | .error (.panic panic) => .error panic

@[simp] theorem Handled.outcome_eq_some {ε α : Type} {x : Handled ε α} {a : α} :
    x.outcome = .ok (some a) ↔ x = .ok a := by
  match x with
  | .ok b => simp [outcome]
  | .error (.refused e) => simp [outcome]
  | .error (.panic panic) => simp [outcome]

@[simp] theorem Handled.outcome_eq_error {ε α : Type} {x : Handled ε α} {panic : Panic} :
    x.outcome = .error panic ↔ x = .error (.panic panic) := by
  match x with
  | .ok b => simp [outcome]
  | .error (.refused e) => simp [outcome]
  | .error (.panic panic) => simp [outcome]

inductive Action where
  | sendHtlc (amountMsat cltvExpiry : ℕ) (paymentHash : Bytes32) (forceHoldingCell : Bool)
  | fulfillHtlc (htlcId : ℕ) (paymentPreimage : Bytes32)
  | failHtlc (htlcId : ℕ) (errContents : FailHTLCContents) (forceHoldingCell : Bool)
  | sendUpdateFee (feeratePerKw : UInt32) (forceHoldingCell : Bool)
  /-- Commits to the updates so far, if no revocation is awaited. -/
  | commit
  | freeHoldingCell
  /-- Some other part of the channel starts a monitor update. -/
  | monitorPaused
  | monitorRestored
  /-- Some other part of the channel changes the flags that are its own. -/
  | setFlags (localShutdownSent remoteShutdownSent localStfuSent remoteStfuSent quiescent
      closingFeeSent : Bool)

inductive Event where
  | act (action : Action)
  | receive (msg : Message)
  | disconnect
  | reestablish (msg : ChannelReestablish)

variable (crypto : Crypto) (feeEstimator : FeeEstimator) (self : FundedChannel)

namespace FundedChannel

def handle : Message → Handled ChannelError FundedChannel
  | .updateAddHtlc htlc => self.updateAddHtlc feeEstimator htlc
  | .updateFulfillHtlc htlcId preimage => self.updateFulfillHtlc crypto htlcId preimage
  | .updateFailHtlc htlcId reason => self.updateFailHtlc crypto htlcId (.lightningError reason)
  | .updateFailMalformedHtlc htlcId sha256OfOnion failureCode => do
    Handled.check (failureCode.testBit 15)
      (.close "Got update_fail_malformed_htlc with BADONION not set")
    self.updateFailMalformedHtlc crypto htlcId (.reason failureCode sha256OfOnion)
  | .updateFee feerate => self.updateFee feeEstimator feerate
  | .commitmentSigned msg => self.commitmentSigned crypto feeEstimator msg
  | .revokeAndAck msg => self.revokeAndAck crypto feeEstimator msg

def commit : Except Panic (Option FundedChannel) :=
  if self.channelState.isChannelReady && !self.channelState.isAwaitingRemoteRevoke then
    self.buildCommitmentNoStatusCheck.map fun self => some (self.monitorUpdatingPaused false true)
  else .ok none

def act : Action → Except Panic (Option (FundedChannel × List Message))
  | .sendHtlc amountMsat cltvExpiry paymentHash force =>
    quietly (Handled.outcome
      ((self.sendHtlc feeEstimator amountMsat cltvExpiry paymentHash force).map Prod.fst))
  | .fulfillHtlc htlcId preimage =>
    quietly ((self.getUpdateFulfillHtlc crypto htlcId preimage).map fun r => some r.1)
  | .failHtlc htlcId contents force =>
    quietly (Handled.outcome ((self.failHtlc htlcId contents force).map Prod.fst))
  | .sendUpdateFee feerate force =>
    quietly ((self.sendUpdateFee feeEstimator feerate force).map fun r => some r.1)
  | .commit => quietly self.commit
  | .freeHoldingCell =>
    quietly ((self.maybeFreeHoldingCellHtlcs crypto feeEstimator).map fun r => some r.1)
  | .monitorPaused => quietly (.ok (some (self.monitorUpdatingPaused false false)))
  | .monitorRestored => (self.monitorUpdatingRestored crypto).map some
  | .setFlags localShutdownSent remoteShutdownSent localStfuSent remoteStfuSent quiescent
      closingFeeSent =>
    quietly (.ok (some { self with
      channelState := self.channelState.setOtherFlags localShutdownSent remoteShutdownSent
        localStfuSent remoteStfuSent quiescent
      closingFeeSent }))
where
  /-- No message is sent: that is for when the monitor update completes. -/
  quietly (result : Except Panic (Option FundedChannel)) :
      Except Panic (Option (FundedChannel × List Message)) :=
    result.map fun self => self.map fun self => (self, [])

theorem quietly_eq_ok {result : Except Panic (Option FundedChannel)} {self' : FundedChannel}
    {msgs : List Message} (h : act.quietly result = .ok (some (self', msgs))) :
    result = .ok (some self') ∧ msgs = [] := by
  obtain ⟨r, hr, h⟩ := map_eq_ok.mp h
  cases r with
  | none => cases h
  | some r =>
    cases h
    exact ⟨hr, rfl⟩

def step : Event → Except Panic (Option (FundedChannel × List Message))
  | .act action => self.act crypto feeEstimator action
  | .receive msg =>
    Handled.outcome ((self.handle crypto feeEstimator msg).map fun self => (self, []))
  | .disconnect => self.removeUncommittedHtlcsAndMarkPaused.map fun self => some (self, [])
  | .reestablish msg =>
    Handled.outcome ((self.channelReestablish crypto msg).map fun r =>
      (r.1, orderMessages r.2.commitmentOrder r.2.raa r.2.commitmentUpdate))

end FundedChannel

inductive Reachable (crypto : Crypto) (start : FundedChannel) : FundedChannel → Prop
  | start : Reachable crypto start start
  | step {self self' : FundedChannel} {feeEstimator : FeeEstimator} {event : Event}
    {msgs : List Message} (h : Reachable crypto start self)
    (hstep : self.step crypto feeEstimator event = .ok (some (self', msgs))) :
    Reachable crypto start self'

end PqLightning.Commitment
