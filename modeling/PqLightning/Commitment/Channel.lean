import PqLightning.ChannelState
import PqLightning.CommitmentSecrets
import PqLightning.TxBuilder.AvailableBalances

/-!
# The HTLCs and commitments of a funded channel

The part of `FundedChannel` in `ln/channel.rs` that updates a channel: the HTLCs it has in each
direction with how far they have got, the updates it has yet to send, and what it knows of its own
and its counterparty's commitments.

An HTLC is known by its identifier, amount, expiry and hash. What the source keeps with it for the
payment (its source, onion, blinding point, timestamps) is left out: no function of this part
decides anything by it. There is no pending splice, and the signer answers at once.

A handler can refuse, which leaves the channel as it was, and it can panic: its result is `Handled`.
-/

namespace PqLightning.Commitment

/-! ### HTLCs -/

structure Htlc where
  (htlcId amountMsat cltvExpiry : ℕ)
  paymentHash : Bytes32
deriving DecidableEq, Repr

inductive FailHTLCContents where
  | relay (errPacket : List UInt8)
  | malformed (sha256OfOnion : Bytes32) (failureCode : ℕ)
deriving DecidableEq, Repr

inductive InboundHTLCRemovalReason where
  | failRelay (errPacket : List UInt8)
  | failMalformed (sha256OfOnion : Bytes32) (failureCode : ℕ)
  | fulfill (preimage : Bytes32)
deriving DecidableEq, Repr

/-- What was decided about an HTLC by a version that decided it on receipt. -/
inductive PendingHTLCStatus where
  | forward
  | fail (contents : FailHTLCContents)
deriving DecidableEq, Repr

inductive InboundHTLCResolution where
  | resolved (pendingHtlcStatus : PendingHTLCStatus)
  | pending
deriving DecidableEq, Repr

inductive InboundHTLCState where
  /-- Offered by remote, to be included in next local commitment tx. -/
  | remoteAnnounced (resolution : InboundHTLCResolution)
  /-- Included in a received `commitment_signed`, but the remote hasn't yet revoked their previous
  state. We have not yet included this HTLC in a `commitment_signed`. -/
  | awaitingRemoteRevokeToAnnounce (resolution : InboundHTLCResolution)
  /-- We have also included this HTLC in our latest `commitment_signed`. -/
  | awaitingAnnouncedRemoteRevoke (resolution : InboundHTLCResolution)
  | committed
  /-- Removed by us. When they next `revoke_and_ack` we'll drop it. -/
  | localRemoved (reason : InboundHTLCRemovalReason)
deriving DecidableEq, Repr

structure InboundHTLCOutput extends Htlc where
  state : InboundHTLCState
deriving DecidableEq, Repr

inductive HTLCFailReason where
  | lightningError (err : List UInt8)
  | reason (failureCode : ℕ) (data : Bytes32)
deriving DecidableEq, Repr

inductive OutboundHTLCOutcome where
  | success (preimage : Bytes32)
  | failure (reason : HTLCFailReason)
deriving DecidableEq, Repr

inductive OutboundHTLCState where
  /-- Added by us. When they next `revoke_and_ack` we will promote to `committed`. -/
  | localAnnounced
  | committed
  /-- Remote removed this HTLC. We're waiting on their `commitment_signed`. -/
  | remoteRemoved (outcome : OutboundHTLCOutcome)
  /-- Remote removed this and sent a `commitment_signed`, but hasn't yet revoked their previous
  state. We have not yet removed this HTLC in a `commitment_signed`. -/
  | awaitingRemoteRevokeToRemove (outcome : OutboundHTLCOutcome)
  /-- We have removed this HTLC in our latest `commitment_signed`. -/
  | awaitingRemovedRemoteRevoke (outcome : OutboundHTLCOutcome)
deriving DecidableEq, Repr

structure OutboundHTLCOutput extends Htlc where
  state : OutboundHTLCState
deriving DecidableEq, Repr

inductive HTLCUpdateAwaitingACK where
  | addHtlc (amountMsat cltvExpiry : ℕ) (paymentHash : Bytes32)
  | claimHtlc (paymentPreimage : Bytes32) (htlcId : ℕ)
  | failHtlc (htlcId : ℕ) (errPacket : List UInt8)
  | failMalformedHtlc (htlcId failureCode : ℕ) (sha256OfOnion : Bytes32)
deriving DecidableEq, Repr

namespace FailHTLCContents

def toInboundHtlcState : FailHTLCContents → InboundHTLCState
  | relay errPacket => .localRemoved (.failRelay errPacket)
  | malformed sha256OfOnion failureCode => .localRemoved (.failMalformed sha256OfOnion failureCode)

def toHtlcUpdateAwaitingAck (htlcId : ℕ) : FailHTLCContents → HTLCUpdateAwaitingACK
  | relay errPacket => .failHtlc htlcId errPacket
  | malformed sha256OfOnion failureCode => .failMalformedHtlc htlcId failureCode sha256OfOnion

end FailHTLCContents

def InboundHTLCState.includedInCommitment (generatedByLocal : Bool) : InboundHTLCState → Bool
  | remoteAnnounced _ => !generatedByLocal
  | awaitingRemoteRevokeToAnnounce _ => !generatedByLocal
  | awaitingAnnouncedRemoteRevoke _ => true
  | committed => true
  | localRemoved _ => !generatedByLocal

def InboundHTLCState.preimage : InboundHTLCState → Option Bytes32
  | localRemoved (.fulfill preimage) => some preimage
  | _ => none

def OutboundHTLCState.includedInCommitment (generatedByLocal : Bool) : OutboundHTLCState → Bool
  | localAnnounced => generatedByLocal
  | committed => true
  | remoteRemoved _ => generatedByLocal
  | awaitingRemoteRevokeToRemove _ => generatedByLocal
  | awaitingRemovedRemoteRevoke _ => false

def OutboundHTLCOutcome.preimage : OutboundHTLCOutcome → Option Bytes32
  | success preimage => some preimage
  | failure _ => none

def OutboundHTLCState.preimage : OutboundHTLCState → Option Bytes32
  | remoteRemoved outcome | awaitingRemoteRevokeToRemove outcome
  | awaitingRemovedRemoteRevoke outcome => outcome.preimage
  | _ => none

/-! ### Messages -/

abbrev PublicKey : Type := Vector UInt8 33

structure HTLCOutputInCommitment where
  /-- Whether the party that can broadcast the commitment offered it. -/
  offered : Bool
  (amountMsat cltvExpiry : ℕ)
  paymentHash : Bytes32
deriving DecidableEq, Repr

/-- A commitment transaction. The outputs of the HTLCs are sorted in the source, so their order here
does not matter. -/
structure CommitmentTransaction where
  commitmentNumber : ℕ
  perCommitmentPoint : PublicKey
  (toBroadcasterValueSat toCountersignatoryValueSat : ℕ)
  nondustHtlcs : List HTLCOutputInCommitment
  feeratePerKw : UInt32
deriving DecidableEq

/-- A `commitment_signed`. A signature is given by what it is of: a commitment, and those of its
HTLCs that have an output. -/
structure CommitmentSigned where
  signature : CommitmentTransaction
  htlcSignatures : List HTLCOutputInCommitment
deriving DecidableEq

structure RevokeAndACK where
  perCommitmentSecret : Bytes32
  nextPerCommitmentPoint : PublicKey
deriving DecidableEq

structure ChannelReestablish where
  (nextLocalCommitmentNumber nextRemoteCommitmentNumber : ℕ)
  yourLastPerCommitmentSecret : Bytes32
deriving DecidableEq

inductive Message where
  | updateAddHtlc (htlc : Htlc)
  | updateFulfillHtlc (htlcId : ℕ) (paymentPreimage : Bytes32)
  | updateFailHtlc (htlcId : ℕ) (reason : List UInt8)
  | updateFailMalformedHtlc (htlcId : ℕ) (sha256OfOnion : Bytes32) (failureCode : ℕ)
  | updateFee (feeratePerKw : UInt32)
  | commitmentSigned (msg : CommitmentSigned)
  | revokeAndAck (msg : RevokeAndACK)
deriving DecidableEq

/-! ### The channel -/

inductive RAACommitmentOrder where
  | commitmentFirst
  | revokeAndAckFirst
deriving DecidableEq, Repr

inductive MaxDustHTLCExposure where
  | fixedLimitMsat (limit : ℕ)
  | feeRateMultiplier (multiplier : ℕ)
deriving DecidableEq, Repr

/-- What does not change once a channel is open: its funding, its limits, its configuration, and the
seed of its signer's commitment secrets. -/
structure ChannelParameters where
  isOutboundFromHolder : Bool
  channelValueSatoshis : ℕ
  channelType : ChannelTypeFeatures
  constraints : ChannelConstraints
  (holderHtlcMinimumMsat holderMaxAcceptedHtlcs holderMaxHtlcValueInFlightMsat : ℕ)
  maxDustHtlcExposure : MaxDustHTLCExposure
  commitmentSeed : Bytes32

structure HolderCommitmentPoint where
  nextTransactionNumber : ℕ
  currentPoint : Option PublicKey
  (nextPoint pendingNextPoint : PublicKey)
  /-- The two latest revoked points. -/
  (previousRevokedPoint lastRevokedPoint : Option PublicKey)

structure FundedChannel where
  params : ChannelParameters
  channelState : ChannelState
  valueToSelfMsat : ℕ
  pendingInboundHtlcs : List InboundHTLCOutput
  pendingOutboundHtlcs : List OutboundHTLCOutput
  holdingCellHtlcUpdates : List HTLCUpdateAwaitingACK
  holdingCellUpdateFee : Option UInt32
  feeratePerKw : UInt32
  pendingUpdateFee : Option (UInt32 × FeeUpdateState)
  (nextHolderHtlcId nextCounterpartyHtlcId : ℕ)
  resendOrder : RAACommitmentOrder
  (monitorPendingRevokeAndAck monitorPendingCommitmentSigned monitorPendingChannelReady : Bool)
  /-- Whether we have started exchanging `closing_signed`s. -/
  closingFeeSent : Bool
  holderCommitmentPoint : HolderCommitmentPoint
  counterpartyNextCommitmentTransactionNumber : ℕ
  (counterpartyCurrentCommitmentPoint counterpartyNextCommitmentPoint : Option PublicKey)
  commitmentSecrets : CounterpartyCommitmentSecrets

structure Crypto where
  sha256 : Bytes32 → Bytes32
  /-- Whether `SecretKey::from_slice` accepts the bytes. -/
  isSecretKey : Bytes32 → Bool
  /-- `PublicKey::from_secret_key`. -/
  publicKey : Bytes32 → PublicKey
  /-- Whether a signature is one of this commitment by the counterparty. -/
  verify : CommitmentTransaction → CommitmentTransaction → Bool
  /-- Whether a signature is one of this HTLC of the commitment by the counterparty. -/
  verifyHtlc : CommitmentTransaction → HTLCOutputInCommitment → HTLCOutputInCommitment → Bool

/-- The number of the first commitment: they are counted down. -/
def initialCommitmentNumber : ℕ := 2 ^ 48 - 1

def perCommitmentPoint (crypto : Crypto) (commitmentSeed : Bytes32) (idx : ℕ) : PublicKey :=
  crypto.publicKey (buildCommitmentSecret crypto.sha256 commitmentSeed idx)

/-! ### Results -/

inductive Failure (ε : Type) where
  | panic (panic : Panic)
  | refused (e : ε)
deriving DecidableEq, Repr

abbrev Handled (ε α : Type) : Type := Except (Failure ε) α

namespace Handled

variable {ε α β : Type}

def refuse (e : ε) : Handled ε α := .error (.refused e)

def check (p : Prop) [Decidable p] (e : ε) : Handled ε Unit := if p then .ok () else refuse e

def orRefuse (o : Option α) (e : ε) : Handled ε α :=
  match o with
  | some a => .ok a
  | none => refuse e

/-- A part that may panic and has no error of its own. -/
def lift : Except Panic α → Handled ε α := Except.mapError .panic

variable {e : ε}

@[simp] theorem refuse_ne_ok {a : α} : refuse e ≠ .ok a := by
  intro h
  cases h

variable {panic : Panic}

@[simp] theorem refuse_ne_panic :
    (refuse e : Handled ε α) ≠ .error (.panic panic) := by
  intro h
  cases h

@[simp] theorem check_eq_ok {p : Prop} [Decidable p] {u : Unit} : check p e = .ok u ↔ p := by
  unfold check
  split <;> simp [*]

@[simp] theorem check_ne_panic {p : Prop} [Decidable p] :
    check p e ≠ .error (.panic panic) := by
  unfold check
  split <;> simp

@[simp] theorem orRefuse_eq_ok {o : Option α} {a : α} : orRefuse o e = .ok a ↔ o = some a := by
  cases o <;> simp [orRefuse]

@[simp] theorem orRefuse_ne_panic {o : Option α} :
    orRefuse o e ≠ .error (.panic panic) := by
  cases o <;> simp [orRefuse]

@[simp] theorem lift_eq_ok {x : Except Panic α} {a : α} :
    (lift x : Handled ε α) = .ok a ↔ x = .ok a := by
  cases x <;> simp [lift, Except.mapError]

@[simp] theorem lift_eq_panic {x : Except Panic α} :
    (lift x : Handled ε α) = .error (.panic panic) ↔ x = .error panic := by
  cases x <;> simp [lift, Except.mapError]

end Handled

end PqLightning.Commitment
