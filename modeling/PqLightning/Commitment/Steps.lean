import PqLightning.Commitment.Exchange

/-!
# What the handlers of a channel do

A specification of each function of the commitment protocol: when it succeeds, what the channel is
afterwards. The later modules read only these.

The updates a holder makes itself, whether it is asked to or frees its holding cell, are the four
kinds of `HolderUpdate`. A commitment to the counterparty is `Committed`.
-/

namespace PqLightning.Commitment

open Handled

/-- An outbound HTLC whose removal was not committed to is committed again. -/
def OutboundHTLCState.onDisconnect (state : OutboundHTLCState) : OutboundHTLCState :=
  if state.isRemoteRemoved then .committed else state

/-! ### Changing one HTLC -/

theorem modifyFirst_of_find? {α : Type} {p : α → Bool} {l : List α} {a : α} (f : α → α)
    (h : l.find? p = some a) :
    ∃ l₁ l₂, l = l₁ ++ a :: l₂ ∧ p a ∧ modifyFirst p f l = l₁ ++ f a :: l₂ := by
  induction l with
  | nil => cases h
  | cons b l ih =>
    by_cases hb : p b
    · rw [List.find?_cons_of_pos hb] at h
      cases h
      exact ⟨[], l, rfl, hb, by simp [modifyFirst, hb]⟩
    · rw [List.find?_cons_of_neg hb] at h
      obtain ⟨l₁, l₂, rfl, ha, hmodify⟩ := ih h
      exact ⟨b :: l₁, l₂, rfl, ha, by simp [modifyFirst, hb, hmodify]⟩

theorem modify_length_append {α : Type} (f : α → α) (l₁ : List α) (a : α) (l₂ : List α) :
    (l₁ ++ a :: l₂).modify l₁.length f = l₁ ++ f a :: l₂ := by
  induction l₁ with
  | nil => rfl
  | cons b l₁ ih => simpa using ih

namespace FundedChannel

theorem pendingIdx_eq_ok {htlcId i : ℕ} {htlcs : List InboundHTLCOutput} {idx : ℕ}
    {found : Option ℕ}
    (h : pendingIdx htlcId htlcs idx found = .ok (some i)) :
    found = some i ∨ ∃ l₁ htlc l₂, htlcs = l₁ ++ htlc :: l₂ ∧ idx + l₁.length = i ∧
      htlc.htlcId = htlcId ∧ htlc.state = .committed := by
  induction htlcs generalizing idx found with
  | nil => exact .inl (Except.ok.inj h)
  | cons htlc htlcs ih =>
    simp only [pendingIdx] at h
    by_cases hid : htlc.htlcId = htlcId
    · rw [if_pos hid] at h
      split at h
      case h_1 hstate =>
        rcases ih h with hfound | ⟨l₁, htlc', l₂, rfl, hlen, hspec⟩
        · exact .inr ⟨[], htlc, htlcs, rfl, Option.some.inj hfound, hid, hstate⟩
        · exact .inr ⟨htlc :: l₁, htlc', l₂, rfl, by rw [← hlen, List.length_cons]; omega, hspec⟩
      case h_2 => cases h
      case h_3 => cases h
    · rw [if_neg hid] at h
      rcases ih h with hfound | ⟨l₁, htlc', l₂, rfl, hlen, hspec⟩
      · exact .inl hfound
      · exact .inr ⟨htlc :: l₁, htlc', l₂, rfl, by rw [← hlen, List.length_cons]; omega, hspec⟩

end FundedChannel

/-! ### The holder's updates -/

/-- An update by the holder. One that cannot be committed to now goes into the holding cell. -/
inductive HolderUpdate (crypto : Crypto) (feeEstimator : FeeEstimator) (self : FundedChannel) :
    FundedChannel → Prop
  | holdingCell (updates : List HTLCUpdateAwaitingACK) (feerate : Option UInt32) :
    HolderUpdate crypto feeEstimator self
      { self with holdingCellHtlcUpdates := updates, holdingCellUpdateFee := feerate }
  | add {amountMsat cltvExpiry : ℕ} {paymentHash : Bytes32} {balances : AvailableBalances}
    (can : self.channelState.canGenerateNewCommitment) (amount_ne : amountMsat ≠ 0)
    (available : self.getAvailableBalances feeEstimator = .ok (some balances))
    (minimum_le : balances.nextOutboundHtlcMinimumMsat ≤ amountMsat)
    (le_limit : amountMsat ≤ balances.nextOutboundHtlcLimitMsat) :
    HolderUpdate crypto feeEstimator self { self with
      pendingOutboundHtlcs := self.pendingOutboundHtlcs ++
        [⟨⟨self.nextHolderHtlcId, amountMsat, cltvExpiry, paymentHash⟩, .localAnnounced⟩]
      nextHolderHtlcId := self.nextHolderHtlcId + 1 }
  | remove {l₁ l₂ : List InboundHTLCOutput} {htlc : InboundHTLCOutput}
    {reason : InboundHTLCRemovalReason} (can : self.channelState.canGenerateNewCommitment)
    (split : self.pendingInboundHtlcs = l₁ ++ htlc :: l₂) (committed : htlc.state = .committed)
    (claims : ∀ preimage, reason = .fulfill preimage → crypto.sha256 preimage = htlc.paymentHash) :
    HolderUpdate crypto feeEstimator self { self with
      pendingInboundHtlcs := l₁ ++ { htlc with state := .localRemoved reason } :: l₂ }
  | fee {feerate : UInt32} (can : self.channelState.canGenerateNewCommitment)
    (funder : self.params.isOutboundFromHolder) (none_pending : self.pendingUpdateFee = none) :
    HolderUpdate crypto feeEstimator self
      { self with pendingUpdateFee := some (feerate, .outbound) }

namespace HolderUpdate

variable {crypto : Crypto} {feeEstimator : FeeEstimator} {self self' : FundedChannel}

theorem refl : HolderUpdate crypto feeEstimator self self :=
  .holdingCell self.holdingCellHtlcUpdates self.holdingCellUpdateFee

end HolderUpdate

namespace FundedChannel

variable {crypto : Crypto} {feeEstimator : FeeEstimator} {self self' : FundedChannel}

variable {force sent : Bool}

theorem sendHtlc_spec {amountMsat cltvExpiry : ℕ} {paymentHash : Bytes32}
    (h : self.sendHtlc feeEstimator amountMsat cltvExpiry paymentHash force = .ok (self', sent)) :
    HolderUpdate crypto feeEstimator self self' := by
  simp only [sendHtlc, bind_eq_ok, check_eq_ok, orRefuse_eq_ok, lift_eq_ok] at h
  obtain ⟨-, -, -, hne, _, havailable, balances, rfl, -, hmin, -, hlimit, -, -, h⟩ := h
  split at h
  · cases h
    exact .holdingCell _ _
  · next hcan =>
    cases h
    simp only [Bool.or_eq_true, Bool.not_eq_true', not_or, Bool.not_eq_false] at hcan
    exact .add hcan.2 hne havailable hmin hlimit

theorem getUpdateFulfillHtlc_spec {htlcId : ℕ} {preimage : Bytes32} {fetch : UpdateFulfillFetch}
    (h : self.getUpdateFulfillHtlc crypto htlcId preimage = .ok (self', fetch)) :
    HolderUpdate crypto feeEstimator self self' := by
  simp only [getUpdateFulfillHtlc, bind_eq_ok, Panic.unless_eq_ok] at h
  obtain ⟨-, -, h⟩ := h
  split at h
  · cases h
    exact .refl
  next htlc hfind =>
  obtain ⟨_, hhash, h⟩ := bind_eq_ok.mp h
  rw [Panic.unless_eq_ok] at hhash
  split at h
  case h_1 =>
    cases h
    exact .refl
  case h_3 => cases h
  case h_2 hstate =>
  by_cases hcan : self.channelState.canGenerateNewCommitment
  · rw [if_neg (by simp [hcan])] at h
    cases h
    obtain ⟨l₁, l₂, hsplit, -, hmodify⟩ := modifyFirst_of_find?
      (fun htlc => { htlc with state := .localRemoved (.fulfill preimage) }) hfind
    rw [hmodify]
    refine .remove hcan hsplit hstate fun preimage' hreason => ?_
    obtain rfl := InboundHTLCRemovalReason.fulfill.inj hreason
    exact hhash.symm
  · rw [if_pos (by simp [hcan])] at h
    split at h
    · cases h
      exact .refl
    · cases h
    · cases h
      exact .holdingCell _ _

theorem failHtlc_spec {htlcId : ℕ} {contents : FailHTLCContents}
    (h : self.failHtlc htlcId contents force = .ok (self', sent)) :
    HolderUpdate crypto feeEstimator self self' := by
  simp only [failHtlc, bind_eq_ok, orRefuse_eq_ok, lift_eq_ok, Panic.unless_eq_ok] at h
  obtain ⟨-, -, _, hidx, idx, rfl, -, hcan, h⟩ := h
  cases force with
  | true =>
    rw [if_pos rfl] at h
    split at h
    · cases h
    · cases h
    · cases h
      exact .holdingCell _ _
  | false =>
    rw [if_neg Bool.false_ne_true] at h
    cases h
    rcases pendingIdx_eq_ok hidx with hnone | ⟨l₁, htlc, l₂, hsplit, hlen, -, hstate⟩
    · cases hnone
    rw [Nat.zero_add] at hlen
    obtain ⟨reason, hreason, hfail⟩ : ∃ reason, contents.toInboundHtlcState = .localRemoved reason ∧
        ∀ preimage, reason ≠ .fulfill preimage := by
      cases contents <;> exact ⟨_, rfl, by simp⟩
    have hmodify : self.pendingInboundHtlcs.modify idx
        (fun htlc => { htlc with state := contents.toInboundHtlcState }) =
        l₁ ++ { htlc with state := .localRemoved reason } :: l₂ := by
      rw [hsplit, ← hlen, hreason, modify_length_append]
    rw [hmodify]
    exact .remove (by simpa using hcan) hsplit hstate fun preimage h => absurd h (hfail preimage)

theorem sendUpdateFee_spec {feerate : UInt32}
    (h : self.sendUpdateFee feeEstimator feerate force = .ok (self', sent)) :
    HolderUpdate crypto feeEstimator self self' := by
  simp only [sendUpdateFee, bind_eq_ok, Panic.unless_eq_ok] at h
  obtain ⟨-, hfunder, -, -, -, -, -, -, can, -, h⟩ := h
  split at h
  · cases h
    exact .refl
  split at h
  · cases h
    exact .holdingCell _ _
  · next hcan =>
    obtain ⟨_, hnone, h⟩ := bind_eq_ok.mp h
    cases h
    simp only [Bool.or_eq_true, Bool.not_eq_true', not_or, Bool.not_eq_false] at hcan
    rw [Panic.unless_eq_ok, Option.isNone_iff_eq_none] at hnone
    exact .fee hcan.2 hfunder hnone

/-! ### Committing -/

def withCommitment (self : FundedChannel) : FundedChannel :=
  { self.promoteForCommitment with
    channelState := self.channelState.setAwaitingRemoteRevoke true }

/-- The channel with a commitment to the counterparty, if there has to be one. -/
def answered (commit : Bool) (self : FundedChannel) : FundedChannel :=
  if commit then self.withCommitment else self

/-- The commitment that goes with `withCommitment` can be built. -/
def CanCommit (self : FundedChannel) : Prop :=
  ∃ tx, self.promoteForCommitment.buildCommitmentNoStateUpdate = .ok tx

theorem buildCommitmentNoStatusCheck_spec (h : self.buildCommitmentNoStatusCheck = .ok self') :
    self.CanCommit ∧ self' = self.withCommitment := by
  simp only [buildCommitmentNoStatusCheck, bind_eq_ok] at h
  obtain ⟨-, -, tx, htx, h⟩ := h
  exact ⟨⟨tx, htx⟩, (Except.ok.inj h).symm⟩

variable {freed : Bool}

theorem freeHoldingCellUpdate_spec {update : HTLCUpdateAwaitingACK}
    (h : self.freeHoldingCellUpdate crypto feeEstimator update = .ok (self', freed)) :
    HolderUpdate crypto feeEstimator self self' := by
  have hfail (htlcId : ℕ) (contents : FailHTLCContents)
      (h : freeHoldingCellUpdate.freeFail self htlcId contents = .ok (self', freed)) :
      HolderUpdate crypto feeEstimator self self' := by
    simp only [freeHoldingCellUpdate.freeFail] at h
    split at h
    · next hfail =>
      obtain ⟨_, -, h⟩ := bind_eq_ok.mp h
      cases h
      exact failHtlc_spec hfail
    · cases h
      exact .refl
    · cases h
    · cases h
  cases update with
  | addHtlc amountMsat cltvExpiry paymentHash =>
    simp only [freeHoldingCellUpdate] at h
    split at h
    · next hsend =>
      obtain ⟨_, -, h⟩ := bind_eq_ok.mp h
      cases h
      exact sendHtlc_spec hsend
    · cases h
      exact .refl
    · cases h
  | claimHtlc preimage htlcId =>
    simp only [freeHoldingCellUpdate] at h
    obtain ⟨⟨mid, fetch⟩, hclaim, h⟩ := bind_eq_ok.mp h
    cases fetch with
    | newClaim =>
      cases h
      exact getUpdateFulfillHtlc_spec hclaim
    | duplicateClaim => cases h
  | failHtlc htlcId errPacket => exact hfail _ _ h
  | failMalformedHtlc htlcId failureCode sha256OfOnion => exact hfail _ _ h

theorem freeHoldingCellUpdates_spec {updates : List HTLCUpdateAwaitingACK}
    (h : self.freeHoldingCellUpdates crypto feeEstimator updates = .ok (self', freed)) :
    Relation.ReflTransGen (HolderUpdate crypto feeEstimator) self self' := by
  induction updates generalizing self freed with
  | nil =>
    cases h
    exact .refl
  | cons update updates ih =>
    simp only [freeHoldingCellUpdates, bind_eq_ok, Prod.exists] at h
    obtain ⟨mid, _, hfirst, self'', _, hrest, h⟩ := h
    cases h
    exact .head (freeHoldingCellUpdate_spec hfirst) (ih hrest)

theorem freeHoldingCellUpdateFee_spec
    (h : self.freeHoldingCellUpdateFee feeEstimator = .ok (self', freed)) :
    Relation.ReflTransGen (HolderUpdate crypto feeEstimator) self self' := by
  simp only [freeHoldingCellUpdateFee] at h
  split at h
  · exact .head (.holdingCell _ none) (.single (sendUpdateFee_spec h))
  · cases h
    exact .refl

/-- **Freeing the holding cell** is a sequence of the holder's updates, and a commitment if there
was any. -/
theorem maybeFreeHoldingCellHtlcs_spec
    (h : self.maybeFreeHoldingCellHtlcs crypto feeEstimator = .ok (self', freed)) :
    ∃ mid, Relation.ReflTransGen (HolderUpdate crypto feeEstimator) self mid ∧
      (freed = false ∧ self' = mid ∨
        freed = true ∧ mid.CanCommit ∧ self' = mid.withCommitment.monitorUpdatingPaused false
          true) := by
  simp only [maybeFreeHoldingCellHtlcs] at h
  split at h
  case isFalse =>
    cases h
    exact ⟨self, .refl, .inl ⟨rfl, rfl⟩⟩
  simp only [freeHoldingCellHtlcs, bind_eq_ok] at h
  obtain ⟨-, -, -, -, -, -, h⟩ := h
  split at h
  · cases h
    exact ⟨self, .refl, .inl ⟨rfl, rfl⟩⟩
  simp only [bind_eq_ok, Prod.exists] at h
  obtain ⟨mid, _, hupdates, mid', _, hfee, h⟩ := h
  have hrun : Relation.ReflTransGen (HolderUpdate crypto feeEstimator) self mid' :=
    .head (.holdingCell [] _)
      ((freeHoldingCellUpdates_spec hupdates).trans (freeHoldingCellUpdateFee_spec hfee))
  refine ⟨mid', hrun, ?_⟩
  split at h
  · cases h
    exact .inl ⟨rfl, rfl⟩
  · obtain ⟨committed, hcommit, h⟩ := bind_eq_ok.mp h
    cases h
    obtain ⟨hcan, rfl⟩ := buildCommitmentNoStatusCheck_spec hcommit
    exact .inr ⟨rfl, hcan, rfl⟩

/-! ### The counterparty's updates -/

theorem updateAddHtlc_spec {msg : Htlc} (h : self.updateAddHtlc feeEstimator msg = .ok self') :
    self.nextCounterpartyHtlcId = msg.htlcId ∧
      self.validateUpdateAddHtlc feeEstimator msg = .ok () ∧
      self' = { self with
        nextCounterpartyHtlcId := self.nextCounterpartyHtlcId + 1
        pendingInboundHtlcs := self.pendingInboundHtlcs ++
          [⟨msg, .remoteAnnounced .pending⟩] } := by
  simp only [updateAddHtlc, bind_eq_ok, check_eq_ok] at h
  obtain ⟨-, -, -, -, -, -, -, -, -, -, -, -, -, hid, -, -, _, hvalid, h⟩ := h
  exact ⟨hid, hvalid, (Except.ok.inj h).symm⟩

/-- A message that removes an HTLC is about a committed one, and a claim of it has its preimage. -/
theorem updateRemoveHtlc_spec {kind message : String} {htlcId : ℕ} {outcome : OutboundHTLCOutcome}
    (h : self.updateRemoveHtlc crypto kind message htlcId outcome = .ok self') :
    ∃ l₁ htlc l₂, self.pendingOutboundHtlcs = l₁ ++ htlc :: l₂ ∧ htlc.htlcId = htlcId ∧
      htlc.state = .committed ∧
      (∀ preimage, outcome = .success preimage → crypto.sha256 preimage = htlc.paymentHash) ∧
      self' = { self with
        pendingOutboundHtlcs := l₁ ++ { htlc with state := .remoteRemoved outcome } :: l₂ } := by
  simp only [updateRemoveHtlc, markOutboundHtlcRemoved, bind_eq_ok, check_eq_ok,
    orRefuse_eq_ok] at h
  obtain ⟨-, -, -, -, -, -, htlc, hfind, -, hhash, h⟩ := h
  split at h
  case h_1 => cases h
  case h_3 => cases h
  case h_2 hstate =>
  obtain ⟨l₁, l₂, hsplit, hid, hmodify⟩ := modifyFirst_of_find?
    (fun htlc => { htlc with state := .remoteRemoved outcome }) hfind
  refine ⟨l₁, htlc, l₂, hsplit, by simpa using hid, hstate, fun preimage hsuccess => ?_, ?_⟩
  · subst hsuccess
    simpa [OutboundHTLCOutcome.preimage] using hhash
  · rw [← Except.ok.inj h, hmodify]

theorem updateFee_spec {feerate : UInt32} (h : self.updateFee feeEstimator feerate = .ok self') :
    self.params.isOutboundFromHolder = false ∧
      self' = { self with pendingUpdateFee := some (feerate, .remoteAnnounced) } := by
  simp only [updateFee, bind_eq_ok, check_eq_ok] at h
  obtain ⟨-, hfunder, -, -, -, -, -, -, -, -, h⟩ := h
  exact ⟨by simpa using hfunder, (Except.ok.inj h).symm⟩

/-! ### Exchanging commitments -/

def answersCommitment (self : FundedChannel) : Bool :=
  self.needCommitment && !self.channelState.isAwaitingRemoteRevoke

theorem setMonitorUpdateInProgress_of_inProgress {state : ChannelState}
    (h : state.isMonitorUpdateInProgress) :
    (state.setMonitorUpdateInProgress true = state ∧
      (state.setAwaitingRemoteRevoke true).setMonitorUpdateInProgress true =
        state.setAwaitingRemoteRevoke true) := by
  cases state with
  | shutdownComplete => cases h
  | fundingNegotiated flags | awaitingChannelReady flags =>
    obtain ⟨_, _, _, _⟩ := flags
    obtain rfl := h
    exact ⟨rfl, rfl⟩
  | channelReady flags =>
    obtain ⟨⟨_, _, _, _⟩, _, _, _, _⟩ := flags
    obtain rfl := h
    exact ⟨rfl, rfl⟩

def withCommitmentSigned (self : FundedChannel) (point : HolderCommitmentPoint) : FundedChannel :=
  { self.promoteForCommitmentSigned with holderCommitmentPoint := point }

theorem commitmentSignedUpdateMonitor_spec
    (h : self.commitmentSignedUpdateMonitor crypto = .ok self') :
    ∃ point, self.holderCommitmentPoint.advance crypto self.params.commitmentSeed = .ok point ∧
      (self.answersCommitment → (self.withCommitmentSigned point).CanCommit) ∧
      self' = ((self.withCommitmentSigned point).answered
        self.answersCommitment).monitorUpdatingPaused
        true self.answersCommitment := by
  simp only [commitmentSignedUpdateMonitor, bind_eq_ok] at h
  obtain ⟨point, hpoint, h⟩ := h
  refine ⟨point, hpoint, ?_⟩
  have hprogress (hprogress :
      self.promoteForCommitmentSigned.channelState.isMonitorUpdateInProgress) :=
    setMonitorUpdateInProgress_of_inProgress hprogress
  cases hcommit : self.answersCommitment with
  | true =>
    rw [answersCommitment] at hcommit
    simp only [hcommit, if_true] at h
    split at h
    · next hin =>
      -- a monitor update in progress: the answer waits, as it would for the one that starts now
      obtain ⟨hcan, rfl⟩ := buildCommitmentNoStatusCheck_spec h
      refine ⟨fun _ => hcan, ?_⟩
      have hset := (hprogress hin).2
      simp only [promoteForCommitmentSigned] at hset
      simp [answered, monitorUpdatingPaused, withCommitment, promoteForCommitment,
        withCommitmentSigned, promoteForCommitmentSigned, hset]
    · obtain ⟨committed, hbuild, h⟩ := bind_eq_ok.mp h
      obtain ⟨hcan, rfl⟩ := buildCommitmentNoStatusCheck_spec hbuild
      exact ⟨fun _ => hcan, (Except.ok.inj h).symm⟩
  | false =>
    rw [answersCommitment] at hcommit
    simp only [hcommit, Bool.false_eq_true, if_false] at h
    refine ⟨fun h => absurd h Bool.false_ne_true, ?_⟩
    split at h
    · next hin =>
      cases h
      have hset := (hprogress hin).1
      simp only [promoteForCommitmentSigned] at hset
      simp [answered, monitorUpdatingPaused, withCommitmentSigned, promoteForCommitmentSigned, hset]
    · exact (Except.ok.inj h).symm

/-- **An accepted commitment** is one that was built here too. -/
theorem commitmentSigned_spec {msg : CommitmentSigned}
    (h : self.commitmentSigned crypto feeEstimator msg = .ok self') :
    ∃ point, self.channelState.isChannelReady ∧
      self.holderCommitmentPoint.advance crypto self.params.commitmentSeed = .ok point ∧
      (self.answersCommitment → (self.withCommitmentSigned point).CanCommit) ∧
      self' = ((self.withCommitmentSigned point).answered
        self.answersCommitment).monitorUpdatingPaused
        true self.answersCommitment := by
  simp only [commitmentSigned, commitmentSignedCheckState, bind_eq_ok, check_eq_ok, lift_eq_ok] at h
  obtain ⟨-, ⟨-, -, -, hready, -⟩, -, -, h⟩ := h
  obtain ⟨point, hspec⟩ := commitmentSignedUpdateMonitor_spec h
  exact ⟨point, hready, hspec⟩

/-- The channel once the counterparty has revoked its previous commitment, before the holding cell
is freed and a commitment generated. -/
def withRevocation (self : FundedChannel) (secrets : CounterpartyCommitmentSecrets)
    (nextPoint : PublicKey) : FundedChannel :=
  { self.promoteForRevokeAndAck with
    commitmentSecrets := secrets
    counterpartyNextCommitmentTransactionNumber :=
      self.counterpartyNextCommitmentTransactionNumber - 1
    channelState := self.channelState.setAwaitingRemoteRevoke false
    counterpartyCurrentCommitmentPoint := self.counterpartyNextCommitmentPoint
    counterpartyNextCommitmentPoint := some nextPoint }

structure RevocationAccepted (crypto : Crypto) (ch : FundedChannel) (msg : RevokeAndACK)
    (secrets : CounterpartyCommitmentSecrets) : Prop where
  awaiting : ch.channelState.isAwaitingRemoteRevoke
  point_eq : ch.counterpartyCurrentCommitmentPoint.all
    (crypto.publicKey msg.perCommitmentSecret == ·)
  secrets_eq : ch.commitmentSecrets.provideSecret crypto.sha256
    (ch.counterpartyNextCommitmentTransactionNumber + 1) msg.perCommitmentSecret = .ok secrets
  number_pos : 1 ≤ ch.counterpartyNextCommitmentTransactionNumber

theorem monitorUpdatingPaused_idem (resendRaa resendCommitment : Bool) :
    (self.monitorUpdatingPaused resendRaa resendCommitment).monitorUpdatingPaused resendRaa
      resendCommitment = self.monitorUpdatingPaused resendRaa resendCommitment := by
  have hstate (state : ChannelState) :
      (state.setMonitorUpdateInProgress true).setMonitorUpdateInProgress true =
        state.setMonitorUpdateInProgress true := by
    cases state <;> rfl
  simp [monitorUpdatingPaused, hstate]

/-- **An accepted revocation.** The holder makes the updates of its holding cell, and commits to
them and to what the revocation let get so far. -/
theorem revokeAndAck_spec {msg : RevokeAndACK}
    (h : self.revokeAndAck crypto feeEstimator msg = .ok self') :
    ∃ secrets mid, ∃ commit : Bool, self.RevocationAccepted crypto msg secrets ∧
      Relation.ReflTransGen (HolderUpdate crypto feeEstimator)
        (self.withRevocation secrets msg.nextPerCommitmentPoint) mid ∧
      (commit → mid.CanCommit) ∧ (self.requireCommitment → commit) ∧
      self' = (mid.answered commit).monitorUpdatingPaused false commit := by
  simp only [revokeAndAck, revokeAndAckCheck, bind_eq_ok, check_eq_ok,
    orRefuse_eq_ok, lift_eq_ok] at h
  obtain ⟨_, ⟨-, -, -, -, -, -, -, -, -, -, -, hpoint, hawaiting⟩, secrets, hsecrets, number,
    hnumber, -, -, ⟨freedSelf, freed⟩, hfree, h⟩ := h
  have hnumber' : 1 ≤ self.counterpartyNextCommitmentTransactionNumber ∧
      self.counterpartyNextCommitmentTransactionNumber - 1 = number := by
    simp only [subU64] at hnumber
    split at hnumber
    · next hle => exact ⟨hle, Except.ok.inj hnumber⟩
    · cases hnumber
  have haccepted : self.RevocationAccepted crypto msg secrets := by
    refine ⟨hawaiting, hpoint, ?_, hnumber'.1⟩
    cases hprovide : self.commitmentSecrets.provideSecret crypto.sha256
        (self.counterpartyNextCommitmentTransactionNumber + 1) msg.perCommitmentSecret with
    | ok secrets' =>
      rw [hprovide] at hsecrets
      rw [Option.some.inj hsecrets]
    | error =>
      rw [hprovide] at hsecrets
      cases hsecrets
  rw [← hnumber'.2] at hfree
  obtain ⟨mid, hrun, ⟨rfl, rfl⟩ | ⟨rfl, hcan, rfl⟩⟩ := maybeFreeHoldingCellHtlcs_spec hfree
  · refine ⟨secrets, freedSelf, self.requireCommitment, haccepted, hrun, ?_⟩
    rw [if_neg Bool.false_ne_true] at h
    cases hrequire : self.requireCommitment with
    | true =>
      rw [hrequire, if_pos rfl] at h
      simp only [bind_eq_ok, lift_eq_ok] at h
      obtain ⟨committed, hcommit, h⟩ := h
      obtain ⟨hcan, rfl⟩ := buildCommitmentNoStatusCheck_spec hcommit
      exact ⟨fun _ => hcan, fun _ => rfl, (Except.ok.inj h).symm⟩
    | false =>
      rw [hrequire, if_neg Bool.false_ne_true] at h
      exact ⟨fun h => absurd h Bool.false_ne_true, id, (Except.ok.inj h).symm⟩
  · refine ⟨secrets, mid, true, haccepted, hrun, fun _ => hcan, fun _ => rfl, ?_⟩
    rw [if_pos rfl] at h
    rw [← Except.ok.inj h, monitorUpdatingPaused_idem]
    rfl

/-! ### Answering and reconnecting -/

def withMonitorRestored (self : FundedChannel) : FundedChannel :=
  { self with
    channelState := self.channelState.setMonitorUpdateInProgress false
    monitorPendingRevokeAndAck := false
    monitorPendingCommitmentSigned := false }

theorem monitorUpdatingRestored_spec {msgs : List Message}
    (h : self.monitorUpdatingRestored crypto = .ok (self', msgs)) :
    self' = self.withMonitorRestored ∧
      (self.channelState.isPeerDisconnected = false →
        ∃ raa update, self.pendingRevokeAndAck crypto = .ok raa ∧
          self.pendingCommitmentUpdate = .ok update ∧
          msgs = orderMessages self.resendOrder raa update) := by
  simp only [monitorUpdatingRestored, bind_eq_ok] at h
  obtain ⟨-, -, h⟩ := h
  split at h
  · next hdisconnected =>
    cases h
    exact ⟨rfl, fun hconnected => by simp [hdisconnected] at hconnected⟩
  · simp only [bind_eq_ok] at h
    obtain ⟨raa, hraa, update, hupdate, h⟩ := h
    cases h
    exact ⟨rfl, fun _ => ⟨raa, update, hraa, hupdate, rfl⟩⟩

/-- The channel once it has lost the connection: what the counterparty announced and did not commit
to is forgotten. -/
def disconnected (self : FundedChannel) : FundedChannel :=
  { self with
    closingFeeSent := false
    pendingInboundHtlcs := self.pendingInboundHtlcs.filter fun htlc => !htlc.state.isRemoteAnnounced
    nextCounterpartyHtlcId := self.nextCounterpartyHtlcId -
      self.pendingInboundHtlcs.countP (·.state.isRemoteAnnounced)
    pendingUpdateFee := match self.pendingUpdateFee with
      | some (_, .remoteAnnounced) => none
      | pending => pending
    pendingOutboundHtlcs := mapOutbound .onDisconnect self.pendingOutboundHtlcs
    channelState := self.channelState.setPeerDisconnected true }

theorem removeUncommittedHtlcsAndMarkPaused_spec
    (h : self.removeUncommittedHtlcsAndMarkPaused = .ok self') :
    self.channelState.isPeerDisconnected = true ∧ self' = self ∨
      self.channelState.isPeerDisconnected = false ∧ self' = self.disconnected := by
  simp only [removeUncommittedHtlcsAndMarkPaused, bind_eq_ok] at h
  obtain ⟨-, -, h⟩ := h
  split at h
  · next hdisconnected => exact .inl ⟨hdisconnected, (Except.ok.inj h).symm⟩
  · next hconnected =>
    simp only [bind_eq_ok] at h
    obtain ⟨id, hid, -, -, h⟩ := h
    refine .inr ⟨by simpa using hconnected, ?_⟩
    simp only [subU64] at hid
    split at hid
    · rw [← Except.ok.inj h, ← Except.ok.inj hid]
      rfl
    · cases hid

/-- A `channel_reestablish` changes what is to be sent, and nothing else. -/
theorem channelReestablish_frame {msg : ChannelReestablish} {responses : ReestablishResponses}
    (h : self.channelReestablish crypto msg = .ok (self', responses)) :
    ∃ raa update, self' = { self with
      channelState := self.channelState.setPeerDisconnected false
      monitorPendingRevokeAndAck := raa
      monitorPendingCommitmentSigned := update } := by
  simp only [channelReestablish, bind_eq_ok, Prod.exists] at h
  obtain ⟨-, -, mid, raa, hrevoke, h⟩ := h
  obtain ⟨pending, hmid⟩ : ∃ pending, mid = { self with
      channelState := self.channelState.setPeerDisconnected false
      monitorPendingRevokeAndAck := pending } := by
    simp only [requiredRevoke] at hrevoke
    split at hrevoke
    · exact ⟨_, (ok_pair_inj hrevoke).1.symm⟩
    split at hrevoke
    · split at hrevoke
      · exact ⟨_, (ok_pair_inj hrevoke).1.symm⟩
      · obtain ⟨_, -, hrevoke⟩ := bind_eq_ok.mp hrevoke
        exact ⟨_, (ok_pair_inj hrevoke).1.symm⟩
    · cases hrevoke
  subst hmid
  split at h
  · exact ⟨_, _, (ok_pair_inj h).1.symm⟩
  split at h
  · split at h
    · exact ⟨_, _, (ok_pair_inj h).1.symm⟩
    · obtain ⟨_, -, h⟩ := bind_eq_ok.mp h
      exact ⟨_, _, (ok_pair_inj h).1.symm⟩
  split at h
  · cases h
  · cases h

end FundedChannel

end PqLightning.Commitment
