import PqLightning.Commitment.Run
import PqLightning.Lib.Weighted
import PqLightning.TxBuilder.HtlcRange

/-!
# The accounts of a channel

A channel builds commitments with `checked_sub(..).unwrap()`: a balance that does not cover what is
to come out of it is a crash. When an HTLC is announced, it is validated against a prediction of the
next commitments, and those that are built later have other HTLCs on them.

What holds all the time is that five accounts are not overdrawn, one for each party on each of the
two commitments and one for the counterparty on the commitment that we sign next. In each of them
every HTLC counts, by its state, in full, not at all, or against it. After a handler, an account has
at least what some account had before, because the weights of the states compare.
-/

namespace PqLightning.Commitment

open Weighted OutboundHTLCState List

/-! ### Weights -/

/-- How an HTLC counts for a balance, by its state. -/
structure Weights where
  inbound : InboundHTLCState → ℤ
  outbound : OutboundHTLCState → ℤ

def InboundHTLCRemovalReason.claimed : InboundHTLCRemovalReason → ℤ
  | fulfill _ => 1
  | _ => 0

def OutboundHTLCOutcome.claimed : OutboundHTLCOutcome → ℤ
  | success _ => 1
  | failure _ => 0

namespace Weights

def counterpartyOnLocal : Weights where
  inbound _ := -1
  outbound
    | .remoteRemoved outcome | .awaitingRemoteRevokeToRemove outcome
    | .awaitingRemovedRemoteRevoke outcome => outcome.claimed
    | _ => 0

/-- What we have on our commitment. A removal that the counterparty has not committed to may be
forgotten, so its HTLC still counts. -/
def holderOnLocal : Weights where
  inbound _ := 0
  outbound
    | .localAnnounced => 0
    | .committed | .remoteRemoved _ => -1
    | .awaitingRemoteRevokeToRemove outcome | .awaitingRemovedRemoteRevoke outcome =>
      -outcome.claimed

def holderOnRemote : Weights where
  inbound
    | .localRemoved reason => reason.claimed
    | _ => 0
  outbound
    | .awaitingRemovedRemoteRevoke outcome => -outcome.claimed
    | _ => -1

def counterpartyOnRemote : Weights where
  inbound
    | .awaitingAnnouncedRemoteRevoke _ | .committed => -1
    | .localRemoved reason => -reason.claimed
    | _ => 0
  outbound
    | .awaitingRemovedRemoteRevoke outcome => outcome.claimed
    | _ => 0

/-- What the counterparty has on its next commitment, on which everything is that it has committed
to. -/
def counterpartyOnNext : Weights where
  inbound
    | .remoteAnnounced _ => 0
    | _ => -1
  outbound
    | .awaitingRemoteRevokeToRemove outcome | .awaitingRemovedRemoteRevoke outcome =>
      outcome.claimed
    | _ => 0

/-- What a revocation by the counterparty gives to us. -/
def onRevocation : Weights where
  inbound
    | .localRemoved reason => reason.claimed
    | _ => 0
  outbound
    | .awaitingRemovedRemoteRevoke outcome => -outcome.claimed
    | _ => 0

end Weights

def inboundTotal (w : InboundHTLCState → ℤ) (htlcs : List InboundHTLCOutput) : ℤ :=
  total (·.amountMsat) (fun htlc => w htlc.state) htlcs

def outboundTotal (w : OutboundHTLCState → ℤ) (htlcs : List OutboundHTLCOutput) : ℤ :=
  total (·.amountMsat) (fun htlc => w htlc.state) htlcs

section Totals

variable {wIn wIn' : InboundHTLCState → ℤ} {wOut wOut' : OutboundHTLCState → ℤ}

theorem inboundTotal_le (h : ∀ state, wIn state ≤ wIn' state) (htlcs : List InboundHTLCOutput) :
    inboundTotal wIn htlcs ≤ inboundTotal wIn' htlcs :=
  total_le_total fun htlc _ => h htlc.state

theorem outboundTotal_le (h : ∀ state, wOut state ≤ wOut' state) (htlcs : List OutboundHTLCOutput) :
    outboundTotal wOut htlcs ≤ outboundTotal wOut' htlcs :=
  total_le_total fun htlc _ => h htlc.state

theorem inboundTotal_mapInbound (f : InboundHTLCState → InboundHTLCState)
    (htlcs : List InboundHTLCOutput) :
    inboundTotal wIn (mapInbound f htlcs) = inboundTotal (fun state => wIn (f state)) htlcs := by
  rw [inboundTotal, mapInbound, total_map]
  · rfl
  · exact fun _ => rfl

theorem outboundTotal_mapOutbound (f : OutboundHTLCState → OutboundHTLCState)
    (htlcs : List OutboundHTLCOutput) :
    outboundTotal wOut (mapOutbound f htlcs) =
      outboundTotal (fun state => wOut (f state)) htlcs := by
  rw [outboundTotal, mapOutbound, total_map]
  · rfl
  · exact fun _ => rfl

theorem inboundTotal_filter (p : InboundHTLCState → Bool) (htlcs : List InboundHTLCOutput) :
    inboundTotal wIn (htlcs.filter fun htlc => p htlc.state) =
      inboundTotal (fun state => if p state then wIn state else 0) htlcs :=
  total_filter _ htlcs

theorem outboundTotal_filter (p : OutboundHTLCState → Bool) (htlcs : List OutboundHTLCOutput) :
    outboundTotal wOut (htlcs.filter fun htlc => p htlc.state) =
      outboundTotal (fun state => if p state then wOut state else 0) htlcs :=
  total_filter _ htlcs

end Totals

namespace FundedChannel

/-- The weighted total of all HTLCs of a channel. -/
def weighed (self : FundedChannel) (w : Weights) : ℤ :=
  inboundTotal w.inbound self.pendingInboundHtlcs +
    outboundTotal w.outbound self.pendingOutboundHtlcs

def channelValueMsat (self : FundedChannel) : ℕ := self.params.channelValueSatoshis * 1000

end FundedChannel

inductive Account where
  | holderOnLocal
  | counterpartyOnLocal
  | holderOnRemote
  | counterpartyOnRemote
  | counterpartyOnNext
deriving DecidableEq, Repr

def Account.weights : Account → Weights
  | holderOnLocal => .holderOnLocal
  | counterpartyOnLocal => .counterpartyOnLocal
  | holderOnRemote => .holderOnRemote
  | counterpartyOnRemote => .counterpartyOnRemote
  | counterpartyOnNext => .counterpartyOnNext

/-- What we gain the counterparty loses. -/
def Account.sign : Account → ℤ
  | holderOnLocal | holderOnRemote => 1
  | _ => -1

namespace FundedChannel

variable (self : FundedChannel)

def funds : Account → ℤ
  | .holderOnLocal | .holderOnRemote => self.valueToSelfMsat
  | _ => (self.channelValueMsat : ℤ) - self.valueToSelfMsat

def balance (account : Account) : ℤ := self.funds account + self.weighed account.weights

/-- **The invariant.** No account is overdrawn. -/
structure Solvent (ch : FundedChannel) : Prop where
  balance_nonneg : ∀ account, 0 ≤ ch.balance account
  value_le : ch.valueToSelfMsat ≤ ch.channelValueMsat
  /-- The value of the channel is an `i64`. -/
  channelValue_lt : ch.channelValueMsat < 2 ^ 63
  /-- Only the funder's counterparty receives an update of the feerate. -/
  fee : ch.feeUpdateMatchesFunder

structure Steady (ch : FundedChannel) : Prop extends Solvent ch where
  /-- A removal that has to be committed to waits for a revocation. -/
  removals : ch.channelState.isAwaitingRemoteRevoke = false →
    ∀ htlc ∈ ch.pendingOutboundHtlcs, htlc.state.requiresCommitment = false

theorem weighed_add (w w' : Weights) :
    self.weighed ⟨fun state => w.inbound state + w'.inbound state,
      fun state => w.outbound state + w'.outbound state⟩ = self.weighed w + self.weighed w' := by
  simp only [weighed, inboundTotal, outboundTotal, total_add]
  omega

theorem weighed_le {w w' : Weights} (self : FundedChannel)
    (hin : ∀ state, w.inbound state ≤ w'.inbound state)
    (hout : ∀ state, w.outbound state ≤ w'.outbound state) : self.weighed w ≤ self.weighed w' :=
  Int.add_le_add (inboundTotal_le hin _) (outboundTotal_le hout _)

/-! ### The predictions -/

def candidateInboundMsat : Option HTLCAmountDirection → ℕ
  | some ⟨false, amountMsat⟩ => amountMsat
  | _ => 0

theorem inboundHtlcsValueMsat_append (htlcs htlcs' : List HTLCAmountDirection) :
    inboundHtlcsValueMsat (htlcs ++ htlcs') =
      inboundHtlcsValueMsat htlcs + inboundHtlcsValueMsat htlcs' := by
  simp [inboundHtlcsValueMsat]

theorem outboundHtlcsValueMsat_append (htlcs htlcs' : List HTLCAmountDirection) :
    outboundHtlcsValueMsat (htlcs ++ htlcs') =
      outboundHtlcsValueMsat htlcs + outboundHtlcsValueMsat htlcs' := by
  simp [outboundHtlcsValueMsat]

theorem inboundHtlcsValueMsat_map {α : Type} (outbound : Bool) (amount : α → ℕ) (l : List α) :
    inboundHtlcsValueMsat (l.map fun a => ⟨outbound, amount a⟩) =
      if outbound then 0 else (l.map amount).sum := by
  cases outbound <;> simp [inboundHtlcsValueMsat, filterMap_map]

theorem outboundHtlcsValueMsat_map {α : Type} (outbound : Bool) (amount : α → ℕ) (l : List α) :
    outboundHtlcsValueMsat (l.map fun a => ⟨outbound, amount a⟩) =
      if outbound then (l.map amount).sum else 0 := by
  cases outbound <;> simp [outboundHtlcsValueMsat, filterMap_map]

theorem inboundHtlcsValueMsat_getNextCommitmentHtlcs (isLocal : Bool)
    (candidate : Option HTLCAmountDirection) (unknown : Bool) :
    inboundHtlcsValueMsat (self.getNextCommitmentHtlcs isLocal candidate unknown) =
      candidateInboundMsat candidate + ((self.pendingInboundHtlcs.filter fun htlc =>
        nextIncludesInbound isLocal htlc.state).map (·.amountMsat)).sum := by
  have hcandidate : inboundHtlcsValueMsat candidate.toList = candidateInboundMsat candidate := by
    rcases candidate with _ | ⟨_ | _, _⟩ <;> simp [inboundHtlcsValueMsat, candidateInboundMsat]
  have hcell (amount : HTLCUpdateAwaitingACK → Option HTLCAmountDirection)
      (houtbound : ∀ update, ∀ htlc ∈ amount update, htlc.outbound = true)
      (updates : List HTLCUpdateAwaitingACK) :
      inboundHtlcsValueMsat (updates.filterMap amount) = 0 := by
    rw [inboundHtlcsValueMsat, List.filterMap_eq_nil_iff.mpr]
    · rfl
    · intro htlc hmem
      obtain ⟨update, -, hupdate⟩ := List.mem_filterMap.mp hmem
      simp [houtbound update htlc hupdate]
  rw [getNextCommitmentHtlcs]
  cases unknown with
  | false => simp [inboundHtlcsValueMsat_append, inboundHtlcsValueMsat_map, hcandidate]
  | true =>
    simp only [inboundHtlcsValueMsat_append, inboundHtlcsValueMsat_map, hcandidate, if_true,
      Bool.false_eq_true, if_false, Nat.add_zero, Nat.add_eq_left]
    refine hcell _ (fun update htlc hmem => ?_) _
    cases update <;> cases hmem
    rfl

variable {self : FundedChannel}

theorem coversHtlcs_of_getNextStats {isLocal : Bool}
    {candidate : Option HTLCAmountDirection} {unknown : Bool} {addl : ℕ} {feerate : UInt32}
    {limiting : Option UInt32} {stats : ChannelStats} {htlcs : List HTLCAmountDirection}
    (h : self.getNextStats isLocal candidate unknown addl feerate limiting =
      .ok (some (stats, htlcs))) :
    htlcs = self.getNextCommitmentHtlcs isLocal candidate unknown ∧
      CoversHtlcs self.params.isOutboundFromHolder self.params.channelValueSatoshis
        (self.getNextCommitmentValueToSelfMsat isLocal) htlcs self.params.channelType := by
  simp only [getNextStats, bind_eq_ok] at h
  obtain ⟨stats', hstats, h⟩ := h
  cases stats' with
  | none => cases h
  | some stats' =>
    cases h
    simp only [getChannelStats, bind_eq_ok] at hstats
    obtain ⟨commitmentStats, hcommitment, hstats⟩ := hstats
    cases commitmentStats with
    | none => cases hstats
    | some commitmentStats => exact ⟨rfl, (getNextCommitmentStats_eq_some_iff.mp hcommitment).2.1⟩

/-- An amount that the channel offers to send is covered, together with the predicted HTLCs. -/
theorem coversHtlcs_of_getAvailableBalances {feeEstimator : FeeEstimator}
    {balances : AvailableBalances} {amountMsat : ℕ}
    (h : self.getAvailableBalances feeEstimator = .ok (some balances)) (hne : amountMsat ≠ 0)
    (hmin : balances.nextOutboundHtlcMinimumMsat ≤ amountMsat)
    (hlimit : amountMsat ≤ balances.nextOutboundHtlcLimitMsat) :
    CoversHtlcs self.params.isOutboundFromHolder self.params.channelValueSatoshis
      (self.getNextCommitmentValueToSelfMsat false)
      (⟨true, amountMsat⟩ :: self.getNextCommitmentHtlcs false none true)
        self.params.channelType := by
  simp only [getAvailableBalances, getAvailableBalancesForScope, bind_eq_ok] at h
  obtain ⟨stats', hstats', h⟩ := h
  cases stats' with
  | none => cases h
  | some stats' =>
  obtain rfl : stats'.availableBalances = balances := by
    simp only at h
    split at h
    · simp only [bind_eq_ok] at h
      obtain ⟨-, -, -, -, -, -, h⟩ := h
      exact Option.some.inj (Except.ok.inj h)
    · exact Option.some.inj (Except.ok.inj h)
  simp only [getChannelStats, bind_eq_ok] at hstats'
  obtain ⟨commitmentStats, hcommitment, hstats'⟩ := hstats'
  cases commitmentStats with
  | none => cases hstats'
  | some commitmentStats =>
  obtain ⟨available, havailable, hstats'⟩ := bind_eq_ok.mp hstats'
  cases hstats'
  have hoffered := offeredAmount_of_getAvailableBalances havailable (a := amountMsat)
    (Nat.max_le.mpr ⟨Nat.one_le_iff_ne_zero.mpr hne, hmin⟩) hlimit
  obtain ⟨stats, hstats, -⟩ := hoffered.exists_stats (Nat.zero_le _) hcommitment
  exact (getNextCommitmentStats_eq_some_iff.mp hstats).2.1

theorem le_outboundHtlcsValueMsat_getNextCommitmentHtlcs (isLocal : Bool)
    (candidate : Option HTLCAmountDirection) (unknown : Bool) :
    ((self.pendingOutboundHtlcs.filter fun htlc =>
        nextIncludesOutbound isLocal unknown htlc.state).map (·.amountMsat)).sum ≤
      outboundHtlcsValueMsat (self.getNextCommitmentHtlcs isLocal candidate unknown) := by
  rw [getNextCommitmentHtlcs]
  simp only [outboundHtlcsValueMsat_append, outboundHtlcsValueMsat_map, if_true]
  omega

/-! ### The commitments that are built -/

variable (generatedByLocal : Bool)

/-- The weights of a sum of amounts, for the claims and the HTLCs on a commitment. -/
theorem cast_inboundClaimedMsat (htlcs : List InboundHTLCOutput) :
    (inboundClaimedMsat generatedByLocal htlcs : ℤ) = inboundTotal (fun state =>
      if !state.includedInCommitment generatedByLocal && state.preimage.isSome then 1
      else 0) htlcs :=
  cast_sum_filter _ htlcs

variable (htlcs : List OutboundHTLCOutput)

theorem cast_outboundClaimedMsat :
    (outboundClaimedMsat generatedByLocal htlcs : ℤ) = outboundTotal (fun state =>
      if !state.includedInCommitment generatedByLocal && state.preimage.isSome then 1
      else 0) htlcs :=
  cast_sum_filter _ htlcs

/-- On a commitment, the HTLCs that its broadcaster offered are the outbound ones of the holder if
it is local, and the inbound ones if it is remote. -/
theorem offeredTotalMsat_htlcsIncluded (isLocal generatedByLocal : Bool) :
    offeredTotalMsat isLocal (self.htlcsIncluded isLocal generatedByLocal) =
        ((outboundIncluded generatedByLocal self.pendingOutboundHtlcs).map (·.amountMsat)).sum ∧
      offeredTotalMsat (!isLocal) (self.htlcsIncluded isLocal generatedByLocal) =
        ((inboundIncluded generatedByLocal self.pendingInboundHtlcs).map (·.amountMsat)).sum := by
  have hfilter (outbound offered : Bool) (htlcs : List Htlc) :
      offeredTotalMsat offered (htlcs.map (·.toOutput outbound isLocal)) =
        if (outbound == isLocal) == offered then (htlcs.map (·.amountMsat)).sum else 0 := by
    rw [offeredTotalMsat, filter_map, map_map]
    cases h : (outbound == isLocal) == offered <;> simp [Function.comp_def, Htlc.toOutput, h]
  have happend (offered : Bool) (htlcs htlcs' : List HTLCOutputInCommitment) :
      offeredTotalMsat offered (htlcs ++ htlcs') =
        offeredTotalMsat offered htlcs + offeredTotalMsat offered htlcs' := by
    simp [offeredTotalMsat]
  cases isLocal <;> simp [htlcsIncluded, happend, hfilter]

theorem cast_inboundIncluded (htlcs : List InboundHTLCOutput) :
    ((((inboundIncluded generatedByLocal htlcs).map (·.amountMsat)).sum : ℕ) : ℤ) =
      inboundTotal (fun state => if state.includedInCommitment generatedByLocal then 1 else 0)
        htlcs := by
  rw [inboundIncluded, map_map]
  exact cast_sum_filter _ htlcs

theorem cast_outboundIncluded :
    ((((outboundIncluded generatedByLocal htlcs).map (·.amountMsat)).sum : ℕ) : ℤ) =
      outboundTotal (fun state => if state.includedInCommitment generatedByLocal then 1 else 0)
        htlcs := by
  rw [outboundIncluded, map_map]
  exact cast_sum_filter _ htlcs

/-- How HTLCs count for us on a commitment that is built: claims for the party that claimed, HTLCs
against the party that offered them. -/
def builtForHolder : Weights where
  inbound state :=
    if !state.includedInCommitment generatedByLocal && state.preimage.isSome then 1 else 0
  outbound state :=
    -(if !state.includedInCommitment generatedByLocal && state.preimage.isSome then 1 else 0) +
      -(if state.includedInCommitment generatedByLocal then 1 else 0)

def builtForCounterparty : Weights where
  inbound state :=
    -(if !state.includedInCommitment generatedByLocal && state.preimage.isSome then 1 else 0) +
      -(if state.includedInCommitment generatedByLocal then 1 else 0)
  outbound state :=
    if !state.includedInCommitment generatedByLocal && state.preimage.isSome then 1 else 0

/-- The balances cover a commitment if, with its HTLCs weighed, neither is negative. -/
theorem coversCommitment_of_weighed {isLocal generatedByLocal : Bool}
    (hself : 0 ≤ (self.valueToSelfMsat : ℤ) + self.weighed (builtForHolder generatedByLocal))
    (hremote : 0 ≤ (self.channelValueMsat : ℤ) - self.valueToSelfMsat +
      self.weighed (builtForCounterparty generatedByLocal)) :
    self.CoversCommitment isLocal generatedByLocal := by
  obtain ⟨hoffered, haccepted⟩ := self.offeredTotalMsat_htlcsIncluded isLocal generatedByLocal
  have hclaimedIn := cast_inboundClaimedMsat generatedByLocal self.pendingInboundHtlcs
  have hclaimedOut := cast_outboundClaimedMsat generatedByLocal self.pendingOutboundHtlcs
  have hincludedIn := cast_inboundIncluded generatedByLocal self.pendingInboundHtlcs
  have hincludedOut := cast_outboundIncluded generatedByLocal self.pendingOutboundHtlcs
  simp only [inboundTotal, outboundTotal] at hclaimedIn hclaimedOut hincludedIn hincludedOut
  simp only [weighed, builtForHolder, builtForCounterparty, inboundTotal, outboundTotal,
    total_add, total_neg] at hself hremote
  rw [← hclaimedIn, ← hclaimedOut, ← hincludedOut] at hself
  rw [← hclaimedIn, ← hclaimedOut, ← hincludedIn] at hremote
  have hvalue : self.channelValueMsat = self.params.channelValueSatoshis * 1000 := rfl
  refine ⟨by omega, ?_, ?_⟩
  · rw [hoffered, valueOnCommitmentMsat]
    omega
  · rw [haccepted, valueOnCommitmentMsat]
    omega

namespace Solvent

variable {self : FundedChannel}

attribute [local simp] Weights.counterpartyOnLocal Weights.holderOnLocal Weights.holderOnRemote
  Weights.counterpartyOnRemote Weights.counterpartyOnNext Weights.onRevocation builtForHolder
  builtForCounterparty InboundHTLCRemovalReason.claimed OutboundHTLCOutcome.claimed
  InboundHTLCState.includedInCommitment includedInCommitment InboundHTLCState.preimage preimage
  OutboundHTLCOutcome.preimage Account.weights InboundHTLCState.onCommitment onCommitment
  InboundHTLCState.onCommitmentSigned onCommitmentSigned onDisconnect
  InboundHTLCState.isRemoteAnnounced isRemoteRemoved InboundHTLCState.onRevokeAndAck onRevokeAndAck
  InboundHTLCState.isLocalRemoved isAwaitingRemovedRemoteRevoke FailHTLCContents.toInboundHtlcState
  Account.sign nextClaimsInbound nextClaimsOutbound nextIncludesInbound nextIncludesOutbound

variable {self' : FundedChannel} (h : self.Solvent)

section

include h

/-- An account that is not overdrawn covers what weighs less. -/
theorem funds_add_nonneg (account : Account) {w : Weights}
    (hin : ∀ state, account.weights.inbound state ≤ w.inbound state)
    (hout : ∀ state, account.weights.outbound state ≤ w.outbound state) :
    0 ≤ self.funds account + self.weighed w :=
  (h.balance_nonneg account).trans (Int.add_le_add_left (self.weighed_le hin hout) _)

theorem coversLocal : self.CoversCommitment true false := by
  refine coversCommitment_of_weighed
    (h.funds_add_nonneg .holderOnLocal (fun state => ?_) fun state => ?_)
    (h.funds_add_nonneg .counterpartyOnLocal (fun state => ?_) fun state => ?_)
  · cases state <;> simp
  · rcases state with _ | _ | ⟨_ | _⟩ | ⟨_ | _⟩ | ⟨_ | _⟩ <;> simp
  · cases state <;> simp
  · rcases state with _ | _ | ⟨_ | _⟩ | ⟨_ | _⟩ | ⟨_ | _⟩ <;> simp

theorem coversRemote : self.CoversCommitment false true := by
  refine coversCommitment_of_weighed
    (h.funds_add_nonneg .holderOnRemote (fun state => ?_) fun state => ?_)
    (h.funds_add_nonneg .counterpartyOnRemote (fun state => ?_) fun state => ?_)
  · rcases state with _ | _ | _ | _ | ⟨_ | _ | _⟩ <;> simp
  · rcases state with _ | _ | ⟨_ | _⟩ | ⟨_ | _⟩ | ⟨_ | _⟩ <;> simp
  · rcases state with _ | _ | _ | _ | ⟨_ | _ | _⟩ <;> simp
  · rcases state with _ | _ | ⟨_ | _⟩ | ⟨_ | _⟩ | ⟨_ | _⟩ <;> simp

theorem exists_feerate (generatedByLocal : Bool) :
    ∃ feerate, self.getCommitmentFeerate generatedByLocal = .ok feerate := by
  have hfee := h.fee
  simp only [feeUpdateMatchesFunder] at hfee
  simp only [getCommitmentFeerate]
  split at hfee <;> rename_i hpending <;> rw [hpending]
  · exact ⟨_, by rw [Panic.unless_of _ hfee]; rfl⟩
  · next pending _ =>
    obtain ⟨feerate, state⟩ := pending
    cases state with
    | outbound => simp_all
    | remoteAnnounced | awaitingRemoteRevokeToAnnounce =>
      exact ⟨_, by rw [Panic.unless_of _ hfee]; rfl⟩
  · exact ⟨_, rfl⟩

/-- **Both commitments can be built.** -/
theorem exists_build (number : ℕ) (point : PublicKey) (isLocal : Bool) :
    ∃ tx, self.buildCommitmentTransaction number point isLocal (!isLocal) = .ok tx := by
  obtain ⟨feerate, hfeerate⟩ := h.exists_feerate (!isLocal)
  refine ⟨_, buildCommitmentTransaction_eq_ok_iff.mpr ⟨?_, feerate, hfeerate, rfl⟩⟩
  cases isLocal
  · exact h.coversRemote
  · exact h.coversLocal

/-! ### Changes that keep the balance -/

/-- **The rule for a step.** The channel stays solvent if each balance afterwards is at least some
balance before. -/
theorem of_balance_le (source : Account → Account)
    (hbalance : ∀ account, self.balance (source account) ≤ self'.balance account)
    (hparams : self'.params = self.params) (hvalue : self'.valueToSelfMsat ≤ self.channelValueMsat)
    (hfee : self'.feeUpdateMatchesFunder) : self'.Solvent := by
  have hchannel : self'.channelValueMsat = self.channelValueMsat := by
    rw [channelValueMsat, channelValueMsat, hparams]
  refine ⟨fun account => (h.balance_nonneg _).trans (hbalance account), ?_, ?_, hfee⟩
  · rw [hchannel]
    exact hvalue
  · rw [hchannel]
    exact h.channelValue_lt

/-- What the balances do not depend on may change. -/
theorem frame (hparams : self'.params = self.params)
    (hvalue : self'.valueToSelfMsat = self.valueToSelfMsat)
    (hin : self'.pendingInboundHtlcs = self.pendingInboundHtlcs)
    (hout : self'.pendingOutboundHtlcs = self.pendingOutboundHtlcs)
    (hfee : self'.pendingUpdateFee = self.pendingUpdateFee) : self'.Solvent := by
  refine h.of_balance_le id (fun account => Int.le_of_eq ?_) hparams ?_ ?_
  · cases account <;>
      simp only [balance, funds, weighed, channelValueMsat, id, hparams, hvalue, hin, hout]
  · rw [hvalue]
    exact h.value_le
  · rw [feeUpdateMatchesFunder, hparams, hfee]
    exact h.fee

theorem fee_of_pending (hparams : self'.params = self.params)
    (hpending : self'.pendingUpdateFee = none ∨ self'.pendingUpdateFee = self.pendingUpdateFee) :
    self'.feeUpdateMatchesFunder := by
  rcases hpending with hnone | hkept
  · rw [feeUpdateMatchesFunder, hnone]
  · rw [feeUpdateMatchesFunder, hkept, hparams]
    exact h.fee

end

variable (account : Account)

theorem weights_localRemoved (reason : InboundHTLCRemovalReason) :
    account.weights.inbound .committed ≤ account.weights.inbound (.localRemoved reason) := by
  cases account <;> cases reason <;> simp

theorem weights_remoteRemoved (outcome : OutboundHTLCOutcome) :
    account.weights.outbound .committed ≤ account.weights.outbound (.remoteRemoved outcome) := by
  cases account <;> cases outcome <;> simp

/-- Which balance a balance on the commitments after we commit comes from. -/
def sourceOfCommitment : Account → Account
  | .counterpartyOnRemote => .counterpartyOnNext
  | account => account

theorem weights_onCommitment_inbound (state : InboundHTLCState) :
    (sourceOfCommitment account).weights.inbound state ≤
      account.weights.inbound state.onCommitment := by
  cases account <;> rcases state with _ | _ | _ | _ | ⟨_ | _ | _⟩ <;> simp [sourceOfCommitment]

variable (state : OutboundHTLCState)

theorem weights_onCommitment_outbound :
    (sourceOfCommitment account).weights.outbound state ≤
      account.weights.outbound state.onCommitment := by
  cases account <;> rcases state with _ | _ | ⟨_ | _⟩ | ⟨_ | _⟩ | ⟨_ | _⟩ <;>
    simp [sourceOfCommitment]

def sourceOfCommitmentSigned : Account → Account
  | .counterpartyOnNext => .counterpartyOnLocal
  | account => account

theorem weights_onCommitmentSigned_inbound (state : InboundHTLCState) :
    (sourceOfCommitmentSigned account).weights.inbound state ≤
      account.weights.inbound state.onCommitmentSigned := by
  cases account <;> rcases state with _ | _ | _ | _ | ⟨_ | _ | _⟩ <;>
    simp [sourceOfCommitmentSigned]

theorem weights_onCommitmentSigned_outbound :
    (sourceOfCommitmentSigned account).weights.outbound state ≤
      account.weights.outbound state.onCommitmentSigned := by
  cases account <;> rcases state with _ | _ | ⟨_ | _⟩ | ⟨_ | _⟩ | ⟨_ | _⟩ <;>
    simp [sourceOfCommitmentSigned]

def sourceOfDisconnect : Account → Account
  | .counterpartyOnLocal => .counterpartyOnNext
  | account => account

theorem weights_onDisconnect_inbound (state : InboundHTLCState) :
    (sourceOfDisconnect account).weights.inbound state ≤
      if !state.isRemoteAnnounced then account.weights.inbound state else 0 := by
  cases account <;> rcases state with _ | _ | _ | _ | ⟨_ | _ | _⟩ <;> simp [sourceOfDisconnect]

theorem weights_onDisconnect_outbound :
    (sourceOfDisconnect account).weights.outbound state ≤
      account.weights.outbound state.onDisconnect := by
  cases account <;> rcases state with _ | _ | ⟨_ | _⟩ | ⟨_ | _⟩ | ⟨_ | _⟩ <;>
    simp [sourceOfDisconnect]

def sourceOfRevocation : Account → Account
  | .holderOnLocal => .holderOnRemote
  | .counterpartyOnRemote => .counterpartyOnNext
  | account => account

theorem weights_onRevokeAndAck_inbound (state : InboundHTLCState) :
    (sourceOfRevocation account).weights.inbound state ≤
      (if !state.isLocalRemoved then account.weights.inbound state.onRevokeAndAck else 0) +
        account.sign * Weights.onRevocation.inbound state := by
  rcases state with _ | _ | ⟨⟨_ | ⟨_ | _⟩⟩ | _⟩ | _ | ⟨_ | _ | _⟩ <;> cases account <;>
    simp [sourceOfRevocation]

theorem weights_onRevokeAndAck_outbound :
    (sourceOfRevocation account).weights.outbound state ≤
      (if !state.isAwaitingRemovedRemoteRevoke then account.weights.outbound state.onRevokeAndAck
        else 0) + account.sign * Weights.onRevocation.outbound state := by
  cases account <;> rcases state with _ | _ | ⟨_ | _⟩ | ⟨_ | _⟩ | ⟨_ | _⟩ <;>
    simp [sourceOfRevocation]

/-! ### Committing, and losing the connection -/

theorem balance_le {source account : Account}
    (hvalue : self'.valueToSelfMsat = self.valueToSelfMsat)
    (hparams : self'.params = self.params) (hfunds : self.funds source = self.funds account)
    (hin : inboundTotal source.weights.inbound self.pendingInboundHtlcs ≤
      inboundTotal account.weights.inbound self'.pendingInboundHtlcs)
    (hout : outboundTotal source.weights.outbound self.pendingOutboundHtlcs ≤
      outboundTotal account.weights.outbound self'.pendingOutboundHtlcs) :
    self.balance source ≤ self'.balance account := by
  have hfunds' : self'.funds account = self.funds account := by
    cases account <;> simp only [funds, channelValueMsat, hvalue, hparams]
  rw [balance, balance, hfunds, hfunds', weighed, weighed]
  exact Int.add_le_add_left (Int.add_le_add hin hout) _

section

include h

theorem promoteForCommitment : self.promoteForCommitment.Solvent := by
  refine h.of_balance_le sourceOfCommitment (fun account => ?_) rfl h.value_le ?_
  · exact balance_le rfl rfl (by cases account <;> rfl)
      ((inboundTotal_le (weights_onCommitment_inbound account) _).trans_eq
        (inboundTotal_mapInbound _ _).symm)
      ((outboundTotal_le (weights_onCommitment_outbound account) _).trans_eq
        (outboundTotal_mapOutbound _ _).symm)
  · refine fee_of_pending h rfl ?_
    simp only [FundedChannel.promoteForCommitment]
    split
    · exact .inl rfl
    · exact .inr rfl

theorem withCommitment : self.withCommitment.Solvent :=
  h.promoteForCommitment.frame rfl rfl rfl rfl rfl

theorem withCommitmentSigned (point : HolderCommitmentPoint) :
    (self.withCommitmentSigned point).Solvent := by
  refine h.of_balance_le sourceOfCommitmentSigned (fun account => ?_) rfl h.value_le ?_
  · exact balance_le rfl rfl (by cases account <;> rfl)
      ((inboundTotal_le (weights_onCommitmentSigned_inbound account) _).trans_eq
        (inboundTotal_mapInbound _ _).symm)
      ((outboundTotal_le (weights_onCommitmentSigned_outbound account) _).trans_eq
        (outboundTotal_mapOutbound _ _).symm)
  · have hfee := h.fee
    rcases hpending : self.pendingUpdateFee with _ | ⟨feerate, _ | _ | _⟩ <;>
      simp_all [feeUpdateMatchesFunder, FundedChannel.withCommitmentSigned,
        promoteForCommitmentSigned]

theorem disconnected : self.disconnected.Solvent := by
  refine h.of_balance_le sourceOfDisconnect (fun account => ?_) rfl h.value_le ?_
  · exact balance_le rfl rfl (by cases account <;> rfl)
      ((inboundTotal_le (weights_onDisconnect_inbound account) _).trans_eq
        (inboundTotal_filter _ _).symm)
      ((outboundTotal_le (weights_onDisconnect_outbound account) _).trans_eq
        (outboundTotal_mapOutbound _ _).symm)
  · refine fee_of_pending h rfl ?_
    simp only [FundedChannel.disconnected]
    split
    · exact .inl rfl
    · exact .inr rfl

end

/-! ### A revocation -/

/-- Amounts whose sum fits an `i64` are summed as such. -/
theorem sum_asI64 {α : Type} {amount : α → ℕ} {l : List α} (h : (l.map amount).sum < 2 ^ 63) :
    (l.map fun a => asI64 (amount a)).sum = ((l.map amount).sum : ℕ) := by
  induction l with
  | nil => rfl
  | cons a l ih =>
    simp only [map_cons, sum_cons] at h ⊢
    rw [asI64_of_lt (by omega), ih (by omega), Nat.cast_add]

theorem inboundTotal_onRevocation (htlcs : List InboundHTLCOutput) :
    inboundTotal Weights.onRevocation.inbound htlcs = (((htlcs.filter fun htlc =>
      htlc.state.isLocalRemoved && htlc.state.preimage.isSome).map (·.amountMsat)).sum : ℕ) := by
  rw [cast_sum_filter]
  refine total_congr fun htlc _ => ?_
  rcases htlc.state with _ | _ | _ | _ | ⟨_ | _ | _⟩ <;> simp

theorem outboundTotal_onRevocation :
    outboundTotal Weights.onRevocation.outbound htlcs = -(((htlcs.filter fun htlc =>
      htlc.state.isAwaitingRemovedRemoteRevoke && htlc.state.preimage.isSome).map
        (·.amountMsat)).sum : ℕ) := by
  rw [cast_sum_filter, ← total_neg]
  refine total_congr fun htlc _ => ?_
  rcases htlc.state with _ | _ | ⟨_ | _⟩ | ⟨_ | _⟩ | ⟨_ | _⟩ <;> simp

theorem weighed_promoteForRevokeAndAck (self : FundedChannel) (account : Account) :
    self.weighed (sourceOfRevocation account).weights ≤
      self.promoteForRevokeAndAck.weighed account.weights +
        account.sign * self.weighed .onRevocation := by
  have hin := inboundTotal_le (weights_onRevokeAndAck_inbound account) self.pendingInboundHtlcs
  have hout := outboundTotal_le (weights_onRevokeAndAck_outbound account) self.pendingOutboundHtlcs
  have hin' : self.promoteForRevokeAndAck.pendingInboundHtlcs = mapInbound .onRevokeAndAck
    (self.pendingInboundHtlcs.filter fun htlc => !htlc.state.isLocalRemoved) := rfl
  have hout' : self.promoteForRevokeAndAck.pendingOutboundHtlcs = mapOutbound .onRevokeAndAck
    (self.pendingOutboundHtlcs.filter fun htlc => !htlc.state.isAwaitingRemovedRemoteRevoke) := rfl
  have hscaleIn : inboundTotal (fun state => account.sign * Weights.onRevocation.inbound state)
      self.pendingInboundHtlcs =
      account.sign * inboundTotal Weights.onRevocation.inbound self.pendingInboundHtlcs :=
    total_mul _ _
  have hscaleOut : outboundTotal (fun state => account.sign * Weights.onRevocation.outbound state)
      self.pendingOutboundHtlcs =
      account.sign * outboundTotal Weights.onRevocation.outbound self.pendingOutboundHtlcs :=
    total_mul _ _
  rw [weighed, weighed, hin', hout', inboundTotal_mapInbound, outboundTotal_mapOutbound,
    inboundTotal_filter fun state => !state.isLocalRemoved,
    outboundTotal_filter fun state => !state.isAwaitingRemovedRemoteRevoke, weighed, mul_add,
    ← hscaleIn, ← hscaleOut]
  simp only [inboundTotal, outboundTotal, total_add] at hin hout ⊢
  omega

include h

/-- The holder covers the claims of its HTLCs that a revocation drops. -/
theorem claims_le :
    0 ≤ (self.valueToSelfMsat : ℤ) +
      outboundTotal Weights.onRevocation.outbound self.pendingOutboundHtlcs := by
  have hholder := h.balance_nonneg .holderOnLocal
  have hin : inboundTotal Weights.holderOnLocal.inbound self.pendingInboundHtlcs = 0 := by
    simp [inboundTotal, total]
  have hout : outboundTotal Weights.holderOnLocal.outbound self.pendingOutboundHtlcs ≤
      outboundTotal Weights.onRevocation.outbound self.pendingOutboundHtlcs := by
    refine outboundTotal_le (fun state => ?_) _
    rcases state with _ | _ | ⟨_ | _⟩ | ⟨_ | _⟩ | ⟨_ | _⟩ <;> simp
  simp only [balance, funds, weighed, Account.weights] at hholder
  omega

/-- **A revocation leaves our balance within the channel.** -/
theorem revoked_value_mem :
    0 ≤ (self.valueToSelfMsat : ℤ) + self.weighed .onRevocation ∧
      (self.valueToSelfMsat : ℤ) + self.weighed .onRevocation ≤ self.channelValueMsat := by
  have hcounterparty := h.balance_nonneg .counterpartyOnRemote
  have hholder : 0 ≤ self.funds .holderOnRemote + self.weighed .onRevocation := by
    refine h.funds_add_nonneg _ (fun state => ?_) fun state => ?_
    · rcases state with _ | _ | _ | _ | ⟨_ | _ | _⟩ <;> simp
    · rcases state with _ | _ | ⟨_ | _⟩ | ⟨_ | _⟩ | ⟨_ | _⟩ <;> simp
  have hge : self.weighed .counterpartyOnRemote + self.weighed .onRevocation ≤ 0 := by
    rw [← weighed_add]
    refine Int.add_nonpos (total_nonpos fun htlc _ => ?_) (total_nonpos fun htlc _ => ?_)
    · rcases htlc.state with _ | _ | _ | _ | ⟨_ | _ | _⟩ <;> simp
    · rcases htlc.state with _ | _ | ⟨_ | _⟩ | ⟨_ | _⟩ | ⟨_ | _⟩ <;> simp
  simp only [balance, funds, Account.weights] at hcounterparty
  exact ⟨hholder, by omega⟩

theorem valueToSelfMsatDiff_eq :
    self.valueToSelfMsatDiff = self.weighed .onRevocation := by
  have hout := h.claims_le
  obtain ⟨-, hin⟩ := h.revoked_value_mem
  have hvalue := h.value_le
  have hchannel := h.channelValue_lt
  rw [weighed, inboundTotal_onRevocation] at hin
  rw [outboundTotal_onRevocation] at hin hout
  rw [valueToSelfMsatDiff, weighed, inboundTotal_onRevocation, outboundTotal_onRevocation,
    sum_asI64 (by omega), sum_asI64 (by omega)]
  rfl

/-- The new balance is computed without wrapping around. -/
theorem revoked_value_eq :
    (self.promoteForRevokeAndAck.valueToSelfMsat : ℤ) =
      self.valueToSelfMsat + self.weighed .onRevocation := by
  obtain ⟨hnonneg, hle⟩ := h.revoked_value_mem
  have hvalue := h.value_le
  have hchannel := h.channelValue_lt
  show ((asU64 (asI64 self.valueToSelfMsat + self.valueToSelfMsatDiff) : ℕ) : ℤ) = _
  rw [h.valueToSelfMsatDiff_eq, asI64_of_lt (by omega), asU64, Int.emod_eq_of_lt hnonneg (by omega)]
  omega

theorem promoteForRevokeAndAck : self.promoteForRevokeAndAck.Solvent := by
  have hvalue := h.revoked_value_eq
  obtain ⟨-, hle⟩ := h.revoked_value_mem
  have hparams : self.promoteForRevokeAndAck.params = self.params := rfl
  refine h.of_balance_le sourceOfRevocation (fun account => ?_) rfl (by omega) ?_
  · have hweighed := weighed_promoteForRevokeAndAck self account
    have hfunds : self.promoteForRevokeAndAck.funds account =
        self.funds (sourceOfRevocation account) + account.sign * self.weighed .onRevocation := by
      cases account <;>
        simp only [funds, sourceOfRevocation, Account.sign, channelValueMsat, hvalue, hparams] <;>
          omega
    rw [balance, balance, hfunds]
    omega
  · refine fee_of_pending h rfl ?_
    simp only [FundedChannel.promoteForRevokeAndAck]
    split
    · exact .inl rfl
    · exact .inl rfl
    · exact .inr rfl

theorem withRevocation (secrets : CounterpartyCommitmentSecrets)
    (point : PublicKey) : (self.withRevocation secrets point).Solvent :=
  h.promoteForRevokeAndAck.frame rfl rfl rfl rfl rfl

/-! ### The predictions -/

theorem cast_getNextCommitmentValueToSelfMsat (isLocal : Bool) :
    (self.getNextCommitmentValueToSelfMsat isLocal : ℤ) = self.valueToSelfMsat -
      outboundTotal (fun state => if nextClaimsOutbound isLocal state then 1 else 0)
        self.pendingOutboundHtlcs +
      inboundTotal (fun state => if nextClaimsInbound isLocal state then 1 else 0)
        self.pendingInboundHtlcs := by
  have hholder := h.balance_nonneg .holderOnLocal
  have hzero : inboundTotal Weights.holderOnLocal.inbound self.pendingInboundHtlcs = 0 := by
    simp [inboundTotal, total]
  simp only [balance, funds, weighed, Account.weights, hzero] at hholder
  obtain ⟨-, hle⟩ := h.revoked_value_mem
  have hclaims := h.claims_le
  rw [weighed] at hle
  have hvalue := h.value_le
  have hchannel := h.channelValue_lt
  have hout : outboundTotal (fun state => if nextClaimsOutbound isLocal state then 1 else 0)
      self.pendingOutboundHtlcs +
      outboundTotal Weights.holderOnLocal.outbound self.pendingOutboundHtlcs ≤ 0 := by
    rw [outboundTotal, outboundTotal, ← total_add]
    refine total_nonpos fun htlc _ => ?_
    rcases htlc.state with _ | _ | ⟨_ | _⟩ | ⟨_ | _⟩ | ⟨_ | _⟩ <;> cases isLocal <;> simp
  have hin : inboundTotal (fun state => if nextClaimsInbound isLocal state then 1 else 0)
      self.pendingInboundHtlcs ≤
      inboundTotal Weights.onRevocation.inbound self.pendingInboundHtlcs := by
    refine inboundTotal_le (fun state => ?_) _
    rcases state with _ | _ | _ | _ | ⟨_ | _ | _⟩ <;> cases isLocal <;> simp
  simp only [getNextCommitmentValueToSelfMsat, satAdd64]
  have hcastOut := @Weighted.cast_sum_filter _ (·.amountMsat)
    (fun htlc => nextClaimsOutbound isLocal htlc.state) self.pendingOutboundHtlcs
  have hcastIn := @Weighted.cast_sum_filter _ (·.amountMsat)
    (fun htlc => nextClaimsInbound isLocal htlc.state) self.pendingInboundHtlcs
  simp only [outboundTotal, inboundTotal] at hout hin hholder hle hclaims ⊢
  omega

theorem inbound_le_of_validateUpdateAddHtlc {feeEstimator : FeeEstimator} {msg : Htlc}
    (hvalid : self.validateUpdateAddHtlc feeEstimator msg = .ok ()) :
    (msg.amountMsat : ℤ) ≤ self.balance .counterpartyOnLocal := by
  simp only [validateUpdateAddHtlc, bind_eq_ok, Handled.check_eq_ok, Handled.orRefuse_eq_ok,
    Handled.lift_eq_ok, Prod.exists] at hvalid
  obtain ⟨-, -, _, -, _, _, -, -, -, -, -, -, -, _, hlocal, stats, htlcs, rfl, -⟩ := hvalid
  obtain ⟨rfl, hcovers⟩ := coversHtlcs_of_getNextStats hlocal
  obtain ⟨hle, -, hinbound, -⟩ := hcovers
  rw [inboundHtlcsValueMsat_getNextCommitmentHtlcs] at hinbound
  have hnext := h.cast_getNextCommitmentValueToSelfMsat true
  have hcast := @Weighted.cast_sum_filter _ (·.amountMsat)
    (fun htlc => nextIncludesInbound true htlc.state) self.pendingInboundHtlcs
  have hin : inboundTotal Weights.counterpartyOnLocal.inbound self.pendingInboundHtlcs =
      -total (·.amountMsat) (fun htlc => if nextIncludesInbound true htlc.state then 1 else 0)
        self.pendingInboundHtlcs := by
    rw [inboundTotal, ← total_neg]
    refine total_congr fun htlc _ => ?_
    cases htlc.state <;> simp
  have hout : outboundTotal (fun state => if nextClaimsOutbound true state then 1 else 0)
      self.pendingOutboundHtlcs =
      outboundTotal Weights.counterpartyOnLocal.outbound self.pendingOutboundHtlcs := by
    refine total_congr fun htlc _ => ?_
    rcases htlc.state with _ | _ | ⟨_ | _⟩ | ⟨_ | _⟩ | ⟨_ | _⟩ <;> simp
  have hclaims : inboundTotal (fun state => if nextClaimsInbound true state then 1 else 0)
      self.pendingInboundHtlcs = 0 := by
    refine (total_congr fun htlc _ => ?_).trans (show total _ (fun _ => 0) _ = 0 by
      simp [total])
    rcases htlc.state with _ | _ | _ | _ | ⟨_ | _ | _⟩ <;> simp
  have hchannel : self.channelValueMsat = self.params.channelValueSatoshis * 1000 := rfl
  simp only [balance, funds, weighed, Account.weights, hin]
  simp only [candidateInboundMsat] at hinbound
  omega

omit h in
theorem outbound_le_of_getAvailableBalances (h : self.Steady) {feeEstimator : FeeEstimator}
    {balances : AvailableBalances} {amountMsat : ℕ}
    (hcan : self.channelState.canGenerateNewCommitment)
    (havailable : self.getAvailableBalances feeEstimator = .ok (some balances))
    (hne : amountMsat ≠ 0)
    (hmin : balances.nextOutboundHtlcMinimumMsat ≤ amountMsat)
    (hlimit : amountMsat ≤ balances.nextOutboundHtlcLimitMsat) :
    (amountMsat : ℤ) ≤ self.balance .holderOnRemote := by
  obtain ⟨-, houtbound, -, -⟩ := coversHtlcs_of_getAvailableBalances havailable hne hmin hlimit
  rw [outboundHtlcsValueMsat_cons_outbound] at houtbound
  have hpending := self.le_outboundHtlcsValueMsat_getNextCommitmentHtlcs false none true
  have hnext := h.cast_getNextCommitmentValueToSelfMsat false
  have hcast := @Weighted.cast_sum_filter _ (·.amountMsat)
    (fun htlc => nextIncludesOutbound false true htlc.state) self.pendingOutboundHtlcs
  have hin : inboundTotal (fun state => if nextClaimsInbound false state then 1 else 0)
      self.pendingInboundHtlcs =
      inboundTotal Weights.holderOnRemote.inbound self.pendingInboundHtlcs := by
    refine total_congr fun htlc _ => ?_
    rcases htlc.state with _ | _ | _ | _ | ⟨_ | _ | _⟩ <;> simp
  -- no removal waits to be committed to: the prediction leaves those out that failed
  have hremovals := h.removals (ChannelState.not_awaiting_of_canGenerateNewCommitment hcan)
  have hout : outboundTotal (fun state => if nextClaimsOutbound false state then 1 else 0)
      self.pendingOutboundHtlcs + total (·.amountMsat)
        (fun htlc => if nextIncludesOutbound false true htlc.state then 1 else 0)
        self.pendingOutboundHtlcs =
      -outboundTotal Weights.holderOnRemote.outbound self.pendingOutboundHtlcs := by
    rw [outboundTotal, outboundTotal, ← total_neg, ← total_add]
    refine total_congr fun htlc hmem => ?_
    have hstate := hremovals htlc hmem
    revert hstate
    rcases htlc.state with _ | _ | ⟨_ | _⟩ | ⟨_ | _⟩ | ⟨_ | _⟩ <;> simp [requiresCommitment]
  simp only [balance, funds, weighed, Account.weights]
  omega

end Solvent

end FundedChannel

end PqLightning.Commitment
