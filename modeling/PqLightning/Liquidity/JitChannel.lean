import PqLightning.Liquidity.FeeSplit

/-!
# The state of a just-in-time channel

The provider holds intercepted HTLCs in a queue of payments (`lsps2/payment_queue.rs`) until a
payment can bear the opening fee, forwards that payment, and releases the rest once the fee is paid
(`OutboundJITChannelState` of `lsps2/service.rs`).

The fee counts as paid when a single forwarded HTLC has skimmed all of it. A payment of several
parts splits the fee between them, and then no part does.
-/

namespace PqLightning.Liquidity

open List

abbrev ChannelId : Type := Bytes32

/-! ### The queue -/

structure PaymentQueueEntry where
  paymentHash : PaymentHash
  htlcs : List InterceptedHTLC
deriving DecidableEq

structure PaymentQueue where
  payments : List PaymentQueueEntry
deriving DecidableEq

variable (queue : PaymentQueue)

namespace PaymentQueue

def new : PaymentQueue := ⟨[]⟩

/-- The amount and the number of the HTLCs of an entry. -/
def paymentStatus (entry : PaymentQueueEntry) : Except Panic (ℕ × ℕ) := do
  return (← sumMsat entry.htlcs, entry.htlcs.length)

/-- Adds an HTLC to the first entry with its payment hash, and returns that entry. -/
def push (newHtlc : InterceptedHTLC) :
    List PaymentQueueEntry → Except Panic (PaymentQueueEntry × List PaymentQueueEntry)
  | [] =>
    let entry := ⟨newHtlc.paymentHash, [newHtlc]⟩
    return (entry, [entry])
  | entry :: payments =>
    if entry.paymentHash = newHtlc.paymentHash then do
      Panic.unless (∀ htlc ∈ entry.htlcs, htlc.paymentHash = entry.paymentHash) .debugAssertion
      let entry := { entry with htlcs := entry.htlcs ++ [newHtlc] }
      return (entry, entry :: payments)
    else do
      let (pushed, payments) ← push newHtlc payments
      return (pushed, entry :: payments)

def addHtlc (newHtlc : InterceptedHTLC) : Except Panic ((ℕ × ℕ) × PaymentQueue) :=
  match queue.payments.find? (·.htlcs.any (·.interceptId = newHtlc.interceptId)) with
  | some entry => do
    Panic.unless (entry.paymentHash = newHtlc.paymentHash) .debugAssertion
    return (← paymentStatus entry, queue)
  | none => do
    let (entry, payments) ← push newHtlc queue.payments
    return (← paymentStatus entry, ⟨payments⟩)

/-- The first payment of at least an amount, and the others. -/
def popGreaterThanMsat (amountMsat : ℕ) :
    List PaymentQueueEntry → Except Panic (Option (PaymentQueueEntry × PaymentQueue))
  | [] => return none
  | entry :: payments => do
    if amountMsat ≤ (← sumMsat entry.htlcs) then return some (entry, ⟨payments⟩)
    else return (← popGreaterThanMsat amountMsat payments).map fun (popped, queue) =>
      (popped, ⟨entry :: queue.payments⟩)

def clear : List InterceptedHTLC := queue.payments.flatMap (·.htlcs)

variable {htlc : InterceptedHTLC}

theorem clear_push {payments : List PaymentQueueEntry}
    {result : PaymentQueueEntry × List PaymentQueueEntry} (h : push htlc payments = .ok result) :
    clear ⟨result.2⟩ ~ htlc :: clear ⟨payments⟩ := by
  induction payments generalizing result with
  | nil =>
    cases h
    exact Perm.refl _
  | cons entry payments ih =>
    rw [push] at h
    split at h
    · obtain ⟨_, _, h⟩ := bind_eq_ok.mp h
      cases h
      simp only [clear, flatMap_cons, append_assoc]
      exact perm_middle
    · obtain ⟨pushed, hpushed, h⟩ := bind_eq_ok.mp h
      cases h
      simp only [clear, flatMap_cons] at ih ⊢
      exact ((ih hpushed).append_left _).trans perm_middle

variable {queue : PaymentQueue}

/-- **Adding an HTLC**: one whose id is queued changes nothing, any other joins the queue. -/
theorem clear_addHtlc {result : (ℕ × ℕ) × PaymentQueue} (h : queue.addHtlc htlc = .ok result) :
    (result.2 = queue ∧ htlc.interceptId ∈ queue.clear.map (·.interceptId)) ∨
      (result.2.clear ~ htlc :: queue.clear ∧
        htlc.interceptId ∉ queue.clear.map (·.interceptId)) := by
  rw [addHtlc] at h
  split at h
  next entry hentry =>
    obtain ⟨_, _, h⟩ := bind_eq_ok.mp h
    obtain ⟨_, _, h⟩ := bind_eq_ok.mp h
    cases h
    have hany := find?_some hentry
    obtain ⟨queued, hmem, hid⟩ := any_eq_true.mp hany
    refine .inl ⟨rfl, mem_map.mpr ⟨queued, ?_, of_decide_eq_true hid⟩⟩
    exact mem_flatMap.mpr ⟨entry, mem_of_find?_eq_some hentry, hmem⟩
  next hnone =>
    obtain ⟨pushed, hpushed, h⟩ := bind_eq_ok.mp h
    obtain ⟨_, _, h⟩ := bind_eq_ok.mp h
    cases h
    refine .inr ⟨clear_push hpushed, fun hmem => ?_⟩
    obtain ⟨queued, hqueued, hid⟩ := mem_map.mp hmem
    obtain ⟨entry, hentry, hqueued⟩ := mem_flatMap.mp hqueued
    exact find?_eq_none.mp hnone entry hentry
      (any_eq_true.mpr ⟨queued, hqueued, decide_eq_true hid⟩)

theorem mem_clear_addHtlc
    {result : (ℕ × ℕ) × PaymentQueue} (h : queue.addHtlc htlc = .ok result) (id : InterceptId) :
    id ∈ result.2.clear.map (·.interceptId)
      ↔ id ∈ queue.clear.map (·.interceptId) ∨ id = htlc.interceptId := by
  rcases clear_addHtlc h with ⟨hsame, hmem⟩ | ⟨hperm, -⟩
  · rw [hsame]
    exact ⟨.inl, fun hid => hid.elim (fun h => h) fun h => h ▸ hmem⟩
  · rw [(hperm.map _).mem_iff, map_cons, mem_cons, or_comm]

end PaymentQueue

/-! ### The state machine -/

/-- The parts of `LSPS2OpeningFeeParams` that the service reads. -/
structure OpeningFeeParams where
  (minFeeMsat proportional : ℕ)
  /-- In seconds since the epoch. -/
  validUntil : ℕ
  (minPaymentSizeMsat maxPaymentSizeMsat : ℕ)
deriving DecidableEq

def computeOpeningFee (paymentSizeMsat openingFeeMinFeeMsat openingFeeProportional : ℕ) :
    Option ℕ := do
  guard (paymentSizeMsat * openingFeeProportional < 2 ^ 64)
  return max ((paymentSizeMsat * openingFeeProportional + 999999) / 1000000) openingFeeMinFeeMsat

inductive OutboundJITChannelState where
  | pendingInitialPayment (paymentQueue : PaymentQueue)
  | pendingChannelOpen (paymentQueue : PaymentQueue) (openingFeeMsat : ℕ)
  | pendingPaymentForward (paymentQueue : PaymentQueue) (openingFeeMsat : ℕ) (channelId : ChannelId)
  | pendingPayment (paymentQueue : PaymentQueue) (openingFeeMsat : ℕ) (channelId : ChannelId)
  | paymentForwarded (channelId : ChannelId)
deriving DecidableEq

/-- `struct ChannelStateError`: one constructor for each of its messages. -/
inductive ChannelStateError where
  | paymentSizeViolatesLimits (expected min max : ℕ)
  | noValidOpeningFee (minFee proportional expected : ℕ)
  | htlcTooSmall
  | noForwardablePayment
  | unexpectedState (state : OutboundJITChannelState)
deriving DecidableEq

structure FeePayment where
  htlcs : List InterceptedHTLC
  openingFeeMsat : ℕ
deriving DecidableEq

inductive HTLCInterceptedAction where
  | openChannel (openingFeeMsat amtToForwardMsat : ℕ)
  | forwardHTLC (channelId : ChannelId)
  | forwardPayment (channelId : ChannelId) (payment : FeePayment)
deriving DecidableEq

abbrev ForwardPaymentAction : Type := ChannelId × FeePayment

abbrev ForwardHTLCsAction : Type := ChannelId × List InterceptedHTLC

variable (params : OpeningFeeParams)

namespace OutboundJITChannelState

/-- Whether the initial payment opens the channel, if `total` of the `expected` amount is there. -/
def judgeInitialPayment (mppMode : Bool) (expected total : ℕ) (queue : PaymentQueue) :
    Except ChannelStateError (Option HTLCInterceptedAction) × OutboundJITChannelState :=
  if expected < params.minPaymentSizeMsat ∨ params.maxPaymentSizeMsat < expected then
    (.error (.paymentSizeViolatesLimits expected params.minPaymentSizeMsat
      params.maxPaymentSizeMsat),
      pendingInitialPayment queue)
  else match computeOpeningFee expected params.minFeeMsat params.proportional with
  | none => (.error (.noValidOpeningFee params.minFeeMsat params.proportional expected),
      pendingInitialPayment queue)
  | some openingFeeMsat =>
    if expected ≤ total ∧ 0 < expected - openingFeeMsat then
      (.ok (some (.openChannel openingFeeMsat (expected - openingFeeMsat))),
        pendingChannelOpen queue openingFeeMsat)
    else (if mppMode then .ok none else .error .htlcTooSmall, pendingInitialPayment queue)

/-- Takes the first payment that can bear the fee out of the queue, to forward it. -/
def forwardNext (openingFeeMsat : ℕ) (channelId : ChannelId) (otherwise : OutboundJITChannelState) :
    Except Panic (Option ForwardPaymentAction × OutboundJITChannelState) := do
  match ← PaymentQueue.popGreaterThanMsat openingFeeMsat queue.payments with
  | some (entry, queue) => return (some (channelId, ⟨entry.htlcs, openingFeeMsat⟩),
      pendingPaymentForward queue openingFeeMsat channelId)
  | none => return (none, otherwise)

def htlcIntercepted (paymentSizeMsat : Option ℕ) (htlc : InterceptedHTLC) :
    OutboundJITChannelState →
      Except Panic (Except ChannelStateError (Option HTLCInterceptedAction) ×
        OutboundJITChannelState)
  | pendingInitialPayment queue => do
    let ((total, numHtlcs), queue) ← queue.addHtlc htlc
    Panic.unless (paymentSizeMsat.isSome ∨ numHtlcs = 1) .debugAssertion
    return judgeInitialPayment params paymentSizeMsat.isSome (paymentSizeMsat.getD total)
      total queue
  | pendingChannelOpen queue openingFeeMsat => do
    let (_, queue) ← queue.addHtlc htlc
    return (.ok none, pendingChannelOpen queue openingFeeMsat)
  | pendingPaymentForward queue openingFeeMsat channelId => do
    let (_, queue) ← queue.addHtlc htlc
    return (.ok none, pendingPaymentForward queue openingFeeMsat channelId)
  | pendingPayment queue openingFeeMsat channelId => do
    let (_, queue) ← queue.addHtlc htlc
    let (action, state) ←
      forwardNext queue openingFeeMsat channelId (pendingPayment queue openingFeeMsat channelId)
    return (.ok (action.map fun action => .forwardPayment action.1 action.2), state)
  | paymentForwarded channelId =>
    return (.ok (some (.forwardHTLC channelId)), paymentForwarded channelId)

/-- `payment_forwarded` of the state. -/
def onPaymentForwarded (skimmedFeeMsat : ℕ) : OutboundJITChannelState →
    Except ChannelStateError (Option ForwardHTLCsAction) × OutboundJITChannelState
  | state@(pendingPaymentForward queue openingFeeMsat channelId) =>
    if openingFeeMsat ≤ skimmedFeeMsat then
      (.ok (some (channelId, queue.clear)), paymentForwarded channelId)
    else (.ok none, state)
  | state@(paymentForwarded _) => (.ok none, state)
  | state => (.error (.unexpectedState state), state)

end OutboundJITChannelState

/-! ### When the fee counts as paid -/

/-- A call for a channel whose fee payment has been forwarded. -/
inductive FeeCall where
  /-- `payment_forwarded` for an HTLC that was claimed. -/
  | paymentForwarded (skimmedFeeMsat : ℕ)
  | htlcIntercepted (htlc : InterceptedHTLC)

/-- The skimmed fees that a list of calls reports. -/
def claimedFees (calls : List FeeCall) : List ℕ :=
  calls.filterMap fun | .paymentForwarded fee => some fee | .htlcIntercepted _ => none

def interceptedIds (calls : List FeeCall) : List InterceptId :=
  calls.filterMap fun | .paymentForwarded _ => none | .htlcIntercepted htlc => some htlc.interceptId

/-- One call: the state after it, and all HTLCs that have been released without a fee. -/
def feeStep (paymentSizeMsat : Option ℕ) (before : OutboundJITChannelState × List InterceptedHTLC) :
    FeeCall → Except Panic (OutboundJITChannelState × List InterceptedHTLC)
  | .paymentForwarded fee =>
    match before.1.onPaymentForwarded fee with
    | (.ok (some (_, htlcs)), state) => return (state, before.2 ++ htlcs)
    | (_, state) => return (state, before.2)
  | .htlcIntercepted htlc => do
    match ← before.1.htlcIntercepted params paymentSizeMsat htlc with
    | (.ok (some (.forwardHTLC _)), state) => return (state, before.2 ++ [htlc])
    | (_, state) => return (state, before.2)

/-- The channel has recognised its fee, and released all HTLCs, exactly if the fee is paid. -/
def Recognises (fee : ℕ) (channelId : ChannelId) (ids : List InterceptId) (paid : Prop)
    (after : OutboundJITChannelState × List InterceptedHTLC) : Prop :=
  (paid → after.1 = .paymentForwarded channelId ∧
    ∀ id, id ∈ after.2.map (·.interceptId) ↔ id ∈ ids) ∧
  (¬ paid → after.2 = [] ∧ ∃ queue, after.1 = .pendingPaymentForward queue fee channelId ∧
    ∀ id, id ∈ queue.clear.map (·.interceptId) ↔ id ∈ ids)

variable {fee : ℕ} {params : OpeningFeeParams} {size : Option ℕ} {channelId : ChannelId}

theorem Recognises.step {ids : List InterceptId} {paid : Prop}
    {before after : OutboundJITChannelState × List InterceptedHTLC} {call : FeeCall}
    (hbefore : Recognises fee channelId ids paid before)
    (h : feeStep params size before call = .ok after) :
    Recognises fee channelId (ids ++ interceptedIds [call])
      (paid ∨ ∃ skimmed ∈ claimedFees [call], fee ≤ skimmed) after := by
  obtain ⟨state, released⟩ := before
  by_cases hpaid : paid
  · obtain ⟨rfl, hids⟩ := hbefore.1 hpaid
    refine ⟨fun _ => ?_, fun hnot => absurd (.inl hpaid) hnot⟩
    cases call with
    | paymentForwarded skimmed =>
      cases h
      exact ⟨rfl, by simpa [interceptedIds] using hids⟩
    | htlcIntercepted htlc =>
      cases h
      refine ⟨rfl, fun id => ?_⟩
      rw [map_append, mem_append, mem_append, hids]
      simp [interceptedIds]
  · obtain ⟨rfl, queue, rfl, hids⟩ := hbefore.2 hpaid
    cases call with
    | paymentForwarded skimmed =>
      rw [feeStep, OutboundJITChannelState.onPaymentForwarded] at h
      by_cases hfee : fee ≤ skimmed
      · rw [if_pos hfee] at h
        cases h
        refine ⟨fun _ => ⟨rfl, by simpa [interceptedIds] using hids⟩, fun hnot => ?_⟩
        exact absurd (.inr ⟨skimmed, by simp [claimedFees], hfee⟩) hnot
      · rw [if_neg hfee] at h
        cases h
        refine ⟨fun hor => ?_, fun _ => ⟨rfl, queue, rfl, by simpa [interceptedIds] using hids⟩⟩
        simp [hpaid, claimedFees, hfee] at hor
    | htlcIntercepted htlc =>
      obtain ⟨result, hresult, h⟩ := bind_eq_ok.mp h
      obtain ⟨added, hadded, hresult⟩ := bind_eq_ok.mp hresult
      cases hresult
      cases h
      refine ⟨fun hor => ?_, fun _ => ⟨rfl, added.2, rfl, fun id => ?_⟩⟩
      · simp [hpaid, claimedFees] at hor
      · rw [PaymentQueue.mem_clear_addHtlc hadded, mem_append, hids]
        simp [interceptedIds]

/-- **What recognises the fee**: a single part that has skimmed all of it. -/
theorem recognises_foldlM {queue : PaymentQueue} {calls : List FeeCall}
    {after : OutboundJITChannelState × List InterceptedHTLC}
    (h : calls.foldlM (feeStep params size) (.pendingPaymentForward queue fee channelId, []) =
      .ok after) :
    Recognises fee channelId (queue.clear.map (·.interceptId) ++ interceptedIds calls)
      (∃ skimmed ∈ claimedFees calls, fee ≤ skimmed) after := by
  induction calls using List.reverseRecOn generalizing after with
  | nil =>
    cases h
    refine ⟨fun ⟨_, hmem, _⟩ => absurd hmem (by simp [claimedFees]), fun _ => ⟨rfl, queue, rfl, ?_⟩⟩
    simp [interceptedIds]
  | append_singleton calls call ih =>
    rw [foldlM_append] at h
    obtain ⟨before, hbefore, h⟩ := bind_eq_ok.mp h
    rw [foldlM_cons] at h
    obtain ⟨after', hafter, h⟩ := bind_eq_ok.mp h
    cases h
    have hstep := (ih hbefore).step hafter
    simpa only [interceptedIds, claimedFees, filterMap_append, mem_append, or_and_right, exists_or,
      append_assoc] using hstep

theorem foldlM_paymentForwarded (params : OpeningFeeParams) (size : Option ℕ) (fees : List ℕ)
    (before : OutboundJITChannelState × List InterceptedHTLC) :
    ∃ after, (fees.map FeeCall.paymentForwarded).foldlM (feeStep params size) before =
      .ok after := by
  induction fees generalizing before with
  | nil => exact ⟨before, rfl⟩
  | cons skimmed fees ih =>
    have hstep : ∃ next, feeStep params size before (.paymentForwarded skimmed) = .ok next := by
      rw [feeStep]
      split <;> exact ⟨_, rfl⟩
    obtain ⟨next, hnext⟩ := hstep
    rw [map_cons, foldlM_cons, hnext, ok_bind]
    exact ih next

/-- Parts that skim at most the fee between them, one of them all of it: they add up to the fee when
that part is among them. -/
theorem exists_le_iff_sum_eq {fees claimed rest : List ℕ} (hsum : fees.sum ≤ fee)
    (hone : (∃ skimmed ∈ fees, fee ≤ skimmed) ∨ fees.sum < fee) (hperm : fees ~ claimed ++ rest) :
    (∃ skimmed ∈ claimed, fee ≤ skimmed) ↔ claimed ≠ [] ∧ claimed.sum = fee := by
  rw [hperm.sum_eq, sum_append] at hsum hone
  refine ⟨fun ⟨skimmed, hmem, hle⟩ => ⟨ne_nil_of_mem hmem, ?_⟩, fun ⟨hne, hclaimed⟩ => ?_⟩
  · have := le_sum_of_mem hmem
    omega
  · obtain ⟨skimmed, hmem, hle⟩ := hone.resolve_right (by omega)
    rcases mem_append.mp (hperm.mem_iff.mp hmem) with hmem | hmem
    · exact ⟨skimmed, hmem, hle⟩
    · have := le_sum_of_mem hmem
      obtain ⟨first, hfirst⟩ := exists_mem_of_ne_nil _ hne
      exact ⟨first, hfirst, by omega⟩

/-- **When a fee paid in parts is recognised at the call at which the parts add up to it**, in
whatever order the parts are claimed: when one part skims the whole fee, or when they never add up
to it. -/
theorem fee_recognised_iff {htlcs : List InterceptedHTLC} {forwards : List (InterceptId × ℕ)}
    (hne : htlcs ≠ []) (h : calculateAmountToForwardPerHtlc htlcs fee = .ok forwards) :
    (∀ params size channelId queue calls rest after,
      skimmedFees htlcs forwards ~ claimedFees calls ++ rest →
      calls.foldlM (feeStep params size) (.pendingPaymentForward queue fee channelId, []) =
        .ok after →
      Recognises fee channelId (queue.clear.map (·.interceptId) ++ interceptedIds calls)
        (claimedFees calls ≠ [] ∧ (claimedFees calls).sum = fee) after) ↔
    (∃ skimmed ∈ skimmedFees htlcs forwards, fee ≤ skimmed) ∨
      (skimmedFees htlcs forwards).sum < fee := by
  have hsplits := (splits_of_eq_ok hne h).2
  have hfees : skimmedFees htlcs forwards ≠ [] := ne_nil_of_length_pos (by
    rw [skimmedFees, length_zipWith, hsplits.le.length_eq, Nat.min_self]
    exact length_pos_iff.mpr hne)
  have hsum := hsplits.skimmed_le
  generalize skimmedFees htlcs forwards = fees at *
  constructor
  · intro hrecognised
    by_contra hnot
    obtain ⟨hparts, htotal⟩ := not_or.mp hnot
    have hclaimed : claimedFees (fees.map .paymentForwarded) = fees := by
      simp [claimedFees, filterMap_map]
    obtain ⟨after, hafter⟩ := foldlM_paymentForwarded ⟨0, 0, 0, 0, 0⟩ none fees
      (.pendingPaymentForward .new fee (Vector.replicate 32 0), [])
    have hrec := hrecognised _ _ _ _ _ [] after (by simp [hclaimed]) hafter
    have hactual := recognises_foldlM hafter
    rw [hclaimed] at hrec hactual
    obtain ⟨-, queue, hqueue, -⟩ := hactual.2 hparts
    rw [(hrec.1 ⟨hfees, by omega⟩).1] at hqueue
    cases hqueue
  · intro hone params size channelId queue calls rest after hperm hafter
    rw [← exists_le_iff_sum_eq hsum hone hperm]
    exact recognises_foldlM hafter

/-- HTLCs of 1 and 1000 msat and a fee of 10 msat, which the second one pays alone. The channel
waits when the first one is claimed and another HTLC is intercepted, and releases that one when the
second is claimed. -/
theorem fee_recognised_secondPart :
    let other : InterceptedHTLC := ⟨Vector.replicate 32 2, 5, Vector.replicate 32 1⟩
    let entry : PaymentQueueEntry := ⟨Vector.replicate 32 1, [other]⟩
    Recognises 10 (Vector.replicate 32 3) [other.interceptId] ([0] ≠ [] ∧ [0].sum = 10)
      (.pendingPaymentForward ⟨[entry]⟩ 10 (Vector.replicate 32 3), []) ∧
    Recognises 10 (Vector.replicate 32 3) [other.interceptId] ([0, 10] ≠ [] ∧ [0, 10].sum = 10)
      (.paymentForwarded (Vector.replicate 32 3), [other]) := by
  intro other entry
  have key := (@fee_recognised_iff 10
    [⟨Vector.replicate 32 0, 1, Vector.replicate 32 0⟩,
      ⟨Vector.replicate 32 1, 1000, Vector.replicate 32 0⟩]
    [(Vector.replicate 32 0, 1), (Vector.replicate 32 1, 990)] (by simp) (by decide +kernel)).mpr
    (by decide)
  exact ⟨key ⟨0, 0, 0, 0, 0⟩ none _ .new [.paymentForwarded 0, .htlcIntercepted other] [10] _
      (by decide) rfl,
    key ⟨0, 0, 0, 0, 0⟩ none _ .new
      [.paymentForwarded 0, .htlcIntercepted other, .paymentForwarded 10] [] _ (by decide) rfl⟩

/-- A fee of 100 msat split over two HTLCs of 500 msat: both are claimed, and the channel still
waits for its fee. -/
theorem fee_in_two_not_recognised :
    calculateAmountToForwardPerHtlc [⟨Vector.replicate 32 0, 500, Vector.replicate 32 0⟩,
        ⟨Vector.replicate 32 1, 500, Vector.replicate 32 0⟩] 100
      = .ok [(Vector.replicate 32 0, 450), (Vector.replicate 32 1, 450)] ∧
    [FeeCall.paymentForwarded 50, .paymentForwarded 50].foldlM (feeStep ⟨0, 0, 0, 0, 0⟩ none)
        (.pendingPaymentForward .new 100 (Vector.replicate 32 0), [])
      = .ok (.pendingPaymentForward .new 100 (Vector.replicate 32 0), []) :=
  ⟨by decide +kernel, rfl⟩

end PqLightning.Liquidity
