import Mathlib.Algebra.Order.BigOperators.Group.List
import PqLightning.Basic

/-!
# Splitting an opening fee over the HTLCs of a payment

A provider of just-in-time channels takes the fee for opening a channel out of the first payment it
forwards over it. `calculate_amount_to_forward_per_htlc` of `lsps2/service.rs` says how much of each
of the payment's HTLCs is forwarded: every HTLC pays its proportion of the fee, rounded down, and
the last one also what is left.

The last HTLC can be smaller than that. The subtraction then saturates, and less than the fee is
taken.
-/

namespace PqLightning.Liquidity

abbrev InterceptId : Type := Bytes32

abbrev PaymentHash : Type := Bytes32

structure InterceptedHTLC where
  interceptId : InterceptId
  expectedOutboundAmountMsat : ℕ
  paymentHash : PaymentHash
deriving DecidableEq

variable (htlcs : List InterceptedHTLC)

/-- The amounts of a list of HTLCs, added up by `sum::<u64>()`. -/
def sumMsat : Except Panic ℕ :=
  htlcs.foldlM (fun total htlc => addU64 total htlc.expectedOutboundAmountMsat) 0

def totalMsat : ℕ := (htlcs.map (·.expectedOutboundAmountMsat)).sum

/-- The loop of `calculate_amount_to_forward_per_htlc`. -/
def forwardPerHtlc (totalFeeMsat totalExpectedOutboundMsat : ℕ) :
    List InterceptedHTLC → ℕ → Except Panic (List (InterceptId × ℕ))
  | [], _ => return []
  | htlc :: htlcs, feeRemainingMsat => do
    -- a division by zero
    Panic.unless (totalExpectedOutboundMsat ≠ 0) .overflow
    let proportionalFeeAmtMsat :=
      totalFeeMsat * htlc.expectedOutboundAmountMsat / totalExpectedOutboundMsat % 2 ^ 64
    let actualFeeAmtMsat :=
      min (min feeRemainingMsat proportionalFeeAmtMsat) htlc.expectedOutboundAmountMsat
    let feeRemainingMsat := feeRemainingMsat - actualFeeAmtMsat
    let actualFeeAmtMsat ←
      (if htlcs.isEmpty then addU64 actualFeeAmtMsat feeRemainingMsat else pure actualFeeAmtMsat)
    let perHtlcForwards ←
      forwardPerHtlc totalFeeMsat totalExpectedOutboundMsat htlcs feeRemainingMsat
    return (htlc.interceptId, htlc.expectedOutboundAmountMsat - actualFeeAmtMsat) :: perHtlcForwards

def calculateAmountToForwardPerHtlc (totalFeeMsat : ℕ) : Except Panic (List (InterceptId × ℕ)) := do
  let totalExpectedOutboundMsat ← sumMsat htlcs
  Panic.unless (totalFeeMsat ≤ totalExpectedOutboundMsat) .debugAssertion
  forwardPerHtlc totalFeeMsat totalExpectedOutboundMsat htlcs totalFeeMsat

/-! ### Sums -/

theorem totalMsat_cons (htlc : InterceptedHTLC) (htlcs : List InterceptedHTLC) :
    totalMsat (htlc :: htlcs) = htlc.expectedOutboundAmountMsat + totalMsat htlcs :=
  List.sum_cons

theorem le_totalMsat {htlcs : List InterceptedHTLC} {htlc : InterceptedHTLC} (h : htlc ∈ htlcs) :
    htlc.expectedOutboundAmountMsat ≤ totalMsat htlcs :=
  List.le_sum_of_mem (List.mem_map_of_mem h)

theorem sumMsat_eq_ok {htlcs : List InterceptedHTLC} {total : ℕ} :
    sumMsat htlcs = .ok total ↔ totalMsat htlcs < 2 ^ 64 ∧ total = totalMsat htlcs := by
  have key : ∀ start, start < 2 ^ 64 →
      (htlcs.foldlM (fun total htlc => addU64 total htlc.expectedOutboundAmountMsat)
        start = .ok total
        ↔ start + totalMsat htlcs < 2 ^ 64 ∧ total = start + totalMsat htlcs) := by
    induction htlcs with
    | nil => exact fun start h => ⟨fun h' => ⟨h, (Except.ok.inj h').symm⟩, fun h' => h'.2 ▸ rfl⟩
    | cons htlc htlcs ih =>
      intro start h
      rw [totalMsat_cons, ← Nat.add_assoc, List.foldlM_cons, bind_eq_ok]
      constructor
      · rintro ⟨next, hnext, hrest⟩
        obtain ⟨hlt, rfl⟩ := addU64_eq_ok.mp hnext
        exact (ih _ hlt).mp hrest
      · intro hsum
        exact ⟨_, addU64_of_lt (by omega), (ih _ (by omega)).mpr hsum⟩
  rw [sumMsat, key 0 (by decide), Nat.zero_add]

/-! ### Shares of the fee -/

/-- What an HTLC pays in proportion to its amount. -/
def share (fee total : ℕ) (htlc : InterceptedHTLC) : ℕ :=
  fee * htlc.expectedOutboundAmountMsat / total

/-- What each HTLC of a payment contributes: its amount less what is forwarded of it. -/
def skimmedFees (forwards : List (InterceptId × ℕ)) : List ℕ :=
  List.zipWith (fun htlc forward => htlc.expectedOutboundAmountMsat - forward.2) htlcs forwards

variable {fee total : ℕ} {htlcs : List InterceptedHTLC}

theorem share_le (hfee : fee ≤ total) (htlc : InterceptedHTLC) :
    share fee total htlc ≤ htlc.expectedOutboundAmountMsat :=
  Nat.div_le_of_le_mul (Nat.mul_le_mul_right _ hfee)

theorem mul_sum_share_le (fee total : ℕ) (htlcs : List InterceptedHTLC) :
    total * (htlcs.map (share fee total)).sum ≤ fee * totalMsat htlcs := by
  induction htlcs with
  | nil => exact Nat.le_refl 0
  | cons htlc htlcs ih =>
    rw [List.map_cons, List.sum_cons, totalMsat_cons, Nat.mul_add, Nat.mul_add]
    exact Nat.add_le_add (Nat.mul_div_le _ _) ih

/-- Shares are rounded down, so together they are not more than the fee. -/
theorem sum_share_le (hpos : 0 < total) (h : totalMsat htlcs ≤ total) :
    (htlcs.map (share fee total)).sum ≤ fee := by
  refine Nat.le_of_mul_le_mul_left ?_ hpos
  calc total * (htlcs.map (share fee total)).sum
      ≤ fee * totalMsat htlcs := mul_sum_share_le fee total htlcs
    _ ≤ fee * total := Nat.mul_le_mul_left _ h
    _ = total * fee := Nat.mul_comm _ _

/-- What is forwarded of each HTLC when the last one is charged what the shares of the others leave
of `remaining`, and pays that if it can. -/
structure Splits (fee total : ℕ) (htlcs : List InterceptedHTLC) (hne : htlcs ≠ []) (remaining : ℕ)
    (forwards : List (InterceptId × ℕ)) : Prop where
  ids : forwards.map Prod.fst = htlcs.map (·.interceptId)
  le : List.Forall₂ (fun forward htlc => forward.2 ≤ htlc.expectedOutboundAmountMsat) forwards htlcs
  skimmed_le : (skimmedFees htlcs forwards).sum ≤ remaining
  exact_iff : (forwards.map Prod.snd).sum + remaining = totalMsat htlcs ↔
    remaining ≤ (htlcs.dropLast.map (share fee total)).sum
      + (htlcs.getLast hne).expectedOutboundAmountMsat

theorem exists_splits (hpos : 0 < total) (hfee : fee ≤ total) (hne : htlcs ≠ []) {remaining : ℕ}
    (hremaining : remaining < 2 ^ 64)
    (hshares : (htlcs.dropLast.map (share fee total)).sum ≤ remaining)
    (hamounts : ∀ htlc ∈ htlcs, htlc.expectedOutboundAmountMsat < 2 ^ 64) :
    ∃ forwards, forwardPerHtlc fee total htlcs remaining = .ok forwards ∧
      Splits fee total htlcs hne remaining forwards := by
  induction htlcs generalizing remaining with
  | nil => exact absurd rfl hne
  | cons htlc htlcs ih =>
    rw [forwardPerHtlc, Panic.unless_of _ (by omega), ok_bind]
    extract_lets proportional actual rest
    by_cases hlast : htlcs = []
    · subst hlast
      have hadd : actual + rest = remaining := Nat.add_sub_of_le (by omega)
      have hactual : addU64 actual rest = .ok remaining := hadd ▸ addU64_of_lt (hadd ▸ hremaining)
      rw [List.isEmpty_nil, if_pos rfl, hactual]
      refine ⟨_, rfl, rfl, .cons (Nat.sub_le _ _) .nil, ?_, ?_⟩
      · simp only [skimmedFees, List.zipWith, List.sum_singleton]
        omega
      · simp only [List.map_cons, List.map_nil, List.sum_singleton, totalMsat,
          List.dropLast_singleton, List.sum_nil, List.getLast_singleton]
        omega
    · have hdrop := congrArg (fun l => (l.map (share fee total)).sum)
        (List.dropLast_cons_of_ne_nil (x := htlc) hlast)
      have hle := share_le hfee htlc
      have hamount := hamounts htlc List.mem_cons_self
      simp only [List.map_cons, List.sum_cons] at hdrop
      have hactual : actual = share fee total htlc := by
        have : proportional = share fee total htlc := Nat.mod_eq_of_lt (hle.trans_lt hamount)
        omega
      have hrest : rest = remaining - share fee total htlc := by omega
      obtain ⟨forwards, hforwards, hsplits⟩ :=
        @ih hlast (remaining - share fee total htlc) (by omega)
        (by omega) fun other hother => hamounts other (List.mem_cons_of_mem _ hother)
      have hskimmed := hsplits.skimmed_le
      have hexact := hsplits.exact_iff
      rw [if_neg (by simpa using hlast), hrest, hforwards, hactual]
      refine ⟨_, rfl, congrArg (_ :: ·) hsplits.ids, .cons (Nat.sub_le _ _) hsplits.le, ?_, ?_⟩
      · simp only [skimmedFees, List.zipWith_cons_cons, List.sum_cons] at hskimmed ⊢
        omega
      · rw [List.map_cons, List.sum_cons, totalMsat_cons, List.getLast_cons hlast]
        omega

/-- **What is returned** for a payment that can bear the fee. -/
theorem exists_splits_of_le (hne : htlcs ≠ []) (hsum : totalMsat htlcs < 2 ^ 64)
    (hpos : 0 < totalMsat htlcs) (hfee : fee ≤ totalMsat htlcs) :
    ∃ forwards, calculateAmountToForwardPerHtlc htlcs fee = .ok forwards ∧
      Splits fee (totalMsat htlcs) htlcs hne fee forwards := by
  have hrest : totalMsat htlcs.dropLast ≤ totalMsat htlcs :=
    ((List.dropLast_sublist htlcs).map _).sum_le_sum fun _ _ => Nat.zero_le _
  rw [calculateAmountToForwardPerHtlc, sumMsat_eq_ok.mpr ⟨hsum, rfl⟩, ok_bind,
    Panic.unless_of _ hfee, ok_bind]
  exact exists_splits hpos hfee hne (by omega) (sum_share_le hpos hrest) fun htlc hmem =>
    (le_totalMsat hmem).trans_lt hsum

/-- Nothing is returned where the fee, or the sum, does not make sense. -/
theorem splits_of_eq_ok {forwards : List (InterceptId × ℕ)} (hne : htlcs ≠ [])
    (h : calculateAmountToForwardPerHtlc htlcs fee = .ok forwards) :
    0 < totalMsat htlcs ∧ Splits fee (totalMsat htlcs) htlcs hne fee forwards := by
  obtain ⟨total, htotal, hloop⟩ := bind_eq_ok.mp h
  obtain ⟨hsum, rfl⟩ := sumMsat_eq_ok.mp htotal
  obtain ⟨_, hfee, hloop⟩ := bind_eq_ok.mp hloop
  have hpos : 0 < totalMsat htlcs := by
    obtain ⟨htlc, rest, hcons⟩ := List.exists_cons_of_ne_nil hne
    rw [hcons, forwardPerHtlc, ← hcons] at hloop
    obtain ⟨_, hpos, -⟩ := bind_eq_ok.mp hloop
    exact Nat.pos_of_ne_zero (Panic.unless_eq_ok.mp hpos)
  obtain ⟨forwards', h', hsplits⟩ := exists_splits_of_le hne hsum hpos (Panic.unless_eq_ok.mp hfee)
  exact ⟨hpos, Except.ok.inj (h.symm.trans h') ▸ hsplits⟩

/-- **The fee is skimmed exactly**: one amount for each HTLC, in order and at most the HTLC's own,
and what is not forwarded is the fee. -/
def SkimsExactly (htlcs : List InterceptedHTLC) (fee : ℕ) : Prop :=
  ∃ forwards, calculateAmountToForwardPerHtlc htlcs fee = .ok forwards ∧
    forwards.map Prod.fst = htlcs.map (·.interceptId) ∧
    List.Forall₂ (fun forward htlc => forward.2 ≤ htlc.expectedOutboundAmountMsat) forwards htlcs ∧
    (forwards.map Prod.snd).sum + fee = totalMsat htlcs

/-- **When the fee is skimmed exactly**: when the last HTLC can pay what the shares of the others
leave, and the HTLCs are worth anything at all. -/
theorem skimsExactly_iff (hne : htlcs ≠ []) (hsum : totalMsat htlcs < 2 ^ 64)
    (hfee : fee ≤ totalMsat htlcs) :
    SkimsExactly htlcs fee ↔ 0 < totalMsat htlcs ∧
      fee ≤ (htlcs.dropLast.map (share fee (totalMsat htlcs))).sum
        + (htlcs.getLast hne).expectedOutboundAmountMsat := by
  constructor
  · rintro ⟨forwards, h, -, -, hexact⟩
    obtain ⟨hpos, hsplits⟩ := splits_of_eq_ok hne h
    exact ⟨hpos, hsplits.exact_iff.mp hexact⟩
  · rintro ⟨hpos, hlast⟩
    obtain ⟨forwards, h, hsplits⟩ := exists_splits_of_le hne hsum hpos hfee
    exact ⟨forwards, h, hsplits.ids, hsplits.le, hsplits.exact_iff.mpr hlast⟩

/-- HTLCs of 1, 1 and 2 msat and a fee of 2 msat: the shares of the first two are rounded down to
nothing, and the last pays it all. -/
theorem skimsExactly_lastPays :
    SkimsExactly ([1, 1, 2].map fun amt => ⟨Vector.replicate 32 0, amt, Vector.replicate 32 0⟩) 2 :=
  (skimsExactly_iff (by decide) (by decide) (by decide)).mpr (by decide)

/-- Three HTLCs of 1 msat and a fee of 2 msat: every share is rounded down to nothing, the last HTLC
cannot pay 2 msat, and only 1 msat of the fee is taken. -/
theorem not_skimsExactly_thirds :
    ¬ SkimsExactly (List.replicate 3 ⟨Vector.replicate 32 0, 1, Vector.replicate 32 0⟩) 2 := by
  rintro ⟨forwards, h, -, -, hexact⟩
  have hforwards : (Except.ok forwards).map (List.map Prod.snd)
      = (.ok [1, 1, 0] : Except Panic _) := by
    rw [← h]
    decide +kernel
  rw [Except.ok.inj hforwards] at hexact
  cases hexact

end PqLightning.Liquidity
