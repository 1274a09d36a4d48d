import Mathlib.Tactic.Ring
import PqLightning.Closing.Channel

/-!
# What the handlers of a closing negotiation do

`build_closing_transaction` asserts what it needs: that no HTLC and no update of the feerate is
pending, and that the party that pays the fee can afford it. `closing_signed` checks only the first
of these itself. For each handler this module says exactly when it panics, and what it can do when
it returns.
-/

namespace PqLightning.Closing

open Option

variable {Script Sig : Type}

/-- The computation does not panic. -/
def Returns {α : Type} (x : Except Panic α) : Prop := ∃ a, x = .ok a

/-- **The contract of a handler**: exactly when it returns, and what it can then have done. -/
structure Meets {α β : Type} (x : Except Panic (α × β)) (safe : Prop) (step : α → β → Prop) :
    Prop where
  returns_iff : Returns x ↔ safe
  steps : ∀ a b, x = .ok (a, b) → step a b

section

variable {α β : Type} {safe : Prop} {step : α → β → Prop}

theorem Meets.of_ok {a : α} {b : β} (hsafe : safe) (hstep : step a b) :
    Meets (.ok (a, b)) safe step :=
  ⟨⟨fun _ => hsafe, fun _ => ⟨_, rfl⟩⟩, fun _ _ heq => by cases heq; exact hstep⟩

theorem Meets.of_panic {x : Except Panic (α × β)} (hpanic : ¬Returns x) (hsafe : ¬safe) :
    Meets x safe step :=
  ⟨iff_of_false hpanic hsafe, fun _ _ heq => absurd ⟨_, heq⟩ hpanic⟩

end

namespace FundedChannel

variable {crypto : Crypto Script Sig} {env : CallEnv} {ch ch' : FundedChannel Script Sig}

/-! ### What a closing channel is like -/

def feePayerBalance (self : FundedChannel Script Sig) : ℕ :=
  if self.isOutbound then self.valueToSelfMsat / 1000
  else (self.valueSatoshis * 1000 - self.valueToSelfMsat) / 1000

def minClosingFee (crypto : Crypto Script Sig) (env : CallEnv) (self : FundedChannel Script Sig) :
    ℕ :=
  match self.closingFeeLimits with
  | some limits => limits.1
  | none => (self.proposedFeerates env).1.toNat * self.closingWeight crypto / 1000

/-- **What holds of a channel that both sides shut down.** -/
structure WellFormed (crypto : Crypto Script Sig) (ch : FundedChannel Script Sig) : Prop where
  value_le : ch.valueSatoshis ≤ totalBitcoinSupplySatoshis
  balance_le : ch.valueToSelfMsat ≤ ch.valueSatoshis * 1000
  /-- Both sides gave their scripts when they sent `shutdown`. -/
  script : ch.shutdownScriptpubkey.isSome
  counterpartyScript : ch.counterpartyShutdownScriptpubkey.isSome
  /-- The scripts fit into a message. -/
  scriptLen_lt : ∀ script, ch.shutdownScriptpubkey = some script → crypto.scriptLen script < 2 ^ 16
  counterpartyScriptLen_lt : ∀ script, ch.counterpartyShutdownScriptpubkey = some script →
    crypto.scriptLen script < 2 ^ 16
  /-- When the counterparty pays we accept any fee it can afford. -/
  limits : ∀ limits, ch.closingFeeLimits = some limits → ch.isOutbound = false →
    limits.2 = ch.feePayerBalance
  minFee_lt : ∀ limits, ch.closingFeeLimits = some limits → limits.1 < 2 ^ 63
  /-- What was proposed can be paid. -/
  sent : ∀ last, ch.lastSentClosingFee = some last →
    ch.closingFeeLimits.isSome ∧ last.feeSatoshis ≤ ch.feePayerBalance

variable (h : ch.WellFormed crypto)

section

include h

theorem WellFormed.feePayerBalance_le : ch.feePayerBalance ≤ totalBitcoinSupplySatoshis := by
  have hvalue := h.value_le
  have hbalance := h.balance_le
  unfold feePayerBalance
  split <;> omega

theorem WellFormed.scripts :
    ∃ a b, ch.shutdownScriptpubkey = some a ∧ ch.counterpartyShutdownScriptpubkey = some b := by
  obtain ⟨a, ha⟩ := isSome_iff_exists.1 h.script
  obtain ⟨b, hb⟩ := isSome_iff_exists.1 h.counterpartyScript
  exact ⟨a, b, ha, hb⟩

theorem WellFormed.closingWeight_lt : ch.closingWeight crypto < 2 ^ 20 := by
  obtain ⟨a, b, ha, hb⟩ := h.scripts
  have hlenA := h.scriptLen_lt a ha
  have hlenB := h.counterpartyScriptLen_lt b hb
  simp only [closingWeight, getClosingTransactionWeight, outputWeight, ha, hb, map_some,
    getD_some, fundingRedeemscriptLen]
  omega

theorem WellFormed.congr
    (hfields : (ch'.isOutbound, ch'.valueSatoshis, ch'.valueToSelfMsat, ch'.shutdownScriptpubkey,
        ch'.counterpartyShutdownScriptpubkey, ch'.closingFeeLimits, ch'.lastSentClosingFee) =
      (ch.isOutbound, ch.valueSatoshis, ch.valueToSelfMsat, ch.shutdownScriptpubkey,
        ch.counterpartyShutdownScriptpubkey, ch.closingFeeLimits, ch.lastSentClosingFee)) :
    ch'.WellFormed crypto := by
  simp only [Prod.mk.injEq] at hfields
  obtain ⟨hout, hvalue, hself, hscript, hcounterparty, hlimits, hlast⟩ := hfields
  have hbalance : ch'.feePayerBalance = ch.feePayerBalance := by
    simp only [feePayerBalance, hout, hvalue, hself]
  refine ⟨?_, ?_, ?_, ?_, ?_, ?_, ?_, ?_, ?_⟩
  · rw [hvalue]; exact h.value_le
  · rw [hvalue, hself]; exact h.balance_le
  · rw [hscript]; exact h.script
  · rw [hcounterparty]; exact h.counterpartyScript
  · rw [hscript]; exact h.scriptLen_lt
  · rw [hcounterparty]; exact h.counterpartyScriptLen_lt
  · rw [hlimits, hout, hbalance]; exact h.limits
  · rw [hlimits]; exact h.minFee_lt
  · rw [hlast, hlimits, hbalance]; exact h.sent

/-! ### The closing transaction -/

def txAt (self : FundedChannel Script Sig) (toHolderScript toCounterpartyScript : Script) (fee : ℕ)
    (skipRemoteOutput : Bool) : ClosingTransaction Script :=
  let toHolder := self.valueToSelfMsat / 1000 - if self.isOutbound then fee else 0
  let toCounterparty := (self.valueSatoshis * 1000 - self.valueToSelfMsat) / 1000 -
    if self.isOutbound then 0 else fee
  { toHolderValueSat := if toHolder ≤ self.holderDustLimitSatoshis then 0 else toHolder
    toCounterpartyValueSat :=
      if skipRemoteOutput ∨ toCounterparty ≤ self.holderDustLimitSatoshis then 0 else toCounterparty
    toHolderScript
    toCounterpartyScript }

theorem WellFormed.values {fee : ℕ} (hfee : fee < 2 ^ 63) :
    asI64 ch.valueToSelfMsat / 1000 - (if ch.isOutbound then asI64 fee else 0) =
      ((ch.valueToSelfMsat / 1000 : ℕ) : ℤ) - (if ch.isOutbound then (fee : ℤ) else 0) ∧
    mulU64 ch.valueSatoshis 1000 = .ok (ch.valueSatoshis * 1000) ∧
    subU64 (ch.valueSatoshis * 1000) ch.valueToSelfMsat =
      .ok (ch.valueSatoshis * 1000 - ch.valueToSelfMsat) ∧
    asI64 (ch.valueSatoshis * 1000 - ch.valueToSelfMsat) / 1000 -
        (if ch.isOutbound then 0 else asI64 fee) =
      (((ch.valueSatoshis * 1000 - ch.valueToSelfMsat) / 1000 : ℕ) : ℤ) -
        (if ch.isOutbound then 0 else (fee : ℤ)) := by
  have hvalue := h.value_le
  have hbalance := h.balance_le
  simp only [totalBitcoinSupplySatoshis] at hvalue
  rw [asI64_of_lt (by omega), asI64_of_lt hfee,
    asI64_of_lt (show ch.valueSatoshis * 1000 - ch.valueToSelfMsat < 2 ^ 63 by omega)]
  exact ⟨by simp, mulU64_of_lt (by omega), subU64_of_le hbalance, by simp⟩

end

variable {toHolderScript toCounterpartyScript : Script} {fee : ℕ} {skip : Bool}

theorem nonneg_of_closingTransaction_returns {valueToHolder valueToCounterparty : ℤ}
    (h : Returns (ch.closingTransaction skip valueToHolder valueToCounterparty)) :
    0 ≤ valueToHolder ∧ 0 ≤ valueToCounterparty := by
  obtain ⟨r, hr⟩ := h
  by_contra hneg
  by_cases hcp : 0 ≤ valueToCounterparty
  · have hholder : ¬0 ≤ valueToHolder := fun hholder => hneg ⟨hholder, hcp⟩
    simp [closingTransaction, Panic.unless, hcp, hholder, not_lt.2 hcp, bind, Except.bind] at hr
  · simp [closingTransaction, Panic.unless, hcp, bind, Except.bind] at hr

section

variable (hhtlc : ch.pendingInboundHtlcs = 0 ∧ ch.pendingOutboundHtlcs = 0)

include h hhtlc

theorem WellFormed.buildClosingTransaction_eq
    (hpending : ch.pendingUpdateFee = none) (hfee : fee < 2 ^ 63) :
    let valueToHolder := ((ch.valueToSelfMsat / 1000 : ℕ) : ℤ) -
      if ch.isOutbound then (fee : ℤ) else 0
    let valueToCounterparty :=
      (((ch.valueSatoshis * 1000 - ch.valueToSelfMsat) / 1000 : ℕ) : ℤ) -
        if ch.isOutbound then 0 else (fee : ℤ)
    ch.buildClosingTransaction fee skip = (do
      let total ← ch.totalFee fee valueToHolder valueToCounterparty
      let tx ← ch.closingTransaction skip valueToHolder valueToCounterparty
      return tx.map fun tx => (tx, total)) := by
  obtain ⟨hholder, hmul, hsub, hcp⟩ := h.values hfee
  intro valueToHolder valueToCounterparty
  simp [buildClosingTransaction, Panic.unless_of _ hhtlc.1, Panic.unless_of _ hhtlc.2, hpending,
    Panic.unless_of, hmul, hsub, hholder, hcp, ok_bind, valueToHolder, valueToCounterparty]

section

variable (hpending : ch.pendingUpdateFee = none)
  (hscript : ch.shutdownScriptpubkey = some toHolderScript)
  (hcounterparty : ch.counterpartyShutdownScriptpubkey = some toCounterpartyScript)

include hscript hcounterparty

omit h hhtlc in
theorem closingTransaction_natCast (toHolder toCounterparty : ℕ) :
    ch.closingTransaction skip toHolder toCounterparty = .ok (.ok
      { toHolderValueSat := if toHolder ≤ ch.holderDustLimitSatoshis then 0 else toHolder
        toCounterpartyValueSat :=
          if skip ∨ toCounterparty ≤ ch.holderDustLimitSatoshis then 0 else toCounterparty
        toHolderScript
        toCounterpartyScript }) := by
  have hholder : ¬((toHolder : ℤ) < 0) := by omega
  have hcp : ¬((toCounterparty : ℤ) < 0) := by omega
  simp [closingTransaction, Panic.unless, hscript, hcounterparty, hholder, hcp, bind, Except.bind,
    pure, Except.pure]

include hpending

/-- **A fee that can be paid** gives the closing transaction. -/
theorem buildClosingTransaction_of_le (hfee : fee ≤ ch.feePayerBalance) (skip : Bool) :
    ch.buildClosingTransaction fee skip =
      .ok (.ok (ch.txAt toHolderScript toCounterpartyScript fee skip, fee)) := by
  have hle := h.feePayerBalance_le
  simp only [totalBitcoinSupplySatoshis] at hle
  have htotal : ∀ a b : ℕ, ch.totalFee fee a b = .ok fee := fun a b => by
    rw [totalFee, if_neg (by omega), if_neg (by omega)]
  rw [h.buildClosingTransaction_eq hhtlc hpending (by omega)]
  unfold feePayerBalance at hfee
  by_cases hout : ch.isOutbound
  · simp only [hout, if_true] at hfee
    simp only [hout, if_true, sub_zero, ← Nat.cast_sub hfee, htotal,
      closingTransaction_natCast hscript hcounterparty, txAt, Nat.sub_zero]
    rfl
  · simp only [hout, Bool.false_eq_true, if_false] at hfee
    simp only [hout, Bool.false_eq_true, if_false, sub_zero, ← Nat.cast_sub hfee, htotal,
      closingTransaction_natCast hscript hcounterparty, txAt, Nat.sub_zero]
    rfl

end

/-- **A fee that cannot be paid**, or a pending update of the feerate, is a panic. -/
theorem buildClosingTransaction_returns_iff (hfee : fee < 2 ^ 63) :
    Returns (ch.buildClosingTransaction fee skip) ↔
      ch.pendingUpdateFee = none ∧ fee ≤ ch.feePayerBalance := by
  constructor
  · intro hreturns
    have hpending : ch.pendingUpdateFee = none := by
      obtain ⟨r, hr⟩ := hreturns
      simp only [buildClosingTransaction, bind_eq_ok, Panic.unless_eq_ok, exists_const] at hr
      simpa using hr.2.2.1
    refine ⟨hpending, ?_⟩
    rw [h.buildClosingTransaction_eq hhtlc hpending hfee] at hreturns
    obtain ⟨r, hr⟩ := hreturns
    simp only [bind_eq_ok] at hr
    obtain ⟨_, -, tx, htx, -⟩ := hr
    have hnonneg := nonneg_of_closingTransaction_returns ⟨tx, htx⟩
    unfold feePayerBalance
    by_cases hout : ch.isOutbound
    · simp only [hout, if_true] at hnonneg ⊢
      omega
    · simp only [hout, Bool.false_eq_true, if_false] at hnonneg ⊢
      omega
  · rintro ⟨hpending, hle⟩
    obtain ⟨a, b, ha, hb⟩ := h.scripts
    exact ⟨_, buildClosingTransaction_of_le h hhtlc hpending ha hb hle skip⟩

end

/-! ### The fees we accept -/

/-- The sum that the largest fee of a funder is computed from fits its type. -/
def MaxFeeFits (crypto : Crypto Script Sig) (env : CallEnv) (self : FundedChannel Script Sig) :
    Prop :=
  self.isOutbound → self.closingFeeLimits = none →
    env.nonAnchorChannelFee.toNat * self.closingWeight crypto / 1000 +
      self.forceCloseAvoidanceMaxFeeSatoshis < 2 ^ 64

section

include h

theorem WellFormed.feeFor_eq (feerate : UInt32) :
    feeFor feerate (ch.closingWeight crypto) =
      .ok (feerate.toNat * ch.closingWeight crypto / 1000) := by
  have hweight := h.closingWeight_lt
  have hfeerate := feerate.toNat_lt
  have hmul : feerate.toNat * ch.closingWeight crypto < 2 ^ 64 :=
    calc feerate.toNat * ch.closingWeight crypto
        ≤ 2 ^ 32 * 2 ^ 20 := Nat.mul_le_mul hfeerate.le hweight.le
      _ < 2 ^ 64 := by decide
  rw [feeFor, mulU64_of_lt hmul]
  rfl

theorem WellFormed.minClosingFee_lt : ch.minClosingFee crypto env < 2 ^ 63 := by
  rcases hlimits : ch.closingFeeLimits with _ | limits
  · have hmul : (ch.proposedFeerates env).1.toNat * ch.closingWeight crypto ≤ 2 ^ 32 * 2 ^ 20 :=
      Nat.mul_le_mul (UInt32.toNat_lt _).le h.closingWeight_lt.le
    simp only [minClosingFee, hlimits]
    omega
  · simp only [minClosingFee, hlimits]
    exact h.minFee_lt limits hlimits

theorem WellFormed.max_eq_feePayerBalance (hin : ch.isOutbound = false) :
    subU64 ch.valueSatoshis ((ch.valueToSelfMsat + 999) / 1000) = .ok ch.feePayerBalance := by
  have hbalance := h.balance_le
  rw [subU64_of_le (by omega)]
  simp only [feePayerBalance, hin, Bool.false_eq_true, if_false, Except.ok.injEq]
  omega

theorem proposedMaxTotalFeeSatoshis_eq
    (hlimits : ch.closingFeeLimits = none) (hfits : ch.MaxFeeFits crypto env) :
    ∃ maxFee, ch.proposedMaxTotalFeeSatoshis crypto env = .ok maxFee ∧
      (ch.isOutbound = false → maxFee = ch.feePayerBalance) := by
  by_cases hout : ch.isOutbound
  · have hsum := addU64_of_lt (hfits hout hlimits)
    simp only [proposedMaxTotalFeeSatoshis, hout, if_true, h.feeFor_eq, ok_bind, hsum]
    exact ⟨_, rfl, fun hin => by cases hin⟩
  · have hin : ch.isOutbound = false := by simpa using hout
    simp only [proposedMaxTotalFeeSatoshis, hin, Bool.false_eq_true, if_false,
      h.max_eq_feePayerBalance hin]
    exact ⟨_, rfl, fun _ => rfl⟩

/-- **The limits of our fee**: they are remembered. -/
theorem calculateClosingFeeLimits_eq (hfits : ch.MaxFeeFits crypto env) :
    ∃ maxFee, ch.calculateClosingFeeLimits crypto env =
        .ok ({ ch with closingFeeLimits := some (ch.minClosingFee crypto env, maxFee) },
          (ch.minClosingFee crypto env, maxFee)) ∧
      (ch.isOutbound = false → maxFee = ch.feePayerBalance) := by
  rcases hlimits : ch.closingFeeLimits with _ | ⟨minFee, maxFee⟩
  · obtain ⟨maxFee, hmax, hbalance⟩ := proposedMaxTotalFeeSatoshis_eq h hlimits hfits
    refine ⟨maxFee, ?_, hbalance⟩
    simp only [calculateClosingFeeLimits, minClosingFee, hlimits, Panic.unless_of _ h.script,
      Panic.unless_of _ h.counterpartyScript, h.feeFor_eq, hmax, ok_bind]
    rfl
  · refine ⟨maxFee, ?_, h.limits _ hlimits⟩
    simp only [calculateClosingFeeLimits, minClosingFee, hlimits]
    rw [← hlimits]

theorem maxFeeFits_of_returns
    (hreturns : Returns (ch.calculateClosingFeeLimits crypto env)) : ch.MaxFeeFits crypto env := by
  intro hout hlimits
  obtain ⟨r, hr⟩ := hreturns
  simp only [calculateClosingFeeLimits, hlimits, bind_eq_ok, proposedMaxTotalFeeSatoshis, hout,
    if_true] at hr
  obtain ⟨-, -, -, -, -, -, -, ⟨normalFee, hnormal, sum, hsum, -⟩, -⟩ := hr
  rw [h.feeFor_eq] at hnormal
  cases hnormal
  unfold addU64 at hsum
  split_ifs at hsum with hlt
  exact hlt

end

/-! ### Answering a message -/

variable {msg : ClosingSigned Sig}

/-- The message gets past the checks that `closing_signed` starts with. -/
def Accepts (self : FundedChannel Script Sig) (msg : ClosingSigned Sig) : Prop :=
  self.closingSignedRefusal msg = none ∧ self.channelState.isMonitorUpdateInProgress = false

theorem Accepts.checks (h : ch.Accepts msg) :
    ch.channelState.isBothSidesShutdown ∧
      (ch.pendingInboundHtlcs = 0 ∧ ch.pendingOutboundHtlcs = 0) ∧
      msg.feeSatoshis ≤ totalBitcoinSupplySatoshis ∧
      (ch.isOutbound → ch.lastSentClosingFee.isSome) := by
  have hrefusal := h.1
  unfold closingSignedRefusal at hrefusal
  split_ifs at hrefusal with _ hshutdown _ hhtlc hfee hfirst
  push Not at hhtlc
  refine ⟨by simpa using hshutdown, hhtlc, not_lt.1 hfee, fun hout => ?_⟩
  by_contra hsent
  exact hfirst ⟨hout, by simpa using hsent⟩

def leftOut (crypto : Crypto Script Sig) (self : FundedChannel Script Sig)
    (toHolderScript toCounterpartyScript : Script) (msg : ClosingSigned Sig) : Bool :=
  !crypto.verify (self.txAt toHolderScript toCounterpartyScript msg.feeSatoshis false) msg.signature

/-- The transaction the counterparty signed, if its signature is valid. -/
def txOf (crypto : Crypto Script Sig) (self : FundedChannel Script Sig)
    (toHolderScript toCounterpartyScript : Script) (msg : ClosingSigned Sig) :
    ClosingTransaction Script :=
  self.txAt toHolderScript toCounterpartyScript msg.feeSatoshis
    (self.leftOut crypto toHolderScript toCounterpartyScript msg)

section

include h

theorem checkClosingSigned_eq (hhtlc : ch.pendingInboundHtlcs = 0 ∧ ch.pendingOutboundHtlcs = 0)
    (hpending : ch.pendingUpdateFee = none)
    (hscript : ch.shutdownScriptpubkey = some toHolderScript)
    (hcounterparty : ch.counterpartyShutdownScriptpubkey = some toCounterpartyScript)
    (hfee : msg.feeSatoshis ≤ ch.feePayerBalance) :
    ch.checkClosingSigned crypto msg =
      .ok (if crypto.verify
          (ch.txOf crypto toHolderScript toCounterpartyScript msg) msg.signature then
        .ok (ch.txOf crypto toHolderScript toCounterpartyScript msg,
          ch.leftOut crypto toHolderScript toCounterpartyScript msg)
      else .error (.close "Invalid closing tx signature from peer")) := by
  have hbuild := buildClosingTransaction_of_le h hhtlc hpending hscript hcounterparty hfee
  simp only [checkClosingSigned, hbuild, ok_bind, ne_eq, not_true_eq_false, if_false, txOf, leftOut]
  by_cases hverify : crypto.verify
      (ch.txAt toHolderScript toCounterpartyScript msg.feeSatoshis false)
      msg.signature
  · simp [hverify]
    rfl
  · simp [hverify]
    rfl

theorem checkClosingSigned_returns_iff (haccepts : ch.Accepts msg) :
    Returns (ch.checkClosingSigned crypto msg) ↔
      ch.pendingUpdateFee = none ∧ msg.feeSatoshis ≤ ch.feePayerBalance := by
  obtain ⟨-, hhtlc, hsupply, -⟩ := haccepts.checks
  simp only [totalBitcoinSupplySatoshis] at hsupply
  constructor
  · rintro ⟨r, hr⟩
    unfold checkClosingSigned at hr
    obtain ⟨built, hbuilt, -⟩ := bind_eq_ok.1 hr
    exact (buildClosingTransaction_returns_iff h hhtlc (by omega)).1 ⟨built, hbuilt⟩
  · rintro ⟨hpending, hle⟩
    obtain ⟨a, b, ha, hb⟩ := h.scripts
    exact ⟨_, checkClosingSigned_eq h hhtlc hpending ha hb hle⟩

/-- **The fee we answer with** is the counterparty's, or one that can be paid; or it is our smallest
fee, in answer to a first proposal without a range. -/
theorem feeToPropose_eq (minFee maxFee : ℕ)
    (hmax : ch.isOutbound = false → maxFee = ch.feePayerBalance)
    (hfee : msg.feeSatoshis ≤ ch.feePayerBalance)
    (haccepts : ch.isOutbound → ch.lastSentClosingFee.isSome) :
    ∃ answer, ch.feeToPropose msg minFee maxFee = .ok answer ∧
      (∀ newFee, answer = .ok newFee → newFee ≤ ch.feePayerBalance ∨
        (msg.feeRange = none ∧ ch.lastSentClosingFee = none ∧ msg.feeSatoshis < minFee ∧
          newFee = minFee)) ∧
      (msg.feeRange = none → ch.lastSentClosingFee = none → msg.feeSatoshis < minFee →
        answer = .ok minFee) := by
  unfold feeToPropose
  rcases hrange : msg.feeRange with _ | ⟨theirMin, theirMax⟩ <;> dsimp only
  · rcases hlast : ch.lastSentClosingFee with _ | last <;> dsimp only
    · have hin : ch.isOutbound = false := by
        by_contra hout
        simpa [hlast] using haccepts (by simpa using hout)
      have hmax := hmax hin
      split_ifs with hmin hmax'
      · exact ⟨_, rfl, fun newFee heq => .inr ⟨rfl, rfl, hmin, (Except.ok.inj heq).symm⟩,
          fun _ _ _ => rfl⟩
      · omega
      · exact ⟨_, rfl, fun newFee heq => .inl (Except.ok.inj heq ▸ hfee), fun _ _ hlt => by omega⟩
    · have hsent := (h.sent last hlast).2
      split_ifs <;> refine ⟨_, rfl, fun newFee heq => ?_, fun _ hnone => by cases hnone⟩ <;>
        cases heq <;> left <;> omega
  · by_cases hin : ch.isOutbound = false
    · have hmax := hmax hin
      simp only [hin, Bool.not_false, if_true, h.max_eq_feePayerBalance hin, ok_bind, hmax,
        Panic.unless_of]
      split_ifs <;> refine ⟨_, rfl, fun newFee heq => ?_, fun hnone => by cases hnone⟩
      all_goals cases heq
      exact .inl (min_le_right _ _)
    · have hout : ch.isOutbound = true := by simpa using hin
      simp only [hout, Bool.not_true, Bool.false_eq_true, if_false]
      split_ifs <;> refine ⟨_, rfl, fun newFee heq => ?_, fun hnone => by cases hnone⟩
      all_goals cases heq
      exact .inl hfee

theorem WellFormed.withLimits (env : CallEnv) {maxFee : ℕ}
    (hmax : ch.isOutbound = false → maxFee = ch.feePayerBalance) :
    WellFormed crypto { ch with closingFeeLimits := some (ch.minClosingFee crypto env, maxFee) } :=
  { h with
    limits := fun limits heq hin => by cases heq; exact hmax hin
    minFee_lt := fun limits heq => by cases heq; exact h.minClosingFee_lt
    sent := fun last hlast => ⟨rfl, (h.sent last hlast).2⟩ }

theorem WellFormed.getClosingSignedMsg (hlimits : ch.closingFeeLimits.isSome)
    (hfee : fee ≤ ch.feePayerBalance) (tx : ClosingTransaction Script) (skip : Bool)
    (minFee maxFee : ℕ) :
    WellFormed crypto (ch.getClosingSignedMsg crypto env tx skip fee minFee maxFee).1 :=
  { h with sent := fun last hlast => by cases hlast; exact ⟨hlimits, hfee⟩ }

end

/-- **What `closing_signed` can do**: it refuses the message, it puts it off, it takes it for the
answer to the last proposal, it finds no fee, it proposes another fee, or it agrees. -/
inductive ClosingStep (crypto : Crypto Script Sig) (env : CallEnv) (ch : FundedChannel Script Sig)
    (msg : ClosingSigned Sig) :
    FundedChannel Script Sig → Except ChannelError (ClosingReply Script Sig) → Prop
  | refused (e : ChannelError) : ClosingStep crypto env ch msg ch (.error e)
  | delayed : ClosingStep crypto env ch msg { ch with pendingCounterpartyClosingSigned := some msg }
      (.ok (none, none))
  | reused (a b : Script) (last : LastSentClosingFee Sig) (sig : Sig)
      (ha : ch.shutdownScriptpubkey = some a) (hb : ch.counterpartyShutdownScriptpubkey = some b)
      (haccepts : ch.Accepts msg)
      (hverify : crypto.verify (ch.txOf crypto a b msg) msg.signature)
      (hlast : ch.lastSentClosingFee = some last) (hfee : last.feeSatoshis = msg.feeSatoshis)
      (hsig : last.holderSig = some sig) :
      ClosingStep crypto env ch msg { ch with channelState := .shutdownComplete }
        (.ok (none, some
          (ch.buildSignedClosingTransaction (ch.txOf crypto a b msg) msg.signature sig,
          ch.shutdownResultCoopClose)))
  | disagreed (minFee maxFee : ℕ) (e : ChannelError)
      (hlimits : WellFormed crypto { ch with closingFeeLimits := some (minFee, maxFee) }) :
      ClosingStep crypto env ch msg { ch with closingFeeLimits := some (minFee, maxFee) } (.error e)
  | proposed (a b : Script) (minFee maxFee newFee : ℕ)
      (ha : ch.shutdownScriptpubkey = some a) (hb : ch.counterpartyShutdownScriptpubkey = some b)
      (hlimits : WellFormed crypto { ch with closingFeeLimits := some (minFee, maxFee) })
      (hle : newFee ≤ ch.feePayerBalance)
      (sent : FundedChannel Script Sig × Option (ClosingSigned Sig))
      (hsent : sent = getClosingSignedMsg crypto env
        { ch with closingFeeLimits := some (minFee, maxFee) }
        (ch.txAt a b newFee false) false newFee minFee maxFee) :
      ClosingStep crypto env ch msg sent.1 (.ok (sent.2, none))
  | agreed (a b : Script) (minFee maxFee : ℕ)
      (ha : ch.shutdownScriptpubkey = some a) (hb : ch.counterpartyShutdownScriptpubkey = some b)
      (haccepts : ch.Accepts msg)
      (hlimits : WellFormed crypto { ch with closingFeeLimits := some (minFee, maxFee) })
      (hle : msg.feeSatoshis ≤ ch.feePayerBalance)
      (hverify : crypto.verify (ch.txOf crypto a b msg) msg.signature)
      (hnew : ∀ last sig, ch.lastSentClosingFee = some last → last.holderSig = some sig →
        last.feeSatoshis ≠ msg.feeSatoshis)
      (sent : FundedChannel Script Sig × Option (ClosingSigned Sig))
      (hsent : sent = getClosingSignedMsg crypto env
        { ch with closingFeeLimits := some (minFee, maxFee) } (ch.txOf crypto a b msg)
        (ch.leftOut crypto a b msg) msg.feeSatoshis minFee maxFee)
      (reply : ClosingSigned Sig) (hreply : sent.2 = some reply) :
      ClosingStep crypto env ch msg
        { sent.1 with
          lastReceivedClosingSig := some msg.signature, channelState := .shutdownComplete }
        (.ok (some reply, some
          (ch.buildSignedClosingTransaction (ch.txOf crypto a b msg) msg.signature reply.signature,
          ch.shutdownResultCoopClose)))
  | agreedUnsigned (a b : Script) (minFee maxFee : ℕ)
      (hlimits : WellFormed crypto { ch with closingFeeLimits := some (minFee, maxFee) })
      (hle : msg.feeSatoshis ≤ ch.feePayerBalance)
      (sent : FundedChannel Script Sig × Option (ClosingSigned Sig))
      (hsent : sent = getClosingSignedMsg crypto env
        { ch with closingFeeLimits := some (minFee, maxFee) } (ch.txOf crypto a b msg)
        (ch.leftOut crypto a b msg) msg.feeSatoshis minFee maxFee) (hnone : sent.2 = none) :
      ClosingStep crypto env ch msg { sent.1 with lastReceivedClosingSig := some msg.signature }
        (.ok (none, none))

section Answer

variable {a b : Script} {minFee maxFee newFee : ℕ}

/-- **Proposing a fee** panics if it is not the counterparty's and cannot be paid. -/
theorem proposeFee_returns_iff
    (hlimits : WellFormed crypto { ch with closingFeeLimits := some (minFee, maxFee) })
    (hhtlc : ch.pendingInboundHtlcs = 0 ∧ ch.pendingOutboundHtlcs = 0)
    (hpending : ch.pendingUpdateFee = none) (tx : ClosingTransaction Script) (skip : Bool)
    (hlt : newFee < 2 ^ 63) :
    Returns (proposeFee crypto env { ch with closingFeeLimits := some (minFee, maxFee) } msg tx skip
      minFee maxFee newFee) ↔ newFee = msg.feeSatoshis ∨ newFee ≤ ch.feePayerBalance := by
  have hreturns : Returns (buildClosingTransaction
      { ch with closingFeeLimits := some (minFee, maxFee) } newFee false) ↔
      ch.pendingUpdateFee = none ∧ newFee ≤ ch.feePayerBalance :=
    buildClosingTransaction_returns_iff hlimits hhtlc hlt
  by_cases heq : newFee = msg.feeSatoshis
  · refine ⟨fun _ => .inl heq, fun _ => ?_⟩
    simp only [proposeFee, proposedTransaction, heq, if_true, ok_bind]
    split <;> exact ⟨_, rfl⟩
  · simp only [heq, false_or]
    constructor
    · rintro ⟨r, hr⟩
      simp only [proposeFee, proposedTransaction, heq, if_false, bind_eq_ok] at hr
      obtain ⟨_, ⟨built, hbuilt, -⟩, -⟩ := hr
      exact (hreturns.1 ⟨built, hbuilt⟩).2
    · intro hle
      obtain ⟨built, hbuilt⟩ := hreturns.2 ⟨hpending, hle⟩
      simp only [proposeFee, proposedTransaction, heq, if_false, hbuilt, ok_bind, pure, Except.pure]
      cases built <;> exact ⟨_, rfl⟩

variable (haccepts : ch.Accepts msg) (hpending : ch.pendingUpdateFee = none)
  (ha : ch.shutdownScriptpubkey = some a) (hb : ch.counterpartyShutdownScriptpubkey = some b)
  (hfee : msg.feeSatoshis ≤ ch.feePayerBalance)
  (hverify : crypto.verify (ch.txOf crypto a b msg) msg.signature)
  (hnew : ∀ last sig, ch.lastSentClosingFee = some last → last.holderSig = some sig →
    last.feeSatoshis ≠ msg.feeSatoshis)

include haccepts hpending ha hb hfee hverify hnew

theorem proposeFee_step
    (hlimits : WellFormed crypto { ch with closingFeeLimits := some (minFee, maxFee) })
    (hle : newFee ≤ ch.feePayerBalance) {r : Except ChannelError (ClosingReply Script Sig)}
    (hr : proposeFee crypto env { ch with closingFeeLimits := some (minFee, maxFee) } msg
      (ch.txOf crypto a b msg) (ch.leftOut crypto a b msg) minFee maxFee newFee = .ok (ch', r)) :
    ClosingStep crypto env ch msg ch' r := by
  by_cases heq : newFee = msg.feeSatoshis
  · simp only [proposeFee, proposedTransaction, heq, if_true, ok_bind] at hr
    split at hr
    · next reply hreply =>
      cases hr
      exact .agreed a b minFee maxFee ha hb haccepts hlimits hfee hverify hnew _ rfl reply hreply
    · next hnone =>
      cases hr
      exact .agreedUnsigned a b minFee maxFee hlimits hfee _ rfl hnone
  · have hbuilt : buildClosingTransaction
        { ch with closingFeeLimits := some (minFee, maxFee) } newFee false =
          .ok (.ok (ch.txAt a b newFee false, newFee)) :=
      buildClosingTransaction_of_le hlimits haccepts.checks.2.1 hpending ha hb hle false
    simp only [proposeFee, proposedTransaction, heq, if_false, hbuilt, ok_bind, pure, Except.pure,
      Except.map] at hr
    cases hr
    exact .proposed a b minFee maxFee newFee ha hb hlimits hle _ rfl

/-- **The second half of `closing_signed`.** It panics only if our smallest fee, in answer to a
first proposal without a range, cannot be paid. -/
theorem answerClosingSigned_spec (h : ch.WellFormed crypto) :
    Meets (ch.answerClosingSigned crypto env msg (ch.txOf crypto a b msg)
      (ch.leftOut crypto a b msg))
      (msg.feeRange = none → ch.lastSentClosingFee = none →
        msg.feeSatoshis < ch.minClosingFee crypto env →
          ch.minClosingFee crypto env ≤ ch.feePayerBalance)
      (ClosingStep crypto env ch msg) := by
  obtain ⟨-, hhtlc, -, hout⟩ := haccepts.checks
  have hfits : ch.MaxFeeFits crypto env := by
    intro hfunder hnone
    obtain ⟨last, hlast⟩ := isSome_iff_exists.1 (hout hfunder)
    simpa [hnone] using (h.sent last hlast).1
  obtain ⟨maxFee, hcalc, hmax⟩ := calculateClosingFeeLimits_eq h hfits
  have hlimits := h.withLimits env hmax
  obtain ⟨answer, hanswer, hle, hfirst⟩ :=
    feeToPropose_eq hlimits (ch.minClosingFee crypto env) maxFee hmax hfee hout
  simp only [answerClosingSigned, hcalc, hanswer, ok_bind]
  rcases answer with e | newFee <;> dsimp only
  · exact .of_ok (fun hrange hlast hlt => by cases hfirst hrange hlast hlt)
      (.disagreed _ _ e hlimits)
  · have hlt : newFee < 2 ^ 63 := by
      have hbalance := h.feePayerBalance_le
      simp only [totalBitcoinSupplySatoshis] at hbalance
      rcases hle newFee rfl with hle | ⟨-, -, -, rfl⟩
      · exact lt_of_le_of_lt (hle.trans hbalance) (by decide)
      · exact h.minClosingFee_lt
    have hreturns : Returns (proposeFee crypto env
        { ch with closingFeeLimits := some (ch.minClosingFee crypto env, maxFee) } msg
        (ch.txOf crypto a b msg) (ch.leftOut crypto a b msg) (ch.minClosingFee crypto env) maxFee
        newFee) ↔ _ := proposeFee_returns_iff hlimits hhtlc hpending _ _ hlt
    have hiff : (newFee = msg.feeSatoshis ∨ newFee ≤ ch.feePayerBalance) ↔
        newFee ≤ ch.feePayerBalance := by
      constructor
      · rintro (rfl | hle)
        · exact hfee
        · exact hle
      · exact .inr
    refine ⟨?_, ?_⟩
    · rw [hreturns, hiff]
      constructor
      · intro hle hrange hlast hlt
        obtain rfl := Except.ok.inj (hfirst hrange hlast hlt)
        exact hle
      · intro hmin
        rcases hle newFee rfl with hle | ⟨hrange, hlast, hbelow, rfl⟩
        · exact hle
        · exact hmin hrange hlast hbelow
    · intro ch' r hr
      exact proposeFee_step haccepts hpending ha hb hfee hverify hnew hlimits
        (hiff.1 (hreturns.1 ⟨_, hr⟩)) hr

end Answer

/-! ### The handlers -/

/-- The transaction the counterparty signed has an output that others would not relay. -/
def hasDust (crypto : Crypto Script Sig) (tx : ClosingTransaction Script) : Bool :=
  tx.outputs.any fun output =>
    !crypto.isWitnessProgram output.2 && output.1 < maxStdOutputDustLimitSatoshis

def SignatureAccepted (crypto : Crypto Script Sig) (self : FundedChannel Script Sig)
    (msg : ClosingSigned Sig) : Prop :=
  ∀ a b, self.shutdownScriptpubkey = some a → self.counterpartyShutdownScriptpubkey = some b →
    crypto.verify (self.txOf crypto a b msg) msg.signature = true ∧
      hasDust crypto (self.txOf crypto a b msg) = false

/-- **The condition under which `closing_signed` returns.** If the message gets past the first
checks, then no update of the feerate is pending and the fee can be paid; and if it is a first
proposal without a range, of less than our smallest fee, then that can be paid too. -/
def ClosingSignedSafe (crypto : Crypto Script Sig) (env : CallEnv) (self : FundedChannel Script Sig)
    (msg : ClosingSigned Sig) : Prop :=
  self.Accepts msg →
    self.pendingUpdateFee = none ∧ msg.feeSatoshis ≤ self.feePayerBalance ∧
    (msg.feeRange = none → self.lastSentClosingFee = none → self.SignatureAccepted crypto msg →
      msg.feeSatoshis < self.minClosingFee crypto env →
        self.minClosingFee crypto env ≤ self.feePayerBalance)

/-- **The condition under which `maybe_propose_closing_signed` returns.** -/
def ProposeSafe (crypto : Crypto Script Sig) (env : CallEnv) (self : FundedChannel Script Sig) :
    Prop :=
  self.lastSentClosingFee = none → self.closingNegotiationReady →
    if self.isOutbound then
      self.expectingPeerCommitmentSigned = false →
        self.MaxFeeFits crypto env ∧ self.minClosingFee crypto env ≤ self.feePayerBalance
    else
      ∀ msg, self.pendingCounterpartyClosingSigned = some msg →
        ClosingSignedSafe crypto env { self with pendingCounterpartyClosingSigned := none } msg

include h

theorem closingSigned_of_accepts {a b : Script}
    (haccepts : ch.Accepts msg) (hpending : ch.pendingUpdateFee = none)
    (ha : ch.shutdownScriptpubkey = some a) (hb : ch.counterpartyShutdownScriptpubkey = some b)
    (hfee : msg.feeSatoshis ≤ ch.feePayerBalance) :
    Meets (ch.closingSigned crypto env msg)
      (msg.feeRange = none → ch.lastSentClosingFee = none →
        (crypto.verify (ch.txOf crypto a b msg) msg.signature = true ∧
          hasDust crypto (ch.txOf crypto a b msg) = false) →
        msg.feeSatoshis < ch.minClosingFee crypto env →
          ch.minClosingFee crypto env ≤ ch.feePayerBalance)
      (ClosingStep crypto env ch msg) := by
  obtain ⟨-, hhtlc, -, -⟩ := haccepts.checks
  simp only [closingSigned, haccepts.1, haccepts.2, Bool.false_eq_true, if_false,
    checkClosingSigned_eq h hhtlc hpending ha hb hfee, ok_bind]
  by_cases hverify : crypto.verify (ch.txOf crypto a b msg) msg.signature
  swap
  · simp only [hverify, Bool.false_eq_true, if_false, false_and, false_implies, implies_true]
    exact .of_ok trivial (.refused _)
  simp only [hverify, if_true, true_and]
  by_cases hdust : hasDust crypto (ch.txOf crypto a b msg)
  · have hdust' := hdust
    unfold hasDust at hdust'
    simp only [hdust', if_true, hdust, Bool.true_eq_false, false_implies, implies_true]
    exact .of_ok trivial (.refused _)
  have hdust' := hdust
  unfold hasDust at hdust'
  simp only [hdust', if_false, hdust, Bool.false_eq_true, true_implies]
  have hanswer := fun hnew =>
    @answerClosingSigned_spec _ _ crypto env ch msg a b haccepts hpending ha hb hfee hverify hnew h
  rcases hlast : ch.lastSentClosingFee with _ | ⟨lastFee, lastSkip, lastRange, _ | sig⟩
  · rw [hlast] at hanswer
    exact hanswer fun _ _ hnone => by cases hnone
  · rw [hlast] at hanswer
    exact hanswer fun _ _ heq hsig => by cases heq; cases hsig
  · by_cases heq : lastFee = msg.feeSatoshis
    · subst heq
      simp only [if_true, reduceCtorEq, false_implies, implies_true]
      rw [← hlast]
      exact .of_ok trivial (.reused a b _ sig ha hb haccepts hverify hlast rfl rfl)
    · simp only [heq, if_false]
      rw [hlast] at hanswer
      exact hanswer fun _ _ heq' _ => by cases heq'; exact heq

theorem closingSigned_spec :
    Meets (ch.closingSigned crypto env msg) (ch.ClosingSignedSafe crypto env msg)
      (ClosingStep crypto env ch msg) := by
  rcases hrefusal : ch.closingSignedRefusal msg with _ | e
  swap
  · simp only [closingSigned, hrefusal]
    exact .of_ok (fun haccepts => by cases hrefusal.symm.trans haccepts.1) (.refused e)
  by_cases hmonitor : ch.channelState.isMonitorUpdateInProgress
  · simp only [closingSigned, hrefusal, hmonitor, if_true]
    exact .of_ok (fun haccepts => by cases hmonitor.symm.trans haccepts.2) .delayed
  have haccepts : ch.Accepts msg := ⟨hrefusal, by simpa using hmonitor⟩
  have hcheck := checkClosingSigned_returns_iff h haccepts
  obtain ⟨a, b, ha, hb⟩ := h.scripts
  by_cases hgood : ch.pendingUpdateFee = none ∧ msg.feeSatoshis ≤ ch.feePayerBalance
  swap
  · refine .of_panic ?_ fun hsafe => hgood ⟨(hsafe haccepts).1, (hsafe haccepts).2.1⟩
    rintro ⟨r, hr⟩
    simp only [closingSigned, hrefusal, hmonitor, Bool.false_eq_true, if_false] at hr
    obtain ⟨checked, hchecked, -⟩ := bind_eq_ok.1 hr
    exact hgood (hcheck.1 ⟨checked, hchecked⟩)
  obtain ⟨hreturns, hstep⟩ := closingSigned_of_accepts h haccepts hgood.1 ha hb hgood.2
  refine ⟨?_, hstep⟩
  rw [hreturns]
  have haccepted : ch.SignatureAccepted crypto msg ↔
      crypto.verify (ch.txOf crypto a b msg) msg.signature = true ∧
        hasDust crypto (ch.txOf crypto a b msg) = false := by
    simp [SignatureAccepted, ha, hb]
  rw [← haccepted]
  exact ⟨fun hfirst _ => ⟨hgood.1, hgood.2, hfirst⟩, fun hsafe => (hsafe haccepts).2.2⟩

/-- **What `maybe_propose_closing_signed` can do**: nothing, handle a message that had to wait, or
make the first proposal. -/
inductive ProposeStep (crypto : Crypto Script Sig) (env : CallEnv) (ch : FundedChannel Script Sig) :
    FundedChannel Script Sig → Except ChannelError (ClosingReply Script Sig) → Prop
  | idle : ProposeStep crypto env ch ch (.ok (none, none))
  | handled (msg : ClosingSigned Sig) (ch' : FundedChannel Script Sig)
      (r : Except ChannelError (ClosingReply Script Sig)) (hlast : ch.lastSentClosingFee = none)
      (hpending : ch.pendingCounterpartyClosingSigned = some msg)
      (hstep : ClosingStep crypto env { ch with pendingCounterpartyClosingSigned := none }
        msg ch' r) :
      ProposeStep crypto env ch ch' r
  | proposed (a b : Script) (minFee maxFee : ℕ)
      (ha : ch.shutdownScriptpubkey = some a) (hb : ch.counterpartyShutdownScriptpubkey = some b)
      (hlimits : WellFormed crypto { ch with closingFeeLimits := some (minFee, maxFee) })
      (hle : minFee ≤ ch.feePayerBalance)
      (sent : FundedChannel Script Sig × Option (ClosingSigned Sig))
      (hsent : sent = getClosingSignedMsg crypto env
        { ch with closingFeeLimits := some (minFee, maxFee) }
        (ch.txAt a b minFee false) false minFee minFee maxFee) :
      ProposeStep crypto env ch sent.1 (.ok (sent.2, none))

omit h in
theorem pending_of_ready (h : ch.closingNegotiationReady) :
    (ch.pendingInboundHtlcs = 0 ∧ ch.pendingOutboundHtlcs = 0) ∧ ch.pendingUpdateFee = none := by
  simp only [closingNegotiationReady, Bool.and_eq_true, decide_eq_true_eq, isNone_iff_eq_none] at h
  exact ⟨⟨h.1.1.1, h.1.1.2⟩, h.1.2⟩

theorem maybePropose_of_outbound (hlast : ch.lastSentClosingFee = none)
    (hready : ch.closingNegotiationReady) (hout : ch.isOutbound)
    (hexpecting : ch.expectingPeerCommitmentSigned = false) :
    Meets (ch.maybeProposeClosingSigned crypto env)
      (ch.MaxFeeFits crypto env ∧ ch.minClosingFee crypto env ≤ ch.feePayerBalance)
      (ProposeStep crypto env ch) := by
  obtain ⟨hhtlc, hpending⟩ := pending_of_ready hready
  have heq : ch.maybeProposeClosingSigned crypto env = ch.proposeFirst crypto env := by
    simp [maybeProposeClosingSigned, hlast, hready, hout, hexpecting]
  rw [heq]
  by_cases hfits : ch.MaxFeeFits crypto env
  swap
  · refine .of_panic ?_ fun hsafe => hfits hsafe.1
    rintro ⟨r, hr⟩
    obtain ⟨limits, hlimits, -⟩ := bind_eq_ok.1 hr
    exact hfits (maxFeeFits_of_returns h ⟨limits, hlimits⟩)
  obtain ⟨maxFee, hcalc, hmax⟩ := calculateClosingFeeLimits_eq h hfits
  have hlimits := h.withLimits env hmax
  have hreturns : Returns (buildClosingTransaction
      { ch with closingFeeLimits := some (ch.minClosingFee crypto env, maxFee) }
      (ch.minClosingFee crypto env) false) ↔ _ :=
    buildClosingTransaction_returns_iff hlimits hhtlc h.minClosingFee_lt
  simp only [proposeFirst, hcalc, ok_bind, Panic.unless_of _ h.script, hfits, true_and]
  by_cases hle : ch.minClosingFee crypto env ≤ ch.feePayerBalance
  · obtain ⟨a, b, ha, hb⟩ := h.scripts
    have hbuilt : buildClosingTransaction
        { ch with closingFeeLimits := some (ch.minClosingFee crypto env, maxFee) }
        (ch.minClosingFee crypto env) false = .ok (.ok
          (ch.txAt a b (ch.minClosingFee crypto env) false, ch.minClosingFee crypto env)) :=
      buildClosingTransaction_of_le hlimits hhtlc hpending ha hb hle false
    simp only [hbuilt, ok_bind]
    exact .of_ok hle (.proposed a b _ maxFee ha hb hlimits hle _ rfl)
  · refine .of_panic ?_ hle
    rintro ⟨r, hr⟩
    obtain ⟨built, hbuilt, -⟩ := bind_eq_ok.1 hr
    exact hle (hreturns.1 ⟨built, hbuilt⟩).2

theorem maybePropose_spec :
    Meets (ch.maybeProposeClosingSigned crypto env) (ch.ProposeSafe crypto env)
      (ProposeStep crypto env ch) := by
  have hidle : ∀ {p : Prop}, ch.maybeProposeClosingSigned crypto env = .ok (ch, .ok (none, none)) →
      p → Meets (ch.maybeProposeClosingSigned crypto env) p (ProposeStep crypto env ch) := by
    intro p heq hp
    rw [heq]
    exact .of_ok hp .idle
  by_cases hstart : ch.lastSentClosingFee = none ∧ ch.closingNegotiationReady
  swap
  · refine hidle ?_ fun hlast hready => absurd ⟨hlast, hready⟩ hstart
    have : ch.lastSentClosingFee.isSome ∨ !ch.closingNegotiationReady := by
      rcases hlast : ch.lastSentClosingFee with _ | last
      · exact .inr (by simpa using fun hready => hstart ⟨hlast, hready⟩)
      · exact .inl rfl
    simp only [maybeProposeClosingSigned, this, if_true]
  obtain ⟨hlast, hready⟩ := hstart
  have hsafe : ch.ProposeSafe crypto env ↔ _ := ⟨fun h => h hlast hready, fun h _ _ => h⟩
  rw [hsafe]
  by_cases hout : ch.isOutbound
  · rw [if_pos hout]
    by_cases hexpecting : ch.expectingPeerCommitmentSigned
    · refine hidle ?_ fun hnot => by rw [hexpecting] at hnot; cases hnot
      simp only [maybeProposeClosingSigned, hlast, hready, hout, hexpecting, isSome_none,
        Bool.false_eq_true, Bool.not_true, or_false, if_false, if_true]
    · have hexpecting : ch.expectingPeerCommitmentSigned = false := by simpa using hexpecting
      simp only [hexpecting, true_implies]
      exact maybePropose_of_outbound h hlast hready hout hexpecting
  · rw [if_neg hout]
    rcases hwait : ch.pendingCounterpartyClosingSigned with _ | msg
    · refine hidle ?_ fun msg hmsg => by cases hmsg
      simp only [maybeProposeClosingSigned, hlast, hready, hout, hwait, isSome_none,
        Bool.false_eq_true, Bool.not_true, Bool.not_false, or_false, if_false, if_true]
    · have heq : ch.maybeProposeClosingSigned crypto env =
          closingSigned crypto env { ch with pendingCounterpartyClosingSigned := none } msg := by
        simp only [maybeProposeClosingSigned, hlast, hready, hout, hwait, isSome_none,
          Bool.false_eq_true, Bool.not_true, Bool.not_false, or_false, if_false, if_true]
      have hnone : WellFormed crypto { ch with pendingCounterpartyClosingSigned := none } :=
        h.congr rfl
      obtain ⟨hreturns, hstep⟩ := @closingSigned_spec _ _ crypto env _ hnone msg
      rw [heq]
      refine ⟨hreturns.trans ⟨fun hsafe msg' heq' => ?_, fun hsafe => hsafe msg rfl⟩,
        fun ch' r hr => ?_⟩
      · cases heq'
        exact hsafe
      · exact .handled msg ch' r hlast hwait (hstep ch' r hr)

end FundedChannel

end PqLightning.Closing
