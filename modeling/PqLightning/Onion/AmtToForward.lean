import Mathlib.Order.Bounds.Basic
import PqLightning.Basic

/-!
# What a blinded hop forwards

A hop of a blinded path is told its fees, and works out what to forward from what it receives
(`amt_to_forward_msat` of `blinded_path/payment.rs`). It divides and rounds up, and takes one back
if the amount and its fee are more than it received. That gives the largest amount it can forward.
The assertion that follows adds the fee of the amount that was not corrected, so it fails where what
was received lies strictly between two neighbouring amounts with their fees, two or more below the
upper.
-/

namespace PqLightning.Onion

structure PaymentRelay where
  (cltvExpiryDelta feeProportionalMillionths feeBaseMsat : ℕ)
deriving DecidableEq

variable (relay : PaymentRelay) {inboundAmt : ℕ}

def PaymentRelay.feeMsat (amt : ℕ) : ℕ :=
  amt * relay.feeProportionalMillionths / 1000000 + relay.feeBaseMsat

/-- The amount to forward before it is corrected. -/
def PaymentRelay.roundedUp (inboundAmt : ℕ) : ℕ :=
  ((inboundAmt - relay.feeBaseMsat) * 1000000 + 1000000 + relay.feeProportionalMillionths - 1) /
    (relay.feeProportionalMillionths + 1000000)

/-- `amt_to_forward_msat`, in a build with debug assertions or without. -/
def amtToForwardMsat (debug : Bool) (inboundAmt : ℕ) (relay : PaymentRelay) :
    Except Panic (Option ℕ) :=
  if inboundAmt < relay.feeBaseMsat then .ok none
  else
    let amtToForward := relay.roundedUp inboundAmt
    let fee := relay.feeMsat amtToForward
    if inboundAmt < fee then .ok none
    else do
      let amtToForward := if inboundAmt - fee < amtToForward then amtToForward - 1 else amtToForward
      Panic.unless (debug → amtToForward + fee = inboundAmt) .debugAssertion
      .ok (if amtToForward < 2 ^ 64 then some amtToForward else none)

theorem feeMsat_mono {a b : ℕ} (h : a ≤ b) : relay.feeMsat a ≤ relay.feeMsat b :=
  Nat.add_le_add_right (Nat.div_le_div_right (Nat.mul_le_mul_right _ h)) _

variable {relay}

/-- The rounded amount is enough, and one less is not. -/
theorem roundedUp_spec (hbase : relay.feeBaseMsat ≤ inboundAmt) :
    inboundAmt ≤ relay.roundedUp inboundAmt + relay.feeMsat (relay.roundedUp inboundAmt) ∧
    (0 < relay.roundedUp inboundAmt → relay.roundedUp inboundAmt - 1 +
      relay.feeMsat (relay.roundedUp inboundAmt - 1) < inboundAmt) := by
  obtain ⟨up, hup⟩ : ∃ up, up = relay.roundedUp inboundAmt := ⟨_, rfl⟩
  rw [← hup, PaymentRelay.feeMsat, PaymentRelay.feeMsat, Nat.sub_one_mul]
  rw [PaymentRelay.roundedUp] at hup
  generalize relay.feeProportionalMillionths = prop at *
  have hle := Nat.div_mul_le_self ((inboundAmt - relay.feeBaseMsat) * 1000000 + 1000000 + prop - 1)
    (prop + 1000000)
  have hlt := Nat.lt_div_mul_add
    (a := (inboundAmt - relay.feeBaseMsat) * 1000000 + 1000000 + prop - 1) (b := prop + 1000000)
    (by omega)
  rw [← hup, Nat.mul_add] at hle hlt
  have hmul : 0 < up → prop ≤ up * prop := fun h => Nat.le_mul_of_pos_left prop h
  generalize up * prop = product at *
  exact ⟨by omega, fun hpos => by have := hmul hpos; omega⟩

/-- It is the least that is enough. -/
theorem roundedUp_isLeast (hbase : relay.feeBaseMsat ≤ inboundAmt) :
    IsLeast { g | inboundAmt ≤ g + relay.feeMsat g } (relay.roundedUp inboundAmt) := by
  obtain ⟨henough, hless⟩ := roundedUp_spec hbase
  refine ⟨henough, fun g hg => Nat.le_of_not_lt fun hlt => ?_⟩
  have hmono := feeMsat_mono relay (Nat.le_sub_one_of_lt hlt)
  have hshort := hless (Nat.zero_lt_of_lt hlt)
  have hg : inboundAmt ≤ g + relay.feeMsat g := hg
  omega

/-- Its fee is more than was received where that is so of every amount that is enough, -/
theorem lt_feeMsat_of_isLeast {up : ℕ} (h : IsLeast { g | inboundAmt ≤ g + relay.feeMsat g } up) :
    inboundAmt < relay.feeMsat up ↔
      ∀ g, inboundAmt ≤ g + relay.feeMsat g → inboundAmt < relay.feeMsat g :=
  ⟨fun hlt _ hg => hlt.trans_le (feeMsat_mono relay (h.2 hg)), fun hall => hall up h.1⟩

/-- and it is at most one too much where some amount is enough by at most one. -/
theorem le_add_one_of_isLeast {up : ℕ} (h : IsLeast { g | inboundAmt ≤ g + relay.feeMsat g } up) :
    up + relay.feeMsat up ≤ inboundAmt + 1 ↔
      ∃ g, g + relay.feeMsat g = inboundAmt ∨ g + relay.feeMsat g = inboundAmt + 1 := by
  have henough : inboundAmt ≤ up + relay.feeMsat up := h.1
  constructor
  · exact fun hle => ⟨up, by omega⟩
  · rintro ⟨g, hg⟩
    have hle : up ≤ g := h.2 (show inboundAmt ≤ g + relay.feeMsat g by omega)
    have hmono := feeMsat_mono relay hle
    omega

/-- If one more is too much, so is all above it. -/
theorem isGreatest_of_lt {a : ℕ} (hle : a + relay.feeMsat a ≤ inboundAmt)
    (hlt : inboundAmt < a + 1 + relay.feeMsat (a + 1)) :
    IsGreatest { g | g + relay.feeMsat g ≤ inboundAmt } a := by
  refine ⟨hle, fun g hg => Nat.le_of_not_lt fun hag => ?_⟩
  have hmono := feeMsat_mono relay (show a + 1 ≤ g from hag)
  have hg : g + relay.feeMsat g ≤ inboundAmt := hg
  omega

/-- **The amount is the largest** that the hop can forward. The assertion holds exactly if less than
the base fee was received, or some amount and its fee are what was received or one more, or every
amount that is enough has a fee of more than was received. -/
theorem amtToForwardMsat_isGreatest (inboundAmt : ℕ) (relay : PaymentRelay) :
    (∀ debug f, amtToForwardMsat debug inboundAmt relay = .ok (some f) →
      IsGreatest { g | g + relay.feeMsat g ≤ inboundAmt } f) ∧
    (amtToForwardMsat true inboundAmt relay ≠ .error .debugAssertion ↔
      inboundAmt < relay.feeBaseMsat ∨
      (∀ g, inboundAmt ≤ g + relay.feeMsat g → inboundAmt < relay.feeMsat g) ∨
      ∃ g, g + relay.feeMsat g = inboundAmt ∨ g + relay.feeMsat g = inboundAmt + 1) := by
  unfold amtToForwardMsat
  split
  next hbase => simp [hbase]
  next hbase =>
    have hleast := roundedUp_isLeast (Nat.not_lt.mp hbase)
    obtain ⟨henough, hless⟩ := roundedUp_spec (Nat.not_lt.mp hbase)
    rw [← lt_feeMsat_of_isLeast hleast, ← le_add_one_of_isLeast hleast]
    generalize relay.roundedUp inboundAmt = up at *
    dsimp only
    split
    next hfee => simp [hfee]
    next hfee =>
      have hassert : (if inboundAmt - relay.feeMsat up < up then up - 1 else up) +
          relay.feeMsat up =
          inboundAmt ↔ up + relay.feeMsat up ≤ inboundAmt + 1 := by
        split <;> omega
      refine ⟨fun debug f h => ?_, ?_⟩
      · obtain ⟨_, -, h⟩ := bind_eq_ok.mp h
        obtain ⟨-, hf⟩ := Option.ite_none_right_eq_some.mp (Except.ok.inj h)
        rw [← Option.some.inj hf]
        split
        next hmuch =>
          have hpos : 0 < up := by omega
          refine isGreatest_of_lt (hless hpos).le ?_
          rw [Nat.sub_add_cancel hpos]
          omega
        next =>
          have hmono := feeMsat_mono relay (Nat.le_add_right up 1)
          exact isGreatest_of_lt (by omega) (by omega)
      · simp only [Panic.unless, forall_const, hassert, hbase, hfee, false_or]
        split
        next h => simp [h, ok_bind]
        next h => simp [h, error_bind]

theorem amtToForwardMsat_panics :
    amtToForwardMsat true 4 ⟨0, 2000000, 0⟩ = .error .debugAssertion := by decide

end PqLightning.Onion
