import Mathlib.Algebra.Order.Ring.Nat
import Mathlib.Data.UInt

/-!
# Panics and byte strings

The Rust functions modelled in this development are of two kinds. Most return a value, or a value
or an error of their own; those are Lean functions into that type. Some also contain an `assert!`, a
`debug_assert!`, an `unwrap` or an arithmetic operation that can overflow, and whether one of these
fires is part of what is proved about them. Such a function returns `Except Panic`, so that a panic
is a value the theorems can exclude.
-/

namespace PqLightning

/-- The ways a modelled function can panic. Builds with debug assertions are modelled: they are the
ones in which `debug_assert!` and arithmetic overflow fire. -/
inductive Panic where
  /-- An `assert!` or `assert_eq!` that does not hold. -/
  | assertion
  /-- A `debug_assert!` that does not hold. -/
  | debugAssertion
  /-- An `unwrap` or `expect` of a missing value. -/
  | unwrap
  /-- An arithmetic operation whose result does not fit its type. -/
  | overflow
  /-- An `unreachable!` or `panic!` that is reached. -/
  | unreachable
  /-- A balance on a commitment that would be negative: an `unwrap` of a failed `checked_sub`. -/
  | underflow
  /-- An index or a slice that is out of range. -/
  | index
deriving DecidableEq, Repr

/-- `assert!(p)` and its relatives. -/
def Panic.unless (p : Prop) [Decidable p] (panic : Panic) : Except Panic Unit :=
  if p then .ok () else .error panic

@[simp] theorem Panic.unless_eq_ok {p : Prop} [Decidable p] {panic : Panic} {u : Unit} :
    Panic.unless p panic = .ok u ↔ p := by
  unfold Panic.unless
  split <;> simp [*]

theorem Panic.unless_of {p : Prop} [Decidable p] (panic : Panic) (h : p) :
    Panic.unless p panic = .ok () := if_pos h

def unwrap {α : Type} : Option α → Except Panic α
  | some a => .ok a
  | none => .error .unwrap

@[simp] theorem unwrap_eq_ok {α : Type} {x : Option α} {a : α} : unwrap x = .ok a ↔ x = some a := by
  cases x <;> simp [unwrap]

variable {ε α β : Type}

variable {x : Except ε α} {f : α → Except ε β}

/-- A sequence of two fallible computations succeeds when both do. -/
theorem bind_eq_ok {b : β} : x >>= f = .ok b ↔ ∃ a, x = .ok a ∧ f a = .ok b := by
  cases x <;> simp [bind, Except.bind]

/-- It fails when one of them does. -/
theorem bind_eq_error {e : ε} :
    x >>= f = .error e ↔ x = .error e ∨ ∃ a, x = .ok a ∧ f a = .error e := by
  cases x <;> simp [bind, Except.bind]

theorem ok_bind (a : α) (f : α → Except ε β) : (Except.ok a >>= f) = f a := rfl

theorem pure_eq_ok {a b : α} : (pure a : Except ε α) = .ok b ↔ a = b :=
  Except.ok.injEq a b ▸ Iff.rfl

theorem error_bind (e : ε) (f : α → Except ε β) : (Except.error e >>= f) = .error e := rfl

theorem ok_pair_inj {a a' : α} {b b' : β}
    (h : (Except.ok (a, b) : Except ε (α × β)) = .ok (a', b')) : a = a' ∧ b = b' :=
  Prod.mk.inj (Except.ok.inj h)

theorem map_eq_ok {f : α → β} {b : β} : x.map f = .ok b ↔ ∃ a, x = .ok a ∧ f a = b := by
  cases x <;> simp [Except.map]

/-- What a list of fallible computations returns, each of them has returned. -/
theorem exists_of_mem_mapM {l : List α} {bs : List β}
    (h : l.mapM f = .ok bs) {b : β} (hb : b ∈ bs) : ∃ a ∈ l, f a = .ok b := by
  induction l generalizing bs with
  | nil =>
    cases h
    cases hb
  | cons a l ih =>
    rw [List.mapM_cons] at h
    obtain ⟨b', hb', h⟩ := bind_eq_ok.mp h
    obtain ⟨bs', hbs', h⟩ := bind_eq_ok.mp h
    cases h
    rcases List.mem_cons.mp hb with rfl | hb
    · exact ⟨a, List.mem_cons_self, hb'⟩
    · obtain ⟨a', ha', hfa'⟩ := ih hbs' hb
      exact ⟨a', List.mem_cons_of_mem _ ha', hfa'⟩

/-- What every step of a fold keeps, a fold that does not fail keeps. -/
theorem foldlM_invariant {f : β → α → Except ε β} (P : β → Prop) {l : List α}
    (hstep : ∀ b, ∀ a ∈ l, ∀ b', P b → f b a = .ok b' → P b') {b b' : β} (hb : P b)
    (h : l.foldlM f b = .ok b') : P b' := by
  induction l generalizing b with
  | nil => exact Except.ok.inj h ▸ hb
  | cons a l ih =>
    rw [List.foldlM_cons] at h
    obtain ⟨next, hnext, h⟩ := bind_eq_ok.mp h
    have hnext' := hstep b a List.mem_cons_self next hb hnext
    exact ih (fun b a ha => hstep b a (List.mem_cons_of_mem _ ha)) hnext' h

/-! ### Failures that do not happen -/

/-- A computation that does not fail in this way. -/
def Avoids {ε α : Type} (e : ε) (x : Except ε α) : Prop := x ≠ .error e

namespace Avoids

variable {ε α β : Type} {e : ε} {x : Except ε α}

@[simp] theorem ok {a : α} : Avoids e (.ok a : Except ε α) := by
  intro h
  cases h

theorem error {e' : ε} (h : e' ≠ e) : Avoids e (.error e' : Except ε α) := fun h' =>
  h (Except.error.inj h')

/-- A sequence of computations, the second of which may rely on what the first returned. -/
theorem bind {f : α → Except ε β} (hx : Avoids e x) (hf : ∀ a, x = .ok a → Avoids e (f a)) :
    Avoids e (x >>= f) := by
  intro h
  rcases bind_eq_error.mp h with h | ⟨a, ha, h⟩
  · exact hx h
  · exact hf a ha h

theorem map {f : α → β} (hx : Avoids e x) : Avoids e (x.map f) := by
  intro h
  cases x with
  | ok a => cases h
  | error e' => exact hx (congrArg Except.error (Except.error.inj h))

theorem panicUnless {p : Prop} [Decidable p] {panic panic' : Panic} (h : panic ≠ panic') :
    Avoids panic' (Panic.unless p panic) := by
  unfold Panic.unless
  split
  · exact ok
  · exact error h

end Avoids

/-- A guard: an error unless a condition holds. -/
def guardWith {ε : Type} (p : Prop) [Decidable p] (e : ε) : Except ε Unit :=
  if p then .ok () else .error e

@[simp] theorem guardWith_eq_ok {p : Prop} [Decidable p] {e : ε} {u : Unit} :
    guardWith p e = .ok u ↔ p := by
  unfold guardWith
  split <;> simp [*]

theorem guardWith_eq_error {p : Prop} [Decidable p] {e e' : ε} :
    guardWith p e = .error e' ↔ ¬ p ∧ e = e' := by
  unfold guardWith
  split <;> simp [*]

theorem guardWith_of {p : Prop} [Decidable p] {e : ε} (h : p) : guardWith p e = .ok () := if_pos h

def satAdd64 (a b : ℕ) : ℕ := min (a + b) (2 ^ 64 - 1)

def addU64 (a b : ℕ) : Except Panic ℕ := if a + b < 2 ^ 64 then .ok (a + b) else .error .overflow

def addU32 (a b : ℕ) : Except Panic ℕ := if a + b < 2 ^ 32 then .ok (a + b) else .error .overflow

def subU64 (a b : ℕ) : Except Panic ℕ := if b ≤ a then .ok (a - b) else .error .overflow

def mulU64 (a b : ℕ) : Except Panic ℕ := if a * b < 2 ^ 64 then .ok (a * b) else .error .overflow

theorem addU64_of_lt {a b : ℕ} (h : a + b < 2 ^ 64) : addU64 a b = .ok (a + b) := if_pos h

theorem addU64_eq_ok {a b sum : ℕ} : addU64 a b = .ok sum ↔ a + b < 2 ^ 64 ∧ sum = a + b := by
  rw [addU64]
  split
  next h => exact ⟨fun hsum => ⟨h, (Except.ok.inj hsum).symm⟩, fun hsum => by rw [hsum.2]⟩
  next h => exact ⟨nofun, fun hsum => absurd hsum.1 h⟩

theorem addU32_of_lt {a b : ℕ} (h : a + b < 2 ^ 32) : addU32 a b = .ok (a + b) := if_pos h

theorem subU64_of_le {a b : ℕ} (h : b ≤ a) : subU64 a b = .ok (a - b) := if_pos h

theorem mulU64_of_lt {a b : ℕ} (h : a * b < 2 ^ 64) : mulU64 a b = .ok (a * b) := if_pos h

def asI64 (a : ℕ) : Int := if a < 2 ^ 63 then a else a - 2 ^ 64

theorem asI64_of_lt {a : ℕ} (h : a < 2 ^ 63) : asI64 a = a := if_pos h

def totalBitcoinSupplySatoshis : ℕ := 21000000 * 100000000

abbrev Bytes32 : Type := Vector UInt8 32

end PqLightning
