import Mathlib.Algebra.Order.BigOperators.Group.List
import Mathlib.Algebra.Order.Ring.Int
import Mathlib.Tactic.Ring

/-!
# Weighted totals of a list

Items with an amount, each of which counts for a balance in full, not at all, or against it. The
total is linear in the weights and monotone in them, so that two balances of one list compare as
soon as their weights do, item by item. Changing and dropping items is a change of the weights.

## Main results

* `total_le_total` — weights that compare pointwise
* `total_map`, `total_filter` — changing and dropping items
* `cast_sum_filter` — a total of amounts is the total for the weights zero and one
-/

namespace Weighted

variable {α : Type*} {amount : α → ℕ} {w w' : α → ℤ}

/-- The total of the amounts, each times the weight of its item. -/
def total (amount : α → ℕ) (w : α → ℤ) (l : List α) : ℤ := (l.map fun a => w a * amount a).sum

@[simp] theorem total_nil : total amount w [] = 0 := rfl

@[simp] theorem total_cons (a : α) (l : List α) :
    total amount w (a :: l) = w a * amount a + total amount w l := by
  simp [total]

@[simp] theorem total_append (l₁ l₂ : List α) :
    total amount w (l₁ ++ l₂) = total amount w l₁ + total amount w l₂ := by
  simp [total]

theorem total_add (l : List α) :
    total amount (fun a => w a + w' a) l = total amount w l + total amount w' l := by
  induction l with
  | nil => rfl
  | cons a l ih =>
    rw [total_cons, total_cons, total_cons, ih]
    ring

theorem total_mul (c : ℤ) (l : List α) :
    total amount (fun a => c * w a) l = c * total amount w l := by
  induction l with
  | nil => simp
  | cons a l ih =>
    rw [total_cons, total_cons, ih]
    ring

theorem total_neg (l : List α) : total amount (fun a => -w a) l = -total amount w l := by
  simpa using total_mul (-1) l

theorem total_le_total {l : List α} (h : ∀ a ∈ l, w a ≤ w' a) :
    total amount w l ≤ total amount w' l :=
  List.sum_le_sum fun a ha => Int.mul_le_mul_of_nonneg_right (h a ha) (Int.natCast_nonneg _)

theorem total_congr {l : List α} (h : ∀ a ∈ l, w a = w' a) : total amount w l = total amount w' l :=
  Int.le_antisymm (total_le_total fun a ha => (h a ha).le) (total_le_total fun a ha => (h a ha).ge)

theorem total_nonpos {l : List α} (h : ∀ a ∈ l, w a ≤ 0) : total amount w l ≤ 0 := by
  have hzero : total amount (fun _ => 0) l = 0 := by simp [total]
  exact (total_le_total h).trans_eq hzero

theorem total_le_set {a b : α} {l₁ l₂ : List α} (ha : amount b = amount a) (h : w a ≤ w b) :
    total amount w (l₁ ++ a :: l₂) ≤ total amount w (l₁ ++ b :: l₂) := by
  have hmul := Int.mul_le_mul_of_nonneg_right h (Int.natCast_nonneg (amount a))
  simp only [total_append, total_cons, ha]
  omega

/-- Items that change and keep their amount. -/
theorem total_map {f : α → α} (hf : ∀ a, amount (f a) = amount a) (l : List α) :
    total amount w (l.map f) = total amount (fun a => w (f a)) l := by
  simp [total, Function.comp_def, hf]

/-- Items that are dropped count for nothing. -/
theorem total_filter (p : α → Bool) (l : List α) :
    total amount w (l.filter p) = total amount (fun a => if p a then w a else 0) l := by
  induction l with
  | nil => rfl
  | cons a l ih => cases hp : p a <;> simp [hp, ih]

theorem cast_sum_filter (p : α → Bool) (l : List α) :
    (((l.filter p).map amount).sum : ℤ) = total amount (fun a => if p a then 1 else 0) l := by
  induction l with
  | nil => rfl
  | cons a l ih => cases hp : p a <;> simp [hp, ih]

end Weighted
