import Mathlib.Data.List.Basic
import Mathlib.Data.Nat.Bitwise

/-!
# Regrouping bits through an accumulator

Numbers written one behind the other, each with its least significant bit first, are a string of
bits, and the string can be cut at another width. A program that does so keeps the bits it has not
cut off yet in an accumulator: a number is put in above them, and full groups are taken out below.
`Holds` says which string an accumulator stands for.

The string comes in piece by piece, and each time all full groups are taken out. What they leave is
the `rest` of the string, and cutting the rest with the next piece behind it goes on where cutting
the whole string would (`groups_append`, `rest_append`).

## Main results

* `Holds.push`, `Holds.pop` — the two operations of the accumulator
* `groups_append`, `rest_append` — a string that comes in pieces
-/

namespace BitPacking

open List

/-- The `d` lowest bits of `x`, the least significant first. -/
def bits (d x : ℕ) : List Bool := (range d).map x.testBit

/-- A string cut into groups of `w` bits, each read as a number. Group `i` has the bits from
`w * i` on; bits at the end that do not fill a group are dropped. -/
def groups (w : ℕ) (s : List Bool) : List ℕ :=
  (range (s.length / w)).map fun i => Nat.ofBits fun j : Fin w => s.getD (w * i + j) false

/-- The bits at the end that do not fill a group. -/
def rest (w : ℕ) (s : List Bool) : List Bool := s.drop (w * (s.length / w))

variable {d w x acc n v : ℕ} {s t : List Bool}

@[simp] theorem length_bits : (bits d x).length = d := by simp [bits]

theorem bits_add (m n x : ℕ) : bits (m + n) x = bits m x ++ bits n (x >>> m) := by
  rw [bits, range_add, map_append, map_map]
  congr 1
  exact map_congr_left fun i _ => (Nat.testBit_shiftRight x).symm

theorem getD_bits {i : ℕ} (hi : i < d) : (bits d x).getD i false = x.testBit i := by
  rw [getD_eq_getElem _ _ (by rwa [length_bits])]
  simp [bits]

/-! ### Cutting -/

theorem groups_of_lt (h : s.length < w) : groups w s = [] := by
  rw [groups, Nat.div_eq_of_lt h, range_zero, map_nil]

theorem rest_of_lt (h : s.length < w) : rest w s = s := by
  rw [rest, Nat.div_eq_of_lt h, Nat.mul_zero, drop_zero]

theorem length_div_of_le (hw : 0 < w) (h : w ≤ s.length) :
    s.length / w = (s.drop w).length / w + 1 := by
  rw [length_drop, ← Nat.add_div_right _ hw, Nat.sub_add_cancel h]

theorem groups_of_le (hw : 0 < w) (h : w ≤ s.length) :
    groups w s = (Nat.ofBits fun j : Fin w => s.getD j false) :: groups w (s.drop w) := by
  rw [groups, length_div_of_le hw h, range_succ_eq_map, map_cons, map_map]
  congr 1
  · simp only [Nat.mul_zero, Nat.zero_add]
  · refine map_congr_left fun i _ => congrArg Nat.ofBits (funext fun j => ?_)
    rw [getD_eq_getElem?_getD, getD_eq_getElem?_getD, getElem?_drop]
    congr 2
    rw [Nat.succ_eq_add_one, Nat.mul_add_one]
    omega

theorem rest_of_le (hw : 0 < w) (h : w ≤ s.length) : rest w s = rest w (s.drop w) := by
  rw [rest, rest, drop_drop, length_div_of_le hw h, Nat.mul_add_one, Nat.add_comm]

/-- **Induction over the groups** of a string. -/
theorem groupInduction (hw : 0 < w) {motive : List Bool → Prop}
    (short : ∀ s, s.length < w → motive s)
    (long : ∀ s, w ≤ s.length → motive (s.drop w) → motive s) (s : List Bool) : motive s := by
  induction hlen : s.length using Nat.strong_induction_on generalizing s with
  | h len ih =>
    rcases Nat.lt_or_ge s.length w with h | h
    · exact short s h
    · exact long s h (ih _ (by rw [length_drop]; omega) _ rfl)

theorem groups_append (hw : 0 < w) (s t : List Bool) :
    groups w (s ++ t) = groups w s ++ groups w (rest w s ++ t) := by
  induction s using groupInduction hw with
  | short s h => rw [groups_of_lt h, rest_of_lt h, nil_append]
  | long s h ih =>
    have hfirst : ∀ j : Fin w, (s ++ t).getD j false = s.getD j false := fun j =>
      getD_append _ _ _ _ (j.isLt.trans_le h)
    rw [groups_of_le hw (h.trans (by simp)), drop_append_of_le_length h, ih, groups_of_le hw h,
      rest_of_le hw h, cons_append]
    simp only [hfirst]

theorem rest_append (hw : 0 < w) (s t : List Bool) :
    rest w (s ++ t) = rest w (rest w s ++ t) := by
  induction s using groupInduction hw with
  | short s h => rw [rest_of_lt h]
  | long s h ih =>
    rw [rest_of_le hw (h.trans (by simp)), drop_append_of_le_length h, ih, ← rest_of_le hw h]

theorem length_groups : (groups w s).length = s.length / w := by simp [groups]

theorem length_rest : (rest w s).length = s.length % w := by
  rw [rest, length_drop, Nat.mod_eq_sub]

theorem rest_of_dvd (h : w ∣ s.length) : rest w s = [] := by
  rw [rest, Nat.mul_div_cancel' h, drop_length]

theorem length_flatMap_bits (xs : List ℕ) : (xs.flatMap (bits d)).length = d * xs.length := by
  rw [length_flatMap, map_congr_left fun x _ => length_bits, map_const', sum_replicate_nat,
    Nat.mul_comm]

/-! ### The accumulator -/

/-- The accumulator holds the `n` bits of the string, and none above them. -/
structure Holds (acc n : ℕ) (s : List Bool) : Prop where
  lt : acc < 2 ^ n
  bits_eq : bits n acc = s

theorem Holds.length_eq (h : Holds acc n s) : s.length = n := by rw [← h.bits_eq, length_bits]

theorem holds_zero : Holds 0 0 [] := ⟨Nat.one_pos, rfl⟩

/-- `v` is put in above the bits that are held. -/
theorem Holds.push (h : Holds acc n s) (hv : v < 2 ^ d) :
    Holds (acc ||| v <<< n) (n + d) (s ++ bits d v) := by
  have hshift : v <<< n < 2 ^ (n + d) := by
    rw [Nat.shiftLeft_eq, Nat.pow_add, Nat.mul_comm]
    exact Nat.mul_lt_mul_of_pos_left hv (Nat.two_pow_pos n)
  refine ⟨Nat.or_lt_two_pow (h.lt.trans_le (Nat.pow_le_pow_right Nat.two_pos (n.le_add_right d)))
    hshift, ?_⟩
  rw [bits_add]
  congr 1
  · rw [← h.bits_eq]
    refine map_congr_left fun i hi => ?_
    rw [Nat.testBit_or, Nat.testBit_shiftLeft, decide_eq_false (Nat.not_le.mpr (mem_range.mp hi)),
      Bool.false_and, Bool.or_false]
  · rw [Nat.shiftRight_or_distrib, Nat.shiftLeft_shiftRight, Nat.shiftRight_eq_zero _ _ h.lt,
      Nat.zero_or]

/-- The lowest group is taken out. -/
theorem Holds.pop (h : Holds acc n s) (hle : w ≤ n) : Holds (acc >>> w) (n - w) (s.drop w) := by
  refine ⟨?_, ?_⟩
  · rw [Nat.shiftRight_eq_div_pow]
    refine Nat.div_lt_of_lt_mul ?_
    rw [← Nat.pow_add, Nat.add_sub_cancel' hle]
    exact h.lt
  · have hadd : bits n acc = bits w acc ++ bits (n - w) (acc >>> w) := by
      rw [← bits_add, Nat.add_sub_cancel' hle]
    rw [← h.bits_eq, hadd, drop_left' length_bits]

theorem Holds.groups_eq (h : Holds acc n s) (hw : 0 < w) (hle : w ≤ n) :
    groups w s = acc % 2 ^ w :: groups w (s.drop w) := by
  have hbit : ∀ j : Fin w, s.getD j false = acc.testBit j := fun j => by
    rw [← h.bits_eq, getD_bits (j.isLt.trans_le hle)]
  rw [groups_of_le hw (h.length_eq.symm ▸ hle)]
  simp only [hbit, Nat.ofBits_testBit]

end BitPacking
