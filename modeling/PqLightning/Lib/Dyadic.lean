import Mathlib.Data.Nat.Bitwise
import Mathlib.Tactic.Ring

/-!
# Derivation down a binary tree of indices

A family of values indexed by the `d`-bit numbers, where the value at an index is obtained from a
value higher up the tree by walking down the bits of the index: at every set bit one step function
is applied. Knowing the value at the start of a subtree is then knowing every value in it, which is
what lets a store that keeps one value per level answer for all of them.

## Main results

* `derive_base` — a walk may be interrupted at any subtree on its way
* `exists_least_level` — an index at or above `n` lies in a subtree that starts at or above
  `n` and is the first of its level to do so
-/

namespace Dyadic

variable {S : Type*} {f : ℕ → S → S}

/-! ### Subtree starts -/

/-- `i` with its low `k` bits cleared: where the level-`k` subtree containing `i` starts. -/
def base (i k : ℕ) : ℕ := i / 2 ^ k * 2 ^ k

theorem base_le (i k : ℕ) : base i k ≤ i := Nat.div_mul_le_self i (2 ^ k)

theorem lt_base_add (i k : ℕ) : i < base i k + 2 ^ k := by
  have h := Nat.lt_div_mul_add (a := i) (Nat.two_pow_pos k)
  exact h

theorem dvd_base (i k : ℕ) : 2 ^ k ∣ base i k := Nat.dvd_mul_left _ _

@[simp] theorem base_zero (i : ℕ) : base i 0 = i := by simp [base]

/-- The start of the subtree is determined by lying within it. -/
theorem base_eq_of_mem {i k m : ℕ} (hd : 2 ^ k ∣ m) (hle : m ≤ i) (hlt : i < m + 2 ^ k) :
    base i k = m := by
  obtain ⟨c, rfl⟩ := hd
  have hdiv : i / 2 ^ k = c := by
    apply Nat.div_eq_of_lt_le
    · rw [Nat.mul_comm]; exact hle
    · rw [Nat.succ_mul, Nat.mul_comm c]; exact hlt
  rw [base, hdiv, Nat.mul_comm]

theorem base_of_dvd {i k : ℕ} (h : 2 ^ k ∣ i) : base i k = i :=
  base_eq_of_mem h (Nat.le_refl i) (by have := Nat.two_pow_pos k; omega)

/-- Larger subtrees start earlier. -/
theorem base_antitone {i k q : ℕ} (h : k ≤ q) : base i q ≤ base i k := by
  obtain ⟨c, hc⟩ := (pow_dvd_pow 2 h).trans (dvd_base i q)
  have hle : c ≤ i / 2 ^ k := by
    rw [Nat.le_div_iff_mul_le (Nat.two_pow_pos k), Nat.mul_comm, ← hc]
    exact base_le i q
  calc base i q = c * 2 ^ k := by rw [hc, Nat.mul_comm]
    _ ≤ base i k := Nat.mul_le_mul_right _ hle

theorem testBit_base_of_lt {i k b : ℕ} (h : b < k) : (base i k).testBit b = false := by
  rw [base, Nat.mul_comm, Nat.testBit_two_pow_mul]
  simp [Nat.not_le.mpr h]

theorem testBit_base_of_le {i k b : ℕ} (h : k ≤ b) : (base i k).testBit b = i.testBit b := by
  rw [base, Nat.mul_comm, Nat.testBit_two_pow_mul, Nat.testBit_div_two_pow]
  simp [h]

/-- An index whose low `k` bits are clear starts a level-`k` subtree. -/
theorem dvd_of_testBit {i k : ℕ} (h : ∀ b < k, i.testBit b = false) : 2 ^ k ∣ i := by
  have heq : base i k = i := by
    refine Nat.eq_of_testBit_eq fun b => ?_
    rcases Nat.lt_or_ge b k with hb | hb
    · rw [testBit_base_of_lt hb, h b hb]
    · exact testBit_base_of_le hb
  exact heq ▸ dvd_base i k

/-- A subtree that starts below a bound at which subtrees of its level start ends by there. -/
theorem add_two_pow_le {i k m : ℕ} (hlt : i < m) (hi : 2 ^ k ∣ i) (hm : 2 ^ k ∣ m) :
    i + 2 ^ k ≤ m := by
  obtain ⟨a, rfl⟩ := hi
  obtain ⟨b, rfl⟩ := hm
  have hab : a < b := Nat.lt_of_mul_lt_mul_left hlt
  calc 2 ^ k * a + 2 ^ k = 2 ^ k * (a + 1) := by ring
    _ ≤ 2 ^ k * b := Nat.mul_le_mul_left _ hab

/-! ### The walk -/

/-- Walk down the low `q` bits of `i`, from the highest, applying `f b` at every set bit `b`. -/
def derive (f : ℕ → S → S) : ℕ → ℕ → S → S
  | 0, _, s => s
  | b + 1, i, s => derive f b i (if i.testBit b then f b s else s)

/-- The walk to the start of the subtree it begins at does nothing. -/
theorem derive_of_low_zero {q i : ℕ} (h : ∀ b < q, i.testBit b = false) (s : S) :
    derive f q i s = s := by
  induction q with
  | zero => rfl
  | succ q ih =>
    rw [derive, h q (Nat.lt_succ_self q)]
    exact ih fun b hb => h b (Nat.lt_succ_of_lt hb)

theorem derive_of_dvd {q i : ℕ} (h : 2 ^ q ∣ i) (s : S) : derive f q i s = s := by
  refine derive_of_low_zero (fun b hb => ?_) s
  rw [← base_of_dvd h, testBit_base_of_lt hb]

/-- **Composition.** The walk to `i` may be interrupted at the start of any subtree that contains
`i` and is no larger than the one the walk begins at. -/
theorem derive_base {k q : ℕ} (h : k ≤ q) (i : ℕ) (s : S) :
    derive f k i (derive f q (base i k) s) = derive f q i s := by
  induction q, h using Nat.le_induction generalizing s with
  | base => rw [derive_of_dvd (dvd_base i k)]
  | succ q hq ih =>
    rw [derive, derive, testBit_base_of_le hq]
    exact ih _

/-! ### Levels -/

/-- `p` is the level of the largest subtree, in a tree of depth `d`, that starts at `i`. -/
structure IsLevel (d p i : ℕ) : Prop where
  /-- The tree has no subtree above its depth. -/
  le : p ≤ d
  /-- A level-`p` subtree starts at `i`. -/
  dvd : 2 ^ p ∣ i
  /-- No larger one does. -/
  not_dvd : p < d → ¬ 2 ^ (p + 1) ∣ i

theorem IsLevel.unique {d p q i : ℕ} (hp : IsLevel d p i) (hq : IsLevel d q i) : p = q := by
  rcases Nat.lt_trichotomy p q with h | h | h
  · exact absurd ((pow_dvd_pow 2 h).trans hq.dvd) (hp.not_dvd (Nat.lt_of_lt_of_le h hq.le))
  · exact h
  · exact absurd ((pow_dvd_pow 2 h).trans hp.dvd) (hq.not_dvd (Nat.lt_of_lt_of_le h hp.le))

theorem odd_of_isLevel {d p i : ℕ} (h : IsLevel d p i) (hp : p < d) :
    ∃ c, i = (2 * c + 1) * 2 ^ p := by
  obtain ⟨c, rfl⟩ := h.dvd
  have hodd : c % 2 = 1 := by
    by_contra hne
    refine h.not_dvd hp ⟨c / 2, ?_⟩
    rw [pow_succ, Nat.mul_assoc]
    congr 1
    omega
  exact ⟨c / 2, by rw [Nat.mul_comm]; congr 1; omega⟩

/-- Just above an index, the first index of each smaller level. -/
theorem IsLevel.add_two_pow {d p q i : ℕ} (h : IsLevel d q i) (hp : p < q) :
    IsLevel d p (i + 2 ^ p) where
  le := Nat.le_trans (Nat.le_of_lt hp) h.le
  dvd := Nat.dvd_add ((pow_dvd_pow 2 (Nat.le_of_lt hp)).trans h.dvd) dvd_rfl
  not_dvd _ hc := by
    have h1 : 2 ^ (p + 1) ∣ 2 ^ p := (Nat.dvd_add_right ((pow_dvd_pow 2 hp).trans h.dvd)).mp hc
    exact absurd (Nat.le_of_dvd (Nat.two_pow_pos p) h1)
      (Nat.not_le.mpr (Nat.pow_lt_pow_right (by omega) (Nat.lt_succ_self p)))

/-- A subtree that starts at or above a given index but contains a larger one of its level does
not start below the next subtree one level up. -/
theorem IsLevel.le_of_between {d p u i : ℕ} (hu : IsLevel d p u) (hp : p < d)
    (hlt : u < base i p) : u ≤ base i (p + 1) := by
  obtain ⟨c, rfl⟩ := odd_of_isLevel hu hp
  obtain ⟨e, he⟩ := dvd_base i p
  obtain ⟨g, hg⟩ := dvd_base i (p + 1)
  have hpos := Nat.two_pow_pos p
  have hub : base i p ≤ base i (p + 1) + 2 ^ p := by
    have h1 := lt_base_add i (p + 1)
    have h2 := base_le i p
    rw [he, hg, pow_succ] at *
    have h3 : 2 ^ p * e < 2 ^ p * (2 * g + 2) := by
      calc 2 ^ p * e ≤ i := h2
        _ < 2 ^ p * 2 * g + 2 ^ p * 2 := h1
        _ = 2 ^ p * (2 * g + 2) := by ring
    have h4 : e < 2 * g + 2 := Nat.lt_of_mul_lt_mul_left h3
    calc 2 ^ p * e ≤ 2 ^ p * (2 * g + 1) := Nat.mul_le_mul_left _ (by omega)
      _ = 2 ^ p * 2 * g + 2 ^ p := by ring
  have h5 : (2 * c + 1) * 2 ^ p < (2 * g + 1) * 2 ^ p := by
    calc (2 * c + 1) * 2 ^ p < base i p := hlt
      _ ≤ base i (p + 1) + 2 ^ p := hub
      _ = (2 * g + 1) * 2 ^ p := by rw [hg, pow_succ]; ring
  have h6 : 2 * c + 1 < 2 * g + 1 := Nat.lt_of_mul_lt_mul_right h5
  calc (2 * c + 1) * 2 ^ p ≤ (2 * g) * 2 ^ p := Nat.mul_le_mul_right _ (by omega)
    _ = base i (p + 1) := by rw [hg, pow_succ]; ring

/-- **Coverage.** An index at or above `n` lies in some subtree that starts at or above `n`, at the
first index of its level to do so. The subtree is the largest one around the index that does not
reach below `n`. -/
theorem exists_least_level {d n i : ℕ} (hn : n ≤ i) (hi : i < 2 ^ d) :
    ∃ p, IsLevel d p (base i p) ∧ n ≤ base i p ∧ ∀ u, n ≤ u → IsLevel d p u → base i p ≤ u := by
  classical
  let p := Nat.findGreatest (fun p => n ≤ base i p) d
  have hspec : n ≤ base i p :=
    Nat.findGreatest_spec (P := fun p => n ≤ base i p) (Nat.zero_le d) (by simpa using hn)
  have hle : p ≤ d := Nat.findGreatest_le d
  have hmax : p < d → base i (p + 1) < n := fun hpd =>
    Nat.not_le.mp (Nat.findGreatest_is_greatest (P := fun p => n ≤ base i p)
      (Nat.lt_succ_self p) hpd)
  refine ⟨p, ⟨hle, dvd_base i p, fun hpd hdvd => ?_⟩, hspec, fun u hu hlev => ?_⟩
  · -- if a larger subtree started here too, the search would not have stopped at `p`
    have heq : base i (p + 1) = base i p := by
      refine base_eq_of_mem hdvd (base_le i p) ?_
      have h1 := lt_base_add i p
      rw [pow_succ]
      omega
    have := hmax hpd
    omega
  · rcases Nat.lt_or_ge p d with hpd | hpd
    · by_contra hlt
      have h1 := hlev.le_of_between hpd (Nat.not_le.mp hlt)
      have h2 := hmax hpd
      omega
    · have h0 : base i p = 0 := by
        have hpe : p = d := Nat.le_antisymm hle hpd
        rw [hpe, base, Nat.div_eq_of_lt hi, Nat.zero_mul]
      rw [h0]
      exact Nat.zero_le u

end Dyadic
