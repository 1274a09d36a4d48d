import Mathlib.Data.Nat.Log
import Mathlib.Data.List.Basic
import Mathlib.Tactic.Ring

/-!
# Merkle trees over a list of hashes

The tree over a list is split at the largest power of two below its length, so the left side is
always full. Its root can be computed by recursion over the tree (`root`) or level by level in place
(`levels`): at each level the root of a block is combined with the root of the block to its right,
if there is one. The two agree (`head?_levels`).

Some of the leaves can be kept and the others hidden: a part of the tree without a kept leaf is then
given by its root alone. The roots that are needed come in the order in which the recursion over the
tree asks for them.

Nothing is assumed of the operation that combines two hashes.

## Main results

* `head?_levels` — the first entry of `levels` is the root
* `spans_of_root` — the root is built from the hashes
* `of_root` — whatever passes from a combined hash to its two parts passes from the root to
  every leaf
* `rebuild_of_disclose` — what was disclosed rebuilds the root
* `of_rebuild` — whatever passes from a combined hash to its two parts passes from a rebuilt
  root to every kept leaf, however the missing hashes were chosen
-/

namespace Merkle

open List

/-! ### Where a list is split -/

/-- The smallest power of two that is not below `n`. -/
def nextPowerOfTwo (n : ℕ) : ℕ := 2 ^ Nat.clog 2 n

/-- The length of the left side. -/
def mid (n : ℕ) : ℕ := nextPowerOfTwo n / 2

theorem mid_eq {n level : ℕ} (hlt : 2 ^ level < n) (hle : n ≤ 2 ^ (level + 1)) :
    mid n = 2 ^ level := by
  have hclog : Nat.clog 2 n = level + 1 := by
    apply le_antisymm
    · exact (Nat.clog_le_iff_le_pow Nat.one_lt_two).mpr hle
    · exact (Nat.lt_clog_iff_pow_lt Nat.one_lt_two).mpr hlt
  rw [mid, nextPowerOfTwo, hclog, Nat.pow_succ, Nat.mul_div_cancel _ Nat.two_pos]

/-- Every length from two on lies between two powers. -/
theorem exists_level {n : ℕ} (h : 2 ≤ n) : ∃ level, 2 ^ level < n ∧ n ≤ 2 ^ (level + 1) := by
  have hpos : 0 < Nat.clog 2 n := Nat.clog_pos Nat.one_lt_two h
  obtain ⟨level, hlevel⟩ := Nat.exists_eq_add_one.mpr hpos
  refine ⟨level, ?_, ?_⟩
  · exact (Nat.lt_clog_iff_pow_lt Nat.one_lt_two).mp (by omega)
  · exact (Nat.clog_le_iff_le_pow Nat.one_lt_two).mp (by omega)

theorem mid_pos {n : ℕ} (h : 2 ≤ n) : 0 < mid n := by
  obtain ⟨level, hlt, hle⟩ := exists_level h
  rw [mid_eq hlt hle]
  exact Nat.two_pow_pos level

theorem mid_lt {n : ℕ} (h : 2 ≤ n) : mid n < n := by
  obtain ⟨level, hlt, hle⟩ := exists_level h
  rwa [mid_eq hlt hle]

section Sides

variable {α : Type} {l : List α}

theorem length_take_mid_lt (h : 2 ≤ l.length) : (l.take (mid l.length)).length < l.length := by
  have hlt := mid_lt h
  rw [length_take]
  omega

theorem length_drop_mid_lt (h : 2 ≤ l.length) : (l.drop (mid l.length)).length < l.length := by
  have hpos := mid_pos h
  rw [length_drop]
  omega

end Sides

/-- Induction over the tree of a list: both sides of a split are shorter. -/
theorem tree_induction {α : Type} {motive : List α → Prop} (nil : motive [])
    (singleton : ∀ a, motive [a])
    (split : ∀ l : List α, 2 ≤ l.length → motive (l.take (mid l.length)) →
      motive (l.drop (mid l.length)) → motive l) (l : List α) : motive l := by
  induction hn : l.length using Nat.strong_induction_on generalizing l with
  | _ n ih =>
    match l with
    | [] => exact nil
    | [a] => exact singleton a
    | a :: b :: l =>
      have htwo : 2 ≤ (a :: b :: l).length := by simp
      exact split _ htwo (ih _ (hn ▸ length_take_mid_lt htwo) _ rfl)
        (ih _ (hn ▸ length_drop_mid_lt htwo) _ rfl)

/-! ### The root -/

variable {H : Type} (op : H → H → H)

def root : List H → Option H
  | [] => none
  | [a] => some a
  | a :: b :: l =>
    let n := (a :: b :: l).length
    match root ((a :: b :: l).take (mid n)), root ((a :: b :: l).drop (mid n)) with
    | some left, some right => some (op left right)
    | _, _ => none
termination_by l => l.length
decreasing_by
  · exact length_take_mid_lt (by simp)
  · exact length_drop_mid_lt (by simp)

theorem root_split {l : List H} (h : 2 ≤ l.length) :
    root op l = (root op (l.take (mid l.length))).bind fun left =>
      (root op (l.drop (mid l.length))).map (op left) := by
  match l, h with
  | a :: b :: l, _ =>
    rw [root]
    cases root op ((a :: b :: l).take (mid (a :: b :: l).length)) with
    | none => rfl
    | some left => cases root op ((a :: b :: l).drop (mid (a :: b :: l).length)) <;> rfl

/-- The values that can be built from some hashes. -/
inductive Spans (hashes : List H) : H → Prop
  | leaf {a : H} (h : a ∈ hashes) : Spans hashes a
  | node {a b : H} (ha : Spans hashes a) (hb : Spans hashes b) : Spans hashes (op a b)

variable {op}

theorem Spans.mono {hashes hashes' : List H} (hsub : hashes ⊆ hashes') {a : H}
    (h : Spans op hashes a) : Spans op hashes' a := by
  induction h with
  | leaf h => exact .leaf (hsub h)
  | node _ _ iha ihb => exact .node iha ihb

variable (op) in
/-- **A list that is not empty has a root**, and it is built from the list. -/
theorem exists_root (l : List H) (hne : l ≠ []) : ∃ a, root op l = some a ∧ Spans op l a := by
  induction l using tree_induction with
  | nil => exact absurd rfl hne
  | singleton a => exact ⟨a, by rw [root], .leaf (mem_singleton_self a)⟩
  | split l htwo ihl ihr =>
    have hpos := mid_pos htwo
    have hlt := mid_lt htwo
    obtain ⟨left, hl, hspanl⟩ := ihl (ne_nil_of_length_pos (by rw [length_take]; omega))
    obtain ⟨right, hr, hspanr⟩ := ihr (ne_nil_of_length_pos (by rw [length_drop]; omega))
    refine ⟨op left right, ?_, .node (hspanl.mono (take_subset _ _))
      (hspanr.mono (drop_subset _ _))⟩
    rw [root_split op htwo, hl, hr]
    rfl

theorem spans_of_root {l : List H} {a : H} (h : root op l = some a) : Spans op l a := by
  have hne : l ≠ [] := by
    rintro rfl
    simp [root] at h
  obtain ⟨b, hb, hspans⟩ := exists_root op l hne
  rw [h] at hb
  rwa [Option.some.inj hb]

/-- Whatever passes from a combined hash to its two parts passes from the root to every leaf. -/
theorem of_root {P : H → Prop} (hparts : ∀ a b, P (op a b) → P a ∧ P b) (l : List H) {a : H}
    (h : root op l = some a) (ha : P a) : ∀ b ∈ l, P b := by
  induction l using tree_induction generalizing a with
  | nil => simp
  | singleton b =>
    rw [root] at h
    cases h
    simpa using ha
  | split l htwo ihl ihr =>
    rw [root_split op htwo] at h
    obtain ⟨left, hl, h⟩ := Option.bind_eq_some_iff.mp h
    obtain ⟨right, hr, rfl⟩ := Option.map_eq_some_iff.mp h
    obtain ⟨hleft, hright⟩ := hparts left right ha
    intro b hb
    rw [← take_append_drop (mid l.length) l] at hb
    rcases mem_append.mp hb with hb | hb
    · exact ihl hl hleft b hb
    · exact ihr hr hright b hb

/-! ### Level by level -/

variable (op)

/-- The numbers from `start` to `stop`, in steps. -/
def stepBy (start stop step : ℕ) : List ℕ :=
  (List.range ((stop - start + step - 1) / step)).map fun k => start + k * step

variable (hashes : List H)

/-- One pair of a level: the root of a block is combined with that of the block to its right. -/
def mergePair (pair : ℕ × ℕ) : List H :=
  match hashes[pair.1]?, hashes[pair.2]? with
  | some left, some right => hashes.set pair.1 (op left right)
  | _, _ => hashes

/-- One level, in place. -/
def mergeLevel (n step offset : ℕ) (hashes : List H) : List H :=
  ((stepBy 0 n step).zip (stepBy offset n step)).foldl (mergePair op) hashes

def levels (n level : ℕ) (hashes : List H) : List H :=
  if n ≤ 2 ^ level then hashes
  else levels n (level + 1) (mergeLevel op n (2 ^ (level + 1)) (2 ^ level) hashes)
termination_by n - 2 ^ level
decreasing_by
  have := Nat.two_pow_pos level
  rw [Nat.pow_succ]
  omega

variable {op}

@[simp] theorem length_mergePair (pair : ℕ × ℕ) :
    (mergePair op hashes pair).length = hashes.length := by
  rw [mergePair]
  split <;> simp

@[simp] theorem length_foldl_mergePair (pairs : List (ℕ × ℕ)) :
    (pairs.foldl (mergePair op) hashes).length = hashes.length := by
  induction pairs generalizing hashes with
  | nil => rfl
  | cons pair pairs ih => rw [foldl_cons, ih, length_mergePair]

@[simp] theorem length_mergeLevel (n step offset : ℕ) (hashes : List H) :
    (mergeLevel op n step offset hashes).length = hashes.length :=
  length_foldl_mergePair _ _

/-- The pairs of a level. -/
theorem zip_stepBy (n step offset : ℕ) :
    (stepBy 0 n step).zip (stepBy offset n step) =
      (List.range ((n - offset + step - 1) / step)).map fun k => (k * step, k * step + offset) := by
  have hle : (n - offset + step - 1) / step ≤ (n - 0 + step - 1) / step :=
    Nat.div_le_div_right (by omega)
  apply ext_getElem
  · simp only [stepBy, length_zip, length_map, length_range]
    omega
  · intro k h₁ h₂
    simp [stepBy, Nat.add_comm]

/-- The first `m` pairs of a level: the entries at multiples of `step` change, and no other. -/
theorem getElem?_foldl_mergePair {step offset : ℕ} (hpos : 0 < offset) (hlt : offset < step)
    (hashes : List H) {m : ℕ} (hm : ∀ k < m, k * step + offset < hashes.length) (i : ℕ) :
    (((List.range m).map fun k => (k * step, k * step + offset)).foldl (mergePair op) hashes)[i]? =
      if i % step = 0 ∧ i / step < m then
        hashes[i]?.bind fun left => hashes[i + offset]?.map (op left) else hashes[i]? := by
  induction m generalizing i with
  | zero => simp
  | succ m ih =>
    have hstep : 0 < step := by omega
    have hmm := hm m (Nat.lt_succ_self m)
    have ih := ih fun k hk => hm k (Nat.lt_succ_of_lt hk)
    rw [range_succ, map_append, foldl_append, map_singleton, foldl_cons, foldl_nil]
    -- what the round reads was not written before
    have hleft := ih (m * step)
    rw [if_neg (by simp [Nat.mul_div_cancel _ hstep])] at hleft
    have hright := ih (m * step + offset)
    rw [if_neg (by simp [Nat.mul_add_mod_self_right, Nat.mod_eq_of_lt hlt]; omega)] at hright
    obtain ⟨left, hl⟩ : ∃ left, hashes[m * step]? = some left := ⟨_, getElem?_eq_getElem (by omega)⟩
    obtain ⟨right, hr⟩ : ∃ right, hashes[m * step + offset]? = some right :=
      ⟨_, getElem?_eq_getElem hmm⟩
    rw [mergePair]
    simp only [hleft, hright, hl, hr]
    by_cases hi : i = m * step
    · subst hi
      have hdone : m * step % step = 0 ∧ m * step / step < m + 1 := by
        simp [Nat.mul_div_cancel _ hstep]
      rw [if_pos hdone, hl, hr, getElem?_set_self (by rw [length_foldl_mergePair]; omega)]
      rfl
    · have hiff : i % step = 0 ∧ i / step < m + 1 ↔ i % step = 0 ∧ i / step < m := by
        constructor
        · rintro ⟨hmod, hdiv⟩
          refine ⟨hmod, lt_of_le_of_ne (Nat.le_of_lt_succ hdiv) fun heq => hi ?_⟩
          rw [← heq, Nat.div_mul_cancel (Nat.dvd_of_mod_eq_zero hmod)]
        · rintro ⟨hmod, hdiv⟩
          exact ⟨hmod, Nat.lt_succ_of_lt hdiv⟩
      rw [getElem?_set_ne (Ne.symm hi), ih, if_congr hiff rfl rfl]

/-- **One level** combines each block with the one to its right, if there is one. -/
theorem getElem?_mergeLevel {n step offset : ℕ} (hpos : 0 < offset) (hlt : offset < step)
    {hashes : List H} (hlength : hashes.length = n) (k : ℕ) :
    (mergeLevel op n step offset hashes)[k * step]? =
      if k * step + offset < n then
        hashes[k * step]?.bind fun left => hashes[k * step + offset]?.map (op left)
      else hashes[k * step]? := by
  have hstep : 0 < step := by omega
  -- there are as many pairs as multiples of `step` with something to their right
  have hcount : ∀ k, k < (n - offset + step - 1) / step ↔ k * step + offset < n := by
    intro k
    rw [Nat.lt_div_iff_mul_lt hstep]
    omega
  rw [mergeLevel, zip_stepBy, getElem?_foldl_mergePair hpos hlt]
  · rw [Nat.mul_mod_left, Nat.mul_div_cancel _ hstep]
    exact if_congr (by rw [hcount]; simp) rfl rfl
  · intro k hk
    rw [hlength]
    exact (hcount k).mp hk

variable (op) in
/-- Before a level, every block of the level starts with its root. -/
structure BlockRoots (leaves : List H) (level : ℕ) (hashes : List H) : Prop where
  length : hashes.length = leaves.length
  roots : ∀ k, k * 2 ^ level < leaves.length →
    hashes[k * 2 ^ level]? = root op ((leaves.drop (k * 2 ^ level)).take (2 ^ level))

/-- A block of the next level is two blocks, or the last one. -/
theorem root_take_two_pow (l : List H) (level : ℕ) :
    root op (l.take (2 ^ (level + 1))) =
      if 2 ^ level < l.length then
        (root op (l.take (2 ^ level))).bind fun left =>
          (root op ((l.drop (2 ^ level)).take (2 ^ level))).map (op left)
      else root op (l.take (2 ^ level)) := by
  have hpos := Nat.two_pow_pos level
  have hpow : 2 ^ (level + 1) = 2 ^ level + 2 ^ level := by omega
  split
  next h =>
    have hlength : (l.take (2 ^ (level + 1))).length = min (2 ^ (level + 1)) l.length := length_take
    have hmid : mid (l.take (2 ^ (level + 1))).length = 2 ^ level := by
      apply mid_eq <;> omega
    rw [root_split op (by omega), hmid, take_take, Nat.min_eq_left (by omega), drop_take,
      show 2 ^ (level + 1) - 2 ^ level = 2 ^ level by omega]
  next h => rw [take_of_length_le (by omega), take_of_length_le (by omega)]

theorem blockRoots_zero (leaves : List H) : BlockRoots op leaves 0 leaves := by
  refine ⟨rfl, fun k hk => ?_⟩
  rw [pow_zero, Nat.mul_one] at hk ⊢
  rw [drop_eq_getElem_cons hk, getElem?_eq_getElem hk]
  show _ = root op [leaves[k]]
  rw [root]

theorem BlockRoots.mergeLevel {leaves hashes : List H} {level : ℕ}
    (h : BlockRoots op leaves level hashes) :
    BlockRoots op leaves (level + 1)
      (Merkle.mergeLevel op leaves.length (2 ^ (level + 1)) (2 ^ level) hashes) := by
  have hpos := Nat.two_pow_pos level
  have hpow : 2 ^ (level + 1) = 2 ^ level + 2 ^ level := by omega
  refine ⟨by rw [length_mergeLevel, h.length], fun k hk => ?_⟩
  have hleft : k * 2 ^ (level + 1) = 2 * k * 2 ^ level := by rw [Nat.pow_succ]; ring
  have hright : k * 2 ^ (level + 1) + 2 ^ level = (2 * k + 1) * 2 ^ level := by rw [hleft]; ring
  rw [getElem?_mergeLevel hpos (by omega) h.length, root_take_two_pow, length_drop]
  by_cases hnext : k * 2 ^ (level + 1) + 2 ^ level < leaves.length
  · rw [if_pos hnext, if_pos (by omega), drop_drop, hright, hleft, h.roots (2 * k) (by omega),
      h.roots (2 * k + 1) (by omega)]
  · rw [if_neg hnext, if_neg (by omega), hleft, h.roots (2 * k) (by omega)]

/-- **Run.** In the end there is one block. -/
theorem BlockRoots.levels {leaves hashes : List H} (hne : leaves ≠ []) (level : ℕ)
    (h : BlockRoots op leaves level hashes) :
    (Merkle.levels op leaves.length level hashes).head? = root op leaves := by
  fun_induction Merkle.levels op leaves.length level hashes with
  | case1 level hashes hle =>
    have hroot := h.roots 0 (by simpa using length_pos_of_ne_nil hne)
    rwa [Nat.zero_mul, drop_zero, take_of_length_le hle, ← head?_eq_getElem?] at hroot
  | case2 level hashes _ ih => exact ih h.mergeLevel

/-- **Level by level** one gets the same root. -/
theorem head?_levels {leaves : List H} (hne : leaves ≠ []) :
    (levels op leaves.length 0 leaves).head? = root op leaves :=
  (blockRoots_zero leaves).levels hne 0

/-! ### Keeping some of the leaves -/

/-- The hash that someone who knows only the kept leaves misses at a node: the root of the side
without one, if the other side has one. -/
def missingAt (left right : H × Bool) : List H :=
  if left.2 && !right.2 then [right.1]
  else if !left.2 && right.2 then [left.1]
  else []

variable (op) in
/-- The root, whether a leaf below it is kept, and the missing hashes behind those found so far. -/
def disclose : List (H × Bool) → List H → Option ((H × Bool) × List H)
  | [], _ => none
  | [leaf], missing => some (leaf, missing)
  | a :: b :: l, missing =>
    let n := (a :: b :: l).length
    match disclose ((a :: b :: l).take (mid n)) missing with
    | none => none
    | some (left, missing) =>
      match disclose ((a :: b :: l).drop (mid n)) missing with
      | none => none
      | some (right, missing) =>
        some ((op left.1 right.1, left.2 || right.2), missing ++ missingAt left right)
termination_by l => l.length
decreasing_by
  · exact length_take_mid_lt (by simp)
  · exact length_drop_mid_lt (by simp)

variable (op) in
/-- The two sides of a node, and the index of the next missing hash: a side without a kept leaf is
taken from the missing hashes if the other side has one. -/
def join (missing : List H) (left right : Option H) (next : ℕ) : Option (Option H × ℕ) :=
  match left, right with
  | none, none => some (none, next)
  | some l, none => missing[next]?.map fun r => (some (op l r), next + 1)
  | none, some r => missing[next]?.map fun l => (some (op l r), next + 1)
  | some l, some r => some (some (op l r), next)

variable (op) in
/-- The root from the kept leaves, if there is one, and the index of the next missing hash. -/
def rebuild (missing : List H) : List (Option H) → ℕ → Option (Option H × ℕ)
  | [], _ => none
  | [leaf], next => some (leaf, next)
  | a :: b :: l, next =>
    let n := (a :: b :: l).length
    match rebuild missing ((a :: b :: l).take (mid n)) next with
    | none => none
    | some (left, next) =>
      match rebuild missing ((a :: b :: l).drop (mid n)) next with
      | none => none
      | some (right, next) => join op missing left right next
termination_by l => l.length
decreasing_by
  · exact length_take_mid_lt (by simp)
  · exact length_drop_mid_lt (by simp)

/-- What someone who knows only the kept leaves knows of a node. -/
def keep (leaf : H × Bool) : Option H := if leaf.2 then some leaf.1 else none

variable {missing : List H}

theorem disclose_split {l : List (H × Bool)} (h : 2 ≤ l.length) {result : (H × Bool) × List H} :
    disclose op l missing = some result ↔
      ∃ left missing₁ right missing₂,
        disclose op (l.take (mid l.length)) missing = some (left, missing₁) ∧
        disclose op (l.drop (mid l.length)) missing₁ = some (right, missing₂) ∧
        result = ((op left.1 right.1, left.2 || right.2), missing₂ ++ missingAt left right) := by
  match l, h with
  | a :: b :: l, _ =>
    rw [disclose]
    constructor
    · intro hsome
      split at hsome
      · cases hsome
      · next left missing₁ hleft =>
        split at hsome
        · cases hsome
        · next right missing₂ hright =>
          exact ⟨left, missing₁, right, missing₂, hleft, hright, (Option.some.inj hsome).symm⟩
    · rintro ⟨left, missing₁, right, missing₂, hleft, hright, rfl⟩
      simp only [hleft, hright]

theorem rebuild_split {l : List (Option H)} (h : 2 ≤ l.length) {next : ℕ} {result : Option H × ℕ} :
    rebuild op missing l next = some result ↔
      ∃ left next₁ right next₂,
        rebuild op missing (l.take (mid l.length)) next = some (left, next₁) ∧
        rebuild op missing (l.drop (mid l.length)) next₁ = some (right, next₂) ∧
        join op missing left right next₂ = some result := by
  match l, h with
  | a :: b :: l, _ =>
    rw [rebuild]
    constructor
    · intro hsome
      split at hsome
      · cases hsome
      · next left next₁ hleft =>
        split at hsome
        · cases hsome
        · next right next₂ hright => exact ⟨left, next₁, right, next₂, hleft, hright, hsome⟩
    · rintro ⟨left, next₁, right, next₂, hleft, hright, hjoin⟩
      simp only [hleft, hright, hjoin]

/-- At a node, the missing hash is the one asked for. -/
theorem join_keep (left right : H × Bool) {next : ℕ}
    (h : missingAt left right <+: missing.drop next) :
    join op missing (keep left) (keep right) next =
      some (keep (op left.1 right.1, left.2 || right.2), next + (missingAt left right).length) := by
  have hhead : ∀ a, [a] <+: missing.drop next → missing[next]? = some a := by
    rintro a ⟨rest, hrest⟩
    rw [← head?_drop, ← hrest]
    rfl
  obtain ⟨l, keptLeft⟩ := left
  obtain ⟨r, keptRight⟩ := right
  match keptLeft, keptRight with
  | true, true => rfl
  | false, false => rfl
  | true, false => simp [join, keep, missingAt, hhead r h]
  | false, true => simp [join, keep, missingAt, hhead l h]

/-- **What was disclosed rebuilds the root.** The new missing hashes are asked for one after the
other, wherever they stand in the whole list. -/
theorem rebuild_of_disclose (l : List (H × Bool)) {missing missing' : List H} {top : H × Bool}
    (h : disclose op l missing = some (top, missing')) :
    ∃ new, missing' = missing ++ new ∧ ∀ all next, new <+: List.drop next all →
      rebuild op all (l.map keep) next = some (keep top, next + new.length) := by
  induction l using tree_induction generalizing missing missing' top with
  | nil => simp [disclose] at h
  | singleton a =>
    rw [disclose] at h
    cases h
    refine ⟨[], (append_nil _).symm, fun all next _ => ?_⟩
    rw [map_singleton, rebuild]
    rfl
  | split l htwo ihl ihr =>
    obtain ⟨left, missing₁, right, missing₂, hleft, hright, hresult⟩ := (disclose_split htwo).mp h
    cases hresult
    obtain ⟨new₁, rfl, hrebuild₁⟩ := ihl hleft
    obtain ⟨new₂, rfl, hrebuild₂⟩ := ihr hright
    refine ⟨new₁ ++ (new₂ ++ missingAt left right), by simp, fun all next hnew => ?_⟩
    obtain ⟨rest, hrest⟩ := hnew
    have hdrop₁ : all.drop (next + new₁.length) = new₂ ++ missingAt left right ++ rest := by
      rw [← drop_drop, ← hrest, append_assoc, drop_left]
    have hdrop₂ : all.drop (next + new₁.length + new₂.length) = missingAt left right ++ rest := by
      rw [← drop_drop, hdrop₁, append_assoc, drop_left]
    rw [rebuild_split (by rwa [length_map])]
    rw [length_map, ← map_take, ← map_drop]
    refine ⟨_, _, _, _, hrebuild₁ all next ⟨new₂ ++ missingAt left right ++ rest, ?_⟩,
      hrebuild₂ all _ ⟨missingAt left right ++ rest, ?_⟩, ?_⟩
    · rw [← hrest]
      simp
    · rw [hdrop₁, append_assoc]
    · rw [join_keep left right ⟨rest, hdrop₂.symm⟩]
      simp [Nat.add_assoc]

variable (op) in
/-- The disclosed root is the root, and it is marked if one of the leaves is kept. -/
theorem disclose_eq (l : List (H × Bool)) (hne : l ≠ []) (missing : List H) :
    ∃ a missing', disclose op l missing = some ((a, l.any Prod.snd), missing') ∧
      root op (l.map Prod.fst) = some a := by
  induction l using tree_induction generalizing missing with
  | nil => exact absurd rfl hne
  | singleton a =>
    refine ⟨a.1, missing, ?_, ?_⟩
    · rw [disclose, any_cons, any_nil, Bool.or_false]
    · rw [map_singleton, root]
  | split l htwo ihl ihr =>
    have hpos := mid_pos htwo
    have hlt := mid_lt htwo
    obtain ⟨left, missing₁, hleft, hrootl⟩ := ihl
      (ne_nil_of_length_pos (by rw [length_take]; omega)) missing
    obtain ⟨right, missing₂, hright, hrootr⟩ := ihr
      (ne_nil_of_length_pos (by rw [length_drop]; omega)) missing₁
    have hsome := (disclose_split htwo).mpr ⟨_, _, _, _, hleft, hright, rfl⟩
    rw [← any_append, take_append_drop] at hsome
    refine ⟨op left right, _, hsome, ?_⟩
    rw [root_split op (by rwa [length_map]), length_map, ← map_take, ← map_drop, hrootl, hrootr]
    rfl

/-- **From a rebuilt root to the kept leaves.** Nothing is known of the missing hashes. -/
theorem of_rebuild {P : H → Prop} (hparts : ∀ a b, P (op a b) → P a ∧ P b)
    (l : List (Option H)) {next next' : ℕ} {top : Option H}
    (h : rebuild op missing l next = some (top, next')) (htop : ∀ a ∈ top, P a) :
    ∀ leaf ∈ l, ∀ a ∈ leaf, P a := by
  induction l using tree_induction generalizing next next' top with
  | nil => simp
  | singleton leaf =>
    rw [rebuild] at h
    obtain ⟨rfl, -⟩ := Prod.mk.inj (Option.some.inj h)
    intro leaf' hleaf'
    rwa [mem_singleton.mp hleaf']
  | split l htwo ihl ihr =>
    obtain ⟨left, next₁, right, next₂, hleft, hright, hjoin⟩ := (rebuild_split htwo).mp h
    -- a side without a root has no kept leaf, so nothing has to be shown of it
    have hsides : (∀ a ∈ left, P a) ∧ ∀ a ∈ right, P a := by
      match left, right with
      | none, none => simp
      | some l, none =>
        obtain ⟨r, -, heq⟩ := Option.map_eq_some_iff.mp hjoin
        obtain ⟨rfl, -⟩ := Prod.mk.inj heq
        simpa using (hparts l r (htop _ rfl)).1
      | none, some r =>
        obtain ⟨l, -, heq⟩ := Option.map_eq_some_iff.mp hjoin
        obtain ⟨rfl, -⟩ := Prod.mk.inj heq
        simpa using (hparts l r (htop _ rfl)).2
      | some l, some r =>
        obtain ⟨rfl, -⟩ := Prod.mk.inj (Option.some.inj hjoin)
        simpa using hparts l r (htop _ rfl)
    intro leaf hmem
    rw [← take_append_drop (mid l.length) l, mem_append] at hmem
    rcases hmem with hmem | hmem
    · exact ihl hleft hsides.1 leaf hmem
    · exact ihr hright hsides.2 leaf hmem

end Merkle
