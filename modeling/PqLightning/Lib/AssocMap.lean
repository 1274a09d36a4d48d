import Mathlib.Algebra.Order.Ring.Nat
import Mathlib.Data.List.AList
import Mathlib.Data.Multiset.Basic

/-!
# Finite maps kept as association lists

Two operations on `AList` that a program's map type has and Mathlib's does not: keeping the entries
that satisfy a condition, and rewriting every value in place. Both are described by what a lookup
finds afterwards.

## Main results

* `lookup_retain` — a lookup after `retain`
* `lookup_mapValues` — a lookup after `mapValues`
* `lookup_foldl_erase`, `lookup_foldl_insert` — a lookup after many changes
* `tally_congr`, `tally_eq_cons` — what the values are, each as often as it occurs
* `sumValues_insert`, `sumValues_erase` — a sum over the values after a change
-/

namespace AssocMap

open List AList

variable {K V : Type} [DecidableEq K]

/-- A map from `K` to `V` as the list of its entries, no key occurring twice. -/
abbrev Map (K V : Type) : Type := AList fun _ : K => V

def retain (p : K → V → Bool) (m : Map K V) : Map K V where
  entries := m.entries.filter fun e => p e.1 e.2
  nodupKeys := m.nodupKeys.sublist filter_sublist

/-- The map with every value rewritten, the keys staying as they are. -/
def mapValues (f : K → V → V) (m : Map K V) : Map K V where
  entries := m.entries.map fun e => ⟨e.1, f e.1 e.2⟩
  nodupKeys := by
    have hkeys : (m.entries.map fun e => (⟨e.1, f e.1 e.2⟩ : (_ : K) × V)).keys =
        m.entries.keys := by
      simp [List.keys, Function.comp_def]
    rw [List.NodupKeys, hkeys]
    exact m.nodupKeys

variable {k : K}

theorem lookup_eq_some_iff {m : Map K V} {v : V} :
    m.lookup k = some v ↔ ⟨k, v⟩ ∈ m.entries := mem_lookup_iff

@[simp] theorem lookup_retain (p : K → V → Bool) (m : Map K V) (k : K) :
    (retain p m).lookup k = (m.lookup k).filter (p k) := by
  refine Option.ext fun v => ?_
  rw [lookup_eq_some_iff, Option.filter_eq_some_iff, lookup_eq_some_iff]
  exact mem_filter

@[simp] theorem lookup_mapValues (f : K → V → V) (m : Map K V) (k : K) :
    (mapValues f m).lookup k = (m.lookup k).map (f k) := by
  refine Option.ext fun v => ?_
  rw [lookup_eq_some_iff, Option.map_eq_some_iff]
  constructor
  · intro h
    obtain ⟨⟨k', w⟩, hmem, heq⟩ := mem_map.mp h
    obtain ⟨rfl, hw⟩ := Sigma.mk.inj heq
    exact ⟨w, lookup_eq_some_iff.mpr hmem, eq_of_heq hw⟩
  · rintro ⟨w, hw, rfl⟩
    exact mem_map.mpr ⟨⟨k, w⟩, lookup_eq_some_iff.mp hw, rfl⟩

/-- A lookup after `insert` finds the new entry or one that was there. -/
theorem lookup_insert_eq_some {m : Map K V} {k' : K} {v v' : V}
    (h : (m.insert k v).lookup k' = some v') :
    k' = k ∧ v' = v ∨ k' ≠ k ∧ m.lookup k' = some v' := by
  by_cases hk : k' = k
  · rw [hk, lookup_insert] at h
    exact .inl ⟨hk, (Option.some.inj h).symm⟩
  · rw [lookup_insert_ne hk] at h
    exact .inr ⟨hk, h⟩

theorem lookup_foldl_erase {α : Type} {key : α → K} {l : List α}
    (h : ∀ a ∈ l, key a ≠ k) (m : Map K V) :
    (l.foldl (fun m a => m.erase (key a)) m).lookup k = m.lookup k := by
  induction l generalizing m with
  | nil => rfl
  | cons a l ih =>
    rw [foldl_cons, ih fun b hb => h b (mem_cons_of_mem _ hb)]
    exact lookup_erase_ne (h a mem_cons_self).symm

theorem lookup_foldl_insert_of_ne {l : List (K × V)} (h : ∀ e ∈ l, e.1 ≠ k) (m : Map K V) :
    (l.foldl (fun m e => m.insert e.1 e.2) m).lookup k = m.lookup k := by
  induction l generalizing m with
  | nil => rfl
  | cons e l ih =>
    rw [foldl_cons, ih fun b hb => h b (mem_cons_of_mem _ hb)]
    exact lookup_insert_ne (h e mem_cons_self).symm

theorem lookup_foldl_insert_congr {m m' : Map K V} (h : m.lookup k = m'.lookup k)
    (l : List (K × V)) : (l.foldl (fun m e => m.insert e.1 e.2) m).lookup k =
      (l.foldl (fun m e => m.insert e.1 e.2) m').lookup k := by
  induction l generalizing m m' with
  | nil => exact h
  | cons e l ih =>
    refine ih ?_
    by_cases he : k = e.1
    · rw [he, lookup_insert, lookup_insert]
    · rw [lookup_insert_ne he, lookup_insert_ne he, h]

/-! ### The values of a map -/

variable {W : Type}

/-- What `f` makes of the values, each as often as it occurs. -/
def tally (f : V → W) (m : Map K V) : Multiset W := (m.entries.map fun e => f e.2 : List W)

/-- Only lookups matter. -/
theorem tally_congr {f : V → W} {m m' : Map K V}
    (h : ∀ k, (m.lookup k).map f = (m'.lookup k).map f) : tally f m = tally f m' := by
  let image (m : Map K V) : List ((_ : K) × W) := m.entries.map (Sigma.map id fun _ => f)
  have hkeys : ∀ m, (image m).NodupKeys := by
    intro m
    have heq : (image m).keys = m.entries.keys := by
      rw [List.keys, map_map]
      rfl
    rw [List.NodupKeys, heq]
    exact m.nodupKeys
  have hperm : (image m).Perm (image m') := by
    refine lookup_ext (hkeys m) (hkeys m') fun k w => ?_
    rw [dlookup_map₂, dlookup_map₂]
    exact iff_of_eq (congrArg (w ∈ ·) (h k))
  have hvalues : ∀ m, tally f m = ((image m).map Sigma.snd : List W) := by
    intro m
    rw [map_map]
    rfl
  rw [hvalues, hvalues]
  exact Multiset.coe_eq_coe.mpr (hperm.map Sigma.snd)

theorem tally_insert {f : V → W} {m : Map K V} (h : m.lookup k = none) (v : V) :
    tally f (m.insert k v) = f v ::ₘ tally f m := by
  rw [tally, entries_insert_of_notMem (lookup_eq_none.mp h)]
  rfl

theorem tally_eq_cons {f : V → W} {m m' : Map K V} {v : V} (hk : m.lookup k = some v)
    (hk' : m'.lookup k = none) (h : ∀ k', k' ≠ k → (m.lookup k').map f = (m'.lookup k').map f) :
    tally f m = f v ::ₘ tally f m' := by
  rw [← tally_insert hk']
  refine tally_congr fun k' => ?_
  by_cases hkk : k' = k
  · rw [hkk, hk, lookup_insert]
  · rw [lookup_insert_ne hkk, h k' hkk]

/-! ### Sums over a map -/

def sumValues (f : V → ℕ) (m : Map K V) : ℕ := (m.entries.map fun e => f e.2).sum

omit [DecidableEq K] in
theorem sumValues_one (m : Map K V) : sumValues (fun _ => 1) m = m.entries.length := by
  simp [sumValues]

theorem sumValues_erase (f : V → ℕ) (m : Map K V) (k : K) :
    sumValues f (m.erase k) + (m.lookup k).elim 0 f = sumValues f m := by
  have hentries : (m.erase k).entries = kerase k m.entries := rfl
  rw [sumValues, sumValues, hentries, AList.lookup]
  induction m.entries with
  | nil => rfl
  | cons entry entries ih =>
    by_cases hk : k = entry.1
    · subst hk
      rw [kerase_cons_eq rfl, dlookup_cons_eq]
      simp [Nat.add_comm]
    · rw [kerase_cons_ne hk, dlookup_cons_ne _ _ hk, map_cons, sum_cons, map_cons, sum_cons, ← ih]
      omega

theorem sumValues_insert (f : V → ℕ) (m : Map K V) (k : K) (v : V) :
    sumValues f (m.insert k v) + (m.lookup k).elim 0 f = sumValues f m + f v := by
  have herase := sumValues_erase f m k
  have hinsert : sumValues f (m.insert k v) = f v + sumValues f (m.erase k) := rfl
  omega

theorem length_insert (m : Map K V) (k : K) (v : V) :
    (m.insert k v).entries.length + (if k ∈ m then 1 else 0) = m.entries.length + 1 := by
  have hsum := sumValues_insert (fun _ => 1) m k v
  rw [sumValues_one, sumValues_one] at hsum
  cases hk : m.lookup k with
  | none => simpa [hk, lookup_eq_none.mp hk] using hsum
  | some w => simpa [hk, lookup_isSome.mp (hk ▸ rfl : (m.lookup k).isSome)] using hsum

theorem length_erase {m : Map K V} {v : V} (h : m.lookup k = some v) :
    (m.erase k).entries.length + 1 = m.entries.length := by
  have hsum := sumValues_erase (fun _ => 1) m k
  rw [sumValues_one, sumValues_one, h] at hsum
  exact hsum

omit [DecidableEq K] in
theorem sumValues_retain {f : V → ℕ} {p : K → V → Bool} (m : Map K V)
    (h : ∀ k v, p k v = false → f v = 0) : sumValues f (retain p m) = sumValues f m := by
  rw [sumValues, sumValues, retain]
  dsimp only
  induction m.entries with
  | nil => rfl
  | cons entry entries ih =>
    cases hp : p entry.1 entry.2 with
    | true => simp [hp, ih]
    | false => simp [hp, ih, h _ _ hp]

omit [DecidableEq K] in
theorem sumValues_mapValues {f : V → ℕ} {g : K → V → V} (m : Map K V)
    (h : ∀ k v, f (g k v) = f v) : sumValues f (mapValues g m) = sumValues f m := by
  simp [sumValues, mapValues, Function.comp_def, h]

end AssocMap
