import Mathlib.Data.Set.Insert
import Mathlib.Order.Defs.LinearOrder

/-!
# Registers that keep the latest write

A register holds a value that carries a time, or nothing. A write counts only if it is newer than
what the register holds. Which value is held in the end depends on the writes that were made and not
on the order in which they came, as long as no two of them have the same time.

## Main results

* `Latest.write` — one more write
* `Latest.unique` — the writes determine what is held
-/

namespace LastWrite

variable {α T : Type} [LinearOrder T] (time : α → T)

/-- What the register holds is older than `new`, if it holds anything. -/
def Newer (new : α) (held : Option α) : Prop := ∀ old ∈ held, time old < time new

/-- The register held `first`, and holds `held` after `writes`: the latest of them if it is newer
than `first`, and `first` otherwise. -/
structure Latest (first : Option α) (writes : Set α) (held : Option α) : Prop where
  source : held = first ∨ ∃ new ∈ writes, held = some new ∧ Newer time new first
  bound : ∀ a ∈ writes, ∃ b ∈ held, time a ≤ time b

variable {time} {first held held' : Option α} {writes : Set α} {new : α}

theorem Latest.refl (first : Option α) : Latest time first ∅ first :=
  ⟨.inl rfl, fun _ h => h.elim⟩

/-- The register never goes back in time. -/
theorem Latest.newer_first (h : Latest time first writes held) (hnew : Newer time new held) :
    Newer time new first := by
  rcases h.source with rfl | ⟨a, -, rfl, ha⟩
  · exact hnew
  · exact fun old hold => lt_trans (ha old hold) (hnew a rfl)

/-- A write that is newer. -/
theorem Latest.write (h : Latest time first writes held) (hnew : Newer time new held) :
    Latest time first (insert new writes) (some new) := by
  refine ⟨.inr ⟨new, Set.mem_insert _ _, rfl, h.newer_first hnew⟩, fun a ha => ⟨new, rfl, ?_⟩⟩
  rcases ha with rfl | ha
  · exact le_rfl
  · obtain ⟨b, hb, hle⟩ := h.bound a ha
    exact le_trans hle (hnew b hb).le

/-- A write that is not. -/
theorem Latest.ignore (h : Latest time first writes held) (hnew : ¬ Newer time new held) :
    Latest time first (insert new writes) held := by
  refine ⟨h.source.imp_right fun ⟨a, ha, hrest⟩ => ⟨a, Set.mem_insert_of_mem _ ha, hrest⟩, ?_⟩
  rintro a (rfl | ha)
  · simpa [Newer] using hnew
  · exact h.bound a ha

/-- **The order of the writes does not matter.** -/
theorem Latest.unique (hinj : Set.InjOn time writes) (h : Latest time first writes held)
    (h' : Latest time first writes held') : held = held' := by
  -- a value that is newer than `first` is not outlived by it
  have hnot : ∀ {a}, a ∈ writes → Newer time a first → Latest time first writes first → False := by
    intro a ha hnewer hfirst
    obtain ⟨b, hb, hle⟩ := hfirst.bound a ha
    exact absurd (hnewer b hb) (not_lt.mpr hle)
  rcases h.source with rfl | ⟨a, ha, rfl, hnewer⟩ <;>
    rcases h'.source with rfl | ⟨a', ha', rfl, hnewer'⟩
  · rfl
  · exact (hnot ha' hnewer' h).elim
  · exact (hnot ha hnewer h').elim
  · obtain ⟨_, hb, hle⟩ := h.bound a' ha'
    obtain ⟨_, hb', hle'⟩ := h'.bound a ha
    cases hb
    cases hb'
    rw [hinj ha ha' (le_antisymm hle' hle)]

end LastWrite
