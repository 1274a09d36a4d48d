import Mathlib.Data.List.Basic

/-!
# Readers that consume a prefix

A reader takes a value off the front of a list and returns what is left. Most readers are honest:
they consume a prefix and what follows it does not matter to them. The prefix is then an encoding of
the value (`Reads`), and any number of encodings can be read back one after the other.

## Main results

* `Reads.andThen`, `Honest.andThen` — two readers in sequence
* `Inverts.andThen`, `Inverts.times`, `flatMap_of_untilEnd` — what was read is
  what would be written
* `Reads.times`, `untilEnd_flatMap`, `many_flatMap` — encodings one after the
  other are read back
-/

namespace Reader

open List

variable {β α α' : Type}

/-- A reader of values of `α` from lists of `β`. -/
abbrev Read (β α : Type) : Type := List β → Option (α × List β)

variable (read : Read β α)

/-- `front` is an encoding of `a`: the reader returns `a` and what follows `front`. -/
def Reads (front : List β) (a : α) : Prop := ∀ tail, read (front ++ tail) = some (a, tail)

/-- The reader takes an encoding off the front of the list. -/
def Honest : Prop :=
  ∀ l a rest, read l = some (a, rest) → ∃ front, l = front ++ rest ∧ Reads read front a

/-- What the reader takes off the front of the list is what is written for the value. -/
def Inverts (write : α → List β) : Prop := ∀ l a rest, read l = some (a, rest) → l = write a ++ rest

def andThen (read' : Read β α') : Read β (α × α') := fun l =>
  match read l with
  | none => none
  | some (a, rest) =>
    match read' rest with
    | none => none
    | some (a', rest') => some ((a, a'), rest')

variable {read : Read β α} {read' : Read β α'}

theorem andThen_eq_some_iff {l rest' : List β} {a : α} {a' : α'} :
    andThen read read' l = some ((a, a'), rest') ↔
      ∃ rest, read l = some (a, rest) ∧ read' rest = some (a', rest') := by
  rw [andThen]
  constructor
  · intro h
    split at h
    · cases h
    next b rest hread =>
      split at h
      · cases h
      next b' rest'' hread' =>
        obtain ⟨⟨rfl, rfl⟩, rfl⟩ : (b = a ∧ b' = a') ∧ rest'' = rest' := by
          simpa only [Option.some.injEq, Prod.mk.injEq] using h
        exact ⟨rest, hread, hread'⟩
  · rintro ⟨rest, hread, hread'⟩
    simp only [hread, hread']

theorem Reads.andThen {front front' : List β} {a : α} {a' : α'} (h : Reads read front a)
    (h' : Reads read' front' a') : Reads (andThen read read') (front ++ front') (a, a') := by
  intro tail
  rw [andThen_eq_some_iff, append_assoc]
  exact ⟨front' ++ tail, h _, h' tail⟩

theorem Honest.andThen (h : Honest read) (h' : Honest read') : Honest (andThen read read') := by
  rintro l ⟨a, a'⟩ rest' hread
  obtain ⟨rest, hread, hread'⟩ := andThen_eq_some_iff.mp hread
  obtain ⟨front, rfl, hfront⟩ := h l a rest hread
  obtain ⟨front', rfl, hfront'⟩ := h' rest a' rest' hread'
  exact ⟨front ++ front', (append_assoc _ _ _).symm, hfront.andThen hfront'⟩

variable {write : α → List β}

theorem Inverts.andThen {write' : α' → List β} (h : Inverts read write)
    (h' : Inverts read' write') :
    Inverts (andThen read read') fun (a, a') => write a ++ write' a' := by
  rintro l ⟨a, a'⟩ rest' hread
  obtain ⟨rest, hread, hread'⟩ := andThen_eq_some_iff.mp hread
  rw [h l a rest hread, h' rest a' rest' hread', append_assoc]

def times (read : Read β α) : ℕ → Read β (List α)
  | 0, l => some ([], l)
  | n + 1, l =>
    match read l with
    | none => none
    | some (a, rest) => (times read n rest).map fun (as, rest) => (a :: as, rest)

variable {encode : α → List β} {as : List α}

theorem Reads.times (h : ∀ a ∈ as, Reads read (encode a) a) :
    Reads (Reader.times read as.length) (as.flatMap encode) as := by
  intro tail
  induction as with
  | nil => rfl
  | cons a as ih =>
    rw [length_cons, Reader.times, flatMap_cons, append_assoc, h a mem_cons_self _]
    simp [ih fun a ha => h a (mem_cons_of_mem _ ha)]

theorem Inverts.times (h : Inverts read write) (n : ℕ) :
    Inverts (Reader.times read n) fun as => as.flatMap write := by
  induction n with
  | zero =>
    intro l as rest hread
    cases hread
    rfl
  | succ n ih =>
    intro l as rest hread
    rw [Reader.times] at hread
    split at hread
    · cases hread
    next a rest' ha =>
      obtain ⟨⟨as', rest''⟩, has, heq⟩ := Option.map_eq_some_iff.mp hread
      cases heq
      rw [h l a rest' ha, ih rest' as' rest has]
      simp

theorem length_of_times {n : ℕ} {l rest : List β}
    (h : Reader.times read n l = some (as, rest)) : as.length = n := by
  induction n generalizing l as with
  | zero =>
    cases h
    rfl
  | succ n ih =>
    rw [Reader.times] at h
    split at h
    · cases h
    · obtain ⟨⟨as', rest''⟩, has, heq⟩ := Option.map_eq_some_iff.mp h
      cases heq
      rw [length_cons, ih has]

/-- Values up to the end of the list; each takes something off it. -/
def untilEnd (read : Read β α) : ℕ → List β → Option (List α)
  | _, [] => some []
  | 0, _ :: _ => none
  | fuel + 1, b :: l =>
    match read (b :: l) with
    | none => none
    | some (a, rest) => (untilEnd read fuel rest).map (a :: ·)

theorem untilEnd_flatMap
    (h : ∀ a ∈ as, Reads read (encode a) a ∧ encode a ≠ []) {fuel : ℕ} (hfuel : as.length ≤ fuel) :
    untilEnd read fuel (as.flatMap encode) = some as := by
  induction as generalizing fuel with
  | nil => rw [flatMap_nil, untilEnd]
  | cons a as ih =>
    match fuel, hfuel with
    | fuel + 1, hfuel =>
      obtain ⟨hreads, hne⟩ := h a mem_cons_self
      obtain ⟨b, l, hcons⟩ := exists_cons_of_ne_nil hne
      have hread := hreads (as.flatMap encode)
      rw [flatMap_cons]
      rw [hcons] at hread ⊢
      rw [cons_append] at hread ⊢
      rw [untilEnd]
      simp only [hread, Option.map_eq_some_iff]
      exact ⟨as, ih (fun a ha => h a (mem_cons_of_mem _ ha)) (Nat.le_of_succ_le_succ hfuel), rfl⟩

theorem flatMap_of_untilEnd (h : Inverts read write) {fuel : ℕ} {l : List β}
    (hread : untilEnd read fuel l = some as) : as.flatMap write = l := by
  induction fuel generalizing l as with
  | zero =>
    match l, hread with
    | [], hread =>
      cases hread
      rfl
  | succ fuel ih =>
    match l, hread with
    | [], hread =>
      cases hread
      rfl
    | b :: l, hread =>
      rw [untilEnd] at hread
      split at hread
      · cases hread
      next a rest ha =>
        obtain ⟨as', has, rfl⟩ := Option.map_eq_some_iff.mp hread
        rw [flatMap_cons, ih has, h _ a rest ha]

/-- Values as long as one can be read. -/
def many (read : Read β α) : ℕ → List β → List α
  | 0, _ => []
  | fuel + 1, l =>
    match read l with
    | none => []
    | some (a, rest) => a :: many read fuel rest

theorem many_flatMap (h : ∀ a ∈ as, Reads read (encode a) a)
    (hnil : read [] = none) {fuel : ℕ} (hfuel : as.length ≤ fuel) :
    many read fuel (as.flatMap encode) = as := by
  induction as generalizing fuel with
  | nil =>
    match fuel with
    | 0 => rfl
    | fuel + 1 => rw [flatMap_nil, many, hnil]
  | cons a as ih =>
    match fuel, hfuel with
    | fuel + 1, hfuel =>
      rw [flatMap_cons, many, h a mem_cons_self]
      simp only [ih (fun a ha => h a (mem_cons_of_mem _ ha)) (Nat.le_of_succ_le_succ hfuel)]

/-- A list that encodings make up is at least as long as there are encodings. -/
theorem length_le_length_flatMap (h : ∀ a ∈ as, encode a ≠ []) :
    as.length ≤ (as.flatMap encode).length := by
  induction as with
  | nil => exact Nat.le_refl 0
  | cons a as ih =>
    have hpos := length_pos_of_ne_nil (h a mem_cons_self)
    have ih := ih fun a ha => h a (mem_cons_of_mem _ ha)
    rw [flatMap_cons, length_append, length_cons]
    omega

end Reader
