import Mathlib.Data.List.Nodup

/-!
# Vertices that list their edges

A graph is kept in two tables: one of edges, with the two ends of each, and one of vertices, with a
list of the edges at each. Every vertex also has a number, which its edges repeat. The two tables
say the same thing if they are `Balanced`, and stay so when an edge is taken off the lists, when a
vertex without edges is dropped, and when an edge is entered at its two ends.

Both tables are functions, so that a table in the middle of a change can be described without being
built.

## Main results

* `Balanced.leave`, `Balanced.prune`, `Balanced.attach` — the three
  changes
-/

namespace Incidence

open Option Function

variable {E N : Type}

@[ext] structure Edge (N : Type) where
  one : N
  two : N
  oneCounter : ℕ
  twoCounter : ℕ

def Edge.Touches (e : Edge N) (n : N) : Prop := e.one = n ∨ e.two = n

@[ext] structure Vertex (E : Type) where
  edges : List E
  counter : ℕ

def Vertex.without [DecidableEq E] (e : E) (v : Vertex E) : Vertex E :=
  { v with edges := v.edges.filter (· ≠ e) }

theorem Vertex.without_of_notMem [DecidableEq E] {v : Vertex E} {e : E} (h : e ∉ v.edges) :
    v.without e = v := by
  rw [Vertex.without, List.filter_eq_self.mpr]
  intro a ha
  exact decide_eq_true fun heq => h (heq ▸ ha)

def Vertex.leave [DecidableEq E] (e : E) (v : Vertex E) : Option (Vertex E) :=
  if (v.without e).edges = [] then none else some (v.without e)

theorem Vertex.edges_ne_nil_of_leave [DecidableEq E] {e : E} {v w : Vertex E}
    (h : v.leave e = some w) : w.edges ≠ [] := by
  rw [Vertex.leave] at h
  split at h
  · cases h
  next hne =>
    exact Option.some.inj h ▸ hne

/-- The table of edges and the table of vertices agree. -/
structure Balanced (edge : E → Option (Edge N)) (vertex : N → Option (Vertex E)) : Prop where
  apart : ∀ e k, edge e = some k → k.one ≠ k.two
  one : ∀ e k, edge e = some k → (vertex k.one).map Vertex.counter = some k.oneCounter
  two : ∀ e k, edge e = some k → (vertex k.two).map Vertex.counter = some k.twoCounter
  nodup : ∀ n v, vertex n = some v → v.edges.Nodup
  listed : ∀ n v, vertex n = some v → ∀ e, e ∈ v.edges ↔ ∃ k, edge e = some k ∧ k.Touches n

variable {edge : E → Option (Edge N)} {vertex vertex' : N → Option (Vertex E)} {e : E} {n : N}

namespace Balanced

theorem empty : Balanced (fun _ : E => none) (fun _ : N => none) where
  apart _ _ h := nomatch h
  one _ _ h := nomatch h
  two _ _ h := nomatch h
  nodup _ _ h := nomatch h
  listed _ _ h := nomatch h

/-- Each end of an edge is in the table and lists the edge. -/
theorem exists_vertex (h : Balanced edge vertex) {k : Edge N} (hk : edge e = some k)
    (hn : k.Touches n) : ∃ v, vertex n = some v ∧ e ∈ v.edges := by
  have hsome : ∃ v, vertex n = some v := by
    rcases hn with rfl | rfl
    · obtain ⟨v, hv, -⟩ := map_eq_some_iff.mp (h.one e k hk)
      exact ⟨v, hv⟩
    · obtain ⟨v, hv, -⟩ := map_eq_some_iff.mp (h.two e k hk)
      exact ⟨v, hv⟩
  obtain ⟨v, hv⟩ := hsome
  exact ⟨v, hv, (h.listed n v hv e).mpr ⟨k, hk, hn⟩⟩

/-- **An edge is taken off the lists.** -/
theorem detach [DecidableEq E] (h : Balanced edge vertex) (e : E) :
    Balanced (Function.update edge e none) (fun n => (vertex n).map (Vertex.without e)) := by
  have hne : ∀ {e' k}, Function.update edge e none e' = some k → e' ≠ e ∧ edge e' = some k := by
    intro e' k hk
    by_cases he : e' = e
    · rw [he, update_self] at hk
      cases hk
    · rw [update_of_ne he] at hk
      exact ⟨he, hk⟩
  refine ⟨fun e' k hk => h.apart e' k (hne hk).2, fun e' k hk => ?_, fun e' k hk => ?_,
    fun n v hv => ?_, fun n v hv e' => ?_⟩
  · rw [← h.one e' k (hne hk).2, Option.map_map]
    rfl
  · rw [← h.two e' k (hne hk).2, Option.map_map]
    rfl
  · obtain ⟨w, hw, rfl⟩ := map_eq_some_iff.mp hv
    exact (h.nodup n w hw).filter _
  · obtain ⟨w, hw, rfl⟩ := map_eq_some_iff.mp hv
    rw [Vertex.without, List.mem_filter, h.listed n w hw, decide_eq_true_iff]
    constructor
    · rintro ⟨⟨k, hk, hn⟩, he⟩
      exact ⟨k, by rw [update_of_ne he, hk], hn⟩
    · rintro ⟨k, hk, hn⟩
      exact ⟨⟨k, (hne hk).2, hn⟩, (hne hk).1⟩

/-- **Vertices without edges are dropped.** -/
theorem prune (h : Balanced edge vertex)
    (hv : ∀ n, vertex' n = vertex n ∨ vertex' n = none ∧ ∀ v, vertex n = some v → v.edges = []) :
    Balanced edge vertex' := by
  have hkept : ∀ {e k n}, edge e = some k → k.Touches n → vertex' n = vertex n := by
    intro e k n hk hn
    rcases hv n with heq | ⟨-, hempty⟩
    · exact heq
    · obtain ⟨v, hsome, hmem⟩ := h.exists_vertex hk hn
      rw [hempty v hsome] at hmem
      cases hmem
  have hsub : ∀ {n v}, vertex' n = some v → vertex n = some v := by
    intro n v hsome
    rcases hv n with heq | ⟨hnone, -⟩
    · exact heq ▸ hsome
    · cases hnone.symm.trans hsome
  refine ⟨h.apart, fun e k hk => ?_, fun e k hk => ?_, fun n v hn => h.nodup n v (hsub hn),
    fun n v hn => h.listed n v (hsub hn)⟩
  · rw [hkept hk (.inl rfl)]
    exact h.one e k hk
  · rw [hkept hk (.inr rfl)]
    exact h.two e k hk

/-- **An edge leaves.** At each of its ends the vertex loses the edge, and may be dropped if that
was its last. -/
theorem leave [DecidableEq E] (h : Balanced edge vertex) {k : Edge N} (hk : edge e = some k)
    (hends : ∀ n, k.Touches n → vertex' n = (vertex n).map (Vertex.without e) ∨
      vertex' n = (vertex n).bind (Vertex.leave e))
    (hrest : ∀ n, ¬ k.Touches n → vertex' n = vertex n) :
    Balanced (Function.update edge e none) vertex' := by
  refine (h.detach e).prune fun n => ?_
  by_cases hn : k.Touches n
  · rcases hends n hn with hmap | hbind
    · exact .inl hmap
    · obtain ⟨v, hv, -⟩ := h.exists_vertex hk hn
      rw [hbind, hv, bind_some, map_some, Vertex.leave]
      split
      next hempty =>
        exact .inr ⟨rfl, fun w hw => Option.some.inj hw ▸ hempty⟩
      · exact .inl rfl
  · refine .inl ((hrest n hn).trans ?_)
    cases hv : vertex n with
    | none => rfl
    | some v =>
      rw [map_some, Vertex.without_of_notMem]
      intro hmem
      obtain ⟨k', hk', hn'⟩ := (h.listed n v hv e).mp hmem
      obtain rfl := Option.some.inj (hk.symm.trans hk')
      exact hn hn'

end Balanced

/-! ### An edge is entered -/

/-- What a vertex becomes when the edge joins it; `counter` is its number if it is new. -/
def joined (e : E) (counter : ℕ) : Option (Vertex E) → Vertex E
  | none => ⟨[e], counter⟩
  | some v => { v with edges := v.edges ++ [e] }

theorem mem_edges_joined {counter : ℕ} {v : Option (Vertex E)} {e e' : E} :
    e' ∈ (joined e counter v).edges ↔ (∃ w, v = some w ∧ e' ∈ w.edges) ∨ e' = e := by
  cases v <;> simp [joined]

/-- **An edge is entered at its two ends.** -/
theorem Balanced.attach [DecidableEq E] (h : Balanced edge vertex) (he : edge e = none) {k : Edge N}
    (hk : k.one ≠ k.two) (hends : ∀ n, k.Touches n → ∃ c, vertex' n = some (joined e c (vertex n)))
    (hrest : ∀ n, ¬ k.Touches n → vertex' n = vertex n)
    (hone : (vertex' k.one).map Vertex.counter = some k.oneCounter)
    (htwo : (vertex' k.two).map Vertex.counter = some k.twoCounter) :
    Balanced (Function.update edge e (some k)) vertex' := by
  have hcounter : ∀ n c, (vertex n).map Vertex.counter = some c →
      (vertex' n).map Vertex.counter = some c := by
    intro n c hc
    by_cases hn : k.Touches n
    · obtain ⟨v, hv, rfl⟩ := map_eq_some_iff.mp hc
      obtain ⟨c', hjoin⟩ := hends n hn
      rw [hjoin, hv]
      rfl
    · rw [hrest n hn, hc]
  have hupdate : ∀ e' k', Function.update edge e (some k) e' = some k' ↔
      e' = e ∧ k' = k ∨ e' ≠ e ∧ edge e' = some k' := by
    intro e' k'
    by_cases hee : e' = e
    · rw [hee, update_self]
      simp [eq_comm]
    · rw [update_of_ne hee]
      simp [hee]
  refine ⟨fun e' k' hk' => ?_, fun e' k' hk' => ?_, fun e' k' hk' => ?_, fun n v hv => ?_,
    fun n v hv e' => ?_⟩
  · rcases (hupdate e' k').mp hk' with ⟨-, rfl⟩ | ⟨-, hold⟩
    · exact hk
    · exact h.apart e' k' hold
  · rcases (hupdate e' k').mp hk' with ⟨-, rfl⟩ | ⟨-, hold⟩
    · exact hone
    · exact hcounter _ _ (h.one e' k' hold)
  · rcases (hupdate e' k').mp hk' with ⟨-, rfl⟩ | ⟨-, hold⟩
    · exact htwo
    · exact hcounter _ _ (h.two e' k' hold)
  · by_cases hn : k.Touches n
    · obtain ⟨c, hjoin⟩ := hends n hn
      obtain rfl := Option.some.inj (hjoin.symm.trans hv)
      cases hold : vertex n with
      | none => exact List.nodup_singleton e
      | some w =>
        refine (h.nodup n w hold).append (List.nodup_singleton e) ?_
        -- the edge was in neither table, so the list does not have it yet
        intro e' hmem hmem'
        obtain ⟨k', hk', -⟩ := (h.listed n w hold e').mp hmem
        rw [List.mem_singleton.mp hmem', he] at hk'
        cases hk'
    · rw [hrest n hn] at hv
      exact h.nodup n v hv
  · have hold : (∃ w, vertex n = some w ∧ e' ∈ w.edges) ↔
        ∃ k', edge e' = some k' ∧ k'.Touches n := by
      constructor
      · rintro ⟨w, hw, hmem⟩
        exact (h.listed n w hw e').mp hmem
      · rintro ⟨k', hk', hn⟩
        exact h.exists_vertex hk' hn
    have hnone : ∀ k', edge e' = some k' → e' ≠ e := by
      rintro k' hk' rfl
      cases he.symm.trans hk'
    have hmem : e' ∈ v.edges ↔ (∃ k', edge e' = some k' ∧ k'.Touches n) ∨ e' = e ∧ k.Touches n := by
      by_cases hn : k.Touches n
      · obtain ⟨c, hjoin⟩ := hends n hn
        obtain rfl := Option.some.inj (hjoin.symm.trans hv)
        rw [mem_edges_joined, hold, and_iff_left hn]
      · rw [hrest n hn] at hv
        rw [h.listed n v hv e', iff_false_intro hn, and_false, or_false]
    rw [hmem]
    constructor
    · rintro (⟨k', hk', hn⟩ | ⟨rfl, hn⟩)
      · exact ⟨k', (hupdate e' k').mpr (.inr ⟨hnone k' hk', hk'⟩), hn⟩
      · exact ⟨k, (hupdate e' k).mpr (.inl ⟨rfl, rfl⟩), hn⟩
    · rintro ⟨k', hk', hn⟩
      rcases (hupdate e' k').mp hk' with ⟨rfl, rfl⟩ | ⟨-, hk'⟩
      · exact .inr ⟨rfl, hn⟩
      · exact .inl ⟨k', hk', hn⟩

end Incidence
