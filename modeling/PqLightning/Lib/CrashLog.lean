import Mathlib.Data.List.Basic

/-!
# A key-value store that crashes

Operations on a key-value store are issued one after the other and become durable some time later.
The store keeps the operations on one key in the order in which they were issued, and says nothing
about operations on different keys. A write whose completion has been reported is durable; a removal
may be lost even so.

After a crash each key is therefore as some prefix of the operations on it left it, a prefix that
includes every write reported complete (`Survives`).

## Main results

* `Survives.exists_entry` — what is found was written
* `Survives.of_done` — a key with a completed write is as that write or a later operation
  left it
-/

namespace CrashLog

open List

variable {K V : Type} [DecidableEq K]

/-- An operation that was issued: a write of a value, or a removal. -/
structure Entry (K V : Type) where
  key : K
  value : Option V
  /-- Its completion has been reported. -/
  done : Bool

def on (k : K) (log : List (Entry K V)) : List (Entry K V) := log.filter fun e => e.key = k

theorem mem_on {k : K} {log : List (Entry K V)} {e : Entry K V} :
    e ∈ on k log ↔ e ∈ log ∧ e.key = k := by
  simp [on]

/-- What operations on one key leave there. -/
def content (ops : List (Entry K V)) : Option V := ops.getLast?.bind Entry.value

/-- The stores that a crash can leave. -/
def Survives (log : List (Entry K V)) (store : K → Option V) : Prop :=
  ∀ k, ∃ n, (∀ e ∈ (on k log).drop n, e.done → e.value = none) ∧
    store k = content ((on k log).take n)

variable {log : List (Entry K V)} {store : K → Option V}

theorem Survives.exists_entry (h : Survives log store) {k : K} {v : V} (hv : store k = some v) :
    ∃ e ∈ log, e.key = k ∧ e.value = some v := by
  obtain ⟨n, -, hcontent⟩ := h k
  rw [hv, eq_comm, content, Option.bind_eq_some_iff] at hcontent
  obtain ⟨e, hlast, hvalue⟩ := hcontent
  obtain ⟨hlog, hkey⟩ := mem_on.mp (mem_of_mem_take (mem_of_getLast? hlast))
  exact ⟨e, hlog, hkey, hvalue⟩

/-- A key with a completed write is as that write or a later operation left it. -/
theorem Survives.of_done {pre post : List (Entry K V)} {e : Entry K V}
    (h : Survives (pre ++ e :: post) store) (hdone : e.done) (hwrite : e.value ≠ none) :
    ∃ e' ∈ e :: post, e'.key = e.key ∧ store e.key = e'.value := by
  obtain ⟨n, hdrop, hcontent⟩ := h e.key
  have hon : on e.key (pre ++ e :: post) = on e.key pre ++ e :: on e.key post := by
    simp [on]
  rw [hon] at hdrop hcontent
  have hn : (on e.key pre).length < n := by
    by_contra hle
    have hmem : e ∈ (on e.key pre ++ e :: on e.key post).drop n := by
      rw [drop_append_of_le_length (by omega)]
      simp
    exact hwrite (hdrop e hmem hdone)
  obtain ⟨m, rfl⟩ : ∃ m, n = (on e.key pre).length + (m + 1) :=
    ⟨n - (on e.key pre).length - 1, by omega⟩
  rw [take_length_add_append, take_succ_cons, content,
    getLast?_append_of_ne_nil _ (by simp)] at hcontent
  obtain ⟨e', hlast⟩ : ∃ e', (e :: (on e.key post).take m).getLast? = some e' :=
    ⟨_, getLast?_eq_some_getLast (by simp)⟩
  rw [hlast] at hcontent
  refine ⟨e', ?_, ?_, hcontent⟩
  · rcases mem_cons.mp (mem_of_getLast? hlast) with rfl | hmem
    · exact mem_cons_self
    · exact mem_cons_of_mem _ (mem_on.mp (mem_of_mem_take hmem)).1
  · rcases mem_cons.mp (mem_of_getLast? hlast) with rfl | hmem
    · rfl
    · exact (mem_on.mp (mem_of_mem_take hmem)).2

end CrashLog
