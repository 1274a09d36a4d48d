import PqLightning.Persist.Persister

/-!
# Reading a monitor back after a crash

What the persister guarantees is an invariant of its log (`Sound`): full monitors are written in the
order of their ids, an update is removed only after a full monitor that includes it is durable, and
the completion of an update is reported only when the update or a full monitor that includes it is
durable.

So a crash can take away only updates that were not reported. It may take an update and leave a
later one, since the two are stored under different keys. The reader then panics: it applies the
stored updates in order and the later one does not fit. Unless that happens, it returns a monitor
that has every reported update.
-/

namespace PqLightning.Persist

open AssocMap CrashLog List Option ChannelMonitorUpdate

variable {σ π : Type} {effects : Effects σ π} {maximumPendingUpdates : ℕ} {base : ChannelMonitor σ}
  {run run' : Run σ π} {store : Store σ π}

/-! ### The log -/

/-- The value is a full monitor that includes update `k`. -/
def Includes (k : ℕ) (value : Option (Value σ π)) : Prop :=
  ∃ m, value = some (.monitor m) ∧ k ≤ m.latestUpdateId

/-- The value is update `k`, or a full monitor that includes it. -/
def Supports (k : ℕ) (value : Option (Value σ π)) : Prop :=
  Includes k value ∨ ∃ u, value = some (.update u) ∧ u.updateId = k

variable (log : List (Entry Key (Value σ π)))

/-- A value of this kind is durable, or is being waited for. -/
def Backed (awaiting : Option ℕ) (P : Option (Value σ π) → Prop) : Prop :=
  (∃ e ∈ log, e.done ∧ P e.value) ∨ ∃ i e, awaiting = some i ∧ log[i]? = some e ∧ P e.value

/-- An update that was applied and may be stored under its own key. -/
def Storable (history : List (ChannelMonitorUpdate π × Bool)) (u : ChannelMonitorUpdate π) : Prop :=
  (u, true) ∈ history ∧ u.updateId ≠ legacyClosedChannelUpdateId

/-- What an entry of the log can be. -/
inductive Written (effects : Effects σ π) (base : ChannelMonitor σ) (run : Run σ π) :
    Key → Option (Value σ π) → Prop
  | monitor {m : ChannelMonitor σ} (n : ℕ) (hn : n ≤ run.history.length)
      (hm : Lineage effects base (run.history.take n) m) :
      Written effects base run .monitor (some (.monitor m))
  | update {u : ChannelMonitorUpdate π} (hu : Storable run.history u) :
      Written effects base run (.update u.updateId) (some (.update u))
  | removal {k : ℕ} (hk : ∃ e ∈ run.log, e.done ∧ Includes k e.value) :
      Written effects base run (.update k) none

/-- What a task has in hand. -/
structure TaskSound (run : Run σ π) (task : Task σ π) : Prop where
  todo : ∀ op ∈ task.todo, (∃ u, op = .writeUpdate u ∧ Storable run.history u) ∨
    ∃ k, op = .removeUpdate k ∧ Backed run.log task.awaiting (Includes k)
  listing : ∀ upTo, task.listing = some upTo →
    task.todo = [] ∧ Backed run.log task.awaiting (Includes upTo)
  covers : ∀ k, task.covers = some k → Backed run.log task.awaiting (Supports k) ∨
    ∃ u, .writeUpdate u ∈ task.todo ∧ u.updateId = k

/-- Full monitors are written in the order of their ids. -/
def InOrder (value value' : Option (Value σ π)) : Prop :=
  ∀ m m', value = some (.monitor m) → value' = some (.monitor m') →
    m.latestUpdateId ≤ m'.latestUpdateId

structure Sound (effects : Effects σ π) (base : ChannelMonitor σ) (run : Run σ π) : Prop where
  lineage : Lineage effects base run.history run.live
  written : ∀ e ∈ run.log, Written effects base run e.key e.value
  ordered : (run.log.map Entry.value).Pairwise InOrder
  tasks : ∀ task ∈ run.tasks, TaskSound run task
  reported : ∀ k ∈ run.reported, ∃ e ∈ run.log, e.done ∧ Supports k e.value

theorem Includes.mono {k k' : ℕ} {value : Option (Value σ π)} (h : Includes k value)
    (hk : k' ≤ k) : Includes k' value := by
  obtain ⟨m, hm, hle⟩ := h
  exact ⟨m, hm, hk.trans hle⟩

theorem Backed.mono {log : List (Entry Key (Value σ π))} {awaiting : Option ℕ}
    {P Q : Option (Value σ π) → Prop} (h : Backed log awaiting P) (hPQ : ∀ v, P v → Q v) :
    Backed log awaiting Q := by
  rcases h with ⟨e, he, hdone, hP⟩ | ⟨i, e, hi, he, hP⟩
  · exact .inl ⟨e, he, hdone, hPQ _ hP⟩
  · exact .inr ⟨i, e, hi, he, hPQ _ hP⟩

variable {P : Option (Value σ π) → Prop}

/-- A task that waits for nothing relies on what is durable. -/
theorem Backed.durable {log : List (Entry Key (Value σ π))}
    (h : Backed log none P) : ∃ e ∈ log, e.done ∧ P e.value := by
  rcases h with h | ⟨i, e, hi, -⟩
  · exact h
  · cases hi

/-! ### Logs that grow -/

/-- `log'` has the entries of `log`, some of them completed since, and maybe more. -/
def Continues (log' : List (Entry Key (Value σ π))) : Prop :=
  ∀ (i : ℕ) (e : Entry Key (Value σ π)), log[i]? = some e →
    ∃ e', log'[i]? = some e' ∧ e'.value = e.value ∧ (e.done → e'.done)

theorem Continues.refl : Continues log log := fun _ e h => ⟨e, h, rfl, id⟩

theorem Continues.append (e : Entry Key (Value σ π)) : Continues log (log ++ [e]) := by
  intro i e' h
  refine ⟨e', ?_, rfl, id⟩
  rw [getElem?_append_left (List.getElem?_eq_some_iff.mp h).1, h]

theorem Continues.complete (i : ℕ) :
    Continues log (log.modify i fun e => { e with done := true }) := by
  intro j e h
  rw [getElem?_modify, h]
  by_cases hij : i = j
  · exact ⟨{ e with done := true }, by simp [hij], rfl, fun _ => rfl⟩
  · exact ⟨e, by simp [hij], rfl, id⟩

theorem Continues.durable {log log' : List (Entry Key (Value σ π))} (h : Continues log log')
    (hP : ∃ e ∈ log, e.done ∧ P e.value) : ∃ e ∈ log', e.done ∧ P e.value := by
  obtain ⟨e, he, hdone, hP⟩ := hP
  obtain ⟨i, hi⟩ := mem_iff_getElem?.mp he
  obtain ⟨e', hi', hvalue, hdone'⟩ := h i e hi
  exact ⟨e', mem_iff_getElem?.mpr ⟨i, hi'⟩, hdone' hdone, hvalue ▸ hP⟩

theorem Continues.backed {log log' : List (Entry Key (Value σ π))} (h : Continues log log')
    {awaiting : Option ℕ} (hP : Backed log awaiting P) : Backed log' awaiting P := by
  rcases hP with hP | ⟨i, e, hi, he, hP⟩
  · exact .inl (h.durable hP)
  · obtain ⟨e', he', hvalue, -⟩ := h i e he
    exact .inr ⟨i, e', hi, he', hvalue ▸ hP⟩

/-- The later state of a run, in what its entries and tasks rely on. -/
structure Later (run run' : Run σ π) : Prop where
  log : Continues run.log run'.log
  history : run.history <+: run'.history

variable {u : ChannelMonitorUpdate π}

theorem Storable.later (h : Later run run')
    (hu : Storable run.history u) : Storable run'.history u :=
  ⟨h.history.subset hu.1, hu.2⟩

variable {key : Key}

theorem Written.later (h : Later run run') {value : Option (Value σ π)}
    (he : Written effects base run key value) : Written effects base run' key value := by
  cases he with
  | monitor n hn hm =>
    obtain ⟨rest, hrest⟩ := h.history
    refine .monitor n (hn.trans h.history.length_le) ?_
    rw [← hrest, take_append_of_le_length hn]
    exact hm
  | update hu => exact .update (hu.later h)
  | removal hk => exact .removal (h.log.durable hk)

variable {task : Task σ π}

theorem TaskSound.later (h : Later run run') (ht : TaskSound run task) : TaskSound run' task := by
  refine ⟨fun op hop => ?_, fun upTo hupTo => ?_, fun k hk => ?_⟩
  · rcases ht.todo op hop with ⟨u, rfl, hu⟩ | ⟨k, rfl, hk⟩
    · exact .inl ⟨u, rfl, hu.later h⟩
    · exact .inr ⟨k, rfl, h.log.backed hk⟩
  · exact ⟨(ht.listing upTo hupTo).1, h.log.backed (ht.listing upTo hupTo).2⟩
  · rcases ht.covers k hk with hk | hk
    · exact .inl (h.log.backed hk)
    · exact .inr hk

/-- Completion changes neither the keys nor the values of the log. -/
theorem map_complete {α : Type} (f : Entry Key (Value σ π) → α)
    (hf : ∀ e done, f { e with done := done } = f e) (log : List (Entry Key (Value σ π))) (i : ℕ) :
    (log.modify i fun e => { e with done := true }).map f = log.map f := by
  refine ext_getElem? fun j => ?_
  rw [getElem?_map, getElem?_map, getElem?_modify]
  by_cases hij : i = j
  · cases log[j]? <;> simp [hij, hf]
  · cases log[j]? <;> simp [hij]

theorem Written.lineage {m : ChannelMonitor σ}
    (h : Written effects base run key (some (.monitor m))) :
    ∃ n ≤ run.history.length, Lineage effects base (run.history.take n) m := by
  cases h with
  | monitor n hn hm => exact ⟨n, hn, hm⟩

theorem Written.storable (h : Written effects base run key (some (.update u))) :
    key = .update u.updateId ∧ Storable run.history u := by
  cases h with
  | update hu => exact ⟨rfl, hu⟩

theorem Written.removed (h : Written effects base run key none) :
    ∃ k, key = .update k ∧ ∃ e ∈ run.log, e.done ∧ Includes k e.value := by
  cases h with
  | removal hk => exact ⟨_, rfl, hk⟩

/-- Anything that is not a full monitor is in order. -/
theorem inOrder_of_ne {value value' : Option (Value σ π)}
    (h : ∀ m, value' ≠ some (.monitor m)) : InOrder value value' :=
  fun _ m' _ hm' => absurd hm' (h m')

/-! ### The steps -/

namespace Sound

variable (h : Sound effects base run)

include h

/-- A later state is sound if what is new in it is. -/
theorem later (hlater : Later run run') (hlineage : Lineage effects base run'.history run'.live)
    (hwritten : ∀ e ∈ run'.log, Written effects base run e.key e.value)
    (hordered : (run'.log.map Entry.value).Pairwise InOrder)
    (htasks : ∀ task ∈ run'.tasks, task ∈ run.tasks ∨ TaskSound run task)
    (hreported : ∀ k ∈ run'.reported, k ∈ run.reported ∨
      ∃ e ∈ run.log, e.done ∧ Supports k e.value) : Sound effects base run' where
  lineage := hlineage
  written e he := (hwritten e he).later hlater
  ordered := hordered
  tasks task hmem := ((htasks task hmem).elim (h.tasks task) id).later hlater
  reported k hk := hlater.log.durable ((hreported k hk).elim (h.reported k) id)

/-- Tasks may be dropped, and others added that are sound. -/
theorem withTasks {tasks : List (Task σ π)}
    (htasks : ∀ task ∈ tasks, task ∈ run.tasks ∨ TaskSound run task) :
    Sound effects base { run with tasks } :=
  h.later ⟨.refl run.log, prefix_rfl⟩ h.lineage h.written h.ordered htasks fun _ => .inl

theorem setTask {i : ℕ} (ht : TaskSound run task) :
    Sound effects base { run with tasks := run.tasks.set i task } :=
  h.withTasks fun _ hmem => (mem_or_eq_of_mem_set hmem).imp_right (by rintro rfl; exact ht)

theorem eraseTask (i : ℕ) (ids : List ℕ)
    (hids : ∀ k ∈ ids, ∃ e ∈ run.log, e.done ∧ Supports k e.value) :
    Sound effects base
      { run with tasks := run.tasks.eraseIdx i, reported := run.reported ++ ids } :=
  h.later ⟨.refl run.log, prefix_rfl⟩ h.lineage h.written h.ordered
    (fun _ hmem => .inl (mem_of_mem_eraseIdx hmem))
    fun k hk => (mem_append.mp hk).imp_right (hids k)

theorem issue {e : Entry Key (Value σ π)} (he : Written effects base run e.key e.value)
    (horder : ∀ e' ∈ run.log, InOrder e'.value e.value) :
    Sound effects base { run with log := run.log ++ [e] } := by
  refine h.later ⟨.append run.log e, prefix_rfl⟩ h.lineage (fun e' hmem => ?_) ?_ (fun _ => .inl)
    fun _ => .inl
  · rcases mem_append.mp hmem with hmem | hmem
    · exact h.written e' hmem
    · rwa [mem_singleton.mp hmem]
  · rw [map_append, pairwise_append]
    refine ⟨h.ordered, pairwise_singleton _ _, ?_⟩
    intro value hmem value' hmem'
    obtain ⟨e', hlog, rfl⟩ := mem_map.mp hmem
    rw [map_singleton, mem_singleton] at hmem'
    rw [hmem']
    exact horder e' hlog

theorem complete (i : ℕ) :
    Sound effects base { run with log := run.log.modify i fun e => { e with done := true } } := by
  refine h.later ⟨.complete run.log i, prefix_rfl⟩ h.lineage (fun e hmem => ?_) ?_ (fun _ => .inl)
    fun _ => .inl
  · have hpair : (e.key, e.value) ∈ run.log.map fun e => (e.key, e.value) := by
      rw [← map_complete _ (fun _ _ => rfl) run.log i]
      exact mem_map_of_mem hmem
    obtain ⟨e₀, he₀, heq⟩ := mem_map.mp hpair
    obtain ⟨hkey, hvalue⟩ := Prod.mk.inj heq
    rw [← hkey, ← hvalue]
    exact h.written e₀ he₀
  · show ((run.log.modify i fun e => { e with done := true }).map Entry.value).Pairwise InOrder
    rw [map_complete _ (fun _ _ => rfl)]
    exact h.ordered

/-- A monitor in the log is one that the monitor in memory has been. -/
theorem inOrder_live {e : Entry Key (Value σ π)}
    (he : e ∈ run.log) : InOrder e.value (some (.monitor run.live)) := by
  intro m m' hm hlive
  obtain rfl : run.live = m' := Value.monitor.inj (Option.some.inj hlive)
  have hwritten := h.written e he
  rw [hm] at hwritten
  obtain ⟨n, hn, hlineage⟩ := hwritten.lineage
  rw [hlineage.latestUpdateId, h.lineage.latestUpdateId, length_take]
  omega

theorem addTask (ht : TaskSound run task) :
    Sound effects base { run with tasks := run.tasks ++ [task] } :=
  h.withTasks fun _ hmem => (mem_append.mp hmem).imp_right (by simp +contextual [ht])

theorem spawn_update (hu : Storable run.history u) :
    Sound effects base (run.spawn (some u.updateId) (.update u)) := by
  refine h.addTask ⟨fun op hop => ?_, fun upTo hupTo => ?_, fun k hk => ?_⟩
  · exact .inl ⟨u, mem_singleton.mp hop, hu⟩
  · cases hupTo
  · exact .inr ⟨u, mem_singleton_self _, Option.some.inj hk⟩

/-- **A full monitor is written.** What is removed afterwards, it includes. -/
theorem spawn_full {covers : Option ℕ} {cleanup : Cleanup}
    (hcovers : ∀ k, covers = some k → k ≤ run.live.latestUpdateId)
    (hops : ∀ op ∈ (cleanup.ops : List (Op σ π)),
      ∃ k, op = .removeUpdate k ∧ k ≤ run.live.latestUpdateId)
    (hlisted : ∀ upTo, cleanup = .listed upTo → upTo ≤ run.live.latestUpdateId) :
    Sound effects base (run.spawn covers (.full run.live cleanup)) := by
  have hwritten : Written effects base run .monitor (some (.monitor run.live)) := by
    refine .monitor run.history.length le_rfl ?_
    rw [take_length]
    exact h.lineage
  have hissued := h.issue (e := (Op.writeMonitor run.live).entry) hwritten
    fun e' he' => h.inOrder_live he'
  have hbacked : ∀ k ≤ run.live.latestUpdateId,
      Backed (run.log ++ [(Op.writeMonitor run.live).entry]) (some run.log.length)
        (Includes k : Option (Value σ π) → Prop) := by
    intro k hk
    refine .inr ⟨run.log.length, (Op.writeMonitor run.live).entry, rfl, ?_, run.live, rfl, hk⟩
    rw [getElem?_concat_length]
  refine hissued.addTask ⟨fun op hop => ?_, fun upTo hupTo => ?_, fun k hk => ?_⟩
  · obtain ⟨k, rfl, hk⟩ := hops op hop
    exact .inr ⟨k, rfl, hbacked k hk⟩
  · cases cleanup with
    | nothing => cases hupTo
    | range start stop => cases hupTo
    | listed upTo' =>
      obtain rfl : upTo' = upTo := Option.some.inj hupTo
      exact ⟨rfl, hbacked upTo' (hlisted upTo' rfl)⟩
  · exact .inl ((hbacked k (hcovers k hk)).mono fun _ hv => .inl hv)

/-- What a call removes, the full monitor it writes includes. -/
theorem spawn_updatePersistedChannel {covers : Option ℕ}
    {update : Option (ChannelMonitorUpdate π)}
    (hcovers : ∀ k, covers = some k → k ≤ run.live.latestUpdateId)
    (hupdate : ∀ u, update = some u → (u, true) ∈ run.history ∧ covers = some u.updateId) :
    Sound effects base
      (run.spawn covers (updatePersistedChannel maximumPendingUpdates update run.live)) := by
  cases update with
  | none => exact h.spawn_full hcovers (by simp [Cleanup.ops]) (fun _ h => by cases h)
  | some u =>
    obtain ⟨hu, rfl⟩ := hupdate u rfl
    rw [updatePersistedChannel]
    split
    next hpersist =>
      exact h.spawn_update ⟨hu, (of_decide_eq_true hpersist).1⟩
    · split
      · refine h.spawn_full hcovers (by simp [Cleanup.ops]) fun upTo hupTo => ?_
        rw [Cleanup.listed.inj hupTo]
      · refine h.spawn_full hcovers (fun op hop => ?_) (fun _ h => by cases h)
        obtain ⟨k, hk, rfl⟩ := mem_map.mp hop
        rw [mem_range'_1] at hk
        exact ⟨k, rfl, by omega⟩

theorem applyUpdate
    (hid : u.updateId = run.live.latestUpdateId + 1)
    (hstep : run.applyUpdate effects maximumPendingUpdates u = some run') :
    Sound effects base run' := by
  simp only [Run.applyUpdate] at hstep
  split at hstep
  · cases hstep
  next live ok hlive =>
    rw [← Option.some.inj hstep]
    have happlied : Sound effects base
        { run with live := live, history := run.history ++ [(u, ok)] } :=
      h.later ⟨.refl run.log, prefix_append _ _⟩ (.update h.lineage hid hlive) h.written h.ordered
        (fun _ => .inl) fun _ => .inl
    refine happlied.spawn_updatePersistedChannel (fun k hk => ?_) (fun u' hu' => ?_)
    · rw [← Option.some.inj hk]
      exact (latestUpdateId_of_updateMonitor hlive).ge
    · cases ok with
      | false => cases hu'
      | true =>
        rw [← Option.some.inj hu']
        exact ⟨mem_concat_self, rfl⟩

theorem issueNext {i : ℕ}
    (htask : task ∈ run.tasks) (hstep : run.issueNext i task = some run') :
    Sound effects base run' := by
  have ht := h.tasks task htask
  simp only [Run.issueNext] at hstep
  split at hstep
  next op rest hawaiting hlisting htodo =>
    rw [← Option.some.inj hstep]
    have hbacked : ∀ P, Backed run.log task.awaiting P →
        Backed (run.log ++ [op.entry]) (some run.log.length) P := by
      intro P hP
      rw [hawaiting] at hP
      exact .inl ((Continues.append run.log op.entry).durable hP.durable)
    have hissued : Sound effects base { run with log := run.log ++ [op.entry] } := by
      rcases ht.todo op (by rw [htodo]; exact mem_cons_self) with ⟨u, rfl, hu⟩ | ⟨k, rfl, hk⟩
      · exact h.issue (.update hu) fun _ _ => inOrder_of_ne fun m hm => by cases hm
      · rw [hawaiting] at hk
        exact h.issue (.removal hk.durable) fun _ _ => inOrder_of_ne fun m hm => by cases hm
    refine hissued.setTask ⟨fun op' hop' => ?_, fun upTo hupTo => ?_, fun k hk => ?_⟩
    · rcases ht.todo op' (by rw [htodo]; exact mem_cons_of_mem _ hop') with hu | ⟨k, rfl, hk⟩
      · exact .inl hu
      · exact .inr ⟨k, rfl, hbacked _ hk⟩
    · cases hlisting.symm.trans hupTo
    · rcases ht.covers k hk with hk | ⟨u, hu, hid⟩
      · exact .inl (hbacked _ hk)
      · rw [htodo] at hu
        rcases mem_cons.mp hu with rfl | hu
        · refine .inl (.inr ⟨run.log.length, (Op.writeUpdate u).entry, rfl, ?_, ?_⟩)
          · rw [getElem?_concat_length]
          · exact .inr ⟨u, rfl, hid⟩
        · exact .inr ⟨u, hu, hid⟩
  · cases hstep

/-- A task goes on when what it waited for is durable, or was not a write. -/
theorem goOn {i : ℕ} (ht : TaskSound run task)
    (hdone : ∀ j e, task.awaiting = some j → run.log[j]? = some e → e.done ∨ e.value = none) :
    Sound effects base (run.goOn i task) := by
  have hbacked : ∀ P : Option (Value σ π) → Prop, ¬ P none → Backed run.log task.awaiting P →
      Backed run.log none P := by
    rintro P hnone (hP | ⟨j, e, hj, he, hP⟩)
    · exact .inl hP
    · rcases hdone j e hj he with hd | hv
      · exact .inl ⟨e, mem_of_getElem? he, hd, hP⟩
      · rw [hv] at hP
        exact absurd hP hnone
  have hincludes : ∀ k, ¬ Includes k (none : Option (Value σ π)) := by
    rintro k ⟨m, hm, -⟩
    cases hm
  have hsupports : ∀ k, ¬ Supports k (none : Option (Value σ π)) := by
    rintro k (hk | ⟨u, hu, -⟩)
    · exact hincludes k hk
    · cases hu
  refine h.setTask ⟨fun op hop => ?_, fun upTo hupTo => ?_, fun k hk => ?_⟩
  · rcases ht.todo op hop with hu | ⟨k, rfl, hk⟩
    · exact .inl hu
    · exact .inr ⟨k, rfl, hbacked _ (hincludes k) hk⟩
  · exact ⟨(ht.listing upTo hupTo).1, hbacked _ (hincludes upTo) (ht.listing upTo hupTo).2⟩
  · rcases ht.covers k hk with hk | hk
    · exact .inl (hbacked _ (hsupports k) hk)
    · exact .inr hk

/-- **A step keeps the invariant.** -/
theorem step {event : Event π}
    (hstep : run.step effects maximumPendingUpdates event = some run') :
    Sound effects base run' := by
  cases event with
  | update u =>
    simp only [Run.step] at hstep
    split at hstep
    next hid =>
      exact h.applyUpdate hid hstep
    · cases hstep
  | rewrite =>
    rw [← Option.some.inj hstep]
    exact h.spawn_updatePersistedChannel (fun _ h => by cases h) (fun _ h => by cases h)
  | issue i =>
    obtain ⟨task, htask, hstep⟩ := bind_eq_some_iff.mp hstep
    exact h.issueNext (mem_of_getElem? htask) hstep
  | resolve i =>
    obtain ⟨task, htask, hstep⟩ := bind_eq_some_iff.mp hstep
    obtain ⟨position, hposition, rfl⟩ := map_eq_some_iff.mp hstep
    have hlater : Later run
        { run with log := run.log.modify position fun e => { e with done := true } } :=
      ⟨.complete run.log position, prefix_rfl⟩
    refine (h.complete position).goOn ((h.tasks task (mem_of_getElem? htask)).later hlater) ?_
    intro j e hj he
    obtain rfl : position = j := Option.some.inj (hposition.symm.trans hj)
    rw [getElem?_modify] at he
    obtain ⟨e₀, -, rfl⟩ := map_eq_some_iff.mp he
    exact .inl (by simp)
  | fail i =>
    obtain ⟨task, htask, hstep⟩ := bind_eq_some_iff.mp hstep
    obtain ⟨position, hposition, hstep⟩ := bind_eq_some_iff.mp hstep
    obtain ⟨e, he, rfl⟩ := map_eq_some_iff.mp hstep
    split
    · have herase := h.eraseTask i [] (by simp)
      rw [append_nil] at herase
      exact herase
    next hsome =>
      refine h.goOn (h.tasks task (mem_of_getElem? htask)) fun j e' hj he' => .inr ?_
      obtain rfl : position = j := Option.some.inj (hposition.symm.trans hj)
      obtain rfl : e = e' := Option.some.inj (he.symm.trans he')
      exact not_isSome_iff_eq_none.mp fun hs => hsome (.inl hs)
  | list i updateIds =>
    obtain ⟨task, htask, hstep⟩ := bind_eq_some_iff.mp hstep
    have ht := h.tasks task (mem_of_getElem? htask)
    simp only at hstep
    split at hstep
    next upTo hawaiting hlisting =>
      obtain ⟨htodo, hbacked⟩ := ht.listing upTo hlisting
      rw [← Option.some.inj hstep]
      refine h.setTask ⟨fun op hop => ?_, fun upTo' hupTo' => ?_, fun k hk => ?_⟩
      · obtain ⟨k, hk, rfl⟩ := mem_map.mp hop
        have hle : k ≤ upTo := of_decide_eq_true (mem_filter.mp hk).2
        exact .inr ⟨k, rfl, hbacked.mono fun v hv => hv.mono hle⟩
      · cases hupTo'
      · rcases ht.covers k hk with hk | ⟨u, hu, -⟩
        · exact .inl hk
        · rw [htodo] at hu
          cases hu
    · cases hstep
  | finish i =>
    obtain ⟨task, htask, hstep⟩ := bind_eq_some_iff.mp hstep
    have ht := h.tasks task (mem_of_getElem? htask)
    split at hstep
    next hawaiting hlisting htodo =>
      rw [← Option.some.inj hstep]
      refine h.eraseTask i _ fun k hk => ?_
      rcases ht.covers k (mem_toList.mp hk) with hk | ⟨u, hu, -⟩
      · rw [hawaiting] at hk
        exact hk.durable
      · rw [htodo] at hu
        cases hu
    · cases hstep

end Sound

theorem Sound.start (effects : Effects σ π) (base : ChannelMonitor σ) :
    Sound effects base (.start base : Run σ π) := by
  have hempty : Sound effects base (⟨base, [], [], [], []⟩ : Run σ π) :=
    ⟨.base, by simp, .nil, by simp, by simp⟩
  exact hempty.spawn_full (fun _ h => by cases h) (by simp [Cleanup.ops]) (fun _ h => by cases h)

/-- **Every state of the system is sound.** -/
theorem Reachable.sound (h : Reachable effects maximumPendingUpdates base run) :
    Sound effects base run := by
  induction h with
  | start => exact .start effects base
  | step event _ hstep ih => exact ih.step hstep

/-! ### What a crash leaves -/

section

variable (hstore : CrashStore run store) (h : Sound effects base run)

include hstore h

theorem CrashStore.lineage {m : ChannelMonitor σ} (hm : store.monitor = some m) :
    ∃ n ≤ run.history.length, Lineage effects base (run.history.take n) m := by
  have hget : store.get .monitor = some (.monitor m) := by rw [Store.get, hm, map_some]
  obtain ⟨e, he, -, hvalue⟩ := hstore.exists_entry hget
  have hwritten := h.written e he
  rw [hvalue] at hwritten
  exact hwritten.lineage

/-- A stored update was applied, and is stored under its own id. -/
theorem CrashStore.storable {k : ℕ} (hu : store.updates.lookup k = some u) :
    Storable run.history u ∧ u.updateId = k := by
  have hget : store.get (.update k) = some (.update u) := by rw [Store.get, hu, map_some]
  obtain ⟨e, he, hkey, hvalue⟩ := hstore.exists_entry hget
  have hwritten := h.written e he
  rw [hvalue, hkey] at hwritten
  obtain ⟨hid, hstorable⟩ := hwritten.storable
  exact ⟨hstorable, (Key.update.inj hid).symm⟩

/-- A full monitor that is durable is stored, or a later one is. -/
theorem CrashStore.of_includes {k : ℕ} (hk : ∃ e ∈ run.log, e.done ∧ Includes k e.value) :
    ∃ m, store.monitor = some m ∧ k ≤ m.latestUpdateId := by
  obtain ⟨e, he, hdone, m, hm, hle⟩ := hk
  have hkey : e.key = .monitor := by
    have hwritten := h.written e he
    rw [hm] at hwritten
    cases hkey : e.key with
    | monitor => rfl
    | update k =>
      rw [hkey] at hwritten
      cases hwritten
  obtain ⟨pre, post, hlog⟩ := append_of_mem he
  have hsurvives : Survives (pre ++ e :: post) store.get := hlog ▸ hstore
  obtain ⟨e', hmem, hkey', hget⟩ := hsurvives.of_done hdone (by rw [hm]; exact some_ne_none _)
  have hwritten := h.written e' (by rw [hlog]; exact mem_append_right _ hmem)
  rw [hkey', hkey] at hwritten
  rw [hkey] at hget
  cases hvalue : e'.value with
  | none =>
    rw [hvalue] at hwritten
    cases hwritten
  | some v =>
    rw [hvalue] at hwritten hget
    cases hwritten with
    | @monitor m' n hn hm' =>
      obtain ⟨m'', hm'', heq⟩ := map_eq_some_iff.mp hget
      obtain rfl : m'' = m' := Value.monitor.inj heq
      refine ⟨m'', hm'', hle.trans ?_⟩
      rcases mem_cons.mp hmem with rfl | hpost
      · obtain rfl : m = m'' := Value.monitor.inj (Option.some.inj (hm.symm.trans hvalue))
        exact Nat.le_refl _
      · have hordered := h.ordered
        rw [hlog, map_append, map_cons, pairwise_append, pairwise_cons] at hordered
        exact hordered.2.1.1 e'.value (mem_map_of_mem hpost) m m'' hm hvalue

/-- **An update reported complete survives**, by itself or in a full monitor. -/
theorem CrashStore.of_reported {k : ℕ} (hk : k ∈ run.reported) :
    (∃ m, store.monitor = some m ∧ k ≤ m.latestUpdateId) ∨
      ∃ u, store.updates.lookup k = some u := by
  obtain ⟨e, he, hdone, hincludes | ⟨u, hu, rfl⟩⟩ := h.reported k hk
  · exact .inl (hstore.of_includes h ⟨e, he, hdone, hincludes⟩)
  · have hkey : e.key = .update u.updateId := by
      have hwritten := h.written e he
      rw [hu] at hwritten
      exact hwritten.storable.1
    obtain ⟨pre, post, hlog⟩ := append_of_mem he
    have hsurvives : Survives (pre ++ e :: post) store.get := hlog ▸ hstore
    obtain ⟨e', hmem, hkey', hget⟩ := hsurvives.of_done hdone (by rw [hu]; exact some_ne_none _)
    have hwritten := h.written e' (by rw [hlog]; exact mem_append_right _ hmem)
    rw [hkey] at hget hkey'
    rw [hkey'] at hwritten
    cases hvalue : e'.value with
    | none =>
      rw [hvalue] at hwritten
      obtain ⟨k, hkey'', hk⟩ := hwritten.removed
      rw [Key.update.inj hkey'']
      exact .inl (hstore.of_includes h hk)
    | some v =>
      rw [hvalue] at hget
      obtain ⟨u', hu', -⟩ := map_eq_some_iff.mp hget
      exact .inr ⟨u', hu'⟩

end

/-! ### Reading -/

/-- Updates that are applied one after the other are numbered so. -/
theorem updateIds_of_replay {m m' : ChannelMonitor σ} {us : List (ChannelMonitorUpdate π)}
    (hids : ∀ u ∈ us, u.updateId ≠ legacyClosedChannelUpdateId)
    (h : replay effects m us = .ok (.ok m')) :
    us.map updateId = List.range' (m.latestUpdateId + 1) us.length ∧
      m'.latestUpdateId = m.latestUpdateId + us.length := by
  induction us generalizing m with
  | nil =>
    rw [replay] at h
    cases h
    exact ⟨rfl, rfl⟩
  | cons u us ih =>
    obtain ⟨⟨m₁, ok⟩, hupdate, h⟩ := bind_eq_ok.mp h
    cases ok with
    | false => cases Except.ok.inj h
    | true =>
      have hid := updateId_of_updateMonitor hupdate (hids u mem_cons_self)
      obtain ⟨hmap, hlast⟩ := ih (fun u' hu' => hids u' (mem_cons_of_mem _ hu')) h
      rw [latestUpdateId_of_updateMonitor hupdate, hid] at hmap hlast
      rw [map_cons, hmap, hid, length_cons, range'_succ]
      exact ⟨rfl, by omega⟩

/-- Updates of the history that come one after the other, from where the monitor is, take it along
the history. -/
theorem replay_of_lineage {live m : ChannelMonitor σ}
    {history : List (ChannelMonitorUpdate π × Bool)} {n : ℕ} {us : List (ChannelMonitorUpdate π)}
    (hlive : Lineage effects base history live) (hn : n ≤ history.length)
    (hm : Lineage effects base (history.take n) m) (hus : ∀ u ∈ us, (u, true) ∈ history)
    (hids : us.map updateId = List.range' (m.latestUpdateId + 1) us.length) :
    ∃ m', replay effects m us = .ok (.ok m') ∧ n + us.length ≤ history.length ∧
      Lineage effects base (history.take (n + us.length)) m' := by
  induction us generalizing n m with
  | nil => exact ⟨m, rfl, hn, hm⟩
  | cons u us ih =>
    rw [map_cons, length_cons, range'_succ] at hids
    obtain ⟨hid, hrest⟩ := List.cons.inj hids
    -- The update is the next one of the history: its number says where in the history it is.
    obtain ⟨i, hi⟩ := mem_iff_getElem?.mp (hus u mem_cons_self)
    have hpos := hlive.updateId hi
    rw [hm.latestUpdateId, length_take, Nat.min_eq_left hn] at hid
    obtain rfl : i = n := by omega
    have hlt : i < history.length := (List.getElem?_eq_some_iff.mp hi).1
    obtain ⟨m₁, hupdate, -, hm₁⟩ := hlive.next hi hm
    have hlatest : m₁.latestUpdateId = m.latestUpdateId + 1 := by
      rw [hm₁.latestUpdateId, hm.latestUpdateId, length_take, length_take]
      omega
    obtain ⟨m', hreplay, hle, hm'⟩ := ih hlt hm₁
      (fun u' hu' => hus u' (mem_cons_of_mem _ hu')) (by rw [hrest, hlatest])
    refine ⟨m', ?_, ?_, ?_⟩
    · rw [replay, hupdate]
      exact hreplay
    · rw [length_cons]
      omega
    · rw [length_cons, Nat.add_comm us.length 1, ← Nat.add_assoc]
      exact hm'

/-- Numbers above `a`, in order, that go down to it without a gap. -/
theorem eq_range'_iff {l : List ℕ} {a : ℕ} (hsorted : l.Pairwise (· < ·)) (hgt : ∀ k ∈ l, a < k) :
    l = List.range' (a + 1) l.length ↔ ∀ k ∈ l, a + 1 < k → k - 1 ∈ l := by
  constructor
  · intro heq k hk hlt
    rw [heq, mem_range'_1] at hk ⊢
    omega
  · intro hclosed
    induction l generalizing a with
    | nil => rfl
    | cons x l ih =>
      rw [pairwise_cons] at hsorted
      have hx := hgt x mem_cons_self
      have hxa : x = a + 1 := by
        by_contra hne
        rcases mem_cons.mp (hclosed x mem_cons_self (by omega)) with heq | hmem
        · omega
        · have := hsorted.1 _ hmem
          omega
      rw [length_cons, range'_succ, hxa]
      congr 1
      refine ih hsorted.2 (fun k hk => hxa ▸ hsorted.1 k hk) fun k hk hlt => ?_
      rcases mem_cons.mp (hclosed k (mem_cons_of_mem _ hk) (by omega)) with heq | hmem
      · omega
      · exact hmem

theorem map_updateId_filterMap {f : ℕ → Option (ChannelMonitorUpdate π)} {ids : List ℕ}
    (h : ∀ k ∈ ids, ∃ u, f k = some u ∧ u.updateId = k) : (ids.filterMap f).map updateId = ids := by
  induction ids with
  | nil => rfl
  | cons k ids ih =>
    obtain ⟨u, hu, hid⟩ := h k mem_cons_self
    rw [filterMap_cons_some hu, map_cons, hid, ih fun k' hk' => h k' (mem_cons_of_mem _ hk')]

/-- The updates to load are those of the store above the monitor, in order. -/
theorem CrashStore.updateIds (hstore : CrashStore run store) (h : Sound effects base run) (a : ℕ) :
    ((store.updatesToLoad a).map updateId).Pairwise (· < ·) ∧
      ∀ k, k ∈ (store.updatesToLoad a).map updateId ↔
        a < k ∧ ∃ u, store.updates.lookup k = some u := by
  have hmem : ∀ k, k ∈ store.updates.keys.mergeSort ↔ ∃ u, store.updates.lookup k = some u := by
    intro k
    rw [mem_mergeSort, ← AList.mem_keys, ← AList.lookup_isSome, isSome_iff_exists]
  have hids : (store.updatesToLoad a).map updateId =
      store.updates.keys.mergeSort.filter (a < ·) := by
    refine map_updateId_filterMap fun k hk => ?_
    obtain ⟨u, hu⟩ := (hmem k).mp (mem_filter.mp hk).1
    exact ⟨u, hu, (hstore.storable h hu).2⟩
  rw [hids]
  constructor
  · refine List.Pairwise.filter _ ?_
    have hle : (store.updates.keys.mergeSort).Pairwise (· ≤ ·) := pairwise_mergeSort' (· ≤ ·) _
    have hnodup : (store.updates.keys.mergeSort).Nodup :=
      (mergeSort_perm _ _).nodup_iff.mpr store.updates.keys_nodup
    exact hle.imp₂ (fun _ _ hle hne => lt_of_le_of_ne hle hne) hnodup
  · intro k
    rw [mem_filter, hmem, decide_eq_true_eq, and_comm]

theorem CrashStore.storable_of_mem (hstore : CrashStore run store) (h : Sound effects base run)
    {a : ℕ} (hu : u ∈ store.updatesToLoad a) : Storable run.history u := by
  obtain ⟨k, -, hk⟩ := mem_filterMap.mp hu
  exact (hstore.storable h hk).1

/-- A full monitor is stored, and the stored updates above it go down to it without a gap. -/
def Store.Contiguous (store : Store σ π) : Prop :=
  ∃ m, store.monitor = some m ∧ ∀ k u, store.updates.lookup k = some u →
    m.latestUpdateId + 1 < k → ∃ u', store.updates.lookup (k - 1) = some u'

/-- The reader returns a monitor that has applied the first updates of the history, once each and in
order, and among them every update up to which all were reported complete. -/
def ReadsBack (effects : Effects σ π) (base : ChannelMonitor σ) (run : Run σ π)
    (store : Store σ π) : Prop :=
  ∃ m n, maybeReadChannelMonitorWithUpdates effects store = .ok (.ok m) ∧
    n ≤ run.history.length ∧ Lineage effects base (run.history.take n) m ∧
    ∀ k, (∀ i, base.latestUpdateId < i → i ≤ k → i ∈ run.reported) → k ≤ m.latestUpdateId

/-- **Reading back after a crash.** In every state of the system and for every store that a crash
can leave, the reader succeeds with all that was reported if and only if the stored updates have no
gap. -/
theorem readsBack_iff (effects : Effects σ π) (maximumPendingUpdates : ℕ) (base : ChannelMonitor σ)
    (run : Run σ π) (store : Store σ π)
    (hrun : Reachable effects maximumPendingUpdates base run) (hstore : CrashStore run store) :
    ReadsBack effects base run store ↔ store.Contiguous := by
  have h := hrun.sound
  cases hmonitor : store.monitor with
  | none =>
    constructor
    · rintro ⟨m, n, hread, -⟩
      rw [maybeReadChannelMonitorWithUpdates, hmonitor] at hread
      cases Except.ok.inj hread
    · rintro ⟨m, hm, -⟩
      cases hmonitor.symm.trans hm
  | some m =>
    obtain ⟨hsorted, hmem⟩ := hstore.updateIds h m.latestUpdateId
    have hus : ∀ u ∈ store.updatesToLoad m.latestUpdateId, Storable run.history u :=
      fun u hu => hstore.storable_of_mem h hu
    have hgap := eq_range'_iff hsorted fun k hk => ((hmem k).mp hk).1
    rw [length_map] at hgap
    -- The ids to load are consecutive exactly if the store has no gap.
    have hcontiguous : store.Contiguous ↔
        (store.updatesToLoad m.latestUpdateId).map updateId =
          List.range' (m.latestUpdateId + 1) (store.updatesToLoad m.latestUpdateId).length := by
      rw [hgap]
      constructor
      · rintro ⟨m', hm', hclosed⟩ k hk hlt
        obtain rfl : m = m' := Option.some.inj (hmonitor.symm.trans hm')
        obtain ⟨-, u, hu⟩ := (hmem k).mp hk
        exact (hmem (k - 1)).mpr ⟨by omega, hclosed k u hu hlt⟩
      · intro hclosed
        refine ⟨m, hmonitor, fun k u hu hlt => ?_⟩
        exact ((hmem (k - 1)).mp (hclosed k ((hmem k).mpr ⟨by omega, u, hu⟩) hlt)).2
    rw [hcontiguous]
    constructor
    · rintro ⟨m', n, hread, -⟩
      rw [maybeReadChannelMonitorWithUpdates, hmonitor] at hread
      exact (updateIds_of_replay (fun u hu => (hus u hu).2) hread).1
    · intro hids
      obtain ⟨n, hn, hm⟩ := hstore.lineage h hmonitor
      obtain ⟨m', hreplay, hle, hm'⟩ :=
        replay_of_lineage h.lineage hn hm (fun u hu => (hus u hu).1) hids
      refine ⟨m', _, ?_, hle, hm', fun k hk => ?_⟩
      · rw [maybeReadChannelMonitorWithUpdates, hmonitor]
        exact hreplay
      · -- The update after the last one applied is stored neither by itself nor in a monitor.
        have hlast := (updateIds_of_replay (fun u hu => (hus u hu).2) hreplay).2
        by_contra hlt
        have hbase : base.latestUpdateId ≤ m'.latestUpdateId := by
          rw [hm'.latestUpdateId]
          omega
        rcases hstore.of_reported h (hk (m'.latestUpdateId + 1) (by omega) (by omega)) with
          ⟨m'', hm'', hle''⟩ | hstored
        · obtain rfl : m = m'' := Option.some.inj (hmonitor.symm.trans hm'')
          omega
        · have hk' := (hmem (m'.latestUpdateId + 1)).mpr ⟨by omega, hstored⟩
          rw [hids, mem_range'_1] at hk'
          omega

/-! ### A crash that leaves a gap -/

def Run.steps (effects : Effects σ π) (maximumPendingUpdates : ℕ) (run : Run σ π)
    (events : List (Event π)) : Option (Run σ π) :=
  events.foldlM (fun run event => run.step effects maximumPendingUpdates event) run

theorem Reachable.steps {events : List (Event π)}
    (h : Reachable effects maximumPendingUpdates base run)
    (hsteps : run.steps effects maximumPendingUpdates events = some run') :
    Reachable effects maximumPendingUpdates base run' := by
  induction events generalizing run with
  | nil =>
    rw [← Option.some.inj hsteps]
    exact h
  | cons event events ih =>
    obtain ⟨run₁, hstep, hrest⟩ := bind_eq_some_iff.mp (foldlM_cons.symm.trans hsteps)
    exact ih (.step event h hstep) hrest

def plainEffects : Effects Unit Unit where
  apply content _ := .ok (content, true)
  failHtlcsAfterFundingSpend content _ := content
  closedOnchain _ := false

def plainMonitor : ChannelMonitor Unit := monitorAt 0 ()

def plainUpdate (updateId : UInt64) : ChannelMonitorUpdate Unit := oneStep updateId .paymentPreimage

/-- The new monitor is durable, and two updates are being written, the second of which completes. -/
def gapRun : Run Unit Unit where
  live := monitorAt 2 ()
  history := [(plainUpdate 1, true), (plainUpdate 2, true)]
  log := [⟨.monitor, some (.monitor plainMonitor), true⟩,
    ⟨.update 1, some (.update (plainUpdate 1)), false⟩,
    ⟨.update 2, some (.update (plainUpdate 2)), true⟩]
  tasks := [⟨some 1, some 1, [], none, false⟩]
  reported := [2]

def gapStore : Store Unit Unit where
  monitor := some plainMonitor
  updates := AList.insert 2 (plainUpdate 2) ∅

theorem gapRun_reachable : Reachable plainEffects 3 plainMonitor gapRun := by
  have hsteps : (Run.start plainMonitor).steps plainEffects 3
      [.update (plainUpdate 1), .update (plainUpdate 2), .resolve 0, .finish 0, .issue 0, .issue 1,
        .resolve 1, .finish 1] = some gapRun := rfl
  exact Reachable.start.steps hsteps

theorem gapStore_crashStore : CrashStore gapRun gapStore := by
  intro key
  cases key with
  | monitor => exact ⟨1, by simp [on, gapRun], rfl⟩
  | update k =>
    by_cases hk : k = 2
    · subst hk
      exact ⟨1, by simp [on, gapRun], rfl⟩
    · refine ⟨0, ?_, ?_⟩
      · intro e he hdone
        obtain ⟨he, hkey⟩ := mem_on.mp he
        simp only [gapRun, mem_cons, not_mem_nil, or_false] at he
        rcases he with rfl | rfl | rfl
        · cases hkey
        · cases hdone
        · exact absurd (Key.update.inj hkey).symm hk
      · show ((gapStore.updates.lookup k).map Value.update) = none
        rw [gapStore, AList.lookup_insert_ne hk]
        rfl

/-- **The reader panics.** The second update is durable, and reported so, and the first is not. -/
theorem gap_panics :
    Reachable plainEffects 3 plainMonitor gapRun ∧ CrashStore gapRun gapStore ∧
      gapRun.reported = [2] ∧
      maybeReadChannelMonitorWithUpdates plainEffects gapStore = .error .unreachable :=
  ⟨gapRun_reachable, gapStore_crashStore, rfl, by decide +kernel⟩

theorem readsBack_iff_gap :
    ReadsBack plainEffects plainMonitor gapRun gapStore ↔ gapStore.Contiguous :=
  readsBack_iff plainEffects 3 plainMonitor gapRun gapStore gapRun_reachable gapStore_crashStore

end PqLightning.Persist
