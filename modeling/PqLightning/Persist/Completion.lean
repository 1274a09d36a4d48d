import PqLightning.Persist.ChainMonitor

/-!
# Completed monitor updates

A chain monitor tells its user that the updates of a channel are persisted by a `Completed` event
with the latest id, or by returning `Completed` from the call. It keeps the ids of the writes in
progress and emits the event when the last of them has been reported.

Two paths of `update_channel_internal` go around this. An update that could not be applied is
persisted as part of the full monitor: the persister is given no update and has nothing to report,
but the id is recorded as pending if the write is in progress, and stays so for good. And an update
of a closed channel that is persisted at once is announced with a `Completed` event even if earlier
ids are still pending. A run without these two cases is `Careful`.
-/

namespace PqLightning.Persist

open AssocMap List AList

variable {σ π : Type} {effects : Effects σ π} {session session' : Session σ π}

structure Tracked (session : Session σ π) : Prop where
  /-- What was given to the persister is pending or was reported. -/
  applied : ∀ c k, (c, k) ∈ session.applied →
    ∃ holder, session.chain.monitors.lookup c = some holder ∧ k ≤ holder.monitor.latestUpdateId ∧
      (k ∈ holder.pendingMonitorUpdates ∨ (c, k) ∈ session.chain.persister.persisted)
  /-- The latest id of a monitor was given to the persister. -/
  latest : ∀ c holder, session.chain.monitors.lookup c = some holder →
    (c, holder.monitor.latestUpdateId) ∈ session.applied
  /-- An event is emitted when all up to its id was reported. -/
  emitted : ∀ c n, (c, n) ∈ session.emitted → (c, n) ∈ session.applied ∧
    ∀ k, (c, k) ∈ session.applied → k ≤ n → (c, k) ∈ session.chain.persister.persisted
  /-- A pending id will be reported. -/
  pending : ∀ c holder, session.chain.monitors.lookup c = some holder →
    ∀ k ∈ holder.pendingMonitorUpdates, ⟨c, some k⟩ ∈ session.chain.persister.writes ∨
      (c, k) ∈ session.chain.persister.asyncCompletedUpdates
  /-- What waits in the queue was reported. -/
  queued : ∀ c ∈ session.chain.persister.asyncCompletedUpdates,
    c ∈ session.chain.persister.persisted
  /-- The user was told of the latest id, or something is pending. -/
  told : ∀ c holder, session.chain.monitors.lookup c = some holder →
    holder.pendingMonitorUpdates ≠ [] ∨
      (c, holder.monitor.latestUpdateId) ∈ session.emitted ++ session.returned

/-! ### The single changes -/

/-- The persister goes on, nothing that is pending being forgotten. -/
theorem Tracked.setPersister (h : Tracked session) (persister : Persister)
    (hpersisted : session.chain.persister.persisted ⊆ persister.persisted)
    (hpending : ∀ c holder, session.chain.monitors.lookup c = some holder →
      ∀ k ∈ holder.pendingMonitorUpdates,
        ⟨c, some k⟩ ∈ persister.writes ∨ (c, k) ∈ persister.asyncCompletedUpdates)
    (hqueued : ∀ c ∈ persister.asyncCompletedUpdates, c ∈ persister.persisted) :
    Tracked { session with chain := { session.chain with persister := persister } } where
  applied := by
    intro c k hk
    obtain ⟨holder, hlookup, hle, hor⟩ := h.applied c k hk
    exact ⟨holder, hlookup, hle, hor.imp_right fun hp => hpersisted hp⟩
  latest := h.latest
  emitted := fun c n hn =>
    ⟨(h.emitted c n hn).1, fun k hk hle => hpersisted ((h.emitted c n hn).2 k hk hle)⟩
  pending := hpending
  queued := hqueued
  told := h.told

variable {c : ChannelId}

/-- The persister forgets nothing and leaves the queue alone. -/
structure Persister.Grows (persister persister' : Persister) : Prop where
  persisted : persister.persisted ⊆ persister'.persisted
  writes : persister.writes ⊆ persister'.writes
  queue : persister'.asyncCompletedUpdates = persister.asyncCompletedUpdates

theorem Persister.Grows.refl (persister : Persister) : persister.Grows persister :=
  ⟨List.Subset.refl _, List.Subset.refl _, rfl⟩

section Replace

variable (h : Tracked session) {holder holder' : MonitorHolder σ}
  (hmonitors : session'.chain.monitors = session.chain.monitors.insert c holder')
  (hgrows : session.chain.persister.Grows session'.chain.persister)
  (hpending : ∀ k ∈ holder'.pendingMonitorUpdates, ⟨c, some k⟩ ∈ session'.chain.persister.writes ∨
    (c, k) ∈ session'.chain.persister.asyncCompletedUpdates)
  (hemitted : session'.emitted = session.emitted ∨
    session'.emitted = session.emitted ++ [(c, holder'.monitor.latestUpdateId)] ∧
      holder'.pendingMonitorUpdates = []) (hreturned : session.returned ⊆ session'.returned)
  (htold : holder'.pendingMonitorUpdates ≠ [] ∨
    (c, holder'.monitor.latestUpdateId) ∈ session'.emitted ++ session'.returned)

include h hmonitors hgrows hpending hemitted hreturned htold

/-- **The monitor of one channel changes.** It has a new latest id, or the one it had; ids leave its
pending list only when they were reported; an event is emitted only when that list is empty. -/
theorem Tracked.replace
    (happlied : ∀ x, x ∈ session'.applied ↔
      x ∈ session.applied ∨ x = (c, holder'.monitor.latestUpdateId))
    (hold : ∀ holder ∈ session.chain.monitors.lookup c,
      holder.monitor.latestUpdateId ≤ holder'.monitor.latestUpdateId ∧
      ∀ k ∈ holder.pendingMonitorUpdates, k ∈ holder'.pendingMonitorUpdates ∨
        (c, k) ∈ session'.chain.persister.persisted)
    (hnew : holder'.monitor.latestUpdateId ∈ holder'.pendingMonitorUpdates ∨
      (c, holder'.monitor.latestUpdateId) ∈ session'.chain.persister.persisted) :
    Tracked session' := by
  have hlookup : session'.chain.monitors.lookup c = some holder' := by
    rw [hmonitors, lookup_insert]
  have hcases : ∀ c' holder, session'.chain.monitors.lookup c' = some holder →
      c' = c ∧ holder = holder' ∨ c' ≠ c ∧ session.chain.monitors.lookup c' = some holder :=
    fun c' holder hl => lookup_insert_eq_some (hmonitors ▸ hl)
  have hemit : session.emitted ⊆ session'.emitted := by
    rcases hemitted with heq | ⟨heq, -⟩
    · rw [heq]
      exact List.Subset.refl _
    · rw [heq]
      exact subset_append_left _ _
  have hold' : ∀ k, (c, k) ∈ session.applied → k ≤ holder'.monitor.latestUpdateId ∧
      (k ∈ holder'.pendingMonitorUpdates ∨ (c, k) ∈ session'.chain.persister.persisted) := by
    intro k hk
    obtain ⟨holder, hl, hle, hor⟩ := h.applied c k hk
    obtain ⟨hlatest, hkeep⟩ := hold holder hl
    exact ⟨Nat.le_trans hle hlatest, hor.elim (hkeep k) fun hp => .inr (hgrows.persisted hp)⟩
  refine ⟨?_, ?_, ?_, ?_, ?_, ?_⟩
  · intro c' k hk
    rcases (happlied _).mp hk with hk | heq
    · by_cases hc : c' = c
      · subst hc
        exact ⟨holder', hlookup, hold' k hk⟩
      · obtain ⟨holder, hl, hle, hor⟩ := h.applied c' k hk
        rw [hmonitors, lookup_insert_ne hc]
        exact ⟨holder, hl, hle, hor.imp_right fun hp => hgrows.persisted hp⟩
    · cases heq
      exact ⟨holder', hlookup, Nat.le_refl _, hnew⟩
  · intro c' holder hl
    rcases hcases c' holder hl with ⟨rfl, rfl⟩ | ⟨-, hl⟩
    · exact (happlied _).mpr (.inr rfl)
    · exact (happlied _).mpr (.inl (h.latest c' holder hl))
  · -- An event that was emitted before is not contradicted: the new id is higher, or was reported.
    have hbefore : ∀ c' n, (c', n) ∈ session.emitted → (c', n) ∈ session'.applied ∧
        ∀ k, (c', k) ∈ session'.applied → k ≤ n → (c', k) ∈ session'.chain.persister.persisted := by
      intro c' n hn
      obtain ⟨hmem, hall⟩ := h.emitted c' n hn
      refine ⟨(happlied _).mpr (.inl hmem), fun k hk hle => ?_⟩
      rcases (happlied _).mp hk with hk | heq
      · exact hgrows.persisted (hall k hk hle)
      · cases heq
        obtain rfl : n = holder'.monitor.latestUpdateId := le_antisymm (hold' n hmem).1 hle
        exact hgrows.persisted (hall _ hmem le_rfl)
    rcases hemitted with heq | ⟨heq, hempty⟩
    · intro c' n hn
      rw [heq] at hn
      exact hbefore c' n hn
    · intro c' n hn
      rw [heq] at hn
      rcases mem_append.mp hn with hn | hn
      · exact hbefore c' n hn
      · obtain ⟨rfl, rfl⟩ := Prod.mk.inj (mem_singleton.mp hn)
        refine ⟨(happlied _).mpr (.inr rfl), fun k hk _ => ?_⟩
        have hor : k ∈ holder'.pendingMonitorUpdates ∨
            (c', k) ∈ session'.chain.persister.persisted := by
          rcases (happlied _).mp hk with hk | heq
          · exact (hold' k hk).2
          · rw [(Prod.mk.inj heq).2]
            exact hnew
        rw [hempty] at hor
        exact hor.resolve_left not_mem_nil
  · intro c' holder hl k hk
    rcases hcases c' holder hl with ⟨rfl, rfl⟩ | ⟨-, hl⟩
    · exact hpending k hk
    · rw [hgrows.queue]
      exact (h.pending c' holder hl k hk).imp_left fun hw => hgrows.writes hw
  · intro x hx
    rw [hgrows.queue] at hx
    exact hgrows.persisted (h.queued x hx)
  · intro c' holder hl
    rcases hcases c' holder hl with ⟨rfl, rfl⟩ | ⟨-, hl⟩
    · exact htold
    · refine (h.told c' holder hl).imp_right fun hmem => ?_
      rcases mem_append.mp hmem with hmem | hmem
      · exact mem_append_left _ (hemit hmem)
      · exact mem_append_right _ (hreturned hmem)

/-- The case of the latest id that it had. -/
theorem Tracked.rehold (hlookup : session.chain.monitors.lookup c = some holder)
    (hsame : holder'.monitor.latestUpdateId = holder.monitor.latestUpdateId)
    (happlied : session'.applied = session.applied)
    (hkeep : ∀ k ∈ holder.pendingMonitorUpdates, k ∈ holder'.pendingMonitorUpdates ∨
      (c, k) ∈ session'.chain.persister.persisted) : Tracked session' := by
  have hlatest := h.latest c holder hlookup
  refine h.replace hmonitors hgrows hpending hemitted hreturned htold (fun x => ?_) ?_ ?_
  · rw [happlied, hsame]
    exact ⟨.inl, fun hx => hx.elim id fun heq => heq ▸ hlatest⟩
  · rw [hlookup]
    rintro _ ⟨⟩
    exact ⟨hsame.ge, hkeep⟩
  · obtain ⟨_, hlookup', -, hor⟩ := h.applied c _ hlatest
    obtain rfl := Option.some.inj (hlookup.symm.trans hlookup')
    rw [hsame]
    exact hor.elim (hkeep _) fun hp => .inr (hgrows.persisted hp)

end Replace

variable {holder : MonitorHolder σ} {k : ℕ}

theorem Tracked.updated (h : Tracked session) (hk : (c, k) ∈ session.chain.persister.persisted) :
    Tracked { session with chain := session.chain.updated (c, k) } := by
  simp only [ChainMonitor.updated, ChainMonitor.channelMonitorUpdated]
  split
  · exact h
  next holder hlookup =>
    have hkeep : ∀ k' ∈ holder.pendingMonitorUpdates,
        k' ∈ holder.pendingMonitorUpdates.filter (· ≠ k) ∨
          (c, k') ∈ session.chain.persister.persisted := by
      intro k' hk'
      by_cases heq : k' = k
      · exact .inr (heq ▸ hk)
      · exact .inl (mem_filter.mpr ⟨hk', decide_eq_true heq⟩)
    have hpending : ∀ k' ∈ holder.pendingMonitorUpdates.filter (· ≠ k),
        ⟨c, some k'⟩ ∈ session.chain.persister.writes ∨
          (c, k') ∈ session.chain.persister.asyncCompletedUpdates := fun k' hk' =>
      h.pending c holder hlookup k' (mem_filter.mp hk').1
    split
    next hempty =>
      have hnil : holder.pendingMonitorUpdates.filter (· ≠ k) = [] := List.isEmpty_iff.mp hempty
      have hemitted : session.released ++ (session.chain.pendingMonitorEvents ++
          [(c, holder.monitor.latestUpdateId)]) =
          session.emitted ++ [(c, holder.monitor.latestUpdateId)] := (append_assoc _ _ _).symm
      refine h.rehold rfl (.refl _) hpending (.inr ⟨hemitted, hnil⟩) (.refl _)
        (.inr ?_) hlookup rfl rfl hkeep
      exact mem_append_left _ (mem_append_right _ mem_concat_self)
    next hne =>
      have hnil : holder.pendingMonitorUpdates.filter (· ≠ k) ≠ [] := fun heq =>
        hne (List.isEmpty_iff.mpr heq)
      exact h.rehold rfl (.refl _) hpending (.inl rfl) (.refl _) (.inl hnil) hlookup rfl
        rfl hkeep

/-! ### The persister -/

variable (persister : Persister)

/-- What the persister has after a call. -/
theorem Persister.grows_call (c : ChannelId) (updateId completion : Option ℕ)
    (status : UpdateStatus) : persister.Grows (persister.call c updateId completion status) := by
  cases status with
  | completed => exact ⟨subset_append_left _ _, List.Subset.refl _, rfl⟩
  | inProgress => exact ⟨List.Subset.refl _, subset_append_left _ _, rfl⟩
  | unrecoverableError => exact ⟨List.Subset.refl _, List.Subset.refl _, rfl⟩

theorem Persister.mem_persisted_call (c : ChannelId) (k : ℕ) (completion : Option ℕ) :
    (c, k) ∈ (persister.call c (some k) completion .completed).persisted :=
  mem_concat_self

theorem Persister.mem_writes_call (c : ChannelId) (updateId : Option ℕ) (k : ℕ) :
    ⟨c, some k⟩ ∈ (persister.call c updateId (some k) .inProgress).writes :=
  mem_concat_self

variable (completed : List (ChannelId × ℕ)) {chain : ChainMonitor σ π}
    {status status' : UpdateStatus}
  {monitor : ChannelMonitor σ}

/-! ### Completions that are processed -/

/-- Processing a completion does not look at the persister. -/
theorem updated_setPersister (chain : ChainMonitor σ π) (x : ChannelId × ℕ) :
    ChainMonitor.updated { chain with persister := persister } x =
      { chain.updated x with persister := persister } := by
  simp only [ChainMonitor.updated, ChainMonitor.channelMonitorUpdated]
  split
  · rfl
  · split <;> rfl

theorem foldl_updated_setPersister (chain : ChainMonitor σ π) :
    completed.foldl ChainMonitor.updated { chain with persister := persister } =
      { completed.foldl ChainMonitor.updated chain with persister := persister } := by
  induction completed generalizing chain with
  | nil => rfl
  | cons x completed ih => rw [foldl_cons, updated_setPersister, ih, foldl_cons]

theorem persister_updated (chain : ChainMonitor σ π) (x : ChannelId × ℕ) :
    (chain.updated x).persister = chain.persister := by
  have h := updated_setPersister chain.persister chain x
  exact congrArg (fun chain => chain.persister) h

theorem persister_foldl_updated (chain : ChainMonitor σ π) :
    (completed.foldl ChainMonitor.updated chain).persister = chain.persister := by
  induction completed generalizing chain with
  | nil => rfl
  | cons x completed ih => rw [foldl_cons, ih, persister_updated]

/-- What is pending after a completion was processed was so before, and is not what completed. -/
theorem pending_updated {x : ChannelId × ℕ}
    (hlookup : (chain.updated x).monitors.lookup c = some holder)
    (hk : k ∈ holder.pendingMonitorUpdates) :
    (c, k) ≠ x ∧ ∃ holder₀, chain.monitors.lookup c = some holder₀ ∧
      k ∈ holder₀.pendingMonitorUpdates := by
  simp only [ChainMonitor.updated, ChainMonitor.channelMonitorUpdated] at hlookup
  split at hlookup
  next hnone =>
    refine ⟨?_, holder, hlookup, hk⟩
    rintro rfl
    cases hnone.symm.trans hlookup
  next holder₀ hsome =>
    have hinsert : (chain.monitors.insert x.1 { holder₀ with
        pendingMonitorUpdates := holder₀.pendingMonitorUpdates.filter (· ≠ x.2) }).lookup c =
          some holder := by
      split at hlookup
      · exact hlookup
      · exact hlookup
    rcases lookup_insert_eq_some hinsert with ⟨rfl, rfl⟩ | ⟨hc, hbefore⟩
    · obtain ⟨hmem, hne⟩ := mem_filter.mp hk
      exact ⟨fun heq => of_decide_eq_true hne (congrArg Prod.snd heq), holder₀, hsome, hmem⟩
    · exact ⟨fun heq => hc (congrArg Prod.fst heq), holder, hbefore, hk⟩

variable {completed} in
theorem pending_foldl_updated
    (hlookup : (completed.foldl ChainMonitor.updated chain).monitors.lookup c = some holder)
    (hk : k ∈ holder.pendingMonitorUpdates) :
    (c, k) ∉ completed ∧ ∃ holder₀, chain.monitors.lookup c = some holder₀ ∧
      k ∈ holder₀.pendingMonitorUpdates := by
  induction completed generalizing chain with
  | nil => exact ⟨not_mem_nil, holder, hlookup, hk⟩
  | cons x completed ih =>
    obtain ⟨hnot, holder₁, hlookup₁, hk₁⟩ := ih hlookup
    obtain ⟨hne, hbefore⟩ := pending_updated hlookup₁ hk₁
    exact ⟨fun hmem => (mem_cons.mp hmem).elim hne hnot, hbefore⟩

/-- After a completion was processed nothing is pending, and the event is out, or something is. -/
theorem told_updated (hlookup : (chain.updated (c, k)).monitors.lookup c = some holder) :
    holder.pendingMonitorUpdates ≠ [] ∨
      (c, holder.monitor.latestUpdateId) ∈ (chain.updated (c, k)).pendingMonitorEvents := by
  simp only [ChainMonitor.updated, ChainMonitor.channelMonitorUpdated] at hlookup ⊢
  split at hlookup
  next hnone =>
    cases hnone.symm.trans hlookup
  · split at hlookup
    · obtain rfl := Option.some.inj ((lookup_insert _).symm.trans hlookup)
      rename_i hempty
      rw [if_pos hempty]
      exact .inr mem_concat_self
    · obtain rfl := Option.some.inj ((lookup_insert _).symm.trans hlookup)
      rename_i hempty
      exact .inl fun hnil => hempty (List.isEmpty_iff.mpr hnil)

/-! ### Care -/

/-- The two cases do not occur: an update that cannot be applied is persisted at once, and an update
of a closed channel is persisted at once only when nothing is pending. -/
def CarefulUpdate (effects : Effects σ π) (chain : ChainMonitor σ π) (c : ChannelId)
    (update : ChannelMonitorUpdate π) (status : UpdateStatus) : Prop :=
  ∀ holder monitor ok, chain.monitors.lookup c = some holder →
    updateMonitor effects holder.monitor update = .ok (monitor, ok) →
    (ok = false → status = .completed) ∧
    ((ok = false ∨ monitor.noFurtherUpdatesAllowed effects) → status = .completed →
      holder.pendingMonitorUpdates = [])

instance (effects : Effects σ π) (chain : ChainMonitor σ π) (c : ChannelId)
    (update : ChannelMonitorUpdate π) (status : UpdateStatus) :
    Decidable (CarefulUpdate effects chain c update status) :=
  match hlookup : chain.monitors.lookup c with
  | none => isTrue fun holder monitor ok hsome => by cases hlookup.symm.trans hsome
  | some holder =>
    match hupdate : updateMonitor effects holder.monitor update with
    | .error _ => isTrue fun holder' monitor ok hsome hok => by
      obtain rfl := Option.some.inj (hlookup.symm.trans hsome)
      cases hupdate.symm.trans hok
    | .ok (monitor, ok) =>
      decidable_of_iff ((ok = false → status = .completed) ∧
          ((ok = false ∨ monitor.noFurtherUpdatesAllowed effects) → status = .completed →
            holder.pendingMonitorUpdates = []))
        ⟨fun h holder' monitor' ok' hsome hok => by
          obtain rfl := Option.some.inj (hlookup.symm.trans hsome)
          obtain ⟨rfl, rfl⟩ := Prod.mk.inj (Except.ok.inj (hupdate.symm.trans hok))
          exact h, fun h => h holder monitor ok hlookup hupdate⟩

def Careful (effects : Effects σ π) (session : Session σ π) : ChainEvent σ π → Prop
  | .updateChannel c update status =>
    session.chain.deferred = false → CarefulUpdate effects session.chain c update status
  | .flush status => ∀ c update rest, session.chain.pendingOps = .update c update :: rest →
    CarefulUpdate effects session.chain c update status
  | _ => True

instance (effects : Effects σ π) (session : Session σ π) (event : ChainEvent σ π) :
    Decidable (Careful effects session event) :=
  match event with
  | .updateChannel c update status =>
    inferInstanceAs (Decidable (session.chain.deferred = false →
      CarefulUpdate effects session.chain c update status))
  | .flush status =>
    match hops : session.chain.pendingOps with
    | .update c update :: rest =>
      decidable_of_iff (CarefulUpdate effects session.chain c update status)
        ⟨fun h c' update' rest' heq => by
          obtain ⟨heq, -⟩ := List.cons.inj (hops.symm.trans heq)
          obtain ⟨rfl, rfl⟩ := PendingMonitorOp.update.inj heq
          exact h, fun h => h c update rest hops⟩
    | [] => isTrue fun c update rest heq => by cases hops.symm.trans heq
    | .newMonitor _ _ :: _ => isTrue fun c update rest heq => by
      cases (List.cons.inj (hops.symm.trans heq)).1
  | .watchChannel _ _ _ | .loadExistingMonitor _ _ | .processChainData _ _ _
  | .writeCompleted _ | .releasePendingMonitorEvents => isTrue trivial

/-! ### The steps -/

namespace Tracked

variable (h : Tracked session)

include h

theorem watch
    (hwatch : session.chain.watchChannelInternal c monitor status = .ok (some (chain, status'))) :
    (status' = .completed → (c, monitor.latestUpdateId) ∈ chain.persister.persisted) ∧
    Tracked { session with
      chain := chain
      applied := session.applied ++ [(c, monitor.latestUpdateId)]
      returned := session.nowReturned c monitor.latestUpdateId status' } := by
  simp only [ChainMonitor.watchChannelInternal] at hwatch
  split at hwatch
  · cases Except.ok.inj hwatch
  next hnone =>
    obtain ⟨_, hstatus, hwatch⟩ := bind_eq_ok.mp hwatch
    rw [Panic.unless_eq_ok] at hstatus
    cases hwatch
    have hgrows := session.chain.persister.grows_call c (some monitor.latestUpdateId)
      (some monitor.latestUpdateId) status
    have hold : ∀ P : MonitorHolder σ → Prop, ∀ holder ∈ session.chain.monitors.lookup c,
        P holder := by
      rw [hnone]
      exact nofun
    have happlied : ∀ x, x ∈ session.applied ++ [(c, monitor.latestUpdateId)] ↔
        x ∈ session.applied ∨ x = (c, monitor.latestUpdateId) := by simp
    cases status with
    | completed =>
      have hmem := session.chain.persister.mem_persisted_call c monitor.latestUpdateId
        (some monitor.latestUpdateId)
      refine ⟨fun _ => hmem, ?_⟩
      refine h.replace rfl hgrows nofun (.inl rfl) (subset_append_left _ _) (.inr ?_) happlied
        (hold _) (.inr hmem)
      exact mem_append_right _ mem_concat_self
    | inProgress =>
      refine ⟨nofun, ?_⟩
      refine h.replace rfl hgrows ?_ (.inl rfl) (.refl _) (.inl ?_) happlied (hold _)
        (.inl ?_)
      · intro k hk
        rw [mem_singleton.mp hk]
        exact .inl (session.chain.persister.mem_writes_call c (some monitor.latestUpdateId) _)
      · exact cons_ne_nil _ _
      · exact mem_singleton_self _
    | unrecoverableError => exact absurd rfl hstatus

theorem load
    (hload : session.chain.loadExistingMonitor c monitor = some chain) :
    Tracked (session.load chain (c, monitor.latestUpdateId)) := by
  simp only [ChainMonitor.loadExistingMonitor] at hload
  split at hload
  · cases hload
  next hnone =>
    cases hload
    refine h.replace rfl ⟨subset_append_left _ _, List.Subset.refl _, rfl⟩ nofun (.inl rfl)
      (subset_append_left _ _) (.inr ?_) (by simp [Session.load]) (by rw [hnone]; exact nofun)
      (.inr ?_)
    · exact mem_append_right _ mem_concat_self
    · exact mem_concat_self

theorem update {update : ChannelMonitorUpdate π}
    (hcareful : CarefulUpdate effects session.chain c update status)
    (hupdate : session.chain.updateChannelInternal effects c update status = .ok (chain, status')) :
    (status' = .completed → (c, update.updateId) ∈ chain.persister.persisted) ∧
    Tracked { session with
      chain := chain
      applied := session.applied ++ [(c, update.updateId)]
      returned := session.nowReturned c update.updateId status' } := by
  simp only [ChainMonitor.updateChannelInternal] at hupdate
  split at hupdate
  · cases hupdate
  next holder hlookup =>
    obtain ⟨⟨monitor, ok⟩, hmonitor, hupdate⟩ := bind_eq_ok.mp hupdate
    obtain ⟨_, hstatus, hupdate⟩ := bind_eq_ok.mp hupdate
    obtain ⟨_, -, hupdate⟩ := bind_eq_ok.mp hupdate
    rw [Panic.unless_eq_ok] at hstatus
    obtain ⟨hok, hempty⟩ := hcareful holder monitor ok hlookup hmonitor
    have hid := latestUpdateId_of_updateMonitor hmonitor
    have hle := latestUpdateId_le_of_updateMonitor hmonitor
    have hgrows := session.chain.persister.grows_call c (some update.updateId)
      (if ok then some update.updateId else none) status
    have happlied : ∀ x, x ∈ session.applied ++ [(c, update.updateId)] ↔
        x ∈ session.applied ∨ x = (c, monitor.latestUpdateId) := by simp [hid]
    have hpending : ∀ k ∈ holder.pendingMonitorUpdates,
        ⟨c, some k⟩ ∈ (session.chain.persister.call c (some update.updateId)
          (if ok then some update.updateId else none) status).writes ∨
        (c, k) ∈ (session.chain.persister.call c (some update.updateId)
          (if ok then some update.updateId else none) status).asyncCompletedUpdates := by
      intro k hk
      rw [hgrows.queue]
      exact (h.pending c holder hlookup k hk).imp_left fun hw => hgrows.writes hw
    have hold : ∀ (more : List ℕ) (persisted : List (ChannelId × ℕ)),
        ∀ holder' ∈ session.chain.monitors.lookup c,
        holder'.monitor.latestUpdateId ≤ monitor.latestUpdateId ∧
        ∀ k ∈ holder'.pendingMonitorUpdates, k ∈ holder.pendingMonitorUpdates ++ more ∨
          (c, k) ∈ persisted := by
      rw [hlookup]
      rintro more persisted _ ⟨⟩
      exact ⟨hle, fun k hk => .inl (mem_append_left _ hk)⟩
    have hdefer := Except.ok.inj hupdate
    simp only [ChainMonitor.deferCompletion] at hdefer
    cases status with
    | completed =>
      have hmem : (c, update.updateId) ∈ (session.chain.persister.call c (some update.updateId)
          (if ok then some update.updateId else none) .completed).persisted :=
        Persister.mem_persisted_call _ _ _ (if ok then some update.updateId else none)
      split at hdefer
      next hclosed =>
        cases hdefer
        have hnil : holder.pendingMonitorUpdates ++ [] = [] := by
          rw [hempty hclosed.1 rfl, append_nil]
        refine ⟨nofun, ?_⟩
        refine h.replace rfl hgrows ?_ (.inr ⟨(append_assoc _ _ _).symm, hnil⟩)
          (.refl _) (.inr ?_) happlied (hold _ _) (.inr (hid ▸ hmem))
        · intro k hk
          exact (mem_append.mp hk).elim (hpending k) nofun
        · exact mem_append_left _ (mem_append_right _ mem_concat_self)
      · cases hdefer
        refine ⟨fun _ => hmem, ?_⟩
        refine h.replace rfl hgrows ?_ (.inl rfl) (subset_append_left _ _) (.inr ?_) happlied
          (hold _ _) (.inr (hid ▸ hmem))
        · intro k hk
          exact (mem_append.mp hk).elim (hpending k) nofun
        · rw [hid]
          exact mem_append_right _ mem_concat_self
    | inProgress =>
      have htrue : ok = true := by
        cases ok with
        | true => rfl
        | false => cases hok rfl
      rw [if_neg (fun hc => by cases hc.2)] at hdefer
      cases hdefer
      refine ⟨nofun, ?_⟩
      refine h.replace rfl hgrows ?_ (.inl rfl) (.refl _) (.inl ?_) happlied
        (hold _ _) (.inl ?_)
      · intro k hk
        rcases mem_append.mp hk with hk | hk
        · exact hpending k hk
        · rw [mem_singleton.mp hk]
          refine .inl ?_
          rw [htrue]
          exact Persister.mem_writes_call _ c (some update.updateId) update.updateId
      · exact append_ne_nil_of_right_ne_nil _ (cons_ne_nil _ _)
      · rw [hid]
        exact mem_concat_self
    | unrecoverableError => exact absurd rfl hstatus

theorem setPendingOps (ops : List (PendingMonitorOp σ π)) :
    Tracked { session with chain := { session.chain with pendingOps := ops } } :=
  ⟨h.applied, h.latest, h.emitted, h.pending, h.queued, h.told⟩

/-- A call that returned `Completed` and was announced by an event, or is not the only one pending,
need not be remembered. -/
theorem forget
    {returned : List (ChannelId × ℕ)} (hreturned : session.returned ⊆ returned ++ [(c, k)])
    (htold : ∀ holder, session.chain.monitors.lookup c = some holder →
      holder.pendingMonitorUpdates ≠ [] ∨ (c, holder.monitor.latestUpdateId) ∈ session.emitted) :
    Tracked { session with returned := returned } where
  applied := h.applied
  latest := h.latest
  emitted := h.emitted
  pending := h.pending
  queued := h.queued
  told := by
    intro c' holder hlookup
    by_cases hc : c' = c
    · subst hc
      exact (htold holder hlookup).imp_right fun hmem => mem_append_left _ hmem
    · refine (h.told c' holder hlookup).imp_right fun hmem => ?_
      rcases mem_append.mp hmem with hmem | hmem
      · exact mem_append_left _ hmem
      · rcases mem_append.mp (hreturned hmem) with hmem | hmem
        · exact mem_append_right _ hmem
        · exact absurd (Prod.mk.inj (mem_singleton.mp hmem)).1 hc

omit h in
/-- What a flushed operation leaves: an operation that has completed is reported. -/
theorem flushed {chain chain' : ChainMonitor σ π} {applied : List (ChannelId × ℕ)}
    (h : Tracked { session with
      chain := chain, applied := applied, returned := session.nowReturned c k status })
    (hpersisted : status = .completed → (c, k) ∈ chain.persister.persisted)
    (hflushed : chain.flushed c k status = .ok chain') :
    Tracked { session with chain := chain', applied := applied } := by
  cases status with
  | completed =>
    simp only [ChainMonitor.flushed] at hflushed
    split at hflushed
    next updated hupdated =>
      obtain rfl := Except.ok.inj hflushed
      have heq : updated = chain.updated (c, k) := by
        rw [ChainMonitor.updated, hupdated, Option.getD_some]
      rw [heq]
      refine (h.updated (hpersisted rfl)).forget (.refl _) fun holder hlookup => ?_
      exact (told_updated hlookup).imp_right fun hmem => mem_append_right _ hmem
    · cases hflushed
  | inProgress =>
    cases hflushed
    exact h
  | unrecoverableError => cases hflushed

theorem flush (hcareful : Careful effects session (.flush status))
    (hflush : session.chain.flush effects status = .ok chain) :
    Tracked { session with
      chain := chain
      applied := session.applied ++
        (session.chain.pendingOps.head?.map PendingMonitorOp.id).toList } := by
  simp only [ChainMonitor.flush] at hflush
  split at hflush
  · cases hflush
  next c monitor rest hops =>
    obtain ⟨watched, hwatch, hflushed⟩ := bind_eq_ok.mp hflush
    rw [hops]
    cases watched with
    | none => cases hflushed
    | some result =>
      obtain ⟨hpersisted, h₁⟩ := (h.setPendingOps rest).watch hwatch
      exact flushed h₁ hpersisted hflushed
  next c update rest hops =>
    obtain ⟨result, hupdate, hflushed⟩ := bind_eq_ok.mp hflush
    rw [hops]
    have hcareful' : CarefulUpdate effects { session.chain with pendingOps := rest } c update
        status := hcareful c update rest hops
    obtain ⟨hpersisted, h₁⟩ := (h.setPendingOps rest).update hcareful' hupdate
    exact flushed h₁ hpersisted hflushed

theorem setContent
    (hlookup : session.chain.monitors.lookup c = some holder) (content : σ) {persister : Persister}
    (hgrows : session.chain.persister.Grows persister) :
    Tracked { session with
      chain := { session.chain with persister := persister }.setHolder c
        { holder with monitor := { holder.monitor with content := content } } } := by
  refine h.rehold rfl hgrows (fun k hk => ?_) (.inl rfl) (.refl _)
    (h.told c holder hlookup) hlookup rfl rfl fun k hk => .inl hk
  exact (h.pending c holder hlookup k hk).imp (fun hw => hgrows.writes hw) fun hq =>
    hgrows.queue.symm ▸ hq

theorem processChainData (c : ChannelId) (content : σ)
    (sync : Option UpdateStatus) :
    Tracked { session with chain := session.chain.processChainData c content sync } := by
  simp only [ChainMonitor.processChainData]
  split
  · exact h
  next holder hlookup =>
    cases sync with
    | none => exact h.setContent hlookup content (.refl _)
    | some status =>
      exact h.setContent hlookup content (session.chain.persister.grows_call c none none status)

theorem writeCompleted {position : ℕ} {write : Write}
    (hwrite : session.chain.persister.writes[position]? = some write) :
    Tracked { session with
      chain := (session.chain.takeWrite position).writeCompleted write } := by
  obtain ⟨c, completion⟩ := write
  -- A write that is not the one at this position is still in progress.
  have hother : ∀ w ∈ session.chain.persister.writes, w ≠ ⟨c, completion⟩ →
      w ∈ session.chain.persister.writes.eraseIdx position := by
    intro w hw hne
    obtain ⟨i, hi⟩ := mem_iff_getElem?.mp hw
    refine mem_eraseIdx_iff_getElem?.mpr ⟨i, ?_, hi⟩
    rintro rfl
    exact hne (Option.some.inj (hi.symm.trans hwrite))
  cases completion with
  | none =>
    refine h.setPersister _ (.refl _) (fun c' holder hlookup k hk => ?_) h.queued
    exact (h.pending c' holder hlookup k hk).imp_left fun hw => hother _ hw (by simp)
  | some k =>
    have hqueued : ∀ x ∈ session.chain.persister.asyncCompletedUpdates,
        x ∈ session.chain.persister.persisted ++ [(c, k)] := fun x hx =>
      mem_append_left _ (h.queued x hx)
    by_cases hasync : session.chain.persister.async = true
    · rw [show (session.chain.takeWrite position).writeCompleted ⟨c, some k⟩ = _ from
        if_pos hasync]
      -- The completion goes from the writes to the queue.
      refine h.setPersister _ (subset_append_left _ _) (fun c' holder hlookup k' hk' => ?_) ?_
      · rcases h.pending c' holder hlookup k' hk' with hw | hq
        · by_cases heq : (c', k') = (c, k)
          · exact .inr (mem_append_right _ (mem_singleton.mpr heq))
          · refine .inl (hother _ hw fun hwrite => heq ?_)
            obtain ⟨rfl, hk⟩ := Write.mk.inj hwrite
            exact congrArg _ (Option.some.inj hk)
        · exact .inr (mem_append_left _ hq)
      · intro x hx
        rcases mem_append.mp hx with hx | hx
        · exact hqueued x hx
        · exact mem_append_right _ hx
    · rw [show (session.chain.takeWrite position).writeCompleted ⟨c, some k⟩ = _ from
        (if_neg hasync).trans (updated_setPersister _ session.chain (c, k))]
      -- The completion is processed: only then can the write be forgotten.
      have hreported := h.setPersister
        { session.chain.persister with persisted := session.chain.persister.persisted ++ [(c, k)] }
        (subset_append_left _ _) h.pending hqueued
      have hupdated := hreported.updated (mem_append_right _ (mem_singleton_self (c, k)))
      rw [updated_setPersister] at hupdated
      refine hupdated.setPersister
        { session.chain.persister with
          writes := session.chain.persister.writes.eraseIdx position
          persisted := session.chain.persister.persisted ++ [(c, k)] }
        (.refl _) (fun c' holder hlookup k' hk' => ?_) hqueued
      obtain ⟨hne, holder₀, hlookup₀, hk₀⟩ := pending_updated hlookup hk'
      refine (h.pending c' holder₀ hlookup₀ k' hk₀).imp_left fun hw => hother _ hw fun hwrite => ?_
      obtain ⟨rfl, hk⟩ := Write.mk.inj hwrite
      exact hne (congrArg _ (Option.some.inj hk))

theorem foldl_updated
    (hpersisted : ∀ x ∈ completed, x ∈ session.chain.persister.persisted) :
    Tracked { session with chain := completed.foldl ChainMonitor.updated session.chain } := by
  induction completed generalizing session with
  | nil => exact h
  | cons x completed ih =>
    have h₁ := h.updated (hpersisted x mem_cons_self)
    refine ih h₁ fun y hy => ?_
    show y ∈ (session.chain.updated x).persister.persisted
    rw [persister_updated]
    exact hpersisted y (mem_cons_of_mem _ hy)

theorem release :
    Tracked { session with
      chain := session.chain.releasePendingMonitorEvents.1
      released := session.released ++ session.chain.releasePendingMonitorEvents.2 } := by
  have hfold := h.foldl_updated session.chain.persister.asyncCompletedUpdates h.queued
  -- The queue can be emptied: nothing that was in it is pending any more.
  have hempty := hfold.setPersister { session.chain.persister with asyncCompletedUpdates := [] }
    ?_ ?_ ?_
  · simp only [ChainMonitor.releasePendingMonitorEvents]
    rw [foldl_updated_setPersister]
    refine ⟨hempty.applied, hempty.latest, ?_, hempty.pending, hempty.queued, ?_⟩
    · intro c n hn
      refine hempty.emitted c n ?_
      simpa only [Session.emitted, append_nil] using hn
    · intro c holder hlookup
      refine (hempty.told c holder hlookup).imp_right fun hmem => ?_
      simpa only [Session.emitted, append_nil] using hmem
  · show (List.foldl _ session.chain _).persister.persisted ⊆ _
    rw [persister_foldl_updated]
    exact List.Subset.refl _
  · intro c holder hlookup k hk
    obtain ⟨hnot, holder₀, hlookup₀, hk₀⟩ := pending_foldl_updated hlookup hk
    exact .inl ((h.pending c holder₀ hlookup₀ k hk₀).resolve_right hnot)
  · exact fun x hx => nomatch hx

theorem watchChannel
    (hwatch : session.chain.watchChannel c monitor status = .ok (some (chain, status'))) :
    Tracked { session with
      chain := chain
      applied := session.nowApplied c monitor.latestUpdateId
      returned := session.nowReturned c monitor.latestUpdateId status' } := by
  by_cases hdeferred : session.chain.deferred = true
  · rw [ChainMonitor.watchChannel, if_pos hdeferred] at hwatch
    rw [Session.nowApplied, if_pos hdeferred]
    split at hwatch
    · cases Except.ok.inj hwatch
    · cases hwatch
      exact h.setPendingOps _
  · rw [ChainMonitor.watchChannel, if_neg hdeferred] at hwatch
    rw [Session.nowApplied, if_neg hdeferred]
    exact (h.watch hwatch).2

theorem updateChannel {update : ChannelMonitorUpdate π}
    (hcareful : Careful effects session (.updateChannel c update status))
    (hupdate : session.chain.updateChannel effects c update status = .ok (chain, status')) :
    Tracked { session with
      chain := chain
      applied := session.nowApplied c update.updateId
      returned := session.nowReturned c update.updateId status' } := by
  by_cases hdeferred : session.chain.deferred = true
  · rw [ChainMonitor.updateChannel, if_pos hdeferred] at hupdate
    rw [Session.nowApplied, if_pos hdeferred]
    obtain ⟨-, -, hupdate⟩ := bind_eq_ok.mp hupdate
    cases hupdate
    exact h.setPendingOps _
  · rw [ChainMonitor.updateChannel, if_neg hdeferred] at hupdate
    rw [Session.nowApplied, if_neg hdeferred]
    exact (h.update (hcareful (Bool.eq_false_iff.mpr hdeferred)) hupdate).2

/-- **Step.** A careful step keeps the bookkeeping. -/
theorem step {event : ChainEvent σ π}
    (hcareful : Careful effects session event)
    (hstep : session.step effects event = some session') : Tracked session' := by
  cases event with
  | watchChannel c monitor status =>
    simp only [Session.step] at hstep
    split at hstep
    · split at hstep
      next chain status' hwatch =>
        cases hstep
        exact h.watchChannel hwatch
      · cases hstep
    · cases hstep
  | loadExistingMonitor c monitor =>
    obtain ⟨chain, hload, rfl⟩ := Option.map_eq_some_iff.mp hstep
    exact h.load hload
  | updateChannel c update status =>
    simp only [Session.step] at hstep
    split at hstep
    · split at hstep
      next chain status' hupdate =>
        cases hstep
        exact h.updateChannel hcareful hupdate
      · cases hstep
    · cases hstep
  | flush status =>
    simp only [Session.step] at hstep
    split at hstep
    · split at hstep
      next chain hflush =>
        cases hstep
        exact h.flush hcareful hflush
      · cases hstep
    · cases hstep
  | processChainData c content sync =>
    cases hstep
    exact h.processChainData c content sync
  | writeCompleted position =>
    obtain ⟨write, hwrite, rfl⟩ := Option.map_eq_some_iff.mp hstep
    exact h.writeCompleted hwrite
  | releasePendingMonitorEvents =>
    cases hstep
    exact h.release

end Tracked

/-! ### Careful runs -/

inductive CarefulRun (effects : Effects σ π) (deferred async : Bool) : Session σ π → Prop
  | new : CarefulRun effects deferred async (Session.new deferred async)
  | step {session session' : Session σ π} {event : ChainEvent σ π}
    (before : CarefulRun effects deferred async session)
    (careful : Careful effects session event)
    (step : session.step effects event = some session') :
    CarefulRun effects deferred async session'

/-- Events that can be taken carefully, one after the other, make a careful run. -/
theorem CarefulRun.foldlM {deferred async : Bool} {events : List (ChainEvent σ π)}
    (h : CarefulRun effects deferred async session)
    (hevents : events.foldlM (fun session event =>
      if Careful effects session event then session.step effects event else none) session =
        some session') : CarefulRun effects deferred async session' := by
  induction events generalizing session with
  | nil =>
    cases hevents
    exact h
  | cons event events ih =>
    rw [foldlM_cons] at hevents
    obtain ⟨next, hnext, hevents⟩ := Option.bind_eq_some_iff.mp hevents
    split at hnext
    next hcareful =>
      exact ih (h.step hcareful hnext) hevents
    · cases hnext

/-- **Run.** The bookkeeping is right in every careful run. -/
theorem CarefulRun.tracked {deferred async : Bool}
    (h : CarefulRun effects deferred async session) : Tracked session := by
  induction h with
  | new => exact ⟨nofun, nofun, nofun, nofun, nofun, nofun⟩
  | step _ careful step ih => exact ih.step careful step

/-- Every write has completed and every completion has been processed. -/
def Session.Settled (session : Session σ π) : Prop :=
  session.chain.pendingOps = [] ∧ session.chain.persister.writes = [] ∧
    session.chain.persister.asyncCompletedUpdates = []

/-- Completion is reported exactly: an event with id `n` only when every update up to `n` has been
reported as persisted, and, when all is settled, an event with the last id of every channel, or a
call that returned `Completed`, with nothing pending. -/
def Session.Exact (session : Session σ π) : Prop :=
  (∀ c n, (c, n) ∈ session.emitted → ∀ k, (c, k) ∈ session.applied → k ≤ n →
    (c, k) ∈ session.chain.persister.persisted) ∧
  (session.Settled → ∀ c holder, session.chain.monitors.lookup c = some holder →
    holder.pendingMonitorUpdates = [] ∧
      (c, holder.monitor.latestUpdateId) ∈ session.emitted ++ session.returned)

/-- **Completion is exact in careful runs**: with deferred writes or not, over the asynchronous
persister or another one. -/
theorem completion_exact (effects : Effects σ π) (deferred async : Bool) (session : Session σ π)
    (h : CarefulRun effects deferred async session) : session.Exact := by
  have htracked := h.tracked
  refine ⟨fun c n hn => (htracked.emitted c n hn).2, ?_⟩
  rintro ⟨-, hwrites, hqueue⟩ c holder hlookup
  have hnone : holder.pendingMonitorUpdates = [] := by
    refine eq_nil_iff_forall_not_mem.mpr fun k hk => ?_
    rcases htracked.pending c holder hlookup k hk with hw | hq
    · rw [hwrites] at hw
      cases hw
    · rw [hqueue] at hq
      cases hq
  exact ⟨hnone, (htracked.told c holder hlookup).resolve_left fun hne => hne hnone⟩

/-! ### Concrete runs -/

/-- A monitor that only knows whether the funding output was spent. -/
def spentOnly : Effects Bool Unit where
  apply := fun content _ => .ok (content, true)
  failHtlcsAfterFundingSpend := fun content _ => content
  closedOnchain := id

/-- A new channel, the write of its monitor having completed, with one update. -/
def updateEvents : List (ChainEvent Bool Unit) :=
  [.watchChannel 0 (monitorAt 0 false) .inProgress, .writeCompleted 0,
    .updateChannel 0 (oneStep 1 .commitmentSecret) .inProgress, .writeCompleted 0,
    .releasePendingMonitorEvents]

theorem completion_exact_update :
    ∃ session, CarefulRun spentOnly false true session ∧ session.Exact ∧
      (0, 1) ∈ session.released := by
  have hrun : (updateEvents.foldlM (fun session event =>
      if Careful spentOnly session event then session.step spentOnly event else none)
        (Session.new false true)).any
      (fun session => decide ((0, 1) ∈ session.released)) = true := by
    decide +kernel
  obtain ⟨session, hsession, hreleased⟩ := (Option.any_eq_true _ _).mp hrun
  have hcareful : CarefulRun spentOnly false true session := CarefulRun.new.foldlM hsession
  exact ⟨session, hcareful, completion_exact spentOnly false true session hcareful,
    of_decide_eq_true hreleased⟩

/-- The funding output is spent, and an update of the commitment comes after it. -/
def refusedEvents : List (ChainEvent Bool Unit) :=
  [.watchChannel 0 (monitorAt 0 false) .inProgress, .writeCompleted 0,
    .releasePendingMonitorEvents, .processChainData 0 true none,
    .updateChannel 0 (oneStep 1 .commitmentSecret) .inProgress, .writeCompleted 0,
    .releasePendingMonitorEvents]

/-- A preimage comes after the funding output was spent, while an update is being written. -/
def earlyEvents : List (ChainEvent Bool Unit) :=
  [.watchChannel 0 (monitorAt 0 false) .completed,
    .updateChannel 0 (oneStep 1 .commitmentSecret) .inProgress, .processChainData 0 true none,
    .updateChannel 0 (oneStep 2 .paymentPreimage) .completed]

/-- **The two cases.** Over the asynchronous persister the id of a refused update stays pending when
all is settled; over another one the event for an update of a closed channel comes before the update
ahead of it is persisted. -/
theorem careless_updates :
    (∃ session, refusedEvents.foldlM (Session.step spentOnly) (Session.new false true) =
      some session ∧ ¬ session.Exact) ∧
    ∃ session, earlyEvents.foldlM (Session.step spentOnly) (Session.new false false) =
      some session ∧ ¬ session.Exact := by
  constructor
  · have hrun : (refusedEvents.foldlM (Session.step spentOnly) (Session.new false true)).any
        (fun session => session.chain.pendingOps.isEmpty &&
          session.chain.persister.writes.isEmpty &&
          session.chain.persister.asyncCompletedUpdates.isEmpty &&
          (session.chain.monitors.lookup 0).any fun holder =>
            decide (holder.pendingMonitorUpdates = [1])) = true := by decide +kernel
    obtain ⟨session, hsession, hfacts⟩ := (Option.any_eq_true _ _).mp hrun
    simp only [Bool.and_eq_true, List.isEmpty_iff, Option.any_eq_true, decide_eq_true_eq] at hfacts
    obtain ⟨⟨⟨hops, hwrites⟩, hqueue⟩, holder, hlookup, hpending⟩ := hfacts
    refine ⟨session, hsession, fun hexact => ?_⟩
    have hnone := (hexact.2 ⟨hops, hwrites, hqueue⟩ 0 holder hlookup).1
    cases hpending.symm.trans hnone
  · have hrun : (earlyEvents.foldlM (Session.step spentOnly) (Session.new false false)).any
        (fun session => decide ((0, 2) ∈ session.emitted ∧ (0, 1) ∈ session.applied ∧
          (0, 1) ∉ session.chain.persister.persisted)) = true := by decide +kernel
    obtain ⟨session, hsession, hfacts⟩ := (Option.any_eq_true _ _).mp hrun
    obtain ⟨hemitted, happlied, hnot⟩ := of_decide_eq_true hfacts
    exact ⟨session, hsession, fun hexact => hnot (hexact.1 0 2 hemitted 1 happlied (by decide))⟩

end PqLightning.Persist
