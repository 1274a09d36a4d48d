import PqLightning.Basic

/-!
# Updating a channel monitor

`ChannelMonitorImpl::update_monitor` of `chain/channelmonitor.rs`, as far as the persistence of
monitors depends on it: the order of the update ids, the lockdown of a channel closed off chain, and
whether an update is refused. What the single steps of an update do to the rest of the monitor is a
parameter (`Effects`), and so is what the rest of the monitor knows about the chain.
-/

namespace PqLightning.Persist

open List

inductive StepKind where
  | latestHolderCommitmentTXInfo
  | latestHolderCommitment
  | latestCounterpartyCommitmentTXInfo
  | latestCounterpartyCommitment
  | paymentPreimage
  | commitmentSecret
  | renegotiatedFunding
  | renegotiatedFundingLocked
  | channelForceClosed
  | shutdownScript
  | releasePaymentComplete
deriving DecidableEq, Repr

/-- `is_pre_close_update`, of one step. -/
def StepKind.isPreClose : StepKind → Bool
  | .paymentPreimage | .channelForceClosed | .releasePaymentComplete => false
  | _ => true

/-- A `ChannelMonitorUpdateStep` with its data. -/
structure UpdateStep (π : Type) where
  kind : StepKind
  payload : π
deriving DecidableEq

structure ChannelMonitorUpdate (π : Type) where
  updateId : ℕ
  updates : List (UpdateStep π)
  /-- The id is a `u64`. -/
  updateId_lt : updateId < 2 ^ 64
deriving DecidableEq

/-- `struct ChannelMonitorImpl`: the fields the order of updates depends on, and the others. -/
structure ChannelMonitor (σ : Type) where
  latestUpdateId : ℕ
  lockdownFromOffchain : Bool
  content : σ
  /-- The id is a `u64`. -/
  latestUpdateId_lt : latestUpdateId < 2 ^ 64
deriving DecidableEq

/-- A monitor after the update with this id. -/
def monitorAt {σ : Type} (updateId : UInt64) (content : σ) : ChannelMonitor σ :=
  ⟨updateId.toNat, false, content, updateId.toNat_lt⟩

def oneStep (updateId : UInt64) (kind : StepKind) : ChannelMonitorUpdate Unit :=
  ⟨updateId.toNat, [⟨kind, ()⟩], updateId.toNat_lt⟩

/-- What happens to the rest of a monitor. -/
structure Effects (σ π : Type) where
  /-- A step: a panic, or the new content and whether the step succeeded. -/
  apply : σ → UpdateStep π → Except Panic (σ × Bool)
  /-- `fail_htlcs_from_update_after_funding_spend`, for the steps of an update. -/
  failHtlcsAfterFundingSpend : σ → List (UpdateStep π) → σ
  /-- `funding_spend_seen || holder_tx_signed` -/
  closedOnchain : σ → Bool

variable {σ π : Type}

def legacyClosedChannelUpdateId : ℕ := 2 ^ 64 - 1

variable (effects : Effects σ π)

variable (monitor : ChannelMonitor σ) (update : ChannelMonitorUpdate π)

def ChannelMonitor.noFurtherUpdatesAllowed : Bool :=
  effects.closedOnchain monitor.content || monitor.lockdownFromOffchain

def checkLockdown : Except Panic Unit :=
  if update.updateId = legacyClosedChannelUpdateId ∨ monitor.lockdownFromOffchain then
    match update.updates with
    | [step] =>
      match step.kind with
      | .releasePaymentComplete => .ok ()
      | .channelForceClosed => .ok ()
      | .paymentPreimage => Panic.unless monitor.lockdownFromOffchain .debugAssertion
      | _ => .error .unreachable
    | _ => .error .assertion
  else .ok ()

def checkOrder : Except Panic Unit :=
  if update.updateId = legacyClosedChannelUpdateId then .ok ()
  else do
    let next ← addU64 monitor.latestUpdateId 1
    Panic.unless (next = update.updateId) .unreachable

def applyStep (s : ChannelMonitor σ × Bool) (step : UpdateStep π) :
    Except Panic (ChannelMonitor σ × Bool) := do
  Panic.unless (step.kind = .latestHolderCommitmentTXInfo → ¬ s.1.lockdownFromOffchain) .unreachable
  Panic.unless (step.kind = .latestHolderCommitment → ¬ s.1.lockdownFromOffchain) .assertion
  let (content, ok) ← effects.apply s.1.content step
  let lockdown := s.1.lockdownFromOffchain || step.kind = .channelForceClosed
  .ok ({ s.1 with lockdownFromOffchain := lockdown, content := content }, s.2 && ok)

def updateMonitor : Except Panic (ChannelMonitor σ × Bool) := do
  checkLockdown monitor update
  checkOrder monitor update
  let (monitor, ok) ← update.updates.foldlM (applyStep effects) (monitor, true)
  let monitor := { monitor with
    latestUpdateId := update.updateId
    latestUpdateId_lt := update.updateId_lt
    content := effects.failHtlcsAfterFundingSpend monitor.content update.updates }
  let refused := monitor.noFurtherUpdatesAllowed effects ∧
    update.updates.any (fun step => step.kind.isPreClose)
  .ok (monitor, ok && !refused)

variable {update : ChannelMonitorUpdate π}

variable {effects : Effects σ π}

theorem latestUpdateId_of_updateMonitor {monitor monitor' : ChannelMonitor σ} {ok : Bool}
    (h : updateMonitor effects monitor update = .ok (monitor', ok)) :
    monitor'.latestUpdateId = update.updateId := by
  simp only [updateMonitor, bind_eq_ok] at h
  obtain ⟨_, -, _, -, s, -, h⟩ := h
  rw [← (ok_pair_inj h).1]

/-- An update that does not have the legacy id is applied only to the monitor before it. -/
theorem updateId_of_updateMonitor {monitor : ChannelMonitor σ} {r : ChannelMonitor σ × Bool}
    (h : updateMonitor effects monitor update = .ok r)
    (hid : update.updateId ≠ legacyClosedChannelUpdateId) :
    update.updateId = monitor.latestUpdateId + 1 := by
  simp only [updateMonitor, bind_eq_ok] at h
  obtain ⟨_, -, _, horder, -⟩ := h
  rw [checkOrder, if_neg hid] at horder
  obtain ⟨next, hnext, heq⟩ := bind_eq_ok.mp horder
  rw [Panic.unless_eq_ok] at heq
  rw [addU64] at hnext
  split at hnext
  · rw [← heq, ← Except.ok.inj hnext]
  · cases hnext

theorem latestUpdateId_le_of_updateMonitor {monitor monitor' : ChannelMonitor σ} {ok : Bool}
    (h : updateMonitor effects monitor update = .ok (monitor', ok)) :
    monitor.latestUpdateId ≤ monitor'.latestUpdateId := by
  rw [latestUpdateId_of_updateMonitor h]
  by_cases hlegacy : update.updateId = legacyClosedChannelUpdateId
  · rw [hlegacy]
    exact Nat.le_pred_of_lt monitor.latestUpdateId_lt
  · rw [updateId_of_updateMonitor h hlegacy]
    exact Nat.le_succ _

/-- The monitors that come from `base` by applying updates in order, each one numbered one higher
than the monitor it is applied to. The history says of each update whether the call returned `Ok`:
one that returned an error has changed the monitor all the same. -/
inductive Lineage (effects : Effects σ π) (base : ChannelMonitor σ) :
    List (ChannelMonitorUpdate π × Bool) → ChannelMonitor σ → Prop
  | base : Lineage effects base [] base
  | update {history : List (ChannelMonitorUpdate π × Bool)} {monitor monitor' : ChannelMonitor σ}
      {update : ChannelMonitorUpdate π} {ok : Bool} :
      Lineage effects base history monitor →
      update.updateId = monitor.latestUpdateId + 1 →
      updateMonitor effects monitor update = .ok (monitor', ok) →
      Lineage effects base (history ++ [(update, ok)]) monitor'

namespace Lineage

variable {effects : Effects σ π} {base monitor : ChannelMonitor σ}
  {history : List (ChannelMonitorUpdate π × Bool)}

theorem latestUpdateId (h : Lineage effects base history monitor) :
    monitor.latestUpdateId = base.latestUpdateId + history.length := by
  induction h with
  | base => rfl
  | update _ hid hupdate ih =>
    rw [latestUpdateId_of_updateMonitor hupdate, hid, ih, length_append,
      length_singleton, Nat.add_assoc]

/-- Every monitor on the way is in the lineage, and the next update takes it to the next one. -/
theorem take (h : Lineage effects base history monitor) {n : ℕ} (hn : n ≤ history.length) :
    ∃ monitor', Lineage effects base (history.take n) monitor' := by
  induction h with
  | base => exact ⟨base, by rw [take_nil]; exact .base⟩
  | @update history monitor monitor' update ok hprev hid hupdate ih =>
    rcases Nat.lt_or_ge n (history.length + 1) with hlt | hge
    · obtain ⟨m, hm⟩ := ih (by omega)
      rw [take_append_of_le_length (by omega)]
      exact ⟨m, hm⟩
    · rw [take_of_length_le (by simpa using hge)]
      exact ⟨monitor', .update hprev hid hupdate⟩

theorem unique {monitor' : ChannelMonitor σ} (h : Lineage effects base history monitor)
    (h' : Lineage effects base history monitor') : monitor = monitor' := by
  induction h generalizing monitor' with
  | base =>
    generalize hnil : ([] : List (ChannelMonitorUpdate π × Bool)) = l at h'
    cases h' with
    | base => rfl
    | update => simp at hnil
  | @update history m m₁ update ok _ _ hupdate ih =>
    generalize hcons : history ++ [(update, ok)] = l at h'
    cases h' with
    | base => simp at hcons
    | @update history' m' _ update' ok' hprev' _ hupdate' =>
      obtain ⟨rfl, heq⟩ := append_inj' hcons rfl
      obtain ⟨rfl, rfl⟩ := Prod.mk.inj (singleton_inj.mp heq)
      rw [ih hprev'] at hupdate
      exact (Prod.mk.inj (Except.ok.inj (hupdate.symm.trans hupdate'))).1

/-- **The next update.** A monitor in the middle of a lineage is taken to the next one by the update
that comes next in the history. -/
theorem next (h : Lineage effects base history monitor) {n : ℕ}
    {ok : Bool} (hnext : history[n]? = some (update, ok)) {m : ChannelMonitor σ}
    (hm : Lineage effects base (history.take n) m) :
    ∃ m', updateMonitor effects m update = .ok (m', ok) ∧
      update.updateId = m.latestUpdateId + 1 ∧ Lineage effects base (history.take (n + 1)) m' := by
  have hlt : n < history.length := (List.getElem?_eq_some_iff.mp hnext).1
  obtain ⟨m', hm'⟩ := h.take (n := n + 1) hlt
  have htake : history.take (n + 1) = history.take n ++ [(update, ok)] := by
    rw [take_add_one, hnext]
    rfl
  refine ⟨m', ?_⟩
  generalize hl : history.take (n + 1) = l at hm'
  cases hm' with
  | base => simp [htake] at hl
  | @update history' m'' _ update' ok' hprev hid hupdate =>
    obtain ⟨rfl, heq⟩ := append_inj' (htake.symm.trans hl) rfl
    obtain ⟨rfl, rfl⟩ := Prod.mk.inj (singleton_inj.mp heq)
    obtain rfl := hm.unique hprev
    exact ⟨hupdate, hid, .update hm hid hupdate⟩

theorem updateId (h : Lineage effects base history monitor) {n : ℕ} {ok : Bool}
    (hn : history[n]? = some (update, ok)) : update.updateId = base.latestUpdateId + n + 1 := by
  have hlt : n < history.length := (List.getElem?_eq_some_iff.mp hn).1
  obtain ⟨m, hm⟩ := h.take (n := n) (Nat.le_of_lt hlt)
  obtain ⟨m', -, hid, -⟩ := h.next hn hm
  rw [hid, hm.latestUpdateId, length_take, Nat.min_eq_left (Nat.le_of_lt hlt)]

end Lineage

end PqLightning.Persist
