import PqLightning.Persist.Monitor
import PqLightning.Lib.AssocMap
import PqLightning.Lib.CrashLog

/-!
# The updating persister

`MonitorUpdatingPersister` of `util/persist.rs`, for one channel. A monitor is stored as a full
monitor under one key and as updates under a key each. Every `maximum_pending_updates`-th update is
stored by writing the full monitor, and then the updates it includes are removed.

A call of `update_persisted_channel` becomes a task: a list of operations on the store that are
issued one after the other, each when the one before it has completed. A full monitor is written
when the call is made; an update is written when the task is first polled. Tasks run side by side,
so the operations of different calls are issued in any order the executor chooses, and the store is
one that keeps the order of operations on one key only (`CrashLog`).

The bytes are not modelled: what is read back under a key is what was written there.
-/

namespace PqLightning.Persist

open AssocMap CrashLog

variable {σ π : Type}

inductive Key where
  | monitor
  | update (updateId : ℕ)
deriving DecidableEq, Repr

inductive Value (σ π : Type) where
  | monitor (monitor : ChannelMonitor σ)
  | update (update : ChannelMonitorUpdate π)

inductive Op (σ π : Type) where
  | writeMonitor (monitor : ChannelMonitor σ)
  | writeUpdate (update : ChannelMonitorUpdate π)
  | removeUpdate (updateId : ℕ)

/-- The operation when it is issued. -/
def Op.entry : Op σ π → Entry Key (Value σ π)
  | .writeMonitor monitor => ⟨.monitor, some (.monitor monitor), false⟩
  | .writeUpdate update => ⟨.update update.updateId, some (.update update), false⟩
  | .removeUpdate updateId => ⟨.update updateId, none, false⟩

/-- What is removed after a full monitor has been written. -/
inductive Cleanup where
  | nothing
  /-- `cleanup_in_range(start, end)` -/
  | range (start stop : ℕ)
  /-- `cleanup_stale_updates_for_monitor_to(latest_update_id)` -/
  | listed (latestUpdateId : ℕ)
deriving DecidableEq, Repr

/-- What a call of `update_persisted_channel` has to do: `res_a`, or `res_b` and `res_c`. -/
inductive Plan (σ π : Type) where
  | update (update : ChannelMonitorUpdate π)
  | full (monitor : ChannelMonitor σ) (cleanup : Cleanup)

def persistUpdate (maximumPendingUpdates updateId : ℕ) : Bool :=
  updateId ≠ legacyClosedChannelUpdateId ∧ maximumPendingUpdates ≠ 0 ∧
    updateId % maximumPendingUpdates ≠ 0

def updatePersistedChannel (maximumPendingUpdates : ℕ) (update : Option (ChannelMonitorUpdate π))
    (monitor : ChannelMonitor σ) : Plan σ π :=
  match update with
  | some update =>
    if persistUpdate maximumPendingUpdates update.updateId then .update update
    else if monitor.latestUpdateId = legacyClosedChannelUpdateId then
      .full monitor (.listed monitor.latestUpdateId)
    else
      .full monitor
        (.range (monitor.latestUpdateId - maximumPendingUpdates) monitor.latestUpdateId)
  | none => .full monitor .nothing

structure Task (σ π : Type) where
  /-- The id of the update that the call is about, if it is about one. -/
  covers : Option ℕ
  /-- The operation being waited for, as a position in the log. -/
  awaiting : Option ℕ
  /-- The operations to be issued next. -/
  todo : List (Op σ π)
  /-- The list of stored updates is wanted, to remove those up to this id. -/
  listing : Option ℕ
  /-- A removal that fails fails the call. -/
  strict : Bool

/-- The operations of `cleanup_in_range`. -/
def Cleanup.ops : Cleanup → List (Op σ π)
  | .range start stop => (List.range' start (stop + 1 - start)).map .removeUpdate
  | _ => []

/-- The store of a channel, and the calls made for it. -/
structure Run (σ π : Type) where
  /-- The monitor in memory. -/
  live : ChannelMonitor σ
  /-- The updates it was given, and whether applying them returned `Ok`. -/
  history : List (ChannelMonitorUpdate π × Bool)
  log : List (Entry Key (Value σ π))
  tasks : List (Task σ π)
  /-- The ids of the updates whose call has returned `Ok`. -/
  reported : List ℕ

variable (run : Run σ π)

/-- A call is made: a full monitor is written at once. -/
def Run.spawn (covers : Option ℕ) : Plan σ π → Run σ π
  | .update update =>
    let task : Task σ π := ⟨covers, none, [.writeUpdate update], none, false⟩
    { run with tasks := run.tasks ++ [task] }
  | .full monitor cleanup =>
    let listing := match cleanup with
      | .listed upTo => some upTo
      | _ => none
    let task : Task σ π := ⟨covers, some run.log.length, cleanup.ops, listing, listing.isSome⟩
    { run with
      log := run.log ++ [(Op.writeMonitor monitor).entry]
      tasks := run.tasks ++ [task] }

/-- A new channel: `persist_new_channel` has been called. -/
def Run.start (base : ChannelMonitor σ) : Run σ π :=
  Run.spawn ⟨base, [], [], [], []⟩ none (.full base .nothing)

inductive Event (π : Type) where
  /-- The monitor is updated, and the update persisted. -/
  | update (update : ChannelMonitorUpdate π)
  /-- The full monitor is persisted. -/
  | rewrite
  /-- A task issues its next operation. -/
  | issue (task : ℕ)
  /-- The operation a task waits for completes. -/
  | resolve (task : ℕ)
  /-- It fails. -/
  | fail (task : ℕ)
  /-- A task is given the list of stored updates. -/
  | list (task : ℕ) (updateIds : List ℕ)
  /-- A call returns `Ok`. -/
  | finish (task : ℕ)

variable (effects : Effects σ π)

/-- `update_channel_internal` of `chain/chainmonitor.rs`: an update that could not be applied is
persisted with the full monitor. -/
def Run.applyUpdate (maximumPendingUpdates : ℕ) (run : Run σ π)
    (update : ChannelMonitorUpdate π) : Option (Run σ π) :=
  match updateMonitor effects run.live update with
  | .error _ => none
  | .ok (live, ok) =>
    let plan := updatePersistedChannel maximumPendingUpdates (if ok then some update else none) live
    some (Run.spawn { run with live := live, history := run.history ++ [(update, ok)] }
      (some update.updateId) plan)

def Run.issueNext (i : ℕ) (task : Task σ π) : Option (Run σ π) :=
  match task.awaiting, task.listing, task.todo with
  | none, none, op :: rest =>
    some { run with
      log := run.log ++ [op.entry]
      tasks := run.tasks.set i { task with awaiting := some run.log.length, todo := rest } }
  | _, _, _ => none

def Run.goOn (i : ℕ) (task : Task σ π) : Run σ π :=
  { run with tasks := run.tasks.set i { task with awaiting := none } }

/-- A step of the system: `none` if it cannot be taken. -/
def Run.step (maximumPendingUpdates : ℕ) (run : Run σ π) : Event π → Option (Run σ π)
  | .update update =>
    if update.updateId = run.live.latestUpdateId + 1 then
      run.applyUpdate effects maximumPendingUpdates update
    else none
  | .rewrite => some (run.spawn none (updatePersistedChannel maximumPendingUpdates none run.live))
  | .issue i => run.tasks[i]? >>= fun task => run.issueNext i task
  | .resolve i =>
    run.tasks[i]? >>= fun task => task.awaiting.map fun position =>
      { run with log := run.log.modify position fun e => { e with done := true } }.goOn i task
  | .fail i =>
    run.tasks[i]? >>= fun task => task.awaiting >>= fun position =>
      run.log[position]?.map fun e =>
        if e.value.isSome ∨ task.strict then { run with tasks := run.tasks.eraseIdx i }
        else run.goOn i task
  | .list i updateIds =>
    run.tasks[i]? >>= fun task =>
      match task.awaiting, task.listing with
      | none, some upTo =>
        let stale := (updateIds.filter (· ≤ upTo)).map Op.removeUpdate
        some { run with tasks := run.tasks.set i { task with todo := stale, listing := none } }
      | _, _ => none
  | .finish i =>
    run.tasks[i]? >>= fun task =>
      match task.awaiting, task.listing, task.todo with
      | none, none, [] =>
        some { run with
          tasks := run.tasks.eraseIdx i
          reported := run.reported ++ task.covers.toList }
      | _, _, _ => none

/-- The states of the system for a new channel. -/
inductive Reachable (effects : Effects σ π) (maximumPendingUpdates : ℕ) (base : ChannelMonitor σ) :
    Run σ π → Prop
  | start : Reachable effects maximumPendingUpdates base (.start base)
  | step {run run' : Run σ π} (event : Event π) :
      Reachable effects maximumPendingUpdates base run →
      run.step effects maximumPendingUpdates event = some run' →
      Reachable effects maximumPendingUpdates base run'

/-! ### Reading a monitor back -/

structure Store (σ π : Type) where
  monitor : Option (ChannelMonitor σ)
  updates : Map ℕ (ChannelMonitorUpdate π)

variable (store : Store σ π)

def Store.get : Key → Option (Value σ π)
  | .monitor => store.monitor.map .monitor
  | .update updateId => (store.updates.lookup updateId).map .update

/-- The store is one that a crash of the system can leave. -/
def CrashStore : Prop := Survives run.log store.get

/-- The errors of `maybe_read_channel_monitor_with_updates`. -/
inductive ReadError where
  | notFound
  | monitorUpdateFailed
deriving DecidableEq, Repr

/-- Apply updates in order; the first that returns an error ends it. -/
def replay (effects : Effects σ π) : ChannelMonitor σ → List (ChannelMonitorUpdate π) →
      Except Panic (Except ReadError (ChannelMonitor σ))
  | monitor, [] => .ok (.ok monitor)
  | monitor, update :: updates => do
    let (monitor, ok) ← updateMonitor effects monitor update
    if ok then replay effects monitor updates else .ok (.error .monitorUpdateFailed)

/-- The updates that are stored and not in the monitor, in order. -/
def Store.updatesToLoad (currentUpdateId : ℕ) : List (ChannelMonitorUpdate π) :=
  let updateIds := store.updates.keys.mergeSort
  (updateIds.filter (currentUpdateId < ·)).filterMap store.updates.lookup

def maybeReadChannelMonitorWithUpdates : Except Panic (Except ReadError (ChannelMonitor σ)) :=
  match store.monitor with
  | none => .ok (.error .notFound)
  | some monitor => replay effects monitor (store.updatesToLoad monitor.latestUpdateId)

end PqLightning.Persist
