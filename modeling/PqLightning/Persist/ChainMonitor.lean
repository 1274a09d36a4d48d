import PqLightning.Persist.Monitor
import PqLightning.Lib.AssocMap

/-!
# The chain monitor's bookkeeping of writes

`ChainMonitor` of `chain/chainmonitor.rs`, as far as it keeps track of which monitor updates have
been persisted: the ids of the writes in progress (`pending_monitor_updates`), the `Completed`
events it emits, and the operations it queues when writes are deferred.

The persister is either the asynchronous one, which answers every call with `InProgress` and reports
completed writes through a queue, or one that answers as it likes and calls
`channel_monitor_updated` when a write that was in progress completes. Both report the id of the
update they were given. A call without an update they report nothing for, as the documentation of
`Persist` tells them.

What the monitors do with blocks is not modelled: chain data may change the content of a monitor in
any way.
-/

namespace PqLightning.Persist

open AssocMap

abbrev ChannelId : Type := Bytes32

inductive UpdateStatus where
  | completed
  | inProgress
  | unrecoverableError
deriving DecidableEq, Repr

structure Write where
  channelId : ChannelId
  /-- What will be reported when it completes. -/
  completion : Option ℕ
deriving DecidableEq

/-- The persister: `async_completed_updates`, and what it has been asked and has reported. -/
structure Persister where
  /-- It is `AsyncPersister`. -/
  async : Bool
  asyncCompletedUpdates : List (ChannelId × ℕ)
  writes : List Write
  /-- The ids that were reported persisted, by an answer or later. -/
  persisted : List (ChannelId × ℕ)

/-- A call of the persister that answers `status`. The call is made for the update `updateId`, and
`completion` is the id it is given. -/
def Persister.call (persister : Persister) (channelId : ChannelId) (updateId completion : Option ℕ)
    (status : UpdateStatus) : Persister :=
  match status with
  | .completed =>
    { persister with
      persisted := persister.persisted ++ updateId.toList.map fun id => (channelId, id) }
  | .inProgress => { persister with writes := persister.writes ++ [⟨channelId, completion⟩] }
  | .unrecoverableError => persister

structure MonitorHolder (σ : Type) where
  monitor : ChannelMonitor σ
  pendingMonitorUpdates : List ℕ

inductive PendingMonitorOp (σ π : Type) where
  | newMonitor (channelId : ChannelId) (monitor : ChannelMonitor σ)
  | update (channelId : ChannelId) (update : ChannelMonitorUpdate π)

/-- `struct ChainMonitor`. Of the pending monitor events only the completions are kept. -/
structure ChainMonitor (σ π : Type) where
  monitors : Map ChannelId (MonitorHolder σ)
  persister : Persister
  /-- The channel and the id of each `MonitorEvent::Completed`. -/
  pendingMonitorEvents : List (ChannelId × ℕ)
  deferred : Bool
  pendingOps : List (PendingMonitorOp σ π)

variable {σ π : Type}

namespace ChainMonitor

variable (self : ChainMonitor σ π)

variable (channelId : ChannelId) (monitor : ChannelMonitor σ)

def setHolder (holder : MonitorHolder σ) : ChainMonitor σ π :=
  { self with monitors := self.monitors.insert channelId holder }

/-- `MonitorEvent::Completed` with the latest id of the monitor is queued. -/
def pushCompleted : ChainMonitor σ π :=
  { self with
    pendingMonitorEvents := self.pendingMonitorEvents ++ [(channelId, monitor.latestUpdateId)] }

/-- `channel_monitor_updated`; `none` is the error that there is no such monitor. -/
def channelMonitorUpdated (completedUpdateId : ℕ) : Option (ChainMonitor σ π) :=
  match self.monitors.lookup channelId with
  | none => none
  | some holder =>
    let pending := holder.pendingMonitorUpdates.filter (· ≠ completedUpdateId)
    let self := self.setHolder channelId { holder with pendingMonitorUpdates := pending }
    if pending.isEmpty then some (self.pushCompleted channelId holder.monitor) else some self

/-- `watch_channel_internal`; `none` is the error that the channel is there already. -/
def watchChannelInternal (status : UpdateStatus) :
    Except Panic (Option (ChainMonitor σ π × UpdateStatus)) :=
  match self.monitors.lookup channelId with
  | some _ => .ok none
  | none => do
    Panic.unless (status ≠ .unrecoverableError) .unreachable
    let updateId := monitor.latestUpdateId
    let persister := self.persister.call channelId (some updateId) (some updateId) status
    let pending := if status = .inProgress then [updateId] else []
    .ok (some ({ self with persister := persister }.setHolder channelId ⟨monitor, pending⟩, status))

/-- `load_existing_monitor`, of a monitor that need not be persisted. -/
def loadExistingMonitor : Option (ChainMonitor σ π) :=
  match self.monitors.lookup channelId with
  | some _ => none
  | none => some (self.setHolder channelId ⟨monitor, []⟩)

variable (effects : Effects σ π)

/-- The end of `update_channel_internal`: an update of a closed channel that is persisted already is
reported by an event, and the call returns `InProgress`. -/
def deferCompletion (self : ChainMonitor σ π) (channelId : ChannelId)
    (monitor : ChannelMonitor σ) (ok : Bool) (status : UpdateStatus) :
    ChainMonitor σ π × UpdateStatus :=
  if (ok = false ∨ monitor.noFurtherUpdatesAllowed effects) ∧ status = .completed then
    (self.pushCompleted channelId monitor, .inProgress)
  else (self, status)

/-- `update_channel_internal`, the persister answering `status`. -/
def updateChannelInternal (self : ChainMonitor σ π)
    (channelId : ChannelId) (update : ChannelMonitorUpdate π) (status : UpdateStatus) :
    Except Panic (ChainMonitor σ π × UpdateStatus) :=
  match self.monitors.lookup channelId with
  | none => .error .unreachable
  | some holder => do
    let (monitor, ok) ← updateMonitor effects holder.monitor update
    -- An update that could not be applied is not given to the persister.
    let completion := if ok then some update.updateId else none
    let persister := self.persister.call channelId (some update.updateId) completion status
    Panic.unless (status ≠ .unrecoverableError) .unreachable
    let pending := holder.pendingMonitorUpdates ++
      if status = .inProgress then [update.updateId] else []
    Panic.unless (ok ∨ monitor.noFurtherUpdatesAllowed effects) .debugAssertion
    let self := { self with persister := persister }.setHolder channelId ⟨monitor, pending⟩
    .ok (self.deferCompletion effects channelId monitor ok status)

def isRegistered : Bool :=
  channelId ∈ self.monitors ∨ self.pendingOps.any fun op =>
    match op with
    | .newMonitor id _ => id = channelId
    | .update _ _ => false

def watchChannel (status : UpdateStatus) :
    Except Panic (Option (ChainMonitor σ π × UpdateStatus)) :=
  if self.deferred then if self.isRegistered channelId then .ok none
    else
      let ops := self.pendingOps ++ [.newMonitor channelId monitor]
      .ok (some ({ self with pendingOps := ops }, .inProgress))
  else self.watchChannelInternal channelId monitor status

def updateChannel (self : ChainMonitor σ π) (channelId : ChannelId)
    (update : ChannelMonitorUpdate π) (status : UpdateStatus) :
    Except Panic (ChainMonitor σ π × UpdateStatus) :=
  if self.deferred then do
    Panic.unless (self.isRegistered channelId) .debugAssertion
    let ops := self.pendingOps ++ [.update channelId update]
    .ok ({ self with pendingOps := ops }, .inProgress)
  else self.updateChannelInternal effects channelId update status

/-- In `flush`, after the operation: a write that has completed is reported. -/
def flushed (updateId : ℕ) (status : UpdateStatus) : Except Panic (ChainMonitor σ π) :=
  match status with
  | .completed =>
    match self.channelMonitorUpdated channelId updateId with
    | some self => .ok self
    | none => .error .debugAssertion
  | .inProgress => .ok self
  | .unrecoverableError => .error .unreachable

/-- One turn of the loop of `flush`. -/
def flush (self : ChainMonitor σ π) (status : UpdateStatus) : Except Panic (ChainMonitor σ π) :=
  match self.pendingOps with
  | [] => .error .debugAssertion
  | .newMonitor channelId monitor :: rest => do
    let watched ← { self with pendingOps := rest }.watchChannelInternal channelId monitor status
    match watched with
    | none => .error .unreachable
    | some (self, status) => self.flushed channelId monitor.latestUpdateId status
  | .update channelId update :: rest => do
    let (self, status) ←
      { self with pendingOps := rest }.updateChannelInternal effects channelId update status
    self.flushed channelId update.updateId status

/-- `update_monitor_with_chain_data`: a block changes the content of a monitor, and the full monitor
may be persisted. -/
def processChainData (content : σ) (sync : Option UpdateStatus) : ChainMonitor σ π :=
  match self.monitors.lookup channelId with
  | none => self
  | some holder =>
    let monitor := { holder.monitor with content := content }
    let persister := match sync with
      | some status => self.persister.call channelId none none status
      | none => self.persister
    { self with persister := persister }.setHolder channelId { holder with monitor := monitor }

/-- A call of `channel_monitor_updated` whose error is ignored. -/
def updated (completion : ChannelId × ℕ) : ChainMonitor σ π :=
  (self.channelMonitorUpdated completion.1 completion.2).getD self

/-- A write completes: the asynchronous persister queues its completion, any other one calls
`channel_monitor_updated`. -/
def writeCompleted (write : Write) : ChainMonitor σ π :=
  match write.completion with
  | none => self
  | some updateId =>
    let completion := (write.channelId, updateId)
    let persister := { self.persister with
      persisted := self.persister.persisted ++ [completion] }
    if persister.async then
      { self with
        persister := { persister with
          asyncCompletedUpdates := persister.asyncCompletedUpdates ++ [completion] } }
    else { self with persister := persister }.updated completion

/-- `release_pending_monitor_events`; the completions that are returned come second. -/
def releasePendingMonitorEvents : ChainMonitor σ π × List (ChannelId × ℕ) :=
  let completed := self.persister.asyncCompletedUpdates
  let self := { self with persister := { self.persister with asyncCompletedUpdates := [] } }
  let self := completed.foldl updated self
  ({ self with pendingMonitorEvents := [] }, self.pendingMonitorEvents)

end ChainMonitor

/-! ### Runs -/

/-- A chain monitor, with what it was given and what it has told its user. -/
structure Session (σ π : Type) where
  chain : ChainMonitor σ π
  /-- The ids of the monitors and updates that were given to the persister. -/
  applied : List (ChannelId × ℕ)
  /-- The calls that returned `Completed`. -/
  returned : List (ChannelId × ℕ)
  /-- The `Completed` events that were handed out. -/
  released : List (ChannelId × ℕ)

variable (session : Session σ π)

def Session.emitted : List (ChannelId × ℕ) := session.released ++ session.chain.pendingMonitorEvents

def Session.new (deferred async : Bool) : Session σ π where
  chain := ⟨∅, ⟨async, [], [], []⟩, [], deferred, []⟩
  applied := []
  returned := []
  released := []

inductive ChainEvent (σ π : Type) where
  | watchChannel (channelId : ChannelId) (monitor : ChannelMonitor σ) (status : UpdateStatus)
  | loadExistingMonitor (channelId : ChannelId) (monitor : ChannelMonitor σ)
  | updateChannel (channelId : ChannelId) (update : ChannelMonitorUpdate π) (status : UpdateStatus)
  | flush (status : UpdateStatus)
  | processChainData (channelId : ChannelId) (content : σ) (sync : Option UpdateStatus)
  | writeCompleted (position : ℕ)
  | releasePendingMonitorEvents

/-- The asynchronous persister answers `InProgress`. -/
def Persister.mayAnswer (persister : Persister) (status : UpdateStatus) : Bool :=
  persister.async → status = .inProgress

/-- What was given to the persister when a call for `updateId` has returned; a deferred one is only
queued. -/
def Session.nowApplied (channelId : ChannelId) (updateId : ℕ) : List (ChannelId × ℕ) :=
  if session.chain.deferred then session.applied else session.applied ++ [(channelId, updateId)]

/-- The calls that have returned `Completed` when one has returned `status`. -/
def Session.nowReturned (channelId : ChannelId) (updateId : ℕ)
    (status : UpdateStatus) : List (ChannelId × ℕ) :=
  if status = .completed then session.returned ++ [(channelId, updateId)] else session.returned

def PendingMonitorOp.id : PendingMonitorOp σ π → ChannelId × ℕ
  | .newMonitor channelId monitor => (channelId, monitor.latestUpdateId)
  | .update channelId u => (channelId, u.updateId)

def Session.load (chain : ChainMonitor σ π) (completion : ChannelId × ℕ) : Session σ π :=
  let persister := { chain.persister with
    persisted := chain.persister.persisted ++ [completion] }
  { session with
    chain := { chain with persister := persister }
    applied := session.applied ++ [completion]
    returned := session.returned ++ [completion] }

def ChainMonitor.takeWrite (self : ChainMonitor σ π) (position : ℕ) : ChainMonitor σ π :=
  { self with
    persister := { self.persister with writes := self.persister.writes.eraseIdx position } }

/-- A step of a run: `none` if it cannot be taken, or panics. -/
def Session.step (effects : Effects σ π) (session : Session σ π) :
    ChainEvent σ π → Option (Session σ π)
  | .watchChannel channelId monitor status =>
    if session.chain.persister.mayAnswer status then
      match session.chain.watchChannel channelId monitor status with
      | .ok (some (chain, status)) =>
        some { session with
          chain := chain
          applied := session.nowApplied channelId monitor.latestUpdateId
          returned := session.nowReturned channelId monitor.latestUpdateId status }
      | _ => none
    else none
  | .loadExistingMonitor channelId monitor =>
    (session.chain.loadExistingMonitor channelId monitor).map fun chain =>
      session.load chain (channelId, monitor.latestUpdateId)
  | .updateChannel channelId update status =>
    if session.chain.persister.mayAnswer status then
      match session.chain.updateChannel effects channelId update status with
      | .ok (chain, status) =>
        some { session with
          chain := chain
          applied := session.nowApplied channelId update.updateId
          returned := session.nowReturned channelId update.updateId status }
      | .error _ => none
    else none
  | .flush status =>
    if session.chain.persister.mayAnswer status then
      match session.chain.flush effects status with
      | .ok chain =>
        let ids := (session.chain.pendingOps.head?.map PendingMonitorOp.id).toList
        some { session with chain := chain, applied := session.applied ++ ids }
      | .error _ => none
    else none
  | .processChainData channelId content sync =>
    some { session with chain := session.chain.processChainData channelId content sync }
  | .writeCompleted position =>
    session.chain.persister.writes[position]?.map fun write =>
      { session with chain := (session.chain.takeWrite position).writeCompleted write }
  | .releasePendingMonitorEvents =>
    let (chain, events) := session.chain.releasePendingMonitorEvents
    some { session with chain := chain, released := session.released ++ events }

end PqLightning.Persist
