import PqLightning.Gossip.Pins
import PqLightning.Lib.LastWrite

/-!
# Channel updates in any order

`update_channel_internal` changes nothing but one direction of one channel, and that only to a newer
update. All its checks but the one of the timestamp look at parts of the graph that updates do not
change, so that the updates which are delivered decide what the graph holds in the end, and not
their order: each direction is a register that keeps the latest write (`LastWrite`).

The exception is a panic. The records of an update are parsed after its timestamp has been found to
be newer, and parsing may overflow (`parse_records`): an update which does not fit is harmless if a
newer one comes first.

## Main results

* `UpdateCall.run_eq_ok_iff` — what a call needs to be applied
* `Settled.step`, `Settled.deliver` — one more call, and all of them
* `updates_confluent_iff` — all orders lead to the same graph
-/

namespace PqLightning.Gossip

open AssocMap List AList LastWrite

/-- A call of `update_channel_internal`. -/
structure UpdateCall where
  msg : UnsignedChannelUpdate
  fullMsg : Option ChannelUpdate
  sig : Option (Bytes 64)
  onlyVerify : Bool

/-- `update_channel` -/
def UpdateCall.signed (msg : ChannelUpdate) : UpdateCall :=
  ⟨msg.contents, some msg, some msg.signature, false⟩

/-- The update of one direction. -/
def ChannelInfo.direction (channel : ChannelInfo) (fromTwo : Bool) : Option ChannelUpdateInfo :=
  if fromTwo then channel.twoToOne else channel.oneToTwo

/-- What updates leave alone. -/
def ChannelInfo.fixed (channel : ChannelInfo) : ChannelInfo :=
  { channel with oneToTwo := none, twoToOne := none }

def NetworkGraph.update (g : NetworkGraph) (scid : ℕ) (fromTwo : Bool) : Option ChannelUpdateInfo :=
  (g.channels.lookup scid).bind (·.direction fromTwo)

/-- Both graphs have the same channels and nodes. The order in which a map has its keys does not
count. -/
def NetworkGraph.Same (g g' : NetworkGraph) : Prop :=
  g' = { g with channels := g'.channels } ∧ ∀ scid, g'.channels.lookup scid = g.channels.lookup scid

variable {crypto : GossipCrypto} {around : Surroundings} {g g' g'' : NetworkGraph}
  {channel channel' : ChannelInfo} {call : UpdateCall} {calls : List UpdateCall} {scid : ℕ}
  {fromTwo : Bool}

theorem ChannelInfo.fixed_withUpdate (msg : UnsignedChannelUpdate)
    (fullMsg : Option ChannelUpdate) : (channel.withUpdate msg fullMsg).fixed = channel.fixed := by
  rw [withUpdate]
  split <;> rfl

theorem ChannelInfo.direction_withUpdate (msg : UnsignedChannelUpdate)
    (fullMsg : Option ChannelUpdate) :
    (channel.withUpdate msg fullMsg).direction fromTwo =
      if fromTwo = msg.fromTwo then some (channelUpdateInfoOf msg fullMsg)
      else channel.direction fromTwo := by
  rw [withUpdate]
  cases hfrom : msg.fromTwo <;> cases fromTwo <;> rfl

theorem ChannelInfo.ext_of_direction (hfixed : channel.fixed = channel'.fixed)
    (h : ∀ fromTwo, channel.direction fromTwo = channel'.direction fromTwo) :
    channel = channel' := by
  have hone := h false
  have htwo := h true
  cases channel
  cases channel'
  simp only [fixed, ChannelInfo.mk.injEq, direction] at hfixed hone htwo
  simp_all

namespace UpdateCall

/-- The node that makes the update. -/
def node (call : UpdateCall) (channel : ChannelInfo) : NodeId :=
  if call.msg.fromTwo then channel.nodeTwo else channel.nodeOne

/-- What the graph stores of the update. -/
def info (call : UpdateCall) : ChannelUpdateInfo := channelUpdateInfoOf call.msg call.fullMsg

def run (crypto : GossipCrypto) (around : Surroundings) (g : NetworkGraph) (call : UpdateCall) :
    Outcome NetworkGraph :=
  g.updateChannelInternal crypto around call.msg call.fullMsg call.sig call.onlyVerify

/-- The graph after a call; one that is refused changes nothing. -/
def step (crypto : GossipCrypto) (around : Surroundings) (g : NetworkGraph) (call : UpdateCall) :
    Except Panic NetworkGraph :=
  match call.run crypto around g with
  | .ok g' => .ok g'
  | .error (.refused _) => .ok g
  | .error (.panicked p) => .error p

/-- The clock does not get in the way. -/
def InTime (around : Surroundings) (call : UpdateCall) : Prop :=
  checkUpdateTime around.now call.msg.timestamp = .ok ()

/-- The checks in front of those of the timestamp and of the signature. -/
def Sound (g : NetworkGraph) (call : UpdateCall) (channel : ChannelInfo) : Prop :=
  call.msg.chainHash = g.chainHash ∧ call.msg.htlcMaximumMsat ≤ maxValueMsat ∧
    channel.fits call.msg.htlcMaximumMsat

/-- The update is valid: only its timestamp may be too old. -/
def Valid (crypto : GossipCrypto) (g : NetworkGraph) (call : UpdateCall) : Prop :=
  ∃ channel, g.channels.lookup call.msg.shortChannelId = some channel ∧ call.Sound g channel ∧
    g.checkUpdateSignature crypto call.msg (call.node channel) call.sig = .ok ()

/-- If the call gets to the records of the update, their lengths fit. -/
def RecordsFit (crypto : GossipCrypto) (g : NetworkGraph) (call : UpdateCall) : Prop :=
  ∀ channel sig key, g.channels.lookup call.msg.shortChannelId = some channel →
    call.Sound g channel →
    Newer (·.lastUpdate) call.info (channel.direction call.msg.fromTwo) →
    call.sig = some sig → crypto.validPubkey (call.node channel) →
    crypto.verifyChannelUpdate call.msg sig (call.node channel) →
    (g.nodes.lookup (call.node channel)).bind NodeInfo.pqNodeId = some key →
    (parseRecords call.msg.excessData).isOk

/-! ### One call -/

theorem checkUpdateLatest_eq_ok_iff {held : Option ChannelUpdateInfo} :
    checkUpdateLatest call.msg.timestamp held = .ok () ↔
      Newer (·.lastUpdate) call.info held := by
  cases held with
  | none => simp [checkUpdateLatest, Newer]
  | some old =>
    simp only [checkUpdateLatest, bind_eq_ok, guardWith_eq_ok, Newer, Option.mem_some_iff,
      forall_eq', info, channelUpdateInfoOf]
    constructor
    · rintro ⟨_, hle, hne⟩
      omega
    · intro hlt
      exact ⟨(), by omega, by omega⟩

/-- The call gets to the signature of the update. -/
structure Admitted (g : NetworkGraph) (call : UpdateCall) (channel : ChannelInfo) : Prop where
  known : g.channels.lookup call.msg.shortChannelId = some channel
  sound : call.Sound g channel
  newer : Newer (·.lastUpdate) call.info (channel.direction call.msg.fromTwo)

/-- The graph with the update in it. -/
def applied (g : NetworkGraph) (call : UpdateCall) (channel : ChannelInfo) : NetworkGraph :=
  { g with
    channels := g.channels.insert call.msg.shortChannelId
      (channel.withUpdate call.msg call.fullMsg) }

variable (htime : call.InTime around)

include htime

theorem run_of_admitted (h : call.Admitted g channel) :
    call.run crypto around g =
      g.checkUpdateSignature crypto call.msg (call.node channel) call.sig >>= fun _ =>
        .ok (if call.onlyVerify then g else call.applied g channel) := by
  obtain ⟨hknown, ⟨hchain, hmax, hfits⟩, hnewer⟩ := h
  have hsanity : checkMsgSanity call.msg channel = .ok () := by
    rw [checkMsgSanity, guardWith_of hfits, ok_bind]
    exact checkUpdateLatest_eq_ok_iff.mpr hnewer
  rw [run, NetworkGraph.updateChannelInternal, guardWith_of hchain, ok_bind, htime, ok_bind,
    guardWith_of hmax, ok_bind, hknown]
  dsimp only
  rw [hsanity, ok_bind]
  refine bind_congr fun _ => ?_
  split <;> rfl

/-- **What a call needs to be applied.** -/
theorem run_eq_ok_iff :
    call.run crypto around g = .ok g' ↔ ∃ channel, call.Admitted g channel ∧
      g.checkUpdateSignature crypto call.msg (call.node channel) call.sig = .ok () ∧
      g' = if call.onlyVerify then g else call.applied g channel := by
  constructor
  · intro h
    have hrun := h
    simp only [run, NetworkGraph.updateChannelInternal, bind_eq_ok, guardWith_eq_ok] at h
    obtain ⟨_, hchain, _, -, _, hmax, h⟩ := h
    split at h
    · obtain ⟨_, -, h⟩ := bind_eq_ok.mp h
      cases h
    next channel hknown =>
      obtain ⟨_, hsanity, h⟩ := bind_eq_ok.mp h
      simp only [checkMsgSanity, bind_eq_ok, guardWith_eq_ok] at hsanity
      obtain ⟨_, hfits, hlatest⟩ := hsanity
      have hadmitted : call.Admitted g channel :=
        ⟨hknown, ⟨hchain, hmax, hfits⟩, checkUpdateLatest_eq_ok_iff.mp hlatest⟩
      rw [run_of_admitted htime hadmitted] at hrun
      obtain ⟨_, hsig, hok⟩ := bind_eq_ok.mp hrun
      exact ⟨channel, hadmitted, hsig, (Except.ok.inj hok).symm⟩
  · rintro ⟨channel, hadmitted, hsig, rfl⟩
    rw [run_of_admitted htime hadmitted, hsig, ok_bind]

omit htime in
theorem guardWith_ne_panicked {p : Prop} [Decidable p] {e : LightningError} {panic : Panic} :
    (guardWith p (.refused e) : Outcome Unit) ≠ .error (.panicked panic) := by
  rw [guardWith]
  split <;> simp

omit htime in
theorem checkMsgSanity_ne_panicked {msg : UnsignedChannelUpdate} {p : Panic} :
    checkMsgSanity msg channel ≠ .error (.panicked p) := by
  have hlatest : ∀ held, checkUpdateLatest msg.timestamp held ≠ .error (.panicked p) := by
    rintro (_ | old)
    · exact nofun
    · simp [checkUpdateLatest, bind_eq_error, guardWith_ne_panicked]
  simp [checkMsgSanity, bind_eq_error, guardWith_ne_panicked, hlatest]

/-- A call panics only over the signature of the update. -/
theorem run_eq_panicked_iff {p : Panic} :
    call.run crypto around g = .error (.panicked p) ↔ ∃ channel, call.Admitted g channel ∧
      g.checkUpdateSignature crypto call.msg (call.node channel) call.sig =
        .error (.panicked p) := by
  constructor
  · intro h
    have hrun := h
    simp only [run, NetworkGraph.updateChannelInternal, bind_eq_error, guardWith_ne_panicked,
      guardWith_eq_ok, false_or] at h
    obtain ⟨_, hchain, h⟩ := h
    rcases h with h | ⟨_, -, _, hmax, h⟩
    · cases h.symm.trans htime
    split at h
    · simp [bind_eq_error, guardWith_ne_panicked] at h
    next channel hknown =>
      rcases bind_eq_error.mp h with hsanity | ⟨_, hsanity, h⟩
      · exact absurd hsanity checkMsgSanity_ne_panicked
      · simp only [checkMsgSanity, bind_eq_ok, guardWith_eq_ok] at hsanity
        obtain ⟨_, hfits, hlatest⟩ := hsanity
        have hadmitted : call.Admitted g channel :=
          ⟨hknown, ⟨hchain, hmax, hfits⟩, checkUpdateLatest_eq_ok_iff.mp hlatest⟩
        rw [run_of_admitted htime hadmitted] at hrun
        rcases bind_eq_error.mp hrun with hsig | ⟨_, -, hok⟩
        · exact ⟨channel, hadmitted, hsig⟩
        · cases hok
  · rintro ⟨channel, hadmitted, hsig⟩
    rw [run_of_admitted htime hadmitted, hsig, error_bind]

omit htime in
theorem checkUpdateSignature_eq_panicked_iff {msg : UnsignedChannelUpdate} {nodeId : NodeId}
    {sig : Option (Bytes 64)} {p : Panic} :
    g.checkUpdateSignature crypto msg nodeId sig = .error (.panicked p) ↔
      ∃ s key, sig = some s ∧ crypto.validPubkey nodeId ∧ crypto.verifyChannelUpdate msg s nodeId ∧
        (g.nodes.lookup nodeId).bind NodeInfo.pqNodeId = some key ∧
        parseRecords msg.excessData = .error p := by
  cases sig with
  | none => simp [NetworkGraph.checkUpdateSignature]
  | some s =>
    simp only [NetworkGraph.checkUpdateSignature, warning, bind_eq_error, guardWith_ne_panicked,
      false_or, guardWith_eq_ok]
    cases (g.nodes.lookup nodeId).bind NodeInfo.pqNodeId with
    | none => simp [checkPqSignature]
    | some key =>
      cases hparse : parseRecords msg.excessData with
      | error p' =>
        simp [checkPqSignature, hparse, Outcome.ofPanic, Except.mapError, error_bind]
      | ok records =>
        have hne : checkPqSignature crypto (some key) msg ≠ .error (.panicked p) := by
          rw [checkPqSignature, hparse]
          simp only [Outcome.ofPanic, Except.mapError, ok_bind]
          split
          · exact guardWith_ne_panicked
          · simp
        simp [hne]

theorem recordsFit_iff :
    call.RecordsFit crypto g ↔ ∀ p, call.run crypto around g ≠ .error (.panicked p) := by
  simp only [ne_eq, run_eq_panicked_iff htime, checkUpdateSignature_eq_panicked_iff]
  constructor
  · rintro hfit p ⟨channel, ⟨hknown, hsound, hnewer⟩, s, key, hsig, hkey, hverify, hpin, hparse⟩
    have hok := hfit channel s key hknown hsound hnewer hsig hkey hverify hpin
    rw [hparse] at hok
    cases hok
  · intro hnot channel s key hknown hsound hnewer hsig hkey hverify hpin
    cases hparse : parseRecords call.msg.excessData with
    | ok records => rfl
    | error p =>
      exact absurd ⟨channel, ⟨hknown, hsound, hnewer⟩, s, key, hsig, hkey, hverify, hpin,
        hparse⟩ (hnot p)

omit htime

theorem update_applied (hknown : g.channels.lookup call.msg.shortChannelId = some channel) :
    (call.applied g channel).update scid fromTwo =
      if scid = call.msg.shortChannelId ∧ fromTwo = call.msg.fromTwo then some call.info
      else g.update scid fromTwo := by
  rw [NetworkGraph.update, applied]
  by_cases hscid : scid = call.msg.shortChannelId
  · rw [hscid, lookup_insert, Option.bind_some, ChannelInfo.direction_withUpdate,
      NetworkGraph.update, hknown, Option.bind_some]
    simp only [true_and]
    rfl
  · rw [lookup_insert_ne hscid, if_neg fun h => hscid h.1]
    rfl

theorem fixed_applied (hknown : g.channels.lookup call.msg.shortChannelId = some channel) :
    ((call.applied g channel).channels.lookup scid).map ChannelInfo.fixed =
      (g.channels.lookup scid).map ChannelInfo.fixed := by
  rw [applied]
  by_cases hscid : scid = call.msg.shortChannelId
  · rw [hscid, lookup_insert, hknown, Option.map_some, Option.map_some,
      ChannelInfo.fixed_withUpdate]
  · rw [lookup_insert_ne hscid]

/-! ### Calls one after the other -/

/-- The call is valid, and meant to store an update for this direction of a channel. -/
def Writes (crypto : GossipCrypto) (g : NetworkGraph) (scid : ℕ) (fromTwo : Bool)
    (call : UpdateCall) : Prop :=
  call.onlyVerify = false ∧ scid = call.msg.shortChannelId ∧ fromTwo = call.msg.fromTwo ∧
    call.Valid crypto g

/-- The updates for one direction of a channel. -/
def writes (crypto : GossipCrypto) (g : NetworkGraph) (calls : List UpdateCall) (scid : ℕ)
    (fromTwo : Bool) : Set ChannelUpdateInfo :=
  { stored | ∃ call ∈ calls, call.Writes crypto g scid fromTwo ∧ stored = call.info }

theorem writes_cons (h : call.Writes crypto g scid fromTwo) :
    writes crypto g (call :: calls) scid fromTwo =
      insert call.info (writes crypto g calls scid fromTwo) := by
  ext stored
  simp [writes, h]

theorem writes_cons_of_not (h : ¬ call.Writes crypto g scid fromTwo) :
    writes crypto g (call :: calls) scid fromTwo = writes crypto g calls scid fromTwo := by
  ext stored
  simp [writes, h]

end UpdateCall

open UpdateCall

/-- `g'` is `g` after the calls: in each direction of a channel it has the latest of the valid
updates if that is newer than what `g` has, and everything else is as in `g`. -/
structure Settled (crypto : GossipCrypto) (g : NetworkGraph) (calls : List UpdateCall)
    (g' : NetworkGraph) : Prop where
  rest : g' = { g with channels := g'.channels }
  fixed : ∀ scid, (g'.channels.lookup scid).map ChannelInfo.fixed =
    (g.channels.lookup scid).map ChannelInfo.fixed
  latest : ∀ scid fromTwo, Latest (·.lastUpdate) (g.update scid fromTwo)
    (writes crypto g calls scid fromTwo) (g'.update scid fromTwo)

theorem settled_nil : Settled crypto g [] g :=
  ⟨rfl, fun _ => rfl, fun _ _ => by
    simpa [writes] using Latest.refl _⟩

theorem exists_of_map_fixed_eq {found found' : Option ChannelInfo}
    (h : found'.map ChannelInfo.fixed = found.map ChannelInfo.fixed)
    (hsome : found' = some channel') :
    ∃ channel, found = some channel ∧ channel'.fixed = channel.fixed := by
  rw [hsome, Option.map_some] at h
  obtain ⟨channel, hfound, heq⟩ := Option.map_eq_some_iff.mp h.symm
  exact ⟨channel, hfound, heq.symm⟩

theorem UpdateCall.congr_fixed (hfixed : channel'.fixed = channel.fixed) (call : UpdateCall) :
    call.node channel' = call.node channel ∧
      channel'.fits call.msg.htlcMaximumMsat = channel.fits call.msg.htlcMaximumMsat := by
  simp only [ChannelInfo.fixed, ChannelInfo.mk.injEq] at hfixed
  obtain ⟨-, hone, htwo, -, -, hcapacity, -⟩ := hfixed
  rw [UpdateCall.node, UpdateCall.node, hone, htwo, ChannelInfo.fits, ChannelInfo.fits, hcapacity]
  exact ⟨rfl, rfl⟩

namespace Settled

variable (h : Settled crypto g calls g')

include h

/-- The checks of a signature look at what updates leave alone. -/
theorem checkUpdateSignature_eq (msg : UnsignedChannelUpdate) (nodeId : NodeId)
    (sig : Option (Bytes 64)) :
    g'.checkUpdateSignature crypto msg nodeId sig =
      g.checkUpdateSignature crypto msg nodeId sig := by
  have hnodes : g'.nodes = g.nodes := by rw [h.rest]
  cases sig with
  | none => rfl
  | some s => rw [NetworkGraph.checkUpdateSignature, NetworkGraph.checkUpdateSignature, hnodes]

theorem sound_iff (hfixed : channel'.fixed = channel.fixed) :
    call.Sound g' channel' ↔ call.Sound g channel := by
  have hchain : g'.chainHash = g.chainHash := by rw [h.rest]
  rw [UpdateCall.Sound, UpdateCall.Sound, hchain, (call.congr_fixed hfixed).2]

theorem valid_iff : call.Valid crypto g' ↔ call.Valid crypto g := by
  constructor
  · rintro ⟨channel', hknown, hsound, hsig⟩
    obtain ⟨channel, hlookup, hfixed⟩ := exists_of_map_fixed_eq (h.fixed _) hknown
    rw [h.checkUpdateSignature_eq, (call.congr_fixed hfixed).1] at hsig
    exact ⟨channel, hlookup, (h.sound_iff hfixed).mp hsound, hsig⟩
  · rintro ⟨channel, hlookup, hsound, hsig⟩
    obtain ⟨channel', hknown, hfixed⟩ := exists_of_map_fixed_eq (h.fixed _).symm hlookup
    rw [← h.checkUpdateSignature_eq, (call.congr_fixed hfixed).1] at hsig
    exact ⟨channel', hknown, (h.sound_iff hfixed.symm).mpr hsound, hsig⟩

/-- What is newer than the update in `g'` is newer than the one in `g`. -/
theorem admitted (hadmitted : call.Admitted g' channel') :
    ∃ channel, call.Admitted g channel ∧ channel'.fixed = channel.fixed := by
  obtain ⟨hknown, hsound, hnewer⟩ := hadmitted
  obtain ⟨channel, hlookup, hfixed⟩ := exists_of_map_fixed_eq (h.fixed _) hknown
  refine ⟨channel, ⟨hlookup, (h.sound_iff hfixed).mp hsound, ?_⟩, hfixed⟩
  have hlatest := h.latest call.msg.shortChannelId call.msg.fromTwo
  rw [NetworkGraph.update, NetworkGraph.update, hknown, hlookup] at hlatest
  exact hlatest.newer_first hnewer

theorem applied (hadmitted : call.Admitted g' channel) (hstores : call.onlyVerify = false)
    (hsig : g'.checkUpdateSignature crypto call.msg (call.node channel) call.sig = .ok ()) :
    Settled crypto g (call :: calls) (call.applied g' channel) := by
  have hvalid := h.valid_iff.mp ⟨channel, hadmitted.known, hadmitted.sound, hsig⟩
  refine ⟨by rw [UpdateCall.applied, h.rest], fun scid => ?_, fun scid fromTwo => ?_⟩
  · exact (fixed_applied hadmitted.known).trans (h.fixed scid)
  · rw [update_applied hadmitted.known]
    split
    next hslot =>
      obtain ⟨rfl, rfl⟩ := hslot
      rw [writes_cons ⟨hstores, rfl, rfl, hvalid⟩]
      refine (h.latest _ _).write ?_
      rw [NetworkGraph.update, hadmitted.known]
      exact hadmitted.newer
    next hslot =>
      rw [writes_cons_of_not fun hwrites => hslot ⟨hwrites.2.1, hwrites.2.2.1⟩]
      exact h.latest scid fromTwo

/-- **Step.** -/
theorem step (htime : call.InTime around) (hstep : call.step crypto around g' = .ok g'') :
    Settled crypto g (call :: calls) g'' := by
  rw [UpdateCall.step] at hstep
  split at hstep
  next hrun =>
    cases hstep
    obtain ⟨channel, hadmitted, hsig, rfl⟩ := (run_eq_ok_iff htime).mp hrun
    cases honly : call.onlyVerify with
    | true =>
      have hnot : ∀ scid fromTwo, ¬ call.Writes crypto g scid fromTwo := by
        rintro _ _ ⟨hstores, -⟩
        rw [honly] at hstores
        cases hstores
      exact ⟨h.rest, h.fixed, fun scid fromTwo =>
        (writes_cons_of_not (hnot _ _)).symm ▸ h.latest scid fromTwo⟩
    | false => exact h.applied hadmitted honly hsig
  next e hrun =>
    cases hstep
    refine ⟨h.rest, h.fixed, fun scid fromTwo => ?_⟩
    by_cases hwrites : call.Writes crypto g scid fromTwo
    · -- a valid update is refused only if it is not newer
      rw [writes_cons hwrites]
      refine (h.latest scid fromTwo).ignore fun hnewer => ?_
      obtain ⟨-, rfl, rfl, hvalid⟩ := hwrites
      obtain ⟨channel, hknown, hsound, hsig⟩ := h.valid_iff.mpr hvalid
      rw [NetworkGraph.update, hknown] at hnewer
      cases hrun.symm.trans ((run_eq_ok_iff htime).mpr
        ⟨channel, ⟨hknown, hsound, hnewer⟩, hsig, rfl⟩)
    · rw [writes_cons_of_not hwrites]
      exact h.latest scid fromTwo
  next => cases hstep

/-- **A call that does not panic at first does not panic later.** -/
theorem recordsFit (hfit : call.RecordsFit crypto g) : call.RecordsFit crypto g' := by
  intro channel' sig key hknown hsound hnewer hsig hvalid hverify hpin
  obtain ⟨channel, ⟨hlookup, hsound, hnewer⟩, hfixed⟩ := h.admitted ⟨hknown, hsound, hnewer⟩
  have hnodes : g'.nodes = g.nodes := by rw [h.rest]
  rw [(call.congr_fixed hfixed).1] at hvalid hverify hpin
  rw [hnodes] at hpin
  exact hfit channel sig key hlookup hsound hnewer hsig hvalid hverify hpin

end Settled

theorem UpdateCall.RecordsFit.exists_step (h : call.RecordsFit crypto g)
    (htime : call.InTime around) : ∃ g', call.step crypto around g = .ok g' := by
  rw [step]
  split
  · exact ⟨_, rfl⟩
  · exact ⟨_, rfl⟩
  next p hrun => exact absurd hrun ((recordsFit_iff htime).mp h p)

/-- The calls, each of them at its own time. -/
def deliver (crypto : GossipCrypto) (g : NetworkGraph)
    (deliveries : List (Surroundings × UpdateCall)) : Except Panic NetworkGraph :=
  deliveries.foldlM (fun g delivery => delivery.2.step crypto delivery.1 g) g

/-- **Run.** -/
theorem Settled.deliver {deliveries : List (Surroundings × UpdateCall)}
    (h : Settled crypto g calls g') (htime : ∀ delivery ∈ deliveries, delivery.2.InTime delivery.1)
    (hfit : ∀ delivery ∈ deliveries, delivery.2.RecordsFit crypto g) :
    ∃ g'', deliver crypto g' deliveries = .ok g'' ∧
      Settled crypto g ((deliveries.map Prod.snd).reverse ++ calls) g'' := by
  induction deliveries generalizing calls g' with
  | nil => exact ⟨g', rfl, h⟩
  | cons delivery deliveries ih =>
    obtain ⟨htime₁, htime⟩ := forall_mem_cons.mp htime
    obtain ⟨hfit₁, hfit⟩ := forall_mem_cons.mp hfit
    obtain ⟨next, hnext⟩ := (h.recordsFit hfit₁).exists_step htime₁
    obtain ⟨g'', hdeliver, hsettled⟩ := ih (h.step htime₁ hnext) htime hfit
    refine ⟨g'', ?_, by simpa using hsettled⟩
    rw [Gossip.deliver, foldlM_cons, hnext, ok_bind]
    exact hdeliver

/-! ### The order does not matter -/

/-- The calls are not for the same direction of a channel and the same time. -/
def UpdateCall.Apart (call call' : UpdateCall) : Prop :=
  call.msg.shortChannelId = call'.msg.shortChannelId → call.msg.fromTwo = call'.msg.fromTwo →
    call.msg.timestamp ≠ call'.msg.timestamp

instance : Std.Symm Apart :=
  ⟨fun _ _ h hscid hfrom => (h hscid.symm hfrom.symm).symm⟩

theorem injOn_writes (h : calls.Pairwise Apart) :
    Set.InjOn (·.lastUpdate) (writes crypto g calls scid fromTwo) := by
  rintro _ ⟨call, hcall, ⟨-, hscid, hfrom, -⟩, rfl⟩ _ ⟨call', hcall', ⟨-, hscid', hfrom', -⟩, rfl⟩
    heq
  by_contra hne
  have happart : call.Apart call' := h.forall hcall hcall' fun h => hne (h ▸ rfl)
  exact happart (hscid.symm.trans hscid') (hfrom.symm.trans hfrom') heq

theorem Settled.perm {calls' : List UpdateCall} (h : Settled crypto g calls g')
    (hperm : calls ~ calls') : Settled crypto g calls' g' := by
  refine ⟨h.rest, h.fixed, fun scid fromTwo => ?_⟩
  have hwrites : writes crypto g calls' scid fromTwo =
      writes crypto g calls scid fromTwo := by
    ext stored
    simp only [writes, Set.mem_ofPred_eq, hperm.mem_iff]
  exact hwrites ▸ h.latest scid fromTwo

theorem Settled.same (hdistinct : calls.Pairwise Apart) (h : Settled crypto g calls g')
    (h' : Settled crypto g calls g'') : g'.Same g'' := by
  refine ⟨by rw [h'.rest, h.rest], fun scid => ?_⟩
  have hfixed := (h'.fixed scid).trans (h.fixed scid).symm
  have hupdate : ∀ fromTwo, g''.update scid fromTwo = g'.update scid fromTwo := fun fromTwo =>
    (h'.latest scid fromTwo).unique (injOn_writes hdistinct) (h.latest scid fromTwo)
  cases hlookup : g''.channels.lookup scid with
  | none =>
    rw [hlookup] at hfixed
    exact (Option.map_eq_none_iff.mp hfixed.symm).symm
  | some channel' =>
    obtain ⟨channel, hfound, heq⟩ := exists_of_map_fixed_eq hfixed hlookup
    simp only [NetworkGraph.update, hlookup, hfound, Option.bind_some] at hupdate
    rw [hfound, ChannelInfo.ext_of_direction heq hupdate]

/-- The call has replaced an older update for one direction of its channel, and nothing else. -/
structure Applies (g : NetworkGraph) (call : UpdateCall) (g' : NetworkGraph) : Prop where
  newer : Newer (·.lastUpdate) call.info (g.update call.msg.shortChannelId call.msg.fromTwo)
  rest : g' = { g with channels := g'.channels }
  fixed : ∀ scid, (g'.channels.lookup scid).map ChannelInfo.fixed =
    (g.channels.lookup scid).map ChannelInfo.fixed
  update : ∀ scid fromTwo, g'.update scid fromTwo =
    if scid = call.msg.shortChannelId ∧ fromTwo = call.msg.fromTwo then some call.info
    else g.update scid fromTwo

theorem UpdateCall.inTime_of_run (h : call.run crypto around g = .ok g') :
    call.InTime around := by
  simp only [run, NetworkGraph.updateChannelInternal, bind_eq_ok] at h
  obtain ⟨_, -, _, htime, -⟩ := h
  exact htime

theorem UpdateCall.step_eq_ok (h : call.step crypto around g = .ok g') :
    call.run crypto around g = .ok g' ∨ ¬ (call.run crypto around g).isOk ∧ g' = g := by
  rw [step] at h
  split at h
  next hrun => exact .inl (Except.ok.inj h ▸ hrun)
  next hrun => exact .inr ⟨hrun ▸ nofun, (Except.ok.inj h).symm⟩
  next => cases h

theorem UpdateCall.applies_of_run (h : call.run crypto around g = .ok g')
    (hstores : call.onlyVerify = false) : Applies g call g' := by
  obtain ⟨channel, hadmitted, -, rfl⟩ := (run_eq_ok_iff (inTime_of_run h)).mp h
  rw [hstores]
  refine ⟨?_, rfl, fun scid => fixed_applied hadmitted.known,
    fun scid fromTwo => update_applied hadmitted.known⟩
  rw [NetworkGraph.update, hadmitted.known]
  exact hadmitted.newer

/-- A time at which the clock does not get in the way. -/
def UpdateCall.surroundings (call : UpdateCall) : Surroundings where
  now := max call.msg.timestamp staleChannelUpdateAgeLimitSecs
  announcementPending := false
  nodePending := false
  updatePending := false

theorem UpdateCall.inTime_surroundings (call : UpdateCall) : call.InTime call.surroundings := by
  rw [InTime, checkUpdateTime, surroundings, subU64, if_pos (Nat.le_max_right _ _)]
  rw [Outcome.ofPanic, Except.mapError, ok_bind]
  dsimp only
  rw [guardWith_of (by omega), ok_bind, guardWith_of (by omega)]

/-- The calls in this order. -/
def inOrder (calls : List UpdateCall) : List (Surroundings × UpdateCall) :=
  calls.map fun call => (call.surroundings, call)

theorem map_snd_inOrder (calls : List UpdateCall) : (inOrder calls).map Prod.snd = calls := by
  simp [inOrder, Function.comp_def]

theorem inTime_of_mem_inOrder (delivery : Surroundings × UpdateCall)
    (h : delivery ∈ inOrder calls) : delivery.2.InTime delivery.1 := by
  obtain ⟨call, -, rfl⟩ := mem_map.mp h
  exact call.inTime_surroundings

theorem exists_settled {deliveries : List (Surroundings × UpdateCall)}
    (hperm : deliveries.map Prod.snd ~ calls)
    (htime : ∀ delivery ∈ deliveries, delivery.2.InTime delivery.1)
    (hfit : ∀ call ∈ calls, call.RecordsFit crypto g) :
    ∃ g', deliver crypto g deliveries = .ok g' ∧ Settled crypto g calls g' := by
  obtain ⟨g', hdeliver, hsettled⟩ := settled_nil.deliver htime fun delivery hmem =>
    hfit _ (hperm.subset (mem_map_of_mem hmem))
  rw [append_nil] at hsettled
  exact ⟨g', hdeliver, hsettled.perm ((reverse_perm _).trans hperm)⟩

/-- **Updates are monotone, framed and independent of their order.** A call that is refused, or that
only verifies, changes nothing; one that is applied changes one direction of one channel, to
something newer. Delivered in any two orders, at any times that the clock accepts, updates lead to
the same graph, which has the latest valid update in each direction, exactly if none of them makes
the graph as it was parse records whose lengths overflow. -/
theorem updates_confluent_iff (crypto : GossipCrypto) (g : NetworkGraph) (calls : List UpdateCall)
    (hdistinct : calls.Pairwise Apart) :
    (∀ around call g', call.step crypto around g = .ok g' →
      (call.onlyVerify ∨ ¬ (call.run crypto around g).isOk → g' = g) ∧
      (call.onlyVerify = false → (call.run crypto around g).isOk → Applies g call g')) ∧
    ((∀ deliveries deliveries' : List (Surroundings × UpdateCall),
      deliveries.map Prod.snd ~ calls → deliveries'.map Prod.snd ~ calls →
      (∀ delivery ∈ deliveries ++ deliveries', delivery.2.InTime delivery.1) →
      ∃ g₁ g₂, deliver crypto g deliveries = .ok g₁ ∧ deliver crypto g deliveries' = .ok g₂ ∧
        g₁.Same g₂ ∧ Settled crypto g calls g₁) ↔
    ∀ call ∈ calls, call.RecordsFit crypto g) := by
  refine ⟨fun around call g' hstep => ?_, fun hall call hcall => ?_, fun hfit => ?_⟩
  · rcases step_eq_ok hstep with hrun | ⟨hnot, rfl⟩
    · refine ⟨?_, fun hstores _ => applies_of_run hrun hstores⟩
      rintro (honly | hnot)
      · obtain ⟨channel, -, -, heq⟩ := (run_eq_ok_iff (inTime_of_run hrun)).mp hrun
        rw [heq, if_pos honly]
      · exact absurd rfl (hrun ▸ hnot)
    · exact ⟨fun _ => rfl, fun _ hok => absurd hok hnot⟩
  · -- the call is delivered first
    obtain ⟨before, after, rfl⟩ := append_of_mem hcall
    obtain ⟨g', -, hdeliver, -⟩ := hall (inOrder (call :: (before ++ after)))
      (inOrder (call :: (before ++ after))) (map_snd_inOrder _ ▸ perm_middle.symm)
      (map_snd_inOrder _ ▸ perm_middle.symm) (by
        simp only [mem_append, or_self]
        exact inTime_of_mem_inOrder)
    obtain ⟨next, hnext, -⟩ := bind_eq_ok.mp hdeliver
    refine (recordsFit_iff call.inTime_surroundings).mpr fun p hrun => ?_
    change call.step crypto call.surroundings g = .ok next at hnext
    rw [UpdateCall.step, hrun] at hnext
    cases hnext
  · intro deliveries deliveries' hperm hperm' htime
    obtain ⟨htime, htime'⟩ := forall_mem_append.mp htime
    obtain ⟨g₁, hdeliver, hsettled⟩ := exists_settled hperm htime hfit
    obtain ⟨g₂, hdeliver', hsettled'⟩ := exists_settled hperm' htime' hfit
    exact ⟨g₁, g₂, hdeliver, hdeliver', hsettled.same hdistinct hsettled', hsettled⟩

/-! ### Updates of one channel -/

/-- An update of the channel of `plainChannelAnnouncement`. -/
def sampleUpdate (fromTwo : Bool) (seconds : ℕ) (excessData : List UInt8) : UpdateCall :=
  .signed {
    signature := constBytes 64 (if fromTwo then 3 else 2)
    contents := {
      chainHash := constBytes 32 0, shortChannelId := 42, timestamp := 1700000000 + seconds
      messageFlags := 1, channelFlags := if fromTwo then 1 else 0
      cltvExpiryDelta := 40, htlcMinimumMsat := 0, htlcMaximumMsat := 1000
      feeBaseMsat := seconds, feeProportionalMillionths := 10, excessData } }

/-- A signature repeats a byte of the key. -/
def repeatingCrypto : GossipCrypto :=
  { permissiveCrypto with
    verifyChannelUpdate := fun _ sig nodeId => sig.1.head? = nodeId.1.head?
    pqVerifyChannelUpdate := fun key _ sig => sig.1.head? = key.1.head? }

/-- The signature record of an update. -/
def pqSignatureOf (byte : UInt8) : List UInt8 := [31, 0xfd, 0x09, 0x74] ++ replicate 2420 byte

/-- Two updates of the node with a pinned key, one of the other node, and a forged one. -/
def sampleUpdates : List UpdateCall :=
  [sampleUpdate false 5 (pqSignatureOf 7), sampleUpdate false 9 (pqSignatureOf 7),
    sampleUpdate true 7 [], sampleUpdate false 11 (pqSignatureOf 8)]

/-- The fees that the channel of `plainChannelAnnouncement` asks for in the end. -/
def feesAfter (calls : List UpdateCall) : Except Panic (Option ℕ × Option ℕ) :=
  (deliver repeatingCrypto pinnedGraph (inOrder calls)).map fun g =>
    ((g.update 42 false).map (·.feeBaseMsat), (g.update 42 true).map (·.feeBaseMsat))

theorem updates_confluent_sampleUpdates :
    (∃ g₁ g₂, deliver repeatingCrypto pinnedGraph (inOrder sampleUpdates) = .ok g₁ ∧
      deliver repeatingCrypto pinnedGraph (inOrder sampleUpdates.reverse) = .ok g₂ ∧ g₁.Same g₂ ∧
      Settled repeatingCrypto pinnedGraph sampleUpdates g₁) ∧
    feesAfter sampleUpdates = .ok (some 9, some 7) := by
  refine ⟨(updates_confluent_iff repeatingCrypto pinnedGraph sampleUpdates ?_).2.mpr ?_ _ _
    (map_snd_inOrder _ ▸ .rfl) (map_snd_inOrder _ ▸ reverse_perm _) ?_, by decide +kernel⟩
  · simp [sampleUpdates, Apart, sampleUpdate, UpdateCall.signed]
  · have hok : ∀ call ∈ sampleUpdates, (parseRecords call.msg.excessData).isOk := by decide +kernel
    exact fun call hcall _ _ _ _ _ _ _ _ _ _ => hok call hcall
  · exact forall_mem_append.mpr ⟨inTime_of_mem_inOrder, inTime_of_mem_inOrder⟩

/-- **An update that crashes the node**, unless a newer one comes first. Its record of type 27
claims to be `2 ^ 64 - 1` bytes long. -/
theorem overflowing_update_order_matters :
    let overflowing := sampleUpdate false 5 (27 :: replicate 9 0xff)
    let newer := sampleUpdate false 9 (pqSignatureOf 7)
    feesAfter [newer, overflowing] = .ok (some 9, none) ∧
      feesAfter [overflowing, newer] = .error .overflow := by
  decide +kernel

end PqLightning.Gossip
