import PqLightning.Lib.AssocMap
import PqLightning.Liquidity.JitChannel

/-!
# The pending requests of a service

`LSPS2ServiceHandler` of `lsps2/service.rs` keeps the requests of each peer until the operator has
answered them, and counts those of all peers in `total_pending_requests`. The counter bounds what
the peers can have pending between them.

The counter and the maps of requests are changed side by side, and get out of step in two places: a
request that repeats the id of a pending one replaces it and is counted once more, and the requests
that a peer loses when it disconnects stay counted. What is counted and not pending is lost for the
budget of all peers.

The build modelled is one without debug assertions; in the others
`verify_pending_request_counter` asserts `InSync` after every request.
-/

namespace PqLightning.Liquidity

open AssocMap List AList

/-! ### State -/

/-- `enum LSPS2Request`, what the service reads of a request. -/
inductive LSPS2Request where
  | getInfo (token : Option String)
  | buy (openingFeeParams : OpeningFeeParams) (paymentSizeMsat : Option ℕ)
deriving DecidableEq

/-- `struct OutboundJITChannel`, what decides whether it can be pruned. -/
structure OutboundJITChannel where
  state : OutboundJITChannelState
  openingFeeParams : OpeningFeeParams
deriving DecidableEq

structure PeerState (RequestId : Type) where
  outboundChannelsByInterceptScid : Map ℕ OutboundJITChannel
  pendingRequests : Map RequestId LSPS2Request

structure LSPS2ServiceHandler (PublicKey RequestId : Type) where
  perPeerState : Map PublicKey (PeerState RequestId)
  totalPendingRequests : ℕ

/-- The errors of a request, one constructor for each message. -/
inductive RequestError where
  | paymentSizeBelowMinimum
  | paymentSizeAboveMaximum
  | paymentSizeBelowOpeningFee
  | openingFeeOverflow
  | invalidOpeningFeeParams
  | maxTotalPeers
  | maxTotalPendingRequests
  | maxPendingRequestsPerPeer
deriving DecidableEq

/-- The errors of an answer. -/
inductive APIError where
  | noState
  | noPendingGetInfo
  | noPendingBuy
deriving DecidableEq

def maxPendingRequestsPerPeer : ℕ := 10

def maxTotalPendingRequests : ℕ := 1000

def maxTotalPeers : ℕ := 100000

def isExpiredOpeningFeeParams (now : ℕ) (params : OpeningFeeParams) : Bool :=
  params.validUntil < now

namespace OutboundJITChannel

def new (openingFeeParams : OpeningFeeParams) : OutboundJITChannel :=
  ⟨.pendingInitialPayment .new, openingFeeParams⟩

def isPendingInitialPayment (self : OutboundJITChannel) : Bool :=
  match self.state with
  | .pendingInitialPayment _ => true
  | _ => false

def isPrunable (now : ℕ) (self : OutboundJITChannel) : Bool :=
  self.isPendingInitialPayment && isExpiredOpeningFeeParams now self.openingFeeParams

end OutboundJITChannel

variable {PublicKey RequestId : Type} [DecidableEq PublicKey] [DecidableEq RequestId]

namespace PeerState

def new : PeerState RequestId := ⟨∅, ∅⟩

/-- What `prune_pending_requests` keeps. -/
def keeps (now : ℕ) : LSPS2Request → Bool
  | .getInfo _ => false
  | .buy params _ => !isExpiredOpeningFeeParams now params

def prunePendingRequests (now : ℕ) (self : PeerState RequestId) : PeerState RequestId :=
  { self with pendingRequests := retain (fun _ request => keeps now request) self.pendingRequests }

def pruneExpiredRequestState (now : ℕ) (self : PeerState RequestId) : PeerState RequestId :=
  { self with
    outboundChannelsByInterceptScid :=
      retain (fun _ channel => !channel.isPrunable now) self.outboundChannelsByInterceptScid }

def pendingRequestsAndChannels (self : PeerState RequestId) : ℕ :=
  self.pendingRequests.entries.length +
    self.outboundChannelsByInterceptScid.entries.countP fun e => e.2.isPendingInitialPayment

def isPrunable (self : PeerState RequestId) : Bool :=
  self.pendingRequests.entries.isEmpty && self.outboundChannelsByInterceptScid.entries.isEmpty

end PeerState

/-! ### Calls -/

namespace LSPS2ServiceHandler

/-- `new`, with the channels of the peers as they were stored. Requests are not. -/
def new (channels : Map PublicKey (PeerState RequestId)) :
    LSPS2ServiceHandler PublicKey RequestId where
  perPeerState := mapValues (fun _ peer => { peer with pendingRequests := ∅ }) channels
  totalPendingRequests := 0

variable (self : LSPS2ServiceHandler PublicKey RequestId) (peer : PublicKey) (id : RequestId)

def withPeer (state : PeerState RequestId) : LSPS2ServiceHandler PublicKey RequestId :=
  { self with perPeerState := self.perPeerState.insert peer state }

def insertPendingRequest (state : PeerState RequestId) (request : LSPS2Request) :
    Except RequestError Unit × LSPS2ServiceHandler PublicKey RequestId :=
  if maxTotalPendingRequests ≤ self.totalPendingRequests then
    (.error .maxTotalPendingRequests, self)
  else if state.pendingRequestsAndChannels < maxPendingRequestsPerPeer then
    (.ok (), { self.withPeer peer { state with
        pendingRequests := state.pendingRequests.insert id request } with
      totalPendingRequests := self.totalPendingRequests + 1 })
  else (.error .maxPendingRequestsPerPeer, self)

/-- `get_or_insert_peer_state_entry!`, followed by `insert_pending_request`. A peer that is new
stays when its request is refused. -/
def enterRequest (request : LSPS2Request) :
    Except RequestError Unit × LSPS2ServiceHandler PublicKey RequestId :=
  match self.perPeerState.lookup peer with
  | some state => self.insertPendingRequest peer id state request
  | none =>
    if maxTotalPeers ≤ self.perPeerState.entries.length then (.error .maxTotalPeers, self)
    else (self.withPeer peer .new).insertPendingRequest peer id .new request

/-- The checks of `handle_buy_request`. The promise is checked by a HMAC over the parameters and the
peer, which is a parameter here. -/
def checkBuyRequest (promised : PublicKey → OpeningFeeParams → Bool) (now : ℕ)
    (params : OpeningFeeParams) (paymentSizeMsat : Option ℕ) : Except RequestError Unit := do
  match paymentSizeMsat with
  | none => .ok ()
  | some size =>
    guardWith (params.minPaymentSizeMsat ≤ size) .paymentSizeBelowMinimum
    guardWith (size ≤ params.maxPaymentSizeMsat) .paymentSizeAboveMaximum
    match computeOpeningFee size params.minFeeMsat params.proportional with
    | some openingFee => guardWith (openingFee < size) .paymentSizeBelowOpeningFee
    | none => .error .openingFeeOverflow
  guardWith (!isExpiredOpeningFeeParams now params && promised peer params) .invalidOpeningFeeParams

/-- `handle_message` of a request: `handle_get_info_request` or `handle_buy_request`. -/
def handleRequest (promised : PublicKey → OpeningFeeParams → Bool) (now : ℕ)
    (request : LSPS2Request) :
    Except RequestError Unit × LSPS2ServiceHandler PublicKey RequestId :=
  match request with
  | .getInfo _ => self.enterRequest peer id request
  | .buy params size =>
    match checkBuyRequest peer promised now params size with
    | .error e => (.error e, self)
    | .ok () => self.enterRequest peer id request

def removePendingRequest (state : PeerState RequestId) :
    Option LSPS2Request × LSPS2ServiceHandler PublicKey RequestId :=
  match state.pendingRequests.lookup id with
  | some request => (some request,
      { self.withPeer peer { state with pendingRequests := state.pendingRequests.erase id } with
        totalPendingRequests := self.totalPendingRequests - 1 })
  | none => (none, self)

/-- Answers a `get_info` request. Another request of that id is dropped. -/
def answerGetInfo : Except APIError Unit × LSPS2ServiceHandler PublicKey RequestId :=
  match self.perPeerState.lookup peer with
  | none => (.error .noState, self)
  | some state =>
    match self.removePendingRequest peer id state with
    | (some (.getInfo _), self) => (.ok (), self)
    | (_, self) => (.error .noPendingGetInfo, self)

def invalidTokenProvided : Except APIError Unit × LSPS2ServiceHandler PublicKey RequestId :=
  self.answerGetInfo peer id

/-- `opening_fee_params_generated`; the parameters go into the response. -/
def openingFeeParamsGenerated : Except APIError Unit × LSPS2ServiceHandler PublicKey RequestId :=
  self.answerGetInfo peer id

def invoiceParametersGenerated (interceptScid : ℕ) :
    Except APIError Unit × LSPS2ServiceHandler PublicKey RequestId :=
  match self.perPeerState.lookup peer with
  | none => (.error .noState, self)
  | some state =>
    match self.removePendingRequest peer id state with
    | (some (.buy params _), self) => (.ok (), self.withPeer peer {
        outboundChannelsByInterceptScid :=
          state.outboundChannelsByInterceptScid.insert interceptScid (.new params)
        pendingRequests := state.pendingRequests.erase id })
    | (_, self) => (.error .noPendingBuy, self)

def peerDisconnected (now : ℕ) : LSPS2ServiceHandler PublicKey RequestId :=
  match self.perPeerState.lookup peer with
  | none => self
  | some state =>
    self.withPeer peer ((state.prunePendingRequests now).pruneExpiredRequestState now)

/-- `persist`: peers without requests and channels are removed, those that the loop gets to before
the store fails. -/
def persist (now : ℕ) (reached : PublicKey → Bool) : LSPS2ServiceHandler PublicKey RequestId :=
  { self with
    perPeerState := retain (fun peer state => !(reached peer && state.isPrunable))
      (mapValues (fun _ state => state.pruneExpiredRequestState now) self.perPeerState) }

/-- Any other call, which may change the channels of a peer. -/
def channelsChanged (channels : Map ℕ OutboundJITChannel) :
    LSPS2ServiceHandler PublicKey RequestId :=
  match self.perPeerState.lookup peer with
  | none => self
  | some state => self.withPeer peer { state with outboundChannelsByInterceptScid := channels }

end LSPS2ServiceHandler

inductive ServiceCall (PublicKey RequestId : Type) where
  | handleRequest (now : ℕ) (peer : PublicKey) (id : RequestId) (request : LSPS2Request)
  | invalidTokenProvided (peer : PublicKey) (id : RequestId)
  | openingFeeParamsGenerated (peer : PublicKey) (id : RequestId)
  | invoiceParametersGenerated (peer : PublicKey) (id : RequestId) (interceptScid : ℕ)
  | peerDisconnected (now : ℕ) (peer : PublicKey)
  | persist (now : ℕ) (reached : PublicKey → Bool)
  | channelsChanged (peer : PublicKey) (channels : Map ℕ OutboundJITChannel)

variable (promised : PublicKey → OpeningFeeParams → Bool)
  (self : LSPS2ServiceHandler PublicKey RequestId)

def ServiceCall.step : ServiceCall PublicKey RequestId → LSPS2ServiceHandler PublicKey RequestId
  | .handleRequest now peer id request => (self.handleRequest peer id promised now request).2
  | .invalidTokenProvided peer id => (self.invalidTokenProvided peer id).2
  | .openingFeeParamsGenerated peer id => (self.openingFeeParamsGenerated peer id).2
  | .invoiceParametersGenerated peer id scid => (self.invoiceParametersGenerated peer id scid).2
  | .peerDisconnected now peer => self.peerDisconnected peer now
  | .persist now reached => self.persist now reached
  | .channelsChanged peer channels => self.channelsChanged peer channels

/-! ### What is counted and what is pending -/

namespace LSPS2ServiceHandler

/-- The requests of all peers, as `verify_pending_request_counter` counts them. -/
def numRequests : ℕ :=
  sumValues (fun state => state.pendingRequests.entries.length) self.perPeerState

def InSync : Prop := self.totalPendingRequests = self.numRequests

end LSPS2ServiceHandler

/-- The call leaves something counted that is not pending: it is an accepted request with the id of
a pending one, or a disconnection in which the peer loses a request. -/
def ServiceCall.Loses : ServiceCall PublicKey RequestId → Prop
  | .handleRequest now peer id request =>
    (self.handleRequest peer id promised now request).1 = .ok () ∧
      ∃ state, self.perPeerState.lookup peer = some state ∧ id ∈ state.pendingRequests
  | .peerDisconnected now peer => ∃ state, self.perPeerState.lookup peer = some state ∧
      ∃ e ∈ state.pendingRequests.entries, PeerState.keeps now e.2 = false
  | _ => False

open LSPS2ServiceHandler

section

variable {promised} {self} {state : PeerState RequestId} {peer : PublicKey} {id : RequestId}

namespace LSPS2ServiceHandler

omit [DecidableEq RequestId] in
theorem numRequests_withPeer (h : self.perPeerState.lookup peer = some state)
    (state' : PeerState RequestId) :
    (self.withPeer peer state').numRequests + state.pendingRequests.entries.length =
      self.numRequests + state'.pendingRequests.entries.length := by
  have hsum := sumValues_insert (fun state => state.pendingRequests.entries.length)
    self.perPeerState peer state'
  rw [h] at hsum
  exact hsum

omit [DecidableEq RequestId] in
theorem numRequests_withPeer_congr (h : self.perPeerState.lookup peer = some state)
    {state' : PeerState RequestId} (heq : state'.pendingRequests = state.pendingRequests) :
    (self.withPeer peer state').numRequests = self.numRequests := by
  have hpeer := numRequests_withPeer h state'
  rw [heq] at hpeer
  omega

variable (self) in
/-- Afterwards `lost` more requests are counted and not pending. -/
def Leaves (after : LSPS2ServiceHandler PublicKey RequestId) (lost : ℕ) : Prop :=
  after.totalPendingRequests + self.numRequests =
    self.totalPendingRequests + after.numRequests + lost

omit [DecidableEq PublicKey] [DecidableEq RequestId] in
theorem leaves_of_eq {after : LSPS2ServiceHandler PublicKey RequestId}
    (htotal : after.totalPendingRequests = self.totalPendingRequests)
    (hnum : after.numRequests = self.numRequests) : self.Leaves after 0 := by
  rw [Leaves, htotal, hnum, Nat.add_zero]

/-- **A request is entered**: it takes the place of a pending one of the same id. -/
theorem insertPendingRequest_eq_ok (h : self.perPeerState.lookup peer = some state)
    {request : LSPS2Request} {after : LSPS2ServiceHandler PublicKey RequestId}
    (hok : self.insertPendingRequest peer id state request = (.ok (), after)) :
    after.totalPendingRequests = self.totalPendingRequests + 1 ∧
      after.numRequests + (if id ∈ state.pendingRequests then 1 else 0) =
        self.numRequests + 1 := by
  rw [insertPendingRequest] at hok
  split_ifs at hok
  · cases hok
  · cases hok
    have hpeer := numRequests_withPeer h
      { state with pendingRequests := state.pendingRequests.insert id request }
    have hlength := length_insert state.pendingRequests id request
    refine ⟨rfl, ?_⟩
    change (self.withPeer peer _).numRequests + _ = _
    dsimp only at hpeer
    omega
  · cases hok

theorem insertPendingRequest_eq_error {request : LSPS2Request} {e : RequestError}
    {after : LSPS2ServiceHandler PublicKey RequestId}
    (herror : self.insertPendingRequest peer id state request = (.error e, after)) :
    after = self := by
  rw [insertPendingRequest] at herror
  split_ifs at herror <;> cases herror <;> rfl

/-- A request of a peer, or of one that is new. -/
theorem insertPendingRequest_exists_lost (h : self.perPeerState.lookup peer = some state)
    (request : LSPS2Request) :
    ∃ lost, (0 < lost ↔ (self.insertPendingRequest peer id state request).1 = .ok () ∧
        id ∈ state.pendingRequests) ∧
      self.Leaves (self.insertPendingRequest peer id state request).2 lost := by
  rcases hinsert : self.insertPendingRequest peer id state request with ⟨_ | _, after⟩
  · refine ⟨0, by simp, ?_⟩
    rw [insertPendingRequest_eq_error hinsert]
    exact leaves_of_eq rfl rfl
  · obtain ⟨htotal, hnum⟩ := insertPendingRequest_eq_ok h hinsert
    refine ⟨if id ∈ state.pendingRequests then 1 else 0, ?_, ?_⟩
    · split <;> simp [*]
    · dsimp only [Leaves]
      omega

theorem enterRequest_exists_lost (request : LSPS2Request) :
    ∃ lost, (0 < lost ↔ (self.enterRequest peer id request).1 = .ok () ∧
        ∃ state, self.perPeerState.lookup peer = some state ∧ id ∈ state.pendingRequests) ∧
      self.Leaves (self.enterRequest peer id request).2 lost := by
  rw [enterRequest]
  cases hlookup : self.perPeerState.lookup peer with
  | some state => simpa using insertPendingRequest_exists_lost hlookup request
  | none =>
    dsimp only
    split
    · exact ⟨0, by simp, leaves_of_eq rfl rfl⟩
    · -- a new peer has nothing pending
      obtain ⟨lost, hlost, hleaves⟩ := @insertPendingRequest_exists_lost _ _ _ _
        (self.withPeer peer .new) .new peer id (lookup_insert _) request
      have hsum := sumValues_insert (fun state => state.pendingRequests.entries.length)
        self.perPeerState peer .new
      rw [hlookup] at hsum
      have hnum : (self.withPeer peer .new).numRequests = self.numRequests := hsum
      refine ⟨lost, hlost.trans (iff_of_false (fun h => ?_) fun h => ?_), ?_⟩
      · exact AList.notMem_empty _ h.2
      · obtain ⟨-, _, heq, -⟩ := h
        cases heq
      · rw [Leaves, ← hnum]
        exact hleaves

theorem leaves_removePendingRequest (id : RequestId)
    (h : self.perPeerState.lookup peer = some state)
    (hle : self.numRequests ≤ self.totalPendingRequests) :
    self.Leaves (self.removePendingRequest peer id state).2 0 := by
  rw [removePendingRequest]
  split
  next request hrequest =>
    have hpeer := numRequests_withPeer h
      { state with pendingRequests := state.pendingRequests.erase id }
    have hlength := length_erase hrequest
    change self.totalPendingRequests - 1 + self.numRequests =
      self.totalPendingRequests + (self.withPeer peer _).numRequests
    dsimp only at hpeer
    omega
  next => exact leaves_of_eq rfl rfl

theorem leaves_answerGetInfo (peer : PublicKey) (id : RequestId)
    (hle : self.numRequests ≤ self.totalPendingRequests) :
    self.Leaves (self.answerGetInfo peer id).2 0 := by
  rw [answerGetInfo]
  cases hlookup : self.perPeerState.lookup peer with
  | none => exact leaves_of_eq rfl rfl
  | some state =>
    have hleaves := leaves_removePendingRequest id hlookup hle
    dsimp only
    split <;> simp_all

theorem leaves_invoiceParametersGenerated (peer : PublicKey) (id : RequestId) (scid : ℕ)
    (hle : self.numRequests ≤ self.totalPendingRequests) :
    self.Leaves (self.invoiceParametersGenerated peer id scid).2 0 := by
  rw [invoiceParametersGenerated]
  cases hlookup : self.perPeerState.lookup peer with
  | none => exact leaves_of_eq rfl rfl
  | some state =>
    have hleaves := leaves_removePendingRequest id hlookup hle
    dsimp only
    rw [removePendingRequest] at hleaves ⊢
    cases hrequest : state.pendingRequests.lookup id with
    | none => exact leaves_of_eq rfl rfl
    | some request =>
      rw [hrequest] at hleaves
      cases request with
      | getInfo token => exact hleaves
      | buy params size =>
        -- the channel is entered beside the requests that are left
        have hlookup' : (self.withPeer peer { state with
              pendingRequests := state.pendingRequests.erase id }).perPeerState.lookup peer =
            some { state with pendingRequests := state.pendingRequests.erase id } :=
          lookup_insert _
        exact hleaves.trans (congrArg (self.totalPendingRequests + ·)
          (numRequests_withPeer_congr hlookup' rfl).symm)

omit [DecidableEq PublicKey] [DecidableEq RequestId] in
theorem leaves_persist (now : ℕ) (reached : PublicKey → Bool) :
    self.Leaves (self.persist now reached) 0 := by
  refine leaves_of_eq rfl ?_
  rw [numRequests, persist, sumValues_retain]
  · exact sumValues_mapValues _ fun _ _ => rfl
  · intro peer state hdropped
    simp_all [PeerState.isPrunable]

omit [DecidableEq RequestId] in
theorem leaves_channelsChanged (peer : PublicKey) (channels : Map ℕ OutboundJITChannel) :
    self.Leaves (self.channelsChanged peer channels) 0 := by
  rw [channelsChanged]
  cases hlookup : self.perPeerState.lookup peer with
  | none => exact leaves_of_eq rfl rfl
  | some state => exact leaves_of_eq rfl (numRequests_withPeer_congr hlookup rfl)

end LSPS2ServiceHandler

omit [DecidableEq RequestId] in
/-- The requests that a disconnection leaves. -/
theorem PeerState.length_prunePendingRequests (now : ℕ) (state : PeerState RequestId) :
    ∃ lost, (0 < lost ↔ ∃ e ∈ state.pendingRequests.entries, keeps now e.2 = false) ∧
      (state.prunePendingRequests now).pendingRequests.entries.length + lost =
        state.pendingRequests.entries.length := by
  refine ⟨state.pendingRequests.entries.countP fun e => !keeps now e.2, ?_, ?_⟩
  · simp [countP_pos_iff]
  · rw [prunePendingRequests, retain, ← countP_eq_length_filter]
    have hlength := @length_eq_countP_add_countP _ (fun e => keeps now e.2)
      state.pendingRequests.entries
    simpa using hlength.symm

variable (promised) in
/-- **Step.** What a call leaves counted without being pending. -/
theorem ServiceCall.exists_lost (call : ServiceCall PublicKey RequestId)
    (hle : self.numRequests ≤ self.totalPendingRequests) :
    ∃ lost, (0 < lost ↔ call.Loses promised self) ∧
      self.Leaves (call.step promised self) lost := by
  cases call with
  | handleRequest now peer id request =>
    simp only [Loses, step, LSPS2ServiceHandler.handleRequest]
    cases request with
    | getInfo token => exact enterRequest_exists_lost _
    | buy params size =>
      dsimp only
      split
      · exact ⟨0, by simp, leaves_of_eq rfl rfl⟩
      · exact enterRequest_exists_lost _
  | invalidTokenProvided peer id => exact ⟨0, by simp [Loses], leaves_answerGetInfo peer id hle⟩
  | openingFeeParamsGenerated peer id =>
    exact ⟨0, by simp [Loses], leaves_answerGetInfo peer id hle⟩
  | invoiceParametersGenerated peer id scid =>
    exact ⟨0, by simp [Loses], leaves_invoiceParametersGenerated peer id scid hle⟩
  | peerDisconnected now peer =>
    rw [step, LSPS2ServiceHandler.peerDisconnected]
    cases hlookup : self.perPeerState.lookup peer with
    | none => exact ⟨0, by simp [Loses, hlookup], leaves_of_eq rfl rfl⟩
    | some state =>
      obtain ⟨lost, hlost, hlength⟩ := state.length_prunePendingRequests now
      have hpeer := numRequests_withPeer hlookup
        ((state.prunePendingRequests now).pruneExpiredRequestState now)
      refine ⟨lost, by simpa [Loses, hlookup] using hlost, ?_⟩
      change self.totalPendingRequests + _ = self.totalPendingRequests + _ + _
      change _ = _ + (state.prunePendingRequests now).pendingRequests.entries.length at hpeer
      dsimp only
      omega
  | persist now reached => exact ⟨0, by simp [Loses], leaves_persist now reached⟩
  | channelsChanged peer channels =>
    exact ⟨0, by simp [Loses], leaves_channelsChanged peer channels⟩

end

/-! ### Whole runs -/

/-- The counter is right before every call and in the end. -/
def AlwaysInSync (self : LSPS2ServiceHandler PublicKey RequestId) :
    List (ServiceCall PublicKey RequestId) → Prop
  | [] => self.InSync
  | call :: calls => self.InSync ∧ AlwaysInSync (call.step promised self) calls

def NeverLoses (self : LSPS2ServiceHandler PublicKey RequestId) :
    List (ServiceCall PublicKey RequestId) → Prop
  | [] => True
  | call :: calls => ¬ call.Loses promised self ∧ NeverLoses (call.step promised self) calls

variable {promised} {self} {calls : List (ServiceCall PublicKey RequestId)}

theorem AlwaysInSync.inSync (h : AlwaysInSync promised self calls) : self.InSync := by
  cases calls with
  | nil => exact h
  | cons => exact h.1

/-- **Run.** -/
theorem alwaysInSync_iff (h : self.InSync) :
    AlwaysInSync promised self calls ↔ NeverLoses promised self calls := by
  induction calls generalizing self with
  | nil => exact iff_of_true h trivial
  | cons call calls ih =>
    obtain ⟨lost, hlost, hsum⟩ := call.exists_lost promised (le_of_eq h.symm)
    have hstep : (call.step promised self).InSync ↔ ¬ call.Loses promised self := by
      rw [Leaves] at hsum
      rw [← hlost, InSync]
      rw [InSync] at h
      omega
    constructor
    · intro hall
      exact ⟨hstep.mp hall.2.inSync, (ih hall.2.inSync).mp hall.2⟩
    · intro hnever
      have hsync := hstep.mpr hnever.1
      exact ⟨h, (ih hsync).mpr hnever.2⟩

/-- **The counter is never too small.** -/
theorem numRequests_le_total (h : self.numRequests ≤ self.totalPendingRequests) :
    let after := calls.foldl (fun self call => call.step promised self) self
    after.numRequests ≤ after.totalPendingRequests := by
  induction calls generalizing self with
  | nil => exact h
  | cons call calls ih =>
    obtain ⟨lost, -, hsum⟩ := call.exists_lost promised h
    rw [Leaves] at hsum
    refine ih ?_
    dsimp only
    omega

theorem AlwaysInSync.foldl (h : AlwaysInSync promised self calls) :
    (calls.foldl (fun self call => call.step promised self) self).InSync := by
  induction calls generalizing self with
  | nil => exact h
  | cons call calls ih => exact ih h.2

namespace LSPS2ServiceHandler

omit [DecidableEq PublicKey] [DecidableEq RequestId] in
theorem inSync_new (channels : Map PublicKey (PeerState RequestId)) :
    (LSPS2ServiceHandler.new channels).InSync := by
  simp [InSync, numRequests, new, sumValues, mapValues, Function.comp_def]

theorem insertPendingRequest_refused {peer : PublicKey} {id : RequestId}
    {state : PeerState RequestId} {request : LSPS2Request}
    (h : (self.insertPendingRequest peer id state request).1 = .error .maxTotalPendingRequests) :
    maxTotalPendingRequests ≤ self.totalPendingRequests := by
  rw [insertPendingRequest] at h
  split_ifs at h with hlimit
  · exact hlimit
  · cases h

omit [DecidableEq PublicKey] in
theorem checkBuyRequest_ne {peer : PublicKey} {now : ℕ} {params : OpeningFeeParams}
    {size : Option ℕ} :
    checkBuyRequest peer promised now params size ≠ .error .maxTotalPendingRequests := by
  cases size with
  | none => simp [checkBuyRequest, bind_eq_error, guardWith_eq_error]
  | some size =>
    cases hfee : computeOpeningFee size params.minFeeMsat params.proportional <;>
      simp [checkBuyRequest, bind_eq_error, guardWith_eq_error, hfee]

/-- A request is refused by the total limit if the counter has reached it. -/
theorem handleRequest_refused {peer : PublicKey} {id : RequestId} {now : ℕ} {request : LSPS2Request}
    (h : (self.handleRequest peer id promised now request).1 = .error .maxTotalPendingRequests) :
    maxTotalPendingRequests ≤ self.totalPendingRequests := by
  have henter : (self.enterRequest peer id request).1 = .error .maxTotalPendingRequests →
      maxTotalPendingRequests ≤ self.totalPendingRequests := by
    intro h
    rw [enterRequest] at h
    split at h
    · exact insertPendingRequest_refused h
    · split at h
      · cases h
      · have hlimit := insertPendingRequest_refused h
        exact hlimit
  cases request with
  | getInfo token => exact henter h
  | buy params size =>
    simp only [handleRequest] at h
    split at h
    next e hcheck =>
      cases h
      exact absurd hcheck checkBuyRequest_ne
    · exact henter h

end LSPS2ServiceHandler

/-- **The budget of pending requests.** The counter is right all the time exactly if no accepted
request repeats a pending id of its peer and no peer disconnects with a `get_info` request or an
expired `buy` request pending. Then a request is refused by the total limit only if that many are
pending. The counter is never too small. -/
theorem alwaysInSync_new_iff (promised : PublicKey → OpeningFeeParams → Bool)
    (channels : Map PublicKey (PeerState RequestId))
    (calls : List (ServiceCall PublicKey RequestId)) :
    let start := LSPS2ServiceHandler.new channels
    let after := calls.foldl (fun self call => call.step promised self) start
    (AlwaysInSync promised start calls ↔ NeverLoses promised start calls) ∧
      (NeverLoses promised start calls → ∀ now peer id request,
        (after.handleRequest peer id promised now request).1 = .error .maxTotalPendingRequests →
          maxTotalPendingRequests ≤ after.numRequests) ∧
      after.numRequests ≤ after.totalPendingRequests := by
  intro start after
  have hstart := inSync_new channels
  refine ⟨alwaysInSync_iff hstart, fun hnever now peer id request hrefused => ?_,
    numRequests_le_total (le_of_eq hstart.symm)⟩
  have hsync : after.InSync := ((alwaysInSync_iff hstart).mpr hnever).foldl
  exact (handleRequest_refused hrefused).trans (le_of_eq hsync)

/-- A peer asks for the fees and disconnects, again and again. -/
def askAndLeave : ℕ → List (ServiceCall ℕ ℕ)
  | 0 => []
  | times + 1 => .handleRequest 0 1 0 (.getInfo none) :: .peerDisconnected 0 1 :: askAndLeave times

theorem foldl_askAndLeave (times : ℕ) {counted : ℕ} (h : counted + times ≤ 1000) :
    (askAndLeave times).foldl (fun self call => call.step (fun _ _ => false) self)
        ⟨AList.singleton 1 .new, counted⟩ = ⟨AList.singleton 1 .new, counted + times⟩ := by
  induction times generalizing counted with
  | zero => rfl
  | succ times ih =>
    have hlimit : ¬ maxTotalPendingRequests ≤ counted := by
      rw [maxTotalPendingRequests]
      omega
    have hasked : (LSPS2ServiceHandler.handleRequest ⟨AList.singleton 1 .new, counted⟩ 1 0
        (fun _ _ => false) 0 (.getInfo none)).2 =
        ⟨AList.singleton 1 ⟨∅, AList.singleton 0 (.getInfo none)⟩, counted + 1⟩ := by
      change (insertPendingRequest ⟨AList.singleton 1 .new, counted⟩ 1 0 .new
        (.getInfo none)).2 = _
      rw [insertPendingRequest, if_neg hlimit]
      rfl
    rw [askAndLeave, foldl_cons, foldl_cons, ServiceCall.step, hasked, Nat.add_comm times,
      ← Nat.add_assoc]
    exact ih (show counted + 1 + times ≤ 1000 by omega)

/-- **A peer that keeps leaving uses up the budget of all peers.** Nothing is pending, and the first
request of another peer is refused. -/
theorem leaving_peer_uses_up_budget :
    let service := (askAndLeave 1000).foldl (fun self call => call.step (fun _ _ => false) self)
      (.new ∅)
    service.totalPendingRequests = 1000 ∧ service.numRequests = 0 ∧
      (service.handleRequest 2 0 (fun _ _ => false) 0 (.getInfo none)).1 =
        .error .maxTotalPendingRequests := by
  have hfirst : ∀ times,
      (askAndLeave (times + 1)).foldl (fun self call => call.step (fun _ _ => false) self)
          (.new ∅) =
        (askAndLeave times).foldl (fun self call => call.step (fun _ _ => false) self)
          ⟨AList.singleton 1 .new, 1⟩ := fun _ => rfl
  intro service
  have hservice : service = ⟨AList.singleton 1 .new, 1 + 999⟩ :=
    (hfirst 999).trans (foldl_askAndLeave 999 (by decide))
  rw [hservice]
  exact ⟨rfl, rfl, rfl⟩

end PqLightning.Liquidity
