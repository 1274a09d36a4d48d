import PqLightning.Gossip.PqRecords
import PqLightning.Lib.AssocMap

/-!
# The network graph

`NetworkGraph` of `routing/gossip.rs`: the channels and nodes learned from gossip, the post-quantum
keys pinned for the nodes, and the operations that change them. The build modelled is the one with
the `std` and `post-quantum` features.

Signature checks are parameters (`GossipCrypto`): each is an arbitrary predicate of the key, the
message and the signature. The answers of the asynchronous UTXO checks still in flight
(`routing/utxo.rs`), which decide only whether a message is held back, are part of the
`Surroundings` an operation runs in, together with the time.

An operation that is refused leaves the graph as it was.
-/

namespace PqLightning.Gossip

open AssocMap

/-- A `NodeId`: a compressed public key, not known to be on the curve. -/
abbrev NodeId : Type := Bytes 33

/-! ### Errors -/

inductive Level where
  | gossip
  | trace
  | debug
  | info
  | warn
  | error
deriving DecidableEq, Repr

/-- The cases of `ErrorAction` that gossip uses. -/
inductive ErrorAction where
  | ignoreError
  | ignoreAndLog (level : Level)
  | ignoreDuplicateGossip
  | sendWarningMessage (data : String) (logLevel : Level)
deriving DecidableEq, Repr

structure LightningError where
  err : String
  action : ErrorAction
deriving DecidableEq, Repr

inductive Failure where
  | refused (e : LightningError)
  | panicked (p : Panic)
deriving DecidableEq, Repr

abbrev Outcome (α : Type) : Type := Except Failure α

/-- `return Err(..)` -/
abbrev Failure.ofError (err : String) (action : ErrorAction) : Failure := .refused ⟨err, action⟩

def Outcome.ofPanic {α : Type} (x : Except Panic α) : Outcome α := x.mapError .panicked

@[simp] theorem Outcome.ofPanic_eq_ok {α : Type} {x : Except Panic α} {a : α} :
    Outcome.ofPanic x = .ok a ↔ x = .ok a := by
  cases x <;> simp [Outcome.ofPanic, Except.mapError]

/-! ### Messages -/

/-- `struct UnsignedNodeAnnouncement`; `body` is its features, colour, alias and addresses. -/
structure UnsignedNodeAnnouncement where
  nodeId : NodeId
  timestamp : ℕ
  (body excessAddressData excessData : List UInt8)
deriving DecidableEq

structure NodeAnnouncement where
  signature : Bytes 64
  contents : UnsignedNodeAnnouncement
deriving DecidableEq

structure UnsignedChannelAnnouncement where
  features : List UInt8
  chainHash : Bytes 32
  shortChannelId : ℕ
  (nodeId1 nodeId2 bitcoinKey1 bitcoinKey2 : NodeId)
  excessData : List UInt8
deriving DecidableEq

structure ChannelAnnouncement where
  (nodeSignature1 nodeSignature2 bitcoinSignature1 bitcoinSignature2 : Bytes 64)
  contents : UnsignedChannelAnnouncement
deriving DecidableEq

structure UnsignedChannelUpdate where
  chainHash : Bytes 32
  (shortChannelId timestamp : ℕ)
  (messageFlags channelFlags : UInt8)
  (cltvExpiryDelta htlcMinimumMsat htlcMaximumMsat feeBaseMsat feeProportionalMillionths : ℕ)
  excessData : List UInt8
deriving DecidableEq

structure ChannelUpdate where
  signature : Bytes 64
  contents : UnsignedChannelUpdate
deriving DecidableEq

/-! ### The graph -/

structure ChannelUpdateInfo where
  enabled : Bool
  (lastUpdate cltvExpiryDelta htlcMinimumMsat htlcMaximumMsat feeBaseMsat
    feeProportionalMillionths : ℕ)
  lastUpdateMessage : Option ChannelUpdate
deriving DecidableEq

structure ChannelInfo where
  features : List UInt8
  (nodeOne nodeTwo : NodeId)
  (nodeOneCounter nodeTwoCounter : ℕ)
  capacitySats : Option ℕ
  (oneToTwo twoToOne : Option ChannelUpdateInfo)
  announcementMessage : Option ChannelAnnouncement
  announcementReceivedTime : ℕ
deriving DecidableEq

/-- `enum NodeAnnouncementInfo`; what a `Local` one keeps of the announcement is its time and its
`body`. -/
inductive NodeAnnouncementInfo where
  | relayed (announcement : NodeAnnouncement)
  | locally (lastUpdate : ℕ) (body : List UInt8)
deriving DecidableEq

def NodeAnnouncementInfo.lastUpdate : NodeAnnouncementInfo → ℕ
  | .relayed announcement => announcement.contents.timestamp
  | .locally lastUpdate _ => lastUpdate

structure NodeInfo where
  channels : List ℕ
  announcementInfo : Option NodeAnnouncementInfo
  pqNodeId : Option (Bytes pqPublicKeyLen)
  pqKemNodeId : Option (Bytes pqKemEkLen)
  nodeCounter : ℕ
deriving DecidableEq

/-- `struct NetworkGraph`. The counters free for reuse are a stack, its top first. -/
structure NetworkGraph where
  chainHash : Bytes 32
  channels : Map ℕ ChannelInfo
  nodes : Map NodeId NodeInfo
  removedNodeCounters : List ℕ
  nextNodeCounter : ℕ
  removedChannels : Map ℕ (Option ℕ)
  removedNodes : Map NodeId (Option ℕ)

def NetworkGraph.new (chainHash : Bytes 32) : NetworkGraph where
  chainHash := chainHash
  channels := ∅
  nodes := ∅
  removedNodeCounters := []
  nextNodeCounter := 0
  removedChannels := ∅
  removedNodes := ∅

def staleChannelUpdateAgeLimitSecs : ℕ := 60 * 60 * 24 * 14

def removedEntriesTrackingAgeLimitSecs : ℕ := 60 * 60 * 24 * 7

def maxExcessBytesForRelay : ℕ := 8192

def maxValueMsat : ℕ := 2100000000000000000

def u32Max : ℕ := 2 ^ 32 - 1

/-! ### Signatures and lookups -/

/-- The checks on keys and signatures, as predicates. The post-quantum ones are over the message
with its signature record taken off. -/
structure GossipCrypto where
  /-- `PublicKey::from_slice` succeeds. -/
  validPubkey : NodeId → Bool
  verifyNodeAnnouncement : UnsignedNodeAnnouncement → Bytes 64 → NodeId → Bool
  verifyChannelAnnouncement : UnsignedChannelAnnouncement → Bytes 64 → NodeId → Bool
  verifyChannelUpdate : UnsignedChannelUpdate → Bytes 64 → NodeId → Bool
  pqVerifyNodeAnnouncement :
    Bytes pqPublicKeyLen → UnsignedNodeAnnouncement → Bytes pqSignatureLen → Bool
  pqVerifyChannelUpdate :
    Bytes pqPublicKeyLen → UnsignedChannelUpdate → Bytes pqSignatureLen → Bool
  /-- The script of the funding output of two keys. -/
  fundingScript : NodeId → NodeId → List UInt8

inductive UtxoLookupError where
  | unknownChain
  | unknownTx
deriving DecidableEq, Repr

structure TxOut where
  value : ℕ
  scriptPubkey : List UInt8
deriving DecidableEq

/-- `enum UtxoResult`; an asynchronous lookup may have been resolved by the time it is looked at. -/
inductive UtxoResult where
  | sync (result : Except UtxoLookupError TxOut)
  | async (complete : Option (Except UtxoLookupError TxOut))

structure Surroundings where
  /-- The time, in seconds since the epoch. -/
  now : ℕ
  /-- The same channel announcement is being checked already. -/
  announcementPending : Bool
  /-- A channel of the announced node is being checked. -/
  nodePending : Bool
  /-- The updated channel is being checked. -/
  updatePending : Bool

def toHexString (bytes : List UInt8) : String :=
  String.ofList (bytes.flatMap fun b =>
    Nat.toDigits 16 (b.toNat / 16) ++ Nat.toDigits 16 (b.toNat % 16))

/-! ### Node announcements -/

/-- A warning to the peer, as `secp_verify_sig!` and `get_pubkey_from_node_id!` send it. -/
def warning (text : String) : Failure := .ofError text (.sendWarningMessage text .trace)

variable (crypto : GossipCrypto)

/-- `get_pubkey_from_node_id!`, followed by `secp_verify_sig!` -/
def checkSignature (msgType : String) (key : NodeId) (verified : Bool) : Outcome Unit := do
  guardWith (crypto.validPubkey key) (warning ("Invalid public key on " ++ msgType ++ " message"))
  guardWith verified (warning ("Invalid signature on " ++ msgType ++ " message"))

/-- The message with `n` bytes of its excess data taken off. -/
def UnsignedNodeAnnouncement.truncate (msg : UnsignedNodeAnnouncement) (n : ℕ) :
    UnsignedNodeAnnouncement :=
  { msg with excessData := msg.excessData.take (msg.excessData.length - n) }

variable (msg : UnsignedChannelUpdate)

def UnsignedChannelUpdate.truncate (n : ℕ) : UnsignedChannelUpdate :=
  { msg with excessData := msg.excessData.take (msg.excessData.length - n) }

/-- The ML-DSA signature of a node announcement fits the key it carries. -/
def pqSelfConsistent (msg : UnsignedNodeAnnouncement) (records : PqRecords) : Bool :=
  match records.pubkey, records.signature with
  | some pubkey, some sig =>
    crypto.pqVerifyNodeAnnouncement pubkey (msg.truncate records.signatureRecordLen) sig
  | _, _ => true

def verifyNodeAnnouncement (crypto : GossipCrypto) (msg : NodeAnnouncement) : Outcome Unit := do
  checkSignature crypto "node_announcement" msg.contents.nodeId
    (crypto.verifyNodeAnnouncement msg.contents msg.signature msg.contents.nodeId)
  let records ← Outcome.ofPanic (parseRecords msg.contents.excessData)
  guardWith (records.pubkey.isSome = records.signature.isSome ∧
      (records.kemKey.isSome → records.signature.isSome))
    (.ofError "PQ: rejecting node_announcement with a half-present record set"
      (.ignoreAndLog .gossip))
  guardWith (pqSelfConsistent crypto msg.contents records)
    (warning "PQ: invalid ML-DSA signature on node_announcement")

/-- A pinned key and the key an announcement carries: it may not be another one, nor be missing. -/
def checkContinuity {n : ℕ} (pinned announced : Option (Bytes n)) (substituted dropped : String) :
    Outcome Unit :=
  match pinned, announced with
  | some key, some new => guardWith (key = new) (.ofError substituted (.ignoreAndLog .gossip))
  | some _, none => .error (.ofError dropped (.ignoreAndLog .gossip))
  | none, _ => .ok ()

variable (minTime : ℕ) (node : NodeInfo) (channel : ChannelInfo)

/-- The post-quantum part of `update_node_from_announcement_intern`: the checks, then the node with
the keys of the announcement pinned where none were. -/
def NodeInfo.pin (records : PqRecords) : Outcome NodeInfo := do
  checkContinuity node.pqNodeId records.pubkey
    "PQ: rejecting node_announcement, ML-DSA pubkey does not match pinned key"
    "PQ: rejecting node_announcement from post-quantum node missing ML-DSA key"
  checkContinuity node.pqKemNodeId records.kemKey
    "PQ: rejecting node_announcement, ML-KEM key does not match pinned key"
    "PQ: rejecting node_announcement from post-quantum node missing ML-KEM key"
  guardWith (node.pqNodeId.isSome ∨ records.pubkey.isSome → records.signature.isSome)
    (.ofError "PQ: rejecting node_announcement from post-quantum node missing ML-DSA signature"
      (.ignoreAndLog .gossip))
  .ok { node with
    pqNodeId := node.pqNodeId.or records.pubkey
    pqKemNodeId := node.pqKemNodeId.or records.kemKey }

def NodeInfo.checkNewer (timestamp : ℕ) : Outcome Unit :=
  match node.announcementInfo with
  | none => .ok ()
  | some info => do
    guardWith (info.lastUpdate ≤ timestamp)
      (.ofError "Update older than last processed update" .ignoreDuplicateGossip)
    guardWith (info.lastUpdate ≠ timestamp)
      (.ofError "Update had the same timestamp as last processed update" .ignoreDuplicateGossip)

def shouldRelay (msg : UnsignedNodeAnnouncement) : Bool :=
  msg.excessData.length ≤ maxExcessBytesForRelay ∧
    msg.excessAddressData.length ≤ maxExcessBytesForRelay ∧
    msg.excessData.length + msg.excessAddressData.length ≤ maxExcessBytesForRelay

def announcementInfoOf (msg : UnsignedNodeAnnouncement) (fullMsg : Option NodeAnnouncement) :
    NodeAnnouncementInfo :=
  match fullMsg with
  | some full => if shouldRelay msg then .relayed full else .locally msg.timestamp msg.body
  | none => .locally msg.timestamp msg.body

/-- The node with the keys of a signed announcement pinned; an unsigned one pins nothing. -/
def NodeInfo.pinSigned (msg : UnsignedNodeAnnouncement) (fullMsg : Option NodeAnnouncement) :
    Outcome NodeInfo :=
  match fullMsg with
  | none => .ok node
  | some _ => Outcome.ofPanic (parseRecords msg.excessData) >>= node.pin

variable (g : NetworkGraph)

variable (chan : ChannelInfo) (around : Surroundings) (now shortChannelId : ℕ) (info : ChannelInfo)
  (nodeId : NodeId)

def NetworkGraph.updateNodeFromAnnouncementIntern (msg : UnsignedNodeAnnouncement)
    (fullMsg : Option NodeAnnouncement) : Outcome NetworkGraph :=
  match g.nodes.lookup msg.nodeId with
  | none => do
    guardWith (!around.nodePending)
      (.ofError "Awaiting channel_announcement validation to accept node_announcement"
        (.ignoreAndLog .gossip))
    .error (.ofError "No existing channels for node_announcement" .ignoreError)
  | some node => do
    node.checkNewer msg.timestamp
    let node ← node.pinSigned msg fullMsg
    let node := { node with announcementInfo := some (announcementInfoOf msg fullMsg) }
    .ok { g with nodes := g.nodes.insert msg.nodeId node }

/-- The first check of `update_node_from_announcement`: the announcement is not one the node has. -/
def NetworkGraph.checkNotKnown (msg : UnsignedNodeAnnouncement) : Outcome Unit :=
  match (g.nodes.lookup msg.nodeId).bind NodeInfo.announcementInfo with
  | none => .ok ()
  | some info =>
    guardWith (info.lastUpdate ≠ msg.timestamp)
      (.ofError "Update had the same timestamp as last processed update" .ignoreDuplicateGossip)

def NetworkGraph.updateNodeFromAnnouncement (crypto : GossipCrypto)
    (around : Surroundings) (msg : NodeAnnouncement) : Outcome NetworkGraph := do
  g.checkNotKnown msg.contents
  verifyNodeAnnouncement crypto msg
  g.updateNodeFromAnnouncementIntern around msg.contents (some msg)

def NetworkGraph.updateNodeFromUnsignedAnnouncement (msg : UnsignedNodeAnnouncement) :
    Outcome NetworkGraph :=
  g.updateNodeFromAnnouncementIntern around msg none

/-! ### Channels leaving the graph -/

/-- `remove_from_node!`: the channel leaves the node's list, and a node whose list is then empty
gives its counter back and is handed to `removeNode`. The second component is what `removeNode`
keeps. -/
def removeFromNode {σ : Type} (removeNode : NodeId → NetworkGraph × σ → NetworkGraph × σ)
    (shortChannelId : ℕ) (nodeId : NodeId) (s : NetworkGraph × σ) :
    Except Panic (NetworkGraph × σ) :=
  match s.1.nodes.lookup nodeId with
  | none => .error .unreachable
  | some node =>
    let channels := node.channels.filter (· ≠ shortChannelId)
    let g := { s.1 with nodes := s.1.nodes.insert nodeId { node with channels := channels } }
    if channels.isEmpty then
      let g := { g with removedNodeCounters := node.nodeCounter :: g.removedNodeCounters }
      .ok (removeNode nodeId (g, s.2))
    else .ok (g, s.2)

def removeChannelInNodesCallback {σ : Type}
    (removeNode : NodeId → NetworkGraph × σ → NetworkGraph × σ) (chan : ChannelInfo)
    (shortChannelId : ℕ) (s : NetworkGraph × σ) : Except Panic (NetworkGraph × σ) := do
  let s ← removeFromNode removeNode shortChannelId chan.nodeOne s
  removeFromNode removeNode shortChannelId chan.nodeTwo s

def removeEntry (s : NetworkGraph × Unit) : NetworkGraph × Unit :=
  ({ s.1 with nodes := s.1.nodes.erase nodeId }, ())

def NetworkGraph.removeChannelInNodes : Except Panic NetworkGraph := do
  let s ← removeChannelInNodesCallback removeEntry chan shortChannelId (g, ())
  .ok s.1

def NetworkGraph.channelFailedPermanent : Except Panic NetworkGraph :=
  match g.channels.lookup shortChannelId with
  | none => .ok g
  | some chan =>
    let g := { g with
      channels := g.channels.erase shortChannelId
      removedChannels := g.removedChannels.insert shortChannelId (some now) }
    g.removeChannelInNodes chan shortChannelId

def ChannelInfo.otherNodeId : NodeId := if nodeId = chan.nodeOne then chan.nodeTwo else chan.nodeOne

/-- In `node_failed_permanent`: the channel leaves the list of the node at its other end, if that is
in the graph. -/
def NetworkGraph.leaveOther (scid : ℕ) (otherNodeId : NodeId) : NetworkGraph :=
  match g.nodes.lookup otherNodeId with
  | none => g
  | some node =>
    let channels := node.channels.filter (scid ≠ ·)
    if channels.isEmpty then
      { g with
        nodes := g.nodes.erase otherNodeId
        removedNodeCounters := node.nodeCounter :: g.removedNodeCounters }
    else { g with nodes := g.nodes.insert otherNodeId { node with channels := channels } }

/-- One turn of the loop of `node_failed_permanent`. -/
def NetworkGraph.failChannelOf (now scid : ℕ) : Except Panic NetworkGraph :=
  match g.channels.lookup scid with
  | none => .error .debugAssertion
  | some chan =>
    let g := { g with channels := g.channels.erase scid }
    let g := g.leaveOther scid (chan.otherNodeId nodeId)
    .ok { g with removedChannels := g.removedChannels.insert scid (some now) }

def NetworkGraph.nodeFailedPermanent : Except Panic NetworkGraph :=
  match g.nodes.lookup nodeId with
  | none => .ok g
  | some node => do
    let g := { g with nodes := g.nodes.erase nodeId }
    let g ← node.channels.foldlM (fun g scid => g.failChannelOf nodeId now scid) g
    .ok { g with
      removedNodeCounters := node.nodeCounter :: g.removedNodeCounters
      removedNodes := g.removedNodes.insert nodeId (some now) }

/-- A directional update that is not older than `minTime`. -/
def dropStaleUpdate (update : Option ChannelUpdateInfo) : Option ChannelUpdateInfo :=
  update.filter fun info => minTime ≤ info.lastUpdate

def ChannelInfo.dropStale : ChannelInfo :=
  { info with
    oneToTwo := dropStaleUpdate minTime info.oneToTwo
    twoToOne := dropStaleUpdate minTime info.twoToOne }

def ChannelInfo.isStale : Bool :=
  (info.oneToTwo.isNone ∨ info.twoToOne.isNone) ∧ info.announcementReceivedTime < minTime

/-- In `remove_stale_channels_and_tracking_with_time` a node left without channels is only noted. -/
def noteNode (s : NetworkGraph × List NodeId) : NetworkGraph × List NodeId := (s.1, nodeId :: s.2)

/-- One turn of the loop that removes the stale channels, which are out of the graph already. -/
def removeStaleChannel (s : NetworkGraph × List NodeId) (entry : (_ : ℕ) × ChannelInfo) :
    Except Panic (NetworkGraph × List NodeId) := do
  let s ← removeChannelInNodesCallback noteNode entry.2 entry.1 s
  .ok ({ s.1 with removedChannels := s.1.removedChannels.insert entry.1 (some now) }, s.2)

def shouldKeepTracking (time : Option ℕ) : Bool :=
  match time with
  | some time => now - time < removedEntriesTrackingAgeLimitSecs
  | none => false

/-- The graph without the channels that are stale, and without the nodes that had no others. The
code goes through the channels in the order of a hash set; here it is that of the map. -/
def NetworkGraph.removeStaleChannels (minTime : ℕ) : Except Panic NetworkGraph := do
  let g := { g with channels := mapValues (fun _ info => info.dropStale minTime) g.channels }
  let stale := (retain (fun _ info => info.isStale minTime) g.channels).entries
  let g := { g with channels := retain (fun _ info => !info.isStale minTime) g.channels }
  let s ← stale.foldlM (removeStaleChannel now) (g, [])
  .ok { s.1 with nodes := retain (fun nodeId _ => nodeId ∉ s.2) s.1.nodes }

def NetworkGraph.removeStaleChannelsAndTrackingWithTime : Except Panic NetworkGraph :=
  if u32Max < now ∨ now < staleChannelUpdateAgeLimitSecs then .ok g
  else do
    let g ← g.removeStaleChannels now (now - staleChannelUpdateAgeLimitSecs)
    .ok { g with
      removedChannels := retain (fun _ time => shouldKeepTracking now time) g.removedChannels
      removedNodes := retain (fun _ time => shouldKeepTracking now time) g.removedNodes }

/-! ### Channels entering the graph -/

/-- A counter for a new node: the last one given back, or a fresh one. -/
def NetworkGraph.takeCounter : ℕ × NetworkGraph :=
  match g.removedNodeCounters with
  | counter :: rest => (counter, { g with removedNodeCounters := rest })
  | [] => (g.nextNodeCounter % 2 ^ 32, { g with nextNodeCounter := g.nextNodeCounter + 1 })

def NodeInfo.fresh (counter : ℕ) : NodeInfo where
  channels := [shortChannelId]
  announcementInfo := none
  pqNodeId := none
  pqKemNodeId := none
  nodeCounter := counter

/-- One turn of the loop of `add_channel_between_nodes`: the channel joins the node's list, the node
being created where it is not in the graph. Returns the node's counter as well. -/
def NetworkGraph.joinNode : ℕ × NetworkGraph :=
  match g.nodes.lookup nodeId with
  | some node =>
    let node := { node with channels := node.channels ++ [shortChannelId] }
    (node.nodeCounter, { g with nodes := g.nodes.insert nodeId node })
  | none =>
    let (counter, g) := g.takeCounter
    (counter, { g with nodes := g.nodes.insert nodeId (NodeInfo.fresh shortChannelId counter) })

/-- The first part of `add_channel_between_nodes`: a channel that is known already makes room if the
new one was seen on chain. -/
def NetworkGraph.makeRoom (utxoValue : Option ℕ) : Outcome NetworkGraph :=
  match g.channels.lookup shortChannelId, utxoValue with
  | none, _ => .ok g
  | some old, some _ => Outcome.ofPanic (g.removeChannelInNodes old shortChannelId)
  | some _, none => .error (.ofError "Already have knowledge of channel" .ignoreDuplicateGossip)

/-- The second part: the channel is entered between its two nodes. -/
def NetworkGraph.enterChannel : NetworkGraph :=
  let (counterOne, g) := g.joinNode shortChannelId info.nodeOne
  let (counterTwo, g) := g.joinNode shortChannelId info.nodeTwo
  let info := { info with nodeOneCounter := counterOne, nodeTwoCounter := counterTwo }
  { g with channels := g.channels.insert shortChannelId info }

def NetworkGraph.addChannelBetweenNodes (utxoValue : Option ℕ) : Outcome NetworkGraph := do
  let g ← g.makeRoom shortChannelId utxoValue
  .ok (g.enterChannel shortChannelId info)

def checkSorted (nodeId1 nodeId2 : NodeId) : Outcome Unit :=
  guardWith (nodeId1.1 < nodeId2.1)
    (.ofError "node_ids in channel_announcements must be sorted" .ignoreError)

def NetworkGraph.addChannelFromPartialAnnouncement (capacitySats : Option ℕ) (timestamp : ℕ)
    (features : List UInt8) (nodeId1 nodeId2 : NodeId) : Outcome NetworkGraph := do
  checkSorted nodeId1 nodeId2
  g.addChannelBetweenNodes shortChannelId
    { features := features, nodeOne := nodeId1, nodeTwo := nodeId2, nodeOneCounter := u32Max,
      nodeTwoCounter := u32Max, capacitySats := capacitySats, oneToTwo := none, twoToOne := none,
      announcementMessage := none, announcementReceivedTime := timestamp } none

/-- In `pre_channel_announcement_validation_check`, of a channel that is known. -/
def ChannelInfo.checkWorthChecking (msg : UnsignedChannelAnnouncement)
    (utxoLookup : Option UtxoResult) : Outcome Unit :=
  if chan.capacitySats.isSome then
    guardWith (¬ (msg.nodeId1 = chan.nodeOne ∧ msg.nodeId2 = chan.nodeTwo))
      (.ofError "Already have chain-validated channel" .ignoreDuplicateGossip)
  else
    guardWith utxoLookup.isSome
      (.ofError "Already have non-chain-validated channel" .ignoreDuplicateGossip)

def NetworkGraph.preChannelAnnouncementValidationCheck
    (msg : UnsignedChannelAnnouncement) (utxoLookup : Option UtxoResult) : Outcome Unit := do
  checkSorted msg.nodeId1 msg.nodeId2
  match g.channels.lookup msg.shortChannelId with
  | some chan => chan.checkWorthChecking msg utxoLookup
  | none => .ok ()

def verifyChannelAnnouncement (crypto : GossipCrypto) (msg : ChannelAnnouncement) :
    Outcome Unit := do
  let check (key : NodeId) (sig : Bytes 64) : Outcome Unit :=
    checkSignature crypto "channel_announcement" key
      (crypto.verifyChannelAnnouncement msg.contents sig key)
  check msg.contents.nodeId1 msg.nodeSignature1
  check msg.contents.nodeId2 msg.nodeSignature2
  check msg.contents.bitcoinKey1 msg.bitcoinSignature1
  check msg.contents.bitcoinKey2 msg.bitcoinSignature2

/-- `handle_result` of `check_channel_announcement` -/
def handleResult (msg : UnsignedChannelAnnouncement) :
    Except UtxoLookupError TxOut → Outcome (Option ℕ)
  | .ok out => do
    let expected := crypto.fundingScript msg.bitcoinKey1 msg.bitcoinKey2
    guardWith (out.scriptPubkey = expected)
      (.ofError ("Channel announcement key (" ++ toHexString expected ++
        ") didn't match on-chain script (" ++ toHexString out.scriptPubkey ++ ")") .ignoreError)
    .ok (some out.value)
  | .error .unknownChain =>
    .error (.ofError ("Channel announced on an unknown chain (" ++
      toHexString msg.chainHash.1 ++ ")") .ignoreError)
  | .error .unknownTx =>
    .error (.ofError "Channel announced without corresponding UTXO entry" .ignoreError)

/-- `check_channel_announcement`: the value of the funding output, if there is a lookup to ask. -/
def checkChannelAnnouncement (utxoLookup : Option UtxoResult) (msg : UnsignedChannelAnnouncement) :
    Outcome (Option ℕ) := do
  guardWith (!around.announcementPending)
    (.ofError "Channel announcement is already being checked" .ignoreDuplicateGossip)
  match utxoLookup with
  | none => .ok none
  | some (.sync result) => handleResult crypto msg result
  | some (.async (some result)) => handleResult crypto msg result
  | some (.async none) => .error (.ofError "Channel being checked async" (.ignoreAndLog .gossip))

/-- The `ChannelInfo` of an announced channel. -/
def channelInfoOf (msg : UnsignedChannelAnnouncement) (fullMsg : Option ChannelAnnouncement)
    (utxoValue : Option ℕ) (now : ℕ) : ChannelInfo where
  features := msg.features
  nodeOne := msg.nodeId1
  nodeTwo := msg.nodeId2
  nodeOneCounter := u32Max
  nodeTwoCounter := u32Max
  capacitySats := utxoValue
  oneToTwo := none
  twoToOne := none
  announcementMessage := if msg.excessData.length ≤ maxExcessBytesForRelay then fullMsg else none
  announcementReceivedTime := now

def NetworkGraph.updateChannelFromUnsignedAnnouncementIntern
    (crypto : GossipCrypto) (around : Surroundings) (msg : UnsignedChannelAnnouncement)
    (fullMsg : Option ChannelAnnouncement) (utxoLookup : Option UtxoResult) :
    Outcome NetworkGraph := do
  guardWith (¬ (msg.nodeId1 = msg.nodeId2 ∨ msg.bitcoinKey1 = msg.bitcoinKey2))
    (.ofError "Channel announcement node had a channel with itself" .ignoreError)
  guardWith (msg.chainHash = g.chainHash)
    (.ofError "Channel announcement chain hash does not match genesis hash" (.ignoreAndLog .debug))
  guardWith (¬ (msg.shortChannelId ∈ g.removedChannels ∨ msg.nodeId1 ∈ g.removedNodes ∨
      msg.nodeId2 ∈ g.removedNodes))
    (.ofError ("Channel with SCID " ++ toString msg.shortChannelId ++
      " or one of its nodes was removed from our network graph recently") (.ignoreAndLog .gossip))
  let utxoValue ← checkChannelAnnouncement crypto around utxoLookup msg
  g.addChannelBetweenNodes msg.shortChannelId (channelInfoOf msg fullMsg utxoValue around.now)
    utxoValue

def NetworkGraph.updateChannelFromAnnouncement (crypto : GossipCrypto)
    (around : Surroundings) (msg : ChannelAnnouncement) (utxoLookup : Option UtxoResult) :
    Outcome NetworkGraph := do
  g.preChannelAnnouncementValidationCheck msg.contents utxoLookup
  verifyChannelAnnouncement crypto msg
  g.updateChannelFromUnsignedAnnouncementIntern crypto around msg.contents (some msg) utxoLookup

def NetworkGraph.updateChannelFromUnsignedAnnouncement (crypto : GossipCrypto)
    (around : Surroundings) (msg : UnsignedChannelAnnouncement) (utxoLookup : Option UtxoResult) :
    Outcome NetworkGraph := do
  g.preChannelAnnouncementValidationCheck msg utxoLookup
  g.updateChannelFromUnsignedAnnouncementIntern crypto around msg none utxoLookup

/-! ### Channel updates -/

def UnsignedChannelUpdate.fromTwo : Bool := msg.channelFlags &&& 1 = 1

def checkUpdateLatest (timestamp : ℕ) : Option ChannelUpdateInfo → Outcome Unit
  | none => .ok ()
  | some existing => do
    guardWith (existing.lastUpdate ≤ timestamp)
      (.ofError "Update older than last processed update" .ignoreDuplicateGossip)
    guardWith (existing.lastUpdate ≠ timestamp)
      (.ofError "Update had same timestamp as last processed update" .ignoreDuplicateGossip)

/-- The capacity of the channel is sane and not below the update's maximum. -/
def ChannelInfo.fits (htlcMaximumMsat : ℕ) : Bool :=
  match channel.capacitySats with
  | none => true
  | some capacity => capacity ≤ maxValueMsat / 1000 ∧ htlcMaximumMsat ≤ capacity * 1000

def checkMsgSanity : Outcome Unit := do
  guardWith (channel.fits msg.htlcMaximumMsat)
    (.ofError "htlc_maximum_msat is larger than channel capacity or capacity is bogus" .ignoreError)
  checkUpdateLatest msg.timestamp (if msg.fromTwo then channel.twoToOne else channel.oneToTwo)

/-- The post-quantum part of the signature check: a pinned key wants a signature. -/
def checkPqSignature (pinned : Option (Bytes pqPublicKeyLen))
    (msg : UnsignedChannelUpdate) : Outcome Unit :=
  match pinned with
  | none => .ok ()
  | some key => do
    let records ← Outcome.ofPanic (parseRecords msg.excessData)
    match records.signature with
    | some sig =>
      guardWith (crypto.pqVerifyChannelUpdate key (msg.truncate records.signatureRecordLen) sig)
        (.ofError "PQ: invalid ML-DSA signature on channel_update" (.ignoreAndLog .gossip))
    | none =>
      .error (.ofError
        "PQ: rejecting channel_update from post-quantum node missing ML-DSA signature"
        (.ignoreAndLog .gossip))

/-- The signature part of `update_channel_internal`. -/
def NetworkGraph.checkUpdateSignature (crypto : GossipCrypto)
    (msg : UnsignedChannelUpdate) (nodeId : NodeId) : Option (Bytes 64) → Outcome Unit
  | none => .ok ()
  | some sig => do
    guardWith (crypto.validPubkey nodeId)
      (.ofError "Couldn't parse source node pubkey" (.ignoreAndLog .debug))
    guardWith (crypto.verifyChannelUpdate msg sig nodeId)
      (warning "Invalid signature on channel_update message")
    checkPqSignature crypto ((g.nodes.lookup nodeId).bind NodeInfo.pqNodeId) msg

/-- The time checks of `update_channel_internal`. -/
def checkUpdateTime (timestamp : ℕ) : Outcome Unit := do
  let oldest ← Outcome.ofPanic (subU64 now staleChannelUpdateAgeLimitSecs)
  guardWith (oldest ≤ timestamp)
    (.ofError "channel_update is older than two weeks old" (.ignoreAndLog .gossip))
  guardWith (timestamp ≤ now + 60 * 60 * 24)
    (.ofError "channel_update has a timestamp more than a day in the future"
      (.ignoreAndLog .gossip))

/-- `new_channel_info` of `update_channel_internal` -/
def channelUpdateInfoOf (fullMsg : Option ChannelUpdate) : ChannelUpdateInfo where
  enabled := msg.channelFlags &&& 2 ≠ 2
  lastUpdate := msg.timestamp
  cltvExpiryDelta := msg.cltvExpiryDelta
  htlcMinimumMsat := msg.htlcMinimumMsat
  htlcMaximumMsat := msg.htlcMaximumMsat
  feeBaseMsat := msg.feeBaseMsat
  feeProportionalMillionths := msg.feeProportionalMillionths
  lastUpdateMessage := if msg.excessData.length ≤ maxExcessBytesForRelay then fullMsg else none

def ChannelInfo.withUpdate (msg : UnsignedChannelUpdate) (fullMsg : Option ChannelUpdate) :
    ChannelInfo :=
  if msg.fromTwo then { channel with twoToOne := some (channelUpdateInfoOf msg fullMsg) }
  else { channel with oneToTwo := some (channelUpdateInfoOf msg fullMsg) }

/-- `update_channel_internal`. The graph is locked anew between the checks and the change; nothing
else runs in between here, so the second look at the channel finds what the first one found. -/
def NetworkGraph.updateChannelInternal (crypto : GossipCrypto)
    (around : Surroundings) (msg : UnsignedChannelUpdate) (fullMsg : Option ChannelUpdate)
    (sig : Option (Bytes 64)) (onlyVerify : Bool) : Outcome NetworkGraph := do
  guardWith (msg.chainHash = g.chainHash)
    (.ofError "Channel update chain hash does not match genesis hash" (.ignoreAndLog .debug))
  checkUpdateTime around.now msg.timestamp
  guardWith (msg.htlcMaximumMsat ≤ maxValueMsat)
    (.ofError "htlc_maximum_msat is larger than maximum possible msats" .ignoreError)
  match g.channels.lookup msg.shortChannelId with
  | none =>
    guardWith (!around.updatePending)
      (.ofError "Awaiting channel_announcement validation to accept channel_update"
        (.ignoreAndLog .gossip))
    .error (.ofError "Couldn't find channel for update" (.ignoreAndLog .gossip))
  | some channel =>
    checkMsgSanity msg channel
    g.checkUpdateSignature crypto msg (if msg.fromTwo then channel.nodeTwo else channel.nodeOne) sig
    if onlyVerify then .ok g
    else
      .ok { g with
        channels := g.channels.insert msg.shortChannelId (channel.withUpdate msg fullMsg) }

def NetworkGraph.updateChannel (crypto : GossipCrypto) (around : Surroundings)
    (msg : ChannelUpdate) : Outcome NetworkGraph :=
  g.updateChannelInternal crypto around msg.contents (some msg) (some msg.signature) false

def NetworkGraph.updateChannelUnsigned (crypto : GossipCrypto)
    (around : Surroundings) (msg : UnsignedChannelUpdate) : Outcome NetworkGraph :=
  g.updateChannelInternal crypto around msg none none false

def NetworkGraph.verifyChannelUpdate (crypto : GossipCrypto)
    (around : Surroundings) (msg : ChannelUpdate) : Outcome NetworkGraph :=
  g.updateChannelInternal crypto around msg.contents (some msg) (some msg.signature) true

/-! ### Runs -/

inductive Operation where
  | updateNodeFromAnnouncement (msg : NodeAnnouncement)
  | updateNodeFromUnsignedAnnouncement (msg : UnsignedNodeAnnouncement)
  | updateChannelFromAnnouncement (msg : ChannelAnnouncement) (utxoLookup : Option UtxoResult)
  | addChannelFromPartialAnnouncement (shortChannelId : ℕ) (capacitySats : Option ℕ)
      (timestamp : ℕ) (features : List UInt8) (nodeId1 nodeId2 : NodeId)
  | updateChannel (msg : ChannelUpdate)
  | channelFailedPermanent (shortChannelId : ℕ)
  | nodeFailedPermanent (nodeId : NodeId)
  | removeStaleChannelsAndTrackingWithTime (currentTimeUnix : ℕ)

def Operation.run (g : NetworkGraph) : Operation → Outcome NetworkGraph
  | .updateNodeFromAnnouncement msg => g.updateNodeFromAnnouncement crypto around msg
  | .updateNodeFromUnsignedAnnouncement msg => g.updateNodeFromUnsignedAnnouncement around msg
  | .updateChannelFromAnnouncement msg utxoLookup =>
    g.updateChannelFromAnnouncement crypto around msg utxoLookup
  | .addChannelFromPartialAnnouncement scid capacity timestamp features nodeId1 nodeId2 =>
    g.addChannelFromPartialAnnouncement scid capacity timestamp features nodeId1 nodeId2
  | .updateChannel msg => g.updateChannel crypto around msg
  | .channelFailedPermanent scid => Outcome.ofPanic (g.channelFailedPermanent around.now scid)
  | .nodeFailedPermanent nodeId => Outcome.ofPanic (g.nodeFailedPermanent around.now nodeId)
  | .removeStaleChannelsAndTrackingWithTime now =>
    Outcome.ofPanic (g.removeStaleChannelsAndTrackingWithTime now)

/-- An operation as a step of the graph: one that is refused changes nothing. -/
def step (g : NetworkGraph) (op : Operation) : Except Panic NetworkGraph :=
  match op.run crypto around g with
  | .ok g' => .ok g'
  | .error (.refused _) => .ok g
  | .error (.panicked p) => .error p

inductive Reachable (crypto : GossipCrypto) : NetworkGraph → Prop
  | new (chainHash : Bytes 32) : Reachable crypto (.new chainHash)
  | step {g g' : NetworkGraph} (around : Surroundings) (op : Operation) :
      Reachable crypto g → step crypto around g op = .ok g' → Reachable crypto g'

end PqLightning.Gossip
