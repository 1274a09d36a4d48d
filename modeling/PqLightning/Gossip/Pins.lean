import PqLightning.Gossip.Graph

/-!
# Continuity of the pinned keys

The first valid post-quantum announcement of a node pins its ML-DSA key and its ML-KEM key in the
node's `NodeInfo`, and later announcements with other keys are refused. The keys are only as lasting
as the `NodeInfo`, which comes and goes with the channels of the node.

Most operations only rewrite nodes of the graph or take them out (`ShrinksBy`), or only bring nodes
in (`enterChannel_pins`), and neither lets a node that stays lose a key. One operation does both: a
channel announcement that is confirmed by a UTXO lookup replaces a channel already known. A node
that has no other channel is then taken out and put back in, without its keys.
-/

namespace PqLightning.Gossip

open AssocMap Option AList NetworkGraph NodeInfo

variable {crypto : GossipCrypto} {around : Surroundings} {g g' g'' : NetworkGraph}

/-! ### Keys that stay -/

/-- Every key pinned in `info` is pinned in `info'`. -/
structure PinsKept (info info' : NodeInfo) : Prop where
  dsa : ∀ key, info.pqNodeId = some key → info'.pqNodeId = some key
  kem : ∀ key, info.pqKemNodeId = some key → info'.pqKemNodeId = some key

theorem PinsKept.refl (info : NodeInfo) : PinsKept info info := ⟨fun _ h => h, fun _ h => h⟩

theorem PinsKept.trans {a b c : NodeInfo} (h : PinsKept a b) (h' : PinsKept b c) : PinsKept a c :=
  ⟨fun key hk => h'.dsa key (h.dsa key hk), fun key hk => h'.kem key (h.kem key hk)⟩

def NodeInfo.Pinned (info : NodeInfo) : Prop := info.pqNodeId.isSome ∨ info.pqKemNodeId.isSome

variable {info : NodeInfo}

/-- A node without pinned keys keeps those it has anywhere. -/
theorem PinsKept.of_not_pinned (h : ¬ info.Pinned) (info' : NodeInfo) : PinsKept info info' := by
  rw [NodeInfo.Pinned, not_or] at h
  refine ⟨fun key hk => absurd ?_ h.1, fun key hk => absurd ?_ h.2⟩
  · rw [hk, isSome_some]
  · rw [hk, isSome_some]

variable {info info' : NodeInfo}

/-- A node without pinned keys has kept those of nobody who had some. -/
theorem PinsKept.pinned (h : PinsKept info info') (hp : info.Pinned) : info'.Pinned := by
  rcases hp with hp | hp
  · obtain ⟨key, hkey⟩ := isSome_iff_exists.mp hp
    exact .inl (by rw [h.dsa key hkey, isSome_some])
  · obtain ⟨key, hkey⟩ := isSome_iff_exists.mp hp
    exact .inr (by rw [h.kem key hkey, isSome_some])

/-- Every node of `g'` was in `g`, and has the keys it had there. -/
def Shrinks (g g' : NetworkGraph) : Prop :=
  ∀ n info', g'.nodes.lookup n = some info' →
    ∃ info, g.nodes.lookup n = some info ∧ PinsKept info info'

/-- Every node of `g'` was in `g`, and is related to what it was there. -/
def ShrinksBy (R : NodeInfo → NodeInfo → Prop) (g g' : NetworkGraph) : Prop :=
  ∀ n info', g'.nodes.lookup n = some info' → ∃ info, g.nodes.lookup n = some info ∧ R info info'

/-- A relation that holds while a node keeps its keys, and over one step after another. -/
structure OfPins (R : NodeInfo → NodeInfo → Prop) : Prop where
  of_eq : ∀ {info info'}, info'.pqNodeId = info.pqNodeId → info'.pqKemNodeId = info.pqKemNodeId →
    R info info'
  trans : ∀ {a b c}, R a b → R b c → R a c

theorem PinsKept.ofPins : OfPins PinsKept where
  of_eq hdsa hkem := ⟨fun _ hk => hdsa.trans hk, fun _ hk => hkem.trans hk⟩
  trans := .trans

variable {n : NodeId} {scid : ℕ}

def NodeInfo.without (info : NodeInfo) (scid : ℕ) : NodeInfo :=
  { info with channels := info.channels.filter (· ≠ scid) }

theorem NodeInfo.pin_pinsKept {records : PqRecords}
    (h : info.pin records = .ok info') : PinsKept info info' := by
  simp only [pin, bind_eq_ok] at h
  obtain ⟨-, -, -, -, -, -, heq⟩ := h
  rw [← Except.ok.inj heq]
  refine ⟨fun key hk => ?_, fun key hk => ?_⟩
  · simp [hk]
  · simp [hk]

theorem NodeInfo.pinSigned_pinsKept {msg : UnsignedNodeAnnouncement}
    {fullMsg : Option NodeAnnouncement} (h : info.pinSigned msg fullMsg = .ok info') :
    PinsKept info info' := by
  cases fullMsg with
  | none =>
    rw [← Except.ok.inj h]
    exact .refl info
  | some full =>
    obtain ⟨records, -, hpin⟩ := bind_eq_ok.mp h
    exact pin_pinsKept hpin

theorem addChannelBetweenNodes_of_updateChannelFromAnnouncement {msg : ChannelAnnouncement}
    {utxoLookup : Option UtxoResult}
    (h : g.updateChannelFromAnnouncement crypto around msg utxoLookup = .ok g') :
    ∃ chanInfo utxoValue,
      g.addChannelBetweenNodes msg.contents.shortChannelId chanInfo utxoValue = .ok g' := by
  simp only [updateChannelFromAnnouncement,
    updateChannelFromUnsignedAnnouncementIntern, bind_eq_ok] at h
  obtain ⟨_, -, _, -, _, -, _, -, _, -, utxoValue, -, h⟩ := h
  exact ⟨_, utxoValue, h⟩

section

variable {R : NodeInfo → NodeInfo → Prop} (hR : OfPins R)

include hR

namespace OfPins

theorem of_nodes_eq (h : g'.nodes = g.nodes) : ShrinksBy R g g' := by
  intro n info hn
  rw [h] at hn
  exact ⟨info, hn, hR.of_eq rfl rfl⟩

theorem refl (g : NetworkGraph) : ShrinksBy R g g := hR.of_nodes_eq rfl

theorem comp (h : ShrinksBy R g g') (h' : ShrinksBy R g' g'') : ShrinksBy R g g'' := by
  intro n info'' hn
  obtain ⟨info', hn', hk'⟩ := h' n info'' hn
  obtain ⟨info, hn, hk⟩ := h n info' hn'
  exact ⟨info, hn, hR.trans hk hk'⟩

theorem erase {m : NodeId} (h : g'.nodes = g.nodes.erase m) : ShrinksBy R g g' := by
  intro n info hn
  rw [h] at hn
  by_cases hm : n = m
  · rw [hm, lookup_erase] at hn
    cases hn
  · rw [lookup_erase_ne hm] at hn
    exact ⟨info, hn, hR.of_eq rfl rfl⟩

theorem retain {p : NodeId → NodeInfo → Bool} (h : g'.nodes = retain p g.nodes) :
    ShrinksBy R g g' := by
  intro n info hn
  rw [h, lookup_retain, filter_eq_some_iff] at hn
  exact ⟨info, hn.1, hR.of_eq rfl rfl⟩

/-- A node of the graph is rewritten. -/
theorem insert {m : NodeId} (hm : g.nodes.lookup m = some info)
    (hk : R info info') (h : g'.nodes = g.nodes.insert m info') : ShrinksBy R g g' := by
  intro n info'' hn
  rw [h] at hn
  by_cases hnm : n = m
  · subst hnm
    rw [lookup_insert] at hn
    exact ⟨info, hm, Option.some.inj hn ▸ hk⟩
  · rw [lookup_insert_ne hnm] at hn
    exact ⟨info'', hn, hR.of_eq rfl rfl⟩

end OfPins

/-! ### Channels leaving the graph -/

section Removal

variable {σ : Type} {removeNode : NodeId → NetworkGraph × σ → NetworkGraph × σ}

theorem removeFromNode_shrinks (hr : ∀ n s, ShrinksBy R s.1 (removeNode n s).1)
    {s s' : NetworkGraph × σ} (h : removeFromNode removeNode scid n s = .ok s') :
    ShrinksBy R s.1 s'.1 := by
  simp only [removeFromNode] at h
  split at h
  · cases h
  next node hnode =>
    have hins : ∀ counters, ShrinksBy R s.1 { s.1 with
        nodes := s.1.nodes.insert n (node.without scid), removedNodeCounters := counters } := by
      refine fun _ => hR.insert hnode ?_ rfl
      exact hR.of_eq rfl rfl
    split at h
    · rw [← Except.ok.inj h]
      exact hR.comp (hins _) (hr n _)
    · rw [← Except.ok.inj h]
      exact hins _

theorem removeChannelInNodesCallback_shrinks (hr : ∀ n s, ShrinksBy R s.1 (removeNode n s).1)
    {chan : ChannelInfo} {s s' : NetworkGraph × σ}
    (h : removeChannelInNodesCallback removeNode chan scid s = .ok s') : ShrinksBy R s.1 s'.1 := by
  obtain ⟨s₁, h₁, h₂⟩ := bind_eq_ok.mp h
  exact hR.comp (removeFromNode_shrinks hR hr h₁) (removeFromNode_shrinks hR hr h₂)

end Removal

theorem removeChannelInNodes_shrinks {chan : ChannelInfo}
    (h : g.removeChannelInNodes chan scid = .ok g') : ShrinksBy R g g' := by
  obtain ⟨s, hs, heq⟩ := bind_eq_ok.mp h
  rw [← Except.ok.inj heq]
  exact removeChannelInNodesCallback_shrinks hR (fun _ _ => hR.erase rfl) hs

variable {now : ℕ}

theorem channelFailedPermanent_shrinks (h : g.channelFailedPermanent now scid = .ok g') :
    ShrinksBy R g g' := by
  simp only [channelFailedPermanent] at h
  split at h
  · rw [← Except.ok.inj h]
    exact hR.refl g
  · have hrest := removeChannelInNodes_shrinks hR h
    exact hR.comp (hR.of_nodes_eq rfl) hrest

theorem leaveOther_shrinks (g : NetworkGraph) (scid : ℕ) (m : NodeId) :
    ShrinksBy R g (g.leaveOther scid m) := by
  simp only [leaveOther]
  split
  · exact hR.refl g
  next node hnode =>
    split
    · exact hR.erase rfl
    · refine hR.insert hnode ?_ rfl
      exact hR.of_eq rfl rfl

theorem failChannelOf_shrinks (h : g.failChannelOf n now scid = .ok g') : ShrinksBy R g g' := by
  simp only [failChannelOf] at h
  split at h
  · cases h
  next chan _ =>
    rw [← Except.ok.inj h]
    let erased := { g with channels := g.channels.erase scid }
    have herased : ShrinksBy R g erased := hR.of_nodes_eq rfl
    exact hR.comp (hR.comp herased (leaveOther_shrinks hR erased scid (chan.otherNodeId n)))
      (hR.of_nodes_eq rfl)

theorem foldlM_shrinks {α σ : Type} (graph : σ → NetworkGraph) {f : σ → α → Except Panic σ}
    (hf : ∀ s a s', f s a = .ok s' → ShrinksBy R (graph s) (graph s')) (l : List α) (s s' : σ)
    (h : l.foldlM f s = .ok s') : ShrinksBy R (graph s) (graph s') := by
  induction l generalizing s with
  | nil =>
    rw [← Except.ok.inj h]
    exact hR.refl _
  | cons a l ih =>
    obtain ⟨s₁, h₁, h₂⟩ := bind_eq_ok.mp (List.foldlM_cons.symm.trans h)
    exact hR.comp (hf s a s₁ h₁) (ih s₁ h₂)

theorem nodeFailedPermanent_shrinks (h : g.nodeFailedPermanent now n = .ok g') :
    ShrinksBy R g g' := by
  simp only [nodeFailedPermanent] at h
  split at h
  · rw [← Except.ok.inj h]
    exact hR.refl g
  · obtain ⟨g₁, h₁, heq⟩ := bind_eq_ok.mp h
    have hloop := foldlM_shrinks hR id (fun _ _ _ h => failChannelOf_shrinks hR h) _ _ _ h₁
    rw [← Except.ok.inj heq]
    exact hR.comp (hR.comp (hR.erase rfl) hloop) (hR.of_nodes_eq rfl)

theorem removeStaleChannel_shrinks {s s' : NetworkGraph × List NodeId}
    {entry : (_ : ℕ) × ChannelInfo} (h : removeStaleChannel now s entry = .ok s') :
    ShrinksBy R s.1 s'.1 := by
  obtain ⟨s₁, h₁, heq⟩ := bind_eq_ok.mp h
  have hnote : ∀ n s, ShrinksBy R s.1 (noteNode n s).1 := fun _ s => hR.refl s.1
  have hs := removeChannelInNodesCallback_shrinks hR hnote h₁
  rw [← Except.ok.inj heq]
  exact hR.comp hs (hR.of_nodes_eq rfl)

theorem removeStaleChannels_shrinks {minTime : ℕ} (h : g.removeStaleChannels now minTime = .ok g') :
    ShrinksBy R g g' := by
  obtain ⟨s, hs, heq⟩ := bind_eq_ok.mp h
  have hloop := foldlM_shrinks hR Prod.fst (fun _ _ _ h => removeStaleChannel_shrinks hR h) _ _ _ hs
  rw [← Except.ok.inj heq]
  refine hR.comp (hR.comp (hR.of_nodes_eq rfl) hloop) ?_
  exact hR.retain (p := fun n _ => n ∉ s.2) rfl

theorem removeStaleChannelsAndTracking_shrinks
    (h : g.removeStaleChannelsAndTrackingWithTime now = .ok g') : ShrinksBy R g g' := by
  simp only [removeStaleChannelsAndTrackingWithTime] at h
  split at h
  · rw [← Except.ok.inj h]
    exact hR.refl g
  · obtain ⟨g₁, h₁, heq⟩ := bind_eq_ok.mp h
    rw [← Except.ok.inj heq]
    exact hR.comp (removeStaleChannels_shrinks hR h₁) (hR.of_nodes_eq rfl)

/-! ### Announcements of nodes and updates of channels -/

theorem updateNodeFromAnnouncementIntern_shrinks {msg : UnsignedNodeAnnouncement}
    {fullMsg : Option NodeAnnouncement}
    (hpinned : ∀ {node node'}, node.pinSigned msg fullMsg = .ok node' → R node node')
    (h : g.updateNodeFromAnnouncementIntern around msg fullMsg = .ok g') : ShrinksBy R g g' := by
  simp only [updateNodeFromAnnouncementIntern] at h
  split at h
  · obtain ⟨_, -, h⟩ := bind_eq_ok.mp h
    cases h
  next node hnode =>
    obtain ⟨_, -, h⟩ := bind_eq_ok.mp h
    obtain ⟨node', hpin, h⟩ := bind_eq_ok.mp h
    rw [← Except.ok.inj h]
    refine hR.insert hnode (hR.trans (hpinned hpin) ?_) rfl
    exact hR.of_eq rfl rfl

theorem updateNodeFromAnnouncement_shrinks {msg : NodeAnnouncement}
    (hpinned : ∀ {node node'}, node.pinSigned msg.contents (some msg) = .ok node' → R node node')
    (h : g.updateNodeFromAnnouncement crypto around msg = .ok g') : ShrinksBy R g g' := by
  obtain ⟨_, -, h⟩ := bind_eq_ok.mp h
  obtain ⟨_, -, h⟩ := bind_eq_ok.mp h
  exact updateNodeFromAnnouncementIntern_shrinks hR hpinned h

theorem updateChannel_shrinks {msg : ChannelUpdate}
    (h : g.updateChannel crypto around msg = .ok g') : ShrinksBy R g g' := by
  simp only [updateChannel, updateChannelInternal, bind_eq_ok] at h
  obtain ⟨-, -, -, -, -, -, h⟩ := h
  split at h
  · obtain ⟨_, -, h⟩ := bind_eq_ok.mp h
    cases h
  · obtain ⟨_, -, h⟩ := bind_eq_ok.mp h
    obtain ⟨_, -, h⟩ := bind_eq_ok.mp h
    rw [if_neg (by decide)] at h
    rw [← Except.ok.inj h]
    exact hR.of_nodes_eq rfl

theorem makeRoom_shrinks {utxoValue : Option ℕ} (h : g.makeRoom scid utxoValue = .ok g') :
    ShrinksBy R g g' := by
  simp only [makeRoom] at h
  split at h
  · rw [← Except.ok.inj h]
    exact hR.refl g
  · exact removeChannelInNodes_shrinks hR (Outcome.ofPanic_eq_ok.mp h)
  · cases h

/-- **An accepted operation** only shrinks the graph, or adds a channel to it. -/
theorem run_cases {op : Operation} (h : op.run crypto around g = .ok g')
    (hpinned : ∀ {msg}, op = .updateNodeFromAnnouncement msg → ∀ {node node'},
      node.pinSigned msg.contents (some msg) = .ok node' → R node node') :
    ShrinksBy R g g' ∨ ∃ scid chanInfo utxoValue,
      g.addChannelBetweenNodes scid chanInfo utxoValue = .ok g' ∧
        (utxoValue = none ∨
          ∃ msg utxoLookup, op = .updateChannelFromAnnouncement msg utxoLookup) := by
  cases op with
  | updateNodeFromAnnouncement msg =>
    exact .inl (updateNodeFromAnnouncement_shrinks hR (hpinned rfl) h)
  | updateNodeFromUnsignedAnnouncement msg =>
    exact .inl (updateNodeFromAnnouncementIntern_shrinks hR
      (by rintro node _ ⟨⟩; exact hR.of_eq rfl rfl) h)
  | updateChannelFromAnnouncement msg utxoLookup =>
    obtain ⟨chanInfo, utxoValue, hadd⟩ := addChannelBetweenNodes_of_updateChannelFromAnnouncement h
    exact .inr ⟨_, chanInfo, utxoValue, hadd, .inr ⟨msg, utxoLookup, rfl⟩⟩
  | addChannelFromPartialAnnouncement scid capacity timestamp features nodeId1 nodeId2 =>
    obtain ⟨_, -, hadd⟩ := bind_eq_ok.mp h
    exact .inr ⟨_, _, _, hadd, .inl rfl⟩
  | updateChannel msg => exact .inl (updateChannel_shrinks hR h)
  | channelFailedPermanent scid =>
    exact .inl (channelFailedPermanent_shrinks hR (Outcome.ofPanic_eq_ok.mp h))
  | nodeFailedPermanent m =>
    exact .inl (nodeFailedPermanent_shrinks hR (Outcome.ofPanic_eq_ok.mp h))
  | removeStaleChannelsAndTrackingWithTime now =>
    exact .inl (removeStaleChannelsAndTracking_shrinks hR (Outcome.ofPanic_eq_ok.mp h))

end

/-! ### Channels entering the graph -/

/-- The keys pinned for a node, none if it is not in the graph. -/
def NetworkGraph.pins (g : NetworkGraph) (n : NodeId) :
    Option (Bytes pqPublicKeyLen) × Option (Bytes pqKemEkLen) :=
  ((g.nodes.lookup n).bind pqNodeId, (g.nodes.lookup n).bind pqKemNodeId)

theorem NetworkGraph.pins_of_lookup
    (h : g.nodes.lookup n = some info) : g.pins n = (info.pqNodeId, info.pqKemNodeId) := by
  rw [pins, h]
  rfl

theorem NetworkGraph.pins_of_lookup_eq_none (h : g.nodes.lookup n = none) :
    g.pins n = (none, none) := by
  rw [pins, h]
  rfl

theorem pins_of_insert {m : NodeId} (h : g'.nodes = g.nodes.insert m info)
    (hm : g.pins m = (info.pqNodeId, info.pqKemNodeId)) (n : NodeId) : g'.pins n = g.pins n := by
  by_cases hnm : n = m
  · subst hnm
    rw [hm]
    exact pins_of_lookup (by rw [h, lookup_insert])
  · rw [pins, h, lookup_insert_ne hnm, pins]

theorem takeCounter_nodes (g : NetworkGraph) : g.takeCounter.2.nodes = g.nodes := by
  simp only [takeCounter]
  split <;> rfl

/-- **A channel joins a node.** No key is pinned or lost by that: a node that was not in the graph
has none before and none afterwards. -/
theorem joinNode_pins (g : NetworkGraph) (scid : ℕ) (m n : NodeId) :
    (g.joinNode scid m).2.pins n = g.pins n := by
  simp only [joinNode]
  split
  next node hnode =>
    have hpins := pins_of_lookup hnode
    refine pins_of_insert rfl ?_ n
    exact hpins
  next hnone =>
    have hnodes : g.takeCounter.2.nodes.insert m (fresh scid g.takeCounter.1) =
        g.nodes.insert m (fresh scid g.takeCounter.1) := by
      rw [takeCounter_nodes]
    exact pins_of_insert hnodes (pins_of_lookup_eq_none hnone) n

theorem enterChannel_pins (g : NetworkGraph) (scid : ℕ) (info : ChannelInfo) (n : NodeId) :
    (g.enterChannel scid info).pins n = g.pins n :=
  (joinNode_pins _ scid info.nodeTwo n).trans (joinNode_pins g scid info.nodeOne n)

/-! ### A channel replaced by another -/

/-- What is left of a node when a channel leaves it: nothing if it has no other. -/
def NodeInfo.leave (scid : ℕ) (info : NodeInfo) : Option NodeInfo :=
  if (info.without scid).channels.isEmpty then none else some (info.without scid)

theorem NodeInfo.leave_eq_none_iff : info.leave scid = none ↔ ∀ s ∈ info.channels, s = scid := by
  simp [leave, without]

theorem NodeInfo.without_without (info : NodeInfo) (scid : ℕ) :
    (info.without scid).without scid = info.without scid := by
  simp [without, List.filter_filter]

theorem NodeInfo.leave_bind_leave (info : NodeInfo) (scid : ℕ) :
    (info.leave scid).bind (leave scid) = info.leave scid := by
  rw [leave]
  split
  · rfl
  next h =>
    rw [bind_some, leave, without_without, if_neg h]

/-- **A channel leaves a node.** Every other node stays as it is. -/
theorem removeFromNode_lookup {m : NodeId} {s s' : NetworkGraph × Unit}
    (h : removeFromNode removeEntry scid m s = .ok s') (n : NodeId) :
    s'.1.nodes.lookup n =
      if n = m then (s.1.nodes.lookup n).bind (leave scid) else s.1.nodes.lookup n := by
  simp only [removeFromNode] at h
  split at h
  · cases h
  next node hnode =>
    have hleave : (s.1.nodes.lookup m).bind (leave scid) = node.leave scid := by
      rw [hnode, bind_some]
    split at h
    next hempty =>
      rw [← Except.ok.inj h]
      split
      next hnm =>
        have hleft : (node.without scid).channels.isEmpty = true := hempty
        rw [hnm, hleave, leave, if_pos hleft]
        exact lookup_erase _ _
      next hnm =>
        exact (lookup_erase_ne hnm).trans (lookup_insert_ne hnm)
    next hempty =>
      rw [← Except.ok.inj h]
      split
      next hnm =>
        have hleft : ¬ (node.without scid).channels.isEmpty = true := hempty
        rw [hnm, hleave, leave, if_neg hleft]
        exact lookup_insert _
      next hnm =>
        exact lookup_insert_ne hnm

theorem removeChannelInNodes_lookup {chan : ChannelInfo}
    (h : g.removeChannelInNodes chan scid = .ok g') (n : NodeId) :
    g'.nodes.lookup n =
      if n = chan.nodeOne ∨ n = chan.nodeTwo then (g.nodes.lookup n).bind (leave scid)
      else g.nodes.lookup n := by
  obtain ⟨s, hs, heq⟩ := bind_eq_ok.mp h
  obtain ⟨s₁, h₁, h₂⟩ := bind_eq_ok.mp hs
  rw [← Except.ok.inj heq, removeFromNode_lookup h₂, removeFromNode_lookup h₁]
  by_cases hone : n = chan.nodeOne <;> by_cases htwo : n = chan.nodeTwo
  · rw [if_pos htwo, if_pos hone, if_pos (.inl hone), bind_assoc]
    congr 1
    funext info
    exact info.leave_bind_leave scid
  · rw [if_neg htwo, if_pos hone, if_pos (.inl hone)]
  · rw [if_pos htwo, if_neg hone, if_pos (.inr htwo)]
  · rw [if_neg htwo, if_neg hone, if_neg (not_or.mpr ⟨hone, htwo⟩)]

/-- A node that is left with channels has the keys it had. -/
theorem NodeInfo.pins_of_leave (h : info.leave scid = some info') :
    (info'.pqNodeId, info'.pqKemNodeId) = (info.pqNodeId, info.pqKemNodeId) := by
  rw [leave] at h
  split at h
  · cases h
  · rw [← Option.some.inj h]
    rfl

/-- The channel announcement `op` is accepted, and replaces the only channel of the node `n`. -/
def ReplacesOnlyChannel (crypto : GossipCrypto) (around : Surroundings) (g : NetworkGraph)
    (op : Operation) (n : NodeId) (info : NodeInfo) : Prop :=
  ∃ msg utxoLookup chan, op = .updateChannelFromAnnouncement msg utxoLookup ∧
    (op.run crypto around g).isOk ∧
    g.channels.lookup msg.contents.shortChannelId = some chan ∧
    (n = chan.nodeOne ∨ n = chan.nodeTwo) ∧
    ∀ scid ∈ info.channels, scid = msg.contents.shortChannelId

/-- The pins after a channel has made room and another has been entered. -/
theorem addChannelBetweenNodes_pins {chanInfo : ChannelInfo} {utxoValue : Option ℕ}
    (h : g.addChannelBetweenNodes scid chanInfo utxoValue = .ok g')
    (hn : g.nodes.lookup n = some info) :
    ((∃ chan, g.channels.lookup scid = some chan ∧ (n = chan.nodeOne ∨ n = chan.nodeTwo)) ∧
        (∀ s ∈ info.channels, s = scid) ∧ g'.pins n = (none, none)) ∨
      (¬ ((∃ chan, g.channels.lookup scid = some chan ∧ (n = chan.nodeOne ∨ n = chan.nodeTwo)) ∧
        ∀ s ∈ info.channels, s = scid) ∧ g'.pins n = g.pins n) := by
  obtain ⟨g₁, h₁, heq⟩ := bind_eq_ok.mp h
  rw [← Except.ok.inj heq, enterChannel_pins]
  simp only [makeRoom] at h₁
  split at h₁
  next hnone =>
    refine .inr ⟨?_, by rw [← Except.ok.inj h₁]⟩
    rintro ⟨⟨chan, hchan, -⟩, -⟩
    cases hnone.symm.trans hchan
  next old _ hold =>
    have hlookup := removeChannelInNodes_lookup (Outcome.ofPanic_eq_ok.mp h₁) n
    by_cases hend : n = old.nodeOne ∨ n = old.nodeTwo
    · rw [if_pos hend, hn, bind_some] at hlookup
      cases hleave : info.leave scid with
      | none =>
        rw [hleave] at hlookup
        exact .inl ⟨⟨old, hold, hend⟩, leave_eq_none_iff.mp hleave,
          pins_of_lookup_eq_none hlookup⟩
      | some info' =>
        rw [hleave] at hlookup
        refine .inr ⟨fun hall => ?_, ?_⟩
        · cases hleave.symm.trans (leave_eq_none_iff.mpr hall.2)
        · rw [pins_of_lookup hlookup, pins_of_lookup hn, pins_of_leave hleave]
    · rw [if_neg hend, hn] at hlookup
      refine .inr ⟨?_, ?_⟩
      · rintro ⟨⟨chan, hchan, hchanEnd⟩, -⟩
        obtain rfl : chan = old := Option.some.inj (hchan.symm.trans hold)
        exact hend hchanEnd
      · rw [pins_of_lookup hlookup, pins_of_lookup hn]
  · cases h₁

theorem lookup_eq_none_of_addChannelBetweenNodes {chanInfo : ChannelInfo}
    (h : g.addChannelBetweenNodes scid chanInfo none = .ok g') : g.channels.lookup scid = none := by
  obtain ⟨g₁, h₁, -⟩ := bind_eq_ok.mp h
  cases hchan : g.channels.lookup scid with
  | none => rfl
  | some chan =>
    simp only [makeRoom, hchan] at h₁
    cases h₁

theorem PinsKept.of_pins_eq
    (hn : g.nodes.lookup n = some info) (hn' : g'.nodes.lookup n = some info')
    (h : g'.pins n = g.pins n) : PinsKept info info' := by
  rw [pins_of_lookup hn', pins_of_lookup hn] at h
  obtain ⟨hdsa, hkem⟩ := Prod.mk.inj h
  exact ⟨fun key hk => hdsa.trans hk, fun key hk => hkem.trans hk⟩

theorem not_pinsKept_of_pins_eq_none (hp : info.Pinned)
    (hn' : g'.nodes.lookup n = some info') (h : g'.pins n = (none, none)) :
    ¬ PinsKept info info' := by
  intro hk
  rw [pins_of_lookup hn'] at h
  obtain ⟨hdsa, hkem⟩ := Prod.mk.inj h
  have hp' := hk.pinned hp
  rw [NodeInfo.Pinned, hdsa, hkem] at hp'
  simp at hp'

theorem Shrinks.pinsKept (h : Shrinks g g')
    (hn : g.nodes.lookup n = some info) (hn' : g'.nodes.lookup n = some info') :
    PinsKept info info' := by
  obtain ⟨info₀, hn₀, hk⟩ := h n info' hn'
  obtain rfl : info = info₀ := Option.some.inj (hn.symm.trans hn₀)
  exact hk

/-- **An accepted operation.** Every one but a channel announcement keeps the keys of the nodes that
stay. -/
theorem pinsKept_of_run {op : Operation} (h : op.run crypto around g = .ok g')
    (hn : g.nodes.lookup n = some info) (hn' : g'.nodes.lookup n = some info')
    (hop : ∀ msg utxoLookup, op ≠ .updateChannelFromAnnouncement msg utxoLookup) :
    PinsKept info info' := by
  rcases run_cases PinsKept.ofPins h fun _ => pinSigned_pinsKept with
    hshrinks | ⟨scid, chanInfo, utxoValue, hadd, rfl | ⟨msg, utxoLookup, rfl⟩⟩
  · exact Shrinks.pinsKept hshrinks hn hn'
  · have hnone := lookup_eq_none_of_addChannelBetweenNodes hadd
    rcases addChannelBetweenNodes_pins hadd hn with ⟨⟨chan, hchan, -⟩, -⟩ | ⟨-, hpins⟩
    · cases hnone.symm.trans hchan
    · exact .of_pins_eq hn hn' hpins
  · exact absurd rfl (hop msg utxoLookup)

/-- What a step that does not panic is: the operation accepted, or refused. -/
theorem step_eq_ok_iff {op : Operation} :
    step crypto around g op = .ok g' ↔
      op.run crypto around g = .ok g' ∨
        ∃ e, op.run crypto around g = .error (.refused e) ∧ g' = g := by
  rw [step]
  split
  next g₁ hrun =>
    simp [hrun]
  next e hrun =>
    simp [hrun, eq_comm]
  next p hrun =>
    simp [hrun]

/-- **Key continuity.** An operation on any graph keeps the pinned keys of a node that is in the
graph before and after it, unless the node has pinned keys and the operation replaces its only
channel: then they are gone. -/
theorem pinsKept_iff (crypto : GossipCrypto) (around : Surroundings) (g g' : NetworkGraph)
    (op : Operation) (n : NodeId) (info info' : NodeInfo)
    (hstep : step crypto around g op = .ok g') (hn : g.nodes.lookup n = some info)
    (hn' : g'.nodes.lookup n = some info') :
    PinsKept info info' ↔ ¬ (info.Pinned ∧ ReplacesOnlyChannel crypto around g op n info) := by
  rcases step_eq_ok_iff.mp hstep with hrun | ⟨e, hrun, rfl⟩
  · by_cases hop : ∃ msg utxoLookup, op = .updateChannelFromAnnouncement msg utxoLookup
    · obtain ⟨msg, utxoLookup, rfl⟩ := hop
      obtain ⟨chanInfo, utxoValue, hadd⟩ :=
        addChannelBetweenNodes_of_updateChannelFromAnnouncement hrun
      rcases addChannelBetweenNodes_pins hadd hn with
        ⟨⟨chan, hchan, hend⟩, honly, hpins⟩ | ⟨hnot, hpins⟩
      · have hrepl : ReplacesOnlyChannel crypto around g
            (.updateChannelFromAnnouncement msg utxoLookup) n info :=
          ⟨msg, utxoLookup, chan, rfl, by rw [hrun]; rfl, hchan, hend, honly⟩
        constructor
        · rintro hk ⟨hp, -⟩
          exact not_pinsKept_of_pins_eq_none hp hn' hpins hk
        · intro h
          exact .of_not_pinned (fun hp => h ⟨hp, hrepl⟩) info'
      · refine iff_of_true (.of_pins_eq hn hn' hpins) ?_
        rintro ⟨-, msg', utxoLookup', chan, heq, -, hchan, hend, honly⟩
        obtain ⟨rfl, rfl⟩ := Operation.updateChannelFromAnnouncement.inj heq
        exact hnot ⟨⟨chan, hchan, hend⟩, honly⟩
    · refine iff_of_true
        (pinsKept_of_run hrun hn hn' fun msg utxoLookup h => hop ⟨msg, utxoLookup, h⟩) ?_
      rintro ⟨-, msg, utxoLookup, chan, h, -⟩
      exact hop ⟨msg, utxoLookup, h⟩
  · obtain rfl : info = info' := Option.some.inj (hn.symm.trans hn')
    refine iff_of_true (.refl info) ?_
    rintro ⟨-, msg, utxoLookup, chan, -, hok, -⟩
    rw [hrun] at hok
    cases hok

/-! ### A run that loses a key -/

def permissiveCrypto : GossipCrypto where
  validPubkey _ := true
  verifyNodeAnnouncement _ _ _ := true
  verifyChannelAnnouncement _ _ _ := true
  verifyChannelUpdate _ _ _ := true
  pqVerifyNodeAnnouncement _ _ _ := true
  pqVerifyChannelUpdate _ _ _ := true
  fundingScript _ _ := []

def quietSurroundings : Surroundings := ⟨1700000000, false, false, false⟩

def plainChannelAnnouncement : ChannelAnnouncement where
  nodeSignature1 := constBytes 64 0
  nodeSignature2 := constBytes 64 0
  bitcoinSignature1 := constBytes 64 0
  bitcoinSignature2 := constBytes 64 0
  contents := {
    features := [], chainHash := constBytes 32 0, shortChannelId := 42
    nodeId1 := constBytes 33 2, nodeId2 := constBytes 33 3
    bitcoinKey1 := constBytes 33 4, bitcoinKey2 := constBytes 33 5, excessData := [] }

def pqNodeAnnouncement : NodeAnnouncement where
  signature := constBytes 64 0
  contents := {
    nodeId := constBytes 33 2, timestamp := 1, body := [], excessAddressData := []
    excessData := [27, 0xfd, 0x05, 0x20] ++ List.replicate 1312 7 ++
      [31, 0xfd, 0x09, 0x74] ++ List.replicate 2420 0 }

def afterStep (g : NetworkGraph) (op : Operation) : NetworkGraph :=
  match step permissiveCrypto quietSurroundings g op with
  | .ok g' => g'
  | .error _ => g

theorem step_eq_afterStep {op : Operation}
    (h : (step permissiveCrypto quietSurroundings g op).isOk) :
    step permissiveCrypto quietSurroundings g op = .ok (afterStep g op) := by
  rw [afterStep]
  split
  · assumption
  next e heq =>
    rw [heq] at h
    cases h

theorem run_eq_afterStep (op : Operation) (h : (op.run permissiveCrypto quietSurroundings g).isOk) :
    op.run permissiveCrypto quietSurroundings g = .ok (afterStep g op) := by
  rw [afterStep, step]
  cases hrun : op.run permissiveCrypto quietSurroundings g with
  | ok g' => rfl
  | error e =>
    rw [hrun] at h
    cases h

/-- The channel is announced, without a lookup. -/
def announcedGraph : NetworkGraph :=
  afterStep (.new (constBytes 32 0)) (.updateChannelFromAnnouncement plainChannelAnnouncement none)

def pinnedGraph : NetworkGraph :=
  afterStep announcedGraph (.updateNodeFromAnnouncement pqNodeAnnouncement)

def revalidation : Operation :=
  .updateChannelFromAnnouncement plainChannelAnnouncement (some (.sync (.ok ⟨1000000, []⟩)))

theorem pinnedGraph_reachable : Reachable permissiveCrypto pinnedGraph :=
  have announced : Reachable permissiveCrypto announcedGraph :=
    .step quietSurroundings _ (.new _) (step_eq_afterStep (by decide +kernel))
  .step quietSurroundings _ announced (step_eq_afterStep (by decide +kernel))

/-- **A channel that is validated again loses its nodes' keys.** The first node has a pinned ML-DSA
key; the announcement of its only channel arrives a second time, now with a UTXO lookup; the node is
still in the graph, and has no key. -/
theorem revalidation_forgets_pin :
    Reachable permissiveCrypto pinnedGraph ∧
      step permissiveCrypto quietSurroundings pinnedGraph revalidation =
        .ok (afterStep pinnedGraph revalidation) ∧
      (pinnedGraph.nodes.lookup (constBytes 33 2)).map pqNodeId = some (some (constBytes 1312 7)) ∧
      ((afterStep pinnedGraph revalidation).nodes.lookup (constBytes 33 2)).map pqNodeId =
        some none := by
  refine ⟨pinnedGraph_reachable, step_eq_afterStep ?_, ?_, ?_⟩ <;> decide +kernel

def pinnedInfo : NodeInfo where
  channels := [42]
  announcementInfo := some (.relayed pqNodeAnnouncement)
  pqNodeId := some (constBytes 1312 7)
  pqKemNodeId := none
  nodeCounter := 0

theorem pinsKept_iff_revalidation :
    PinsKept pinnedInfo (fresh 42 1) ↔
      ¬ (pinnedInfo.Pinned ∧ ReplacesOnlyChannel permissiveCrypto quietSurroundings pinnedGraph
        revalidation (constBytes 33 2) pinnedInfo) :=
  pinsKept_iff permissiveCrypto quietSurroundings pinnedGraph (afterStep pinnedGraph revalidation)
    revalidation (constBytes 33 2) pinnedInfo (fresh 42 1)
    (step_eq_afterStep (by decide +kernel)) (by decide +kernel) (by decide +kernel)

end PqLightning.Gossip
