import PqLightning.Gossip.Pins
import PqLightning.Lib.Incidence

/-!
# Node counters

Every node of the graph has a number, its `node_counter`, by which the router indexes its tables.
The numbers of nodes that leave the graph are kept for reuse. Every channel repeats the numbers of
its two ends, and every node lists its channels.

The channels and the nodes of a graph are two tables in the sense of `Incidence`:
`NetworkGraph.edge` and `NetworkGraph.vertex`. They are not `Balanced` in the middle of an
operation, when a channel has left one table and not yet the other. So the table of channels that an
invariant is about is not always the graph's own (`CountedFor`).

Counters are 32 bits wide (`next_node_counter.fetch_add(1) as u32`), and the count they are taken
from is not.
-/

namespace PqLightning.Gossip

open AssocMap Incidence List Option Function AList NetworkGraph ChannelInfo Vertex

variable {crypto : GossipCrypto} {around : Surroundings} {g g' : NetworkGraph}

/-! ### The two tables -/

def ChannelInfo.edge (chan : ChannelInfo) : Edge NodeId :=
  ⟨chan.nodeOne, chan.nodeTwo, chan.nodeOneCounter, chan.nodeTwoCounter⟩

def NodeInfo.vertex (info : NodeInfo) : Vertex ℕ := ⟨info.channels, info.nodeCounter⟩

def NetworkGraph.edge (g : NetworkGraph) (scid : ℕ) : Option (Edge NodeId) :=
  (g.channels.lookup scid).map ChannelInfo.edge

def NetworkGraph.vertex (g : NetworkGraph) (n : NodeId) : Option (Vertex ℕ) :=
  (g.nodes.lookup n).map NodeInfo.vertex

def NetworkGraph.counters (g : NetworkGraph) : Multiset ℕ :=
  tally NodeInfo.nodeCounter g.nodes + (g.removedNodeCounters : Multiset ℕ)

def NetworkGraph.issued (g : NetworkGraph) : Multiset ℕ :=
  (Multiset.range g.nextNodeCounter).map (· % 2 ^ 32)

/-- The invariant, for a table of channels that need not be the graph's. -/
structure CountedFor (edge : ℕ → Option (Edge NodeId)) (g : NetworkGraph) : Prop where
  balanced : Balanced edge g.vertex
  occupied : ∀ n v, g.vertex n = some v → v.edges ≠ []
  counters : g.counters = g.issued

abbrev Counted (g : NetworkGraph) : Prop := CountedFor g.edge g

variable {n : NodeId}

theorem ChannelInfo.touches_iff {chan : ChannelInfo} :
    chan.edge.Touches n ↔ n = chan.nodeOne ∨ n = chan.nodeTwo := or_congr eq_comm eq_comm

theorem NodeInfo.vertex_leave (info : NodeInfo) (scid : ℕ) :
    (info.leave scid).map NodeInfo.vertex = info.vertex.leave scid := by
  have hedges : (info.vertex.without scid).edges = (info.without scid).channels := rfl
  rw [NodeInfo.leave, Vertex.leave, hedges]
  by_cases h : (info.without scid).channels = []
  · rw [if_pos h, if_pos (List.isEmpty_iff.mpr h)]
    rfl
  · rw [if_neg h, if_neg fun hempty => h (List.isEmpty_iff.mp hempty)]
    rfl

theorem vertex_of_lookup {info : NodeInfo} (h : g.nodes.lookup n = some info) :
    g.vertex n = some info.vertex := by
  rw [vertex, h]
  rfl

theorem exists_lookup_of_vertex {v : Vertex ℕ} (h : g.vertex n = some v) :
    ∃ info, g.nodes.lookup n = some info ∧ info.vertex = v := map_eq_some_iff.mp h

variable {scid : ℕ}

theorem vertex_of_leave (h : g'.nodes.lookup n = (g.nodes.lookup n).bind (NodeInfo.leave scid)) :
    g'.vertex n = (g.vertex n).bind (Vertex.leave scid) := by
  rw [vertex, vertex, h]
  cases g.nodes.lookup n with
  | none => rfl
  | some info => exact info.vertex_leave scid

theorem counters_of_cons {counter : ℕ} (hnodes : g'.nodes = g.nodes)
    (hfree : g'.removedNodeCounters = counter :: g.removedNodeCounters) :
    g'.counters = counter ::ₘ g.counters := by
  rw [NetworkGraph.counters, hnodes, hfree, ← Multiset.cons_coe, Multiset.add_cons]
  rfl

variable {edge : ℕ → Option (Edge NodeId)}

/-- Only the tables and the free numbers matter. -/
theorem CountedFor.congr (h : CountedFor edge g)
    (hvertex : g'.vertex = g.vertex) (hfree : g'.removedNodeCounters = g.removedNodeCounters)
    (hnext : g'.nextNodeCounter = g.nextNodeCounter) : CountedFor edge g' := by
  refine ⟨hvertex ▸ h.balanced, hvertex ▸ h.occupied, ?_⟩
  have htally : tally NodeInfo.nodeCounter g'.nodes = tally NodeInfo.nodeCounter g.nodes := by
    refine tally_congr fun n => ?_
    have hn := congrArg (Option.map counter) (congrFun hvertex n)
    rw [vertex, vertex, Option.map_map, Option.map_map] at hn
    exact hn
  rw [NetworkGraph.counters, NetworkGraph.issued, htally, hfree, hnext]
  exact h.counters

theorem Counted.congr (h : Counted g) (hedge : g'.edge = g.edge) (hvertex : g'.vertex = g.vertex)
    (hfree : g'.removedNodeCounters = g.removedNodeCounters)
    (hnext : g'.nextNodeCounter = g.nextNodeCounter) : Counted g' := by
  rw [Counted, hedge]
  exact CountedFor.congr h hvertex hfree hnext

theorem counted_new (chainHash : Bytes 32) : Counted (.new chainHash) where
  balanced := Balanced.empty
  occupied _ _ h := nomatch h
  counters := rfl

/-! ### A channel leaves the graph -/

/-- **A channel leaves a node that is in the graph.** The number of the node stays accounted for. -/
theorem removeFromNode_ok {node : NodeInfo} (h : g.nodes.lookup n = some node) (scid : ℕ) :
    ∃ g', removeFromNode removeEntry scid n (g, ()) = .ok (g', ()) ∧ g'.counters = g.counters ∧
      g'.nextNodeCounter = g.nextNodeCounter ∧ g'.channels = g.channels := by
  simp only [removeFromNode, h]
  split
  · refine ⟨_, rfl, ?_, rfl, rfl⟩
    have htally : tally NodeInfo.nodeCounter g.nodes = node.nodeCounter ::ₘ
        tally NodeInfo.nodeCounter ((g.nodes.insert n (node.without scid)).erase n) :=
      tally_eq_cons h (lookup_erase _ _)
        fun m hm => by rw [lookup_erase_ne hm, lookup_insert_ne hm]
    rw [NetworkGraph.counters, NetworkGraph.counters, htally,
      Multiset.cons_add, ← Multiset.add_cons]
    rfl
  · refine ⟨_, rfl, ?_, rfl, rfl⟩
    have htally : tally NodeInfo.nodeCounter (g.nodes.insert n (node.without scid)) =
        tally NodeInfo.nodeCounter g.nodes := by
      refine tally_congr fun m => ?_
      by_cases hm : m = n
      · rw [hm, h, lookup_insert]
        rfl
      · rw [lookup_insert_ne hm]
    exact congrArg (· + _) htally

/-- **A channel leaves its two ends.** -/
theorem removeChannelInNodes_counted (h : CountedFor edge g)
    {chan : ChannelInfo} (hk : edge scid = some chan.edge) :
    ∃ g', g.removeChannelInNodes chan scid = .ok g' ∧
      CountedFor (update edge scid none) g' ∧ g'.channels = g.channels := by
  have hapart : chan.nodeOne ≠ chan.nodeTwo := h.balanced.apart scid _ hk
  obtain ⟨_, hone, -⟩ := h.balanced.exists_vertex hk (.inl rfl : chan.edge.Touches chan.nodeOne)
  obtain ⟨_, htwo, -⟩ := h.balanced.exists_vertex hk (.inr rfl : chan.edge.Touches chan.nodeTwo)
  obtain ⟨one, hone, -⟩ := exists_lookup_of_vertex hone
  obtain ⟨two, htwo, -⟩ := exists_lookup_of_vertex htwo
  obtain ⟨g₁, hg₁, hcounters₁, hnext₁, hchannels₁⟩ := removeFromNode_ok hone scid
  have htwo₁ : g₁.nodes.lookup chan.nodeTwo = some two := by
    rw [removeFromNode_lookup hg₁, if_neg hapart.symm]
    exact htwo
  obtain ⟨g₂, hg₂, hcounters₂, hnext₂, hchannels₂⟩ := removeFromNode_ok htwo₁ scid
  have hok : g.removeChannelInNodes chan scid = .ok g₂ :=
    bind_eq_ok.mpr ⟨_, bind_eq_ok.mpr ⟨_, hg₁, hg₂⟩, rfl⟩
  have hlookup := removeChannelInNodes_lookup hok
  refine ⟨g₂, hok, ⟨h.balanced.leave hk (fun n hn => .inr (vertex_of_leave ?_)) fun n hn => ?_,
    fun n v hv => ?_, ?_⟩, hchannels₂.trans hchannels₁⟩
  · rw [hlookup, if_pos (touches_iff.mp hn)]
  · rw [vertex, hlookup, if_neg (mt touches_iff.mpr hn)]
    rfl
  · by_cases hend : n = chan.nodeOne ∨ n = chan.nodeTwo
    · have hleave := hlookup n
      rw [if_pos hend] at hleave
      rw [vertex_of_leave hleave, bind_eq_some_iff] at hv
      obtain ⟨w, -, hw⟩ := hv
      exact edges_ne_nil_of_leave hw
    · rw [vertex, hlookup, if_neg hend] at hv
      exact h.occupied n v hv
  · rw [hcounters₂, hcounters₁, h.counters, NetworkGraph.issued, NetworkGraph.issued,
      hnext₂, hnext₁]

theorem edge_erase (h : g'.channels = g.channels.erase scid) :
    g'.edge = update g.edge scid none := by
  funext s
  rw [NetworkGraph.edge, h]
  by_cases hs : s = scid
  · rw [hs, update_self, lookup_erase]
    rfl
  · rw [update_of_ne hs, lookup_erase_ne hs]
    rfl

theorem channelFailedPermanent_counted (h : Counted g) (now scid : ℕ) :
    ∃ g', g.channelFailedPermanent now scid = .ok g' ∧ Counted g' := by
  rw [channelFailedPermanent]
  cases hchan : g.channels.lookup scid with
  | none => exact ⟨g, rfl, h⟩
  | some chan =>
    let gone := { g with
      channels := g.channels.erase scid
      removedChannels := g.removedChannels.insert scid (some now) }
    have hgone : CountedFor g.edge gone := CountedFor.congr h rfl rfl rfl
    have hk : g.edge scid = some chan.edge := by rw [NetworkGraph.edge, hchan, map_some]
    obtain ⟨g', hok, hcounted, hchannels⟩ := removeChannelInNodes_counted hgone hk
    refine ⟨g', hok, ?_⟩
    rw [Counted, edge_erase hchannels]
    exact hcounted

/-! ### A node leaves the graph -/

theorem leaveOther_lookup (g : NetworkGraph) (scid : ℕ) (m n : NodeId) :
    (g.leaveOther scid m).nodes.lookup n =
      if n = m then (g.nodes.lookup n).bind (NodeInfo.leave scid) else g.nodes.lookup n := by
  rw [leaveOther]
  split
  next hnone =>
    split
    next hnm =>
      rw [hnm, hnone]
      rfl
    · rfl
  next node hnode =>
    have hfilter : node.channels.filter (scid ≠ ·) = (node.without scid).channels :=
      filter_congr fun s _ => decide_eq_decide.mpr ne_comm
    simp only [hfilter]
    have hleave : (g.nodes.lookup m).bind (NodeInfo.leave scid) = node.leave scid := by
      rw [hnode, bind_some]
    split
    next hempty =>
      split
      next hnm =>
        rw [hnm, hleave, NodeInfo.leave, if_pos hempty]
        exact lookup_erase _ _
      next hnm =>
        exact lookup_erase_ne hnm
    next hempty =>
      split
      next hnm =>
        rw [hnm, hleave, NodeInfo.leave, if_neg hempty]
        exact lookup_insert _
      next hnm =>
        exact lookup_insert_ne hnm

theorem leaveOther_frame (g : NetworkGraph) (scid : ℕ) (m : NodeId) :
    (g.leaveOther scid m).channels = g.channels ∧
      (g.leaveOther scid m).nextNodeCounter = g.nextNodeCounter ∧
      (g.leaveOther scid m).counters = g.counters := by
  rw [leaveOther]
  split
  · exact ⟨rfl, rfl, rfl⟩
  next node hnode =>
    simp only
    split
    · refine ⟨rfl, rfl, ?_⟩
      have htally : tally NodeInfo.nodeCounter g.nodes = node.nodeCounter ::ₘ
          tally NodeInfo.nodeCounter (g.nodes.erase m) :=
        tally_eq_cons hnode (lookup_erase _ _) fun n hn => by rw [lookup_erase_ne hn]
      rw [NetworkGraph.counters, NetworkGraph.counters, htally, Multiset.cons_add,
        ← Multiset.add_cons]
      rfl
    · refine ⟨rfl, rfl, congrArg (· + _) (tally_congr fun n => ?_)⟩
      by_cases hn : n = m
      · rw [hn, hnode, lookup_insert]
        rfl
      · rw [lookup_insert_ne hn]

/-- The node that is being removed, at the turn of the loop in which `rest` is left of its channels:
it is out of the graph, but its remaining channels are not. -/
structure Leaving (n : NodeId) (counter : ℕ) (rest : List ℕ) (g : NetworkGraph) : Prop where
  balanced : Balanced g.edge (update g.vertex n (some ⟨rest, counter⟩))
  gone : g.vertex n = none
  occupied : ∀ m v, g.vertex m = some v → v.edges ≠ []

theorem failChannelOf_leaving {counter scid : ℕ} {rest : List ℕ}
    (h : Leaving n counter (scid :: rest) g) (now : ℕ) :
    ∃ g', g.failChannelOf n now scid = .ok g' ∧ Leaving n counter rest g' ∧
      g'.nextNodeCounter = g.nextNodeCounter ∧ g'.counters = g.counters := by
  have hself : update g.vertex n (some ⟨scid :: rest, counter⟩) n =
      some ⟨scid :: rest, counter⟩ := update_self _ _ _
  have hwithout : (⟨scid :: rest, counter⟩ : Vertex ℕ).without scid = ⟨rest, counter⟩ := by
    have hnotMem := (nodup_cons.mp (h.balanced.nodup n _ hself)).1
    have hrest : (⟨rest, counter⟩ : Vertex ℕ).without scid = ⟨rest, counter⟩ :=
      without_of_notMem hnotMem
    rw [without, filter_cons_of_neg (by simp)]
    exact hrest
  obtain ⟨k, hk, hkn⟩ := (h.balanced.listed n _ hself scid).mp mem_cons_self
  obtain ⟨chan, hchan, rfl⟩ := map_eq_some_iff.mp hk
  have hapart : chan.nodeOne ≠ chan.nodeTwo := h.balanced.apart scid _ hk
  have hother : ∀ m, chan.edge.Touches m ↔ m = n ∨ m = chan.otherNodeId n := by
    intro m
    rw [ChannelInfo.touches_iff, ChannelInfo.otherNodeId]
    rcases touches_iff.mp hkn with rfl | rfl
    · rw [if_pos rfl]
    · rw [if_neg hapart.symm, or_comm]
  have hne : chan.otherNodeId n ≠ n := by
    rw [ChannelInfo.otherNodeId]
    rcases touches_iff.mp hkn with rfl | rfl
    · rw [if_pos rfl]
      exact hapart.symm
    · rw [if_neg hapart.symm]
      exact hapart
  let erased := { g with channels := g.channels.erase scid }
  obtain ⟨hchannels, hnext, hcounters⟩ := leaveOther_frame erased scid (chan.otherNodeId n)
  have hlookup := leaveOther_lookup erased scid (chan.otherNodeId n)
  let left := erased.leaveOther scid (chan.otherNodeId n)
  have hvertexOther : left.vertex (chan.otherNodeId n) =
      (g.vertex (chan.otherNodeId n)).bind (Vertex.leave scid) :=
    vertex_of_leave (by rw [hlookup, if_pos rfl])
  have hvertex : ∀ m, m ≠ chan.otherNodeId n → left.vertex m = g.vertex m := by
    intro m hm
    rw [vertex, hlookup, if_neg hm]
    rfl
  refine ⟨{ left with removedChannels := left.removedChannels.insert scid (some now) }, ?_,
    ⟨?_, ?_, fun m v hv => ?_⟩, hnext, hcounters⟩
  · simp only [failChannelOf, hchan]
    rfl
  · have hedge : left.edge = update g.edge scid none := edge_erase hchannels
    change Balanced left.edge (update left.vertex n (some ⟨rest, counter⟩))
    rw [hedge]
    refine h.balanced.leave hk (fun m hm => ?_) fun m hm => ?_
    · rcases (hother m).mp hm with rfl | rfl
      · exact .inl (by rw [hself, update_self, map_some, hwithout])
      · exact .inr (by rw [update_of_ne hne, update_of_ne hne, hvertexOther])
    · have hm' := mt (hother m).mpr hm
      rw [not_or] at hm'
      rw [update_of_ne hm'.1, update_of_ne hm'.1, hvertex m hm'.2]
  · exact (hvertex n hne.symm).trans h.gone
  · by_cases hm : m = chan.otherNodeId n
    · rw [hm] at hv
      obtain ⟨w, -, hw⟩ := bind_eq_some_iff.mp (hvertexOther.symm.trans hv)
      exact edges_ne_nil_of_leave hw
    · exact h.occupied m v ((hvertex m hm).symm.trans hv)

theorem foldlM_failChannelOf_leaving {counter : ℕ} {rest : List ℕ}
    (h : Leaving n counter rest g) (now : ℕ) :
    ∃ g', rest.foldlM (fun g scid => g.failChannelOf n now scid) g = .ok g' ∧
      Leaving n counter [] g' ∧ g'.nextNodeCounter = g.nextNodeCounter ∧
      g'.counters = g.counters := by
  induction rest generalizing g with
  | nil => exact ⟨g, rfl, h, rfl, rfl⟩
  | cons scid rest ih =>
    obtain ⟨g₁, hok₁, hleaving₁, hnext₁, hcounters₁⟩ := failChannelOf_leaving h now
    obtain ⟨g₂, hok₂, hleaving₂, hnext₂, hcounters₂⟩ := ih hleaving₁
    refine ⟨g₂, ?_, hleaving₂, hnext₂.trans hnext₁, hcounters₂.trans hcounters₁⟩
    rw [foldlM_cons, hok₁, ok_bind, hok₂]

theorem nodeFailedPermanent_counted (h : Counted g) (now : ℕ) (n : NodeId) :
    ∃ g', g.nodeFailedPermanent now n = .ok g' ∧ Counted g' := by
  rw [nodeFailedPermanent]
  cases hnode : g.nodes.lookup n with
  | none => exact ⟨g, rfl, h⟩
  | some node =>
    let erased := { g with nodes := g.nodes.erase n }
    have hvertex : ∀ m, m ≠ n → erased.vertex m = g.vertex m := by
      intro m hm
      rw [vertex, lookup_erase_ne hm]
      rfl
    have hgone : erased.vertex n = none := by
      rw [vertex, lookup_erase]
      rfl
    have htable : update erased.vertex n (some ⟨node.channels, node.nodeCounter⟩) =
        g.vertex := by
      funext m
      by_cases hm : m = n
      · rw [hm, update_self]
        exact (vertex_of_lookup hnode).symm
      · rw [update_of_ne hm, hvertex m hm]
    have hleaving : Leaving n node.nodeCounter node.channels erased := by
      refine ⟨htable ▸ h.balanced, hgone, fun m v hv => ?_⟩
      refine h.occupied m v ?_
      rw [← hvertex m, hv]
      rintro rfl
      cases hgone.symm.trans hv
    obtain ⟨g', hok, hleft, hnext, hcounters⟩ := foldlM_failChannelOf_leaving hleaving now
    have htally : tally NodeInfo.nodeCounter g.nodes = node.nodeCounter ::ₘ
        tally NodeInfo.nodeCounter erased.nodes :=
      tally_eq_cons hnode (lookup_erase _ _) fun m hm => by rw [lookup_erase_ne hm]
    let final := { g' with
      removedNodeCounters := node.nodeCounter :: g'.removedNodeCounters
      removedNodes := g'.removedNodes.insert n (some now) }
    have hfinal : final.counters = node.nodeCounter ::ₘ g'.counters := counters_of_cons rfl rfl
    refine ⟨final, bind_eq_ok.mpr ⟨g', hok, rfl⟩, ⟨hleft.balanced.prune fun m => ?_,
      hleft.occupied, ?_⟩⟩
    · by_cases hm : m = n
      · subst hm
        refine .inr ⟨hleft.gone, fun v hv => ?_⟩
        rw [update_self] at hv
        exact some.inj hv ▸ rfl
      · exact .inl (update_of_ne hm _ _).symm
    · have hissued := h.counters
      rw [NetworkGraph.counters, htally, Multiset.cons_add] at hissued
      have hnext' : g'.issued = g.issued := congrArg (fun next => (Multiset.range next).map _) hnext
      rw [hfinal, hcounters]
      exact hissued.trans hnext'.symm

/-! ### Stale channels leave the graph -/

/-- The state of the loop that removes stale channels. A node that is left without channels stays in
the graph until the end of the loop, and is noted. -/
structure Sweeping (edge : ℕ → Option (Edge NodeId)) (s : NetworkGraph × List NodeId) : Prop where
  balanced : Balanced edge s.1.vertex
  noted : ∀ n v, s.1.vertex n = some v → (v.edges = [] ↔ n ∈ s.2)
  counters : tally NodeInfo.nodeCounter (retain (fun n _ => n ∉ s.2) s.1.nodes) +
    (s.1.removedNodeCounters : Multiset ℕ) = s.1.issued

variable {s : NetworkGraph × List NodeId}

/-- **A channel leaves a node that lists it**, and the node is noted if that was its last. -/
theorem removeFromNode_noteNode {v : Vertex ℕ} (hv : s.1.vertex n = some v) (hmem : scid ∈ v.edges)
    (hnoted : ∀ n v, s.1.vertex n = some v → (v.edges = [] ↔ n ∈ s.2))
    (hcounters : tally NodeInfo.nodeCounter (retain (fun n _ => n ∉ s.2) s.1.nodes) +
      (s.1.removedNodeCounters : Multiset ℕ) = s.1.issued) :
    ∃ s', removeFromNode noteNode scid n s = .ok s' ∧
      s'.1.vertex = update s.1.vertex n (some (v.without scid)) ∧
      (∀ n v, s'.1.vertex n = some v → (v.edges = [] ↔ n ∈ s'.2)) ∧
      tally NodeInfo.nodeCounter (retain (fun n _ => n ∉ s'.2) s'.1.nodes) +
        (s'.1.removedNodeCounters : Multiset ℕ) = s'.1.issued ∧ s'.1.channels = s.1.channels := by
  obtain ⟨node, hnode, rfl⟩ := exists_lookup_of_vertex hv
  have hfresh : n ∉ s.2 := fun hn => by
    rw [(hnoted n _ hv).mpr hn] at hmem
    cases hmem
  let nodes := s.1.nodes.insert n (node.without scid)
  have hvertex : (fun m => (nodes.lookup m).map NodeInfo.vertex) =
      update s.1.vertex n (some (node.vertex.without scid)) := by
    funext m
    by_cases hm : m = n
    · rw [hm, lookup_insert, update_self]
      rfl
    · rw [lookup_insert_ne hm, update_of_ne hm]
      rfl
  -- the other nodes are noted as before
  have hnotes : ∀ noted : List NodeId, ((node.vertex.without scid).edges = [] ↔ n ∈ noted) →
      (∀ m ≠ n, m ∈ noted ↔ m ∈ s.2) → ∀ m w, (nodes.lookup m).map NodeInfo.vertex = some w →
        (w.edges = [] ↔ m ∈ noted) := by
    intro noted hself hothers m w hw
    have hw := (congrFun hvertex m).symm.trans hw
    by_cases hm : m = n
    · rw [hm, update_self] at hw
      rw [← some.inj hw, hm, hself]
    · rw [update_of_ne hm] at hw
      rw [hnoted m w hw, hothers m hm]
  simp only [removeFromNode, hnode]
  split
  next hempty =>
    have hedges : (node.vertex.without scid).edges = [] := List.isEmpty_iff.mp hempty
    refine ⟨_, rfl, hvertex, hnotes _ (iff_of_true hedges mem_cons_self) fun m hm =>
      ⟨fun h => (mem_cons.mp h).resolve_left hm, mem_cons_of_mem n⟩, ?_, rfl⟩
    · have htally : tally NodeInfo.nodeCounter (retain (fun m _ => m ∉ s.2) s.1.nodes) =
          node.nodeCounter ::ₘ
            tally NodeInfo.nodeCounter (retain (fun m _ => m ∉ n :: s.2) nodes) := by
        refine tally_eq_cons (k := n) ?_ ?_ fun m hm => ?_
        · rw [lookup_retain, hnode, filter_some, if_pos (decide_eq_true hfresh)]
        · rw [lookup_retain, lookup_insert, filter_some, if_neg (by simp)]
        · rw [lookup_retain, lookup_retain, lookup_insert_ne hm]
          simp [hm]
      refine Eq.trans ?_ hcounters
      rw [htally, Multiset.cons_add, ← Multiset.add_cons]
      rfl
  next hempty =>
    have hedges : (node.vertex.without scid).edges ≠ [] := fun h => hempty (List.isEmpty_iff.mpr h)
    refine ⟨_, rfl, hvertex, hnotes _ (iff_of_false hedges hfresh) fun m _ => Iff.rfl, ?_, rfl⟩
    · refine Eq.trans (congrArg (· + _) (tally_congr fun m => ?_)) hcounters
      rw [lookup_retain, lookup_retain]
      by_cases hm : m = n
      · rw [hm, lookup_insert, hnode, filter_some, filter_some,
          if_pos (decide_eq_true hfresh), if_pos (decide_eq_true hfresh)]
        rfl
      · rw [lookup_insert_ne hm]

theorem removeStaleChannel_sweeping (h : Sweeping edge s) {entry : (_ : ℕ) × ChannelInfo}
    (hk : edge entry.1 = some entry.2.edge) (now : ℕ) :
    ∃ s', removeStaleChannel now s entry = .ok s' ∧
      Sweeping (update edge entry.1 none) s' ∧ s'.1.channels = s.1.channels := by
  have hapart : entry.2.nodeOne ≠ entry.2.nodeTwo := h.balanced.apart _ _ hk
  obtain ⟨one, hone, hmemOne⟩ :=
    h.balanced.exists_vertex hk (.inl rfl : entry.2.edge.Touches entry.2.nodeOne)
  obtain ⟨two, htwo, hmemTwo⟩ :=
    h.balanced.exists_vertex hk (.inr rfl : entry.2.edge.Touches entry.2.nodeTwo)
  obtain ⟨s₁, hok₁, hvertex₁, hnoted₁, hcounters₁, hchannels₁⟩ :=
    removeFromNode_noteNode hone hmemOne h.noted h.counters
  have htwo₁ : s₁.1.vertex entry.2.nodeTwo = some two := by
    rw [hvertex₁, update_of_ne hapart.symm, htwo]
  obtain ⟨s₂, hok₂, hvertex₂, hnoted₂, hcounters₂, hchannels₂⟩ :=
    removeFromNode_noteNode htwo₁ hmemTwo hnoted₁ hcounters₁
  refine ⟨_, bind_eq_ok.mpr ⟨s₂, bind_eq_ok.mpr ⟨s₁, hok₁, hok₂⟩, rfl⟩,
    ⟨h.balanced.leave hk (fun n hn => .inl ?_) fun n hn => ?_, hnoted₂, hcounters₂⟩,
    hchannels₂.trans hchannels₁⟩
  · change s₂.1.vertex n = _
    rw [hvertex₂, hvertex₁]
    rcases touches_iff.mp hn with rfl | rfl
    · rw [update_of_ne hapart, update_self, hone, map_some]
    · rw [update_self, htwo, map_some]
  · have hn' := mt touches_iff.mpr hn
    rw [not_or] at hn'
    change s₂.1.vertex n = _
    rw [hvertex₂, hvertex₁, update_of_ne hn'.2, update_of_ne hn'.1]

/-- **The whole loop.** The channels in it are out of the table afterwards. -/
theorem foldlM_removeStaleChannel_sweeping
    (h : Sweeping edge s) {stale : List ((_ : ℕ) × ChannelInfo)}
    (hkeys : stale.NodupKeys) (hk : ∀ entry ∈ stale, edge entry.1 = some entry.2.edge) (now : ℕ) :
    ∃ s', stale.foldlM (removeStaleChannel now) s = .ok s' ∧
      Sweeping (fun scid => if scid ∈ stale.keys then none else edge scid) s' ∧
      s'.1.channels = s.1.channels := by
  induction stale generalizing edge s with
  | nil => exact ⟨s, rfl, h, rfl⟩
  | cons entry stale ih =>
    rw [nodupKeys_cons] at hkeys
    obtain ⟨s₁, hok₁, hsweeping₁, hchannels₁⟩ :=
      removeStaleChannel_sweeping h (hk entry mem_cons_self) now
    obtain ⟨s₂, hok₂, hsweeping₂, hchannels₂⟩ := ih hsweeping₁ hkeys.2 fun entry' hmem => by
      have hne : entry'.1 ≠ entry.1 := fun heq =>
        hkeys.1 (heq ▸ mem_map_of_mem (f := Sigma.fst) hmem)
      rw [update_of_ne hne]
      exact hk entry' (mem_cons_of_mem _ hmem)
    refine ⟨s₂, by rw [foldlM_cons, hok₁, ok_bind, hok₂], ?_, hchannels₂.trans hchannels₁⟩
    have hedge : (fun scid => if scid ∈ (entry :: stale).keys then none else edge scid) =
        fun scid => if scid ∈ stale.keys then none else update edge entry.1 none scid := by
      funext scid
      rw [keys_cons]
      by_cases hscid : scid = entry.1
      · rw [hscid, update_self, ite_self, if_pos mem_cons_self]
      · rw [update_of_ne hscid]
        simp [hscid]
    rw [hedge]
    exact hsweeping₂

theorem removeStaleChannels_counted (h : Counted g) (now minTime : ℕ) :
    ∃ g', g.removeStaleChannels now minTime = .ok g' ∧ Counted g' := by
  let fresh := mapValues (fun _ info => dropStale minTime info) g.channels
  let stale := retain (fun _ info => info.isStale minTime) fresh
  let kept := retain (fun _ info => !info.isStale minTime) fresh
  have hedge : ∀ scid, g.edge scid = (fresh.lookup scid).map ChannelInfo.edge := by
    intro scid
    rw [lookup_mapValues, Option.map_map]
    rfl
  have hstart : Sweeping g.edge ({ g with channels := kept }, []) := by
    refine ⟨h.balanced, fun n v hv => ?_, ?_⟩
    · exact iff_of_false (h.occupied n v hv) not_mem_nil
    · refine Eq.trans (congrArg (· + _) (tally_congr fun n => ?_)) h.counters
      rw [lookup_retain]
      cases g.nodes.lookup n <;> rfl
  obtain ⟨s, hok, hsweeping, hchannels⟩ := foldlM_removeStaleChannel_sweeping hstart
    stale.nodupKeys (fun entry hmem => by
      have hlookup := lookup_eq_some_iff.mpr hmem
      rw [lookup_retain, filter_eq_some_iff] at hlookup
      rw [hedge, hlookup.1, map_some]) now
  let final := { s.1 with nodes := retain (fun n _ => n ∉ s.2) s.1.nodes }
  have hfinal : final.edge =
      fun scid => if scid ∈ stale.entries.keys then none else g.edge scid := by
    funext scid
    have hmem : scid ∈ stale.entries.keys ↔ (stale.lookup scid).isSome := lookup_isSome.symm
    rw [NetworkGraph.edge, hchannels, hedge]
    simp only [hmem, stale, kept, lookup_retain]
    cases fresh.lookup scid with
    | none => rfl
    | some info => cases hstale : info.isStale minTime <;> simp [hstale]
  have hvertex : ∀ n, final.vertex n = if n ∈ s.2 then none else s.1.vertex n := by
    intro n
    rw [vertex, lookup_retain, vertex]
    by_cases hn : n ∈ s.2
    · rw [if_pos hn]
      cases s.1.nodes.lookup n <;> simp [hn]
    · rw [if_neg hn]
      cases s.1.nodes.lookup n <;> simp [hn]
  refine ⟨final, bind_eq_ok.mpr ⟨s, hok, rfl⟩, ⟨?_, fun n v hv => ?_, hsweeping.counters⟩⟩
  · rw [hfinal]
    refine hsweeping.balanced.prune fun n => ?_
    rw [hvertex]
    by_cases hn : n ∈ s.2
    · exact .inr ⟨if_pos hn, fun v hv => (hsweeping.noted n v hv).mpr hn⟩
    · exact .inl (if_neg hn)
  · rw [hvertex] at hv
    split at hv
    · cases hv
    next hn =>
      exact fun hempty => hn ((hsweeping.noted n v hv).mp hempty)

theorem removeStaleChannelsAndTracking_counted (h : Counted g) (now : ℕ) :
    ∃ g', g.removeStaleChannelsAndTrackingWithTime now = .ok g' ∧ Counted g' := by
  rw [removeStaleChannelsAndTrackingWithTime]
  split
  · exact ⟨g, rfl, h⟩
  · obtain ⟨g', hok, hcounted⟩ :=
      removeStaleChannels_counted h now (now - staleChannelUpdateAgeLimitSecs)
    exact ⟨_, bind_eq_ok.mpr ⟨g', hok, rfl⟩, hcounted.congr rfl rfl rfl rfl⟩

/-! ### A channel enters the graph -/

theorem joinNode_counted (h : g.counters = g.issued) (scid : ℕ) (n : NodeId) :
    (∃ c, (g.joinNode scid n).2.vertex = update g.vertex n
        (some (joined scid c (g.vertex n)))) ∧
      ((g.joinNode scid n).2.vertex n).map counter = some (g.joinNode scid n).1 ∧
      (g.joinNode scid n).2.counters = (g.joinNode scid n).2.issued ∧
      (g.joinNode scid n).2.channels = g.channels := by
  have hinsert : ∀ (g' : NetworkGraph) info, g'.nodes = g.nodes.insert n info →
      g'.vertex = update g.vertex n (some info.vertex) := by
    intro g' info heq
    funext m
    rw [vertex, heq]
    by_cases hm : m = n
    · rw [hm, lookup_insert, update_self]
      rfl
    · rw [lookup_insert_ne hm, update_of_ne hm]
      rfl
  rw [joinNode]
  cases hnode : g.nodes.lookup n with
  | some node =>
    let grown := { node with channels := node.channels ++ [scid] }
    have hvertex := hinsert { g with nodes := g.nodes.insert n grown } grown rfl
    refine ⟨⟨0, ?_⟩, ?_, ?_, rfl⟩
    · rw [vertex_of_lookup hnode]
      exact hvertex
    · exact congrArg (Option.map counter) ((congrFun hvertex n).trans (update_self _ _ _))
    · refine Eq.trans (congrArg (· + _) (tally_congr fun m => ?_)) h
      by_cases hm : m = n
      · rw [hm, hnode, lookup_insert]
        rfl
      · rw [lookup_insert_ne hm]
  | none =>
    let fresh := NodeInfo.fresh scid g.takeCounter.1
    let entered := { g.takeCounter.2 with nodes := g.takeCounter.2.nodes.insert n fresh }
    have hnodes : entered.nodes = g.nodes.insert n fresh :=
      congrArg (AList.insert n fresh) (takeCounter_nodes g)
    have hvertex := hinsert entered fresh hnodes
    have hnone : g.vertex n = none := by
      rw [vertex, hnode]
      rfl
    refine ⟨⟨g.takeCounter.1, ?_⟩, ?_, ?_, ?_⟩
    · rw [hnone]
      exact hvertex
    · exact congrArg (Option.map counter) ((congrFun hvertex n).trans (update_self _ _ _))
    · have htally : tally NodeInfo.nodeCounter entered.nodes = g.takeCounter.1 ::ₘ
          tally NodeInfo.nodeCounter g.nodes := by
        rw [hnodes]
        exact tally_insert hnode fresh
      change tally NodeInfo.nodeCounter entered.nodes +
        (g.takeCounter.2.removedNodeCounters : Multiset ℕ) = g.takeCounter.2.issued
      rw [htally, Multiset.cons_add]
      -- the number is the last one given back, or the next one
      rw [NetworkGraph.counters] at h
      rw [takeCounter]
      split
      next counter rest hfree =>
        rw [hfree, ← Multiset.cons_coe, Multiset.add_cons] at h
        exact h
      next hfree =>
        rw [hfree] at h
        rw [NetworkGraph.issued, Multiset.range_succ, Multiset.map_cons]
        exact congrArg (_ ::ₘ ·) ((congrArg (_ + ·) (congrArg _ hfree)).trans h)
    · change g.takeCounter.2.channels = g.channels
      rw [takeCounter]
      split <;> rfl

theorem enterChannel_counted (h : CountedFor edge g)
    (hscid : edge scid = none) {info : ChannelInfo} (hapart : info.nodeOne ≠ info.nodeTwo)
    (hedge : ∀ s, s ≠ scid → g.edge s = edge s) : Counted (g.enterChannel scid info) := by
  obtain ⟨⟨c₁, hvertex₁⟩, hcounter₁, hcounters₁, hchannels₁⟩ :=
    joinNode_counted h.counters scid info.nodeOne
  obtain ⟨⟨c₂, hvertex₂⟩, hcounter₂, hcounters₂, hchannels₂⟩ :=
    joinNode_counted hcounters₁ scid info.nodeTwo
  let one := g.joinNode scid info.nodeOne
  let two := one.2.joinNode scid info.nodeTwo
  let entered := { info with nodeOneCounter := one.1, nodeTwoCounter := two.1 }
  let final := { two.2 with channels := two.2.channels.insert scid entered }
  have hfinal : final.vertex = two.2.vertex := rfl
  have hfinalEdge : final.edge = update edge scid (some entered.edge) := by
    funext s
    rw [NetworkGraph.edge]
    by_cases hs : s = scid
    · rw [hs, lookup_insert, update_self]
      rfl
    · rw [lookup_insert_ne hs, update_of_ne hs, ← hedge s hs, hchannels₂, hchannels₁]
      rfl
  have hone : final.vertex info.nodeOne = some (joined scid c₁ (g.vertex info.nodeOne)) := by
    rw [hfinal, hvertex₂, update_of_ne hapart, hvertex₁, update_self]
  have htwo : final.vertex info.nodeTwo = some (joined scid c₂ (g.vertex info.nodeTwo)) := by
    rw [hfinal, hvertex₂, update_self, hvertex₁, update_of_ne hapart.symm]
  have hrest : ∀ n, ¬ entered.edge.Touches n → final.vertex n = g.vertex n := by
    intro n hn
    have hn' := mt touches_iff.mpr hn
    rw [not_or] at hn'
    rw [hfinal, hvertex₂, update_of_ne hn'.2, hvertex₁, update_of_ne hn'.1]
  have hends : ∀ n, entered.edge.Touches n →
      ∃ c, final.vertex n = some (joined scid c (g.vertex n)) := by
    rintro n (rfl | rfl)
    · exact ⟨c₁, hone⟩
    · exact ⟨c₂, htwo⟩
  refine ⟨?_, fun n v hv => ?_, hcounters₂⟩
  · change Balanced final.edge final.vertex
    rw [hfinalEdge]
    refine h.balanced.attach hscid hapart hends hrest (Eq.trans ?_ hcounter₁) hcounter₂
    change (final.vertex info.nodeOne).map _ = _
    rw [hfinal, hvertex₂, update_of_ne hapart]
  · by_cases hn : entered.edge.Touches n
    · obtain ⟨c, hjoined⟩ := hends n hn
      rw [← some.inj (hjoined.symm.trans hv)]
      exact ne_nil_of_mem (mem_edges_joined.mpr (.inr rfl))
    · exact h.occupied n v ((hrest n hn).symm.trans hv)

/-- **`add_channel_between_nodes`** does not panic, and keeps the invariant. -/
theorem addChannelBetweenNodes_counted (h : Counted g) {info : ChannelInfo}
    {utxoValue : Option ℕ} (hapart : info.nodeOne ≠ info.nodeTwo) :
    (∃ e, g.addChannelBetweenNodes scid info utxoValue = .error (.refused e)) ∨
      ∃ g', g.addChannelBetweenNodes scid info utxoValue = .ok g' ∧ Counted g' := by
  simp only [addChannelBetweenNodes, makeRoom]
  cases hchan : g.channels.lookup scid with
  | none =>
    refine .inr ⟨_, rfl, enterChannel_counted h ?_ hapart fun _ _ => rfl⟩
    rw [NetworkGraph.edge, hchan]
    rfl
  | some old =>
    cases utxoValue with
    | none => exact .inl ⟨_, rfl⟩
    | some value =>
      have hk : g.edge scid = some old.edge := by rw [NetworkGraph.edge, hchan, map_some]
      obtain ⟨g₁, hok, hcounted, hchannels⟩ := removeChannelInNodes_counted h hk
      refine .inr ⟨g₁.enterChannel scid info, ?_,
        enterChannel_counted hcounted (update_self _ _ _) hapart fun s hs => ?_⟩
      · simp only [hok]
        rfl
      · rw [update_of_ne hs, NetworkGraph.edge, hchannels]
        rfl

end PqLightning.Gossip
