import PqLightning.Gossip.Counters

/-!
# Node counters over whole runs

The operations on the graph keep the invariant `Counted`, and none of them finds a channel that
points to a node which is not in the graph. What an operation may panic over instead is an overflow:
of a record's length in `parse_records`, or of the clock.

Counters are given out modulo `2 ^ 32`. Up to there they are pairwise different; beyond, they are
not.
-/

namespace PqLightning.Gossip

open AssocMap Incidence List Option AList NetworkGraph

variable {crypto : GossipCrypto} {around : Surroundings} {g g' : NetworkGraph}

/-! ### Announcements and updates -/

theorem NodeInfo.vertex_pin {info info' : NodeInfo} {records : PqRecords}
    (h : info.pin records = .ok info') : info'.vertex = info.vertex := by
  simp only [NodeInfo.pin, bind_eq_ok] at h
  obtain ⟨-, -, -, -, -, -, heq⟩ := h
  rw [← Except.ok.inj heq]
  rfl

variable {fullMsg : Option NodeAnnouncement}

variable {msg : UnsignedNodeAnnouncement}

theorem NodeInfo.vertex_pinSigned {info info' : NodeInfo}
    (h : info.pinSigned msg fullMsg = .ok info') : info'.vertex = info.vertex := by
  cases fullMsg with
  | none => rw [← Except.ok.inj h]
  | some full =>
    obtain ⟨records, -, hpin⟩ := bind_eq_ok.mp h
    exact vertex_pin hpin

theorem updateNodeFromAnnouncementIntern_counted (hg : Counted g)
    (h : g.updateNodeFromAnnouncementIntern around msg fullMsg = .ok g') : Counted g' := by
  simp only [updateNodeFromAnnouncementIntern] at h
  split at h
  · obtain ⟨_, -, h⟩ := bind_eq_ok.mp h
    cases h
  next node hnode =>
    obtain ⟨_, -, h⟩ := bind_eq_ok.mp h
    obtain ⟨node', hpin, h⟩ := bind_eq_ok.mp h
    cases h
    refine hg.congr rfl (funext fun n => ?_) rfl rfl
    rw [vertex, vertex]
    by_cases hn : n = msg.nodeId
    · rw [hn, lookup_insert, hnode]
      have hvertex := NodeInfo.vertex_pinSigned hpin
      exact congrArg some hvertex
    · rw [lookup_insert_ne hn]

theorem updateChannelInternal_counted (hg : Counted g) {msg : UnsignedChannelUpdate}
    {fullMsg : Option ChannelUpdate} {sig : Option (Bytes 64)} {onlyVerify : Bool}
    (h : g.updateChannelInternal crypto around msg fullMsg sig onlyVerify = .ok g') :
    Counted g' := by
  simp only [updateChannelInternal, bind_eq_ok] at h
  obtain ⟨-, -, -, -, -, -, h⟩ := h
  split at h
  · obtain ⟨_, -, h⟩ := bind_eq_ok.mp h
    cases h
  next channel hchannel =>
    obtain ⟨_, -, h⟩ := bind_eq_ok.mp h
    obtain ⟨_, -, h⟩ := bind_eq_ok.mp h
    split at h
    · exact Except.ok.inj h ▸ hg
    · cases h
      refine hg.congr (funext fun scid => ?_) rfl rfl rfl
      rw [edge, edge]
      by_cases hscid : scid = msg.shortChannelId
      · rw [hscid, lookup_insert, hchannel, ChannelInfo.withUpdate]
        split <;> rfl
      · rw [lookup_insert_ne hscid]

/-! ### Operations that do not find an inconsistent map -/

/-- The operation does not panic, other than by an overflow. -/
def Unharmed {α : Type} (x : Outcome α) : Prop := ∀ p, x = .error (.panicked p) → p = .overflow

namespace Unharmed

variable {α β : Type}

theorem ok (a : α) : Unharmed (.ok a : Outcome α) := fun _ h => nomatch h

theorem refused (e : LightningError) : Unharmed (.error (.refused e) : Outcome α) :=
  fun _ h => nomatch h

theorem bind {x : Outcome α} {f : α → Outcome β} (hx : Unharmed x) (hf : ∀ a, Unharmed (f a)) :
    Unharmed (x >>= f) := by
  intro p h
  rcases bind_eq_error.mp h with h | ⟨a, -, h⟩
  · exact hx p h
  · exact hf a p h

theorem guardWith {p : Prop} [Decidable p] {e : LightningError} :
    Unharmed (guardWith p (.refused e) : Outcome Unit) := by
  rw [PqLightning.guardWith]
  split
  · exact ok _
  · exact refused _

theorem ofPanic {x : Except Panic α} (h : ∀ p, x = .error p → p = .overflow) :
    Unharmed (Outcome.ofPanic x) := by
  intro p hp
  cases x with
  | ok a => cases hp
  | error q =>
    obtain rfl : q = p := Failure.panicked.inj (Except.error.inj hp)
    exact h q rfl

end Unharmed

theorem parseFrom_eq_error {total fuel : ℕ} {rest : List UInt8} {records : PqRecords} {p : Panic}
    (h : parseFrom total fuel rest records = .error p) : p = .overflow := by
  induction fuel generalizing rest records with
  | zero => cases h
  | succ fuel ih =>
    rw [parseFrom] at h
    split at h
    · cases h
    · split at h
      · cases h
      · rcases bind_eq_error.mp h with h | ⟨stop, -, h⟩
        · rw [addU64] at h
          split at h
          · cases h
          · exact (Except.error.inj h).symm
        · split at h
          · cases h
          · exact ih h

theorem unharmed_parseRecords (data : List UInt8) :
    Unharmed (Outcome.ofPanic (parseRecords data)) := .ofPanic fun _ h => parseFrom_eq_error h

theorem unharmed_checkSignature {msgType : String} {key : NodeId} {verified : Bool} :
    Unharmed (checkSignature crypto msgType key verified) := .bind .guardWith fun _ => .guardWith

theorem unharmed_checkContinuity {n : ℕ} {pinned announced : Option (Bytes n)}
    {substituted dropped : String} :
    Unharmed (checkContinuity pinned announced substituted dropped) := by
  unfold checkContinuity
  split
  · exact .guardWith
  · exact .refused _
  · exact .ok _

theorem unharmed_updateNodeFromAnnouncementIntern :
    Unharmed (g.updateNodeFromAnnouncementIntern around msg fullMsg) := by
  have hpin : ∀ node : NodeInfo, ∀ records, Unharmed (node.pin records) := fun node records =>
    .bind unharmed_checkContinuity fun _ => .bind unharmed_checkContinuity fun _ =>
      .bind .guardWith fun _ => .ok _
  have hnewer : ∀ node : NodeInfo, Unharmed (node.checkNewer msg.timestamp) := by
    intro node
    rw [NodeInfo.checkNewer]
    split
    · exact .ok _
    · exact .bind .guardWith fun _ => .guardWith
  have hsigned : ∀ node : NodeInfo, Unharmed (node.pinSigned msg fullMsg) := by
    intro node
    cases fullMsg with
    | none => exact .ok _
    | some full => exact .bind (unharmed_parseRecords _) fun _ => hpin node _
  rw [updateNodeFromAnnouncementIntern]
  split
  · exact .bind .guardWith fun _ => .refused _
  · exact .bind (hnewer _) fun _ => .bind (hsigned _) fun _ => .ok _

theorem unharmed_updateNodeFromAnnouncement {msg : NodeAnnouncement} :
    Unharmed (g.updateNodeFromAnnouncement crypto around msg) := by
  refine .bind ?_ fun _ => .bind ?_ fun _ => unharmed_updateNodeFromAnnouncementIntern
  · rw [checkNotKnown]
    split
    · exact .ok _
    · exact .guardWith
  · exact .bind unharmed_checkSignature fun _ => .bind (unharmed_parseRecords _) fun _ =>
      .bind .guardWith fun _ => .guardWith

theorem unharmed_updateChannelInternal {msg : UnsignedChannelUpdate}
    {fullMsg : Option ChannelUpdate} {sig : Option (Bytes 64)} {onlyVerify : Bool} :
    Unharmed (g.updateChannelInternal crypto around msg fullMsg sig onlyVerify) := by
  have htime : Unharmed (checkUpdateTime around.now msg.timestamp) := by
    refine .bind (.ofPanic fun p h => ?_) fun _ => .bind .guardWith fun _ => .guardWith
    rw [subU64] at h
    split at h
    · cases h
    · exact (Except.error.inj h).symm
  have hlatest : ∀ update, Unharmed (checkUpdateLatest msg.timestamp update) := by
    intro update
    cases update with
    | none => exact .ok _
    | some existing => exact .bind .guardWith fun _ => .guardWith
  have hpq : ∀ pinned, Unharmed (checkPqSignature crypto pinned msg) := by
    intro pinned
    cases pinned with
    | none => exact .ok _
    | some key =>
      refine .bind (unharmed_parseRecords _) fun records => ?_
      split
      · exact .guardWith
      · exact .refused _
  have hsig : ∀ nodeId, Unharmed (g.checkUpdateSignature crypto msg nodeId sig) := by
    intro nodeId
    cases sig with
    | none => exact .ok _
    | some sig => exact .bind .guardWith fun _ => .bind .guardWith fun _ => hpq _
  refine .bind .guardWith fun _ => .bind htime fun _ => .bind .guardWith fun _ => ?_
  split
  · exact .bind .guardWith fun _ => .refused _
  · refine .bind (.bind .guardWith fun _ => hlatest _) fun _ => .bind (hsig _) fun _ => ?_
    split
    · exact .ok _
    · exact .ok _

/-! ### Runs -/

/-- The operations on the graph: those of `Operation`, and the ones on unsigned or merely checked
messages. -/
inductive GraphOperation where
  | operation (op : Operation)
  | updateChannelFromUnsignedAnnouncement (msg : UnsignedChannelAnnouncement)
      (utxoLookup : Option UtxoResult)
  | updateChannelUnsigned (msg : UnsignedChannelUpdate)
  | verifyChannelUpdate (msg : ChannelUpdate)

def GraphOperation.run (crypto : GossipCrypto) (around : Surroundings) (g : NetworkGraph) :
    GraphOperation → Outcome NetworkGraph
  | .operation op => op.run crypto around g
  | .updateChannelFromUnsignedAnnouncement msg utxoLookup =>
    g.updateChannelFromUnsignedAnnouncement crypto around msg utxoLookup
  | .updateChannelUnsigned msg => g.updateChannelUnsigned crypto around msg
  | .verifyChannelUpdate msg => g.verifyChannelUpdate crypto around msg

/-- The graphs that operations lead to from the empty one. An operation that is refused changes
nothing, so only those that succeed count. -/
inductive GraphReachable (crypto : GossipCrypto) : NetworkGraph → Prop
  | new (chainHash : Bytes 32) : GraphReachable crypto (.new chainHash)
  | step {g g' : NetworkGraph} (around : Surroundings) (op : GraphOperation) :
      GraphReachable crypto g → op.run crypto around g = .ok g' → GraphReachable crypto g'

/-- What an operation on a counted graph may return. -/
def KeepsCounted (x : Outcome NetworkGraph) : Prop := (∀ g', x = .ok g' → Counted g') ∧ Unharmed x

theorem KeepsCounted.ofPanic {x : Except Panic NetworkGraph}
    (h : ∃ g', x = .ok g' ∧ Counted g') : KeepsCounted (Outcome.ofPanic x) := by
  obtain ⟨g', rfl, hcounted⟩ := h
  exact ⟨fun _ hok => Except.ok.inj hok ▸ hcounted, .ok _⟩

theorem addChannelBetweenNodes_keepsCounted (h : Counted g) {scid : ℕ} {info : ChannelInfo}
    {utxoValue : Option ℕ} (hapart : info.nodeOne ≠ info.nodeTwo) :
    KeepsCounted (g.addChannelBetweenNodes scid info utxoValue) := by
  rcases addChannelBetweenNodes_counted h hapart with ⟨e, he⟩ | ⟨g', hok, hcounted⟩
  · rw [he]
    exact ⟨fun _ hok => (nomatch hok), .refused e⟩
  · rw [hok]
    exact ⟨fun _ hok => Except.ok.inj hok ▸ hcounted, .ok _⟩

/-- A check in front of an operation; the operation may rely on it. -/
theorem KeepsCounted.bind {α : Type} {x : Outcome α} {f : α → Outcome NetworkGraph}
    (hx : Unharmed x) (hf : ∀ a, x = .ok a → KeepsCounted (f a)) : KeepsCounted (x >>= f) := by
  refine ⟨fun g' hok => ?_, fun p hp => ?_⟩
  · obtain ⟨a, ha, hok⟩ := bind_eq_ok.mp hok
    exact (hf a ha).1 g' hok
  · rcases bind_eq_error.mp hp with hp | ⟨a, ha, hp⟩
    · exact hx p hp
    · exact (hf a ha).2 p hp

theorem unharmed_preChannelAnnouncementValidationCheck {msg : UnsignedChannelAnnouncement}
    {utxoLookup : Option UtxoResult} :
    Unharmed (g.preChannelAnnouncementValidationCheck msg utxoLookup) := by
  refine .bind .guardWith fun _ => ?_
  split
  · rw [ChannelInfo.checkWorthChecking]
    split
    · exact .guardWith
    · exact .guardWith
  · exact .ok _

theorem updateChannelFromUnsignedAnnouncementIntern_keepsCounted (h : Counted g)
    {msg : UnsignedChannelAnnouncement} {fullMsg : Option ChannelAnnouncement}
    {utxoLookup : Option UtxoResult} :
    KeepsCounted (g.updateChannelFromUnsignedAnnouncementIntern crypto around msg fullMsg
      utxoLookup) := by
  have hresult : ∀ result, Unharmed (handleResult crypto msg result) := by
    rintro (e | out)
    · cases e <;> exact .refused _
    · exact .bind .guardWith fun _ => .ok _
  have hcheck : Unharmed (checkChannelAnnouncement crypto around utxoLookup msg) := by
    refine .bind .guardWith fun _ => ?_
    split
    · exact .ok _
    · exact hresult _
    · exact hresult _
    · exact .refused _
  refine .bind .guardWith fun _ hapart => .bind .guardWith fun _ _ => .bind .guardWith fun _ _ =>
    .bind hcheck fun utxoValue _ => ?_
  exact addChannelBetweenNodes_keepsCounted h fun heq => guardWith_eq_ok.mp hapart (.inl heq)

/-- **One operation** keeps the invariant, and does not find an inconsistent map. -/
theorem GraphOperation.run_keepsCounted (h : Counted g) (op : GraphOperation) :
    KeepsCounted (op.run crypto around g) := by
  have hsorted : ∀ {nodeId1 nodeId2 : NodeId}, checkSorted nodeId1 nodeId2 = .ok () →
      nodeId1 ≠ nodeId2 := by
    rintro nodeId1 nodeId2 hlt rfl
    rw [checkSorted, guardWith_eq_ok] at hlt
    exact List.lt_irrefl _ hlt
  cases op with
  | operation op =>
    cases op with
    | updateNodeFromAnnouncement msg =>
      refine ⟨fun g' hok => ?_, unharmed_updateNodeFromAnnouncement⟩
      obtain ⟨_, -, hok⟩ := bind_eq_ok.mp hok
      obtain ⟨_, -, hok⟩ := bind_eq_ok.mp hok
      exact updateNodeFromAnnouncementIntern_counted h hok
    | updateNodeFromUnsignedAnnouncement msg =>
      exact ⟨fun _ hok => updateNodeFromAnnouncementIntern_counted h hok,
        unharmed_updateNodeFromAnnouncementIntern⟩
    | updateChannelFromAnnouncement msg utxoLookup =>
      refine .bind unharmed_preChannelAnnouncementValidationCheck fun _ _ => .bind ?_ fun _ _ =>
        updateChannelFromUnsignedAnnouncementIntern_keepsCounted h
      exact .bind unharmed_checkSignature fun _ => .bind unharmed_checkSignature fun _ =>
        .bind unharmed_checkSignature fun _ => unharmed_checkSignature
    | addChannelFromPartialAnnouncement scid capacity timestamp features nodeId1 nodeId2 =>
      exact .bind .guardWith fun _ hlt => addChannelBetweenNodes_keepsCounted h (hsorted hlt)
    | updateChannel msg =>
      exact ⟨fun _ hok => updateChannelInternal_counted h hok, unharmed_updateChannelInternal⟩
    | channelFailedPermanent scid => exact .ofPanic (channelFailedPermanent_counted h _ scid)
    | nodeFailedPermanent nodeId => exact .ofPanic (nodeFailedPermanent_counted h _ nodeId)
    | removeStaleChannelsAndTrackingWithTime now =>
      exact .ofPanic (removeStaleChannelsAndTracking_counted h now)
  | updateChannelFromUnsignedAnnouncement msg utxoLookup =>
    exact .bind unharmed_preChannelAnnouncementValidationCheck fun _ _ =>
      updateChannelFromUnsignedAnnouncementIntern_keepsCounted h
  | updateChannelUnsigned msg =>
    exact ⟨fun _ hok => updateChannelInternal_counted h hok, unharmed_updateChannelInternal⟩
  | verifyChannelUpdate msg =>
    exact ⟨fun _ hok => updateChannelInternal_counted h hok, unharmed_updateChannelInternal⟩

theorem GraphReachable.counted (h : GraphReachable crypto g) : Counted g := by
  induction h with
  | new chainHash => exact counted_new chainHash
  | step around op _ hok ih => exact (op.run_keepsCounted ih).1 _ hok

/-- What the graph says about its nodes and channels: the numbers of the nodes and the free ones are
the first `next_node_counter` numbers, on 32 bits; every channel repeats the numbers of its ends,
which are in the graph; every node lists its channels and no others, each once, and has one. -/
structure NetworkGraph.Partition (g : NetworkGraph) : Prop where
  counters : (g.nodes.entries.map (fun e => e.2.nodeCounter) ++ g.removedNodeCounters).Perm
    ((List.range g.nextNodeCounter).map (· % 2 ^ 32))
  ends : ∀ scid chan, g.channels.lookup scid = some chan → ∃ one two,
    g.nodes.lookup chan.nodeOne = some one ∧ g.nodes.lookup chan.nodeTwo = some two ∧
      chan.nodeOneCounter = one.nodeCounter ∧ chan.nodeTwoCounter = two.nodeCounter
  channels : ∀ n info, g.nodes.lookup n = some info → info.channels ≠ [] ∧ info.channels.Nodup ∧
    ∀ scid, scid ∈ info.channels ↔
      ∃ chan, g.channels.lookup scid = some chan ∧ (n = chan.nodeOne ∨ n = chan.nodeTwo)

theorem Counted.partition (h : Counted g) : g.Partition := by
  refine ⟨Multiset.coe_eq_coe.mp h.counters, fun scid chan hchan => ?_, fun n info hn => ?_⟩
  · have hk : g.edge scid = some chan.edge := by rw [edge, hchan, map_some]
    obtain ⟨v, hv, hone⟩ := map_eq_some_iff.mp (h.balanced.one scid _ hk)
    obtain ⟨w, hw, htwo⟩ := map_eq_some_iff.mp (h.balanced.two scid _ hk)
    obtain ⟨one, hone', rfl⟩ := exists_lookup_of_vertex hv
    obtain ⟨two, htwo', rfl⟩ := exists_lookup_of_vertex hw
    exact ⟨one, two, hone', htwo', hone.symm, htwo.symm⟩
  · have hv := vertex_of_lookup hn
    refine ⟨h.occupied n _ hv, h.balanced.nodup n _ hv, fun scid => ?_⟩
    refine (h.balanced.listed n _ hv scid).trans ?_
    constructor
    · rintro ⟨k, hk, hn⟩
      obtain ⟨chan, hchan, rfl⟩ := map_eq_some_iff.mp hk
      exact ⟨chan, hchan, ChannelInfo.touches_iff.mp hn⟩
    · rintro ⟨chan, hchan, hn⟩
      refine ⟨chan.edge, ?_, ChannelInfo.touches_iff.mpr hn⟩
      rw [edge, hchan, map_some]

/-- As long as the numbers fit into 32 bits they are pairwise different. -/
theorem map_mod_range_eq {next : ℕ} (h : next ≤ 2 ^ 32) :
    (List.range next).map (· % 2 ^ 32) = List.range next := by
  refine (map_congr_left fun n hn => ?_).trans (map_id _)
  exact Nat.mod_eq_of_lt (lt_of_lt_of_le (mem_range.mp hn) h)

/-- **The node counters.** After any operations the graph is as `Partition` says; as long as no more
than `2 ^ 32` numbers have been given out, they are pairwise different and are exactly the first
`next_node_counter` ones; and no operation panics over a channel that points to an unknown node. -/
theorem partition_of_graphReachable (crypto : GossipCrypto) (g : NetworkGraph)
    (h : GraphReachable crypto g) :
    g.Partition ∧
      (g.nextNodeCounter ≤ 2 ^ 32 →
        (g.nodes.entries.map (fun e => e.2.nodeCounter) ++ g.removedNodeCounters).Nodup ∧
          ∀ counter, counter ∈ g.nodes.entries.map (fun e => e.2.nodeCounter) ++
            g.removedNodeCounters ↔ counter < g.nextNodeCounter) ∧
      ∀ (around : Surroundings) (op : GraphOperation),
        op.run crypto around g ≠ .error (.panicked .unreachable) := by
  have hpartition := h.counted.partition
  refine ⟨hpartition, fun hnext => ?_, fun around op hpanic => ?_⟩
  · have hperm := hpartition.counters
    rw [map_mod_range_eq hnext] at hperm
    exact ⟨hperm.nodup_iff.mpr nodup_range, fun counter => hperm.mem_iff.trans mem_range⟩
  · cases (op.run_keepsCounted h.counted).2 _ hpanic

/-- Two channels are announced and the first one fails, so that its first node goes. A node of a
third channel is given that number, and the second channel fails as well. -/
def reusingOperations : List Operation :=
  [.updateChannelFromAnnouncement plainChannelAnnouncement none,
    .addChannelFromPartialAnnouncement 43 none 0 [] (constBytes 33 3) (constBytes 33 4),
    .channelFailedPermanent 42,
    .addChannelFromPartialAnnouncement 44 none 0 [] (constBytes 33 4) (constBytes 33 5),
    .channelFailedPermanent 43]

def reusingGraph : NetworkGraph := reusingOperations.foldl afterStep (.new (constBytes 32 0))

/-- Each of the operations is accepted. -/
def accepted : NetworkGraph → List Operation → Bool
  | _, [] => true
  | g, op :: ops =>
    (op.run permissiveCrypto quietSurroundings g).isOk && accepted (afterStep g op) ops

theorem graphReachable_foldl {g : NetworkGraph} {ops : List Operation}
    (h : GraphReachable permissiveCrypto g) (hops : accepted g ops) :
    GraphReachable permissiveCrypto (ops.foldl afterStep g) := by
  induction ops generalizing g with
  | nil => exact h
  | cons op ops ih =>
    rw [accepted, Bool.and_eq_true] at hops
    exact ih (.step quietSurroundings (.operation op) h (run_eq_afterStep op hops.1)) hops.2

theorem partition_reusingGraph :
    (reusingGraph.nodes.entries.map fun e => (e.1, e.2.nodeCounter)) =
        [(constBytes 33 4, 2), (constBytes 33 5, 0)] ∧
      reusingGraph.removedNodeCounters = [1] ∧ reusingGraph.nextNodeCounter = 3 ∧
      reusingGraph.Partition ∧
      ∀ (around : Surroundings) (op : GraphOperation),
        op.run permissiveCrypto around reusingGraph ≠ .error (.panicked .unreachable) := by
  have hpartition := partition_of_graphReachable permissiveCrypto reusingGraph
    (graphReachable_foldl (.new _) (by decide +kernel))
  exact ⟨by decide +kernel, by decide +kernel, by decide +kernel, hpartition.1, hpartition.2.2⟩

/-! ### More nodes than there are numbers -/

def numberedNode (k : ℕ) : NodeId :=
  ⟨List.replicate 28 0 ++ [UInt8.ofNat (k / 2 ^ 32), UInt8.ofNat (k / 2 ^ 24),
    UInt8.ofNat (k / 2 ^ 16), UInt8.ofNat (k / 2 ^ 8)] ++ [UInt8.ofNat k], rfl⟩

theorem numberedNode_inj {k k' : ℕ} (hk : k < 2 ^ 40) (hk' : k' < 2 ^ 40)
    (h : numberedNode k = numberedNode k') : k = k' := by
  have hbyte : ∀ {a b : ℕ}, UInt8.ofNat a = UInt8.ofNat b → a % 256 = b % 256 := by
    intro a b hab
    have := congrArg UInt8.toNat hab
    rwa [UInt8.toNat_ofNat', UInt8.toNat_ofNat'] at this
  have hlists := congrArg Subtype.val h
  simp only [numberedNode, append_assoc, append_cancel_left_eq, cons_append,
    nil_append, List.cons.injEq, and_true] at hlists
  obtain ⟨h4, h3, h2, h1, h0⟩ := hlists
  have := hbyte h4
  have := hbyte h3
  have := hbyte h2
  have := hbyte h1
  have := hbyte h0
  omega

theorem numberedNode_lt (n : ℕ) : (numberedNode (2 * n)).1 < (numberedNode (2 * n + 1)).1 := by
  have h4 : (2 * n + 1) / 2 ^ 32 = 2 * n / 2 ^ 32 := by omega
  have h3 : (2 * n + 1) / 2 ^ 24 = 2 * n / 2 ^ 24 := by omega
  have h2 : (2 * n + 1) / 2 ^ 16 = 2 * n / 2 ^ 16 := by omega
  have h1 : (2 * n + 1) / 2 ^ 8 = 2 * n / 2 ^ 8 := by omega
  rw [numberedNode, numberedNode, h4, h3, h2, h1]
  refine append_left_lt (cons_lt_cons_iff.mpr (.inl ?_))
  rw [UInt8.lt_iff_toNat_lt, UInt8.toNat_ofNat', UInt8.toNat_ofNat']
  omega

/-- The graph after the first `n` pairs of nodes have been joined by a channel each. -/
structure Paired (n : ℕ) (g : NetworkGraph) : Prop where
  reachable : GraphReachable permissiveCrypto g
  next : g.nextNodeCounter = 2 * n
  free : g.removedNodeCounters = []
  numbered : ∀ k < 2 * n, (g.nodes.lookup (numberedNode k)).map NodeInfo.nodeCounter =
    some (k % 2 ^ 32)
  fresh : ∀ m, (∀ k < 2 * n, m ≠ numberedNode k) → g.nodes.lookup m = none
  channels : ∀ scid, n ≤ scid → g.channels.lookup scid = none

theorem joinNode_of_fresh {scid : ℕ} {m : NodeId} (hm : g.nodes.lookup m = none)
    (hfree : g.removedNodeCounters = []) :
    g.joinNode scid m = (g.nextNodeCounter % 2 ^ 32, { g with
      nextNodeCounter := g.nextNodeCounter + 1
      nodes := g.nodes.insert m (NodeInfo.fresh scid (g.nextNodeCounter % 2 ^ 32)) }) := by
  simp only [joinNode, hm, takeCounter, hfree]

/-- **Two more nodes.** -/
theorem exists_paired_succ {n : ℕ} (hn : n < 2 ^ 38) (h : Paired n g) :
    ∃ g', Paired (n + 1) g' := by
  let one := numberedNode (2 * n)
  let two := numberedNode (2 * n + 1)
  have hold : ∀ k < 2 * n, numberedNode k ≠ one ∧ numberedNode k ≠ two := fun k hk =>
    ⟨fun heq => by have := numberedNode_inj (by omega) (by omega) heq; omega,
      fun heq => by have := numberedNode_inj (by omega) (by omega) heq; omega⟩
  have hapart : one ≠ two := fun heq => by
    have := numberedNode_inj (by omega) (by omega) heq
    omega
  have hone : g.nodes.lookup one = none := h.fresh one fun k hk heq => (hold k hk).1 heq.symm
  have htwo : g.nodes.lookup two = none := h.fresh two fun k hk heq => (hold k hk).2 heq.symm
  let nodes₁ := g.nodes.insert one (NodeInfo.fresh n (2 * n % 2 ^ 32))
  let nodes := nodes₁.insert two (NodeInfo.fresh n ((2 * n + 1) % 2 ^ 32))
  let g₁ := { g with nextNodeCounter := 2 * n + 1, nodes := nodes₁ }
  let g₂ := { g with nextNodeCounter := 2 * n + 2, nodes := nodes }
  have hjoin₁ : g.joinNode n one = (2 * n % 2 ^ 32, g₁) := by
    rw [joinNode_of_fresh hone h.free, h.next]
  have hjoin₂ : g₁.joinNode n two = ((2 * n + 1) % 2 ^ 32, g₂) :=
    joinNode_of_fresh ((lookup_insert_ne hapart.symm).trans htwo) h.free
  let info : ChannelInfo := ⟨[], one, two, u32Max, u32Max, none, none, none, none, 0⟩
  let entered := { info with
    nodeOneCounter := 2 * n % 2 ^ 32, nodeTwoCounter := (2 * n + 1) % 2 ^ 32 }
  have henter : g.enterChannel n info =
      { g₂ with channels := g.channels.insert n entered } := by
    simp only [enterChannel, info, hjoin₁, hjoin₂]
    rfl
  have hrun : GraphOperation.run permissiveCrypto quietSurroundings g
      (.operation (.addChannelFromPartialAnnouncement n none 0 [] one two)) =
      .ok (g.enterChannel n info) := by
    have hroom : g.makeRoom n none = .ok g := by
      simp only [makeRoom, h.channels n le_rfl]
    have hsorted : checkSorted one two = .ok () := by
      rw [checkSorted, guardWith_eq_ok]
      exact numberedNode_lt n
    change g.addChannelFromPartialAnnouncement n none 0 [] one two = _
    rw [addChannelFromPartialAnnouncement, hsorted, ok_bind, addChannelBetweenNodes, hroom, ok_bind]
  refine ⟨_, .step quietSurroundings _ h.reachable hrun, ?_, ?_, fun k hk => ?_, fun m hm => ?_,
    fun scid hscid => ?_⟩
  · rw [henter]
    rfl
  · rw [henter]
    exact h.free
  · rw [henter]
    change (nodes.lookup (numberedNode k)).map _ = _
    by_cases hk2 : k = 2 * n + 1
    · rw [hk2, lookup_insert]
      rfl
    · by_cases hk1 : k = 2 * n
      · rw [hk1, lookup_insert_ne hapart, lookup_insert]
        rfl
      · have hlt : k < 2 * n := by omega
        rw [lookup_insert_ne (hold k hlt).2, lookup_insert_ne (hold k hlt).1]
        exact h.numbered k hlt
  · rw [henter]
    change nodes.lookup m = none
    rw [lookup_insert_ne (hm (2 * n + 1) (by omega)), lookup_insert_ne (hm (2 * n) (by omega))]
    exact h.fresh m fun k hk => hm k (by omega)
  · rw [henter]
    exact (lookup_insert_ne (by omega)).trans (h.channels scid (by omega))

theorem exists_paired {n : ℕ} (hn : n ≤ 2 ^ 38) : ∃ g, Paired n g := by
  induction n with
  | zero =>
    exact ⟨.new (constBytes 32 0), .new _, rfl, rfl, fun k hk => absurd hk (Nat.not_lt_zero k),
      fun _ _ => rfl, fun _ _ => rfl⟩
  | succ n ih =>
    obtain ⟨g, hg⟩ := ih (by omega)
    exact exists_paired_succ (by omega) hg

/-- **Two nodes with one number.** After `2 ^ 31 + 1` channels between nodes of their own, the first
node and the one that came after `2 ^ 32` others have the same counter. -/
theorem exists_shared_counter :
    ∃ g, GraphReachable permissiveCrypto g ∧ ∃ n m one two, n ≠ m ∧
      g.nodes.lookup n = some one ∧ g.nodes.lookup m = some two ∧
      one.nodeCounter = two.nodeCounter := by
  obtain ⟨g, hg⟩ := exists_paired (show 2 ^ 31 + 1 ≤ 2 ^ 38 by decide)
  obtain ⟨one, hone, hc⟩ := map_eq_some_iff.mp (hg.numbered 0 (by decide))
  obtain ⟨two, htwo, hc'⟩ := map_eq_some_iff.mp (hg.numbered (2 ^ 32) (by decide))
  refine ⟨g, hg.reachable, _, _, one, two, fun heq => ?_, hone, htwo, ?_⟩
  · have := numberedNode_inj (by decide) (by decide) heq
    omega
  · rw [hc, hc', Nat.mod_self, Nat.zero_mod]

end PqLightning.Gossip
