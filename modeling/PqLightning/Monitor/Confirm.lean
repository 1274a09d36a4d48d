import PqLightning.Monitor.Chain

/-!
# What one confirmed transaction does to a monitor

A transaction that confirms changes the events that wait, the records of fulfilled HTLCs and of the
counterparty's commitments on the chain, and which funding is confirmed. Everything else is left to
the end of the block (`SameChannel`). What it adds is under its own id: claims of its outputs,
events and outputs to watch (`Confirms`).
-/

namespace PqLightning.Monitor

open AssocMap Chain ChannelMonitorImpl List Option

variable {crypto : Crypto} {monitor monitor' : ChannelMonitorImpl} {c c' : Confirmation}
  {tx : Transaction} {input : TxIn} {height : ℕ} {blockHash : BlockHash}

/-! ### What stays -/

/-- Two monitors that differ only in what transactions change. -/
def SameChannel (monitor monitor' : ChannelMonitorImpl) : Prop :=
  monitor' = { monitor with
    alternativeFundingConfirmed := monitor'.alternativeFundingConfirmed
    onchainEventsAwaitingThresholdConf := monitor'.onchainEventsAwaitingThresholdConf
    pendingMonitorEvents := monitor'.pendingMonitorEvents
    fundingSpendSeen := monitor'.fundingSpendSeen
    counterpartyCommitmentTxnOnChain := monitor'.counterpartyCommitmentTxnOnChain
    counterpartyFulfilledHtlcs := monitor'.counterpartyFulfilledHtlcs
    broadcastedHolderRevokableScript := monitor'.broadcastedHolderRevokableScript }

namespace SameChannel

theorem refl (monitor : ChannelMonitorImpl) : SameChannel monitor monitor := rfl

theorem trans {monitor'' : ChannelMonitorImpl} (h : SameChannel monitor monitor')
    (h' : SameChannel monitor' monitor'') : SameChannel monitor monitor'' :=
  Eq.trans h' (by rw [h])

section

variable (h : SameChannel monitor monitor')

include h

theorem funding : monitor'.funding = monitor.funding :=
  (congrArg ChannelMonitorImpl.funding h).trans rfl

theorem pendingFunding : monitor'.pendingFunding = monitor.pendingFunding :=
  (congrArg ChannelMonitorImpl.pendingFunding h).trans rfl

theorem fundings : monitor'.fundings = monitor.fundings := by
  rw [ChannelMonitorImpl.fundings, h.funding, h.pendingFunding, ChannelMonitorImpl.fundings]

theorem commitmentSecrets : monitor'.commitmentSecrets = monitor.commitmentSecrets :=
  (congrArg ChannelMonitorImpl.commitmentSecrets h).trans rfl

theorem claimRequests : monitor'.claimRequests = monitor.claimRequests :=
  (congrArg ChannelMonitorImpl.claimRequests h).trans rfl

theorem outputsToWatch : monitor'.outputsToWatch = monitor.outputsToWatch :=
  (congrArg ChannelMonitorImpl.outputsToWatch h).trans rfl

end

end SameChannel

/-! ### What changes -/

/-- The monitor has only events of other transactions and of this one, and knows of no other
commitment of the counterparty than before. -/
structure Records (txid : Txid) (monitor monitor' : ChannelMonitorImpl) : Prop where
  same : SameChannel monitor monitor'
  events : ∀ entry ∈ monitor'.onchainEventsAwaitingThresholdConf,
    entry ∈ monitor.onchainEventsAwaitingThresholdConf ∨ entry.txid = txid
  alternative : monitor'.alternativeFundingConfirmed = monitor.alternativeFundingConfirmed ∨
    ∃ height, monitor'.alternativeFundingConfirmed = some (txid, height)
  onChain : ∀ other ≠ txid, monitor'.counterpartyCommitmentTxnOnChain.lookup other =
    monitor.counterpartyCommitmentTxnOnChain.lookup other

namespace Records

variable {txid : Txid}

theorem refl (monitor : ChannelMonitorImpl) : Records txid monitor monitor :=
  ⟨.refl monitor, fun _ => .inl, .inl rfl, fun _ _ => rfl⟩

theorem trans {monitor'' : ChannelMonitorImpl} (h : Records txid monitor monitor')
    (h' : Records txid monitor' monitor'') : Records txid monitor monitor'' := by
  refine ⟨h.same.trans h'.same, fun entry hentry => ?_, ?_, fun other hne => ?_⟩
  · exact (h'.events entry hentry).elim (h.events entry) .inr
  · rcases h'.alternative with halternative | halternative
    · rw [halternative]
      exact h.alternative
    · exact .inr halternative
  · exact (h'.onChain other hne).trans (h.onChain other hne)

/-- Nothing that is recorded here changes. -/
theorem of_rest (hsame : SameChannel monitor monitor')
    (hevents : monitor'.onchainEventsAwaitingThresholdConf =
      monitor.onchainEventsAwaitingThresholdConf)
    (halternative : monitor'.alternativeFundingConfirmed = monitor.alternativeFundingConfirmed)
    (honChain : monitor'.counterpartyCommitmentTxnOnChain =
      monitor.counterpartyCommitmentTxnOnChain) : Records txid monitor monitor' :=
  ⟨hsame, fun entry hentry => .inl (hevents ▸ hentry), .inl halternative,
    fun other _ => by rw [honChain]⟩

end Records

/-! ### HTLCs -/

/-- Two monitors that differ only in the resolution of HTLCs. -/
def SameButHtlcs (monitor monitor' : ChannelMonitorImpl) : Prop :=
  monitor' = { monitor with
    onchainEventsAwaitingThresholdConf := monitor'.onchainEventsAwaitingThresholdConf
    pendingMonitorEvents := monitor'.pendingMonitorEvents
    counterpartyFulfilledHtlcs := monitor'.counterpartyFulfilledHtlcs }

/-- A transaction resolves HTLCs: nothing else changes, and the events that are new are its own. -/
structure Resolves (txid : Txid) (monitor monitor' : ChannelMonitorImpl) : Prop where
  same : SameButHtlcs monitor monitor'
  events : ∀ entry ∈ monitor'.onchainEventsAwaitingThresholdConf,
    entry ∈ monitor.onchainEventsAwaitingThresholdConf ∨ entry.txid = txid

variable {txid : Txid} {htlcs : CommitmentHtlcs}

namespace Resolves

theorem refl (monitor : ChannelMonitorImpl) : Resolves txid monitor monitor := ⟨rfl, fun _ => .inl⟩

/-- Events are queued, and others may be dropped. -/
theorem of_events {kept added : List OnchainEventEntry}
    (hmonitor : monitor' = { monitor with onchainEventsAwaitingThresholdConf := kept ++ added })
    (hkept : kept ⊆ monitor.onchainEventsAwaitingThresholdConf)
    (hadded : ∀ entry ∈ added, entry.txid = txid) : Resolves txid monitor monitor' := by
  subst hmonitor
  exact ⟨rfl, fun entry hentry => (mem_append.mp hentry).imp (@hkept entry) (hadded entry)⟩

section

variable (h : Resolves txid monitor monitor')

include h

theorem trans {monitor'' : ChannelMonitorImpl} (h' : Resolves txid monitor' monitor'') :
    Resolves txid monitor monitor'' :=
  ⟨Eq.trans h'.same (by rw [h.same]),
    fun entry hentry => (h'.events entry hentry).elim (h.events entry) .inr⟩

theorem onChain : monitor'.counterpartyCommitmentTxnOnChain =
    monitor.counterpartyCommitmentTxnOnChain :=
  (congrArg ChannelMonitorImpl.counterpartyCommitmentTxnOnChain h.same).trans rfl

theorem alternative : monitor'.alternativeFundingConfirmed = monitor.alternativeFundingConfirmed :=
  (congrArg ChannelMonitorImpl.alternativeFundingConfirmed h.same).trans rfl

theorem records : Records txid monitor monitor' :=
  ⟨Eq.trans h.same (by rw [h.same]), h.events, .inl h.alternative, fun _ _ => by rw [h.onChain]⟩

end

end Resolves

theorem resolves_queueHtlcFailure {source : HTLCSource} {paymentHash : PaymentHash} {amountMsat : ℕ}
    {index : Option ℕ} : Resolves txid monitor
      (monitor.queueHtlcFailure txid height blockHash source paymentHash amountMsat index) :=
  .of_events rfl filter_sublist.subset (by simp)

theorem resolves_failUnbroadcastHtlcs :
    Resolves txid monitor (monitor.failUnbroadcastHtlcs txid height blockHash htlcs) := by
  refine List.foldlRecOn (motive := Resolves txid monitor) _ _ (.refl monitor)
    fun next hnext htlc _ => hnext.trans ?_
  unfold checkHtlcFails
  split
  · exact .refl next
  · split
    · exact .refl next
    · split
      · exact .refl next
      · exact resolves_queueHtlcFailure

theorem resolves_recordHtlcSpend {vout : ℕ} {preimage : Option PaymentPreimage} {csv : Option ℕ} :
    Resolves tx.txid monitor (monitor.recordHtlcSpend tx height blockHash vout preimage csv) :=
  .of_events rfl (Subset.refl _) (by simp)

theorem resolves_applyScan (scan : Scan) :
    Resolves tx.txid monitor (monitor.applyScan tx height blockHash input scan) := by
  rcases scan with (_ | data) | outbound
  · exact .refl monitor
  · rw [applyScan]
    split
    · rw [fulfillFromChain]
      split
      · exact .refl monitor
      · exact resolves_recordHtlcSpend.trans ⟨rfl, fun _ => .inl⟩
    · exact resolves_queueHtlcFailure
  · exact resolves_recordHtlcSpend

theorem resolves_isResolvingHtlcOutput
    (h : monitor.isResolvingHtlcOutput tx height blockHash = .ok monitor') :
    Resolves tx.txid monitor monitor' := by
  obtain ⟨fundingSpent, -, h⟩ := bind_eq_ok.mp h
  refine foldlM_invariant (Resolves tx.txid monitor) (fun next input _ next' hnext hstep => ?_)
    (.refl monitor) h
  obtain ⟨scan, -, hstep⟩ := bind_eq_ok.mp hstep
  exact Except.ok.inj hstep ▸ hnext.trans (resolves_applyScan scan)

theorem resolves_checkTxAndPushSpendableOutputs :
    Resolves tx.txid monitor (monitor.checkTxAndPushSpendableOutputs tx height blockHash) :=
  .of_events rfl (Subset.refl _) (by simp)

/-! ### Claims -/

def ClaimsOf (txid : Txid) (claims : List PackageTemplate) : Prop :=
  ∀ claim ∈ claims, ∀ outpoint ∈ claim.outpoints, outpoint.txid = txid

@[simp] theorem outpoints_buildPackage (txid : Txid) (vout : ℕ) (data : PackageSolvingData)
    (spendableHeight : ℕ) :
    (PackageTemplate.buildPackage txid vout data spendableHeight).outpoints = [⟨txid, vout⟩] := rfl

namespace ClaimsOf

variable {txid : Txid} {claims claims' : List PackageTemplate}

theorem nil (txid : Txid) : ClaimsOf txid [] := nofun

theorem append (h : ClaimsOf txid claims) (h' : ClaimsOf txid claims') :
    ClaimsOf txid (claims ++ claims') := fun claim hclaim =>
  (mem_append.mp hclaim).elim (h claim) (h' claim)

theorem filterMap {α : Type} {f : α → Option PackageTemplate} {l : List α}
    (h : ∀ a claim, f a = some claim → claim.outpoints.all fun outpoint => outpoint.txid = txid) :
    ClaimsOf txid (l.filterMap f) := by
  intro claim hclaim outpoint houtpoint
  obtain ⟨a, -, ha⟩ := mem_filterMap.mp hclaim
  exact of_decide_eq_true (all_eq_true.mp (h a claim ha) outpoint houtpoint)

end ClaimsOf

variable {fundingSpent : FundingScope} {point : PublicKey} {secret : Bytes32} {number : ℕ}

theorem claimsOf_revokedOutputClaims : ClaimsOf tx.txid
    (monitor.revokedOutputClaims crypto fundingSpent point secret tx height) := by
  refine .filterMap fun (output, index) claim hclaim => ?_
  simp only at hclaim
  split at hclaim
  · cases hclaim
    simp
  · cases hclaim

theorem claimsOf_revokedHtlcClaims :
    ClaimsOf tx.txid (revokedHtlcClaims fundingSpent point secret tx height htlcs) := by
  refine .filterMap fun htlc claim hclaim => ?_
  obtain ⟨index, -, rfl⟩ := map_eq_some_iff.mp hclaim
  simp

theorem claimsOf_getCounterpartyOutputClaimInfo {confHeight : Option ℕ} : ClaimsOf tx.txid
    (monitor.getCounterpartyOutputClaimInfo fundingSpent number tx.txid tx htlcs confHeight) := by
  unfold getCounterpartyOutputClaimInfo
  split
  · exact .nil _
  · refine .filterMap fun htlc claim hclaim => ?_
    obtain ⟨index, -, hclaim⟩ := bind_eq_some_iff.mp hclaim
    split at hclaim
    · obtain ⟨preimage, -, rfl⟩ := map_eq_some_iff.mp hclaim
      simp [offeredHtlcClaim]
    · cases hclaim
      simp

variable {claims : List PackageTemplate}

theorem claimsOf_getBroadcastedHolderClaims {holderTx : CommitmentTransaction}
    (h : monitor.getBroadcastedHolderClaims fundingSpent holderTx height = .ok claims) :
    ClaimsOf holderTx.txid claims := by
  obtain ⟨claims', hclaims, h⟩ := bind_eq_ok.mp h
  cases h
  intro claim hclaim outpoint houtpoint
  obtain ⟨_, hmem, rfl⟩ := mem_filterMap.mp hclaim
  obtain ⟨htlc, -, hhtlc⟩ := exists_of_mem_mapM hclaims hmem
  unfold holderHtlcClaim at hhtlc
  split at hhtlc
  · cases hhtlc
  · split at hhtlc
    · cases hhtlc
      rw [mem_singleton.mp houtpoint]
    · obtain ⟨preimage, -, rfl⟩ := map_eq_some_iff.mp (Except.ok.inj hhtlc)
      rw [mem_singleton.mp houtpoint]

theorem claimsOf_checkSpendCounterpartyHtlc {commitmentTxid : Txid}
    {outputs : Option TransactionOutputs}
    (h : monitor.checkSpendCounterpartyHtlc crypto tx number commitmentTxid height =
      .ok (claims, outputs)) :
    ClaimsOf tx.txid claims ∧ ∀ output ∈ outputs, output.1 = tx.txid := by
  obtain ⟨secret, -, h⟩ := bind_eq_ok.mp h
  split at h
  · cases h
    exact ⟨.nil _, nofun⟩
  · obtain ⟨fundingSpent, -, h⟩ := bind_eq_ok.mp h
    obtain ⟨_, -, h⟩ := bind_eq_ok.mp h
    cases h
    refine ⟨fun claim hclaim outpoint houtpoint => ?_, fun output houtput => ?_⟩
    · obtain ⟨⟨_, output⟩, hmem, rfl⟩ := mem_map.mp hclaim
      obtain ⟨⟨input, index⟩, -, hinput⟩ := mem_filterMap.mp hmem
      rw [revokedHtlcTxClaim] at hinput
      split at hinput
      · obtain ⟨out, -, hout⟩ := map_eq_some_iff.mp hinput
        obtain ⟨rfl, -⟩ := Prod.mk.inj hout
        rw [mem_singleton.mp houtpoint]
      · cases hinput
    · split at houtput
      · cases houtput
      · cases houtput
        rfl

/-! ### Commitments -/

theorem records_recordOnChain : Records txid monitor (monitor.recordOnChain txid number) :=
  ⟨rfl, fun _ => .inl, .inl rfl, fun _ hne => AList.lookup_insert_ne hne⟩

theorem records_claimRevoked
    (h : monitor.claimRevoked crypto fundingSpent number secret point tx height blockHash =
      .ok (monitor', claims)) : Records tx.txid monitor monitor' ∧ ClaimsOf tx.txid claims := by
  simp only [claimRevoked] at h
  split at h
  · split at h
    · cases h
      exact ⟨.refl _, claimsOf_revokedOutputClaims.append claimsOf_revokedHtlcClaims⟩
    · cases h
      exact ⟨records_recordOnChain.trans resolves_failUnbroadcastHtlcs.records,
        claimsOf_revokedOutputClaims.append claimsOf_revokedHtlcClaims⟩
  · split at h
    · cases h
      exact ⟨.refl _, .nil _⟩
    · cases h

theorem records_checkSpendCounterpartyTransaction
    (h : monitor.checkSpendCounterpartyTransaction crypto tx input height blockHash =
      .ok (monitor', claims)) : Records tx.txid monitor monitor' ∧ ClaimsOf tx.txid claims := by
  obtain ⟨fundingSpent, -, h⟩ := bind_eq_ok.mp h
  split at h
  · obtain ⟨_, -, h⟩ := bind_eq_ok.mp h
    obtain ⟨_, -, h⟩ := bind_eq_ok.mp h
    obtain ⟨secret, -, h⟩ := bind_eq_ok.mp h
    split at h
    · cases h
      exact ⟨.refl _, .nil _⟩
    · exact records_claimRevoked h
  · unfold checkSpendUnrevoked at h
    split at h
    · cases h
      exact ⟨.refl _, .nil _⟩
    · obtain ⟨_, -, h⟩ := bind_eq_ok.mp h
      cases h
      exact ⟨records_recordOnChain.trans resolves_failUnbroadcastHtlcs.records,
        claimsOf_getCounterpartyOutputClaimInfo⟩

theorem records_checkSpendHolderTransaction {outputs : TransactionOutputs}
    (h : monitor.checkSpendHolderTransaction crypto tx input height blockHash =
      .ok (some (monitor', claims, outputs))) :
    Records tx.txid monitor monitor' ∧ ClaimsOf tx.txid claims ∧ outputs.1 = tx.txid := by
  obtain ⟨fundingSpent, -, h⟩ := bind_eq_ok.mp h
  split at h
  · cases Except.ok.inj h
  next holderTx current hholder =>
    obtain ⟨_, -, h⟩ := bind_eq_ok.mp h
    obtain ⟨_, hclaims, h⟩ := bind_eq_ok.mp h
    obtain ⟨_, -, h⟩ := bind_eq_ok.mp h
    obtain ⟨htlcs, -, h⟩ := bind_eq_ok.mp h
    obtain ⟨rfl, hrest⟩ := Prod.mk.inj (Option.some.inj (Except.ok.inj h))
    cases hrest
    have htxid : holderTx.txid = tx.txid := by
      unfold holderCommitment at hholder
      split at hholder
      · obtain ⟨rfl, -⟩ := Prod.mk.inj (Option.some.inj hholder)
        assumption
      · obtain ⟨prev, hprev, heq⟩ := map_eq_some_iff.mp hholder
        obtain ⟨rfl, -⟩ := Prod.mk.inj heq
        exact of_decide_eq_true (filter_eq_some_iff.mp hprev).2
    have hbroadcasted : Records tx.txid monitor { monitor with
        broadcastedHolderRevokableScript := some (crypto.holderRevokeableScript holderTx) } :=
      .of_rest rfl rfl rfl rfl
    exact ⟨hbroadcasted.trans resolves_failUnbroadcastHtlcs.records,
      htxid ▸ claimsOf_getBroadcastedHolderClaims hclaims, rfl⟩

/-! ### Transactions -/

structure Confirms (txid : Txid) (c c' : Confirmation) : Prop where
  records : Records txid c.monitor c'.monitor
  claims : ∃ claims, c'.claimableOutpoints = c.claimableOutpoints ++ claims ∧ ClaimsOf txid claims
  watch : ∃ outputs, c'.watchOutputs = c.watchOutputs ++ outputs ∧
    ∀ output ∈ outputs, output.1 = txid

namespace Confirms

variable {txid : Txid}

/-- Only the monitor changes. -/
theorem of_records (h : Records txid c.monitor c'.monitor)
    (hclaims : c'.claimableOutpoints = c.claimableOutpoints)
    (hwatch : c'.watchOutputs = c.watchOutputs) : Confirms txid c c' :=
  ⟨h, ⟨[], by rw [hclaims, append_nil], .nil _⟩, ⟨[], by rw [hwatch, append_nil], nofun⟩⟩

theorem refl (c : Confirmation) : Confirms txid c c := .of_records (.refl _) rfl rfl

theorem trans {c'' : Confirmation} (h : Confirms txid c c') (h' : Confirms txid c' c'') :
    Confirms txid c c'' := by
  obtain ⟨hrecords, ⟨claims, hclaims, hof⟩, ⟨outputs, houtputs, htxid⟩⟩ := h
  obtain ⟨hrecords', ⟨claims', hclaims', hof'⟩, ⟨outputs', houtputs', htxid'⟩⟩ := h'
  refine ⟨hrecords.trans hrecords', ⟨claims ++ claims', ?_, hof.append hof'⟩,
    ⟨outputs ++ outputs', ?_, ?_⟩⟩
  · rw [hclaims', hclaims, append_assoc]
  · rw [houtputs', houtputs, append_assoc]
  · exact fun output houtput => (mem_append.mp houtput).elim (htxid output) (htxid' output)

end Confirms

/-- The checks that another funding passes when it confirms. -/
structure FreshFunding (monitor : ChannelMonitorImpl) : Prop where
  alternative : monitor.alternativeFundingConfirmed = none
  noAlternative : ¬ monitor.onchainEventsAwaitingThresholdConf.any
    OnchainEventEntry.isAlternativeFunding
  spendConfirmed : monitor.fundingSpendConfirmed = none
  noSpend : ¬ monitor.onchainEventsAwaitingThresholdConf.any OnchainEventEntry.isFundingSpend

theorem confirmAlternativeFunding_spec {funding : FundingScope}
    (h : confirmAlternativeFunding c funding tx height blockHash = .ok c') :
    FreshFunding c.monitor ∧ ∃ events, (∀ entry ∈ events, entry = ⟨tx.txid, height, blockHash,
        .alternativeFundingConfirmation⟩) ∧
      c' = { c with
        monitor := { c.monitor with
          alternativeFundingConfirmed := some (tx.txid, height)
          onchainEventsAwaitingThresholdConf :=
            c.monitor.onchainEventsAwaitingThresholdConf ++ events }
        shouldBroadcastCommitment := c.shouldBroadcastCommitment || c.monitor.holderTxSigned ||
          c.monitor.fundingSpendSeen } := by
  obtain ⟨_, halternative, h⟩ := bind_eq_ok.mp h
  obtain ⟨_, hnoAlternative, h⟩ := bind_eq_ok.mp h
  obtain ⟨_, hconfirmed, h⟩ := bind_eq_ok.mp h
  obtain ⟨_, hnoSpend, h⟩ := bind_eq_ok.mp h
  obtain ⟨_, -, h⟩ := bind_eq_ok.mp h
  refine ⟨⟨Panic.unless_eq_ok.mp halternative, Panic.unless_eq_ok.mp hnoAlternative,
    Panic.unless_eq_ok.mp hconfirmed, Panic.unless_eq_ok.mp hnoSpend⟩, _, ?_,
    (Except.ok.inj h).symm⟩
  intro entry hentry
  split at hentry
  · exact mem_singleton.mp hentry
  · cases hentry

theorem confirms_of_confirmAlternativeFunding {funding : FundingScope}
    (h : confirmAlternativeFunding c funding tx height blockHash = .ok c') :
    Confirms tx.txid c c' := by
  obtain ⟨-, events, hevents, rfl⟩ := confirmAlternativeFunding_spec h
  refine .of_records ⟨rfl, fun entry hentry => ?_, .inr ⟨height, rfl⟩, fun _ _ => rfl⟩ rfl rfl
  rcases mem_append.mp hentry with hentry | hentry
  · exact .inl hentry
  · exact .inr (by rw [hevents entry hentry])

theorem confirms_of_confirmCommitment {csv : Option ℕ}
    (h : confirmCommitment crypto c tx input height blockHash = .ok (c', csv)) :
    Confirms tx.txid c c' := by
  obtain ⟨result, hresult, h⟩ := bind_eq_ok.mp h
  split at h
  · cases h
    obtain ⟨hrecords, hclaims, houtputs⟩ := records_checkSpendHolderTransaction hresult
    refine ⟨hrecords, ⟨_, rfl, hclaims⟩, ⟨_, rfl, fun output houtput => ?_⟩⟩
    split at houtput
    · cases houtput
    · exact mem_singleton.mp houtput ▸ houtputs
  · obtain ⟨⟨monitor, claims⟩, hcounterparty, h⟩ := bind_eq_ok.mp h
    cases h
    obtain ⟨hrecords, hclaims⟩ := records_checkSpendCounterpartyTransaction hcounterparty
    refine ⟨hrecords, ⟨_, rfl, hclaims⟩, ⟨_, rfl, fun output houtput => ?_⟩⟩
    rw [mem_singleton.mp houtput]

theorem confirms_of_confirmClose {csv : Option ℕ}
    (h : confirmClose crypto c tx input height blockHash = .ok (c', csv)) :
    Confirms tx.txid c c' := by
  unfold confirmClose at h
  split at h
  · exact confirms_of_confirmCommitment h
  · cases h
    exact .refl _

theorem confirms_recordFundingSpend {csv : Option ℕ} :
    Confirms tx.txid c (recordFundingSpend c tx height blockHash csv) :=
  .of_records (Resolves.of_events rfl (Subset.refl _) (by simp)).records rfl rfl

theorem confirms_of_confirmFundingSpend
    (h : confirmFundingSpend crypto c tx input height blockHash = .ok c') :
    Confirms tx.txid c c' := by
  unfold confirmFundingSpend at h
  simp only at h
  split at h
  · exact Except.ok.inj h ▸ .refl c
  · obtain ⟨_, -, h⟩ := bind_eq_ok.mp h
    obtain ⟨⟨c1, csv⟩, hc1, h⟩ := bind_eq_ok.mp h
    cases h
    have hseen : Confirms tx.txid c { c with monitor := c.monitor.seeFundingSpend } :=
      .of_records (.of_rest rfl rfl rfl rfl) rfl rfl
    exact (hseen.trans (confirms_of_confirmClose hc1)).trans confirms_recordFundingSpend

theorem confirms_of_confirmHtlcSpend (h : confirmHtlcSpend crypto c tx height = .ok c') :
    Confirms tx.txid c c' ∧ c'.monitor = c.monitor := by
  unfold confirmHtlcSpend at h
  simp only at h
  split at h
  · exact Except.ok.inj h ▸ ⟨.refl c, rfl⟩
  · obtain ⟨⟨claims, outputs⟩, hclaims, h⟩ := bind_eq_ok.mp h
    cases h
    obtain ⟨hclaims, houtputs⟩ := claimsOf_checkSpendCounterpartyHtlc hclaims
    refine ⟨⟨.refl _, ⟨claims, rfl, hclaims⟩, ⟨outputs.toList, rfl, fun output houtput => ?_⟩⟩, rfl⟩
    exact houtputs output (mem_toList.mp houtput)

/-- The claims of a transaction that is not a funding, and what it does not change. -/
theorem confirmSpend_spec (h : confirmSpend crypto c tx height blockHash = .ok c') :
    ∃ c1, confirmHtlcSpend crypto c tx height = .ok c1 ∧
      c'.claimableOutpoints = c1.claimableOutpoints ∧ c'.watchOutputs = c1.watchOutputs ∧
      c'.monitor.counterpartyCommitmentTxnOnChain = c.monitor.counterpartyCommitmentTxnOnChain ∧
      c'.monitor.alternativeFundingConfirmed = c.monitor.alternativeFundingConfirmed := by
  obtain ⟨c1, hc1, h⟩ := bind_eq_ok.mp h
  obtain ⟨monitor, hmonitor, h⟩ := bind_eq_ok.mp h
  cases h
  have hresolves := resolves_isResolvingHtlcOutput hmonitor
  rw [(confirms_of_confirmHtlcSpend hc1).2] at hresolves
  exact ⟨c1, hc1, rfl, rfl, hresolves.onChain, hresolves.alternative⟩

theorem confirms_of_confirmSpend (h : confirmSpend crypto c tx height blockHash = .ok c') :
    Confirms tx.txid c c' := by
  obtain ⟨c1, hc1, h⟩ := bind_eq_ok.mp h
  obtain ⟨monitor, hmonitor, h⟩ := bind_eq_ok.mp h
  cases h
  refine (confirms_of_confirmHtlcSpend hc1).1.trans (.of_records ?_ rfl rfl)
  exact ((resolves_isResolvingHtlcOutput hmonitor).trans
    resolves_checkTxAndPushSpendableOutputs).records

/-- **What a transaction is taken for:** one that was processed before, another funding of the
channel, or one that may spend outputs of the channel. -/
theorem confirmTransaction_cases (h : confirmTransaction crypto height blockHash c tx = .ok c') :
    c.monitor.alreadyConfirmed tx.txid blockHash = .ok true ∧ c' = c ∨
    c.monitor.alreadyConfirmed tx.txid blockHash = .ok false ∧
      ((∃ funding ∈ c.monitor.pendingFunding, funding.fundingTxid = tx.txid ∧
        confirmAlternativeFunding c funding tx height blockHash = .ok c') ∨
      (∀ funding ∈ c.monitor.pendingFunding, funding.fundingTxid ≠ tx.txid) ∧
        ∃ c1, ((∃ input, tx.input = [input] ∧
            confirmFundingSpend crypto c tx input height blockHash = .ok c1) ∨
          (∀ input, tx.input ≠ [input]) ∧ c1 = c) ∧
        (tx.input = [] ∧ c' = c1 ∨
          tx.input ≠ [] ∧ confirmSpend crypto c1 tx height blockHash = .ok c')) := by
  obtain ⟨already, halready, h⟩ := bind_eq_ok.mp h
  split at h
  next htrue =>
    subst htrue
    exact .inl ⟨halready, (Except.ok.inj h).symm⟩
  next hfalse =>
    obtain rfl : already = false := Bool.eq_false_iff.mpr hfalse
    refine .inr ⟨halready, ?_⟩
    split at h
    next funding hfind =>
      have htxid := find?_some hfind
      exact .inl ⟨funding, mem_of_find?_eq_some hfind, of_decide_eq_true htxid, h⟩
    next hfind =>
      refine .inr ⟨fun funding hmem => of_decide_eq_false ?_, ?_⟩
      · exact Bool.eq_false_iff.mpr (find?_eq_none.mp hfind funding hmem)
      obtain ⟨c1, hc1, h⟩ := bind_eq_ok.mp h
      refine ⟨c1, ?_, ?_⟩
      · unfold confirmSingleInput at hc1
        split at hc1
        next input hinput =>
          exact .inl ⟨input, hinput, hc1⟩
        next hinput =>
          exact .inr ⟨hinput, (Except.ok.inj hc1).symm⟩
      · split at h
        next hempty =>
          exact .inl ⟨List.isEmpty_iff.mp hempty, (Except.ok.inj h).symm⟩
        next hempty =>
          exact .inr ⟨fun hnil => hempty (List.isEmpty_iff.mpr hnil), h⟩

theorem confirms_of_confirmTransaction
    (h : confirmTransaction crypto height blockHash c tx = .ok c') : Confirms tx.txid c c' := by
  rcases confirmTransaction_cases h with ⟨-, rfl⟩ | ⟨-, ⟨funding, -, -, h⟩ | ⟨-, c1, hc1, h⟩⟩
  · exact .refl _
  · exact confirms_of_confirmAlternativeFunding h
  · have hc1 : Confirms tx.txid c c1 := by
      rcases hc1 with ⟨input, -, hc1⟩ | ⟨-, rfl⟩
      · exact confirms_of_confirmFundingSpend hc1
      · exact .refl _
    rcases h with ⟨-, rfl⟩ | ⟨-, h⟩
    · exact hc1
    · exact hc1.trans (confirms_of_confirmSpend h)

end PqLightning.Monitor
