import PqLightning.Monitor.Confirm

/-!
# What the end of a block does to a monitor

At the end of a block the monitor may broadcast the holder's commitment, the events that have
reached their threshold take effect, HTLCs are failed back before they expire, and the claims of the
block go to the claim handler. None of this makes a funding known that was not, or a transaction
confirmed that was not seen (`Ends`).
-/

namespace PqLightning.Monitor

open AssocMap Chain ChannelMonitorImpl List

variable {crypto : Crypto} {monitor monitor' : ChannelMonitorImpl} {c c' : Confirmation}
  {tx : Transaction} {height : ℕ} {blockHash : BlockHash}

/-! ### Transactions that a monitor knows -/

def Known (monitor : ChannelMonitorImpl) (txid : Txid) : Prop :=
  (monitor.alternativeFundingConfirmed.any fun confirmed => confirmed.1 = txid) ∨
    monitor.fundingSpendConfirmed = some txid ∨
    (∃ entry ∈ monitor.onchainEventsAwaitingThresholdConf, entry.txid = txid) ∨
    (∃ htlc ∈ monitor.htlcsResolvedOnChain, htlc.resolvingTxid = some txid) ∨
    txid ∈ monitor.spendableTxidsConfirmed

/-- A transaction that the monitor has not seen is processed. -/
theorem alreadyConfirmed_of_not_known {txid : Txid} (h : ¬ Known monitor txid)
    (blockHash : BlockHash) : monitor.alreadyConfirmed txid blockHash = .ok false := by
  simp only [Known, not_or] at h
  obtain ⟨halternative, hspend, hevents, hresolved, hspendable⟩ := h
  have hfind : monitor.onchainEventsAwaitingThresholdConf.find?
      (fun entry => entry.txid = txid) = none :=
    find?_eq_none.mpr fun entry hentry htxid => hevents ⟨entry, hentry, of_decide_eq_true htxid⟩
  have hany : (monitor.htlcsResolvedOnChain.any fun htlc => htlc.resolvingTxid = some txid) =
      false := by
    refine any_eq_false.mpr fun htlc hhtlc htxid => hresolved ⟨htlc, hhtlc, ?_⟩
    exact of_decide_eq_true htxid
  rw [alreadyConfirmed, if_neg (not_or.mpr ⟨halternative, hspend⟩), hfind]
  simp [hany, hspendable]

/-- A transaction makes no other known. -/
theorem Records.known {txid other : Txid} (h : Records txid monitor monitor')
    (hknown : Known monitor' other) (hne : other ≠ txid) : Known monitor other := by
  rcases hknown with hknown | hknown | ⟨entry, hentry, rfl⟩ | hknown | hknown
  · refine .inl ?_
    rcases h.alternative with halternative | ⟨height, halternative⟩
    · rwa [halternative] at hknown
    · rw [halternative] at hknown
      exact absurd (of_decide_eq_true hknown).symm hne
  · exact .inr (.inl ((congrArg ChannelMonitorImpl.fundingSpendConfirmed h.same).symm.trans hknown))
  · exact (h.events entry hentry).elim (fun hentry => .inr (.inr (.inl ⟨entry, hentry, rfl⟩)))
      fun htxid => absurd htxid hne
  · rw [congrArg ChannelMonitorImpl.htlcsResolvedOnChain h.same] at hknown
    exact .inr (.inr (.inr (.inl hknown)))
  · rw [congrArg ChannelMonitorImpl.spendableTxidsConfirmed h.same] at hknown
    exact .inr (.inr (.inr (.inr hknown)))

/-- A monitor that has recorded one more transaction knows that one and what it knew. -/
theorem Known.of_recorded {txid other : Txid} (h : Known monitor' other)
    (halternative : monitor'.alternativeFundingConfirmed = monitor.alternativeFundingConfirmed)
    (hevents : monitor'.onchainEventsAwaitingThresholdConf =
      monitor.onchainEventsAwaitingThresholdConf)
    (hspend : monitor'.fundingSpendConfirmed = monitor.fundingSpendConfirmed ∨
      monitor'.fundingSpendConfirmed = some txid)
    (hresolved : ∀ htlc ∈ monitor'.htlcsResolvedOnChain,
      htlc ∈ monitor.htlcsResolvedOnChain ∨ htlc.resolvingTxid = some txid)
    (hspendable : ∀ other ∈ monitor'.spendableTxidsConfirmed,
      other ∈ monitor.spendableTxidsConfirmed ∨ other = txid) :
    Known monitor other ∨ other = txid := by
  rcases h with h | h | h | ⟨htlc, hhtlc, htxid⟩ | h
  · exact .inl (.inl (halternative ▸ h))
  · rcases hspend with hspend | hspend
    · exact .inl (.inr (.inl (hspend ▸ h)))
    · exact .inr (Option.some.inj (h.symm.trans hspend))
  · exact .inl (.inr (.inr (.inl (hevents ▸ h))))
  · rcases hresolved htlc hhtlc with hhtlc | hhtlc
    · exact .inl (.inr (.inr (.inr (.inl ⟨htlc, hhtlc, htxid⟩))))
    · exact .inr (Option.some.inj (htxid.symm.trans hhtlc))
  · exact (hspendable other h).imp (fun h => .inr (.inr (.inr (.inr h)))) id

/-! ### The end of a block -/

/-- What the end of a block can change, its claims and outputs to watch apart, when it acts on
events of the transactions `seen`. -/
structure Ends (seen : Txid → Prop) (monitor monitor' : ChannelMonitorImpl) : Prop where
  rest : monitor' = { monitor with
    funding := monitor'.funding
    pendingFunding := monitor'.pendingFunding
    prevHolderHtlcData := monitor'.prevHolderHtlcData
    alternativeFundingConfirmed := monitor'.alternativeFundingConfirmed
    onchainEventsAwaitingThresholdConf := monitor'.onchainEventsAwaitingThresholdConf
    pendingMonitorEvents := monitor'.pendingMonitorEvents
    holderTxSigned := monitor'.holderTxSigned
    fundingSpendConfirmed := monitor'.fundingSpendConfirmed
    htlcsResolvedOnChain := monitor'.htlcsResolvedOnChain
    spendableTxidsConfirmed := monitor'.spendableTxidsConfirmed
    failedBackHtlcIds := monitor'.failedBackHtlcIds
    bestBlock := monitor'.bestBlock
    outputsToWatch := monitor'.outputsToWatch }
  fundings : ∀ funding ∈ monitor'.fundings, funding ∈ monitor.fundings
  known : ∀ txid, Known monitor' txid → Known monitor txid ∨ seen txid
  watched : ∀ txid, (∀ funding ∈ monitor.fundings, funding.fundingTxid ≠ txid) →
    monitor'.outputsToWatch.lookup txid = monitor.outputsToWatch.lookup txid

namespace Ends

variable {seen seen' : Txid → Prop}

theorem refl (monitor : ChannelMonitorImpl) : Ends seen monitor monitor :=
  ⟨rfl, fun _ => id, fun _ => .inl, fun _ _ => rfl⟩

theorem trans {monitor'' : ChannelMonitorImpl} (h : Ends seen monitor monitor')
    (h' : Ends seen monitor' monitor'') : Ends seen monitor monitor'' := by
  refine ⟨Eq.trans h'.rest (by rw [h.rest]), fun funding hfunding => ?_, fun txid hknown => ?_,
    fun txid hne => ?_⟩
  · exact h.fundings funding (h'.fundings funding hfunding)
  · exact (h'.known txid hknown).elim (h.known txid) .inr
  · exact (h'.watched txid fun funding hfunding => hne funding (h.fundings funding hfunding)).trans
      (h.watched txid hne)

theorem mono (h : Ends seen monitor monitor') (hseen : ∀ txid, seen txid → seen' txid) :
    Ends seen' monitor monitor' :=
  ⟨h.rest, h.fundings, fun txid hknown => (h.known txid hknown).imp id (hseen txid), h.watched⟩

/-- Only what has nothing to do with fundings or transactions changes. -/
theorem of_rest (hrest : monitor' = { monitor with
      pendingMonitorEvents := monitor'.pendingMonitorEvents
      holderTxSigned := monitor'.holderTxSigned
      failedBackHtlcIds := monitor'.failedBackHtlcIds
      bestBlock := monitor'.bestBlock }) : Ends seen monitor monitor' := by
  rw [hrest]
  exact ⟨rfl, fun _ => id, fun _ => .inl, fun _ _ => rfl⟩

end Ends

/-! ### Events that have reached their threshold -/

/-- Another funding takes the place of the current one. -/
theorem ends_of_promoteFunding {txid : Txid}
    (h : monitor.promoteFunding txid = .ok (some monitor')) : Ends (· = txid) monitor monitor' := by
  unfold promoteFunding at h
  split at h
  · cases Except.ok.inj h
  next newFunding hfind =>
    obtain ⟨_, -, h⟩ := bind_eq_ok.mp h
    cases h
    refine ⟨rfl, fun funding hfunding => ?_, fun other hknown => .inl ?_, fun other hne => ?_⟩
    · rw [mem_singleton.mp hfunding]
      exact mem_cons_of_mem _ (mem_of_find?_eq_some hfind)
    · exact hknown.elim nofun .inr
    · refine lookup_foldl_erase (fun funding hfunding => hne funding ?_) _
      rcases mem_cons.mp hfunding with rfl | hfunding
      · exact mem_cons_self
      · exact mem_cons_of_mem _ (mem_filter.mp hfunding).1

theorem mem_append_singleton {records : List IrrevocablyResolvedHTLC}
    {record new : IrrevocablyResolvedHTLC} {txid : Txid} (hnew : new.resolvingTxid = some txid)
    (h : record ∈ records ++ [new]) : record ∈ records ∨ record.resolvingTxid = some txid :=
  (mem_append.mp h).imp id fun h => by rw [mem_singleton.mp h, hnew]

theorem ends_of_matureEvent {unmatured matured matured' : List HTLCSource}
    {entry : OnchainEventEntry}
    (h : matureEvent unmatured (monitor, matured) entry = .ok (monitor', matured')) :
    Ends (· = entry.txid) monitor monitor' := by
  simp only [matureEvent] at h
  split at h
  · obtain ⟨_, -, h⟩ := bind_eq_ok.mp h
    obtain ⟨_, -, h⟩ := bind_eq_ok.mp h
    cases h
    refine ⟨rfl, fun _ => id, fun other hknown => ?_, fun _ _ => rfl⟩
    exact hknown.of_recorded rfl rfl (.inl rfl) (fun htlc => mem_append_singleton rfl) fun _ => .inl
  · cases h
    refine ⟨rfl, fun _ => id, fun other hknown => ?_, fun _ _ => rfl⟩
    exact hknown.of_recorded rfl rfl (.inl rfl) (fun _ => .inl) fun txid => by simp
  · cases h
    refine ⟨rfl, fun _ => id, fun other hknown => ?_, fun _ _ => rfl⟩
    exact hknown.of_recorded rfl rfl (.inl rfl) (fun htlc => mem_append_singleton rfl) fun _ => .inl
  · split at h
    · cases h
      refine ⟨rfl, fun funding hfunding => ?_, fun other hknown => ?_, fun other hne => ?_⟩
      · rw [mem_singleton.mp hfunding]
        exact mem_cons_self
      · exact hknown.of_recorded rfl rfl (.inr rfl) (fun _ => .inl) fun _ => .inl
      · exact lookup_foldl_erase (fun funding hfunding => hne funding
          (mem_cons_of_mem _ hfunding)) _
    · cases h
      refine ⟨rfl, fun _ => id, fun other hknown => ?_, fun _ _ => rfl⟩
      exact hknown.of_recorded rfl rfl (.inr rfl) (fun _ => .inl) fun _ => .inl
  · obtain ⟨_, -, h⟩ := bind_eq_ok.mp h
    obtain ⟨_, -, h⟩ := bind_eq_ok.mp h
    obtain ⟨promoted, hpromoted, h⟩ := bind_eq_ok.mp h
    split at h
    · cases h
      exact ends_of_promoteFunding hpromoted
    · cases h

theorem ends_of_foldlM_matureEvent {unmatured : List HTLCSource} (seen : Txid → Prop)
    {entries : List OnchainEventEntry} (hseen : ∀ entry ∈ entries, seen entry.txid)
    {state state' : ChannelMonitorImpl × List HTLCSource}
    (h : entries.foldlM (matureEvent unmatured) state = .ok state') :
    Ends seen state.1 state'.1 := by
  refine foldlM_invariant (fun next => Ends seen state.1 next.1)
    (fun next entry hentry next' hnext hstep => hnext.trans ?_) (.refl _) h
  exact (ends_of_matureEvent hstep).mono fun txid htxid => htxid ▸ hseen entry hentry

theorem ends_of_matureEvents (h : monitor.matureEvents = .ok monitor') :
    Ends (fun _ => False) monitor monitor' := by
  obtain ⟨⟨final, matured⟩, hfinal, h⟩ := bind_eq_ok.mp h
  cases h
  have hends := ends_of_foldlM_matureEvent (Known monitor) (fun entry hentry =>
    .inr (.inr (.inl ⟨entry, (mem_filter.mp hentry).1, rfl⟩))) hfinal
  refine ⟨Eq.trans hends.rest rfl, hends.fundings, fun txid hknown => .inl ?_, hends.watched⟩
  refine (hends.known txid hknown).elim (fun hknown => ?_) id
  rcases hknown with hknown | hknown | ⟨entry, hentry, rfl⟩ | hknown
  · exact .inl hknown
  · exact .inr (.inl hknown)
  · exact .inr (.inr (.inl ⟨entry, (mem_filter.mp hentry).1, rfl⟩))
  · exact .inr (.inr (.inr hknown))

/-! ### HTLCs that expire, and the holder's commitment -/

theorem ends_failBackHtlc (monitor : ChannelMonitorImpl)
    (htlc : HTLCOutputInCommitment × Option HTLCSource) :
    Ends (fun _ => False) monitor (monitor.failBackHtlc htlc) := by
  refine .of_rest ?_
  unfold failBackHtlc
  repeat' split
  all_goals rfl

theorem ends_of_failBackHtlcs (h : monitor.failBackHtlcs = .ok monitor') :
    Ends (fun _ => False) monitor monitor' := by
  unfold failBackHtlcs at h
  split at h
  · obtain ⟨holderHtlcs, -, h⟩ := bind_eq_ok.mp h
    cases h
    refine List.foldlRecOn (motive := fun monitor' => Ends _ monitor monitor') _ _ (.refl _) ?_
    exact fun next hnext htlc _ => hnext.trans (ends_failBackHtlc next htlc)
  · exact Except.ok.inj h ▸ .refl _

def HolderClaims (monitor : ChannelMonitorImpl) (claims : List PackageTemplate) : Prop :=
  ∀ claim ∈ claims, ∀ outpoint ∈ claim.outpoints, ∃ funding ∈ monitor.fundings,
    outpoint.txid = funding.fundingTxid ∨ outpoint.txid = funding.currentHolderCommitmentTx.txid

def HolderOutputs (monitor : ChannelMonitorImpl) (outputs : List TransactionOutputs) : Prop :=
  ∀ output ∈ outputs, ∃ funding ∈ monitor.fundings,
    output.1 = funding.currentHolderCommitmentTx.txid

/-- The confirmed funding is one of the fundings. -/
theorem mem_fundings_of_getConfirmedFundingScope {funding : FundingScope}
    (h : monitor.getConfirmedFundingScope = .ok funding) : funding ∈ monitor.fundings := by
  unfold getConfirmedFundingScope at h
  split at h
  · exact Except.ok.inj h ▸ mem_cons_self
  · split at h
    next hfind =>
      exact Except.ok.inj h ▸ mem_cons_of_mem _ (mem_of_find?_eq_some hfind)
    · cases h

theorem generateClaimableOutpoints_spec {event require : Bool} {claims : List PackageTemplate}
    {outputs : List TransactionOutputs}
    (h : monitor.generateClaimableOutpointsAndWatchOutputs event require =
      .ok (monitor', claims, outputs)) :
    (∃ events, monitor' = { monitor with
      pendingMonitorEvents := events
      holderTxSigned := true }) ∧ HolderClaims monitor claims ∧ HolderOutputs monitor outputs := by
  obtain ⟨funding, hfunding, h⟩ := bind_eq_ok.mp h
  have hmem := mem_fundings_of_getConfirmedFundingScope hfunding
  have hpackage : ∀ data spendableHeight, HolderClaims monitor
      [.buildPackage funding.fundingOutpoint.txid funding.fundingOutpoint.vout data
        spendableHeight] := by
    intro data spendableHeight claim hclaim outpoint houtpoint
    obtain rfl := mem_singleton.mp hclaim
    exact ⟨funding, hmem, .inl (by rw [mem_singleton.mp houtpoint]; rfl)⟩
  simp only at h
  split at h
  · cases h
    exact ⟨⟨_, rfl⟩, nofun, nofun⟩
  · split at h
    · cases h
      exact ⟨⟨_, rfl⟩, hpackage _ _, nofun⟩
    · obtain ⟨holderClaims, hclaims, h⟩ := bind_eq_ok.mp h
      obtain ⟨holderOutputs, -, h⟩ := bind_eq_ok.mp h
      cases h
      refine ⟨⟨_, rfl⟩, fun claim hclaim outpoint houtpoint => ?_, fun output houtput => ?_⟩
      · rcases mem_cons.mp hclaim with rfl | hclaim
        · exact hpackage _ _ _ mem_cons_self outpoint houtpoint
        · exact ⟨funding, hmem,
            .inr (claimsOf_getBroadcastedHolderClaims hclaims claim hclaim outpoint houtpoint)⟩
      · split at houtput
        · cases houtput
        · exact ⟨funding, hmem, by rw [mem_singleton.mp houtput]⟩

/-! ### The whole end -/

/-- A broadcast adds claims and outputs of a holder's commitment. -/
theorem broadcastIfDue_spec {due : ChannelMonitorImpl} {watch watch' : List TransactionOutputs}
    {requests requests' : List PackageTemplate}
    (h : monitor.broadcastIfDue watch requests = .ok (due, watch', requests')) :
    (∃ events signed, due = { monitor with
      pendingMonitorEvents := events
      holderTxSigned := signed }) ∧
    ∃ claims outputs, requests' = requests ++ claims ∧ watch' = watch ++ outputs ∧
      HolderClaims monitor claims ∧ HolderOutputs monitor outputs := by
  unfold broadcastIfDue at h
  split at h
  next hempty =>
    obtain rfl := List.isEmpty_iff.mp hempty
    obtain ⟨should, -, h⟩ := bind_eq_ok.mp h
    split at h
    · obtain ⟨⟨signed, claims, outputs⟩, hgenerate, h⟩ := bind_eq_ok.mp h
      obtain ⟨⟨events, rfl⟩, hclaims, houtputs⟩ := generateClaimableOutpoints_spec hgenerate
      simp only at h
      split at h
      · cases h
        exact ⟨⟨_, _, rfl⟩, _, _, rfl, rfl, hclaims, houtputs⟩
      · cases h
        exact ⟨⟨_, _, rfl⟩, [], [], rfl, (append_nil _).symm, nofun, nofun⟩
    · cases h
      exact ⟨⟨_, _, rfl⟩, [], [], rfl, (append_nil _).symm, nofun, nofun⟩
  · cases h
    exact ⟨⟨_, _, rfl⟩, [], [], (append_nil _).symm, (append_nil _).symm, nofun, nofun⟩

/-- The requests and the outputs to watch at the end of a block are those of its transactions and
those of a holder's commitment. -/
def Finishes (monitor : ChannelMonitorImpl) (watch : List TransactionOutputs)
    (requests : List PackageTemplate) (monitor' : ChannelMonitorImpl) : Prop :=
  ∃ ended claims outputs, Ends (fun _ => False) monitor ended ∧ HolderClaims monitor claims ∧
    HolderOutputs monitor outputs ∧
    monitor' = ended.requestClaims (watch ++ outputs) (requests ++ claims)

theorem blockConfirmed_spec {watch : List TransactionOutputs} {requests : List PackageTemplate}
    (h : monitor.blockConfirmed height watch requests = .ok monitor') :
    Finishes monitor watch requests monitor' := by
  obtain ⟨_, -, h⟩ := bind_eq_ok.mp h
  obtain ⟨⟨due, watch', requests'⟩, hdue, h⟩ := bind_eq_ok.mp h
  obtain ⟨matured, hmatured, h⟩ := bind_eq_ok.mp h
  obtain ⟨failed, hfailed, h⟩ := bind_eq_ok.mp h
  cases h
  obtain ⟨⟨events, signed, rfl⟩, claims, outputs, rfl, rfl, hclaims, houtputs⟩ :=
    broadcastIfDue_spec hdue
  have hends := (ends_of_matureEvents hmatured).trans (ends_of_failBackHtlcs hfailed)
  exact ⟨failed, claims, outputs, (Ends.of_rest rfl).trans hends, hclaims, houtputs, rfl⟩

theorem finishConfirmation_spec (h : finishConfirmation c blockHash height = .ok monitor') :
    Finishes c.monitor c.watchOutputs c.claimableOutpoints monitor' := by
  obtain ⟨bestBlock, htip⟩ : ∃ bestBlock, c.monitor.updateForNewTip blockHash height =
      { c.monitor with bestBlock := bestBlock } := by
    unfold updateForNewTip
    split
    · exact ⟨_, rfl⟩
    · exact ⟨_, rfl⟩
  have htipEnds : Ends (fun _ => False) c.monitor { c.monitor with bestBlock := bestBlock } :=
    .of_rest rfl
  unfold finishConfirmation at h
  simp only [htip] at h
  split at h
  · obtain ⟨⟨signed, claims, outputs⟩, hgenerate, h⟩ := bind_eq_ok.mp h
    obtain ⟨⟨events, rfl⟩, hclaims, houtputs⟩ := generateClaimableOutpoints_spec hgenerate
    obtain ⟨ended, claims', outputs', hends, hclaims', houtputs', rfl⟩ := blockConfirmed_spec h
    refine ⟨ended, claims ++ claims', outputs ++ outputs', (Ends.of_rest rfl).trans hends,
      ?_, ?_, ?_⟩
    · exact fun claim hclaim => (mem_append.mp hclaim).elim (hclaims claim) (hclaims' claim)
    · exact fun output houtput => (mem_append.mp houtput).elim (houtputs output) (houtputs' output)
    · rw [append_assoc, append_assoc]
  · obtain ⟨ended, claims, outputs, hends, hclaims, houtputs, rfl⟩ := blockConfirmed_spec h
    exact ⟨ended, claims, outputs, htipEnds.trans hends, hclaims, houtputs, rfl⟩

end PqLightning.Monitor
