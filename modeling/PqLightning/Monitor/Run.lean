import PqLightning.Monitor.BlockEnd

/-!
# Runs of a monitor over connected blocks

The blocks that are given to a monitor, cut into what its code does one after the other: it comes to
a block and picks the transactions that concern it, processes them in order, and ends the block. A
run carries a log of which monitor saw which transaction. Every successful call of
`transactions_confirmed` on a list of blocks is such a run.

The requests to claim an output come from the transaction it belongs to, and from nothing else
unless it is an output of a funding or of a commitment of the holder.
-/

namespace PqLightning.Monitor

open AssocMap Chain ChannelMonitorImpl List

variable {crypto : Crypto} {monitor monitor' : ChannelMonitorImpl} {c c' : Confirmation}
  {tx : Transaction} {height : ℕ} {blockHash : BlockHash}

/-! ### Runs -/

def connectBlocks (crypto : Crypto) (monitor : ChannelMonitorImpl) (blocks : List Block) :
    Except Panic ChannelMonitorImpl :=
  blocks.foldlM (transactionsConfirmed crypto) monitor

/-- Where a monitor is: between blocks, or within one, with transactions left to process. -/
inductive Phase where
  | between (monitor : ChannelMonitorImpl) (blocks : List Block)
  | within (height : ℕ) (blockHash : BlockHash) (confirmation : Confirmation)
    (rest : List Transaction) (blocks : List Block)

structure Sight where
  monitor : ChannelMonitorImpl
  height : ℕ
  tx : Transaction

/-- A run over the blocks that are left, with what it sees and the monitor it ends with. -/
inductive Run (crypto : Crypto) : Phase → List Sight → ChannelMonitorImpl → Prop
  | done (monitor : ChannelMonitorImpl) : Run crypto (.between monitor []) [] monitor
  | start {monitor final : ChannelMonitorImpl} {block : Block} {blocks : List Block}
    {log : List Sight}
    (rest : Run crypto (.within block.height block.blockHash
      (monitor.startConfirmation block.txdata) (monitor.filterBlock block.txdata) blocks)
        log final) :
    Run crypto (.between monitor (block :: blocks)) log final
  | confirm {final : ChannelMonitorImpl} {height : ℕ} {blockHash : BlockHash} {c c' : Confirmation}
    {tx : Transaction} {txs : List Transaction} {blocks : List Block} {log : List Sight}
    (step : confirmTransaction crypto height blockHash c tx = .ok c')
    (rest : Run crypto (.within height blockHash c' txs blocks) log final) :
    Run crypto (.within height blockHash c (tx :: txs) blocks)
      (⟨c.monitor, height, tx⟩ :: log) final
  | finish {monitor final : ChannelMonitorImpl} {height : ℕ} {blockHash : BlockHash}
    {c : Confirmation} {blocks : List Block} {log : List Sight}
    (step : finishConfirmation c blockHash height = .ok monitor)
    (rest : Run crypto (.between monitor blocks) log final) :
    Run crypto (.within height blockHash c [] blocks) log final

variable {final : ChannelMonitorImpl}

variable {log : List Sight}

theorem exists_run_of_foldlM {txs : List Transaction} {blocks : List Block}
    (hfold : txs.foldlM (confirmTransaction crypto height blockHash) c = .ok c')
    (hrest : Run crypto (.within height blockHash c' [] blocks) log final) :
    ∃ log', Run crypto (.within height blockHash c txs blocks) log' final := by
  induction txs generalizing c with
  | nil => exact ⟨log, Except.ok.inj hfold ▸ hrest⟩
  | cons tx txs ih =>
    rw [foldlM_cons] at hfold
    obtain ⟨c1, hc1, hfold⟩ := bind_eq_ok.mp hfold
    obtain ⟨log', hlog'⟩ := ih hfold
    exact ⟨_, .confirm hc1 hlog'⟩

/-- **Connected blocks are a run.** -/
theorem exists_run_of_connectBlocks {blocks : List Block}
    (h : connectBlocks crypto monitor blocks = .ok monitor') :
    ∃ log, Run crypto (.between monitor blocks) log monitor' := by
  unfold connectBlocks at h
  induction blocks generalizing monitor with
  | nil => exact ⟨[], Except.ok.inj h ▸ .done _⟩
  | cons block blocks ih =>
    rw [foldlM_cons] at h
    obtain ⟨next, hnext, h⟩ := bind_eq_ok.mp h
    obtain ⟨_, -, hnext⟩ := bind_eq_ok.mp hnext
    obtain ⟨c, hc, hnext⟩ := bind_eq_ok.mp hnext
    obtain ⟨log, hlog⟩ := ih h
    obtain ⟨log', hlog'⟩ := exists_run_of_foldlM hc (.finish hnext hlog)
    exact ⟨log', .start hlog'⟩

/-! ### What a run sees -/

def Phase.upcoming : Phase → List Transaction
  | between _ blocks => blocks.flatMap Block.txdata
  | within _ _ _ rest blocks => rest ++ blocks.flatMap Block.txdata

/-- The transactions that are picked after others are picked in order, and those that spend a
watched output or one that was picked are among them. -/
theorem foldl_filterStep (monitor : ChannelMonitorImpl) (txdata matchedTxn : List Transaction) :
    ∃ picked, txdata.foldl monitor.filterStep matchedTxn = matchedTxn ++ picked ∧
      picked.Sublist txdata ∧
      ∀ tx ∈ txdata, (monitor.spendsWatchedOutput tx ∨ ∃ input ∈ tx.input, ∃ other ∈ matchedTxn,
        other.txid = input.previousOutput.txid) → tx ∈ picked := by
  induction txdata generalizing matchedTxn with
  | nil => exact ⟨[], (append_nil _).symm, .slnil, nofun⟩
  | cons first txdata ih =>
    rw [foldl_cons, ChannelMonitorImpl.filterStep]
    split
    · obtain ⟨picked, hfold, hsub, hpicked⟩ := ih (matchedTxn ++ [first])
      refine ⟨first :: picked, by rw [hfold, append_assoc]; rfl, hsub.cons_cons first, ?_⟩
      intro tx htx hspends
      rcases mem_cons.mp htx with rfl | htx
      · exact mem_cons_self
      · refine mem_cons_of_mem _ (hpicked tx htx (hspends.imp id ?_))
        exact fun ⟨input, hinput, other, hother, htxid⟩ =>
          ⟨input, hinput, other, mem_append_left _ hother, htxid⟩
    next hnot =>
      obtain ⟨picked, hfold, hsub, hpicked⟩ := ih matchedTxn
      refine ⟨picked, hfold, hsub.cons first, fun tx htx hspends => ?_⟩
      rcases mem_cons.mp htx with rfl | htx
      · refine absurd ?_ hnot
        rw [Bool.or_eq_true, any_eq_true]
        refine hspends.imp id fun ⟨input, hinput, other, hother, htxid⟩ => ⟨input, hinput, ?_⟩
        exact any_eq_true.mpr ⟨other, hother, decide_eq_true htxid⟩
      · exact hpicked tx htx hspends

/-- A run sees transactions in the order in which they are given to it. -/
theorem Run.sublist_upcoming {phase : Phase}
    (h : Run crypto phase log final) : (log.map Sight.tx).Sublist phase.upcoming := by
  induction h with
  | done => exact .slnil
  | @start monitor final block blocks log rest ih =>
    obtain ⟨picked, hfold, hsub, -⟩ := foldl_filterStep monitor block.txdata []
    refine ih.trans ?_
    show (monitor.filterBlock block.txdata ++ blocks.flatMap Block.txdata).Sublist _
    rw [ChannelMonitorImpl.filterBlock, hfold]
    exact hsub.append_right _
  | confirm step rest ih => exact ih.cons_cons _
  | finish step rest ih => exact ih

/-! ### Requests -/

def requestsFor (outpoint : OutPoint) (requests : List PackageTemplate) : List PackageTemplate :=
  requests.filter fun request => outpoint ∈ request.outpoints

@[simp] theorem requestsFor_append (outpoint : OutPoint)
    (requests requests' : List PackageTemplate) :
    requestsFor outpoint (requests ++ requests') =
      requestsFor outpoint requests ++ requestsFor outpoint requests' := filter_append ..

variable {outpoint : OutPoint}

theorem requestsFor_eq_nil {requests : List PackageTemplate}
    (h : ∀ request ∈ requests, outpoint ∉ request.outpoints) : requestsFor outpoint requests = [] :=
  filter_eq_nil_iff.mpr fun request hrequest hmem => h request hrequest (of_decide_eq_true hmem)

theorem ClaimsOf.requestsFor_eq_nil {txid : Txid} {claims : List PackageTemplate}
    (h : ClaimsOf txid claims) (hne : outpoint.txid ≠ txid) : requestsFor outpoint claims = [] :=
  Monitor.requestsFor_eq_nil fun claim hclaim hmem => hne (h claim hclaim outpoint hmem)

/-- The transaction is none of the channel's fundings or of the holder's current commitments. -/
def Foreign (monitor : ChannelMonitorImpl) (txid : Txid) : Prop :=
  ∀ funding ∈ monitor.fundings,
    funding.fundingTxid ≠ txid ∧ funding.currentHolderCommitmentTx.txid ≠ txid

theorem Foreign.mono {txid : Txid} (h : Foreign monitor txid)
    (hfundings : ∀ funding ∈ monitor'.fundings, funding ∈ monitor.fundings) :
    Foreign monitor' txid := fun funding hfunding => h funding (hfundings funding hfunding)

theorem Foreign.requestsFor_eq_nil (h : Foreign monitor outpoint.txid)
    {claims : List PackageTemplate} (hclaims : HolderClaims monitor claims) :
    requestsFor outpoint claims = [] := by
  refine Monitor.requestsFor_eq_nil fun claim hclaim hmem => ?_
  obtain ⟨funding, hfunding, htxid | htxid⟩ := hclaims claim hclaim outpoint hmem
  · exact (h funding hfunding).1 htxid.symm
  · exact (h funding hfunding).2 htxid.symm

namespace Phase

def current : Phase → ChannelMonitorImpl
  | between monitor _ => monitor
  | within _ _ c _ _ => c.monitor

def requests : Phase → List PackageTemplate
  | between monitor _ => monitor.claimRequests
  | within _ _ c _ _ => c.monitor.claimRequests ++ c.claimableOutpoints

end Phase

/-- **Step: the requests for an output** of the transaction come from it. -/
theorem requestsFor_confirm (hconfirms : Confirms tx.txid c c') (hne : outpoint.txid ≠ tx.txid) :
    requestsFor outpoint (c'.monitor.claimRequests ++ c'.claimableOutpoints) =
      requestsFor outpoint (c.monitor.claimRequests ++ c.claimableOutpoints) := by
  obtain ⟨claims, hclaims, hof⟩ := hconfirms.claims
  rw [hconfirms.records.same.claimRequests, hclaims, ← append_assoc, requestsFor_append,
    hof.requestsFor_eq_nil hne, append_nil]

/-- **Step: the end of a block** makes no request for an output of a foreign transaction. -/
theorem requestsFor_finish (h : finishConfirmation c blockHash height = .ok monitor')
    (hforeign : Foreign c.monitor outpoint.txid) :
    requestsFor outpoint monitor'.claimRequests =
      requestsFor outpoint (c.monitor.claimRequests ++ c.claimableOutpoints) ∧
    ∀ funding ∈ monitor'.fundings, funding ∈ c.monitor.fundings := by
  obtain ⟨ended, claims, outputs, hends, hclaims, -, rfl⟩ := finishConfirmation_spec h
  have hrequests : ended.claimRequests = c.monitor.claimRequests := by rw [hends.rest]
  refine ⟨?_, hends.fundings⟩
  show requestsFor outpoint (ended.claimRequests ++ (c.claimableOutpoints ++ claims)) = _
  rw [hrequests, ← append_assoc, requestsFor_append, hforeign.requestsFor_eq_nil hclaims,
    append_nil]

theorem Run.requestsFor_eq {phase : Phase} (h : Run crypto phase log final)
    (hforeign : Foreign phase.current outpoint.txid)
    (hlog : ∀ sight ∈ log, sight.tx.txid ≠ outpoint.txid) :
    requestsFor outpoint final.claimRequests = requestsFor outpoint phase.requests := by
  induction h with
  | done monitor => rfl
  | start rest ih =>
    rw [ih hforeign hlog]
    exact congrArg (requestsFor outpoint) (append_nil _)
  | confirm step rest ih =>
    have hconfirms := confirms_of_confirmTransaction step
    rw [ih (hforeign.mono fun funding hfunding => hconfirms.records.same.fundings ▸ hfunding)
      fun sight hsight => hlog sight (mem_cons_of_mem _ hsight)]
    exact requestsFor_confirm hconfirms (hlog _ mem_cons_self).symm
  | finish step rest ih =>
    obtain ⟨hrequests, hfundings⟩ := requestsFor_finish step hforeign
    rw [ih (hforeign.mono hfundings) hlog]
    exact hrequests

/-- **The requests for an output** whose transaction the run sees once are those this transaction
makes. -/
theorem Run.requestsFor_sight {phase : Phase}
    (h : Run crypto phase log final) {sight : Sight} (hsight : sight ∈ log)
    (hnodup : (log.map fun sight => sight.tx.txid).Nodup)
    (htxid : outpoint.txid = sight.tx.txid) (hforeign : Foreign phase.current outpoint.txid) :
    ∃ c c' blockHash claims, c.monitor = sight.monitor ∧
      confirmTransaction crypto sight.height blockHash c sight.tx = .ok c' ∧
      c'.claimableOutpoints = c.claimableOutpoints ++ claims ∧
      requestsFor outpoint final.claimRequests =
        requestsFor outpoint phase.requests ++ requestsFor outpoint claims := by
  induction h with
  | done monitor => cases hsight
  | start rest ih =>
    obtain ⟨c, c', blockHash, claims, hc, hstep, hclaims, hfinal⟩ := ih hsight hnodup hforeign
    refine ⟨c, c', blockHash, claims, hc, hstep, hclaims, hfinal.trans ?_⟩
    exact congrArg (requestsFor outpoint · ++ _) (append_nil _)
  | @confirm final height blockHash c c' tx txs blocks log step rest ih =>
    have hconfirms := confirms_of_confirmTransaction step
    have hforeign' : Foreign c'.monitor outpoint.txid :=
      hforeign.mono fun funding hfunding => hconfirms.records.same.fundings ▸ hfunding
    rw [map_cons, nodup_cons] at hnodup
    rcases mem_cons.mp hsight with rfl | hsight
    · -- the transaction itself; the rest of the run does not see it again
      obtain ⟨claims, hclaims, -⟩ := hconfirms.claims
      refine ⟨c, c', blockHash, claims, rfl, step, hclaims, ?_⟩
      rw [rest.requestsFor_eq hforeign' fun sight hsight heq => hnodup.1
        (mem_map.mpr ⟨sight, hsight, heq.trans htxid⟩)]
      show requestsFor outpoint (c'.monitor.claimRequests ++ c'.claimableOutpoints) =
        requestsFor outpoint (c.monitor.claimRequests ++ c.claimableOutpoints) ++ _
      rw [hconfirms.records.same.claimRequests, hclaims, ← append_assoc, requestsFor_append]
    · obtain ⟨d, d', blockHash', claims, hd, hstep, hclaims, hfinal⟩ := ih hsight hnodup.2 hforeign'
      refine ⟨d, d', blockHash', claims, hd, hstep, hclaims, hfinal.trans ?_⟩
      refine congrArg (· ++ _) (requestsFor_confirm hconfirms fun heq => hnodup.1 ?_)
      exact mem_map.mpr ⟨sight, hsight, htxid.symm.trans heq⟩
  | finish step rest ih =>
    obtain ⟨hrequests, hfundings⟩ := requestsFor_finish step hforeign
    obtain ⟨d, d', blockHash', claims, hd, hstep, hclaims, hfinal⟩ :=
      ih hsight hnodup (hforeign.mono hfundings)
    exact ⟨d, d', blockHash', claims, hd, hstep, hclaims,
      hfinal.trans (congrArg (· ++ _) hrequests)⟩

end PqLightning.Monitor
