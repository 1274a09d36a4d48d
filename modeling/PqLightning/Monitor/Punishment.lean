import Mathlib.Data.List.TakeWhile
import PqLightning.Monitor.Run

/-!
# A revoked commitment is punished

The counterparty publishes a commitment it has revoked, and perhaps spends its HTLC outputs with
HTLC transactions, any number of them aggregated in one. The monitor requests to claim every output
of the commitment that is not the holder's, and the output of an HTLC transaction at the index of
each input that spends the commitment.

`check_spend_counterparty_transaction` takes the channel parameters from the funding that is
confirmed. `check_spend_counterparty_htlc` takes them from `self.funding`, which is another one
while a splice or a replaced funding is confirmed and not promoted yet. So the claims of HTLC
transactions are right exactly when they are seen with the funding of the commitment in place
(`punished_iff`), and a cheater whose commitment spends a fresh splice keeps the output of the HTLC
transaction (`spliced_breach`).
-/

namespace PqLightning.Monitor

open AssocMap Chain ChannelMonitorImpl List

variable {crypto : Crypto} {monitor monitor' : ChannelMonitorImpl} {c c' : Confirmation}
  {tx : Transaction} {height : ℕ} {blockHash : BlockHash}

/-! ### The scenario -/

/-- A commitment of the counterparty whose secret was revealed, and whose HTLCs are recorded with
their outputs, about to be processed. -/
structure Breach (crypto : Crypto) (monitor : ChannelMonitorImpl) (tx : Transaction) where
  /-- The funding that the commitment spends. -/
  fundingSpent : FundingScope
  input : TxIn
  htlcs : CommitmentHtlcs
  /-- The secrets that were revealed, down to the last one. -/
  secrets : ℕ → Bytes32
  lastRevealed : ℕ
  point : PublicKey
  confirmed : monitor.getConfirmedFundingScope = .ok fundingSpent
  input_eq : tx.input = [input]
  spends : input.previousOutput = fundingSpent.fundingOutpoint
  commitment : isCommitmentTransaction tx input
  counterparty : holderCommitment fundingSpent tx.txid = none
  /-- The funding transaction is not itself a commitment. -/
  parent : monitor.counterpartyCommitmentTxnOnChain.lookup input.previousOutput.txid = none
  holds : CounterpartyCommitmentSecrets.Holds crypto.sha256 lastRevealed secrets
    monitor.commitmentSecrets
  revoked : lastRevealed ≤ monitor.commitmentNumberOf tx input
  point_eq : crypto.pointOfSecret (secrets (monitor.commitmentNumberOf tx input)) = some point
  recorded : fundingSpent.counterpartyClaimableOutpoints.lookup tx.txid = some htlcs
  outputs : ∀ htlc ∈ htlcs, ∀ index, htlc.1.transactionOutputIndex = some index →
    ∃ output, tx.output[index]? = some output ∧ output.value = htlc.1.toBitcoinAmount ∧
      output.scriptPubkey ≠ crypto.counterpartyRevokeableScript point
  distinct : (htlcs.filterMap fun htlc => htlc.1.transactionOutputIndex).Nodup

namespace Breach

variable (breach : Breach crypto monitor tx)

def number : ℕ := monitor.commitmentNumberOf tx breach.input

def secret : Bytes32 := breach.secrets breach.number

theorem number_lt : breach.number < 2 ^ 48 := by
  unfold number commitmentNumberOf
  omega

theorem point_eq' : crypto.pointOfSecret breach.secret = some breach.point := breach.point_eq

theorem getSecret_eq : monitor.commitmentSecrets.getSecret crypto.sha256 breach.number =
    .ok (some breach.secret) :=
  breach.holds.getSecret_of_ge breach.revoked breach.number_lt

theorem matchingHtlcs_eq : matchingHtlcs tx breach.htlcs = breach.htlcs := by
  refine takeWhile_eq_self_iff.mpr fun htlc hhtlc => ?_
  cases hindex : htlc.1.transactionOutputIndex with
  | none => simp [hindex]
  | some index =>
    obtain ⟨output, houtput, hvalue, -⟩ := breach.outputs htlc hhtlc index hindex
    simp [hindex, htlcOutputMatches, houtput, hvalue]

def claims (height : ℕ) : List PackageTemplate :=
  monitor.revokedOutputClaims crypto breach.fundingSpent breach.point breach.secret tx height ++
    revokedHtlcClaims breach.fundingSpent breach.point breach.secret tx height breach.htlcs

/-- **The commitment is claimed,** and it is recorded as one of the counterparty. -/
theorem checkSpendCounterpartyTransaction_eq (height : ℕ) (blockHash : BlockHash) :
    monitor.checkSpendCounterpartyTransaction crypto tx breach.input height blockHash =
      .ok ((monitor.recordOnChain tx.txid breach.number).failUnbroadcastHtlcs tx.txid height
        blockHash breach.htlcs, breach.claims height) := by
  have hmin : monitor.commitmentSecrets.getMinSeenSecret ≤
      monitor.commitmentNumberOf tx breach.input := by
    rw [breach.holds.getMinSeenSecret_eq]
    exact breach.revoked
  have hfunding : breach.fundingSpent.fundingTxid = breach.input.previousOutput.txid := by
    rw [breach.spends]
    rfl
  rw [checkSpendCounterpartyTransaction, breach.confirmed, ok_bind, if_pos hmin, checkSpendRevoked,
    Panic.unless_of _ hfunding, ok_bind]
  show (monitor.commitmentSecrets.getSecret crypto.sha256 breach.number >>= _) = _
  rw [breach.getSecret_eq, ok_bind, unwrap, ok_bind]
  simp only [breach.point_eq', claimRevoked, breach.recorded, breach.matchingHtlcs_eq,
    Nat.lt_irrefl, if_false]
  rfl

/-- The monitor that knows of the spend makes the same claims. -/
def seen : Breach crypto monitor.seeFundingSpend tx := { breach with }

/-- What watching all outputs of a transaction adds. -/
def allOutputs (tx : Transaction) : List (ℕ × Script) :=
  tx.output.zipIdx.map fun output => (output.2, output.1.scriptPubkey)

/-- The outputs are claimed and watched, and the commitment is recorded. -/
structure Claimed (height : ℕ) (c c' : Confirmation) : Prop where
  claims : c'.claimableOutpoints = c.claimableOutpoints ++ breach.claims height
  watch : c'.watchOutputs = c.watchOutputs ++ [(tx.txid, allOutputs tx)]
  onChain : c'.monitor.counterpartyCommitmentTxnOnChain =
    monitor.counterpartyCommitmentTxnOnChain.insert tx.txid breach.number

theorem confirmCommitment_spec {c1 : Confirmation} {csv : Option ℕ} (hmonitor : c.monitor = monitor)
    (h : confirmCommitment crypto c tx breach.input height blockHash = .ok (c1, csv)) :
    breach.Claimed height c c1 := by
  subst hmonitor
  have hholder : c.monitor.checkSpendHolderTransaction crypto tx breach.input height blockHash =
      .ok none := by
    rw [checkSpendHolderTransaction, breach.confirmed, ok_bind, breach.counterparty]
  obtain ⟨result, hresult, h⟩ := bind_eq_ok.mp h
  obtain rfl := Except.ok.inj (hholder.symm.trans hresult)
  rw [breach.checkSpendCounterpartyTransaction_eq, ok_bind] at h
  cases h
  refine ⟨rfl, rfl, ?_⟩
  exact resolves_failUnbroadcastHtlcs.onChain

/-- **Step: the commitment.** -/
theorem confirmFundingSpend_spec {c1 : Confirmation} (hmonitor : c.monitor = monitor)
    (h : confirmFundingSpend crypto c tx breach.input height blockHash = .ok c1) :
    breach.Claimed height c c1 := by
  subst hmonitor
  have hmem := mem_fundings_of_getConfirmedFundingScope breach.confirmed
  unfold confirmFundingSpend at h
  simp only at h
  split at h
  next hfind =>
    exact absurd (decide_eq_true breach.spends.symm) (find?_eq_none.mp hfind _ hmem)
  · obtain ⟨_, -, h⟩ := bind_eq_ok.mp h
    obtain ⟨⟨c2, csv⟩, hc2, h⟩ := bind_eq_ok.mp h
    cases h
    rw [confirmClose, if_pos breach.commitment] at hc2
    obtain ⟨hclaims, hwatch, honChain⟩ := breach.seen.confirmCommitment_spec
      (c := { c with monitor := c.monitor.seeFundingSpend }) rfl hc2
    exact ⟨hclaims, hwatch, honChain⟩

theorem confirmTransaction_spec (hmonitor : c.monitor = monitor) (hknown : ¬ Known monitor tx.txid)
    (hforeign : Foreign monitor tx.txid)
    (h : confirmTransaction crypto height blockHash c tx = .ok c') :
    breach.Claimed height c c' := by
  have hmem := mem_fundings_of_getConfirmedFundingScope breach.confirmed
  have hparent : breach.input.previousOutput.txid ≠ tx.txid := by
    rw [breach.spends]
    exact (hforeign _ hmem).1
  subst hmonitor
  rcases confirmTransaction_cases h with ⟨halready, -⟩ | ⟨-, ⟨funding, hfunding, htxid, -⟩ |
    ⟨-, c1, hc1, hspend⟩⟩
  · cases halready.symm.trans (alreadyConfirmed_of_not_known hknown blockHash)
  · exact absurd htxid (hforeign funding (mem_cons_of_mem _ hfunding)).1
  · obtain ⟨hclaims, hwatch, honChain⟩ : breach.Claimed height c c1 := by
      rcases hc1 with ⟨input, hinput, hc1⟩ | ⟨hinput, -⟩
      · obtain rfl : breach.input = input := List.cons.inj (breach.input_eq.symm.trans hinput) |>.1
        exact breach.confirmFundingSpend_spec rfl hc1
      · exact absurd breach.input_eq (hinput _)
    rcases hspend with ⟨hinput, -⟩ | ⟨-, hspend⟩
    · rw [breach.input_eq] at hinput
      cases hinput
    obtain ⟨c2, hc2, hclaims', hwatch', honChain', -⟩ := confirmSpend_spec hspend
    -- the funding transaction is not a commitment, so nothing is claimed on top
    have hnone : c1.monitor.counterpartyCommitmentTxnOnChain.lookup
        breach.input.previousOutput.txid = none := by
      rw [honChain, AList.lookup_insert_ne hparent]
      exact breach.parent
    have hc2' : c2 = c1 := by
      rw [confirmHtlcSpend, breach.input_eq] at hc2
      simp only [findSome?_cons, hnone, Option.map_none, findSome?_nil] at hc2
      exact (Except.ok.inj hc2).symm
    subst hc2'
    exact ⟨hclaims'.trans hclaims, hwatch'.trans hwatch, honChain'.trans honChain⟩

end Breach

/-! ### Claims of different outputs -/

theorem requestsFor_eq_singleton {claims : List PackageTemplate}
    (hnodup : (claims.flatMap PackageTemplate.outpoints).Nodup) {claim : PackageTemplate}
    (hclaim : claim ∈ claims) {outpoint : OutPoint} (houtpoint : outpoint ∈ claim.outpoints) :
    requestsFor outpoint claims = [claim] := by
  induction claims with
  | nil => cases hclaim
  | cons first claims ih =>
    rw [flatMap_cons, nodup_append] at hnodup
    obtain ⟨-, hnodup, hdisjoint⟩ := hnodup
    rcases mem_cons.mp hclaim with rfl | hclaim
    · have hrest : requestsFor outpoint claims = [] :=
        requestsFor_eq_nil fun request hrequest hmem =>
        hdisjoint outpoint houtpoint outpoint (mem_flatMap.mpr ⟨request, hrequest, hmem⟩) rfl
      rw [requestsFor, filter_cons, if_pos (decide_eq_true houtpoint)]
      exact congrArg _ hrest
    · have hfirst : outpoint ∉ first.outpoints := fun hmem => hdisjoint outpoint hmem outpoint
        (mem_flatMap.mpr ⟨claim, hclaim, houtpoint⟩) rfl
      rw [requestsFor, filter_cons, if_neg (by simpa using hfirst)]
      exact ih hnodup hclaim

/-- Claims that are made one by one of different outputs of a transaction. -/
theorem nodup_outpoints_filterMap {α : Type} (txid : Txid) (key : α → Option ℕ)
    {f : α → Option PackageTemplate}
    (hf : ∀ a claim, f a = some claim → ∃ vout, key a = some vout ∧ claim.outpoints =
      [⟨txid, vout⟩])
    {l : List α} (hnodup : (l.filterMap key).Nodup) :
    ((l.filterMap f).flatMap PackageTemplate.outpoints).Nodup := by
  have hsub : ((l.filterMap f).flatMap PackageTemplate.outpoints).Sublist
      ((l.filterMap key).map fun vout => (⟨txid, vout⟩ : OutPoint)) := by
    clear hnodup
    induction l with
    | nil => exact .slnil
    | cons a l ih =>
      cases ha : f a with
      | none =>
        rw [filterMap_cons_none ha]
        refine ih.trans (.map _ ?_)
        exact (sublist_cons_self a l).filterMap key
      | some claim =>
        obtain ⟨vout, hvout, hclaim⟩ := hf a claim ha
        rw [filterMap_cons_some ha, filterMap_cons_some hvout, flatMap_cons, hclaim]
        exact ih.cons_cons _
  refine (hnodup.map fun vout vout' heq => ?_).sublist hsub
  exact congrArg InteractiveTx.OutPoint.vout heq

namespace Breach

variable (breach : Breach crypto monitor tx)

/-- **The claims of the commitment** are of different outputs. -/
theorem nodup_outpoints_claims (height : ℕ) :
    ((breach.claims height).flatMap PackageTemplate.outpoints).Nodup := by
  rw [claims, flatMap_append, nodup_append]
  refine ⟨?_, ?_, ?_⟩
  · refine nodup_outpoints_filterMap tx.txid (fun output => some output.2) ?_ ?_
    · rintro ⟨output, index⟩ claim hclaim
      simp only at hclaim
      split at hclaim
      · exact ⟨index, rfl, Option.some.inj hclaim ▸ rfl⟩
      · cases hclaim
    · rw [filterMap_eq_map']
      exact nodup_zipIdx_map_snd tx.output
  · rw [revokedHtlcClaims, breach.matchingHtlcs_eq]
    refine nodup_outpoints_filterMap tx.txid (fun htlc => htlc.1.transactionOutputIndex) ?_
      breach.distinct
    intro htlc claim hclaim
    obtain ⟨index, hindex, rfl⟩ := Option.map_eq_some_iff.mp hclaim
    exact ⟨index, hindex, rfl⟩
  · -- an HTLC output does not have the script of a delayed output
    rintro outpoint houtput _ hhtlc rfl
    obtain ⟨claim, hclaim, houtput⟩ := mem_flatMap.mp houtput
    obtain ⟨⟨output, index⟩, hmem, hclaim⟩ := mem_filterMap.mp hclaim
    obtain ⟨claim', hclaim', hhtlc⟩ := mem_flatMap.mp hhtlc
    rw [revokedHtlcClaims, breach.matchingHtlcs_eq] at hclaim'
    obtain ⟨htlc, hhtlcs, hclaim'⟩ := mem_filterMap.mp hclaim'
    obtain ⟨index', hindex', rfl⟩ := Option.map_eq_some_iff.mp hclaim'
    obtain ⟨output', houtput', -, hscript'⟩ := breach.outputs htlc hhtlcs index' hindex'
    simp only at hclaim
    split at hclaim
    next hscript =>
      cases hclaim
      have hindex : index = index' := congrArg InteractiveTx.OutPoint.vout
        ((mem_singleton.mp houtput).symm.trans (mem_singleton.mp hhtlc))
      have hsome : tx.output[index]? = some output := mem_zipIdx_iff_getElem?.mp hmem
      rw [hindex, houtput'] at hsome
      exact hscript' (Option.some.inj hsome ▸ hscript)
    · cases hclaim

end Breach

/-! ### The blocks -/

/-- The secret, the value and the channel parameters with which an output of a revoked commitment is
claimed. -/
def punishment : PackageSolvingData → Option (Bytes32 × ℕ × ChannelTransactionParameters)
  | .revokedOutput _ key amount parameters _ => some (key, amount, parameters)
  | .revokedHTLCOutput _ key htlc parameters _ => some (key, htlc.toBitcoinAmount, parameters)
  | _ => none

/-- The outputs that are watched at the end of the block at hand. -/
def Phase.watching : Phase → Map Txid (List (ℕ × Script))
  | between monitor _ => monitor.outputsToWatch
  | within _ _ c _ _ => c.watchOutputs.foldl (fun map outputs => map.insert outputs.1 outputs.2)
      c.monitor.outputsToWatch

/-- A transaction that is new to a monitor, with no claims of its outputs requested. -/
structure New (c : Confirmation) (tx : Transaction) : Prop where
  unknown : ¬ Known c.monitor tx.txid
  foreign : Foreign c.monitor tx.txid
  unclaimed : ∀ request ∈ c.monitor.claimRequests ++ c.claimableOutpoints,
    ∀ outpoint ∈ request.outpoints, outpoint.txid ≠ tx.txid

/-- A revoked commitment in its block, and the blocks after it. The chain is consistent: a
transaction confirms once, no output of a funding is spent again, and only the outputs of this
commitment of the counterparty are there to be spent. -/
structure Scenario (crypto : Crypto) where
  /-- The monitor before the block. -/
  monitor : ChannelMonitorImpl
  blockHash : BlockHash
  height : ℕ
  before : List Transaction
  /-- The commitment. -/
  tx : Transaction
  after : List Transaction
  later : List Block
  /-- Where the monitor is when it comes to the commitment. -/
  seen : Confirmation
  reached : (monitor.filterBlock before).foldlM (confirmTransaction crypto height blockHash)
    (monitor.startConfirmation (before ++ tx :: after)) = .ok seen
  breach : Breach crypto seen.monitor tx
  watched : monitor.spendsWatchedOutput tx
  distinct : ((tx :: after ++ later.flatMap Block.txdata).map Transaction.txid).Nodup
  fresh : ∀ other ∈ tx :: after ++ later.flatMap Block.txdata, New seen other
  unspent : ∀ other ∈ after ++ later.flatMap Block.txdata, ∀ input ∈ other.input,
    (∀ funding ∈ seen.monitor.fundings, funding.fundingOutpoint ≠ input.previousOutput) ∧
    if input.previousOutput.txid = tx.txid then input.previousOutput.vout < tx.output.length
    else seen.monitor.counterpartyCommitmentTxnOnChain.lookup input.previousOutput.txid = none

namespace Scenario

variable (s : Scenario crypto)

def blocks : List Block := ⟨s.blockHash, s.height, s.before ++ s.tx :: s.after⟩ :: s.later

def delivered : List Transaction := s.after ++ s.later.flatMap Block.txdata

def Spends (input : TxIn) : Prop := input.previousOutput.txid = s.tx.txid

/-- An HTLC transaction spends the commitment with the input at the index of the output. -/
structure HtlcOutput (other : Transaction) (index : ℕ) (output : TxOut Script) : Prop where
  output_eq : other.output[index]? = some output
  input : ∃ input, other.input[index]? = some input ∧ s.Spends input ∧ input.witness.length = 5

/-- The output is requested to be claimed, once, with its value, the secret of the commitment and
the parameters of the funding that it spends. -/
def Claimed (final : ChannelMonitorImpl) (outpoint : OutPoint) (value : ℕ) : Prop :=
  ∃ claim data, requestsFor outpoint final.claimRequests = [claim] ∧
    claim.inputs = [(outpoint, data)] ∧
    punishment data = some (s.breach.secret, value, s.breach.fundingSpent.channelParameters)

/-- **The breach is punished:** the outputs to the counterparty's delayed key, the HTLC outputs and
the outputs of HTLC transactions are claimed. -/
structure Punished (final : ChannelMonitorImpl) : Prop where
  delayed : ∀ index output, s.tx.output[index]? = some output →
    output.scriptPubkey = crypto.counterpartyRevokeableScript s.breach.point →
    s.Claimed final ⟨s.tx.txid, index⟩ output.value
  htlcs : ∀ htlc ∈ s.breach.htlcs, ∀ index output, htlc.1.transactionOutputIndex = some index →
    s.tx.output[index]? = some output → s.Claimed final ⟨s.tx.txid, index⟩ output.value
  htlcTransactions : ∀ other ∈ s.delivered, ∀ index output, s.HtlcOutput other index output →
    s.Claimed final ⟨other.txid, index⟩ output.value

/-! ### The run comes to the commitment -/

/-- The transactions of the block that are processed from the commitment on. -/
def rest : List Transaction :=
  (s.monitor.filterBlock (s.before ++ s.tx :: s.after)).drop (s.monitor.filterBlock s.before).length

/-- The run at the point where it comes to the commitment. -/
def phase : Phase := .within s.height s.blockHash s.seen s.rest s.later

/-- The transactions of the block that are processed from the commitment on are the commitment and
some after it, those that spend it among them. -/
theorem exists_rest_eq : ∃ picked, s.rest = s.tx :: picked ∧
    s.monitor.filterBlock (s.before ++ s.tx :: s.after) =
      s.monitor.filterBlock s.before ++ s.rest ∧ picked.Sublist s.after ∧
    ∀ other ∈ s.after, (∃ input ∈ other.input, s.Spends input) → other ∈ picked := by
  have hstep : s.monitor.filterStep (s.monitor.filterBlock s.before) s.tx =
      s.monitor.filterBlock s.before ++ [s.tx] := by
    rw [filterStep, s.watched, Bool.true_or, if_pos rfl]
  obtain ⟨picked, hfold, hsub, hpicked⟩ :=
    foldl_filterStep s.monitor s.after (s.monitor.filterBlock s.before ++ [s.tx])
  have hblock : s.monitor.filterBlock (s.before ++ s.tx :: s.after) =
      s.monitor.filterBlock s.before ++ s.tx :: picked :=
    calc s.monitor.filterBlock (s.before ++ s.tx :: s.after)
      _ = s.after.foldl s.monitor.filterStep
            (s.monitor.filterStep (s.monitor.filterBlock s.before) s.tx) := foldl_append ..
      _ = s.monitor.filterBlock s.before ++ s.tx :: picked := by
        rw [hstep, hfold, append_assoc, singleton_append]
  have hrest : s.rest = s.tx :: picked := by rw [rest, hblock, drop_left]
  refine ⟨picked, hrest, hrest ▸ hblock, hsub, ?_⟩
  rintro other hother ⟨input, hinput, htxid⟩
  exact hpicked other hother (.inr ⟨input, hinput, s.tx,
    mem_append_right _ mem_cons_self, htxid.symm⟩)

variable {final : ChannelMonitorImpl}

theorem exists_run (h : connectBlocks crypto s.monitor s.blocks = .ok final) :
    ∃ log, Run crypto s.phase log final := by
  obtain ⟨-, -, hblock, -⟩ := s.exists_rest_eq
  rw [connectBlocks, blocks, foldlM_cons] at h
  obtain ⟨next, hnext, h⟩ := bind_eq_ok.mp h
  obtain ⟨log, hlog⟩ := exists_run_of_connectBlocks h
  obtain ⟨_, -, hnext⟩ := bind_eq_ok.mp hnext
  obtain ⟨c, hc, hnext⟩ := bind_eq_ok.mp hnext
  rw [hblock, foldlM_append, s.reached, ok_bind] at hc
  exact exists_run_of_foldlM hc (.finish hnext hlog)

theorem upcoming_sublist : s.phase.upcoming.Sublist (s.tx :: s.delivered) := by
  obtain ⟨picked, hrest, -, hsub, -⟩ := s.exists_rest_eq
  show (s.rest ++ s.later.flatMap Block.txdata).Sublist _
  rw [hrest]
  exact (hsub.append_right _).cons_cons _

/-! ### What stays known of the commitment -/

/-- The monitor can take the secret of the commitment and knows that it is on the chain. -/
structure Hunting (monitor : ChannelMonitorImpl) : Prop where
  secrets : monitor.commitmentSecrets = s.seen.monitor.commitmentSecrets
  fundings : ∀ funding ∈ monitor.fundings, funding ∈ s.seen.monitor.fundings
  onChain : monitor.counterpartyCommitmentTxnOnChain =
    s.seen.monitor.counterpartyCommitmentTxnOnChain.insert s.tx.txid s.breach.number

variable {s}

variable {other : Transaction}

theorem mem_all (h : other ∈ s.delivered) :
    other ∈ s.tx :: s.after ++ s.later.flatMap Block.txdata := mem_cons_of_mem _ h

/-- What is later spends no funding and no other commitment. -/
theorem lookup_onChain (h : s.Hunting monitor) (hother : other ∈ s.delivered)
    {input : TxIn} (hinput : input ∈ other.input) :
    monitor.counterpartyCommitmentTxnOnChain.lookup input.previousOutput.txid =
      if input.previousOutput.txid = s.tx.txid then some s.breach.number else none := by
  have hunspent := (s.unspent other hother input hinput).2
  rw [h.onChain]
  split
  next htxid =>
    rw [htxid, AList.lookup_insert]
  next htxid =>
    rw [if_neg htxid] at hunspent
    rw [AList.lookup_insert_ne htxid, hunspent]

theorem Hunting.foreign (h : s.Hunting monitor) (hother : other ∈ s.delivered) :
    Foreign monitor other.txid := ((s.fresh other (mem_all hother)).foreign).mono h.fundings

section

variable (h : s.Hunting c.monitor) (hother : other ∈ s.delivered)
  (hunknown : ¬ Known c.monitor other.txid)
  (hstep : confirmTransaction crypto height blockHash c other = .ok c')

include h hother hunknown hstep

/-- A later transaction is only looked at for the commitment it may spend. -/
theorem exists_confirmHtlcSpend :
    ∃ c1, confirmHtlcSpend crypto c other height = .ok c1 ∧
      c'.claimableOutpoints = c1.claimableOutpoints ∧
      c'.monitor.counterpartyCommitmentTxnOnChain = c.monitor.counterpartyCommitmentTxnOnChain := by
  rcases confirmTransaction_cases hstep with ⟨halready, -⟩ | ⟨-, ⟨funding, hfunding, htxid, -⟩ |
    ⟨-, c1, hc1, hspend⟩⟩
  · cases halready.symm.trans (alreadyConfirmed_of_not_known hunknown blockHash)
  · exact absurd htxid (h.foreign hother funding (mem_cons_of_mem _ hfunding)).1
  · obtain rfl : c1 = c := by
      rcases hc1 with ⟨input, hinput, hc1⟩ | ⟨-, rfl⟩
      · -- its input spends none of the fundings
        have hmem : input ∈ other.input := hinput ▸ mem_cons_self
        have hnone : c.monitor.fundings.find?
            (fun funding => funding.fundingOutpoint = input.previousOutput) = none :=
          find?_eq_none.mpr fun funding hfunding heq =>
            (s.unspent other hother input hmem).1 funding (h.fundings funding hfunding)
              (of_decide_eq_true heq)
        rw [confirmFundingSpend] at hc1
        simp only [hnone] at hc1
        exact (Except.ok.inj hc1).symm
      · rfl
    rcases hspend with ⟨hempty, rfl⟩ | ⟨-, hspend⟩
    · refine ⟨c', ?_, rfl, rfl⟩
      rw [confirmHtlcSpend, hempty]
      rfl
    · obtain ⟨c2, hc2, hclaims, -, honChain, -⟩ := confirmSpend_spec hspend
      exact ⟨c2, hc2, hclaims, honChain⟩

theorem Hunting.confirm : s.Hunting c'.monitor := by
  obtain ⟨-, -, -, honChain⟩ := exists_confirmHtlcSpend h hother hunknown hstep
  have hsame := (confirms_of_confirmTransaction hstep).records.same
  refine ⟨hsame.commitmentSecrets.trans h.secrets, fun funding hfunding => ?_,
    honChain.trans h.onChain⟩
  exact h.fundings funding (hsame.fundings ▸ hfunding)

end

theorem Hunting.finish (h : s.Hunting c.monitor)
    (hstep : finishConfirmation c blockHash height = .ok monitor') : s.Hunting monitor' := by
  obtain ⟨ended, claims, outputs, hends, -, -, rfl⟩ := finishConfirmation_spec hstep
  refine ⟨?_, fun funding hfunding => h.fundings funding (hends.fundings funding hfunding), ?_⟩
  · show ended.commitmentSecrets = _
    rw [hends.rest]
    exact h.secrets
  · show ended.counterpartyCommitmentTxnOnChain = _
    rw [hends.rest]
    exact h.onChain

/-- The outputs of a later transaction that are claimed: those at the index of an input that spends
the commitment, with the parameters of the funding that is current then. -/
theorem claimableOutpoints_confirm (h : s.Hunting c.monitor)
    (hother : other ∈ s.delivered) (hunknown : ¬ Known c.monitor other.txid)
    (hspends : ∃ input ∈ other.input, s.Spends input)
    (hstep : confirmTransaction crypto height blockHash c other = .ok c') :
    c'.claimableOutpoints = c.claimableOutpoints ++ (other.input.zipIdx.filterMap
      (c.monitor.revokedHtlcTxClaim s.breach.point s.breach.secret s.tx.txid other height)).map
        Prod.fst := by
  obtain ⟨c1, hc1, hclaims, -⟩ := exists_confirmHtlcSpend h hother hunknown hstep
  have hfind : other.input.findSome? (fun input =>
      (c.monitor.counterpartyCommitmentTxnOnChain.lookup input.previousOutput.txid).map
        fun number =>
        (input.previousOutput.txid, number)) = some (s.tx.txid, s.breach.number) := by
    obtain ⟨input, hinput, (htxid : input.previousOutput.txid = s.tx.txid)⟩ := hspends
    cases hfound : other.input.findSome? _ with
    | none =>
      have hnone := findSome?_eq_none_iff.mp hfound input hinput
      rw [lookup_onChain h hother hinput, if_pos htxid] at hnone
      cases hnone
    | some found =>
      -- whichever input is found, it spends the commitment
      obtain ⟨input', hinput', hfound⟩ := exists_of_findSome?_eq_some hfound
      rw [lookup_onChain h hother hinput'] at hfound
      split at hfound
      next htxid' =>
        rw [htxid'] at hfound
        exact hfound.symm
      · cases hfound
  have hsecret : c.monitor.commitmentSecrets.getSecret crypto.sha256 s.breach.number =
      .ok (some s.breach.secret) := by
    rw [h.secrets]
    exact s.breach.getSecret_eq
  rw [confirmHtlcSpend] at hc1
  simp only [hfind] at hc1
  obtain ⟨⟨claims, outputs⟩, hcheck, hc1⟩ := bind_eq_ok.mp hc1
  cases hc1
  rw [checkSpendCounterpartyHtlc, hsecret, ok_bind] at hcheck
  simp only [Option.bind_some, s.breach.point_eq', Option.map_some] at hcheck
  obtain ⟨_, -, hcheck⟩ := bind_eq_ok.mp hcheck
  obtain ⟨_, -, hcheck⟩ := bind_eq_ok.mp hcheck
  cases hcheck
  exact hclaims

/-! ### HTLC transactions are delivered -/

variable (s) in
structure OnTrack (phase : Phase) : Prop where
  hunting : s.Hunting phase.current
  upcoming : phase.upcoming.Sublist s.delivered
  unknown : ∀ other ∈ phase.upcoming, ¬ Known phase.current other.txid
  watched : phase.watching.lookup s.tx.txid = some (Breach.allOutputs s.tx)

/-- A later transaction that spends the commitment spends a watched output. -/
theorem spendsWatchedOutput_of_spends
    (h : monitor.outputsToWatch.lookup s.tx.txid = some (Breach.allOutputs s.tx))
      (hother : other ∈ s.delivered)
    (hspends : ∃ input ∈ other.input, s.Spends input) : monitor.spendsWatchedOutput other := by
  obtain ⟨input, hinput, (htxid : input.previousOutput.txid = s.tx.txid)⟩ := hspends
  have hunspent := (s.unspent other hother input hinput).2
  rw [if_pos htxid] at hunspent
  refine any_eq_true.mpr ⟨input, hinput, ?_⟩
  rw [htxid, h]
  refine any_eq_true.mpr ⟨(input.previousOutput.vout,
    (s.tx.output[input.previousOutput.vout]).scriptPubkey), ?_, decide_eq_true rfl⟩
  exact mem_map.mpr ⟨(s.tx.output[input.previousOutput.vout], input.previousOutput.vout),
    mem_zipIdx_iff_getElem?.mpr (getElem?_eq_getElem hunspent), rfl⟩

variable {log : List Sight}

namespace OnTrack

variable {blocks : List Block}

theorem start {block : Block} (h : s.OnTrack (.between monitor (block :: blocks))) :
    s.OnTrack (.within block.height block.blockHash (monitor.startConfirmation block.txdata)
      (monitor.filterBlock block.txdata) blocks) := by
  obtain ⟨picked, hfold, hsub, -⟩ := foldl_filterStep monitor block.txdata []
  have hupcoming : (monitor.filterBlock block.txdata ++ blocks.flatMap Block.txdata).Sublist
      ((block :: blocks).flatMap Block.txdata) := by
    rw [filterBlock, hfold]
    exact hsub.append_right _
  refine ⟨⟨h.hunting.secrets, h.hunting.fundings, h.hunting.onChain⟩, hupcoming.trans h.upcoming,
    fun other hother => h.unknown other (hupcoming.subset hother), h.watched⟩

theorem confirm {txs : List Transaction}
    (h : s.OnTrack (.within height blockHash c (other :: txs) blocks))
    (hstep : confirmTransaction crypto height blockHash c other = .ok c') :
    s.OnTrack (.within height blockHash c' txs blocks) := by
  have hother : other ∈ s.delivered := h.upcoming.subset mem_cons_self
  have hconfirms := confirms_of_confirmTransaction hstep
  have hdistinct := nodup_cons.mp s.distinct
  refine ⟨h.hunting.confirm hother (h.unknown other mem_cons_self) hstep,
    (sublist_cons_self ..).trans h.upcoming, fun next hnext hknown => ?_, ?_⟩
  · have hne : next.txid ≠ other.txid := by
      have hnodup := hdistinct.2.sublist (h.upcoming.map Transaction.txid)
      exact fun heq => (nodup_cons.mp hnodup).1 (mem_map.mpr ⟨next, hnext, heq⟩)
    exact h.unknown next (mem_cons_of_mem _ hnext) (hconfirms.records.known hknown hne)
  · obtain ⟨outputs, houtputs, htxid⟩ := hconfirms.watch
    show (c'.watchOutputs.foldl _ c'.monitor.outputsToWatch).lookup _ = _
    rw [houtputs, hconfirms.records.same.outputsToWatch, foldl_append,
      lookup_foldl_insert_of_ne fun output houtput heq => hdistinct.1
        (mem_map.mpr ⟨other, hother, (htxid output houtput).symm.trans heq⟩)]
    exact h.watched

theorem finish (h : s.OnTrack (.within height blockHash c [] blocks))
    (hstep : finishConfirmation c blockHash height = .ok monitor') :
    s.OnTrack (.between monitor' blocks) := by
  have hforeign : Foreign c.monitor s.tx.txid :=
    ((s.fresh s.tx mem_cons_self).foreign).mono h.hunting.fundings
  refine ⟨h.hunting.finish hstep, h.upcoming, fun other hother hknown => ?_, ?_⟩
  · obtain ⟨ended, claims, outputs, hends, -, -, rfl⟩ := finishConfirmation_spec hstep
    exact h.unknown other hother ((hends.known other.txid hknown).elim id False.elim)
  · obtain ⟨ended, claims, outputs, hends, -, houtputs, rfl⟩ := finishConfirmation_spec hstep
    show ((c.watchOutputs ++ outputs).foldl _ ended.outputsToWatch).lookup _ = _
    rw [foldl_append, lookup_foldl_insert_of_ne fun output houtput heq => ?_,
      lookup_foldl_insert_congr (hends.watched s.tx.txid fun funding hfunding =>
        (hforeign funding hfunding).1)]
    · exact h.watched
    · obtain ⟨funding, hfunding, htxid⟩ := houtputs output houtput
      exact (hforeign funding hfunding).2 (htxid.symm.trans heq)

/-- **Run.** Each monitor that sees a later transaction knows of the commitment and sees the
transaction for the first time, and every transaction that spends the commitment is seen. -/
theorem run {phase : Phase} (h : s.OnTrack phase) (hrun : Run crypto phase log final) :
    (∀ sight ∈ log, sight.tx ∈ s.delivered ∧ s.Hunting sight.monitor ∧
      ¬ Known sight.monitor sight.tx.txid) ∧
    ∀ other ∈ phase.upcoming, (∃ input ∈ other.input, s.Spends input) →
      ∃ sight ∈ log, sight.tx = other := by
  induction hrun with
  | done monitor =>
    exact ⟨fun sight hsight => (not_mem_nil hsight).elim,
      fun other hother => (not_mem_nil hother).elim⟩
  | @start monitor final block blocks log rest ih =>
    obtain ⟨hsights, hdelivered⟩ := ih h.start
    refine ⟨hsights, fun other hother hspends => hdelivered other ?_ hspends⟩
    have hwatched := spendsWatchedOutput_of_spends h.watched (h.upcoming.subset hother) hspends
    obtain ⟨picked, hfold, -, hpicked⟩ := foldl_filterStep monitor block.txdata []
    show other ∈ monitor.filterBlock block.txdata ++ blocks.flatMap Block.txdata
    rw [filterBlock, hfold]
    rcases mem_append.mp hother with hother | hother
    · exact mem_append_left _ (hpicked other hother (.inl hwatched))
    · exact mem_append_right _ hother
  | @confirm final height blockHash c c' tx txs blocks log step rest ih =>
    obtain ⟨hsights, hdelivered⟩ := ih (h.confirm step)
    refine ⟨fun sight hsight => ?_, fun other hother hspends => ?_⟩
    · rcases mem_cons.mp hsight with rfl | hsight
      · exact ⟨h.upcoming.subset mem_cons_self, h.hunting, h.unknown _ mem_cons_self⟩
      · exact hsights sight hsight
    · rcases mem_cons.mp hother with rfl | hother
      · exact ⟨_, mem_cons_self, rfl⟩
      · obtain ⟨sight, hsight, heq⟩ := hdelivered other hother hspends
        exact ⟨sight, mem_cons_of_mem _ hsight, heq⟩
  | finish step rest ih => exact ih (h.finish step)

end OnTrack

/-! ### All claims -/

theorem exists_onTrack (hrun : Run crypto s.phase log final) :
    ∃ c1 picked log', log = ⟨s.seen.monitor, s.height, s.tx⟩ :: log' ∧
      s.OnTrack (.within s.height s.blockHash c1 picked s.later) ∧
      Run crypto (.within s.height s.blockHash c1 picked s.later) log' final ∧
      ∀ other ∈ s.delivered, (∃ input ∈ other.input, s.Spends input) →
        other ∈ picked ++ s.later.flatMap Block.txdata := by
  obtain ⟨picked, hrest, -, hsub, hpicked⟩ := s.exists_rest_eq
  have hnew := s.fresh s.tx mem_cons_self
  have hdistinct := nodup_cons.mp s.distinct
  rw [phase, hrest] at hrun
  obtain _ | _ | @⟨_, _, _, _, c1, _, _, _, log', hstep, hrun⟩ | _ := hrun
  have hconfirms := confirms_of_confirmTransaction hstep
  obtain ⟨-, hwatch, honChain⟩ :=
    s.breach.confirmTransaction_spec rfl hnew.unknown hnew.foreign hstep
  refine ⟨c1, picked, log', rfl, ⟨⟨?_, ?_, honChain⟩, hsub.append_right _, ?_, ?_⟩, hrun, ?_⟩
  · exact hconfirms.records.same.commitmentSecrets
  · exact fun funding hfunding => hconfirms.records.same.fundings ▸ hfunding
  · intro other hother hknown
    have hmem : other ∈ s.delivered := (hsub.append_right _).subset hother
    refine (s.fresh other (mem_all hmem)).unknown (hconfirms.records.known hknown fun heq => ?_)
    exact hdistinct.1 (mem_map.mpr ⟨other, hmem, heq⟩)
  · show (c1.watchOutputs.foldl _ c1.monitor.outputsToWatch).lookup _ = _
    rw [hwatch, foldl_append]
    exact AList.lookup_insert _
  · intro other hother hspends
    rcases mem_append.mp hother with hother | hother
    · exact mem_append_left _ (hpicked other hother hspends)
    · exact mem_append_right _ hother

theorem nodup_log
    (hrun : Run crypto s.phase log final) : (log.map fun sight => sight.tx.txid).Nodup := by
  have hsub := (hrun.sublist_upcoming.trans s.upcoming_sublist).map Transaction.txid
  rw [map_map] at hsub
  exact s.distinct.sublist hsub

/-- No claims of a transaction were requested before it is seen. -/
theorem requestsFor_phase {outpoint : OutPoint}
    (hother : other ∈ s.tx :: s.after ++ s.later.flatMap Block.txdata)
    (htxid : outpoint.txid = other.txid) : requestsFor outpoint s.phase.requests = [] :=
  requestsFor_eq_nil fun request hrequest hmem =>
    (s.fresh other hother).unclaimed request hrequest outpoint hmem htxid

/-- **The claims of the commitment** are requested, and no others of its outputs. -/
theorem requestsFor_commitment (hrun : Run crypto s.phase log final) (index : ℕ) :
    requestsFor ⟨s.tx.txid, index⟩ final.claimRequests =
      requestsFor ⟨s.tx.txid, index⟩ (s.breach.claims s.height) := by
  obtain ⟨c1, picked, log', rfl, -⟩ := exists_onTrack hrun
  have hnew := s.fresh s.tx mem_cons_self
  have htxid : (⟨s.tx.txid, index⟩ : OutPoint).txid = s.tx.txid := rfl
  obtain ⟨c, c', blockHash, claims, hc, hstep, hclaims, hfinal⟩ :=
    hrun.requestsFor_sight mem_cons_self (nodup_log hrun) htxid hnew.foreign
  obtain ⟨hclaims', -⟩ := s.breach.confirmTransaction_spec hc hnew.unknown hnew.foreign hstep
  rw [hfinal, requestsFor_phase mem_cons_self rfl, nil_append,
    append_cancel_left (hclaims.symm.trans hclaims')]

/-- The commitment does not spend itself. -/
theorem not_spends_of_mem_input {input : TxIn} (h : input ∈ s.tx.input) : ¬ s.Spends input := by
  rw [s.breach.input_eq] at h
  rw [mem_singleton.mp h, Spends, s.breach.spends]
  exact ((s.fresh s.tx mem_cons_self).foreign _
    (mem_fundings_of_getConfirmedFundingScope s.breach.confirmed)).1

/-- A monitor that sees a transaction that spends the commitment. -/
theorem hunting_of_spends
    (hrun : Run crypto s.phase log final) {sight : Sight} (hsight : sight ∈ log)
    (hspends : ∃ input ∈ sight.tx.input, s.Spends input) :
    sight.tx ∈ s.delivered ∧ s.Hunting sight.monitor ∧ ¬ Known sight.monitor sight.tx.txid := by
  obtain ⟨c1, picked, log', rfl, htrack, hrun', -⟩ := exists_onTrack hrun
  rcases mem_cons.mp hsight with rfl | hlater
  · obtain ⟨input, hinput, hspends⟩ := hspends
    exact absurd hspends (not_spends_of_mem_input hinput)
  · exact (htrack.run hrun').1 sight hlater

/-- The claims of an HTLC transaction are of different outputs. -/
theorem nodup_outpoints_revokedHtlcTxClaim (monitor : ChannelMonitorImpl) (point : PublicKey)
    (secret : Bytes32) (commitmentTxid : Txid) (tx : Transaction) (height : ℕ) :
    (((tx.input.zipIdx.filterMap (monitor.revokedHtlcTxClaim point secret commitmentTxid tx
      height)).map Prod.fst).flatMap PackageTemplate.outpoints).Nodup := by
  rw [map_filterMap]
  refine nodup_outpoints_filterMap tx.txid (fun input => some input.2) ?_ ?_
  · intro input claim hclaim
    obtain ⟨⟨claim, watch⟩, hsome, rfl⟩ := Option.map_eq_some_iff.mp hclaim
    unfold revokedHtlcTxClaim at hsome
    split at hsome
    · obtain ⟨output, -, heq⟩ := Option.map_eq_some_iff.mp hsome
      obtain ⟨rfl, -⟩ := Prod.mk.inj heq
      exact ⟨input.2, rfl, rfl⟩
    · cases hsome
  · rw [filterMap_eq_map']
    exact nodup_zipIdx_map_snd tx.input

section

variable (hrun : Run crypto s.phase log final)

include hrun

variable {output : TxOut Script}

/-- **The claim of an output of an HTLC transaction** is requested, and no other of it. -/
theorem requestsFor_htlcOutput {sight : Sight} (hsight : sight ∈ log) {index : ℕ}
    (houtput : s.HtlcOutput sight.tx index output) :
    ∃ height, requestsFor ⟨sight.tx.txid, index⟩ final.claimRequests =
      [.buildPackage sight.tx.txid index (.revokedOutput s.breach.point s.breach.secret output.value
        sight.monitor.funding.channelParameters (some sight.height)) height] := by
  obtain ⟨output_eq, input, hinput, hspends, hwitness⟩ := houtput
  have hmem : input ∈ sight.tx.input := mem_of_getElem? hinput
  obtain ⟨hother, hhunting, hunknown⟩ := hunting_of_spends hrun hsight ⟨input, hmem, hspends⟩
  have hnew := s.fresh sight.tx (mem_all hother)
  have htxid : (⟨sight.tx.txid, index⟩ : OutPoint).txid = sight.tx.txid := rfl
  obtain ⟨c, c', blockHash, claims, hc, hstep, hclaims, hfinal⟩ :=
    hrun.requestsFor_sight hsight (nodup_log hrun) htxid hnew.foreign
  rw [← hc] at hhunting hunknown ⊢
  have hclaims' := claimableOutpoints_confirm hhunting hother hunknown ⟨input, hmem, hspends⟩ hstep
  refine ⟨sight.height + c.monitor.onCounterpartyTxCsv, ?_⟩
  rw [hfinal, requestsFor_phase (mem_all hother) rfl, nil_append,
    append_cancel_left (hclaims.symm.trans hclaims')]
  refine requestsFor_eq_singleton (nodup_outpoints_revokedHtlcTxClaim ..) ?_ (mem_singleton_self _)
  refine mem_map.mpr ⟨(_, index, output.scriptPubkey), mem_filterMap.mpr
    ⟨(input, index), mem_zipIdx_iff_getElem?.mpr hinput, ?_⟩, rfl⟩
  rw [revokedHtlcTxClaim, if_pos ⟨hspends, hwitness⟩, output_eq]
  rfl

theorem claimed_of_mem_claims {index value : ℕ} {data : PackageSolvingData} {spendableHeight : ℕ}
    (hclaim : .buildPackage s.tx.txid index data spendableHeight ∈ s.breach.claims s.height)
    (hdata : punishment data =
      some (s.breach.secret, value, s.breach.fundingSpent.channelParameters)) :
    s.Claimed final ⟨s.tx.txid, index⟩ value := by
  refine ⟨.buildPackage s.tx.txid index data spendableHeight, data,
    (requestsFor_commitment hrun index).trans ?_, rfl, hdata⟩
  exact requestsFor_eq_singleton (s.breach.nodup_outpoints_claims s.height) hclaim
    (mem_singleton_self _)

/-- **The outputs of the commitment** are claimed. -/
theorem claimed_delayed {index : ℕ} (houtput : s.tx.output[index]? = some output)
    (hscript : output.scriptPubkey = crypto.counterpartyRevokeableScript s.breach.point) :
    s.Claimed final ⟨s.tx.txid, index⟩ output.value := by
  refine claimed_of_mem_claims hrun (mem_append_left _ (mem_filterMap.mpr
    ⟨(output, index), mem_zipIdx_iff_getElem?.mpr houtput, if_pos hscript⟩)) rfl

theorem claimed_htlc {htlc : HTLCOutputInCommitment × Option HTLCSource}
    (hhtlc : htlc ∈ s.breach.htlcs) {index : ℕ}
    (hindex : htlc.1.transactionOutputIndex = some index)
    (houtput : s.tx.output[index]? = some output) :
    s.Claimed final ⟨s.tx.txid, index⟩ output.value := by
  obtain ⟨output', houtput', hvalue, -⟩ := s.breach.outputs htlc hhtlc index hindex
  obtain rfl : output = output' := Option.some.inj (houtput.symm.trans houtput')
  rw [hvalue]
  have hclaim : .buildPackage s.tx.txid index (.revokedHTLCOutput s.breach.point s.breach.secret
      htlc.1 s.breach.fundingSpent.channelParameters (some s.height))
        (if htlc.1.offered then htlc.1.cltvExpiry else s.height) ∈
      revokedHtlcClaims s.breach.fundingSpent s.breach.point s.breach.secret s.tx s.height
        s.breach.htlcs := by
    rw [revokedHtlcClaims, s.breach.matchingHtlcs_eq]
    exact mem_filterMap.mpr ⟨htlc, hhtlc, Option.map_eq_some_iff.mpr ⟨index, hindex, rfl⟩⟩
  exact claimed_of_mem_claims hrun (mem_append_right _ hclaim) rfl

end

end Scenario

/-- **A revoked commitment is punished exactly if** every HTLC transaction that spends it is seen
when the monitor's current funding has the channel parameters of the funding that the commitment
spends. -/
theorem punished_iff (s : Scenario crypto) {final : ChannelMonitorImpl}
    (h : connectBlocks crypto s.monitor s.blocks = .ok final) :
    ∃ log, Run crypto s.phase log final ∧
      (s.Punished final ↔ ∀ sight ∈ log, ∀ index output, s.HtlcOutput sight.tx index output →
        sight.monitor.funding.channelParameters = s.breach.fundingSpent.channelParameters) := by
  obtain ⟨log, hrun⟩ := s.exists_run h
  refine ⟨log, hrun, fun hpunished sight hsight index output houtput => ?_, fun hparameters => ?_⟩
  · obtain ⟨height, hrequests⟩ := Scenario.requestsFor_htlcOutput hrun hsight houtput
    obtain ⟨input, hinput, hspends, -⟩ := houtput.input
    have hmem : ∃ input ∈ sight.tx.input, s.Spends input := ⟨input, mem_of_getElem? hinput, hspends⟩
    obtain ⟨hother, -⟩ := Scenario.hunting_of_spends hrun hsight hmem
    obtain ⟨claim, data, hclaim, hinputs, hdata⟩ :=
      hpunished.htlcTransactions sight.tx hother index output houtput
    -- both are the one claim that is requested
    obtain rfl := (List.cons.inj (hrequests.symm.trans hclaim)).1
    obtain rfl := (Prod.mk.inj (List.cons.inj hinputs).1).2
    exact (Prod.mk.inj (Prod.mk.inj (Option.some.inj hdata)).2).2
  · refine ⟨fun index output => Scenario.claimed_delayed hrun,
      fun htlc hhtlc index output => Scenario.claimed_htlc hrun hhtlc,
      fun other hother index output houtput => ?_⟩
    obtain ⟨input, hinput, hspends, -⟩ := houtput.input
    obtain ⟨c1, picked, log', rfl, htrack, hrun', hpicked⟩ := Scenario.exists_onTrack hrun
    have hmem : ∃ input ∈ other.input, s.Spends input := ⟨input, mem_of_getElem? hinput, hspends⟩
    obtain ⟨sight, hsight, rfl⟩ := (htrack.run hrun').2 other (hpicked other hother hmem) hmem
    have hlog := mem_cons_of_mem ⟨s.seen.monitor, s.height, s.tx⟩ hsight
    obtain ⟨height, hrequests⟩ := Scenario.requestsFor_htlcOutput hrun hlog houtput
    refine ⟨_, _, hrequests, rfl, ?_⟩
    rw [hparameters sight hlog index output houtput]
    rfl

/-! ### A breach on a splice -/

/-- Secrets that are their own hashes, and all of the same point. -/
def breachCrypto : Crypto where
  sha256 := id
  pointOfSecret _ := some default
  counterpartyRevokeableScript _ := [1]
  holderRevokeableScript _ := []
  fundingScript _ := []

/-- The parameters of a channel whose funding transaction has an id; the first one is 1. -/
def breachParameters (txid : Txid) : ChannelTransactionParameters :=
  { (default : ChannelTransactionParameters) with
    fundingOutpoint := ⟨txid, 0⟩
    spliceParentFundingTxid := if txid = 1 then none else some 1 }

def breachHtlc : HTLCOutputInCommitment := ⟨true, 1000000, 500, default, some 1⟩

def breachFunding (txid : Txid) : FundingScope where
  channelParameters := breachParameters txid
  currentCounterpartyCommitmentTxid := none
  prevCounterpartyCommitmentTxid := none
  counterpartyClaimableOutpoints :=
    (∅ : Map Txid CommitmentHtlcs).insert (10 * txid) [(breachHtlc, none)]
  currentHolderCommitmentTx := default
  prevHolderCommitmentTx := none

def breachSecrets : CounterpartyCommitmentSecrets where
  oldSecrets := Function.update CounterpartyCommitmentSecrets.new.oldSecrets
    (CounterpartyCommitmentSecrets.placeSecret (2 ^ 48 - 1)) (Vector.replicate 32 7, 2 ^ 48 - 1)

theorem holds_breachSecrets : CounterpartyCommitmentSecrets.Holds id (2 ^ 48 - 1)
    (Function.update (fun _ => default) (2 ^ 48 - 1) (Vector.replicate 32 7)) breachSecrets := by
  have hnew : CounterpartyCommitmentSecrets.Holds id (2 ^ 48 - 1 + 1) (fun _ => default) .new :=
    CounterpartyCommitmentSecrets.holds_new id _
  exact hnew.provideSecret (hnew.provideSecret_eq_ok.mpr ⟨by decide +kernel, rfl⟩)

variable (promoted : Bool)

/-- A monitor of a channel with a confirmed splice, which has become the current funding or not. -/
def breachMonitor : ChannelMonitorImpl :=
  { ChannelMonitorImpl.new breachCrypto none 144 144 [2] [3] (breachParameters 1) 0 default
      ⟨0, 100⟩ false with
    funding := breachFunding (if promoted then 2 else 1)
    pendingFunding := if promoted then [] else [breachFunding 2]
    alternativeFundingConfirmed := if promoted then none else some (2, 100)
    outputsToWatch := (∅ : Map Txid (List (ℕ × Script))).insert 2 [(0, [])]
    commitmentSecrets := breachSecrets }

def breachCommitment : Transaction where
  txid := 20
  lockTime := 0x20000000
  input := [⟨⟨2, 0⟩, 0x80000000, []⟩]
  output := [⟨5000, [1]⟩, ⟨1000, [4]⟩]

def breachHtlcTx : Transaction where
  txid := 21
  lockTime := 500
  input := [⟨⟨20, 1⟩, 0, [[], [], [], [], List.replicate 133 0]⟩]
  output := [⟨900, [1]⟩]

def breachScenario : Scenario breachCrypto where
  monitor := breachMonitor promoted
  blockHash := 1
  height := 101
  before := []
  tx := breachCommitment
  after := [breachHtlcTx]
  later := []
  seen := (breachMonitor promoted).startConfirmation [breachCommitment, breachHtlcTx]
  reached := rfl
  breach :=
    { fundingSpent := breachFunding 2
      input := ⟨⟨2, 0⟩, 0x80000000, []⟩
      htlcs := [(breachHtlc, none)]
      secrets := Function.update (fun _ => default) (2 ^ 48 - 1) (Vector.replicate 32 7)
      lastRevealed := 2 ^ 48 - 1
      point := default
      confirmed := by cases promoted <;> rfl
      input_eq := rfl
      spends := rfl
      commitment := by decide +kernel
      counterparty := by decide +kernel
      parent := by cases promoted <;> decide +kernel
      holds := holds_breachSecrets
      revoked := by cases promoted <;> decide +kernel
      point_eq := rfl
      recorded := by decide +kernel
      outputs := by
        rintro _ (_ | ⟨_, ⟨⟩⟩) index hindex
        cases hindex
        exact ⟨_, rfl, rfl, by decide⟩
      distinct := by decide +kernel }
  watched := by cases promoted <;> decide +kernel
  distinct := by decide +kernel
  fresh := by
    intro other hother
    constructor
    · unfold Known
      revert other
      cases promoted <;> decide +kernel
    · unfold Foreign
      revert other
      cases promoted <;> decide +kernel
    · cases promoted <;> exact nofun
  unspent := by cases promoted <;> decide +kernel

theorem exists_requestsFor_breachHtlcTx : ∃ final,
    connectBlocks breachCrypto (breachScenario promoted).monitor (breachScenario promoted).blocks =
      .ok final ∧
    requestsFor ⟨21, 0⟩ final.claimRequests =
      [.buildPackage 21 0 (.revokedOutput default (Vector.replicate 32 7) 900
        (breachParameters (if promoted then 2 else 1)) (some 101)) 245] := by
  have hmap : (connectBlocks breachCrypto (breachScenario promoted).monitor
      (breachScenario promoted).blocks).map (fun final => requestsFor ⟨21, 0⟩ final.claimRequests) =
      .ok [.buildPackage 21 0 (.revokedOutput default (Vector.replicate 32 7) 900
        (breachParameters (if promoted then 2 else 1)) (some 101)) 245] := by
    cases promoted <;> decide +kernel
  exact map_eq_ok.mp hmap

/-- **The breach of a splice is not punished:** the output of the HTLC transaction is claimed with
the parameters of the funding that was spliced. -/
theorem spliced_breach : ∃ final,
    connectBlocks breachCrypto (breachScenario false).monitor (breachScenario false).blocks =
      .ok final ∧ ¬ (breachScenario false).Punished final := by
  obtain ⟨final, hfinal, hrequests⟩ := exists_requestsFor_breachHtlcTx false
  refine ⟨final, hfinal, fun hpunished => ?_⟩
  obtain ⟨claim, data, hclaim, hinputs, hdata⟩ := hpunished.htlcTransactions breachHtlcTx
    mem_cons_self 0 ⟨900, [1]⟩ ⟨rfl, _, rfl, rfl, rfl⟩
  obtain rfl := (List.cons.inj (hrequests.symm.trans hclaim)).1
  obtain rfl := (Prod.mk.inj (List.cons.inj hinputs).1).2
  have hparameters := (Prod.mk.inj (Prod.mk.inj (Option.some.inj hdata)).2).2
  exact absurd hparameters (by decide)

/-- The breach is punished once the splice is the current funding. -/
theorem punished_iff_promoted : ∃ final,
    connectBlocks breachCrypto (breachScenario true).monitor (breachScenario true).blocks =
      .ok final ∧ (breachScenario true).Punished final := by
  obtain ⟨final, hfinal, -⟩ := exists_requestsFor_breachHtlcTx true
  obtain ⟨log, hrun, hiff⟩ := punished_iff (breachScenario true) hfinal
  refine ⟨final, hfinal, hiff.mpr fun sight hsight index output houtput => ?_⟩
  obtain ⟨input, hinput, hspends, -⟩ := houtput.input
  obtain ⟨-, hhunting, -⟩ := Scenario.hunting_of_spends hrun hsight
    ⟨input, mem_of_getElem? hinput, hspends⟩
  have hfunding : sight.monitor.funding = breachFunding 2 :=
    mem_singleton.mp (hhunting.fundings _ mem_cons_self)
  rw [hfunding]
  rfl

end PqLightning.Monitor
