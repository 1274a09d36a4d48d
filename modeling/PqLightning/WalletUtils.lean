import PqLightning.InteractiveTx.Context
import PqLightning.Lib.AssocMap

/-!
# What coin selection reserves

`Wallet::select_confirmed_utxos` (`util/wallet_utils.rs`) selects UTXOs of a wallet and locks them
for a claim, so that other claims leave them alone. It makes up to four attempts. An attempt locks
what it selected and only then asks the wallet for a change script and for the previous
transactions; if one of these calls fails, the attempt fails and its locks stay.

Locks for the same claim are no obstacle to a later attempt, so what an attempt picks depends on the
locks before the call only. Locks without a claim are one, and then a failed attempt already decides
that too much is reserved.

The wallet may answer each call differently or not at all, so it is told the number of the attempt
and of the call. The order in which the sort leaves UTXOs of equal worth is open. Amounts and
weights are taken not to overflow.
-/

namespace PqLightning.WalletUtils

open AssocMap List InteractiveTx

variable {Script ClaimId : Type}

structure Utxo where
  outpoint : OutPoint
  (value satisfactionWeight : ℕ)

def Utxo.inputWeight (self : Utxo) : ℕ := baseInputWeight + self.satisfactionWeight

/-- An input that has to be spent. -/
structure Input where
  (value satisfactionWeight : ℕ)

/-- An output that has to be paid; of its script only the length is read. -/
structure Output where
  (value scriptLen : ℕ)

structure WalletSource (Script : Type) where
  listConfirmedUtxos : Option (List Utxo)
  getChangeScript (attempt : ℕ) : Option Script
  getPrevtx (attempt call : ℕ) (outpoint : OutPoint) : Option (PrevTx Script)

/-- A call of `select_confirmed_utxos`, and the wallet that it is made to. -/
structure Call (Script ClaimId : Type) where
  rules : BitcoinRules Script
  source : WalletSource Script
  sortUnstableByKey : (Utxo × ℕ → ℕ) → List (Utxo × ℕ) → List (Utxo × ℕ)
  sort_perm : ∀ key utxos, sortUnstableByKey key utxos ~ utxos
  claimId : Option ClaimId
  mustSpend : List Input
  mustPayTo : List Output
  (targetFeerate maxTxWeight : ℕ)

structure CoinSelection (Script : Type) where
  confirmedUtxos : List (Utxo × PrevTx Script)
  changeOutput : Option (TxOut Script)

def selectedOutpoints : Option (CoinSelection Script) → List OutPoint
  | some selection => selection.confirmedUtxos.map (·.1.outpoint)
  | none => []

/-- `locked_utxos`: the claim for which a UTXO is locked, if there is one. -/
abbrev LockedUtxos (ClaimId : Type) : Type := Map OutPoint (Option ClaimId)

/-- The UTXOs selected so far, each with the fee to spend it. -/
structure Selected where
  (amount fees weight : ℕ)
  utxos : List (Utxo × ℕ)

def Selected.outpoints (self : Selected) : List OutPoint := self.utxos.map (·.1.outpoint)

/-- Removes UTXOs from the front as long as `p` says so. -/
def popWhile (p : ℕ → ℕ → ℕ → Utxo × ℕ → Bool) (amount fees weight : ℕ) :
    List (Utxo × ℕ) → Selected
  | [] => ⟨amount, fees, weight, []⟩
  | front :: rest =>
    if p amount fees weight front then
      popWhile p (amount - front.1.value) (fees - front.2) (weight - front.1.inputWeight) rest
    else ⟨amount, fees, weight, front :: rest⟩

theorem popWhile_subset (p : ℕ → ℕ → ℕ → Utxo × ℕ → Bool) (amount fees weight : ℕ)
    (utxos : List (Utxo × ℕ)) : (popWhile p amount fees weight utxos).utxos ⊆ utxos := by
  induction utxos generalizing amount fees weight with
  | nil => exact Subset.refl _
  | cons front rest ih =>
    rw [popWhile]
    split
    · exact subset_cons_of_subset _ (ih _ _ _)
    · exact Subset.refl _

def lockUtxos (claimId : Option ClaimId) (selected : Selected) (locked : LockedUtxos ClaimId) :
    LockedUtxos ClaimId :=
  selected.outpoints.foldl (fun locked outpoint => locked.insert outpoint claimId) locked

theorem lookup_lockUtxos {locked : LockedUtxos ClaimId} (claimId : Option ClaimId)
    (selected : Selected) (outpoint : OutPoint) :
    (lockUtxos claimId selected locked).lookup outpoint =
      if outpoint ∈ selected.outpoints then some claimId else locked.lookup outpoint := by
  rw [lockUtxos]
  induction selected.outpoints generalizing locked with
  | nil => rfl
  | cons first rest ih =>
    rw [foldl_cons, ih]
    by_cases heq : outpoint = first
    · subst heq
      simp
    · simp [heq, AList.lookup_insert_ne heq]

def confirmUtxos (source : WalletSource Script) (attempt call : ℕ) :
    List (Utxo × ℕ) → Option (List (Utxo × PrevTx Script))
  | [] => some []
  | (utxo, _) :: rest => do
    let prevtx ← source.getPrevtx attempt call utxo.outpoint
    if prevtx.computeTxid ≠ utxo.outpoint.txid ∨ prevtx.output.length ≤ utxo.outpoint.vout then none
    else return (utxo, prevtx) :: (← confirmUtxos source attempt (call + 1) rest)

/-- The wallet has the transaction that a UTXO is an output of. -/
def WalletSource.Confirms (source : WalletSource Script) (attempt call : ℕ) (utxo : Utxo) : Prop :=
  ∃ prevtx, source.getPrevtx attempt call utxo.outpoint = some prevtx ∧
    prevtx.computeTxid = utxo.outpoint.txid ∧ utxo.outpoint.vout < prevtx.output.length

/-- The wallet answers what an attempt asks: it has a change script and, one call after the other,
the transactions of the UTXOs. -/
def WalletSource.Answers (source : WalletSource Script) (attempt : ℕ) (utxos : List (Utxo × ℕ)) :
    Prop :=
  (source.getChangeScript attempt).isSome ∧
    ∀ entry ∈ utxos.zipIdx, source.Confirms attempt entry.2 entry.1.1

theorem isSome_confirmUtxos {source : WalletSource Script} {attempt call : ℕ}
    {utxos : List (Utxo × ℕ)} : (confirmUtxos source attempt call utxos).isSome ↔
      ∀ entry ∈ utxos.zipIdx call, source.Confirms attempt entry.2 entry.1.1 := by
  induction utxos generalizing call with
  | nil => simp [confirmUtxos]
  | cons entry utxos ih =>
    rw [zipIdx_cons, forall_mem_cons, ← ih, confirmUtxos]
    cases hprevtx : source.getPrevtx attempt call entry.1.outpoint with
    | none => simp [WalletSource.Confirms, hprevtx]
    | some prevtx =>
      rw [Option.bind_eq_bind, Option.bind_some]
      split
      next hbad =>
        refine ⟨nofun, ?_⟩
        rintro ⟨⟨prevtx', hprevtx', htxid, hvout⟩, -⟩
        cases hprevtx.symm.trans hprevtx'
        exact absurd hbad (by rw [not_or, not_not, Nat.not_le]; exact ⟨htxid, hvout⟩)
      next hgood =>
        rw [not_or, not_not, Nat.not_le] at hgood
        cases confirmUtxos source attempt (call + 1) utxos <;>
          simp [WalletSource.Confirms, hprevtx, hgood]

theorem map_confirmUtxos {source : WalletSource Script} {attempt call : ℕ}
    {utxos : List (Utxo × ℕ)} {confirmed : List (Utxo × PrevTx Script)}
    (h : confirmUtxos source attempt call utxos = some confirmed) :
    confirmed.map (·.1.outpoint) = utxos.map (·.1.outpoint) := by
  induction utxos generalizing call confirmed with
  | nil => cases h; rfl
  | cons entry utxos ih =>
    obtain ⟨prevtx, -, h⟩ := Option.bind_eq_some_iff.mp h
    split at h
    · cases h
    · obtain ⟨rest, hrest, h⟩ := Option.bind_eq_some_iff.mp h
      cases h
      rw [map_cons, map_cons, ih hrest]

namespace Call

variable (self : Call Script ClaimId)

/-! ### One attempt -/

def preexistingTxWeight : ℕ :=
  segwitMarkerFlagWeight +
    (baseInputWeight * self.mustSpend.length + (self.mustSpend.map (·.satisfactionWeight)).sum) +
    (10 + (self.mustPayTo.map fun output => 8 + 1 + output.scriptLen).sum) * 4

def targetAmount : ℕ := (self.mustPayTo.map (·.value)).sum

/-- The second half of an attempt, after the locks are taken. -/
def completeSelection (attempt : ℕ) (selected : Selected) : Option (CoinSelection Script) := do
  let changeScript ← self.source.getChangeScript attempt
  let changeOutputFee := feeForWeight self.targetFeerate (getOutputWeight self.rules changeScript)
  let changeOutputAmount := selected.amount - self.targetAmount - selected.fees - changeOutputFee
  let changeOutput := if changeOutputAmount < self.rules.minimalNonDust changeScript then none
    else some ⟨changeOutputAmount, changeScript⟩
  return ⟨← confirmUtxos self.source attempt 0 selected.utxos, changeOutput⟩

theorem isSome_completeSelection {attempt : ℕ} {selected : Selected} :
    (self.completeSelection attempt selected).isSome ↔ self.source.Answers attempt
      selected.utxos := by
  rw [completeSelection, WalletSource.Answers, ← isSome_confirmUtxos]
  cases self.source.getChangeScript attempt with
  | none => simp
  | some script => cases confirmUtxos self.source attempt 0 selected.utxos <;> simp

variable {self} in
theorem outpoints_of_completeSelection {attempt : ℕ} {selected : Selected}
    {selection : CoinSelection Script} (h : self.completeSelection attempt selected =
      some selection) :
    selectedOutpoints (some selection) = selected.outpoints := by
  obtain ⟨_, -, h⟩ := Option.bind_eq_some_iff.mp h
  obtain ⟨confirmed, hconfirmed, h⟩ := Option.bind_eq_some_iff.mp h
  cases h
  exact map_confirmUtxos hconfirmed

variable [DecidableEq ClaimId]

def conflicts (locked : LockedUtxos ClaimId) (force : Bool) (outpoint : OutPoint) : Bool :=
  match locked.lookup outpoint with
  | some claimId => claimId.isNone || self.claimId.isNone || claimId ≠ self.claimId && !force
  | none => false

/-- A UTXO with the fee to spend it, unless it is locked for another claim or not worth the fee. -/
def eligible (locked : LockedUtxos ClaimId) (force tolerate : Bool) (utxo : Utxo) :
    Option (Utxo × ℕ) :=
  let fee := feeForWeight self.targetFeerate utxo.inputWeight
  if self.conflicts locked force utxo.outpoint then none
  else if if tolerate then fee < utxo.value else fee * 2 ≤ utxo.value then some (utxo, fee)
  else none

/-- The loop over the eligible UTXOs. One that would make the selection too heavy takes the place of
those in front. -/
def addUtxos (maxWeight : ℕ) (selected : Selected) : List (Utxo × ℕ) → Selected
  | [] => selected
  | (utxo, fee) :: rest =>
    if self.targetAmount + selected.fees ≤ selected.amount then selected
    else if maxWeight < utxo.inputWeight then addUtxos maxWeight selected rest
    else
      let kept := popWhile (fun _ _ weight _ => maxWeight < weight + utxo.inputWeight)
        selected.amount selected.fees selected.weight selected.utxos
      addUtxos maxWeight
        ⟨kept.amount + utxo.value, kept.fees + fee, kept.weight + utxo.inputWeight,
          kept.utxos ++ [(utxo, fee)]⟩ rest

/-- What an attempt selects: the smallest UTXOs that suffice, without those in front that are not
needed in the end. -/
def selectUtxos (utxos : List Utxo) (locked : LockedUtxos ClaimId) (force tolerate : Bool) :
    Option Selected :=
  let reserved := self.preexistingTxWeight + (8 + 1 + 34) * 4
  if self.maxTxWeight < reserved then none
  else
    let eligibleUtxos := self.sortUnstableByKey (fun entry => entry.1.value - entry.2)
      (utxos.filterMap (self.eligible locked force tolerate))
    let selected := self.addUtxos (self.maxTxWeight - reserved)
      ⟨(self.mustSpend.map (·.value)).sum, feeForWeight self.targetFeerate self.preexistingTxWeight,
        0, []⟩ eligibleUtxos
    if selected.amount < self.targetAmount + selected.fees then none
    else some (popWhile
      (fun amount fees _ front => self.targetAmount + fees - front.2 ≤ amount - front.1.value)
      selected.amount selected.fees selected.weight selected.utxos)

def selectConfirmedUtxosInternal (utxos : List Utxo) (attempt : ℕ) (force tolerate : Bool)
    (locked : LockedUtxos ClaimId) : LockedUtxos ClaimId × Option (CoinSelection Script) :=
  match self.selectUtxos utxos locked force tolerate with
  | none => (locked, none)
  | some selected =>
    (lockUtxos self.claimId selected locked, self.completeSelection attempt selected)

/-! ### All attempts -/

def attempts (utxos : List Utxo) : List (Bool × Bool) → ℕ → LockedUtxos ClaimId →
    LockedUtxos ClaimId × Option (CoinSelection Script)
  | [], _, locked => (locked, none)
  | (force, tolerate) :: configs, attempt, locked =>
    if self.claimId.isNone && force then attempts utxos configs attempt locked
    else match self.selectConfirmedUtxosInternal utxos attempt force tolerate locked with
      | (locked, some selection) => (locked, some selection)
      | (locked, none) => attempts utxos configs (attempt + 1) locked

def configs : List (Bool × Bool) := [(false, false), (false, true), (true, false), (true, true)]

/-- The attempts that are made, if none succeeds. -/
def rounds : List (Bool × Bool) := configs.filter fun config => !(self.claimId.isNone && config.1)

theorem attempts_rounds (utxos : List Utxo) (locked : LockedUtxos ClaimId) :
    self.attempts utxos configs 0 locked = self.attempts utxos self.rounds 0 locked := by
  cases hclaim : self.claimId with
  | none => simp [configs, rounds, attempts, hclaim]
  | some claimId => simp [configs, rounds, hclaim]

def selectConfirmedUtxos (locked : LockedUtxos ClaimId) :
    LockedUtxos ClaimId × Option (CoinSelection Script) :=
  match self.source.listConfirmedUtxos with
  | none => (locked, none)
  | some utxos => self.attempts utxos configs 0 locked

/-- The only change of the locks is that the selected UTXOs are locked for the claim. -/
def ReservesOnly (locked : LockedUtxos ClaimId)
    (result : LockedUtxos ClaimId × Option (CoinSelection Script)) : Prop :=
  ∀ outpoint, result.1.lookup outpoint =
    if outpoint ∈ selectedOutpoints result.2 then some self.claimId else locked.lookup outpoint

/-! ### What an attempt picks -/

variable {self} {locked locked' : LockedUtxos ClaimId} {utxos : List Utxo} {force tolerate : Bool}
  {selected : Selected} {outpoint : OutPoint}

omit [DecidableEq ClaimId] in
theorem addUtxos_subset (maxWeight : ℕ) (selected : Selected) (eligible : List (Utxo × ℕ)) :
    (self.addUtxos maxWeight selected eligible).utxos ⊆ selected.utxos ++ eligible := by
  induction eligible generalizing selected with
  | nil => simp [addUtxos]
  | cons entry rest ih =>
    rw [addUtxos]
    split
    · exact subset_append_left _ _
    · split
      · exact List.Subset.trans (ih _) (append_subset.mpr ⟨subset_append_left _ _,
          subset_append_of_subset_right _ (subset_cons_self _ _)⟩)
      · refine List.Subset.trans (ih _) ?_
        rw [append_assoc, singleton_append]
        exact append_subset.mpr ⟨subset_append_of_subset_left _ (popWhile_subset ..),
          subset_append_right _ _⟩

/-- What is picked is listed and is not locked for another claim. -/
theorem picked_of_selectUtxos (h : self.selectUtxos utxos locked force tolerate = some selected)
    {entry : Utxo × ℕ} (hmem : entry ∈ selected.utxos) :
    entry.1 ∈ utxos ∧ self.conflicts locked force entry.1.outpoint = false := by
  rw [selectUtxos] at h
  split at h
  · cases h
  dsimp only at h
  split at h
  · cases h
  cases h
  have hsorted := addUtxos_subset _ _ _ (popWhile_subset _ _ _ _ _ hmem)
  rw [nil_append, (self.sort_perm _ _).mem_iff] at hsorted
  obtain ⟨utxo, hutxo, heligible⟩ := mem_filterMap.mp hsorted
  simp only [eligible] at heligible
  split at heligible
  · cases heligible
  next hfree =>
    obtain ⟨-, hentry⟩ := Option.ite_none_right_eq_some.mp heligible
    cases hentry
    exact ⟨hutxo, Bool.not_eq_true _ ▸ hfree⟩

theorem free_of_selectUtxos (h : self.selectUtxos utxos locked force tolerate = some selected)
    (hmem : outpoint ∈ selected.outpoints) : self.conflicts locked force outpoint = false := by
  obtain ⟨entry, hentry, rfl⟩ := mem_map.mp hmem
  exact (picked_of_selectUtxos h hentry).2

theorem lookup_eq_none_of_free (hclaim : self.claimId = none)
    (hfree : self.conflicts locked force outpoint = false) : locked.lookup outpoint = none := by
  rw [conflicts, hclaim] at hfree
  cases hlocked : locked.lookup outpoint with
  | none => rfl
  | some other => simp [hlocked] at hfree

theorem selectUtxos_congr
    (h : ∀ outpoint, self.conflicts locked' force outpoint = self.conflicts locked force outpoint) :
    self.selectUtxos utxos locked' force tolerate = self.selectUtxos utxos locked force
      tolerate := by
  have heligible : self.eligible locked' force tolerate = self.eligible locked force tolerate :=
    funext fun utxo => by simp only [eligible, h]
  simp only [selectUtxos, heligible]

/-- A failed attempt leaves the later ones what it left to itself, if there is a claim. -/
theorem conflicts_lockUtxos (h : self.selectUtxos utxos locked' force tolerate = some selected)
    (hclaim : self.claimId.isSome ∨ selected.outpoints = []) {force' : Bool}
    (hforce : force = true → force' = true) (outpoint : OutPoint) :
    self.conflicts (lockUtxos self.claimId selected locked') force' outpoint =
      self.conflicts locked' force' outpoint := by
  by_cases hmem : outpoint ∈ selected.outpoints
  · have hfree := free_of_selectUtxos h hmem
    obtain ⟨claimId, hclaim⟩ := Option.isSome_iff_exists.mp
      (hclaim.resolve_right fun hnil => absurd hmem (hnil ▸ not_mem_nil))
    rw [conflicts, lookup_lockUtxos, if_pos hmem]
    rw [conflicts] at hfree ⊢
    cases hlocked : locked'.lookup outpoint with
    | none => simp [hclaim]
    | some other =>
      rw [hlocked] at hfree
      cases force <;> simp_all
  · rw [conflicts, lookup_lockUtxos, if_neg hmem, conflicts]

/-! ### What is locked in the end -/

variable (self locked utxos) in
/-- What the attempts pick for the locks before the call, up to the first that the wallet answers:
that one, or those before it. -/
inductive Picked (answered : Bool) : List (Bool × Bool) → ℕ → Selected → Prop
  | here {config : Bool × Bool} {configs : List (Bool × Bool)} {attempt : ℕ} {selected : Selected}
    (picks : self.selectUtxos utxos locked config.1 config.2 = some selected)
    (answers : answered = true ↔ self.source.Answers attempt selected.utxos) :
    Picked answered (config :: configs) attempt selected
  | later {config : Bool × Bool} {configs : List (Bool × Bool)} {attempt : ℕ} {selected : Selected}
    (unanswered : ∀ selected, self.selectUtxos utxos locked config.1 config.2 = some selected →
      ¬ self.source.Answers attempt selected.utxos)
    (rest : Picked answered configs (attempt + 1) selected) :
    Picked answered (config :: configs) attempt selected

variable {config : Bool × Bool} {configs : List (Bool × Bool)} {attempt : ℕ} {answered : Bool}

theorem picked_cons (hnone : ∀ selected, self.selectUtxos utxos locked config.1 config.2 =
      some selected → ¬ self.source.Answers attempt selected.utxos) :
    self.Picked locked utxos answered (config :: configs) attempt selected ↔
      answered = false ∧ self.selectUtxos utxos locked config.1 config.2 = some selected ∨
        self.Picked locked utxos answered configs (attempt + 1) selected := by
  constructor
  · rintro (⟨hpicks, hanswers⟩ | ⟨-, hrest⟩)
    · exact .inl ⟨Bool.not_eq_true _ ▸ mt hanswers.mp (hnone _ hpicks), hpicks⟩
    · exact .inr hrest
  · rintro (⟨rfl, hpicks⟩ | hrest)
    · exact .here hpicks ⟨nofun, fun h => absurd h (hnone _ hpicks)⟩
    · exact .later hnone hrest

theorem picked_cons_of_answers (hpicks : self.selectUtxos utxos locked config.1 config.2 =
    some selected)
    (hanswers : self.source.Answers attempt selected.utxos) {selected' : Selected} :
    self.Picked locked utxos answered (config :: configs) attempt selected' ↔
      answered = true ∧ selected' = selected := by
  constructor
  · rintro (⟨hpicks', hanswers'⟩ | ⟨hnone, -⟩)
    · cases hpicks.symm.trans hpicks'
      exact ⟨hanswers'.mpr hanswers, rfl⟩
    · exact absurd hanswers (hnone _ hpicks)
  · rintro ⟨rfl, rfl⟩
    exact .here hpicks (iff_of_true rfl hanswers)

open Classical in
/-- **The locks in the end**, and what is selected, by what the attempts pick for the locks before
the call. -/
theorem lookup_attempts (attempt : ℕ)
    (hmade : ∀ config ∈ configs, (self.claimId.isNone && config.1) = false)
    (hordered : configs.Pairwise fun config config' => config.1 = true → config'.1 = true)
    (hclaim : ∀ selected, self.Picked locked utxos false configs attempt selected →
      self.claimId.isSome ∨ selected.outpoints = [])
    (hsame : ∀ config ∈ configs, ∀ outpoint,
      self.conflicts locked' config.1 outpoint = self.conflicts locked config.1 outpoint)
    (outpoint : OutPoint) :
    (outpoint ∈ selectedOutpoints (self.attempts utxos configs attempt locked').2 ↔
      ∃ selected, self.Picked locked utxos true configs attempt selected ∧
        outpoint ∈ selected.outpoints) ∧
    (self.attempts utxos configs attempt locked').1.lookup outpoint =
      if ∃ answered selected, self.Picked locked utxos answered configs attempt selected ∧
        outpoint ∈ selected.outpoints
      then some self.claimId else locked'.lookup outpoint := by
  induction configs generalizing attempt locked' with
  | nil =>
    have hnil : ∀ answered selected, ¬ self.Picked locked utxos answered [] attempt selected :=
      nofun
    simp [attempts, selectedOutpoints, hnil]
  | cons config configs ih =>
    have hmade' := fun config hmem => hmade config (mem_cons_of_mem _ hmem)
    have hsame' := fun config hmem => hsame config (mem_cons_of_mem _ hmem)
    have hcongr : self.selectUtxos utxos locked' config.1 config.2 =
        self.selectUtxos utxos locked config.1 config.2 :=
      selectUtxos_congr (hsame config mem_cons_self)
    rw [attempts, if_neg (by rw [hmade config mem_cons_self]; exact Bool.false_ne_true),
      selectConfirmedUtxosInternal, hcongr]
    cases hpicks : self.selectUtxos utxos locked config.1 config.2 with
    | none =>
      have hnone : ∀ selected, self.selectUtxos utxos locked config.1 config.2 = some selected →
          ¬ self.source.Answers attempt selected.utxos :=
            fun _ h => absurd (hpicks.symm.trans h) nofun
      simp only [picked_cons hnone, hpicks, reduceCtorEq, and_false, false_or] at hclaim ⊢
      exact ih (attempt + 1) hmade' hordered.of_cons hclaim hsame'
    | some selected =>
      cases hcomplete : self.completeSelection attempt selected with
      | some selection =>
        have hanswers := self.isSome_completeSelection.mp (by rw [hcomplete]; rfl)
        simp only [hcomplete, picked_cons_of_answers hpicks hanswers,
          outpoints_of_completeSelection hcomplete, lookup_lockUtxos]
        simp
      | none =>
        have hnone : ∀ selected, self.selectUtxos utxos locked config.1 config.2 = some selected →
            ¬ self.source.Answers attempt selected.utxos := by
          intro _ h hanswers
          cases hpicks.symm.trans h
          rw [← isSome_completeSelection, hcomplete] at hanswers
          cases hanswers
        simp only [picked_cons hnone, hpicks] at hclaim
        have hlocks := fun config' hmem outpoint =>
          (conflicts_lockUtxos (hcongr.trans hpicks) (hclaim selected (.inl ⟨trivial, rfl⟩))
            (rel_of_pairwise_cons hordered hmem) outpoint).trans (hsame' config' hmem outpoint)
        obtain ⟨hselected, hlookup⟩ := ih (attempt + 1) hmade' hordered.of_cons
          (fun _ h => hclaim _ (.inr h)) hlocks
        simp only [hcomplete, picked_cons hnone, hpicks, hselected, hlookup, lookup_lockUtxos]
        refine ⟨by simp, ?_⟩
        by_cases hmem : outpoint ∈ selected.outpoints
        · rw [if_pos hmem, ite_self, if_pos ⟨false, selected, .inl ⟨rfl, rfl⟩, hmem⟩]
        · have hother : ∀ answered selected', ((answered = false ∧ some selected = some selected') ∨
              self.Picked locked utxos answered configs (attempt + 1) selected') ∧
                outpoint ∈ selected'.outpoints ↔
              self.Picked locked utxos answered configs (attempt + 1) selected' ∧
                outpoint ∈ selected'.outpoints := by
            refine fun answered selected' => and_congr_left fun hmem' => or_iff_right ?_
            rintro ⟨-, heq⟩
            exact hmem (Option.some.inj heq ▸ hmem')
          simp only [if_neg hmem, hother]

/-- A lock without a claim stays, and its UTXO is not selected. -/
theorem attempts_of_locked (configs : List (Bool × Bool)) (attempt : ℕ)
    {locked : LockedUtxos ClaimId} (hlocked : locked.lookup outpoint = some none) :
    (self.attempts utxos configs attempt locked).1.lookup outpoint = some none ∧
      outpoint ∉ selectedOutpoints (self.attempts utxos configs attempt locked).2 := by
  induction configs generalizing attempt locked with
  | nil => exact ⟨hlocked, not_mem_nil⟩
  | cons config configs ih =>
    rw [attempts]
    split
    · exact ih attempt hlocked
    rw [selectConfirmedUtxosInternal]
    cases hpicks : self.selectUtxos utxos locked config.1 config.2 with
    | none => exact ih _ hlocked
    | some selected =>
      have hfree : outpoint ∉ selected.outpoints := fun hmem => by
        have := free_of_selectUtxos hpicks hmem
        simp [conflicts, hlocked] at this
      have hlocked' : (lockUtxos self.claimId selected locked).lookup outpoint = some none := by
        rw [lookup_lockUtxos, if_neg hfree, hlocked]
      cases hcomplete : self.completeSelection attempt selected with
      | some selection =>
        simpa only [hcomplete, outpoints_of_completeSelection hcomplete] using ⟨hlocked', hfree⟩
      | none => simpa only [hcomplete] using ih _ hlocked'

theorem attempts_cons_of_unanswered (hmade : (self.claimId.isNone && config.1) = false)
    (hpicks : self.selectUtxos utxos locked config.1 config.2 = some selected)
    (hunanswered : ¬ self.source.Answers attempt selected.utxos) :
    self.attempts utxos (config :: configs) attempt locked =
      self.attempts utxos configs (attempt + 1) (lockUtxos self.claimId selected locked) := by
  have hnone : self.completeSelection attempt selected = none :=
    Option.not_isSome_iff_eq_none.mp (mt self.isSome_completeSelection.mp hunanswered)
  rw [attempts, if_neg (by rw [hmade]; exact Bool.false_ne_true),
    selectConfirmedUtxosInternal, hpicks]
  simp only [hnone]

/-- Without a claim, attempts that pick UTXOs and are not answered leave one of them locked. -/
theorem exists_locked_of_picked (hclaim : self.claimId = none)
    (hmade : ∀ config ∈ configs, config.1 = false)
    (h : self.Picked locked utxos false configs attempt selected) (hne : selected.outpoints ≠ []) :
    ∃ outpoint, locked.lookup outpoint = none ∧
      (self.attempts utxos configs attempt locked).1.lookup outpoint = some none ∧
      outpoint ∉ selectedOutpoints (self.attempts utxos configs attempt locked).2 := by
  have key : ∀ {config configs attempt selected}, config.1 = false →
      self.selectUtxos utxos locked config.1 config.2 = some selected →
      ¬ self.source.Answers attempt selected.utxos → selected.outpoints ≠ [] →
      ∃ outpoint, locked.lookup outpoint = none ∧
        (self.attempts utxos (config :: configs) attempt locked).1.lookup outpoint = some none ∧
        outpoint ∉ selectedOutpoints
          (self.attempts utxos (config :: configs) attempt locked).2 := by
    intro config configs attempt selected hmade hpicks hunanswered hne
    obtain ⟨outpoint, hmem⟩ := exists_mem_of_ne_nil _ hne
    rw [attempts_cons_of_unanswered (by rw [hmade, Bool.and_false]) hpicks hunanswered]
    exact ⟨outpoint, lookup_eq_none_of_free hclaim (free_of_selectUtxos hpicks hmem),
      attempts_of_locked _ _ (by rw [lookup_lockUtxos, if_pos hmem, hclaim])⟩
  induction h with
  | here hpicks hanswers =>
    exact key (hmade _ mem_cons_self) hpicks (mt hanswers.mpr Bool.false_ne_true) hne
  | @later config configs attempt selected hunanswered _ ih =>
    have ih := ih (fun config hmem => hmade config (mem_cons_of_mem _ hmem)) hne
    have hconfig := hmade config mem_cons_self
    cases hpicks : self.selectUtxos utxos locked config.1 config.2 with
    | none =>
      rw [attempts, if_neg (by simp [hconfig]), selectConfirmedUtxosInternal, hpicks]
      exact ih
    | some first =>
      by_cases hnil : first.outpoints = []
      · rw [attempts_cons_of_unanswered (by rw [hconfig, Bool.and_false]) hpicks
          (hunanswered first hpicks), lockUtxos, hnil]
        exact ih
      · exact key hconfig hpicks (hunanswered first hpicks) hnil

theorem Picked.exists_picks (h : self.Picked locked utxos answered configs attempt selected) :
    ∃ force tolerate, self.selectUtxos utxos locked force tolerate = some selected := by
  induction h with
  | here hpicks _ => exact ⟨_, _, hpicks⟩
  | later _ _ ih => exact ih

theorem Picked.exists_unanswered (h : self.Picked locked utxos false configs attempt selected) :
    ∃ number < attempt + configs.length, ¬ self.source.Answers number selected.utxos := by
  induction h with
  | here _ hanswers => exact ⟨_, by simp, mt hanswers.mpr Bool.false_ne_true⟩
  | later _ _ ih =>
    obtain ⟨number, hlt, hunanswered⟩ := ih
    exact ⟨number, by rw [length_cons]; omega, hunanswered⟩

omit [DecidableEq ClaimId] in
theorem mem_rounds {config : Bool × Bool} (h : config ∈ self.rounds) :
    (self.claimId.isNone && config.1) = false :=
  Bool.not_eq_true' _ ▸ (mem_filter.mp h).2

/-- With a claim, or where nothing is picked without an answer. -/
theorem reservesOnly_attempts_of_claim
    (hclaim : ∀ selected, self.Picked locked utxos false self.rounds 0 selected →
      self.claimId.isSome ∨ selected.outpoints = []) :
    self.ReservesOnly locked (self.attempts utxos self.rounds 0 locked) ↔
      ∀ selected, self.Picked locked utxos false self.rounds 0 selected →
        ∀ outpoint ∈ selected.outpoints, locked.lookup outpoint = some self.claimId ∨
          self.claimId.isSome ∧ ∃ selected', self.Picked locked utxos true self.rounds 0 selected' ∧
            outpoint ∈ selected'.outpoints := by
  have hordered : self.rounds.Pairwise fun config config' => config.1 = true → config'.1 = true :=
    Pairwise.filter _ (by decide)
  have hspec := lookup_attempts 0 (fun _ => mem_rounds) hordered hclaim fun _ _ _ => rfl
  constructor
  · intro hreserves selected hpicked outpoint hmem
    have houtpoint := hreserves outpoint
    rw [(hspec outpoint).2, if_pos ⟨false, selected, hpicked, hmem⟩] at houtpoint
    split at houtpoint
    next hselected =>
      have hsome := (hclaim selected hpicked).resolve_right (ne_nil_of_mem hmem)
      exact .inr ⟨hsome, (hspec outpoint).1.mp hselected⟩
    · exact .inl houtpoint.symm
  · intro hall outpoint
    rw [(hspec outpoint).2]
    by_cases hselected : outpoint ∈ selectedOutpoints (self.attempts utxos self.rounds 0 locked).2
    · obtain ⟨selected, hpicked, hmem⟩ := (hspec outpoint).1.mp hselected
      rw [if_pos hselected, if_pos ⟨true, selected, hpicked, hmem⟩]
    · rw [if_neg hselected]
      split
      next hpicked =>
        obtain ⟨answered, selected, hpicked, hmem⟩ := hpicked
        cases answered with
        | true => exact absurd ((hspec outpoint).1.mpr ⟨selected, hpicked, hmem⟩) hselected
        | false =>
          rcases hall selected hpicked outpoint hmem with hlocked | ⟨-, hanswered⟩
          · exact hlocked.symm
          · exact absurd ((hspec outpoint).1.mpr hanswered) hselected
      · rfl

theorem reservesOnly_attempts :
    self.ReservesOnly locked (self.attempts utxos self.rounds 0 locked) ↔
      ∀ selected, self.Picked locked utxos false self.rounds 0 selected →
        ∀ outpoint ∈ selected.outpoints, locked.lookup outpoint = some self.claimId ∨
          self.claimId.isSome ∧ ∃ selected', self.Picked locked utxos true self.rounds 0 selected' ∧
            outpoint ∈ selected'.outpoints := by
  by_cases hclaim : ∀ selected, self.Picked locked utxos false self.rounds 0 selected →
    self.claimId.isSome ∨ selected.outpoints = []
  · exact reservesOnly_attempts_of_claim hclaim
  -- without a claim, one UTXO too many is locked
  push Not at hclaim
  obtain ⟨selected, hpicked, hnone, hne⟩ := hclaim
  have hnone : self.claimId = none := by simpa using hnone
  have hforce : ∀ config ∈ self.rounds, config.1 = false := fun config hmem => by
    simpa [hnone] using mem_rounds hmem
  refine iff_of_false (fun hreserves => ?_) fun hall => ?_
  · obtain ⟨outpoint, hfree, hlocked, hnot⟩ := exists_locked_of_picked hnone hforce hpicked hne
    have houtpoint := hreserves outpoint
    rw [if_neg hnot, hlocked, hfree] at houtpoint
    cases houtpoint
  · obtain ⟨outpoint, hmem⟩ := exists_mem_of_ne_nil _ hne
    obtain ⟨_, _, hpicks⟩ := hpicked.exists_picks
    have hfree := lookup_eq_none_of_free hnone (free_of_selectUtxos hpicks hmem)
    rcases hall selected hpicked outpoint hmem with hlocked | ⟨hsome, -⟩
    · cases hfree.symm.trans hlocked
    · rw [hnone] at hsome
      cases hsome

/-- **Coin selection reserves what it selects and nothing else** if the wallet answers every attempt
for every UTXO that it lists. It does so exactly if every UTXO that an attempt picks without an
answer was locked for the claim before, or there is a claim and the first attempt that is answered
picks it. What attempts pick is what they pick for the locks before the call. -/
theorem reservesOnly_iff :
    ((∀ attempt < 4, (self.source.getChangeScript attempt).isSome ∧
        ∀ utxos, self.source.listConfirmedUtxos = some utxos → ∀ utxo ∈ utxos, ∀ call,
          self.source.Confirms attempt call utxo) →
      self.ReservesOnly locked (self.selectConfirmedUtxos locked)) ∧
    (self.ReservesOnly locked (self.selectConfirmedUtxos locked) ↔
      ∀ utxos, self.source.listConfirmedUtxos = some utxos →
        ∀ selected, self.Picked locked utxos false self.rounds 0 selected →
          ∀ outpoint ∈ selected.outpoints, locked.lookup outpoint = some self.claimId ∨
            self.claimId.isSome ∧ ∃ selected', self.Picked locked utxos true self.rounds 0
              selected' ∧
              outpoint ∈ selected'.outpoints) := by
  rw [selectConfirmedUtxos]
  cases self.source.listConfirmedUtxos with
  | none => simp [ReservesOnly, selectedOutpoints]
  | some utxos =>
    simp only [Option.some.injEq, forall_eq']
    rw [attempts_rounds, reservesOnly_attempts]
    refine ⟨fun hanswers selected hpicked => ?_, Iff.rfl⟩
    obtain ⟨number, hlt, hunanswered⟩ := hpicked.exists_unanswered
    obtain ⟨_, _, hpicks⟩ := hpicked.exists_picks
    have hlength : self.rounds.length ≤ 4 := length_filter_le _ configs
    obtain ⟨hscript, hconfirms⟩ := hanswers number (by omega)
    refine absurd ⟨hscript, fun entry hmem => ?_⟩ hunanswered
    exact hconfirms _ (picked_of_selectUtxos hpicks (fst_mem_of_mem_zipIdx hmem)).1 _

/-- A wallet with one UTXO is asked for a payment; `script` is its answer for the change. -/
def payment (script : Option Unit) : Call Unit ℕ where
  rules := ⟨fun _ => true, fun _ => true, fun _ => false, fun _ => false, fun _ => some 0,
    fun _ => 294, fun _ => 23, fun _ => 0, fun _ => 0⟩
  source := ⟨some [⟨⟨1, 0⟩, 100000, 108⟩], fun _ => script, fun _ _ _ => some ⟨1, [⟨100000, ()⟩]⟩⟩
  sortUnstableByKey key utxos := utxos.insertionSort fun a b => key a ≤ key b
  sort_perm _ _ := perm_insertionSort _ _
  claimId := none
  mustSpend := []
  mustPayTo := [⟨50000, 22⟩]
  targetFeerate := 253
  maxTxWeight := 400000

/-- Without a change script nothing is selected and the UTXO is locked all the same. With one it
would have been selected, and now it is not. -/
theorem failed_selection_locks :
    let after := (payment none).selectConfirmedUtxos ∅
    after.2.isNone ∧ ¬(payment none).ReservesOnly ∅ after ∧
      ((payment (some ())).selectConfirmedUtxos ∅).2.isSome ∧
      ((payment (some ())).selectConfirmedUtxos after.1).2.isNone := by
  refine ⟨by decide, fun h => ?_, by decide, by decide⟩
  exact absurd (h ⟨1, 0⟩) (by decide)

end Call

end PqLightning.WalletUtils
