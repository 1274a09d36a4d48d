import PqLightning.Monitor.Updates

/-!
# How long a monitor keeps a preimage

A preimage is needed while a commitment that can still be broadcast has an HTLC with its hash: the
holder's current or previous one, or a counterparty commitment whose secret has not been revealed.
The monitor does not look at the counterparty's commitments when it prunes. It has recorded for each
hash the number of the last commitment that contains it, and compares that with the smallest
revealed index; both count downwards.

The record is exact where it matters (`Recorded`): it names a commitment that contains the hash, and
no commitment that is not revoked and contains the hash is later than the one it names. So after a
secret was accepted exactly the needed preimages are left.
-/

namespace PqLightning.Monitor

open AssocMap Chain List AList ChannelMonitorImpl

/-! ### Runs -/

/-- A monitor, with every counterparty commitment it was given and the secrets that were revealed.
-/
structure Ledger where
  monitor : ChannelMonitorImpl
  /-- The numbers of the commitments and the payment hashes of their HTLCs. -/
  given : List (ℕ × List PaymentHash)
  revealed : List ℕ

def hashes (htlcs : CommitmentHtlcs) : List PaymentHash := htlcs.map fun htlc => htlc.1.paymentHash

inductive ChannelUpdate where
  | latestCounterpartyCommitmentTXInfo (txid : Txid) (htlcOutputs : CommitmentHtlcs)
    (commitmentNumber : ℕ) (theirPerCommitmentPoint : PublicKey)
  | latestCounterpartyCommitment (commitmentTx : CommitmentTransaction)
    (rest : List CommitmentTransaction) (htlcData : CommitmentHTLCData)
  | latestHolderCommitmentTXInfo (commitmentTx : CommitmentTransaction)
    (htlcOutputs : List ChannelMonitorImpl.HolderHtlcOutput)
    (claimedHtlcs : List (SentHTLCId × PaymentPreimage)) (nondustHtlcSources : List HTLCSource)
  | latestHolderCommitment (commitmentTxs : List CommitmentTransaction)
    (htlcData : CommitmentHTLCData) (claimedHtlcs : List (SentHTLCId × PaymentPreimage))
  | paymentPreimage (preimage : PaymentPreimage) (paymentInfo : Option PaymentClaimDetails)
  | commitmentSecret (idx : ℕ) (secret : Bytes32)

namespace Ledger

def start (monitor : ChannelMonitorImpl) : Ledger := ⟨monitor, [], []⟩

variable (ledger : Ledger)

def give (monitor : ChannelMonitorImpl) (commitmentNumber : ℕ) (htlcs : CommitmentHtlcs) : Ledger :=
  { ledger with
    monitor := monitor
    given := ledger.given ++ [(commitmentNumber, hashes htlcs)] }

def reveal (monitor : ChannelMonitorImpl) (idx : ℕ) : Ledger :=
  { ledger with
    monitor := monitor
    revealed := idx :: ledger.revealed }

/-- The order of the updates: the numbers of the counterparty's commitments go down by one, and so
do the indices of the secrets, each of which is for a commitment that has a successor. -/
def InOrder : ChannelUpdate → Prop
  | .latestCounterpartyCommitmentTXInfo _ _ commitmentNumber _ =>
    commitmentNumber + 1 = ledger.monitor.currentCounterpartyCommitmentNumber
  | .latestCounterpartyCommitment commitmentTx _ _ =>
    commitmentTx.commitmentNumber + 1 = ledger.monitor.currentCounterpartyCommitmentNumber
  | .commitmentSecret idx _ =>
    idx + 1 + ledger.revealed.length = 2 ^ 48 ∧
      ledger.monitor.currentCounterpartyCommitmentNumber < idx
  | _ => True

/-- The ledger after an update with this result: `none` if it panicked, and unchanged if it was
refused. -/
def after (accept : ChannelMonitorImpl → Ledger) :
    Except Panic (Except String ChannelMonitorImpl) → Option Ledger
  | .ok (.ok monitor) => some (accept monitor)
  | .ok (.error _) => some ledger
  | .error _ => none

def step (crypto : Crypto) (ledger : Ledger) : ChannelUpdate → Option Ledger
  | .latestCounterpartyCommitmentTXInfo txid htlcOutputs commitmentNumber theirPerCommitmentPoint =>
    if ledger.monitor.pendingFunding.isEmpty then
      some (ledger.give (ledger.monitor.provideLatestCounterpartyCommitmentTx txid htlcOutputs
        commitmentNumber theirPerCommitmentPoint) commitmentNumber htlcOutputs)
    else some ledger
  | .latestCounterpartyCommitment commitmentTx rest htlcData =>
    ledger.after (fun monitor => ledger.give monitor commitmentTx.commitmentNumber
        (htlcsForCommitment htlcData commitmentTx))
      (ledger.monitor.updateCounterpartyCommitmentData (commitmentTx :: rest) htlcData)
  | .latestHolderCommitmentTXInfo commitmentTx htlcOutputs claimedHtlcs nondustHtlcSources =>
    ledger.after (fun monitor => { ledger with monitor := monitor })
      (ledger.monitor.provideLatestHolderCommitmentTx commitmentTx htlcOutputs claimedHtlcs
        nondustHtlcSources)
  | .latestHolderCommitment commitmentTxs htlcData claimedHtlcs =>
    ledger.after (fun monitor => { ledger with monitor := monitor })
      (ledger.monitor.updateHolderCommitmentData commitmentTxs htlcData claimedHtlcs)
  | .paymentPreimage preimage paymentInfo =>
    ledger.after (fun monitor => { ledger with monitor := monitor })
      ((ledger.monitor.providePaymentPreimage crypto (crypto.sha256 preimage) preimage
        paymentInfo).map .ok)
  | .commitmentSecret idx secret =>
    ledger.after (fun monitor => ledger.reveal monitor idx)
      (ledger.monitor.provideSecret crypto idx secret)

/-- A commitment that can be broadcast has an HTLC with the payment hash: the current or the
previous one of the holder, or one of the counterparty whose secret has not been revealed. -/
def Needed (k : PaymentHash) : Prop :=
  (∃ htlcs, ledger.monitor.currentHolderHtlcs = .ok htlcs ∧ k ∈ hashes htlcs) ∨
  (∃ htlcs, ledger.monitor.prevHolderHtlcs = .ok (some htlcs) ∧ k ∈ hashes htlcs) ∨
  ∃ commitment ∈ ledger.given, commitment.1 ∉ ledger.revealed ∧ k ∈ commitment.2

end Ledger

/-! ### What the updates do to the records -/

variable {crypto : Crypto} {ledger ledger' : Ledger} {monitor monitor' : ChannelMonitorImpl}

/-- The number of the last commitment that contains a hash. -/
theorem lookup_foldl_insert (htlcs : CommitmentHtlcs) (number : ℕ) (map : Map PaymentHash ℕ)
    (k : PaymentHash) :
    (htlcs.foldl (fun map htlc => map.insert htlc.1.paymentHash number) map).lookup k =
      if k ∈ hashes htlcs then some number else map.lookup k := by
  induction htlcs generalizing map with
  | nil => rfl
  | cons htlc htlcs ih =>
    rw [foldl_cons, ih, hashes, hashes, map_cons]
    by_cases hk : k = htlc.1.paymentHash
    · rw [← hk, lookup_insert, ite_self, if_pos mem_cons_self]
    · rw [lookup_insert_ne hk]
      simp only [mem_cons, hk, false_or]

/-- The preimage that a monitor has for a hash. -/
def storedPreimage (monitor : ChannelMonitorImpl) (k : PaymentHash) : Option PaymentPreimage :=
  (monitor.paymentPreimages.lookup k).map Prod.fst

/-- The parts of a monitor that the retention of preimages depends on are the same. -/
structure SameRecords (monitor monitor' : ChannelMonitorImpl) : Prop where
  alternative : monitor'.alternativeFundingConfirmed = monitor.alternativeFundingConfirmed
  secrets : monitor'.commitmentSecrets = monitor.commitmentSecrets
  current : monitor'.currentCounterpartyCommitmentNumber =
    monitor.currentCounterpartyCommitmentNumber
  numbers : monitor'.counterpartyHashCommitmentNumber = monitor.counterpartyHashCommitmentNumber

inductive Change (crypto : Crypto) (ledger ledger' : Ledger) : ChannelUpdate → Prop
  /-- It is refused. -/
  | refused {update : ChannelUpdate} (same : ledger' = ledger) : Change crypto ledger ledger' update
  /-- A new counterparty commitment is recorded. -/
  | given {update : ChannelUpdate} (number : ℕ) (htlcs : CommitmentHtlcs)
    (inOrder : ledger.InOrder update →
      number + 1 = ledger.monitor.currentCounterpartyCommitmentNumber)
    (alternative : ledger'.monitor.alternativeFundingConfirmed =
      ledger.monitor.alternativeFundingConfirmed)
    (secrets : ledger'.monitor.commitmentSecrets = ledger.monitor.commitmentSecrets)
    (current : ledger'.monitor.currentCounterpartyCommitmentNumber = number)
    (numbers : ledger'.monitor.counterpartyHashCommitmentNumber = htlcs.foldl
      (fun map htlc => map.insert htlc.1.paymentHash number)
      ledger.monitor.counterpartyHashCommitmentNumber)
    (preimages : ledger'.monitor.paymentPreimages = ledger.monitor.paymentPreimages)
    (commitments : ledger'.given = ledger.given ++ [(number, hashes htlcs)])
    (revealed : ledger'.revealed = ledger.revealed) : Change crypto ledger ledger' update
  /-- The records stay, and every preimage does. -/
  | kept {update : ChannelUpdate} (records : SameRecords ledger.monitor ledger'.monitor)
    (preimages : ∀ k, storedPreimage ledger'.monitor k = storedPreimage ledger.monitor k ∨
      storedPreimage ledger.monitor k = none ∧
        ∃ preimage, storedPreimage ledger'.monitor k = some preimage ∧ crypto.sha256 preimage = k)
    (commitments : ledger'.given = ledger.given) (revealed : ledger'.revealed = ledger.revealed) :
    Change crypto ledger ledger' update
  /-- A secret is accepted. -/
  | secret (idx : ℕ) (secret : Bytes32) (monitor : ChannelMonitorImpl)
    (accepted : ledger.monitor.provideSecret crypto idx secret = .ok (.ok monitor))
    (revealed : ledger' = ledger.reveal monitor idx) :
    Change crypto ledger ledger' (.commitmentSecret idx secret)

theorem sameRecords_of_updateHolderCommitmentData {commitmentTxs : List CommitmentTransaction}
    {htlcData : CommitmentHTLCData} {claimedHtlcs : List (SentHTLCId × PaymentPreimage)}
    (h : monitor.updateHolderCommitmentData commitmentTxs htlcData claimedHtlcs =
      .ok (.ok monitor')) :
    SameRecords monitor monitor' ∧ monitor'.paymentPreimages = monitor.paymentPreimages := by
  unfold updateHolderCommitmentData at h
  split at h
  · cases Except.ok.inj h
  · split at h
    · cases h
    · obtain ⟨_, -, h⟩ := bind_eq_ok.mp h
      cases h
      exact ⟨⟨rfl, rfl, rfl, rfl⟩, rfl⟩

theorem sameRecords_of_providePaymentPreimage {hash : PaymentHash} {preimage : PaymentPreimage}
    {info : Option PaymentClaimDetails}
    (h : monitor.providePaymentPreimage crypto hash preimage info = .ok monitor') :
    SameRecords monitor monitor' ∧ ∀ k, storedPreimage monitor' k =
      if k = hash then some ((storedPreimage monitor k).getD preimage)
      else storedPreimage monitor k := by
  rw [providePaymentPreimage] at h
  obtain ⟨claims, -, h⟩ := bind_eq_ok.mp h
  cases h
  refine ⟨⟨rfl, rfl, rfl, rfl⟩, fun k => ?_⟩
  by_cases hk : k = hash
  · subst hk
    simp only [storedPreimage, lookup_insert, if_true]
    cases monitor.paymentPreimages.lookup k <;> rfl
  · simp [storedPreimage, lookup_insert_ne hk, hk]

/-- An update is accepted or refused. -/
theorem Ledger.after_eq_some_iff {accept : ChannelMonitorImpl → Ledger}
    {result : Except Panic (Except String ChannelMonitorImpl)} :
    ledger.after accept result = some ledger' ↔
      (∃ monitor, result = .ok (.ok monitor) ∧ accept monitor = ledger') ∨
      (∃ err, result = .ok (.error err)) ∧ ledger = ledger' := by
  rcases result with _ | _ | monitor <;> simp [Ledger.after]

variable {update : ChannelUpdate}

/-- **Every step is one of these changes.** -/
theorem change_of_step (h : ledger.step crypto update = some ledger') :
    Change crypto ledger ledger' update := by
  cases update with
  | latestCounterpartyCommitmentTXInfo txid htlcOutputs number point =>
    simp only [Ledger.step] at h
    split at h
    · cases h
      exact .given number htlcOutputs id rfl rfl rfl rfl rfl rfl rfl
    · exact .refused (Option.some.inj h).symm
  | latestCounterpartyCommitment commitmentTx rest htlcData =>
    rcases Ledger.after_eq_some_iff.mp h with ⟨monitor, hupdate, rfl⟩ | ⟨-, rfl⟩
    · unfold updateCounterpartyCommitmentData at hupdate
      split at hupdate
      · cases Except.ok.inj hupdate
      · obtain ⟨_, -, hupdate⟩ := bind_eq_ok.mp hupdate
        obtain ⟨_, -, hupdate⟩ := bind_eq_ok.mp hupdate
        cases hupdate
        exact .given commitmentTx.commitmentNumber
          (htlcsForCommitment htlcData commitmentTx) id rfl rfl rfl rfl rfl rfl rfl
    · exact .refused rfl
  | latestHolderCommitmentTXInfo commitmentTx htlcOutputs claimedHtlcs nondustHtlcSources =>
    rcases Ledger.after_eq_some_iff.mp h with ⟨monitor, hupdate, rfl⟩ | ⟨-, rfl⟩
    · obtain ⟨data, -, hupdate⟩ := bind_eq_ok.mp hupdate
      obtain ⟨hsame, hpreimages⟩ := sameRecords_of_updateHolderCommitmentData hupdate
      exact .kept hsame (fun k => .inl (by rw [storedPreimage, hpreimages, storedPreimage])) rfl rfl
    · exact .refused rfl
  | latestHolderCommitment commitmentTxs htlcData claimedHtlcs =>
    rcases Ledger.after_eq_some_iff.mp h with ⟨monitor, hupdate, rfl⟩ | ⟨-, rfl⟩
    · obtain ⟨hsame, hpreimages⟩ := sameRecords_of_updateHolderCommitmentData hupdate
      exact .kept hsame (fun k => .inl (by rw [storedPreimage, hpreimages, storedPreimage])) rfl rfl
    · exact .refused rfl
  | paymentPreimage preimage info =>
    rcases Ledger.after_eq_some_iff.mp h with ⟨monitor, hprovide, rfl⟩ | ⟨-, rfl⟩
    · obtain ⟨monitor', hprovide', hmonitor⟩ := map_eq_ok.mp hprovide
      cases hmonitor
      obtain ⟨hsame, hpreimages⟩ := sameRecords_of_providePaymentPreimage hprovide'
      refine .kept hsame (fun k => ?_) rfl rfl
      rw [hpreimages]
      split
      next hk =>
        cases hstored : storedPreimage ledger.monitor k with
        | none => exact .inr ⟨rfl, preimage, rfl, hk.symm⟩
        | some stored => exact .inl rfl
      · exact .inl rfl
    · exact .refused rfl
  | commitmentSecret idx secret =>
    rcases Ledger.after_eq_some_iff.mp h with ⟨monitor, hprovide, rfl⟩ | ⟨-, rfl⟩
    · exact .secret idx secret monitor hprovide rfl
    · exact .refused rfl

/-! ### Accepted secrets -/

/-- Forgetting the previous commitments of the fundings leaves the records and the commitments of
the holder. -/
theorem sameRecords_of_pruneHtlcSources (h : monitor.pruneHtlcSources = .ok monitor') :
    SameRecords monitor monitor' ∧ monitor'.paymentPreimages = monitor.paymentPreimages ∧
      (monitor.alternativeFundingConfirmed = none →
        monitor'.currentHolderHtlcs = monitor.currentHolderHtlcs ∧
        monitor'.prevHolderHtlcs = monitor.prevHolderHtlcs) := by
  obtain ⟨⟨funding, removed⟩, hfunding, h⟩ := bind_eq_ok.mp h
  obtain ⟨pending, -, h⟩ := bind_eq_ok.mp h
  cases h
  refine ⟨⟨rfl, rfl, rfl, rfl⟩, rfl, fun hnone => ?_⟩
  have hholder : funding.currentHolderCommitmentTx = monitor.funding.currentHolderCommitmentTx ∧
      funding.prevHolderCommitmentTx = monitor.funding.prevHolderCommitmentTx := by
    unfold FundingScope.pruneHtlcSources at hfunding
    split at hfunding
    · cases hfunding
      exact ⟨rfl, rfl⟩
    · obtain ⟨_, -, hfunding⟩ := bind_eq_ok.mp hfunding
      obtain ⟨_, -, hfunding⟩ := bind_eq_ok.mp hfunding
      obtain ⟨_, -, hfunding⟩ := bind_eq_ok.mp hfunding
      obtain ⟨_, -, hfunding⟩ := bind_eq_ok.mp hfunding
      cases hfunding
      exact ⟨rfl, rfl⟩
  simp [currentHolderHtlcs, prevHolderHtlcs, getConfirmedFundingScope, hnone, ok_bind, hholder.1,
    hholder.2]

/-- A hash that a commitment of the holder contains, by the HTLCs of its two commitments. -/
def OnHolderCommitment (monitor : ChannelMonitorImpl) (k : PaymentHash) : Prop :=
  (∃ htlcs, monitor.currentHolderHtlcs = .ok htlcs ∧ k ∈ hashes htlcs) ∨
  ∃ htlcs, monitor.prevHolderHtlcs = .ok (some htlcs) ∧ k ∈ hashes htlcs

def RecordedBelow (monitor : ChannelMonitorImpl) (idx : ℕ) (k : PaymentHash) : Prop :=
  ∃ number, monitor.counterpartyHashCommitmentNumber.lookup k = some number ∧ number < idx

variable {k : PaymentHash}

theorem keepsPreimage_iff {currentHtlcs : CommitmentHtlcs} {prevHtlcs : Option CommitmentHtlcs}
    {minIdx : ℕ} (hcurrent : monitor.currentHolderHtlcs = .ok currentHtlcs)
    (hprev : monitor.prevHolderHtlcs = .ok prevHtlcs) :
    monitor.keepsPreimage currentHtlcs prevHtlcs minIdx k = true ↔
      OnHolderCommitment monitor k ∨ RecordedBelow monitor minIdx k := by
  have hmem : ∀ htlcs : CommitmentHtlcs,
      (htlcs.any fun htlc => decide (k = htlc.1.paymentHash)) = true ↔ k ∈ hashes htlcs := by
    intro htlcs
    rw [any_eq_true, hashes, mem_map]
    exact exists_congr fun htlc => and_congr_right fun _ => by rw [decide_eq_true_eq, eq_comm]
  rw [keepsPreimage, Bool.or_eq_true, Bool.or_eq_true, hmem, hmem,
    Option.any_eq_true, OnHolderCommitment, RecordedBelow, hcurrent, hprev]
  cases prevHtlcs <;> simp [hashes]

/-- What pruning does to the preimages and to the recorded numbers. -/
structure Pruned (monitor monitor' : ChannelMonitorImpl) (minIdx : ℕ) : Prop where
  preimages : ∀ k preimage, storedPreimage monitor' k = some preimage ↔
    storedPreimage monitor k = some preimage ∧
      (OnHolderCommitment monitor k ∨ RecordedBelow monitor minIdx k)
  numbers : ∀ k number, monitor'.counterpartyHashCommitmentNumber.lookup k = some number →
    monitor.counterpartyHashCommitmentNumber.lookup k = some number
  kept : ∀ k number, monitor.counterpartyHashCommitmentNumber.lookup k = some number →
    number < minIdx → monitor'.counterpartyHashCommitmentNumber.lookup k = some number

theorem prunePreimages_spec (h : monitor.prunePreimages = .ok monitor') :
    (∃ preimages numbers, monitor' = { monitor with
      paymentPreimages := preimages
      counterpartyHashCommitmentNumber := numbers }) ∧
    Pruned monitor monitor' monitor.commitmentSecrets.getMinSeenSecret := by
  unfold prunePreimages at h
  split at h
  next hempty =>
    cases h
    have hnone : ∀ k, monitor.paymentPreimages.lookup k = none := by
      intro k
      rw [lookup_eq_none, AList.mem_keys, AList.keys, List.isEmpty_iff.mp hempty]
      exact not_mem_nil
    exact ⟨⟨_, _, rfl⟩, fun k _ => by simp [storedPreimage, hnone k], fun _ _ => id,
      fun _ _ h _ => h⟩
  · obtain ⟨currentHtlcs, hcurrent, h⟩ := bind_eq_ok.mp h
    obtain ⟨prevHtlcs, hprev, h⟩ := bind_eq_ok.mp h
    cases h
    refine ⟨⟨_, _, rfl⟩, fun k _ => ?_, fun k number hk => ?_, fun k number hk hlt => ?_⟩
    · rw [storedPreimage, storedPreimage, lookup_retain, ← keepsPreimage_iff hcurrent hprev]
      cases monitor.paymentPreimages.lookup k with
      | none => simp
      | some entry =>
        cases monitor.keepsPreimage currentHtlcs prevHtlcs
          monitor.commitmentSecrets.getMinSeenSecret k <;> simp
    · rw [lookup_retain] at hk
      exact (Option.filter_eq_some_iff.mp hk).1
    · have hkeeps := (keepsPreimage_iff hcurrent hprev).mpr (.inr ⟨number, hk, hlt⟩)
      rw [lookup_retain, hk, Option.filter_eq_some_iff]
      exact ⟨rfl, by rw [hkeeps, Bool.or_true]⟩

variable {idx : ℕ} {secret : Bytes32}

/-- **What an accepted secret does.** The preimages it leaves are those of the holder's commitments
and those whose number is below the smallest revealed index. The numbers of the preimages it removes
go with them. -/
theorem secret_spec (halternative : monitor.alternativeFundingConfirmed = none)
    (h : monitor.provideSecret crypto idx secret = .ok (.ok monitor')) :
    ∃ store, monitor.commitmentSecrets.provideSecret crypto.sha256 idx secret = .ok store ∧
      monitor'.commitmentSecrets = store ∧
      monitor'.alternativeFundingConfirmed = none ∧
      monitor'.currentCounterpartyCommitmentNumber = monitor.currentCounterpartyCommitmentNumber ∧
      (∀ k, OnHolderCommitment monitor' k ↔ OnHolderCommitment monitor k) ∧
      Pruned monitor monitor' store.getMinSeenSecret := by
  unfold provideSecret at h
  split at h
  · cases Except.ok.inj h
  next store hstore =>
    obtain ⟨pruned, hpruned, h⟩ := bind_eq_ok.mp h
    obtain ⟨_, hpreimages, h⟩ := bind_eq_ok.mp h
    cases h
    obtain ⟨hsame, hsamePreimages, hholder⟩ := sameRecords_of_pruneHtlcSources hpruned
    obtain ⟨hcurrent, hprev⟩ := hholder halternative
    have honHolder : ∀ k, OnHolderCommitment pruned k ↔ OnHolderCommitment monitor k := by
      intro k
      rw [OnHolderCommitment, hcurrent, hprev]
      rfl
    have hbelow : ∀ k idx, RecordedBelow pruned idx k ↔ RecordedBelow monitor idx k := by
      intro k idx
      rw [RecordedBelow, hsame.numbers, RecordedBelow]
    obtain ⟨⟨preimages, numbers, heq⟩, hleft, hsub, hkept⟩ := prunePreimages_spec hpreimages
    simp only [storedPreimage, hsame.secrets, hsamePreimages, hsame.numbers, honHolder,
      hbelow] at hleft hsub hkept
    refine ⟨store, hstore, ?_, ?_, ?_, ?_, hleft, hsub, hkept⟩
    · rw [heq]
      exact hsame.secrets
    · rw [heq]
      exact hsame.alternative.trans halternative
    · rw [heq]
      exact hsame.current
    · intro k
      rw [heq, ← honHolder k]
      rfl

/-! ### The invariant -/

/-- The records of a ledger are right. -/
structure Recorded (crypto : Crypto) (ledger : Ledger) : Prop where
  /-- No other funding has confirmed. -/
  alternative : ledger.monitor.alternativeFundingConfirmed = none
  /-- The secrets were revealed in descending order. -/
  secrets : ∃ sec, CounterpartyCommitmentSecrets.Holds crypto.sha256
    (2 ^ 48 - ledger.revealed.length) sec ledger.monitor.commitmentSecrets
  length_le : ledger.revealed.length ≤ 2 ^ 48
  mem_revealed : ∀ n, n ∈ ledger.revealed ↔ 2 ^ 48 ≤ n + ledger.revealed.length ∧ n < 2 ^ 48
  current_le : ledger.monitor.currentCounterpartyCommitmentNumber ≤ 2 ^ 48
  /-- The numbers of the commitments go down. -/
  given : ∀ commitment ∈ ledger.given,
    ledger.monitor.currentCounterpartyCommitmentNumber ≤ commitment.1 ∧ commitment.1 < 2 ^ 48
  /-- A recorded number is that of a commitment that contains the hash. -/
  sound : ∀ k number, ledger.monitor.counterpartyHashCommitmentNumber.lookup k = some number →
    ∃ commitment ∈ ledger.given, commitment.1 = number ∧ k ∈ commitment.2
  /-- No commitment that is not revoked and contains the hash is later. -/
  latest : ∀ commitment ∈ ledger.given, commitment.1 ∉ ledger.revealed → ∀ k ∈ commitment.2,
    ∃ number, ledger.monitor.counterpartyHashCommitmentNumber.lookup k = some number ∧
      number ≤ commitment.1
  genuine : ∀ k preimage, storedPreimage ledger.monitor k = some preimage →
    crypto.sha256 preimage = k

inductive Reachable (crypto : Crypto) : Ledger → Prop
  | start (shutdownScript : Option Script) (onCounterpartyTxCsv onHolderTxCsv : ℕ)
    (destinationScript counterpartyPaymentScript : Script)
    (channelParameters : ChannelTransactionParameters) (obscureFactor : ℕ)
    (initialHolderCommitmentTx : CommitmentTransaction) (bestBlock : BlockLocator)
    (isManualBroadcast : Bool) :
    Reachable crypto (.start (.new crypto shutdownScript onCounterpartyTxCsv onHolderTxCsv
      destinationScript counterpartyPaymentScript channelParameters obscureFactor
      initialHolderCommitmentTx bestBlock isManualBroadcast))
  | step {ledger ledger' : Ledger} (update : ChannelUpdate) (reachable : Reachable crypto ledger)
    (inOrder : ledger.InOrder update) (step : ledger.step crypto update = some ledger') :
    Reachable crypto ledger'

/-- What a commitment that is not revoked contains has a number below the smallest revealed index,
and the other way round. -/
theorem Recorded.recordedBelow_iff (h : Recorded crypto ledger) (idx : ℕ)
    (hidx : idx = 2 ^ 48 - ledger.revealed.length) (k : PaymentHash) :
    RecordedBelow ledger.monitor idx k ↔
      ∃ commitment ∈ ledger.given, commitment.1 ∉ ledger.revealed ∧ k ∈ commitment.2 := by
  constructor
  · rintro ⟨number, hnumber, hlt⟩
    obtain ⟨commitment, hmem, rfl, hk⟩ := h.sound k number hnumber
    exact ⟨commitment, hmem, fun hrevealed => by have := (h.mem_revealed _).mp hrevealed; omega, hk⟩
  · rintro ⟨commitment, hmem, hrevealed, hk⟩
    obtain ⟨number, hnumber, hle⟩ := h.latest commitment hmem hrevealed k hk
    have hlt := (h.given commitment hmem).2
    have hnot := mt (h.mem_revealed commitment.1).mpr hrevealed
    exact ⟨number, hnumber, by omega⟩

/-- A commitment that can be broadcast contains the hash, by the two kinds of commitments. -/
theorem needed_iff : ledger.Needed k ↔ OnHolderCommitment ledger.monitor k ∨
    ∃ commitment ∈ ledger.given, commitment.1 ∉ ledger.revealed ∧ k ∈ commitment.2 :=
  or_assoc.symm

theorem recorded_start (halternative : monitor.alternativeFundingConfirmed = none)
    (hsecrets : monitor.commitmentSecrets = .new)
    (hnumber : monitor.currentCounterpartyCommitmentNumber = 1 <<< 48)
    (hnumbers : monitor.counterpartyHashCommitmentNumber = ∅)
    (hpreimages : monitor.paymentPreimages = ∅) : Recorded crypto (.start monitor) where
  alternative := halternative
  secrets := ⟨fun _ => Vector.replicate 32 0, by
    rw [Ledger.start, hsecrets]
    exact CounterpartyCommitmentSecrets.holds_new _ _⟩
  length_le := Nat.zero_le _
  mem_revealed n := ⟨nofun, fun h => absurd h.2 (Nat.not_lt.mpr h.1)⟩
  current_le := Nat.le_of_eq hnumber
  given := nofun
  sound k number hk := by
    rw [Ledger.start, hnumbers, lookup_empty] at hk
    cases hk
  latest := nofun
  genuine k preimage hk := by
    rw [Ledger.start, storedPreimage, hpreimages, lookup_empty] at hk
    cases hk

theorem Recorded.given_step (h : Recorded crypto ledger) {number : ℕ} {htlcs : CommitmentHtlcs}
    (hnumber : number + 1 = ledger.monitor.currentCounterpartyCommitmentNumber)
    (halternative : ledger'.monitor.alternativeFundingConfirmed =
      ledger.monitor.alternativeFundingConfirmed)
    (hsecrets : ledger'.monitor.commitmentSecrets = ledger.monitor.commitmentSecrets)
    (hcurrent : ledger'.monitor.currentCounterpartyCommitmentNumber = number)
    (hnumbers : ledger'.monitor.counterpartyHashCommitmentNumber = htlcs.foldl
      (fun map htlc => map.insert htlc.1.paymentHash number)
      ledger.monitor.counterpartyHashCommitmentNumber)
    (hpreimages : ledger'.monitor.paymentPreimages = ledger.monitor.paymentPreimages)
    (hgiven : ledger'.given = ledger.given ++ [(number, hashes htlcs)])
    (hrevealed : ledger'.revealed = ledger.revealed) : Recorded crypto ledger' := by
  have hle := h.current_le
  have hlookup : ∀ k, ledger'.monitor.counterpartyHashCommitmentNumber.lookup k =
      if k ∈ hashes htlcs then some number
      else ledger.monitor.counterpartyHashCommitmentNumber.lookup k := by
    intro k
    rw [hnumbers, lookup_foldl_insert]
  refine ⟨halternative.trans h.alternative, ?_, ?_, ?_, by omega, ?_, ?_, ?_, ?_⟩
  · rw [hrevealed, hsecrets]
    exact h.secrets
  · rw [hrevealed]
    exact h.length_le
  · rw [hrevealed]
    exact h.mem_revealed
  · intro commitment hmem
    rw [hgiven, mem_append, mem_singleton] at hmem
    rcases hmem with hmem | rfl
    · have := h.given commitment hmem
      omega
    · show _ ≤ number ∧ number < _
      omega
  · intro k recorded hk
    rw [hlookup] at hk
    rw [hgiven]
    split at hk
    next hin =>
      exact ⟨_, mem_append_right _ mem_cons_self, Option.some.inj hk, hin⟩
    · obtain ⟨commitment, hmem, hrest⟩ := h.sound k recorded hk
      exact ⟨commitment, mem_append_left _ hmem, hrest⟩
  · intro commitment hmem hnot k hk
    rw [hgiven, mem_append, mem_singleton] at hmem
    rw [hlookup]
    split
    -- the new commitment has the smallest number of all
    · refine ⟨number, rfl, ?_⟩
      rcases hmem with hmem | rfl
      · have := h.given commitment hmem
        omega
      · exact Nat.le_refl _
    next hout =>
      rcases hmem with hmem | rfl
      · exact h.latest commitment hmem (hrevealed ▸ hnot) k hk
      · exact absurd hk hout
  · intro k preimage hk
    rw [storedPreimage, hpreimages] at hk
    exact h.genuine k preimage hk

theorem Recorded.kept_step (h : Recorded crypto ledger)
    (hsame : SameRecords ledger.monitor ledger'.monitor)
    (hpreimages : ∀ k, storedPreimage ledger'.monitor k = storedPreimage ledger.monitor k ∨
      storedPreimage ledger.monitor k = none ∧
        ∃ preimage, storedPreimage ledger'.monitor k = some preimage ∧ crypto.sha256 preimage = k)
    (hgiven : ledger'.given = ledger.given) (hrevealed : ledger'.revealed = ledger.revealed) :
    Recorded crypto ledger' := by
  obtain ⟨monitor', given', revealed'⟩ := ledger'
  obtain rfl : given' = ledger.given := hgiven
  obtain rfl : revealed' = ledger.revealed := hrevealed
  refine ⟨hsame.alternative.trans h.alternative, ?_, h.length_le, h.mem_revealed, ?_, ?_, ?_, ?_,
    fun k preimage hk => ?_⟩
  · rw [hsame.secrets]
    exact h.secrets
  · rw [hsame.current]
    exact h.current_le
  · rw [hsame.current]
    exact h.given
  · rw [hsame.numbers]
    exact h.sound
  · rw [hsame.numbers]
    exact h.latest
  · rcases hpreimages k with hold | ⟨-, new, hnew, hgenuine⟩
    · exact h.genuine k preimage (hold ▸ hk)
    · exact Option.some.inj (hnew.symm.trans hk) ▸ hgenuine

/-- **Step: a secret.** The records stay right, and the preimages that are left are the needed ones.
-/
theorem Recorded.secret_step (h : Recorded crypto ledger)
    (hidx : idx + 1 + ledger.revealed.length = 2 ^ 48)
    (haccepted : ledger.monitor.provideSecret crypto idx secret = .ok (.ok monitor)) :
    Recorded crypto (ledger.reveal monitor idx) ∧
      (∀ k, OnHolderCommitment monitor k ↔ OnHolderCommitment ledger.monitor k) ∧
      ∀ k preimage, storedPreimage monitor k = some preimage ↔
        storedPreimage ledger.monitor k = some preimage ∧
          (ledger.reveal monitor idx).Needed k := by
  obtain ⟨store, hstore, hsecrets, halternative, hcurrent, hholder, hleft, hsub, hkept⟩ :=
    secret_spec h.alternative haccepted
  obtain ⟨sec, hholds⟩ := h.secrets
  have hlength : (ledger.reveal monitor idx).revealed.length = ledger.revealed.length + 1 := rfl
  rw [show 2 ^ 48 - ledger.revealed.length = idx + 1 by omega] at hholds
  have hholds' := hholds.provideSecret hstore
  have hmin : store.getMinSeenSecret = idx := hholds'.getMinSeenSecret_eq
  rw [hmin] at hleft hkept
  have hrecorded : Recorded crypto (ledger.reveal monitor idx) := by
    refine ⟨halternative, ⟨Function.update sec idx secret, ?_⟩, by omega, ?_, ?_, ?_, ?_, ?_,
      fun k preimage hk => h.genuine k preimage ((hleft k preimage).mp hk).1⟩
    · rw [hlength, show 2 ^ 48 - (ledger.revealed.length + 1) = idx by omega]
      exact hsecrets ▸ hholds'
    · intro n
      rw [hlength, Ledger.reveal, mem_cons, h.mem_revealed]
      omega
    · exact hcurrent ▸ h.current_le
    · intro commitment hmem
      exact hcurrent ▸ h.given commitment hmem
    · intro k number hk
      exact h.sound k number (hsub k number hk)
    · intro commitment hmem hnot k hk
      rw [Ledger.reveal, mem_cons, not_or] at hnot
      obtain ⟨number, hnumber, hle⟩ := h.latest commitment hmem hnot.2 k hk
      have hlt := (h.given commitment hmem).2
      have hnot' := mt (h.mem_revealed commitment.1).mpr hnot.2
      exact ⟨number, hkept k number hnumber (by omega), hle⟩
  refine ⟨hrecorded, hholder, fun k preimage => ?_⟩
  have hbelow : RecordedBelow ledger.monitor idx k ↔ RecordedBelow monitor idx k :=
    ⟨fun ⟨number, hk, hlt⟩ => ⟨number, hkept k number hk hlt, hlt⟩,
      fun ⟨number, hk, hlt⟩ => ⟨number, hsub k number hk, hlt⟩⟩
  have hneeded := hrecorded.recordedBelow_iff idx (by omega) k
  rw [hleft k preimage, needed_iff, ← hneeded, hbelow]
  exact and_congr_right fun _ => or_congr_left (hholder k).symm

theorem Recorded.step (h : Recorded crypto ledger)
    (hinOrder : ledger.InOrder update) (hstep : ledger.step crypto update = some ledger') :
    Recorded crypto ledger' := by
  cases change_of_step hstep with
  | refused hsame => exact hsame ▸ h
  | given number htlcs hnumber halternative hsecrets hcurrent hnumbers hpreimages hgiven
    hrevealed =>
    exact h.given_step (hnumber hinOrder) halternative hsecrets hcurrent hnumbers hpreimages hgiven
      hrevealed
  | kept hsame hpreimages hgiven hrevealed => exact h.kept_step hsame hpreimages hgiven hrevealed
  | secret idx secret monitor haccepted hrevealed =>
    exact hrevealed ▸ (h.secret_step hinOrder.1 haccepted).1

theorem Reachable.recorded (h : Reachable crypto ledger) : Recorded crypto ledger := by
  induction h with
  | start => exact recorded_start rfl rfl rfl rfl rfl
  | step update _ hinOrder hstep ih => exact ih.step hinOrder hstep

/-! ### Preimages -/

section

variable (h : Reachable crypto ledger) (hinOrder : ledger.InOrder (.commitmentSecret idx secret))
  (haccepted : ledger.monitor.provideSecret crypto idx secret = .ok (.ok monitor))

include h hinOrder haccepted

end

/-- A preimage of the hash was provided, and from then on the hash was on a commitment that can be
broadcast. -/
inductive NeededSince (crypto : Crypto) (k : PaymentHash) : Ledger → Prop
  | provide {ledger ledger' : Ledger} (preimage : PaymentPreimage)
    (paymentInfo : Option PaymentClaimDetails) (reachable : Reachable crypto ledger)
    (hash : crypto.sha256 preimage = k)
    (step : ledger.step crypto (.paymentPreimage preimage paymentInfo) = some ledger')
    (needed : ledger'.Needed k) : NeededSince crypto k ledger'
  | step {ledger ledger' : Ledger} (update : ChannelUpdate) (since : NeededSince crypto k ledger)
    (inOrder : ledger.InOrder update) (step : ledger.step crypto update = some ledger')
    (needed : ledger'.Needed k) : NeededSince crypto k ledger'

theorem NeededSince.reachable (h : NeededSince crypto k ledger) : Reachable crypto ledger := by
  induction h with
  | provide preimage paymentInfo hreachable _ hstep _ =>
    exact hreachable.step (.paymentPreimage preimage paymentInfo) trivial hstep
  | step update _ hinOrder hstep _ ih => exact ih.step update hinOrder hstep

end PqLightning.Monitor
