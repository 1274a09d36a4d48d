import PqLightning.InteractiveTx.SharedInput

/-!
# Duplicate inputs

A negotiation keeps the set of the outpoints that were added and rejects an input whose outpoint is
in it. Removing an input leaves its outpoint there, so that it cannot be added again. The set is
that of the inputs as long as no input goes: none is removed, and none that is sent replaces
another.
-/

namespace PqLightning.InteractiveTx

open List InteractiveTxInput NegotiationContext

variable {Script NodeId : Type}

/-- A message about inputs, of the counterparty or of the holder. -/
inductive InputMessage (Script : Type) where
  | receivedTxAddInput (msg : TxAddInput Script)
  | receivedTxRemoveInput (serialId : SerialId)
  | sentTxAddInput (msg : TxAddInput Script) (satisfactionWeight : ℕ)
  | sentTxRemoveInput (serialId : SerialId)

variable (rules : BitcoinRules Script) (c : NegotiationContext Script NodeId)

def NegotiationContext.apply :
    InputMessage Script → Except AbortReason (NegotiationContext Script NodeId)
  | .receivedTxAddInput msg => c.receivedTxAddInput rules msg
  | .receivedTxRemoveInput serialId => c.receivedTxRemoveInput serialId
  | .sentTxAddInput msg satisfactionWeight => c.sentTxAddInput msg satisfactionWeight
  | .sentTxRemoveInput serialId => .ok (c.sentTxRemoveInput serialId)

/-- A received input for which it is left to see if its outpoint is new. -/
structure Candidate (msg : TxAddInput Script) (o : OutPoint) : Prop where
  parity : c.isSerialIdValidForCounterparty msg.serialId
  count : c.receivedTxAddInputCount + 1 ≤ maxReceivedTxAddInputCount
  sequence : msg.sequence < 0xFFFFFFFE
  input : ∃ input, c.receivedInput rules msg = .ok (input, o)
  serialId : ∀ input ∈ c.inputs, input.serialId ≠ msg.serialId

/-- **Duplicates are tracked exactly**: the set of outpoints is that of the inputs, which spend each
of them once, and what is rejected as a duplicate is an outpoint of one of them. -/
structure TracksDuplicates : Prop where
  mem_iff : ∀ o, o ∈ c.prevtxOutpoints ↔ o ∈ c.inputs.map outpoint
  nodup : (c.inputs.map outpoint).Nodup
  received : ∀ msg o, Candidate rules c msg o →
    (c.receivedTxAddInput rules msg = .error .prevTxOutInvalid ↔ o ∈ c.inputs.map outpoint)
  sent : ∀ msg satisfactionWeight input o, c.sentInput msg satisfactionWeight = .ok (input, o) →
    (c.sentTxAddInput msg satisfactionWeight = .error .prevTxOutInvalid ↔ o ∈ c.inputs.map outpoint)

/-- The message takes no input away, and a shared input that is sent is named by its outpoint. -/
def KeepsInputs : InputMessage Script → Prop
  | .receivedTxAddInput _ => True
  | .receivedTxRemoveInput serialId | .sentTxRemoveInput serialId =>
    ∀ input ∈ c.inputs, input.serialId ≠ serialId
  | .sentTxAddInput msg _ => (∀ input ∈ c.inputs, input.serialId ≠ msg.serialId) ∧
    ∀ txid ∈ msg.sharedInputTxid, ∀ s ∈ c.sharedFundingInput,
      s.previousOutput = ⟨txid, msg.prevtxOut⟩

def KeepsThroughout : NegotiationContext Script NodeId → List (InputMessage Script) → Prop
  | _, [] => True
  | c, m :: ms => KeepsInputs c m ∧ ∀ c', c.apply rules m = .ok c' → KeepsThroughout c' ms

variable {rules c}

/-! ### One message -/

/-- What is rejected as a duplicate follows from what the set is. -/
theorem tracksDuplicates_of (hmem : ∀ o, o ∈ c.prevtxOutpoints ↔ o ∈ c.inputs.map outpoint)
    (hnodup : (c.inputs.map outpoint).Nodup) : TracksDuplicates rules c where
  mem_iff := hmem
  nodup := hnodup
  received := by
    rintro msg o ⟨hparity, hcount, hsequence, ⟨input, hinput⟩, hserialId⟩
    rw [← hmem o]
    simp only [receivedTxAddInput, guardWith, hparity, if_true, hcount, hsequence, hinput, ok_bind]
    rw [if_pos hserialId, ok_bind]
    split <;> simp_all [pure, Except.pure, bind, Except.bind]
  sent := by
    intro msg satisfactionWeight input o hinput
    rw [← hmem o]
    simp only [NegotiationContext.sentTxAddInput, hinput, ok_bind, guardWith]
    split <;> simp_all [pure, Except.pure, bind, Except.bind]

/-- An input that is sent spends the outpoint of the message, a shared one if it is named by it. -/
theorem outpoint_sentInput {msg : TxAddInput Script} {weight : ℕ} {input : InputOwned Script}
    {o : OutPoint} (h : c.sentInput msg weight = .ok (input, o))
    (hshared : ∀ txid ∈ msg.sharedInputTxid, ∀ s ∈ c.sharedFundingInput,
      s.previousOutput = ⟨txid, msg.prevtxOut⟩) : input.txIn.previousOutput = o := by
  unfold sentInput at h
  split at h
  next txid htxid =>
    split at h
    next s hs =>
      cases h
      exact hshared txid htxid s hs
    · cases h
  · split at h
    · split at h
      · cases h
        rfl
      · cases h
    · cases h

variable {c' : NegotiationContext Script NodeId}

theorem TracksDuplicates.cons (h : TracksDuplicates rules c) (input : InteractiveTxInput Script)
    (hfresh : input.outpoint ∉ c.prevtxOutpoints)
    (houtpoints : c'.prevtxOutpoints = input.outpoint :: c.prevtxOutpoints)
    (hinputs : c'.inputs = input :: c.inputs) : TracksDuplicates rules c' := by
  refine tracksDuplicates_of (fun o => ?_) ?_
  · rw [houtpoints, hinputs, mem_cons, h.mem_iff, map_cons, mem_cons]
  · rw [hinputs, map_cons, nodup_cons, ← h.mem_iff]
    exact ⟨hfresh, h.nodup⟩

theorem filter_serialId_eq {serialId : SerialId}
    (h : ∀ input ∈ c.inputs, input.serialId ≠ serialId) :
    c.inputs.filter (fun input => input.serialId ≠ serialId) = c.inputs :=
  filter_eq_self.mpr fun input hinput => decide_eq_true (h input hinput)

/-- **Step.** A message that is accepted keeps the tracking exact if it takes no input away. -/
theorem TracksDuplicates.apply (h : TracksDuplicates rules c) {m : InputMessage Script}
    (hkeeps : KeepsInputs c m) (happly : c.apply rules m = .ok c') : TracksDuplicates rules c' := by
  cases m with
  | receivedTxAddInput msg =>
    simp only [NegotiationContext.apply, receivedTxAddInput, bind_eq_ok, guardWith_eq_ok,
      exists_const, pure_eq_ok] at happly
    obtain ⟨-, -, -, ⟨input, o⟩, hinput, -, hfresh, rfl⟩ := happly
    obtain ⟨rfl, -⟩ := receivedInput_kind hinput
    exact h.cons ⟨msg.serialId, .remote, input⟩ hfresh rfl rfl
  | receivedTxRemoveInput serialId =>
    simp only [NegotiationContext.apply, receivedTxRemoveInput, bind_eq_ok, guardWith_eq_ok,
      exists_const, pure_eq_ok, filter_serialId_eq hkeeps] at happly
    obtain ⟨-, -, rfl⟩ := happly
    exact h
  | sentTxAddInput msg weight =>
    simp only [NegotiationContext.apply, sentTxAddInput, bind_eq_ok, guardWith_eq_ok, exists_const,
      pure_eq_ok, filter_serialId_eq hkeeps.1] at happly
    obtain ⟨⟨input, o⟩, hinput, hfresh, rfl⟩ := happly
    obtain rfl := outpoint_sentInput hinput hkeeps.2
    exact h.cons ⟨msg.serialId, .holder, input⟩ hfresh rfl rfl
  | sentTxRemoveInput serialId =>
    simp only [NegotiationContext.apply, sentTxRemoveInput, filter_serialId_eq hkeeps,
      Except.ok.injEq] at happly
    obtain rfl := happly
    exact h

/-! ### Negotiations -/

theorem TracksDuplicates.foldlM (h : TracksDuplicates rules c) {msgs : List (InputMessage Script)}
    (hkeeps : KeepsThroughout rules c msgs)
    (haccepted : msgs.foldlM (fun c m => c.apply rules m) c = .ok c') :
    TracksDuplicates rules c' := by
  induction msgs generalizing c with
  | nil =>
    cases haccepted
    exact h
  | cons m ms ih =>
    rw [foldlM_cons] at haccepted
    obtain ⟨next, hnext, hrest⟩ := bind_eq_ok.mp haccepted
    exact ih (h.apply hkeeps.1 hnext) (hkeeps.2 next hnext) hrest

open InteractiveTxConstructor

/-- **When duplicates are tracked exactly.** In every negotiation the set of outpoints is that of
the inputs as long as no message takes an input away. -/
theorem tracksDuplicates_of_keeps (rules : BitcoinRules Script)
    (args : InteractiveTxConstructorArgs Script NodeId) (isInitiator : Bool)
    (msgs : List (InputMessage Script)) (final : NegotiationContext Script NodeId)
    (haccepted : msgs.foldlM (fun c m => c.apply rules m) (initialContext args isInitiator) =
      .ok final)
    (hkeeps : KeepsThroughout rules (initialContext args isInitiator) msgs) :
    TracksDuplicates rules final := by
  have hstart : TracksDuplicates rules (initialContext args isInitiator) :=
    tracksDuplicates_of (fun _ => Iff.rfl) nodup_nil
  exact hstart.foldlM hkeeps haccepted

/-- The counterparty adds the shared input, the holder adds its own and takes back one that it never
added. -/
def spliceInputs : List (InputMessage ℕ) :=
  [.receivedTxAddInput spliceAddShared,
    .sentTxAddInput ⟨101, some ⟨5, [⟨50000, 3⟩]⟩, 0, 0, none⟩ 112, .sentTxRemoveInput 103]

theorem tracksDuplicates_of_keeps_shared : ∃ final,
    spliceInputs.foldlM (fun c m => c.apply spliceRules m) (initialContext spliceArgs false) =
      .ok final ∧
    final.inputs.map outpoint = [⟨5, 0⟩, ⟨7, 0⟩] ∧ TracksDuplicates spliceRules final := by
  have hkeeps : KeepsThroughout spliceRules (initialContext spliceArgs false) spliceInputs := by
    refine ⟨trivial, ?_⟩
    rintro _ ⟨⟩
    refine ⟨⟨by decide, by rintro _ ⟨⟩⟩, ?_⟩
    rintro _ ⟨⟩
    exact ⟨by unfold KeepsInputs; decide, fun _ _ => trivial⟩
  exact ⟨_, rfl, rfl, tracksDuplicates_of_keeps spliceRules spliceArgs false spliceInputs _
    rfl hkeeps⟩

/-- **A removed input stays a duplicate.** The counterparty adds an input and removes it; its
outpoint is of no input then, and still it is rejected. -/
theorem removed_input_rejected : ∃ c,
    [.receivedTxAddInput spliceAddSingle, .receivedTxRemoveInput 0].foldlM
      (fun c m => c.apply spliceRules m) (initialContext spliceArgs false) = .ok c ∧
    c.inputs = [] ∧ c.prevtxOutpoints = [⟨7, 0⟩] ∧
    c.receivedTxAddInput spliceRules spliceAddSingle = .error .prevTxOutInvalid :=
  ⟨_, rfl, rfl, rfl, rfl⟩

end PqLightning.InteractiveTx
