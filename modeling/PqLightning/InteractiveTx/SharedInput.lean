import Mathlib.Algebra.Order.BigOperators.Group.List
import Mathlib.Tactic.Ring
import PqLightning.InteractiveTx.Turns

/-!
# The shared input of a splice

A splice spends the previous funding output, whose value belongs to both parties. When a negotiation
completes, the counterparty must have paid for what it added: its own inputs, and its part of the
shared input, have to cover its outputs and its fee.

The code decides by the fields of `tx_add_input` whether an input is the shared one, and looks the
shared input up by its outpoint in the end. The two agree unless the outpoint of the shared input
was added the way other inputs are, with its previous transaction. In a completed negotiation that
happened exactly if some message of the counterparty did it, or the holder's own wallet.
-/

namespace PqLightning.InteractiveTx

open List ConstructedTransaction InteractiveTxInput NegotiationContext

variable {Script NodeId : Type}

/-- The message adds the outpoint `o` as an input of its sender alone. -/
def TxAddInput.addsAsSingle (o : OutPoint) (msg : TxAddInput Script) : Prop :=
  msg.sharedInputTxid = none ∧
    ∃ prevtx ∈ msg.prevtx, OutPoint.mk prevtx.computeTxid msg.prevtxOut = o

def PeerMessage.addsAsSingle (o : OutPoint) : PeerMessage Script → Prop
  | .txAddInput msg => msg.addsAsSingle o
  | _ => False

def InteractiveTxInput.outpoint (self : InteractiveTxInput Script) : OutPoint :=
  self.input.txIn.previousOutput

/-! ### Adding an input -/

/-- **What adding an input does**, whoever adds it. -/
structure InputAdded (msg : TxAddInput Script) (c c' : NegotiationContext Script NodeId)
    (entry : InteractiveTxInput Script) : Prop where
  fresh : entry.outpoint ∉ c.prevtxOutpoints
  prevtxOutpoints : c'.prevtxOutpoints = entry.outpoint :: c.prevtxOutpoints
  inputs : ∃ rest, c'.inputs = entry :: rest ∧ rest.Sublist c.inputs
  outputs : c'.outputs = c.outputs
  expected : c'.sharedFundingInput = c.sharedFundingInput
  /-- The field of the message decides what is recorded. -/
  kind : (∃ s, c.sharedFundingInput = some s ∧ entry.input = .shared s ∧
      msg.sharedInputTxid ≠ none) ∨
    (entry.input.isShared = false ∧ msg.addsAsSingle entry.outpoint)

theorem totalBitcoinSupplySatoshis_lt : 1024 * totalBitcoinSupplySatoshis < 2 ^ 64 - 1 := by decide

variable {rules : BitcoinRules Script} {c c' : NegotiationContext Script NodeId}
  {msg : TxAddInput Script}

theorem receivedInput_kind {input : InputOwned Script} {o : OutPoint}
    (h : c.receivedInput rules msg = .ok (input, o)) :
    input.txIn.previousOutput = o ∧
      ((∃ s, c.sharedFundingInput = some s ∧ input = .shared s ∧ msg.sharedInputTxid ≠ none) ∨
        (input.isShared = false ∧ msg.addsAsSingle o)) := by
  unfold receivedInput at h
  split at h
  · next sharedTxid hshared =>
    rcases hs : c.sharedFundingInput with _ | s <;> simp only [hs] at h <;> split_ifs at h
    rename_i hne
    cases h
    exact ⟨(not_not.1 hne).symm, .inl ⟨s, rfl, rfl, by simp [hshared]⟩⟩
  · next hshared =>
    split at h
    · next prevtx hprevtx =>
      split at h
      · split_ifs at h
        cases h
        exact ⟨rfl, .inr ⟨rfl, hshared, prevtx, hprevtx, rfl⟩⟩
      · exact absurd h (by simp)
    · exact absurd h (by simp)

/-- What a message of ours is recorded as. A shared input of ours is the expected one. -/
theorem sentInput_kind {serialId : SerialId} {given input : InputOwned Script} {o : OutPoint}
    {weight : ℕ} (hgiven : ∀ s, given = .shared s → c.sharedFundingInput = some s)
    (h : c.sentInput (InteractiveTxConstructor.txAddInputMsg serialId given) weight
      = .ok (input, o)) :
    input.txIn.previousOutput = o ∧
      ((∃ s, c.sharedFundingInput = some s ∧ input = .shared s ∧
          (InteractiveTxConstructor.txAddInputMsg serialId given).sharedInputTxid ≠ none) ∨
        (input.isShared = false ∧
          (InteractiveTxConstructor.txAddInputMsg serialId given).addsAsSingle o)) := by
  cases given with
  | shared s =>
    simp only [InteractiveTxConstructor.txAddInputMsg, sentInput, hgiven s rfl] at h
    cases h
    exact ⟨rfl, .inl ⟨s, hgiven s rfl, rfl, by simp [InteractiveTxConstructor.txAddInputMsg]⟩⟩
  | single single =>
    simp only [InteractiveTxConstructor.txAddInputMsg, sentInput] at h
    split at h
    · cases h
      exact ⟨rfl, .inr ⟨rfl, rfl, single.prevTx, rfl, rfl⟩⟩
    · exact absurd h (by simp)

theorem receivedTxAddInput_added (h : c.receivedTxAddInput rules msg = .ok c') :
    ∃ entry, InputAdded msg c c' entry := by
  simp only [receivedTxAddInput, bind_eq_ok, guardWith_eq_ok, exists_const, pure_eq_ok] at h
  obtain ⟨-, -, -, ⟨input, o⟩, hinput, -, hfresh, rfl⟩ := h
  obtain ⟨rfl, hkind⟩ := receivedInput_kind hinput
  exact ⟨⟨msg.serialId, .remote, input⟩, hfresh, rfl, ⟨c.inputs, rfl, .refl _⟩, rfl, rfl, hkind⟩

theorem sentTxAddInput_added {serialId : SerialId} {given : InputOwned Script} {weight : ℕ}
    (hgiven : ∀ s, given = .shared s → c.sharedFundingInput = some s)
    (h : c.sentTxAddInput (InteractiveTxConstructor.txAddInputMsg serialId given) weight = .ok c') :
    ∃ entry, InputAdded (InteractiveTxConstructor.txAddInputMsg serialId given) c c' entry := by
  simp only [NegotiationContext.sentTxAddInput, bind_eq_ok, guardWith_eq_ok, exists_const,
    pure_eq_ok] at h
  obtain ⟨⟨input, o⟩, hinput, hfresh, rfl⟩ := h
  obtain ⟨rfl, hkind⟩ := sentInput_kind hgiven hinput
  exact ⟨⟨_, .holder, input⟩, hfresh, rfl, ⟨_, rfl, filter_sublist⟩, rfl, rfl, hkind⟩

/-! ### What is recorded about the shared outpoint -/

/-- Somebody added the outpoint as their own: it is used up, and no shared input is recorded. -/
def Claimed (o : OutPoint) (c : NegotiationContext Script NodeId) : Prop :=
  o ∈ c.prevtxOutpoints ∧ ∀ input ∈ c.inputs, input.input.isShared = false

/-- **The invariant of a negotiation** that expects the shared input `s`, after the messages `msgs`
of the counterparty, where the holder contributes the inputs `given` and has yet to add
`remaining`. -/
structure Recorded (s : SharedOwnedInput Script) (given : List (SerialId × InputOwned Script))
    (msgs : List (PeerMessage Script)) (remaining : List (SerialId × InputOwned Script))
    (c : NegotiationContext Script NodeId) : Prop where
  expected : c.sharedFundingInput = some s
  given_shared : ∀ x ∈ given, ∀ s', x.2 = .shared s' → s' = s
  outpoint_mem : ∀ input ∈ c.inputs, input.outpoint ∈ c.prevtxOutpoints
  nodup : (c.inputs.map outpoint).Nodup
  shared_eq : ∀ input ∈ c.inputs, input.input.isShared → input.input = .shared s
  /-- Only a message that adds the outpoint as a single party's input records it as such. -/
  single : ∀ input ∈ c.inputs, input.outpoint = s.previousOutput → input.input.isShared = false →
    (∃ msg ∈ msgs, msg.addsAsSingle s.previousOutput) ∨
      ∃ x ∈ given, (InteractiveTxConstructor.txAddInputMsg x.1 x.2).addsAsSingle s.previousOutput
  peer : (∃ msg ∈ msgs, msg.addsAsSingle s.previousOutput) → Claimed s.previousOutput c
  holder : ∃ sent, given = sent ++ remaining ∧ ∀ x ∈ sent,
    (InteractiveTxConstructor.txAddInputMsg x.1 x.2).addsAsSingle s.previousOutput →
      Claimed s.previousOutput c
  outputs_le : ∀ output ∈ c.outputs, output.remoteValue ≤ 3 * totalBitcoinSupplySatoshis

variable {s : SharedOwnedInput Script} {given remaining : List (SerialId × InputOwned Script)}
  {msgs : List (PeerMessage Script)} {entry : InteractiveTxInput Script}

/-- The remote part of an output is bounded, if the outputs of the remote party are. -/
theorem OutputOwned.remoteValue_le {output : OutputOwned Script} {role : AddingRole}
    (h : ∀ txOut, output = .single txOut → role = .remote →
      txOut.value ≤ 3 * totalBitcoinSupplySatoshis) :
    output.remoteValue role ≤ 3 * totalBitcoinSupplySatoshis := by
  rcases output with txOut | shared
  · cases role with
    | holder => exact Nat.zero_le _
    | remote => exact h txOut rfl rfl
  · exact (Nat.sub_le _ _).trans shared.value_le

theorem receivedOutput_single [DecidableEq Script] {txOut txOut' : TxOut Script}
    (h : c.receivedOutput txOut = .ok (.single txOut')) : txOut' = txOut := by
  unfold receivedOutput at h
  split_ifs at h
  · cases h
  · cases h; rfl

namespace Recorded

section

variable (h : Recorded s given msgs remaining c)

include h

theorem outpoint_of_shared {input : InteractiveTxInput Script}
    (hmem : input ∈ c.inputs) (hshared : input.input.isShared) :
    input.outpoint = s.previousOutput := by
  unfold outpoint
  rw [h.shared_eq input hmem hshared]
  rfl

/-- Once the outpoint is claimed, it stays so. -/
theorem claimed_of_claimed (hadd : InputAdded msg c c' entry)
    (hclaimed : Claimed s.previousOutput c) : Claimed s.previousOutput c' := by
  obtain ⟨rest, hinputs, hsub⟩ := hadd.inputs
  refine ⟨by rw [hadd.prevtxOutpoints]; exact mem_cons_of_mem _ hclaimed.1, ?_⟩
  intro input hmem
  rw [hinputs] at hmem
  rcases mem_cons.1 hmem with rfl | hmem
  · rcases hadd.kind with ⟨s', hs', hshared, -⟩ | ⟨hsingle, -⟩
    · obtain rfl : s = s' := Option.some.inj (h.expected.symm.trans hs')
      refine absurd hclaimed.1 ?_
      have hfresh := hadd.fresh
      unfold outpoint at hfresh
      rw [hshared] at hfresh
      exact hfresh
    · exact hsingle
  · exact hclaimed.2 input (hsub.subset hmem)

/-- A message that adds the outpoint as a single party's input claims it. -/
theorem claimed_of_addsAsSingle
    (hadd : InputAdded msg c c' entry) (hmsg : msg.addsAsSingle s.previousOutput) :
    Claimed s.previousOutput c' := by
  obtain ⟨rest, hinputs, hsub⟩ := hadd.inputs
  rcases hadd.kind with ⟨_, -, -, hshared⟩ | ⟨hsingle, -, p, hp, ho⟩
  · exact absurd hmsg.1 hshared
  obtain ⟨-, p', hp', ho'⟩ := hmsg
  obtain rfl : p = p' := Option.some.inj (hp.symm.trans hp')
  rw [ho'] at ho
  refine ⟨by rw [hadd.prevtxOutpoints, ho]; exact mem_cons_self, ?_⟩
  intro input hmem
  rw [hinputs] at hmem
  rcases mem_cons.1 hmem with rfl | hmem
  · exact hsingle
  · by_contra hshared
    have hmem' := hsub.subset hmem
    refine hadd.fresh ?_
    rw [← ho, ← h.outpoint_of_shared hmem' (by simpa using hshared)]
    exact h.outpoint_mem input hmem'

/-- **Adding an input** keeps the invariant, whoever adds it. -/
theorem addInput (hadd : InputAdded msg c c' entry)
    {msgs' : List (PeerMessage Script)} {remaining' : List (SerialId × InputOwned Script)}
    (hmsgs : msgs ⊆ msgs')
    (hentry : msg.addsAsSingle s.previousOutput → (∃ m ∈ msgs', m.addsAsSingle s.previousOutput) ∨
      ∃ x ∈ given, (InteractiveTxConstructor.txAddInputMsg x.1 x.2).addsAsSingle s.previousOutput)
    (hpeer : (∃ m ∈ msgs', m.addsAsSingle s.previousOutput) →
      (∃ m ∈ msgs, m.addsAsSingle s.previousOutput) ∨ msg.addsAsSingle s.previousOutput)
    (hholder : ∃ sent, given = sent ++ remaining' ∧ ∀ x ∈ sent,
      (InteractiveTxConstructor.txAddInputMsg x.1 x.2).addsAsSingle s.previousOutput →
        Claimed s.previousOutput c') : Recorded s given msgs' remaining' c' := by
  obtain ⟨rest, hinputs, hsub⟩ := hadd.inputs
  refine ⟨hadd.expected.trans h.expected, h.given_shared, ?_, ?_, ?_, ?_, ?_, hholder, ?_⟩
  · intro input hmem
    rw [hadd.prevtxOutpoints]
    rw [hinputs] at hmem
    rcases mem_cons.1 hmem with rfl | hmem
    · exact mem_cons_self
    · exact mem_cons_of_mem _ (h.outpoint_mem input (hsub.subset hmem))
  · rw [hinputs, map_cons, nodup_cons]
    refine ⟨fun hmem => hadd.fresh ?_, h.nodup.sublist (hsub.map _)⟩
    obtain ⟨input, hinput, heq⟩ := mem_map.1 hmem
    exact heq ▸ h.outpoint_mem input (hsub.subset hinput)
  · intro input hmem hshared
    rw [hinputs] at hmem
    rcases mem_cons.1 hmem with rfl | hmem
    · rcases hadd.kind with ⟨s', hs', hinput, -⟩ | ⟨hsingle, -⟩
      · rw [hinput, Option.some.inj (h.expected.symm.trans hs')]
      · rw [hsingle] at hshared; cases hshared
    · exact h.shared_eq input (hsub.subset hmem) hshared
  · intro input hmem houtpoint hsingle
    rw [hinputs] at hmem
    rcases mem_cons.1 hmem with rfl | hmem
    · rcases hadd.kind with ⟨s', -, hinput, -⟩ | ⟨-, hadds⟩
      · rw [hinput] at hsingle; cases hsingle
      · exact hentry (houtpoint ▸ hadds)
    · refine (h.single input (hsub.subset hmem) houtpoint hsingle).imp_left ?_
      exact fun ⟨m, hm, hadds⟩ => ⟨m, hmsgs hm, hadds⟩
  · intro hintroduced
    rcases hpeer hintroduced with hold | hnew
    · exact h.claimed_of_claimed hadd (h.peer hold)
    · exact h.claimed_of_addsAsSingle hadd hnew
  · rw [hadd.outputs]; exact h.outputs_le

/-- Taking inputs away, and changing the outputs, keeps the invariant. -/
theorem of_sublist (hexpected : c'.sharedFundingInput = c.sharedFundingInput)
    (hprevtx : c'.prevtxOutpoints = c.prevtxOutpoints) (hinputs : c'.inputs.Sublist c.inputs)
    (houtputs : ∀ output ∈ c'.outputs, output.remoteValue ≤ 3 * totalBitcoinSupplySatoshis) :
    Recorded s given msgs remaining c' := by
  have hclaimed : Claimed s.previousOutput c → Claimed s.previousOutput c' := fun hclaimed =>
    ⟨hprevtx ▸ hclaimed.1, fun input hmem => hclaimed.2 input (hinputs.subset hmem)⟩
  obtain ⟨sent, hgiven, hsent⟩ := h.holder
  refine ⟨hexpected.trans h.expected, h.given_shared, ?_, h.nodup.sublist (hinputs.map _), ?_, ?_,
    fun hintroduced => hclaimed (h.peer hintroduced),
    ⟨sent, hgiven, fun x hx hadds => hclaimed (hsent x hx hadds)⟩, houtputs⟩
  · exact fun input hmem => hprevtx ▸ h.outpoint_mem input (hinputs.subset hmem)
  · exact fun input hmem => h.shared_eq input (hinputs.subset hmem)
  · exact fun input hmem => h.single input (hinputs.subset hmem)

/-- A message that does not add the outpoint can be counted as received. -/
theorem append_msg {m : PeerMessage Script}
    (hm : ¬m.addsAsSingle s.previousOutput) : Recorded s given (msgs ++ [m]) remaining c := by
  have hiff : (∃ m' ∈ msgs ++ [m], m'.addsAsSingle s.previousOutput) ↔
      ∃ m' ∈ msgs, m'.addsAsSingle s.previousOutput := by simp [hm]
  exact { h with
    single := by rw [hiff]; exact h.single
    peer := by rw [hiff]; exact h.peer }

end

/-! ### Steps of a negotiation -/

theorem sentTxAddInput {serialId : SerialId} {input : InputOwned Script} {weight : ℕ}
    (h : Recorded s given msgs ((serialId, input) :: remaining) c)
    (hsent : c.sentTxAddInput (InteractiveTxConstructor.txAddInputMsg serialId input) weight
      = .ok c') : Recorded s given msgs remaining c' := by
  obtain ⟨sent, hgiven, hclaimed⟩ := h.holder
  have hmem : (serialId, input) ∈ given := by rw [hgiven]; simp
  have hshared : ∀ s', input = .shared s' → c.sharedFundingInput = some s' := by
    intro s' hs'
    rw [h.given_shared _ hmem s' hs']
    exact h.expected
  obtain ⟨entry, hadd⟩ := sentTxAddInput_added hshared hsent
  refine h.addInput hadd (.refl _) (fun hadds => .inr ⟨_, hmem, hadds⟩) .inl
    ⟨sent ++ [(serialId, input)], by rw [hgiven, append_assoc]; rfl, ?_⟩
  intro x hx hadds
  rcases mem_append.1 hx with hx | hx
  · exact h.claimed_of_claimed hadd (hclaimed x hx hadds)
  · rw [mem_singleton.1 hx] at hadds
    exact h.claimed_of_addsAsSingle hadd hadds

variable [DecidableEq Script]

theorem received (h : Recorded s given msgs remaining c) {m : PeerMessage Script}
    (hreceived : c.received rules m = .ok c') : Recorded s given (msgs ++ [m]) remaining c' := by
  cases m with
  | txAddInput msg =>
    obtain ⟨entry, hadd⟩ := receivedTxAddInput_added hreceived
    obtain ⟨sent, hgiven, hsent⟩ := h.holder
    refine h.addInput hadd (subset_append_left _ _)
      (fun hadds => .inl ⟨.txAddInput msg, by simp, hadds⟩) ?_
      ⟨sent, hgiven, fun x hx hadds => h.claimed_of_claimed hadd (hsent x hx hadds)⟩
    rintro ⟨m, hm, hadds⟩
    rcases mem_append.1 hm with hm | hm
    · exact .inl ⟨m, hm, hadds⟩
    · rw [mem_singleton.1 hm] at hadds
      exact .inr hadds
  | txRemoveInput serialId =>
    simp only [NegotiationContext.received, receivedTxRemoveInput, bind_eq_ok,
      guardWith_eq_ok, exists_const, pure_eq_ok] at hreceived
    obtain ⟨-, -, rfl⟩ := hreceived
    exact (h.append_msg id).of_sublist rfl rfl filter_sublist h.outputs_le
  | txAddOutput msg =>
    simp only [NegotiationContext.received, receivedTxAddOutput, bind_eq_ok,
      guardWith_eq_ok, exists_const, pure_eq_ok] at hreceived
    obtain ⟨-, -, -, hsupply, -, output, houtput, -, rfl⟩ := hreceived
    refine (h.append_msg id).of_sublist rfl rfl (.refl _) ?_
    intro out hout
    rcases mem_cons.1 hout with rfl | hout
    · refine OutputOwned.remoteValue_le fun txOut hsingle _ => ?_
      obtain rfl := hsingle
      have hsats := receivedOutput_single houtput
      simp only [satAdd64] at hsupply
      rw [hsats]
      show msg.sats ≤ _
      have := totalBitcoinSupplySatoshis_lt
      omega
    · exact h.outputs_le out hout
  | txRemoveOutput serialId =>
    simp only [NegotiationContext.received, receivedTxRemoveOutput, bind_eq_ok,
      guardWith_eq_ok, exists_const, pure_eq_ok] at hreceived
    obtain ⟨-, -, rfl⟩ := hreceived
    exact (h.append_msg id).of_sublist rfl rfl (.refl _)
      fun output hmem => h.outputs_le output (mem_of_mem_filter hmem)
  | txComplete =>
    cases hreceived
    exact h.append_msg id

theorem sentTxAddOutput (h : Recorded s given msgs remaining c) (msg : TxAddOutput Script) :
    Recorded s given msgs remaining (c.sentTxAddOutput msg) := by
  refine h.of_sublist rfl rfl (.refl _) ?_
  intro out hout
  rcases mem_cons.1 hout with rfl | hout
  · exact OutputOwned.remoteValue_le fun _ _ hrole => by cases hrole
  · exact h.outputs_le out (mem_of_mem_filter hout)

end Recorded

/-! ### Runs -/

namespace InteractiveTxConstructor

variable [DecidableEq Script] [LinearOrder NodeId]

variable (rules) in
def start (args : InteractiveTxConstructorArgs Script NodeId) (isInitiator : Bool) :
    InteractiveTxConstructor Script NodeId :=
  if isInitiator then (newForOutbound rules args).1 else newForInbound args

variable (rules) in
def run (self : InteractiveTxConstructor Script NodeId) (msgs : List (PeerMessage Script)) :
    InteractiveTxConstructor Script NodeId :=
  msgs.foldl (fun self msg => (self.handle rules msg).1) self

/-- The invariant holds as long as the negotiation lasts, and who sent `tx_complete` has nothing
left to add. -/
def KeepsRecord (s : SharedOwnedInput Script) (given : List (SerialId × InputOwned Script))
    (msgs : List (PeerMessage Script)) (self : InteractiveTxConstructor Script NodeId) : Prop :=
  ∀ c, self.stateMachine.context? = some c → Recorded s given msgs self.remainingInputs c ∧
    (self.stateMachine = .sentTxComplete c → self.remainingInputs = [])

variable {self self' : InteractiveTxConstructor Script NodeId}
  {answer : Option (InteractiveTxMessageSend Script)}

theorem Turn.keepsRecord (hturn : Turn rules c self self' answer)
    (h : Recorded s given msgs self.remainingInputs c) : KeepsRecord s given msgs self' := by
  intro c₁ hc₁
  cases hturn with
  | aborted _ hstate => rw [hstate] at hc₁; cases hc₁
  | txAddInput serialId input c' hrem hsent hstate =>
    rw [hstate] at hc₁ ⊢
    cases hc₁
    exact ⟨(hrem ▸ h).sentTxAddInput hsent, by simp⟩
  | txAddOutput msg hrem hstate =>
    rw [hstate] at hc₁ ⊢
    cases hc₁
    rw [hrem.1] at h
    exact ⟨hrem.2 ▸ h.sentTxAddOutput msg, by simp⟩
  | txComplete hrem _ hstate =>
    rw [hstate] at hc₁
    cases hc₁
    rw [hrem.1] at h
    exact ⟨hrem.2 ▸ h, fun _ => hrem.2⟩
  | complete _ _ _ _ hstate => rw [hstate] at hc₁; cases hc₁

theorem Handled.keepsRecord {m : PeerMessage Script} (hhandled : Handled rules self self' m answer)
    (h : KeepsRecord s given msgs self) : KeepsRecord s given (msgs ++ [m]) self' := by
  cases hhandled with
  | aborted _ _ hstate => intro c₁ hc₁; rw [hstate] at hc₁; cases hc₁
  | change _ _ c c' _ hself hreceived hturn =>
    have hc : self.stateMachine.context? = some c := by rcases hself with h | h <;> rw [h] <;> rfl
    exact hturn.keepsRecord ((h c hc).1.received hreceived)
  | respond _ c hself hturn =>
    have hc : self.stateMachine.context? = some c := by rw [hself]; rfl
    exact hturn.keepsRecord ((h c hc).1.append_msg id)
  | complete c session _ _ hself' => intro c₁ hc₁; rw [hself'] at hc₁; cases hc₁

theorem mem_shuffle {α : Type} {entropySource : ℕ → ℕ} {isInitiator : Bool} {xs : List α} {x : α} :
    (∃ serialId, (serialId, x) ∈ shuffle entropySource isInitiator xs) ↔ x ∈ xs := by
  constructor
  · rintro ⟨serialId, hmem⟩
    rw [shuffle, mem_insertionSort, mem_map] at hmem
    obtain ⟨⟨y, i⟩, hy, heq⟩ := hmem
    obtain rfl : y = x := congrArg Prod.snd heq
    exact fst_mem_of_mem_zipIdx hy
  · intro hmem
    obtain ⟨i, hi, rfl⟩ := getElem_of_mem hmem
    refine ⟨generateHolderSerialId (entropySource i) isInitiator, ?_⟩
    rw [shuffle, mem_insertionSort, mem_map]
    exact ⟨(xs[i], i), by simp [mem_zipIdx_iff_getElem?], rfl⟩

omit [DecidableEq Script] [LinearOrder NodeId] in
/-- A new constructor has recorded nothing and has everything left to add. -/
theorem recorded_new {args : InteractiveTxConstructorArgs Script NodeId} {isInitiator : Bool}
    (hs : args.sharedFundingInput = some s) :
    Recorded s (new args isInitiator).inputsToContribute [] (new args isInitiator).remainingInputs
      (initialContext args isInitiator) := by
  have hrem : (new args isInitiator).remainingInputs =
      (new args isInitiator).inputsToContribute := by
    simp only [remainingInputs, new]
    split
    · next h => split_ifs at h; cases h; rfl
    · next h => split_ifs at h with hempty; exact (List.isEmpty_iff.1 hempty).symm
  rw [hrem]
  refine ⟨hs, ?_, by simp [initialContext], by simp [initialContext], by simp [initialContext],
    by simp [initialContext], by simp, ⟨[], rfl, by simp⟩, by simp [initialContext]⟩
  rintro ⟨serialId, input⟩ hmem s' rfl
  have hinput := mem_shuffle.1 ⟨serialId, hmem⟩
  cases isInitiator with
  | false => simp [contributedInputs] at hinput
  | true => simpa [contributedInputs, hs] using hinput

theorem recorded_run {args : InteractiveTxConstructorArgs Script NodeId} {isInitiator : Bool}
    (hs : args.sharedFundingInput = some s) (msgs : List (PeerMessage Script)) :
    KeepsRecord s (new args isInitiator).inputsToContribute msgs
      (run rules (start rules args isInitiator) msgs) := by
  induction msgs using List.reverseRecOn with
  | nil =>
    have hnew := @recorded_new _ _ s args isInitiator hs
    cases isInitiator with
    | false =>
      intro c hc
      obtain rfl : initialContext args false = c := Option.some.inj hc
      exact ⟨hnew, fun h => by cases h⟩
    | true => exact (maybeSendMessage_turn rules (new args true) (.inl rfl)).keepsRecord hnew
  | append_singleton msgs m ih =>
    rw [run, foldl_concat]
    exact (handle_handled rules _ m).keepsRecord ih

/-- **Completion.** A negotiation completes on the context it is in, when we have nothing left to
add. -/
theorem context_of_complete {session : InteractiveTxSigningSession Script}
    (hrun : KeepsRecord s given msgs self)
    (hdone : (self.handle rules .txComplete).1.stateMachine = .negotiationComplete session) :
    ∃ c, self.stateMachine.context? = some c ∧ completeNegotiation rules c = .ok session ∧
      self.remainingInputs = [] := by
  have hhandled := handle_handled rules self .txComplete
  generalize (self.handle rules .txComplete).1 = self' at hdone hhandled
  generalize (self.handle rules .txComplete).2.toOption.join = answer at hhandled
  cases hhandled with
  | aborted _ _ h => rw [hdone] at h; cases h
  | change _ _ _ _ hmsg => exact absurd rfl hmsg
  | respond _ c hself hturn =>
    refine ⟨c, by rw [hself]; rfl, ?_⟩
    cases hturn with
    | aborted _ h => rw [hdone] at h; cases h
    | txAddInput _ _ _ _ _ h => rw [hdone] at h; cases h
    | txAddOutput _ _ h => rw [hdone] at h; cases h
    | txComplete _ _ h => rw [hdone] at h; cases h
    | complete session' hrem _ hsession h =>
      rw [hdone] at h
      cases h
      exact ⟨hsession, hrem.1⟩
  | complete c session' hself hsession h =>
    have hc : self.stateMachine.context? = some c := by rw [hself]; rfl
    rw [h] at hdone
    cases hdone
    exact ⟨c, hc, hsession, (hrun c hc).2 hself⟩

end InteractiveTxConstructor

/-! ### Payment -/

def remoteOwnInputsValue (o : OutPoint) (c : NegotiationContext Script NodeId) : ℕ :=
  ((c.inputs.filter fun input => input.addedBy = .remote ∧ input.outpoint ≠ o).map
    fun input => input.input.value).sum

def remoteOwnedOutputsValue (c : NegotiationContext Script NodeId) : ℕ :=
  (c.outputs.map InteractiveTxOutput.remoteValue).sum

variable (rules) in
/-- **The counterparty paid for its contribution.** -/
structure PaysForContribution (s : SharedOwnedInput Script) (c : NegotiationContext Script NodeId)
    (tx : ConstructedTransaction Script) : Prop where
  /-- Exactly one input spends the shared outpoint, -/
  spent_once : tx.tx.input.countP (fun txin => txin.previousOutput = s.previousOutput) = 1
  /-- it is recorded as the shared input, -/
  recorded : ∀ input ∈ c.inputs, input.outpoint = s.previousOutput → input.input = .shared s
  /-- and the counterparty's inputs with its part of the shared one cover its outputs and fee. -/
  paid : requiredRemoteContributionFee rules c + remoteOwnedOutputsValue c ≤
    remoteOwnInputsValue s.previousOutput c + s.remoteOwned

theorem foldl_satAdd64 {α : Type} (f : α → ℕ) (xs : List α) :
    xs.foldl (fun acc x => satAdd64 acc (f x)) 0 = min (xs.map f).sum (2 ^ 64 - 1) := by
  have key : ∀ (xs : List α) (acc : ℕ), acc ≤ 2 ^ 64 - 1 →
      xs.foldl (fun acc x => satAdd64 acc (f x)) acc = min (acc + (xs.map f).sum) (2 ^ 64 - 1) := by
    intro xs
    induction xs with
    | nil => intro acc hacc; simpa using hacc
    | cons x xs ih =>
      intro acc hacc
      have hle : satAdd64 acc (f x) ≤ 2 ^ 64 - 1 := min_le_right _ _
      rw [foldl_cons, ih _ hle, map_cons, sum_cons, satAdd64]
      omega
  simpa using key xs 0 (Nat.zero_le _)

/-- The part of the remote party in the inputs: its own inputs, and its part of the shared one for
each time it is spent. -/
theorem sum_remoteValue (inputs : List (InteractiveTxInput Script))
    (h : ∀ input ∈ inputs, (input.outpoint = s.previousOutput → input.input = .shared s) ∧
      (input.input.isShared → input.outpoint = s.previousOutput)) :
    (inputs.map remoteValue).sum =
      ((inputs.filter fun input => input.addedBy = .remote ∧ input.outpoint ≠ s.previousOutput).map
        fun input => input.input.value).sum +
      (inputs.map outpoint).count s.previousOutput * s.remoteOwned := by
  induction inputs with
  | nil => simp
  | cons input inputs ih =>
    have ih := ih fun input hmem => h input (mem_cons_of_mem _ hmem)
    obtain ⟨hshared, houtpoint⟩ := h input mem_cons_self
    rw [map_cons, sum_cons, ih, map_cons, count_cons, filter_cons]
    by_cases ho : input.outpoint = s.previousOutput
    · have hvalue : input.remoteValue = s.remoteOwned := by
        rw [remoteValue, hshared ho]; rfl
      simp only [ho, hvalue, ne_eq, not_true_eq_false, and_false, decide_false, Bool.false_eq_true,
        if_false, beq_self_eq_true, if_true]
      ring
    · have hsingle : input.input.isShared = false := by
        by_contra hne; exact ho (houtpoint (by simpa using hne))
      have hvalue : input.remoteValue =
          if input.addedBy = .remote then input.input.value else 0 := by
        unfold remoteValue
        rcases hinput : input.input with single | shared
        · cases input.addedBy <;> rfl
        · rw [hinput] at hsingle; cases hsingle
      by_cases hremote : input.addedBy = .remote
      · simp [ho, hvalue, hremote]
        ring
      · simp [ho, hvalue, hremote]

section Completed

variable [DecidableEq Script]

theorem build_input_perm (c : NegotiationContext Script NodeId) :
    ((build c).tx.input.map TxIn.previousOutput).Perm (c.inputs.map outpoint) := by
  have hperm := ((perm_insertionSort (fun a b : TxIn × TxInMetadata Script =>
    a.2.serialId ≤ b.2.serialId) (c.inputs.map intoTxinAndMetadata)).map
    Prod.fst).map TxIn.previousOutput
  refine hperm.trans (.of_eq ?_)
  rw [map_map, map_map]
  rfl

/-- The outpoint that is found in the end is that of a recorded input. -/
theorem exists_input_of_sharedInputIndex (hexpected : c.sharedFundingInput = some s)
    (hindex : (build c).sharedInputIndex.isSome) : s.previousOutput ∈ c.inputs.map outpoint := by
  rw [← (build_input_perm c).mem_iff]
  have hfind : ((build c).tx.input.findIdx?
      fun txin => txin.previousOutput = s.previousOutput).isSome := by
    simpa [build, hexpected] using hindex
  rw [findIdx?_isSome, any_eq_true] at hfind
  obtain ⟨txin, hmem, heq⟩ := hfind
  exact mem_map.2 ⟨txin, hmem, by simpa using heq⟩

/-- Who adds no more than 252 outputs, each bounded, does not saturate their sum. -/
theorem remoteOutputsValue_eq (h : Recorded s given msgs remaining c)
    (hlen : (build c).tx.output.length ≤ maxInputsOutputsCount) :
    c.remoteOutputsValue = remoteOwnedOutputsValue c := by
  have hlen' : c.outputs.length ≤ 252 := by
    simpa [build, length_insertionSort, maxInputsOutputsCount] using hlen
  have hsum : remoteOwnedOutputsValue c ≤ c.outputs.length * (3 * totalBitcoinSupplySatoshis) := by
    have := sum_le_card_nsmul (c.outputs.map InteractiveTxOutput.remoteValue)
      (3 * totalBitcoinSupplySatoshis) (by simpa using h.outputs_le)
    simpa [remoteOwnedOutputsValue] using this
  have hbound : c.outputs.length * (3 * totalBitcoinSupplySatoshis) ≤
      252 * (3 * totalBitcoinSupplySatoshis) := Nat.mul_le_mul_right _ hlen'
  have hsupply := totalBitcoinSupplySatoshis_lt
  rw [remoteOutputsValue, foldl_satAdd64]
  exact min_eq_left (by unfold remoteOwnedOutputsValue at hsum; omega)

variable [LinearOrder NodeId]

section

variable {session : InteractiveTxSigningSession Script}

theorem completeNegotiation_checks (h : completeNegotiation rules c = .ok session) :
    new rules c = .ok session.unsignedTx ∧
      session.unsignedTx = build c ∧
      requiredRemoteContributionFee rules c + c.remoteOutputsValue ≤ c.remoteInputsValue ∧
      session.unsignedTx.tx.output.length ≤ maxInputsOutputsCount ∧
      (c.sharedFundingInput.isSome → session.unsignedTx.sharedInputIndex.isSome) := by
  simp only [completeNegotiation, bind_eq_ok, pure_eq_ok] at h
  obtain ⟨tx, hnew, rfl⟩ := h
  refine ⟨hnew, ?_⟩
  simp only [new, bind_eq_ok, guardWith_eq_ok, exists_const, pure_eq_ok] at hnew
  obtain ⟨hvalue, hfee, hlen, hshared, -, -, rfl⟩ := hnew
  exact ⟨rfl, by omega, hlen.2, hshared⟩

/-- **If nobody added the shared outpoint as their own, the counterparty has paid.** -/
theorem Recorded.paysForContribution
    (h : Recorded s given msgs remaining c) (hsession : completeNegotiation rules c = .ok session)
    (hpeer : ∀ m ∈ msgs, ¬m.addsAsSingle s.previousOutput)
    (hholder : ∀ x ∈ given,
      ¬(InteractiveTxConstructor.txAddInputMsg x.1 x.2).addsAsSingle s.previousOutput) :
    PaysForContribution rules s c session.unsignedTx := by
  obtain ⟨-, htx, hfee, hlen, hindex⟩ := completeNegotiation_checks hsession
  rw [htx] at hindex hlen ⊢
  have hmem := exists_input_of_sharedInputIndex h.expected (hindex (by simp [h.expected]))
  have hcount := count_eq_one_of_mem h.nodup hmem
  have hrecorded : ∀ input ∈ c.inputs, input.outpoint = s.previousOutput →
      input.input = .shared s := by
    intro input hinput ho
    refine h.shared_eq input hinput ?_
    by_contra hsingle
    rcases h.single input hinput ho (by simpa using hsingle) with ⟨m, hm, hadds⟩ | ⟨x, hx, hadds⟩
    · exact hpeer m hm hadds
    · exact hholder x hx hadds
  refine ⟨?_, hrecorded, ?_⟩
  · rw [← hcount, ← (build_input_perm c).count_eq, List.count, countP_map]
    exact countP_congr fun txin _ => by simp
  · have hinputs := sum_remoteValue (s := s) c.inputs fun input hinput =>
      ⟨hrecorded input hinput, h.outpoint_of_shared hinput⟩
    have hle : c.remoteInputsValue ≤ (c.inputs.map remoteValue).sum := by
      rw [remoteInputsValue, foldl_satAdd64]
      exact min_le_left _ _
    rw [hinputs, hcount, one_mul] at hle
    rw [remoteOutputsValue_eq h hlen] at hfee
    exact hfee.trans hle

/-- **If somebody added the shared outpoint as their own, it is not recorded as shared.** -/
theorem Recorded.not_paysForContribution
    (h : Recorded s given msgs remaining c) (hsession : completeNegotiation rules c = .ok session)
    (hclaimed : Claimed s.previousOutput c) :
    ¬PaysForContribution rules s c session.unsignedTx := by
  intro hpays
  obtain ⟨-, htx, -, -, hindex⟩ := completeNegotiation_checks hsession
  rw [htx] at hindex
  have hmem := exists_input_of_sharedInputIndex h.expected (hindex (by simp [h.expected]))
  obtain ⟨input, hinput, ho⟩ := mem_map.1 hmem
  have hsingle := hclaimed.2 input hinput
  rw [hpays.recorded input hinput ho] at hsingle
  cases hsingle

end

omit [DecidableEq Script] [LinearOrder NodeId] in
open InteractiveTxConstructor in
theorem exists_given_addsAsSingle_iff {args : InteractiveTxConstructorArgs Script NodeId}
    {isInitiator : Bool} {o : OutPoint} :
    (∃ x ∈ (new args isInitiator).inputsToContribute, (txAddInputMsg x.1 x.2).addsAsSingle o) ↔
      ∃ confirmed ∈ args.inputsToContribute,
        OutPoint.mk confirmed.prevtx.computeTxid confirmed.outpoint.vout = o := by
  constructor
  · rintro ⟨⟨serialId, input⟩, hmem, hadds⟩
    have hinput := mem_shuffle.1 ⟨serialId, hmem⟩
    rcases mem_append.1 hinput with hinput | hinput
    · obtain ⟨confirmed, hconfirmed, rfl⟩ := mem_map.1 hinput
      obtain ⟨-, prevtx, hprevtx, ho⟩ := hadds
      cases hprevtx
      exact ⟨confirmed, hconfirmed, ho⟩
    · split_ifs at hinput
      · obtain ⟨shared, -, rfl⟩ := mem_map.1 hinput
        cases hadds.1
      · cases hinput
  · rintro ⟨confirmed, hconfirmed, ho⟩
    have hinput := mem_append_left
      (if isInitiator then args.sharedFundingInput.toList.map InputOwned.shared else [])
      (mem_map_of_mem (f := fun confirmed : ConfirmedUtxo Script => InputOwned.single
        { input := { previousOutput := confirmed.outpoint, sequence := confirmed.sequence }
          prevTx := confirmed.prevtx
          prevOutput := confirmed.output
          satisfactionWeight := confirmed.satisfactionWeight }) hconfirmed)
    obtain ⟨serialId, hmem⟩ := (@mem_shuffle _ args.entropySource isInitiator _ _).2 hinput
    exact ⟨_, hmem, rfl, confirmed.prevtx, rfl, ho⟩

open InteractiveTxConstructor in
/-- **The counterparty pays for its contribution exactly if nobody adds the shared outpoint as their
own.** Take any arguments of a negotiation that expects the shared input `s`, and any messages of
the counterparty after which a last `tx_complete` completes it. The negotiation then was in a
context of which `ConstructedTransaction::new` made the transaction, and the counterparty paid for
what it contributed if and only if none of its messages, and no output of the holder's wallet, added
the outpoint of the shared input as an input of one party. -/
theorem paysForContribution_iff (rules : BitcoinRules Script)
    (args : InteractiveTxConstructorArgs Script NodeId) (isInitiator : Bool)
    (s : SharedOwnedInput Script) (hs : args.sharedFundingInput = some s)
    (msgs : List (PeerMessage Script)) (session : InteractiveTxSigningSession Script)
    (hdone : ((run rules (start rules args isInitiator) msgs).handle rules
      .txComplete).1.stateMachine
      = .negotiationComplete session) :
    ∃ c, (run rules (start rules args isInitiator) msgs).stateMachine.context? = some c ∧
      new rules c = .ok session.unsignedTx ∧
      (PaysForContribution rules s c session.unsignedTx ↔
        (∀ msg ∈ msgs, ¬msg.addsAsSingle s.previousOutput) ∧
        ∀ confirmed ∈ args.inputsToContribute,
          OutPoint.mk confirmed.prevtx.computeTxid confirmed.outpoint.vout ≠ s.previousOutput) := by
  have hrun := @recorded_run _ _ rules s _ _ args isInitiator hs msgs
  obtain ⟨c, hc, hsession, hrem⟩ := context_of_complete hrun hdone
  have hrecorded := (hrun c hc).1
  refine ⟨c, hc, (completeNegotiation_checks hsession).1, ?_⟩
  constructor
  · intro hpays
    refine ⟨fun msg hmsg hadds => ?_, fun confirmed hconfirmed ho => ?_⟩
    · exact hrecorded.not_paysForContribution hsession (hrecorded.peer ⟨msg, hmsg, hadds⟩) hpays
    · obtain ⟨x, hx, hadds⟩ :=
        (@exists_given_addsAsSingle_iff _ _ args isInitiator _).2 ⟨confirmed, hconfirmed, ho⟩
      obtain ⟨sent, hgiven, hclaimed⟩ := hrecorded.holder
      rw [hrem, append_nil] at hgiven
      exact hrecorded.not_paysForContribution hsession (hclaimed x (hgiven ▸ hx) hadds) hpays
  · rintro ⟨hpeer, hholder⟩
    refine hrecorded.paysForContribution hsession hpeer fun x hx hadds => ?_
    obtain ⟨confirmed, hconfirmed, ho⟩ := exists_given_addsAsSingle_iff.1 ⟨x, hx, hadds⟩
    exact hholder confirmed hconfirmed ho

end Completed

/-! ### A splice -/

/-- Every script is a witness program of version 1; weights are those of plain transactions. -/
def spliceRules : BitcoinRules ℕ where
  isWitnessProgram _ := true
  isP2wpkh _ := false
  isP2wsh _ := false
  isP2tr _ := false
  witnessVersion _ := some 1
  minimalNonDust _ := 330
  encodedLen _ := 35
  weight tx := 4 * (10 + 41 * tx.input.length + 43 * tx.output.length)
  computeTxid _ := 0

/-- The channel has 100,000 sat, of which 60,000 are the holder's. -/
def spliceSharedInput : SharedOwnedInput ℕ where
  previousOutput := ⟨7, 0⟩
  prevOutput := ⟨100000, 1⟩
  localOwned := 60000
  holderSigFirst := true
  witnessScript := 1

/-- The holder accepts a splice and adds 50,000 sat of its own; the counterparty takes its part out
of the channel. -/
def spliceFundingOutput (localOwned : ℕ) : SharedOwnedOutput ℕ :=
  ⟨⟨109000, 2⟩, localOwned, by decide⟩

def spliceArgs : InteractiveTxConstructorArgs ℕ ℕ where
  entropySource i := 100 + i
  holderNodeId := 2
  counterpartyNodeId := 1
  feerateSatPerKw := 1000
  fundingTxLocktime := 0
  inputsToContribute :=
    [{ outpoint := ⟨5, 0⟩, output := ⟨50000, 3⟩, sequence := enableRbfNoLocktime
       satisfactionWeight := 112, prevtx := ⟨5, [⟨50000, 3⟩]⟩ }]
  sharedFundingInput := some spliceSharedInput
  sharedFundingOutput := spliceFundingOutput 109000
  outputsToContribute := []

/-- The counterparty adds an input, the new funding output and an output of its own. -/
def spliceMsgs (input : TxAddInput ℕ) (sats : ℕ) : List (PeerMessage ℕ) :=
  [.txAddInput input, .txAddOutput ⟨2, 109000, 2⟩, .txAddOutput ⟨4, sats, 4⟩]

def spliceAddShared : TxAddInput ℕ := ⟨0, none, 0, 0, some 7⟩

/-- The previous funding output, added with the funding transaction like any other input. -/
def spliceAddSingle : TxAddInput ℕ := ⟨0, some ⟨7, [⟨100000, 1⟩]⟩, 0, 0, none⟩

open InteractiveTxConstructor in
/-- A counterparty that adds the shared input as such has paid. -/
theorem paysForContribution_iff_splice :
    ∃ (c : NegotiationContext ℕ ℕ) (session : InteractiveTxSigningSession ℕ),
      ((run spliceRules (start spliceRules spliceArgs false)
        (spliceMsgs spliceAddShared 39000)).handle spliceRules .txComplete).1.stateMachine
        = .negotiationComplete session ∧
      PaysForContribution spliceRules spliceSharedInput c session.unsignedTx := by
  have hdone : ((run spliceRules (start spliceRules spliceArgs false)
      (spliceMsgs spliceAddShared 39000)).handle spliceRules
        .txComplete).1.stateMachine.session?.isSome
      := by decide +kernel
  obtain ⟨session, hsession⟩ := Option.isSome_iff_exists.1 hdone
  have hsession := StateMachine.session?_eq_some.1 hsession
  obtain ⟨c, -, -, hiff⟩ :=
    paysForContribution_iff spliceRules spliceArgs false spliceSharedInput rfl
    (spliceMsgs spliceAddShared 39000) session hsession
  refine ⟨c, session, hsession, hiff.2 ⟨?_, ?_⟩⟩
  · simp [spliceMsgs, PeerMessage.addsAsSingle, TxAddInput.addsAsSingle, spliceAddShared]
  · simp [spliceArgs, spliceSharedInput]

open InteractiveTxConstructor in
/-- **A counterparty that does not pay.** It adds the previous funding output with the funding
transaction. The input is recorded as the counterparty's alone and counted in full, so the
negotiation completes although the counterparty takes out all of its 40,000 sat and pays no fee. -/
theorem shared_outpoint_added_as_single :
    ∃ c session, (run spliceRules (start spliceRules spliceArgs false)
        (spliceMsgs spliceAddSingle 40000)).stateMachine.context? = some c ∧
      ((run spliceRules (start spliceRules spliceArgs false)
        (spliceMsgs spliceAddSingle 40000)).handle spliceRules .txComplete).1.stateMachine
        = .negotiationComplete session ∧
      new spliceRules c = .ok session.unsignedTx ∧
      (∃ input ∈ c.inputs, input.outpoint = spliceSharedInput.previousOutput ∧
        input.input.isShared = false) ∧
      remoteOwnInputsValue spliceSharedInput.previousOutput c + spliceSharedInput.remoteOwned <
        requiredRemoteContributionFee spliceRules c + remoteOwnedOutputsValue c ∧
      ¬PaysForContribution spliceRules spliceSharedInput c session.unsignedTx := by
  have hdone : ((run spliceRules (start spliceRules spliceArgs false)
      (spliceMsgs spliceAddSingle 40000)).handle spliceRules
        .txComplete).1.stateMachine.session?.isSome
      := by decide +kernel
  have hcontext : (run spliceRules (start spliceRules spliceArgs false)
      (spliceMsgs spliceAddSingle 40000)).stateMachine.context?.any (fun c =>
        (c.inputs.any fun input => input.outpoint = spliceSharedInput.previousOutput ∧
          input.input.isShared = false) &&
        decide (remoteOwnInputsValue spliceSharedInput.previousOutput c +
          spliceSharedInput.remoteOwned <
            requiredRemoteContributionFee spliceRules c +
              remoteOwnedOutputsValue c)) := by decide +kernel
  obtain ⟨session, hsession⟩ := Option.isSome_iff_exists.1 hdone
  have hsession := StateMachine.session?_eq_some.1 hsession
  have hrun := @recorded_run ℕ ℕ spliceRules spliceSharedInput _ _ spliceArgs false rfl
    (spliceMsgs spliceAddSingle 40000)
  obtain ⟨c, hc, hcomplete, -⟩ := context_of_complete hrun hsession
  simp only [hc, Option.any_some, Bool.and_eq_true, any_eq_true, decide_eq_true_eq] at hcontext
  refine ⟨c, session, hc, hsession, (completeNegotiation_checks hcomplete).1, hcontext.1,
    hcontext.2, fun hpays => ?_⟩
  have := hpays.paid
  omega

end PqLightning.InteractiveTx
