import PqLightning.InteractiveTx.SharedInput

/-!
# Agreement of the two parties

Two constructors that exchange their messages, one initiator and one acceptor. When both have
completed the negotiation they hold the same transaction, they agree on which inputs are whose, and
exactly one of them sends its signatures first.

There is always at most one message in flight. The invariant relates the two parties through it: the
sender's context is what the receiver's will be, once it has received the message.
-/

namespace PqLightning.InteractiveTx

open ConstructedTransaction NegotiationContext

variable {Script NodeId : Type}

/-! ### The parties -/

structure System (Script NodeId : Type) where
  (initiator acceptor : InteractiveTxConstructor Script NodeId)
  /-- The message in flight, and whether it goes to the acceptor. -/
  inFlight : Option (Bool × InteractiveTxMessageSend Script)

structure Mirrored (initiator acceptor : InteractiveTxConstructorArgs Script NodeId) : Prop where
  initiatorNodeId : initiator.holderNodeId = acceptor.counterpartyNodeId
  acceptorNodeId : initiator.counterpartyNodeId = acceptor.holderNodeId
  nodeId_ne : initiator.holderNodeId ≠ acceptor.holderNodeId
  fundingTxLocktime : initiator.fundingTxLocktime = acceptor.fundingTxLocktime
  /-- Both mean the same previous funding output. -/
  sharedFundingInput :
    initiator.sharedFundingInput.map (fun s => (s.previousOutput, s.prevOutput)) =
      acceptor.sharedFundingInput.map fun s => (s.previousOutput, s.prevOutput)
  sharedFundingOutput : initiator.sharedFundingOutput.txOut = acceptor.sharedFundingOutput.txOut

namespace ConstructedTransaction

def localInputs (self : ConstructedTransaction Script) : List TxIn :=
  ((self.tx.input.zip self.inputMetadata).filter fun input =>
    input.2.isLocal self.holderIsInitiator).map Prod.fst

def remoteInputs (self : ConstructedTransaction Script) : List TxIn :=
  ((self.tx.input.zip self.inputMetadata).filter fun input =>
    !input.2.isLocal self.holderIsInitiator).map Prod.fst

end ConstructedTransaction

/-- **The results of the two parties agree.** -/
structure Agree (a b : InteractiveTxSigningSession Script) : Prop where
  tx : a.unsignedTx.tx = b.unsignedTx.tx
  sharedOutputIndex : a.unsignedTx.sharedOutputIndex = b.unsignedTx.sharedOutputIndex
  localInputs : a.unsignedTx.localInputs = b.unsignedTx.remoteInputs
  remoteInputs : a.unsignedTx.remoteInputs = b.unsignedTx.localInputs
  /-- Exactly one of the two sends its signatures first. -/
  first : a.holderSendsTxSignaturesFirst = !b.holderSendsTxSignaturesFirst

theorem Agree.symm {a b : InteractiveTxSigningSession Script} (h : Agree a b) : Agree b a where
  tx := h.tx.symm
  sharedOutputIndex := h.sharedOutputIndex.symm
  localInputs := h.remoteInputs.symm
  remoteInputs := h.localInputs.symm
  first := by rw [h.first, Bool.not_not]

/-! ### Two views of one transaction -/

/-- The two contexts are those of the two parties of one negotiation, and have the same inputs and
outputs. Who owns them, and the weights, each party records on its own. -/
structure SameView (c d : NegotiationContext Script NodeId) : Prop where
  holderIsInitiator : c.holderIsInitiator = !d.holderIsInitiator
  holderNodeId : c.holderNodeId = d.counterpartyNodeId
  counterpartyNodeId : c.counterpartyNodeId = d.holderNodeId
  nodeId_ne : c.holderNodeId ≠ d.holderNodeId
  txLocktime : c.txLocktime = d.txLocktime
  sharedFundingInput : c.sharedFundingInput.map (fun s => (s.previousOutput, s.prevOutput)) =
    d.sharedFundingInput.map fun s => (s.previousOutput, s.prevOutput)
  sharedFundingOutput : c.sharedFundingOutput.txOut = d.sharedFundingOutput.txOut
  inputs : c.inputs.map InteractiveTxInput.intoTxinAndMetadata =
    d.inputs.map InteractiveTxInput.intoTxinAndMetadata
  outputs : c.outputs.map InteractiveTxOutput.intoTxoutAndMetadata =
    d.outputs.map InteractiveTxOutput.intoTxoutAndMetadata

theorem SameView.symm {c d : NegotiationContext Script NodeId} (h : SameView c d) :
    SameView d c where
  holderIsInitiator := by rw [h.holderIsInitiator, Bool.not_not]
  holderNodeId := h.counterpartyNodeId.symm
  counterpartyNodeId := h.holderNodeId.symm
  nodeId_ne := h.nodeId_ne.symm
  txLocktime := h.txLocktime.symm
  sharedFundingInput := h.sharedFundingInput.symm
  sharedFundingOutput := h.sharedFundingOutput.symm
  inputs := h.inputs.symm
  outputs := h.outputs.symm

/-- The input a message adds, and the output it spends, given the shared input. -/
def TxAddInput.spends (shared : Option (OutPoint × TxOut Script)) (msg : TxAddInput Script) :
    Option (TxIn × TxOut Script) :=
  match msg.sharedInputTxid with
  | some _ => shared.map fun s => (⟨s.1, enableRbfNoLocktime⟩, s.2)
  | none => msg.prevtx.bind fun prevtx => prevtx.output[msg.prevtxOut]?.map fun txOut =>
      (⟨⟨prevtx.computeTxid, msg.prevtxOut⟩, msg.sequence⟩, txOut)

section Views

variable {rules : BitcoinRules Script} {c c' d d' : NegotiationContext Script NodeId}
  {msg : TxAddInput Script} {input : InputOwned Script} {o : OutPoint} {weight : ℕ}

variable (rules weight) in
/-- What the sender and what the receiver record is determined by the message in the same way. -/
theorem input_spends (h : c.sentInput msg weight = .ok (input, o) ∨
      c.receivedInput rules msg = .ok (input, o)) :
    msg.spends (c.sharedFundingInput.map fun s => (s.previousOutput, s.prevOutput)) =
      some (input.txIn, input.prevOutput) := by
  unfold sentInput receivedInput at h
  unfold TxAddInput.spends
  rcases hshared : msg.sharedInputTxid with _ | txid <;> simp only [hshared] at h ⊢
  · rcases hprevtx : msg.prevtx with _ | prevtx <;> simp only [hprevtx] at h
    · rcases h with h | h <;> cases h
    · rcases hout : prevtx.output[msg.prevtxOut]? with _ | txOut <;> simp only [hout] at h
      · rcases h with h | h <;> cases h
      · rcases h with h | h
        on_goal 2 => split_ifs at h
        all_goals
          cases h
          simp [hout, InputOwned.txIn, InputOwned.prevOutput]
  · rcases hs : c.sharedFundingInput with _ | s <;> simp only [hs] at h <;> rcases h with h | h
    on_goal 4 => split_ifs at h
    on_goal 2 => split_ifs at h
    all_goals cases h
    all_goals rfl

theorem map_filter_ne_eq {α β : Type} (f : α → β) (key : α → SerialId) (key' : β → SerialId)
    (hkey : ∀ a, key' (f a) = key a) {xs ys : List α} {k : SerialId} (hmap : xs.map f = ys.map f)
    (hne : ∀ y ∈ ys, key y ≠ k) : (xs.filter fun x => key x ≠ k).map f = ys.map f := by
  have hfilter : xs.filter (fun x => key x ≠ k) = xs := by
    rw [List.filter_eq_self]
    intro x hx
    obtain ⟨y, hy, heq⟩ := List.mem_map.1 (hmap ▸ List.mem_map_of_mem (f := f) hx)
    have hkeys : key y = key x := by rw [← hkey, ← hkey, heq]
    simpa [← hkeys] using hne y hy
  rw [hfilter, hmap]

theorem SameView.txAddInput (h : SameView c d) (hsent : c.sentTxAddInput msg weight = .ok c')
    (hreceived : d.receivedTxAddInput rules msg = .ok d') : SameView c' d' := by
  simp only [sentTxAddInput, bind_eq_ok, guardWith_eq_ok, exists_const, pure_eq_ok] at hsent
  simp only [receivedTxAddInput, bind_eq_ok, guardWith_eq_ok, exists_const, pure_eq_ok] at hreceived
  obtain ⟨⟨input, o⟩, hinput, -, rfl⟩ := hsent
  obtain ⟨-, -, -, ⟨input', o'⟩, hinput', hnew, -, rfl⟩ := hreceived
  have hspends := input_spends rules weight (.inl hinput)
  rw [h.sharedFundingInput, input_spends rules weight (.inr hinput')] at hspends
  obtain ⟨htxIn, hprevOutput⟩ := Prod.mk.inj (Option.some.inj hspends)
  refine { h with inputs := ?_ }
  rw [List.map_cons, List.map_cons, map_filter_ne_eq _ InteractiveTxInput.serialId
    (fun x => x.2.serialId) (fun _ => rfl) h.inputs hnew]
  simp only [InteractiveTxInput.intoTxinAndMetadata, htxIn, hprevOutput]

theorem SameView.txAddOutput [DecidableEq Script] (h : SameView c d) {msg : TxAddOutput Script}
    (hreceived : d.receivedTxAddOutput rules msg = .ok d') :
    SameView (c.sentTxAddOutput msg) d' := by
  simp only [receivedTxAddOutput, bind_eq_ok, guardWith_eq_ok, exists_const,
    pure_eq_ok] at hreceived
  obtain ⟨-, -, -, -, -, output, houtput, hnew, rfl⟩ := hreceived
  have htxOut : output.txOut = ⟨msg.sats, msg.script⟩ := by
    unfold receivedOutput at houtput
    split_ifs at houtput with hshared
    · cases houtput
      exact hshared.symm
    · cases houtput
      rfl
  refine { h with outputs := ?_ }
  have hrest := map_filter_ne_eq _ InteractiveTxOutput.serialId (fun x => x.2.serialId)
    (fun _ => rfl) h.outputs hnew
  simp only [sentTxAddOutput, List.map_cons, hrest,
    InteractiveTxOutput.intoTxoutAndMetadata, htxOut]
  split_ifs with hshared
  · rw [OutputOwned.txOut, ← hshared]
  · rfl

end Views

/-! ### Completion -/

theorem TxInMetadata.isLocal_not (input : TxInMetadata Script) (holderIsInitiator : Bool) :
    input.isLocal (!holderIsInitiator) = !input.isLocal holderIsInitiator := by
  unfold TxInMetadata.isLocal isSerialIdValidForCounterparty
  cases holderIsInitiator <;> cases SerialId.isForNonInitiator input.serialId <;> rfl

section Completion

variable [DecidableEq Script] {c d : NegotiationContext Script NodeId}

/-- **The transactions agree.** -/
theorem SameView.build_eq (h : SameView c d) :
    build c = { build d with holderIsInitiator := !d.holderIsInitiator } := by
  have hshared : ∀ input : List TxIn,
      (c.sharedFundingInput.bind fun s =>
        (input.findIdx? fun txin => txin.previousOutput = s.previousOutput).map (· % 2 ^ 16)) =
      d.sharedFundingInput.bind fun s =>
        (input.findIdx? fun txin => txin.previousOutput = s.previousOutput).map (· % 2 ^ 16) := by
    intro input
    have hbind : ∀ shared : Option (SharedOwnedInput Script), (shared.bind fun s =>
        (input.findIdx? fun txin => txin.previousOutput = s.previousOutput).map (· % 2 ^ 16)) =
        (shared.map fun s => (s.previousOutput, s.prevOutput)).bind fun p =>
          (input.findIdx? fun txin => txin.previousOutput = p.1).map (· % 2 ^ 16) := by
      rintro (_ | _) <;> rfl
    rw [hbind, hbind, h.sharedFundingInput]
  simp only [build, h.inputs, h.outputs, h.txLocktime, h.sharedFundingOutput,
    h.holderIsInitiator, hshared]

variable [LinearOrder NodeId] {rules : BitcoinRules Script}
  {sc sd : InteractiveTxSigningSession Script}

/-- A completed negotiation holds the transaction of its context. -/
theorem unsignedTx_eq_build (h : completeNegotiation rules c = .ok sc) :
    sc.unsignedTx = build c := by
  simp only [completeNegotiation, bind_eq_ok, pure_eq_ok] at h
  obtain ⟨tx, hnew, rfl⟩ := h
  simp only [new, bind_eq_ok, guardWith_eq_ok, exists_const, pure_eq_ok] at hnew
  obtain ⟨-, -, -, -, -, -, rfl⟩ := hnew
  rfl

/-- Who signs first is decided by the values both parties contributed, then by their ids. -/
theorem first_eq (h : completeNegotiation rules c = .ok sc) :
    sc.holderSendsTxSignaturesFirst =
      if sc.unsignedTx.localContributedInputValue = sc.unsignedTx.remoteContributedInputValue then
        decide (c.holderNodeId < c.counterpartyNodeId)
      else decide (sc.unsignedTx.localContributedInputValue <
        sc.unsignedTx.remoteContributedInputValue) := by
  simp only [completeNegotiation, bind_eq_ok, pure_eq_ok] at h
  obtain ⟨tx, -, rfl⟩ := h
  rfl

/-- **Two negotiations that complete with the same view agree.** -/
theorem SameView.agree (h : SameView c d) (hc : completeNegotiation rules c = .ok sc)
    (hd : completeNegotiation rules d = .ok sd) : Agree sc sd := by
  have htx : sc.unsignedTx = { sd.unsignedTx with holderIsInitiator := !d.holderIsInitiator } := by
    rw [unsignedTx_eq_build hc, unsignedTx_eq_build hd]
    exact h.build_eq
  have hinitiator : sd.unsignedTx.holderIsInitiator = d.holderIsInitiator := by
    rw [unsignedTx_eq_build hd]
    rfl
  have hlocal : sc.unsignedTx.localContributedInputValue =
      sd.unsignedTx.remoteContributedInputValue := by
    simp [htx, localContributedInputValue, TxInMetadata.isLocal_not, remoteContributedInputValue,
      hinitiator]
  have hremote : sc.unsignedTx.remoteContributedInputValue =
      sd.unsignedTx.localContributedInputValue := by
    simp [htx, localContributedInputValue, TxInMetadata.isLocal_not, remoteContributedInputValue,
      hinitiator]
  refine ⟨by rw [htx], by rw [htx], ?_, ?_, ?_⟩
  · simp [htx, localInputs, remoteInputs, TxInMetadata.isLocal_not, hinitiator]
  · simp [htx, localInputs, remoteInputs, TxInMetadata.isLocal_not, hinitiator]
  · have hne : d.counterpartyNodeId ≠ d.holderNodeId := h.holderNodeId ▸ h.nodeId_ne
    rw [first_eq hc, first_eq hd, hlocal, hremote, h.holderNodeId, h.counterpartyNodeId]
    rcases lt_trichotomy sd.unsignedTx.localContributedInputValue
      sd.unsignedTx.remoteContributedInputValue with hlt | heq | hgt
    · simp [hlt, hlt.ne, hlt.ne', hlt.le]
    · rcases hne.lt_or_gt with hlt | hlt <;> simp [heq, hlt, hlt.le]
    · simp [hgt, hgt.ne, hgt.ne', hgt.le]

end Completion

/-! ### The message in flight -/

/-- The context `c` becomes `c'` when the message is sent. -/
inductive Sent [DecidableEq Script] (c : NegotiationContext Script NodeId) :
    InteractiveTxMessageSend Script → NegotiationContext Script NodeId → Prop
  | txAddInput (msg : TxAddInput Script) (weight : ℕ) (c' : NegotiationContext Script NodeId)
      (h : c.sentTxAddInput msg weight = .ok c') : Sent c (.txAddInput msg) c'
  | txAddOutput (msg : TxAddOutput Script) : Sent c (.txAddOutput msg) (c.sentTxAddOutput msg)

variable {msg : InteractiveTxMessageSend Script}

theorem Sent.ne_txComplete [DecidableEq Script] {c c' : NegotiationContext Script NodeId}
    (h : Sent c msg c') : msg.peerMessage ≠ .txComplete := by
  cases h <;> simp [InteractiveTxMessageSend.peerMessage]

/-- **A change arrives.** -/
theorem SameView.received [DecidableEq Script] {rules : BitcoinRules Script}
    {c c' d d' : NegotiationContext Script NodeId}
    (h : SameView c d) (hsent : Sent c msg c')
    (hreceived : d.received rules msg.peerMessage = .ok d') :
    SameView c' d' := by
  cases hsent with
  | txAddInput msg weight c' hsent => exact h.txAddInput hsent hreceived
  | txAddOutput msg => exact h.txAddOutput hreceived

section System

variable [DecidableEq Script] [LinearOrder NodeId] (rules : BitcoinRules Script)

open InteractiveTxConstructor

/-- **The invariant.** The party `x` has sent a message that `y` has yet to receive. -/
inductive InFlight (x y : InteractiveTxConstructor Script NodeId) :
    InteractiveTxMessageSend Script → Prop
  /-- It changes something: before, both had the same view. -/
  | change (msg : InteractiveTxMessageSend Script) (c c' d : NegotiationContext Script NodeId)
      (hview : SameView c d) (hsent : Sent c msg c') (hx : x.stateMachine = .sentChangeMsg c')
      (hy : y.stateMachine = .sentChangeMsg d ∨ y.stateMachine = .sentTxComplete d) :
      InFlight x y msg
  /-- It is the first `tx_complete`. -/
  | txComplete (c d : NegotiationContext Script NodeId) (hview : SameView c d)
      (hx : x.stateMachine = .sentTxComplete c) (hy : y.stateMachine = .sentChangeMsg d) :
      InFlight x y .txComplete
  /-- It is the second `tx_complete` in a row. -/
  | complete (c d : NegotiationContext Script NodeId) (session : InteractiveTxSigningSession Script)
      (hview : SameView c d) (hsession : completeNegotiation rules c = .ok session)
      (hx : x.stateMachine = .negotiationComplete session)
      (hy : y.stateMachine = .sentTxComplete d) :
      InFlight x y .txComplete

def AgreeIfComplete (x y : InteractiveTxConstructor Script NodeId) : Prop :=
  ∀ sx sy, x.stateMachine = .negotiationComplete sx → y.stateMachine = .negotiationComplete sy →
    Agree sx sy

omit [DecidableEq Script] [LinearOrder NodeId] in
theorem AgreeIfComplete.symm {x y : InteractiveTxConstructor Script NodeId}
    (h : AgreeIfComplete x y) : AgreeIfComplete y x :=
  fun sx sy hx hy => (h sy sx hy hx).symm

/-- What holds between the party that answered and the other one. -/
def Answered (x y : InteractiveTxConstructor Script NodeId) :
    Option (InteractiveTxMessageSend Script) → Prop
  | none => AgreeIfComplete x y
  | some msg => InFlight rules y x msg

variable {rules} {x y y' : InteractiveTxConstructor Script NodeId}
  {c d : NegotiationContext Script NodeId} {answer : Option (InteractiveTxMessageSend Script)}

/-- **A turn** of `y`, when both have the same view, keeps the invariant. -/
theorem SameView.turn (hview : SameView d c)
    (hstates : x.stateMachine = .sentChangeMsg c ∧ y.stateMachine = .receivedChangeMsg d ∨
      x.stateMachine = .sentTxComplete c ∧ y.stateMachine = .receivedTxComplete d)
    (hturn : Turn rules d y y' answer) : Answered rules x y' answer := by
  have hx : x.stateMachine = .sentChangeMsg c ∨ x.stateMachine = .sentTxComplete c :=
    hstates.imp And.left And.left
  cases hturn with
  | aborted _ h => intro sx sy _ hy; rw [h] at hy; cases hy
  | txAddInput serialId input d' _ hsent h =>
    exact .change _ d d' c hview (.txAddInput _ _ d' hsent) h hx
  | txAddOutput msg _ h => exact .change _ d _ c hview (.txAddOutput msg) h hx
  | txComplete _ hself h =>
    rcases hstates with ⟨hx, -⟩ | ⟨-, hy⟩
    · exact .txComplete d c hview h hx
    · rw [hself] at hy; cases hy
  | complete session _ hself hsession h =>
    rcases hstates with ⟨-, hy⟩ | ⟨hx, -⟩
    · rw [hself] at hy; cases hy
    · exact .complete d c session hview hsession h hx

theorem InFlight.deliver (h : InFlight rules x y msg) :
    Answered rules x (y.handle rules msg.peerMessage).1
      (y.handle rules msg.peerMessage).2.toOption.join := by
  have hhandled := handle_handled rules y msg.peerMessage
  generalize (y.handle rules msg.peerMessage).1 = y' at hhandled
  generalize (y.handle rules msg.peerMessage).2.toOption.join = answer at hhandled
  cases h with
  | change msg c c' d hview hsent hx hy =>
    have hne := hsent.ne_txComplete
    generalize hpeer : msg.peerMessage = peerMsg at hhandled hne
    cases hhandled with
    | aborted _ _ h => intro sx sy _ hy; rw [h] at hy; cases hy
    | change _ _ d₁ d' _ hself hreceived hturn =>
      obtain rfl : d = d₁ := by rcases hy with hy | hy <;> rcases hself with h | h <;> simp_all
      exact (hview.received hsent (hpeer ▸ hreceived)).symm.turn (.inl ⟨hx, rfl⟩) hturn
    | respond => exact absurd rfl hne
    | complete => exact absurd rfl hne
  | txComplete c d hview hx hy =>
    cases hhandled with
    | aborted _ _ h => intro sx sy _ hy; rw [h] at hy; cases hy
    | change _ _ _ _ hmsg => exact absurd rfl hmsg
    | respond _ d₁ hself hturn =>
      obtain rfl : d = d₁ := by rw [hy] at hself; cases hself; rfl
      exact hview.symm.turn (.inr ⟨hx, rfl⟩) hturn
    | complete d₁ session hself => rw [hy] at hself; cases hself
  | complete c d session hview hsession hx hy =>
    cases hhandled with
    | aborted _ _ h => intro sx sy _ hy; rw [h] at hy; cases hy
    | change _ _ _ _ hmsg => exact absurd rfl hmsg
    | respond _ d₁ hself => rw [hy] at hself; cases hself
    | complete d₁ session' hself hsession' h =>
      intro sx sy hsx hsy
      rw [hx] at hsx
      rw [hy] at hself
      rw [h] at hsy
      cases hsx
      cases hself
      cases hsy
      exact hview.agree hsession hsession'

variable (rules)

def System.start (initiator acceptor : InteractiveTxConstructorArgs Script NodeId) :
    System Script NodeId where
  initiator := (newForOutbound rules initiator).1
  acceptor := newForInbound acceptor
  inFlight := (newForOutbound rules initiator).2.map (true, ·)

def System.deliver (self : System Script NodeId) : System Script NodeId :=
  match self.inFlight with
  | none => self
  | some (true, msg) =>
    let handled := self.acceptor.handle rules msg.peerMessage
    { self with acceptor := handled.1, inFlight := handled.2.toOption.join.map (false, ·) }
  | some (false, msg) =>
    let handled := self.initiator.handle rules msg.peerMessage
    { self with initiator := handled.1, inFlight := handled.2.toOption.join.map (true, ·) }

def System.Invariant (self : System Script NodeId) : Prop :=
  match self.inFlight with
  | none => AgreeIfComplete self.initiator self.acceptor
  | some (true, msg) => InFlight rules self.initiator self.acceptor msg
  | some (false, msg) => InFlight rules self.acceptor self.initiator msg

theorem System.invariant_of_initiator_answered
    (h : Answered rules y x answer) : System.Invariant rules ⟨x, y, answer.map (true, ·)⟩ := by
  cases answer with
  | none => exact AgreeIfComplete.symm h
  | some msg => exact h

theorem System.invariant_of_acceptor_answered
    (h : Answered rules x y answer) : System.Invariant rules ⟨x, y, answer.map (false, ·)⟩ := by
  cases answer with
  | none => exact h
  | some msg => exact h

theorem System.invariant_start {initiator acceptor : InteractiveTxConstructorArgs Script NodeId}
    (h : Mirrored initiator acceptor) :
    (System.start rules initiator acceptor).Invariant rules := by
  have hview : SameView (initialContext initiator true) (initialContext acceptor false) :=
    ⟨rfl, h.initiatorNodeId, h.acceptorNodeId, h.nodeId_ne, h.fundingTxLocktime,
      h.sharedFundingInput, h.sharedFundingOutput, rfl, rfl⟩
  have hanswered := hview.turn (x := newForInbound acceptor) (y := new initiator true)
    (.inl ⟨rfl, rfl⟩) (maybeSendMessage_turn rules (new initiator true) (.inl rfl))
  exact System.invariant_of_initiator_answered rules hanswered

theorem System.invariant_deliver {self : System Script NodeId} (h : self.Invariant rules) :
    (self.deliver rules).Invariant rules := by
  unfold System.Invariant at h
  unfold System.deliver
  rcases hflight : self.inFlight with _ | ⟨_ | _, msg⟩ <;> rw [hflight] at h <;> dsimp only at h ⊢
  · rw [System.Invariant, hflight]
    exact h
  · exact System.invariant_of_initiator_answered rules (InFlight.deliver h)
  · exact System.invariant_of_acceptor_answered rules (InFlight.deliver h)

theorem System.agreeIfComplete {self : System Script NodeId} (h : self.Invariant rules) :
    AgreeIfComplete self.initiator self.acceptor := by
  intro sx sy hx hy
  unfold System.Invariant at h
  split at h
  · exact h sx sy hx hy
  · cases h with
    | change _ _ _ _ _ _ hx' => rw [hx] at hx'; cases hx'
    | txComplete _ _ _ hx' => rw [hx] at hx'; cases hx'
    | complete _ _ _ _ _ _ hy' => rw [hy] at hy'; cases hy'
  · cases h with
    | change _ _ _ _ _ _ hx' => rw [hy] at hx'; cases hx'
    | txComplete _ _ _ hx' => rw [hy] at hx'; cases hx'
    | complete _ _ _ _ _ _ hy' => rw [hx] at hy'; cases hy'

/-- **The parties of a negotiation agree.** Whatever the two contribute, and after any number of
deliveries: if both have completed the negotiation, their transactions and the index of the shared
output are the same, the local inputs of each are the remote inputs of the other, and exactly one of
them sends its signatures first. -/
theorem negotiation_agrees (initiator acceptor : InteractiveTxConstructorArgs Script NodeId)
    (h : Mirrored initiator acceptor) (n : ℕ) (si sa : InteractiveTxSigningSession Script)
    (hi : ((System.deliver rules)^[n]
      (System.start rules initiator acceptor)).initiator.stateMachine
      = .negotiationComplete si)
    (ha : ((System.deliver rules)^[n] (System.start rules initiator acceptor)).acceptor.stateMachine
      = .negotiationComplete sa) : Agree si sa := by
  have hinvariant := Function.Iterate.rec (System.Invariant rules)
    (System.invariant_start rules h) (fun _ => System.invariant_deliver rules) n
  exact System.agreeIfComplete rules hinvariant si sa hi ha

end System

/-- The initiator of the splice that `spliceArgs` accepts. -/
def spliceInitiatorArgs : InteractiveTxConstructorArgs ℕ ℕ where
  entropySource i := 100 + i
  holderNodeId := 1
  counterpartyNodeId := 2
  feerateSatPerKw := 1000
  fundingTxLocktime := 0
  inputsToContribute := []
  sharedFundingInput := some { spliceSharedInput with localOwned := 40000, holderSigFirst := false }
  sharedFundingOutput := spliceFundingOutput 0
  outputsToContribute := [⟨39000, 4⟩]

/-- The parties of the splice complete it with seven deliveries. -/
theorem negotiation_agrees_splice :
    ∃ si sa, ((System.deliver spliceRules)^[7]
        (System.start spliceRules spliceInitiatorArgs spliceArgs)).initiator.stateMachine
        = .negotiationComplete si ∧ ((System.deliver spliceRules)^[7]
        (System.start spliceRules spliceInitiatorArgs spliceArgs)).acceptor.stateMachine
        = .negotiationComplete sa ∧ Agree si sa := by
  have hi : ((System.deliver spliceRules)^[7] (System.start spliceRules spliceInitiatorArgs
      spliceArgs)).initiator.stateMachine.session?.isSome := by decide +kernel
  have ha : ((System.deliver spliceRules)^[7] (System.start spliceRules spliceInitiatorArgs
      spliceArgs)).acceptor.stateMachine.session?.isSome := by decide +kernel
  obtain ⟨si, hsi⟩ := Option.isSome_iff_exists.1 hi
  obtain ⟨sa, hsa⟩ := Option.isSome_iff_exists.1 ha
  have hsi := StateMachine.session?_eq_some.1 hsi
  have hsa := StateMachine.session?_eq_some.1 hsa
  refine ⟨si, sa, hsi, hsa, negotiation_agrees spliceRules spliceInitiatorArgs spliceArgs ?_ 7 si sa
    hsi hsa⟩
  exact ⟨rfl, rfl, by decide, rfl, rfl, rfl⟩

end PqLightning.InteractiveTx
