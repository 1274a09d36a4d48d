import PqLightning.InteractiveTx.Constructor

/-!
# One turn of a negotiation

What a constructor can do when a message arrives, said once. A `Turn` is what `maybeSendMessage` can
do when it is our turn; `Handled` is what `handle` can do with a message. Every invariant of a
negotiation is proved from these two.
-/

namespace PqLightning.InteractiveTx

open StateMachine

variable {Script NodeId : Type} [DecidableEq Script] [LinearOrder NodeId]

/-- Applies a message of the counterparty to the context; `tx_complete` changes nothing. -/
def NegotiationContext.received (rules : BitcoinRules Script)
    (self : NegotiationContext Script NodeId) :
    PeerMessage Script → Except AbortReason (NegotiationContext Script NodeId)
  | .txAddInput msg => self.receivedTxAddInput rules msg
  | .txAddOutput msg => self.receivedTxAddOutput rules msg
  | .txRemoveInput serialId => self.receivedTxRemoveInput serialId
  | .txRemoveOutput serialId => self.receivedTxRemoveOutput serialId
  | .txComplete => .ok self

namespace InteractiveTxConstructor

variable (rules : BitcoinRules Script)

def remainingInputs (self : InteractiveTxConstructor Script NodeId) :
    List (SerialId × InputOwned Script) :=
  match self.nextInputIndex with
  | some index => self.inputsToContribute.drop index
  | none => []

/-- **What we can do on our turn**, in the context `c`: abort, add the next input, add an output,
or say that we are done. Only a party that has added all its inputs says so. -/
inductive Turn (c : NegotiationContext Script NodeId)
    (self self' : InteractiveTxConstructor Script NodeId) :
    Option (InteractiveTxMessageSend Script) → Prop
  | aborted (reason : AbortReason) (h : self'.stateMachine = .negotiationAborted reason) :
      Turn c self self' none
  | txAddInput (serialId : SerialId) (input : InputOwned Script)
      (c' : NegotiationContext Script NodeId)
      (hrem : self.remainingInputs = (serialId, input) :: self'.remainingInputs)
      (hsent : c.sentTxAddInput (txAddInputMsg serialId input) input.satisfactionWeight = .ok c')
      (h : self'.stateMachine = .sentChangeMsg c') :
      Turn c self self' (some (.txAddInput (txAddInputMsg serialId input)))
  | txAddOutput (msg : TxAddOutput Script)
      (hrem : self.remainingInputs = [] ∧ self'.remainingInputs = [])
      (h : self'.stateMachine = .sentChangeMsg (c.sentTxAddOutput msg)) :
      Turn c self self' (some (.txAddOutput msg))
  | txComplete (hrem : self.remainingInputs = [] ∧ self'.remainingInputs = [])
      (hself : self.stateMachine = .receivedChangeMsg c)
      (h : self'.stateMachine = .sentTxComplete c) :
      Turn c self self' (some .txComplete)
  | complete (session : InteractiveTxSigningSession Script)
      (hrem : self.remainingInputs = [] ∧ self'.remainingInputs = [])
      (hself : self.stateMachine = .receivedTxComplete c)
      (hsession : completeNegotiation rules c = .ok session)
      (h : self'.stateMachine = .negotiationComplete session) :
      Turn c self self' (some .txComplete)

/-- **What a message can do**: it aborts the negotiation; or it is applied and we take our turn; or
it is the second `tx_complete` in a row. -/
inductive Handled (self self' : InteractiveTxConstructor Script NodeId) :
    PeerMessage Script → Option (InteractiveTxMessageSend Script) → Prop
  | aborted (msg : PeerMessage Script) (reason : AbortReason)
      (h : self'.stateMachine = .negotiationAborted reason) : Handled self self' msg none
  | change (msg : PeerMessage Script) (answer : Option (InteractiveTxMessageSend Script))
      (c c' : NegotiationContext Script NodeId) (hmsg : msg ≠ .txComplete)
      (hself : self.stateMachine = .sentChangeMsg c ∨ self.stateMachine = .sentTxComplete c)
      (hreceived : c.received rules msg = .ok c')
      (hturn : Turn rules c' { self with stateMachine := .receivedChangeMsg c' } self' answer) :
      Handled self self' msg answer
  | respond (answer : Option (InteractiveTxMessageSend Script))
      (c : NegotiationContext Script NodeId)
      (hself : self.stateMachine = .sentChangeMsg c)
      (hturn : Turn rules c { self with stateMachine := .receivedTxComplete c } self' answer) :
      Handled self self' .txComplete answer
  | complete (c : NegotiationContext Script NodeId) (session : InteractiveTxSigningSession Script)
      (hself : self.stateMachine = .sentTxComplete c)
      (hsession : completeNegotiation rules c = .ok session)
      (h : self' = { self with stateMachine := .negotiationComplete session }) :
      Handled self self' .txComplete none

/-! ### Our turn -/

variable {c : NegotiationContext Script NodeId}

section Turn

variable (self : InteractiveTxConstructor Script NodeId)

omit [DecidableEq Script] [LinearOrder NodeId] in
/-- **The next input** is the first of the remaining ones. -/
theorem nextInputToContribute_eq :
    self.nextInputToContribute.2 = self.remainingInputs.head? ∧
      self.nextInputToContribute.1.remainingInputs = self.remainingInputs.tail ∧
      self.nextInputToContribute.1.stateMachine = self.stateMachine := by
  rcases hnext : self.nextInputIndex with _ | index
  · simp [nextInputToContribute, remainingInputs, hnext]
  · refine ⟨?_, ?_, ?_⟩ <;> simp only [nextInputToContribute, remainingInputs, hnext]
    · rw [List.head?_drop]
    · by_cases hlt : index + 1 < self.inputsToContribute.length
      · simp [Option.filter, hlt]
      · simp [Option.filter, hlt]
        omega

omit [DecidableEq Script] [LinearOrder NodeId] in
theorem nextOutputToContribute_eq :
    self.nextOutputToContribute.1.remainingInputs = self.remainingInputs ∧
      self.nextOutputToContribute.1.stateMachine = self.stateMachine := by
  rcases hnext : self.nextOutputIndex with _ | index <;>
    simp [nextOutputToContribute, remainingInputs, hnext]

omit [DecidableEq Script] [LinearOrder NodeId] in
/-- A transition of the state machine leaves the rest of the constructor as it is. -/
theorem doStateTransition_eq {α : Type}
    (transition : StateMachine Script NodeId → StateMachine Script NodeId)
    (continuation : InteractiveTxConstructor Script NodeId →
      InteractiveTxConstructor Script NodeId × Except AbortReason α) :
    (∃ reason, transition self.stateMachine = .negotiationAborted reason ∧
      self.doStateTransition transition continuation =
        ({ self with stateMachine := .negotiationAborted reason }, .error reason)) ∨
    (∀ reason, transition self.stateMachine ≠ .negotiationAborted reason) ∧
      self.doStateTransition transition continuation =
        continuation { self with stateMachine := transition self.stateMachine } := by
  rcases hstate : transition self.stateMachine with _ | _ | _ | _ | _ | _ | reason
  case negotiationAborted => exact .inl ⟨reason, rfl, by simp [doStateTransition, hstate, result]⟩
  all_goals exact .inr ⟨by simp, by simp [doStateTransition, hstate, result]⟩

/-- **The first phase of a turn**: there is an input to add. -/
theorem maybeSendMessage_of_input {serialId : SerialId}
    {input : InputOwned Script} {rest : List (SerialId × InputOwned Script)}
    (hself : self.stateMachine = .receivedChangeMsg c ∨ self.stateMachine = .receivedTxComplete c)
    (hrem : self.remainingInputs = (serialId, input) :: rest) :
    Turn rules c self (self.maybeSendMessage rules).1 (self.maybeSendMessage rules).2.toOption := by
  obtain ⟨hhead, htail, hstate⟩ := nextInputToContribute_eq self
  rw [hrem] at hhead htail
  unfold maybeSendMessage
  rcases hnext : self.nextInputToContribute with ⟨self₁, next⟩
  rw [hnext] at hhead htail hstate
  obtain rfl : next = some (serialId, input) := hhead
  dsimp only
  have htransition : sentTxAddInput (txAddInputMsg serialId input)
      input.satisfactionWeight self₁.stateMachine = .ofResult .sentChangeMsg
        (c.sentTxAddInput (txAddInputMsg serialId input) input.satisfactionWeight) := by
    rcases hself with h | h <;> rw [hstate, h] <;> rfl
  rcases doStateTransition_eq self₁ (.sentTxAddInput (txAddInputMsg serialId input)
    input.satisfactionWeight) fun self => (self, .ok (InteractiveTxMessageSend.txAddInput
      (txAddInputMsg serialId input))) with ⟨reason, -, heq⟩ | ⟨hne, heq⟩
  · exact heq ▸ .aborted reason rfl
  · rcases hsent : c.sentTxAddInput (txAddInputMsg serialId input) input.satisfactionWeight
      with reason | c'
    · rw [htransition, hsent] at hne
      exact absurd rfl (hne reason)
    · rw [htransition, hsent] at heq
      exact heq ▸ .txAddInput serialId input c' (hrem.trans (congrArg _ htail.symm)) hsent rfl

/-- **What we do on our turn.** -/
theorem maybeSendMessage_turn
    (hself : self.stateMachine = .receivedChangeMsg c ∨ self.stateMachine = .receivedTxComplete c) :
    Turn rules c self (self.maybeSendMessage rules).1 (self.maybeSendMessage rules).2.toOption := by
  rcases hrem : self.remainingInputs with _ | ⟨⟨serialId, input⟩, rest⟩
  swap
  · exact maybeSendMessage_of_input rules self hself hrem
  obtain ⟨hhead, htail, hstate⟩ := nextInputToContribute_eq self
  rw [hrem] at hhead htail
  unfold maybeSendMessage
  rcases hnext : self.nextInputToContribute with ⟨self₁, next⟩
  rw [hnext] at hhead htail hstate
  obtain rfl : next = none := hhead
  obtain ⟨hrem₂, hstate₂⟩ := nextOutputToContribute_eq self₁
  dsimp only
  rcases hnext₂ : self₁.nextOutputToContribute with ⟨self₂, next₂⟩
  rw [hnext₂] at hrem₂ hstate₂
  have hrem' : self.remainingInputs = [] ∧ self₂.remainingInputs = [] := ⟨hrem, hrem₂.trans htail⟩
  have hself₂ : self₂.stateMachine = self.stateMachine := hstate₂.trans hstate
  rcases next₂ with _ | ⟨serialId, output⟩ <;> dsimp only
  · rcases doStateTransition_eq self₂ (.sentTxCompleteMsg rules) fun self =>
      (self, .ok (@InteractiveTxMessageSend.txComplete Script)) with ⟨reason, -, heq⟩ | ⟨hne, heq⟩
    · exact heq ▸ .aborted reason rfl
    · rw [hself₂] at hne heq
      rcases hself with h | h
      · rw [h] at heq
        exact heq ▸ .txComplete hrem' h rfl
      · rcases hsession : completeNegotiation rules c with reason | session
        · exact absurd (by simp [h, sentTxCompleteMsg, hsession, ofResult])
            (hne reason)
        · rw [h] at heq
          simp only [sentTxCompleteMsg, hsession, ofResult] at heq
          exact heq ▸ .complete session hrem' h hsession rfl
  · rcases doStateTransition_eq self₂
      (.sentTxAddOutput (txAddOutputMsg serialId output)) fun self =>
      (self, .ok (InteractiveTxMessageSend.txAddOutput (txAddOutputMsg serialId output))) with
      ⟨reason, -, heq⟩ | ⟨hne, heq⟩
    · exact heq ▸ .aborted reason rfl
    · refine heq ▸ .txAddOutput (txAddOutputMsg serialId output) hrem' ?_
      rcases hself with h | h <;> simp only [hself₂, h] <;> rfl

end Turn

/-! ### The counterparty's turn -/

section Handle

variable (self : InteractiveTxConstructor Script NodeId)

/-- **A change** of the counterparty, of any kind. -/
theorem handled_of_change {msg : PeerMessage Script} (hmsg : msg ≠ .txComplete) :
    let handled := self.doStateTransition
      (.receivedChange fun c => c.received rules msg) fun self => self.maybeSendMessage rules
    Handled rules self handled.1 msg handled.2.toOption := by
  intro handled
  rcases doStateTransition_eq self (.receivedChange fun c => c.received rules msg) fun self =>
    self.maybeSendMessage rules with ⟨reason, -, heq⟩ | ⟨hne, heq⟩
  · rw [show handled = _ from heq]
    exact .aborted msg reason rfl
  · have key : ∀ c, (self.stateMachine = .sentChangeMsg c ∨ self.stateMachine = .sentTxComplete c) →
        Handled rules self handled.1 msg handled.2.toOption := by
      intro c hself
      have htransition : receivedChange (fun c => c.received rules msg)
          self.stateMachine = .ofResult .receivedChangeMsg (c.received rules msg) := by
        rcases hself with h | h <;> rw [h] <;> rfl
      rw [htransition] at hne heq
      rcases hreceived : c.received rules msg with reason | c'
      · rw [hreceived] at hne
        exact absurd rfl (hne reason)
      · rw [hreceived] at heq
        have hturn := maybeSendMessage_turn rules
          { self with stateMachine := .receivedChangeMsg c' }
          (.inl rfl)
        rw [show handled = _ from heq]
        exact .change msg _ c c' hmsg hself hreceived hturn
    rcases hstate : self.stateMachine with _ | c | _ | c | _ | _ | _
    case sentChangeMsg => exact key c (.inl hstate)
    case sentTxComplete => exact key c (.inr hstate)
    all_goals exact absurd (by rw [hstate]; rfl) (hne .unexpectedCounterpartyMessage)

/-- After `tx_complete` was received, a turn that sends a message changes something or completes the
negotiation. -/
theorem Turn.sent_of_receivedTxComplete
    {self self' : InteractiveTxConstructor Script NodeId} {msg : InteractiveTxMessageSend Script}
    (hself : self.stateMachine = .receivedTxComplete c)
    (hturn : Turn rules c self self' (some msg)) :
    (∃ c', self'.stateMachine = .sentChangeMsg c') ∨
      ∃ session, self'.stateMachine = .negotiationComplete session := by
  cases hturn with
  | txAddInput _ _ c' _ _ h => exact .inl ⟨c', h⟩
  | txAddOutput _ _ h => exact .inl ⟨_, h⟩
  | txComplete _ hself' _ => rw [hself] at hself'; cases hself'
  | complete session _ _ _ h => exact .inr ⟨session, h⟩

/-- **The counterparty is done.** Either it is our turn once more, or we were done as well. -/
theorem handled_of_txComplete :
    Handled rules self (self.handle rules .txComplete).1 .txComplete
      (self.handle rules .txComplete).2.toOption.join := by
  simp only [handle, Prod.map_fst, Prod.map_snd, id]
  unfold handleTxComplete
  rcases hstate : self.stateMachine with _ | c | _ | c | _ | _ | _
  case sentChangeMsg =>
    have hturn := maybeSendMessage_turn rules { self with stateMachine := .receivedTxComplete c }
      (.inr rfl)
    simp only [doStateTransition, hstate, receivedTxCompleteMsg, result]
    refine .respond _ c hstate ?_
    rcases hsent : maybeSendMessage rules { self with stateMachine := .receivedTxComplete c }
      with ⟨self', reason | msg⟩
    · rw [hsent] at hturn
      exact hturn
    · rw [hsent] at hturn
      change Turn _ _ _ self' (some msg) at hturn
      rcases Turn.sent_of_receivedTxComplete rules rfl hturn with ⟨c', h⟩ | ⟨session, h⟩ <;>
        simp only [h] <;> exact hturn
  case sentTxComplete =>
    rcases hsession : completeNegotiation rules c with reason | session
    · simp only [doStateTransition, hstate, receivedTxCompleteMsg, result, hsession, ofResult]
      exact .aborted _ reason rfl
    · simp only [doStateTransition, hstate, receivedTxCompleteMsg, result, hsession, ofResult]
      exact .complete c session hstate hsession rfl
  all_goals
    simp only [doStateTransition, hstate, receivedTxCompleteMsg, result]
    exact .aborted _ .unexpectedCounterpartyMessage rfl

/-- **What a message does.** -/
theorem handle_handled (msg : PeerMessage Script) :
    Handled rules self (self.handle rules msg).1 msg (self.handle rules msg).2.toOption.join := by
  have hchange := fun h : msg ≠ .txComplete => handled_of_change rules self h
  have hjoin : ∀ r : Except AbortReason (InteractiveTxMessageSend Script),
      (r.map some).toOption.join = r.toOption := by
    rintro (_ | _) <;> rfl
  rcases msg with m | m | m | m | _
  case txComplete => exact handled_of_txComplete rules self
  all_goals
    simp only [handle, Prod.map_fst, Prod.map_snd, id, hjoin]
    exact hchange (by simp)

end Handle

end InteractiveTxConstructor

end PqLightning.InteractiveTx
