import PqLightning.InteractiveTx.Context

/-!
# The interactive transaction constructor

The turn-based state machine of `ln/interactivetxs.rs` and the constructor that drives it. A party
answers every message of its counterparty with one of its own: it adds its inputs, then its outputs,
and once it has nothing to add it sends `tx_complete`. Two consecutive `tx_complete` end the
negotiation.

A handler changes the constructor also when it fails, so every handler here returns the new
constructor together with its result.
-/

namespace PqLightning.InteractiveTx

variable {Script NodeId : Type} [DecidableEq Script] [LinearOrder NodeId]

structure SharedInputSignature (Script : Type) where
  holderSignatureFirst : Bool
  witnessScript : Script
deriving DecidableEq, Repr

structure InteractiveTxSigningSession (Script : Type) where
  unsignedTx : ConstructedTransaction Script
  holderSendsTxSignaturesFirst : Bool
  sharedInputSignature : Option (SharedInputSignature Script)
deriving DecidableEq, Repr

/-! ### The state machine -/

inductive StateMachine (Script NodeId : Type) where
  | indeterminate
  /-- We have sent a message that adds or removes something and wait for the answer. -/
  | sentChangeMsg (context : NegotiationContext Script NodeId)
  /-- We have received a message that adds or removes something and should answer. -/
  | receivedChangeMsg (context : NegotiationContext Script NodeId)
  | sentTxComplete (context : NegotiationContext Script NodeId)
  | receivedTxComplete (context : NegotiationContext Script NodeId)
  | negotiationComplete (session : InteractiveTxSigningSession Script)
  | negotiationAborted (reason : AbortReason)

/-- The transition into `NegotiationComplete`. -/
def completeNegotiation (rules : BitcoinRules Script) (context : NegotiationContext Script NodeId) :
    Except AbortReason (InteractiveTxSigningSession Script) := do
  let tx ← ConstructedTransaction.new rules context
  -- strict ordering prevents deadlocks during tx_signatures exchange
  let holderSendsTxSignaturesFirst :=
    if tx.localContributedInputValue = tx.remoteContributedInputValue then
      decide (context.holderNodeId < context.counterpartyNodeId)
    else decide (tx.localContributedInputValue < tx.remoteContributedInputValue)
  return {
    unsignedTx := tx
    holderSendsTxSignaturesFirst
    sharedInputSignature := context.sharedFundingInput.map fun sharedInput =>
      { holderSignatureFirst := sharedInput.holderSigFirst
        witnessScript := sharedInput.witnessScript } }

namespace StateMachine

def context? : StateMachine Script NodeId → Option (NegotiationContext Script NodeId)
  | sentChangeMsg c | receivedChangeMsg c | sentTxComplete c | receivedTxComplete c => some c
  | _ => none

def session? : StateMachine Script NodeId → Option (InteractiveTxSigningSession Script)
  | negotiationComplete session => some session
  | _ => none

omit [DecidableEq Script] [LinearOrder NodeId] in
theorem session?_eq_some {state : StateMachine Script NodeId}
    {session : InteractiveTxSigningSession Script} :
    state.session? = some session ↔ state = negotiationComplete session := by
  cases state <;> simp [session?]

def ofResult {α : Type} (next : α → StateMachine Script NodeId) :
    Except AbortReason α → StateMachine Script NodeId
  | .ok a => next a
  | .error reason => negotiationAborted reason

/-- A sent change is legal when it is our turn. -/
def sentChange (transition : NegotiationContext Script NodeId →
      Except AbortReason (NegotiationContext Script NodeId)) :
    StateMachine Script NodeId → StateMachine Script NodeId
  | receivedChangeMsg c | receivedTxComplete c => ofResult sentChangeMsg (transition c)
  | _ => negotiationAborted .unexpectedCounterpartyMessage

/-- A received change is legal when it is the counterparty's turn. -/
def receivedChange (transition : NegotiationContext Script NodeId →
      Except AbortReason (NegotiationContext Script NodeId)) :
    StateMachine Script NodeId → StateMachine Script NodeId
  | sentChangeMsg c | sentTxComplete c => ofResult receivedChangeMsg (transition c)
  | _ => negotiationAborted .unexpectedCounterpartyMessage

def sentTxAddInput (msg : TxAddInput Script) (satisfactionWeight : ℕ) :
    StateMachine Script NodeId → StateMachine Script NodeId :=
  sentChange fun c => c.sentTxAddInput msg satisfactionWeight

def sentTxAddOutput (msg : TxAddOutput Script) :
    StateMachine Script NodeId → StateMachine Script NodeId :=
  sentChange fun c => .ok (c.sentTxAddOutput msg)

def receivedTxAddInput (rules : BitcoinRules Script) (msg : TxAddInput Script) :
    StateMachine Script NodeId → StateMachine Script NodeId :=
  receivedChange fun c => c.receivedTxAddInput rules msg

def receivedTxAddOutput (rules : BitcoinRules Script) (msg : TxAddOutput Script) :
    StateMachine Script NodeId → StateMachine Script NodeId :=
  receivedChange fun c => c.receivedTxAddOutput rules msg

def receivedTxRemoveInput (serialId : SerialId) :
    StateMachine Script NodeId → StateMachine Script NodeId :=
  receivedChange fun c => c.receivedTxRemoveInput serialId

def receivedTxRemoveOutput (serialId : SerialId) :
    StateMachine Script NodeId → StateMachine Script NodeId :=
  receivedChange fun c => c.receivedTxRemoveOutput serialId

def sentTxCompleteMsg (rules : BitcoinRules Script) :
    StateMachine Script NodeId → StateMachine Script NodeId
  | receivedChangeMsg c => sentTxComplete c
  | receivedTxComplete c => ofResult negotiationComplete (completeNegotiation rules c)
  | _ => negotiationAborted .unexpectedCounterpartyMessage

def receivedTxCompleteMsg (rules : BitcoinRules Script) :
    StateMachine Script NodeId → StateMachine Script NodeId
  | sentChangeMsg c => receivedTxComplete c
  | sentTxComplete c => ofResult negotiationComplete (completeNegotiation rules c)
  | _ => negotiationAborted .unexpectedCounterpartyMessage

/-- What `do_state_transition!` returns. -/
def result : StateMachine Script NodeId → Except AbortReason Unit
  | negotiationAborted reason => .error reason
  | _ => .ok ()

end StateMachine

/-! ### The constructor -/

inductive InteractiveTxMessageSend (Script : Type) where
  | txAddInput (msg : TxAddInput Script)
  | txAddOutput (msg : TxAddOutput Script)
  | txComplete
deriving DecidableEq, Repr

def InteractiveTxMessageSend.peerMessage : InteractiveTxMessageSend Script → PeerMessage Script
  | txAddInput msg => .txAddInput msg
  | txAddOutput msg => .txAddOutput msg
  | txComplete => .txComplete

inductive HandleTxCompleteValue (Script : Type) where
  | sendTxMessage (msg : InteractiveTxMessageSend Script)
  | negotiationComplete (msg : Option (InteractiveTxMessageSend Script))
      (fundingOutpoint : OutPoint)
deriving DecidableEq, Repr

/-- The message to send in answer to `tx_complete`, if there is one. -/
def HandleTxCompleteValue.answer :
    HandleTxCompleteValue Script → Option (InteractiveTxMessageSend Script)
  | .sendTxMessage msg => some msg
  | .negotiationComplete msg _ => msg

structure InteractiveTxConstructor (Script NodeId : Type) where
  stateMachine : StateMachine Script NodeId
  isInitiator : Bool
  inputsToContribute : List (SerialId × InputOwned Script)
  outputsToContribute : List (SerialId × OutputOwned Script)
  (nextInputIndex nextOutputIndex : Option ℕ)

structure ConfirmedUtxo (Script : Type) where
  outpoint : OutPoint
  output : TxOut Script
  (sequence satisfactionWeight : ℕ)
  prevtx : PrevTx Script
deriving DecidableEq, Repr

structure InteractiveTxConstructorArgs (Script NodeId : Type) where
  /-- The first eight bytes of each draw of the entropy source. -/
  entropySource : ℕ → ℕ
  (holderNodeId counterpartyNodeId : NodeId)
  feerateSatPerKw : UInt32
  fundingTxLocktime : ℕ
  inputsToContribute : List (ConfirmedUtxo Script)
  sharedFundingInput : Option (SharedOwnedInput Script)
  sharedFundingOutput : SharedOwnedOutput Script
  outputsToContribute : List (TxOut Script)

def generateHolderSerialId (randBytes : ℕ) (isInitiator : Bool) : SerialId :=
  if SerialId.isForInitiator randBytes ≠ isInitiator then randBytes ^^^ 1 else randBytes

namespace InteractiveTxConstructor

/-! #### Instantiation -/

variable (args : InteractiveTxConstructorArgs Script NodeId)

def initialContext (isInitiator : Bool) : NegotiationContext Script NodeId where
  holderNodeId := args.holderNodeId
  counterpartyNodeId := args.counterpartyNodeId
  holderIsInitiator := isInitiator
  receivedTxAddInputCount := 0
  receivedTxAddOutputCount := 0
  inputs := []
  sharedFundingInput := args.sharedFundingInput
  sharedFundingOutput := args.sharedFundingOutput
  prevtxOutpoints := []
  outputs := []
  txLocktime := args.fundingTxLocktime
  feerateSatPerKw := args.feerateSatPerKw

/-- The inputs to contribute; the initiator also adds the shared one. -/
def contributedInputs (isInitiator : Bool) : List (InputOwned Script) :=
  (args.inputsToContribute.map fun confirmed => .single
    { input := { previousOutput := confirmed.outpoint, sequence := confirmed.sequence }
      prevTx := confirmed.prevtx
      prevOutput := confirmed.output
      satisfactionWeight := confirmed.satisfactionWeight }) ++
  if isInitiator then args.sharedFundingInput.toList.map .shared else []

/-- The outputs to contribute; the initiator also adds the shared one. -/
def contributedOutputs (isInitiator : Bool) : List (OutputOwned Script) :=
  args.outputsToContribute.map .single ++
  if isInitiator then [.shared args.sharedFundingOutput] else []

/-- Gives each element the next serial id and sorts by them, effectively shuffling the elements. -/
def shuffle {α : Type} (entropySource : ℕ → ℕ) (isInitiator : Bool) (xs : List α) :
    List (SerialId × α) :=
  (xs.zipIdx.map fun (x, i) =>
    (generateHolderSerialId (entropySource i) isInitiator, x)).insertionSort
    fun a b => a.1 ≤ b.1

def new (isInitiator : Bool) : InteractiveTxConstructor Script NodeId :=
  let context := initialContext args isInitiator
  let inputs := contributedInputs args isInitiator
  let inputsToContribute := shuffle args.entropySource isInitiator inputs
  -- the draws for the outputs follow those for the inputs
  let outputsToContribute := shuffle (fun i => args.entropySource (inputs.length + i)) isInitiator
    (contributedOutputs args isInitiator)
  { stateMachine := if isInitiator then .receivedChangeMsg context else .sentChangeMsg context
    isInitiator
    inputsToContribute
    outputsToContribute
    nextInputIndex := if inputsToContribute.isEmpty then none else some 0
    nextOutputIndex := if outputsToContribute.isEmpty then none else some 0 }

/-! #### Sending -/

def nextInputToContribute (self : InteractiveTxConstructor Script NodeId) :
    InteractiveTxConstructor Script NodeId × Option (SerialId × InputOwned Script) :=
  match self.nextInputIndex with
  | some index =>
    ({ self with nextInputIndex := (some (index + 1)).filter (· < self.inputsToContribute.length) },
      self.inputsToContribute[index]?)
  | none => (self, none)

def nextOutputToContribute (self : InteractiveTxConstructor Script NodeId) :
    InteractiveTxConstructor Script NodeId × Option (SerialId × OutputOwned Script) :=
  match self.nextOutputIndex with
  | some index =>
    ({ self with
        nextOutputIndex := (some (index + 1)).filter (· < self.outputsToContribute.length) },
      self.outputsToContribute[index]?)
  | none => (self, none)

def txAddInputMsg (serialId : SerialId) : InputOwned Script → TxAddInput Script
  | .single single =>
    { serialId, prevtx := some single.prevTx, prevtxOut := single.input.previousOutput.vout
      sequence := single.input.sequence, sharedInputTxid := none }
  | .shared shared =>
    { serialId, prevtx := none, prevtxOut := shared.input.previousOutput.vout
      sequence := shared.input.sequence, sharedInputTxid := some shared.input.previousOutput.txid }

def txAddOutputMsg (serialId : SerialId) (output : OutputOwned Script) : TxAddOutput Script where
  serialId := serialId
  sats := output.txOut.value
  script := output.txOut.scriptPubkey

/-- `do_state_transition!`, followed by the rest of the function that uses it. -/
def doStateTransition {α : Type} (self : InteractiveTxConstructor Script NodeId)
    (transition : StateMachine Script NodeId → StateMachine Script NodeId)
    (continuation : InteractiveTxConstructor Script NodeId →
      InteractiveTxConstructor Script NodeId × Except AbortReason α) :
    InteractiveTxConstructor Script NodeId × Except AbortReason α :=
  let self := { self with stateMachine := transition self.stateMachine }
  match self.stateMachine.result with
  | .ok _ => continuation self
  | .error reason => (self, .error reason)

variable (rules : BitcoinRules Script) (self : InteractiveTxConstructor Script NodeId)

/-- First the inputs we want to add, then the outputs. Once we are done sending them both, then we
always send `tx_complete`. -/
def maybeSendMessage :
    InteractiveTxConstructor Script NodeId × Except AbortReason (InteractiveTxMessageSend Script) :=
  match self.nextInputToContribute with
  | (self, some (serialId, input)) =>
    let msg := txAddInputMsg serialId input
    self.doStateTransition (.sentTxAddInput msg input.satisfactionWeight) fun self =>
      (self, .ok (.txAddInput msg))
  | (self, none) =>
    match self.nextOutputToContribute with
    | (self, some (serialId, output)) =>
      let msg := txAddOutputMsg serialId output
      self.doStateTransition (.sentTxAddOutput msg) fun self => (self, .ok (.txAddOutput msg))
    | (self, none) =>
      self.doStateTransition (.sentTxCompleteMsg rules) fun self => (self, .ok .txComplete)

def newForOutbound (args : InteractiveTxConstructorArgs Script NodeId) :
    InteractiveTxConstructor Script NodeId × Option (InteractiveTxMessageSend Script) :=
  let sent := (new args true).maybeSendMessage rules
  (sent.1, sent.2.toOption)

def newForInbound : InteractiveTxConstructor Script NodeId := new args false

/-! #### Receiving -/

def handleTxAddInput (msg : TxAddInput Script) :
    InteractiveTxConstructor Script NodeId × Except AbortReason (InteractiveTxMessageSend Script) :=
  self.doStateTransition (.receivedTxAddInput rules msg) fun self => self.maybeSendMessage rules

def handleTxRemoveInput (serialId : SerialId) :
    InteractiveTxConstructor Script NodeId × Except AbortReason (InteractiveTxMessageSend Script) :=
  self.doStateTransition (.receivedTxRemoveInput serialId) fun self => self.maybeSendMessage rules

def handleTxAddOutput (msg : TxAddOutput Script) :
    InteractiveTxConstructor Script NodeId × Except AbortReason (InteractiveTxMessageSend Script) :=
  self.doStateTransition (.receivedTxAddOutput rules msg) fun self => self.maybeSendMessage rules

def handleTxRemoveOutput (serialId : SerialId) :
    InteractiveTxConstructor Script NodeId × Except AbortReason (InteractiveTxMessageSend Script) :=
  self.doStateTransition (.receivedTxRemoveOutput serialId) fun self => self.maybeSendMessage rules

def fundingOutpoint (session : InteractiveTxSigningSession Script) : OutPoint where
  txid := rules.computeTxid session.unsignedTx.tx
  vout := session.unsignedTx.sharedOutputIndex

def handleTxComplete :
    InteractiveTxConstructor Script NodeId × Except AbortReason (HandleTxCompleteValue Script) :=
  self.doStateTransition (.receivedTxCompleteMsg rules) fun self =>
    match self.stateMachine with
    | .receivedTxComplete _ =>
      match self.maybeSendMessage rules with
      | (self, .error reason) => (self, .error reason)
      | (self, .ok msgSend) =>
        match self.stateMachine with
        | .negotiationComplete session =>
          (self, .ok (.negotiationComplete (some msgSend) (fundingOutpoint rules session)))
        | .sentChangeMsg _ => (self, .ok (.sendTxMessage msgSend))
        | _ => (self, .error .invalidStateTransition)
    | .negotiationComplete session =>
      (self, .ok (.negotiationComplete none (fundingOutpoint rules session)))
    | _ => (self, .error .invalidStateTransition)

/-- Handles a message of the counterparty; the result is the message to answer with, if any. -/
def handle : PeerMessage Script →
    InteractiveTxConstructor Script NodeId ×
      Except AbortReason (Option (InteractiveTxMessageSend Script))
  | .txAddInput msg => (self.handleTxAddInput rules msg).map id (Except.map some)
  | .txAddOutput msg => (self.handleTxAddOutput rules msg).map id (Except.map some)
  | .txRemoveInput serialId => (self.handleTxRemoveInput rules serialId).map id (Except.map some)
  | .txRemoveOutput serialId => (self.handleTxRemoveOutput rules serialId).map id (Except.map some)
  | .txComplete => (self.handleTxComplete rules).map id (Except.map HandleTxCompleteValue.answer)

end InteractiveTxConstructor

end PqLightning.InteractiveTx
