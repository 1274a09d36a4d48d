import PqLightning.InteractiveTx.Types

/-!
# The negotiation context and the constructed transaction

`NegotiationContext` of `ln/interactivetxs.rs` collects the inputs and outputs both parties added,
and checks what the counterparty adds. `ConstructedTransaction::new` turns a finished context into
the transaction and checks what it has to check at the end.

The hash maps of the source are lists here, with one entry for each serial id. Nothing depends on
the order of the entries: what is computed from them are sums, and lists sorted by serial id.
-/

namespace PqLightning.InteractiveTx

variable {Script NodeId : Type} [DecidableEq Script]

/-- The state of a negotiation, as one party sees it. -/
structure NegotiationContext (Script NodeId : Type) where
  (holderNodeId counterpartyNodeId : NodeId)
  holderIsInitiator : Bool
  (receivedTxAddInputCount receivedTxAddOutputCount : ℕ)
  inputs : List (InteractiveTxInput Script)
  /-- The previous funding input: for the initiator the one it will add, for the acceptor the one it
  expects the initiator to add. -/
  sharedFundingInput : Option (SharedOwnedInput Script)
  /-- The new funding output, likewise. -/
  sharedFundingOutput : SharedOwnedOutput Script
  /-- The outpoints of all inputs that were ever added. -/
  prevtxOutpoints : List OutPoint
  outputs : List (InteractiveTxOutput Script)
  txLocktime : ℕ
  feerateSatPerKw : UInt32

variable (rules : BitcoinRules Script) (context : NegotiationContext Script NodeId)

/-- The weight of what satisfies an input, as far as the output it spends tells. -/
def estimateInputSatisfactionWeight (prevOutput : TxOut Script) : ℕ :=
  if rules.isP2wpkh prevOutput.scriptPubkey then emptyScriptSigWeight + p2wpkhWitnessWeight
  else if rules.isP2wsh prevOutput.scriptPubkey then emptyScriptSigWeight + p2wpkhWitnessWeight
  else if rules.isP2tr prevOutput.scriptPubkey then emptyScriptSigWeight + p2trKeyPathWitnessWeight
  else emptyScriptSigWeight + p2wpkhWitnessWeight

def getOutputWeight (scriptPubkey : Script) : ℕ := (8 + rules.encodedLen scriptPubkey) * 4

def feeForWeight (feerateSatPer1000Weight weight : ℕ) : ℕ :=
  (feerateSatPer1000Weight * weight + 999) / 1000

namespace NegotiationContext

/-! ### What the counterparty contributed -/

def isSerialIdValidForCounterparty (self : NegotiationContext Script NodeId) (serialId : SerialId) :
    Bool :=
  InteractiveTx.isSerialIdValidForCounterparty self.holderIsInitiator serialId

variable (self : NegotiationContext Script NodeId)

def remoteInputsValue : ℕ := self.inputs.foldl (fun acc input => satAdd64 acc input.remoteValue) 0

def remoteOutputsValue : ℕ :=
  self.outputs.foldl (fun acc output => satAdd64 acc output.remoteValue) 0

def remoteInputsWeight : ℕ :=
  (self.inputs.filter fun input => self.isSerialIdValidForCounterparty input.serialId).foldl
    (fun weight input =>
      satAdd64 (satAdd64 weight baseInputWeight) input.input.satisfactionWeight) 0

variable (rules : BitcoinRules Script)

def remoteOutputsWeight (self : NegotiationContext Script NodeId) : ℕ :=
  (self.outputs.filter fun output => self.isSerialIdValidForCounterparty output.serialId).foldl
    (fun weight output =>
      satAdd64 weight (getOutputWeight rules output.output.txOut.scriptPubkey)) 0

/-- The weight the counterparty has to pay for; the initiator also pays for the common fields. -/
def remoteWeightContributed (self : NegotiationContext Script NodeId) : ℕ :=
  satAdd64 (satAdd64 self.remoteInputsWeight (self.remoteOutputsWeight rules))
    (if !self.holderIsInitiator then txCommonFieldsWeight else 0)

/-! ### Received messages -/

/-- What a received `tx_add_input` adds, and the outpoint it spends. Whether it is the shared input
is decided by the field the counterparty filled in. -/
def receivedInput (self : NegotiationContext Script NodeId)
    (msg : TxAddInput Script) : Except AbortReason (InputOwned Script × OutPoint) :=
  match msg.sharedInputTxid with
  | some sharedTxid =>
    if self.holderIsInitiator then .error .duplicateFundingInput
    else if msg.prevtx.isSome then .error .unexpectedPrevTx
    else match self.sharedFundingInput with
      | some sharedFundingInput =>
        if self.inputs.any fun input => input.input.isShared then .error .duplicateFundingInput
        else if OutPoint.mk sharedTxid msg.prevtxOut ≠ sharedFundingInput.previousOutput then
          .error .unexpectedFundingInput
        else .ok (.shared sharedFundingInput, ⟨sharedTxid, msg.prevtxOut⟩)
      | none => .error .unexpectedFundingInput
  | none =>
    match msg.prevtx with
    | some prevtx =>
      match prevtx.output[msg.prevtxOut]? with
      | some txOut =>
        if !rules.isWitnessProgram txOut.scriptPubkey then .error .prevTxOutInvalid
        else .ok (.single
          { input := { previousOutput := ⟨prevtx.computeTxid, msg.prevtxOut⟩
                       sequence := msg.sequence }
            prevTx := prevtx
            prevOutput := txOut
            satisfactionWeight := estimateInputSatisfactionWeight rules txOut },
          ⟨prevtx.computeTxid, msg.prevtxOut⟩)
      | none => .error .prevTxOutInvalid
    | none => .error .missingPrevTx

def receivedTxAddInput (self : NegotiationContext Script NodeId)
    (msg : TxAddInput Script) : Except AbortReason (NegotiationContext Script NodeId) := do
  guardWith (self.isSerialIdValidForCounterparty msg.serialId) .incorrectSerialIdParity
  let receivedTxAddInputCount := self.receivedTxAddInputCount + 1
  guardWith (receivedTxAddInputCount ≤ maxReceivedTxAddInputCount) .receivedTooManyTxAddInputs
  guardWith (msg.sequence < 0xFFFFFFFE) .incorrectInputSequenceValue
  let (input, prevOutpoint) ← self.receivedInput rules msg
  guardWith (∀ input ∈ self.inputs, input.serialId ≠ msg.serialId) .duplicateSerialId
  -- the `prevtx` and `prevtx_vout` must not be identical to a previously added input's
  guardWith (prevOutpoint ∉ self.prevtxOutpoints) .prevTxOutInvalid
  return { self with
    receivedTxAddInputCount
    prevtxOutpoints := prevOutpoint :: self.prevtxOutpoints
    inputs := { serialId := msg.serialId, addedBy := .remote, input } :: self.inputs }

def receivedTxRemoveInput (serialId : SerialId) :
    Except AbortReason (NegotiationContext Script NodeId) := do
  guardWith (self.isSerialIdValidForCounterparty serialId) .incorrectSerialIdParity
  guardWith (∃ input ∈ self.inputs, input.serialId = serialId) .serialIdUnknown
  return { self with inputs := self.inputs.filter fun input => input.serialId ≠ serialId }

def receivedOutput (txOut : TxOut Script) : Except AbortReason (OutputOwned Script) :=
  if txOut = self.sharedFundingOutput.txOut then
    if self.holderIsInitiator then .error .duplicateFundingOutput
    else if self.outputs.any fun output => output.output.isShared then
      .error .duplicateFundingOutput
    else .ok (.shared self.sharedFundingOutput)
  else .ok (.single txOut)

def receivedTxAddOutput (self : NegotiationContext Script NodeId)
    (msg : TxAddOutput Script) : Except AbortReason (NegotiationContext Script NodeId) := do
  guardWith (self.isSerialIdValidForCounterparty msg.serialId) .incorrectSerialIdParity
  let receivedTxAddOutputCount := self.receivedTxAddOutputCount + 1
  guardWith (receivedTxAddOutputCount ≤ maxReceivedTxAddOutputCount) .receivedTooManyTxAddOutputs
  guardWith (rules.minimalNonDust msg.script ≤ msg.sats) .belowDustLimit
  -- adding this output must not cause the total output value to exceed the total bitcoin supply
  let outputsValue := self.outputs.foldl (fun acc output => satAdd64 acc output.output.value) 0
  guardWith (satAdd64 outputsValue msg.sats ≤ totalBitcoinSupplySatoshis)
    .exceededMaximumSatsAllowed
  guardWith (rules.isP2wpkh msg.script || rules.isP2wsh msg.script ||
    ((rules.witnessVersion msg.script).map fun v => decide (1 ≤ v)).getD false) .invalidOutputScript
  let output ← self.receivedOutput { value := msg.sats, scriptPubkey := msg.script }
  guardWith (∀ output ∈ self.outputs, output.serialId ≠ msg.serialId) .duplicateSerialId
  return { self with
    receivedTxAddOutputCount
    outputs := { serialId := msg.serialId, addedBy := .remote, output } :: self.outputs }

def receivedTxRemoveOutput (serialId : SerialId) :
    Except AbortReason (NegotiationContext Script NodeId) := do
  guardWith (self.isSerialIdValidForCounterparty serialId) .incorrectSerialIdParity
  guardWith (∃ output ∈ self.outputs, output.serialId = serialId) .serialIdUnknown
  return { self with outputs := self.outputs.filter fun output => output.serialId ≠ serialId }

/-! ### Sent messages -/

def sentInput (msg : TxAddInput Script)
    (satisfactionWeight : ℕ) : Except AbortReason (InputOwned Script × OutPoint) :=
  match msg.sharedInputTxid with
  | some sharedInputTxid =>
    match self.sharedFundingInput with
    | some sharedFundingInput => .ok (.shared sharedFundingInput, ⟨sharedInputTxid, msg.prevtxOut⟩)
    | none => .error .unexpectedFundingInput
  | none =>
    match msg.prevtx with
    | some prevtx =>
      match prevtx.output[msg.prevtxOut]? with
      | some prevOutput =>
        .ok (.single
          { input := { previousOutput := ⟨prevtx.computeTxid, msg.prevtxOut⟩
                       sequence := msg.sequence }
            prevTx := prevtx
            prevOutput
            satisfactionWeight },
          ⟨prevtx.computeTxid, msg.prevtxOut⟩)
      | none => .error .prevTxOutInvalid
    | none => .error .missingPrevTx

def sentTxAddInput (msg : TxAddInput Script)
    (satisfactionWeight : ℕ) : Except AbortReason (NegotiationContext Script NodeId) := do
  let (input, prevOutpoint) ← self.sentInput msg satisfactionWeight
  guardWith (prevOutpoint ∉ self.prevtxOutpoints) .prevTxOutInvalid
  return { self with
    prevtxOutpoints := prevOutpoint :: self.prevtxOutpoints
    inputs := { serialId := msg.serialId, addedBy := .holder, input } ::
      self.inputs.filter fun input => input.serialId ≠ msg.serialId }

def sentTxRemoveInput (serialId : SerialId) : NegotiationContext Script NodeId :=
  { self with inputs := self.inputs.filter fun input => input.serialId ≠ serialId }

def sentTxAddOutput (msg : TxAddOutput Script) : NegotiationContext Script NodeId :=
  let txOut : TxOut Script := { value := msg.sats, scriptPubkey := msg.script }
  let output : OutputOwned Script :=
    if txOut = self.sharedFundingOutput.txOut then .shared self.sharedFundingOutput
    else .single txOut
  { self with
    outputs := { serialId := msg.serialId, addedBy := .holder, output } ::
      self.outputs.filter fun output => output.serialId ≠ msg.serialId }

end NegotiationContext

/-! ### The constructed transaction -/

structure TxInMetadata (Script : Type) where
  serialId : SerialId
  prevOutput : TxOut Script
deriving DecidableEq, Repr

def TxInMetadata.isLocal (self : TxInMetadata Script) (holderIsInitiator : Bool) : Bool :=
  !isSerialIdValidForCounterparty holderIsInitiator self.serialId

structure TxOutMetadata where
  serialId : SerialId
deriving DecidableEq, Repr

def InteractiveTxInput.intoTxinAndMetadata (self : InteractiveTxInput Script) :
    TxIn × TxInMetadata Script :=
  (self.input.txIn, { serialId := self.serialId, prevOutput := self.input.prevOutput })

def InteractiveTxOutput.intoTxoutAndMetadata (self : InteractiveTxOutput Script) :
    TxOut Script × TxOutMetadata :=
  (self.output.txOut, { serialId := self.serialId })

structure ConstructedTransaction (Script : Type) where
  holderIsInitiator : Bool
  inputMetadata : List (TxInMetadata Script)
  outputMetadata : List TxOutMetadata
  tx : Transaction Script
  sharedInputIndex : Option ℕ
  sharedOutputIndex : ℕ
deriving DecidableEq, Repr

namespace ConstructedTransaction

def build : ConstructedTransaction Script :=
  let inputs := (context.inputs.map InteractiveTxInput.intoTxinAndMetadata).insertionSort
    fun a b => a.2.serialId ≤ b.2.serialId
  let outputs := (context.outputs.map InteractiveTxOutput.intoTxoutAndMetadata).insertionSort
    fun a b => a.2.serialId ≤ b.2.serialId
  let input := inputs.map Prod.fst
  let output := outputs.map Prod.fst
  { holderIsInitiator := context.holderIsInitiator
    inputMetadata := inputs.map Prod.snd
    outputMetadata := outputs.map Prod.snd
    tx := { lockTime := context.txLocktime, input, output }
    sharedInputIndex := context.sharedFundingInput.bind fun sharedFundingInput =>
      (input.findIdx? fun txin => txin.previousOutput = sharedFundingInput.previousOutput).map
        (· % 2 ^ 16)
    sharedOutputIndex :=
      ((output.findIdx? fun txout => txout = context.sharedFundingOutput.txOut).map
        (· % 2 ^ 16)).getD (2 ^ 16 - 1) }

def requiredRemoteContributionFee : ℕ :=
  feeForWeight (context.feerateSatPerKw.toNat * remoteFeeTolerancePercent / 100 % 2 ^ 32)
    (context.remoteWeightContributed rules)

def new : Except AbortReason (ConstructedTransaction Script) := do
  let expectedWitnessWeight := context.inputs.foldl
    (fun value input => satAdd64 value input.input.satisfactionWeight - emptyScriptSigWeight) 0
  let tx := build context
  -- the peer's total input satoshis is less than their outputs
  guardWith (context.remoteOutputsValue ≤ context.remoteInputsValue) .outputsValueExceedsInputsValue
  -- the peer's paid feerate does not meet or exceed the agreed feerate (based on the minimum fee)
  let remoteFeesContributed := context.remoteInputsValue - context.remoteOutputsValue
  guardWith (requiredRemoteContributionFee rules context ≤ remoteFeesContributed) .insufficientFees
  guardWith (tx.tx.input.length ≤ maxInputsOutputsCount ∧
      tx.tx.output.length ≤ maxInputsOutputsCount)
    .exceededNumberOfInputsOrOutputs
  guardWith (context.sharedFundingInput.isSome → tx.sharedInputIndex.isSome) .missingFundingInput
  guardWith (tx.sharedOutputIndex ≠ 2 ^ 16 - 1) .missingFundingOutput
  guardWith (satAdd64 (satAdd64 (rules.weight tx.tx) segwitMarkerFlagWeight) expectedWitnessWeight ≤
    maxStandardTxWeight) .transactionTooLarge
  return tx

/-- The total value of some inputs. A peer can send previous transactions with any values, so this
is the sum of `u64`s that a build without overflow checks computes. -/
def contributedInputValue (inputs : List (TxInMetadata Script)) : ℕ :=
  (inputs.map fun input => input.prevOutput.value).sum % 2 ^ 64

/-- The total input value from all local contributions, including the entire shared input value if
applicable. -/
def localContributedInputValue (self : ConstructedTransaction Script) : ℕ :=
  contributedInputValue (self.inputMetadata.filter fun input =>
    input.isLocal self.holderIsInitiator)

/-- The total input value from all remote contributions, including the entire shared input value if
applicable. -/
def remoteContributedInputValue (self : ConstructedTransaction Script) : ℕ :=
  contributedInputValue (self.inputMetadata.filter fun input =>
    !input.isLocal self.holderIsInitiator)

end ConstructedTransaction

end PqLightning.InteractiveTx
