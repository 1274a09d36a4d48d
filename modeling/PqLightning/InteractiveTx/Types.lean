import PqLightning.Basic

/-!
# Transactions and messages of an interactive construction

The data of `ln/interactivetxs.rs`: what the two parties tell each other, and how a party records
the inputs and outputs of the transaction they build.

What `rust-bitcoin` computes from a script or a transaction is a parameter, `BitcoinRules`. A script
is an arbitrary type with decidable equality. Of a previous transaction only its id and its outputs
are read, so that is what it is here. The script signature and the witness of an input are empty
throughout the construction and are left out, as is the channel id of a message.
-/

namespace PqLightning.InteractiveTx

/-- Names an input or output during the construction: even for the initiator's, odd for the other
party's. -/
abbrev SerialId : Type := ℕ

abbrev Txid : Type := ℕ

structure OutPoint where
  txid : Txid
  vout : ℕ
deriving DecidableEq, Repr, Inhabited

variable {Script : Type}

structure TxOut (Script : Type) where
  value : ℕ
  scriptPubkey : Script
deriving DecidableEq, Repr

structure TxIn where
  previousOutput : OutPoint
  sequence : ℕ
deriving DecidableEq, Repr

structure PrevTx (Script : Type) where
  computeTxid : Txid
  output : List (TxOut Script)
deriving DecidableEq, Repr

structure Transaction (Script : Type) where
  lockTime : ℕ
  input : List TxIn
  output : List (TxOut Script)
deriving DecidableEq, Repr

/-- What the Bitcoin library computes from scripts and transactions. -/
structure BitcoinRules (Script : Type) where
  (isWitnessProgram isP2wpkh isP2wsh isP2tr : Script → Bool)
  /-- The version of a witness program. -/
  witnessVersion : Script → Option ℕ
  /-- The smallest output of the script that is not dust. -/
  minimalNonDust : Script → ℕ
  /-- The number of bytes a script is encoded with. -/
  encodedLen : Script → ℕ
  /-- The weight of an unsigned transaction. -/
  weight : Transaction Script → ℕ
  computeTxid : Transaction Script → Txid

/-! ### Constants -/

def maxReceivedTxAddInputCount : ℕ := 4096
def maxReceivedTxAddOutputCount : ℕ := 4096
def maxInputsOutputsCount : ℕ := 252
def maxStandardTxWeight : ℕ := 400000

def txCommonFieldsWeight : ℕ := (4 + 4 + 1 + 1) * 4 + 2

def segwitMarkerFlagWeight : ℕ := 2
def emptyScriptSigWeight : ℕ := 4
def baseInputWeight : ℕ := (32 + 4 + 4) * 4
def p2wpkhWitnessWeight : ℕ := 1 + 1 + 72 + 1 + 33
def p2trKeyPathWitnessWeight : ℕ := 1 + 1 + 64
def fundingTransactionWitnessWeight : ℕ :=
  1 + 1 + 1 + 72 + 1 + 72 + 1 + (1 + 1 + 33 + 1 + 33 + 1 + 1)

def remoteFeeTolerancePercent : ℕ := 95

def enableRbfNoLocktime : ℕ := 0xFFFFFFFD

/-! ### Serial ids -/

def SerialId.isForInitiator (self : SerialId) : Bool := self % 2 == 0

def SerialId.isForNonInitiator (self : SerialId) : Bool := !self.isForInitiator

def isSerialIdValidForCounterparty (holderIsInitiator : Bool) (serialId : SerialId) : Bool :=
  holderIsInitiator == serialId.isForNonInitiator

/-! ### Errors -/

inductive AbortReason where
  | invalidStateTransition
  | unexpectedCounterpartyMessage
  | receivedTooManyTxAddInputs
  | receivedTooManyTxAddOutputs
  | incorrectInputSequenceValue
  | incorrectSerialIdParity
  | serialIdUnknown
  | duplicateSerialId
  /-- A nonexisting output index, a duplicate input, or an output that is not a witness program. -/
  | prevTxOutInvalid
  | exceededMaximumSatsAllowed
  | exceededNumberOfInputsOrOutputs
  | transactionTooLarge
  | belowDustLimit
  | invalidOutputScript
  | insufficientFees
  | outputsValueExceedsInputsValue
  /-- No shared input found. -/
  | missingFundingInput
  /-- A shared input was seen, but none is expected. -/
  | unexpectedFundingInput
  /-- A previous transaction must be given for an input that is not shared. -/
  | missingPrevTx
  /-- No previous transaction must be given for a shared input. -/
  | unexpectedPrevTx
  /-- No shared output found. -/
  | missingFundingOutput
  /-- More than one shared output found. -/
  | duplicateFundingOutput
  /-- More than one shared input found. -/
  | duplicateFundingInput
deriving DecidableEq, Repr

/-! ### Messages -/

/-- Adds an input: a shared one, named by its transaction id, or another one, given with the
transaction it spends from. -/
structure TxAddInput (Script : Type) where
  serialId : SerialId
  prevtx : Option (PrevTx Script)
  (prevtxOut sequence : ℕ)
  sharedInputTxid : Option Txid
deriving DecidableEq, Repr

structure TxAddOutput (Script : Type) where
  serialId : SerialId
  sats : ℕ
  script : Script
deriving DecidableEq, Repr

inductive PeerMessage (Script : Type) where
  | txAddInput (msg : TxAddInput Script)
  | txAddOutput (msg : TxAddOutput Script)
  | txRemoveInput (serialId : SerialId)
  | txRemoveOutput (serialId : SerialId)
  | txComplete
deriving DecidableEq, Repr

/-! ### Ownership -/

inductive AddingRole where
  | holder
  | remote
deriving DecidableEq, Repr

structure SingleOwnedInput (Script : Type) where
  input : TxIn
  prevTx : PrevTx Script
  prevOutput : TxOut Script
  satisfactionWeight : ℕ
deriving DecidableEq, Repr

/-- The previous funding output, whose value is split between the parties. The input that spends it
always has the same sequence. -/
structure SharedOwnedInput (Script : Type) where
  previousOutput : OutPoint
  prevOutput : TxOut Script
  localOwned : ℕ
  holderSigFirst : Bool
  witnessScript : Script
deriving DecidableEq, Repr

/-- The input as `to_splice_funding_input` builds it. -/
def SharedOwnedInput.input (self : SharedOwnedInput Script) : TxIn where
  previousOutput := self.previousOutput
  sequence := enableRbfNoLocktime

def SharedOwnedInput.remoteOwned (self : SharedOwnedInput Script) : ℕ :=
  self.prevOutput.value - self.localOwned

inductive InputOwned (Script : Type) where
  /-- Controlled exclusively and fully belonging to a single party. -/
  | single (input : SingleOwnedInput Script)
  /-- Input with shared control and value split between the counterparties. -/
  | shared (input : SharedOwnedInput Script)
deriving DecidableEq, Repr

namespace InputOwned

def txIn : InputOwned Script → TxIn
  | single s => s.input
  | shared s => s.input

def prevOutput : InputOwned Script → TxOut Script
  | single s => s.prevOutput
  | shared s => s.prevOutput

def value (self : InputOwned Script) : ℕ := self.prevOutput.value

def isShared : InputOwned Script → Bool
  | single _ => false
  | shared _ => true

def remoteValue : InputOwned Script → AddingRole → ℕ
  | single _, .holder => 0
  | single s, .remote => s.prevOutput.value
  | shared s, _ => s.remoteOwned

/-- With the default feature `grind_signatures` the signature of a shared input has a low R. -/
def satisfactionWeight : InputOwned Script → ℕ
  | single s => s.satisfactionWeight
  | shared _ => emptyScriptSigWeight + fundingTransactionWitnessWeight - 1

end InputOwned

structure InteractiveTxInput (Script : Type) where
  serialId : SerialId
  addedBy : AddingRole
  input : InputOwned Script
deriving DecidableEq, Repr

def InteractiveTxInput.remoteValue (self : InteractiveTxInput Script) : ℕ :=
  self.input.remoteValue self.addedBy

/-- The new funding output, whose value is split between the parties. The negotiation that leads to
it bounds the old value of the channel and both contributions by the supply of bitcoin. -/
structure SharedOwnedOutput (Script : Type) where
  txOut : TxOut Script
  localOwned : ℕ
  value_le : txOut.value ≤ 3 * totalBitcoinSupplySatoshis
deriving DecidableEq

def SharedOwnedOutput.remoteOwned (self : SharedOwnedOutput Script) : ℕ :=
  self.txOut.value - self.localOwned

inductive OutputOwned (Script : Type) where
  /-- Controlled exclusively and fully belonging to a single party. -/
  | single (output : TxOut Script)
  /-- Output with shared control and value split between the two ends. -/
  | shared (output : SharedOwnedOutput Script)
deriving DecidableEq

namespace OutputOwned

def txOut : OutputOwned Script → TxOut Script
  | single o => o
  | shared s => s.txOut

def value (self : OutputOwned Script) : ℕ := self.txOut.value

def isShared : OutputOwned Script → Bool
  | single _ => false
  | shared _ => true

def remoteValue : OutputOwned Script → AddingRole → ℕ
  | single _, .holder => 0
  | single o, .remote => o.value
  | shared s, _ => s.remoteOwned

end OutputOwned

structure InteractiveTxOutput (Script : Type) where
  serialId : SerialId
  addedBy : AddingRole
  output : OutputOwned Script
deriving DecidableEq

def InteractiveTxOutput.remoteValue (self : InteractiveTxOutput Script) : ℕ :=
  self.output.remoteValue self.addedBy

end PqLightning.InteractiveTx
