import PqLightning.InteractiveTx.Types

/-!
# Transactions on the chain, and the HTLCs of commitments

The data that the channel monitor (`chain/channelmonitor.rs`) and its claim handler
(`chain/onchaintx.rs`, `chain/package.rs`) share.

A transaction carries its id: nothing is assumed of how it is computed. Scripts and the elements of
a witness are byte strings. A commitment transaction is the transaction together with what the two
parties agreed on when they built it; the signatures that come with it are left out.
-/

namespace PqLightning.Chain

export InteractiveTx (Txid OutPoint TxOut)

abbrev Script : Type := List UInt8
abbrev PublicKey : Type := Vector UInt8 33
abbrev PaymentHash : Type := Bytes32
abbrev PaymentPreimage : Type := Bytes32
abbrev BlockHash : Type := ℕ

/-! ### Transactions -/

structure TxIn where
  previousOutput : OutPoint
  sequence : ℕ
  witness : List (List UInt8)
deriving DecidableEq, Repr, Inhabited

structure Transaction where
  /-- `compute_txid()` -/
  txid : Txid
  lockTime : ℕ
  input : List TxIn
  output : List (TxOut Script)
deriving DecidableEq, Repr, Inhabited

/-- `struct BlockLocator`, without the hashes of the blocks below. -/
structure BlockLocator where
  blockHash : BlockHash
  height : ℕ
deriving DecidableEq, Repr, Inhabited

def antiReorgDelay : ℕ := 6

/-! ### HTLCs -/

structure HTLCOutputInCommitment where
  /-- Whether the party that can broadcast the commitment offered it. -/
  offered : Bool
  (amountMsat cltvExpiry : ℕ)
  paymentHash : PaymentHash
  /-- `none` below the dust limit. -/
  transactionOutputIndex : Option ℕ
deriving DecidableEq, Repr, Inhabited

def HTLCOutputInCommitment.toBitcoinAmount (self : HTLCOutputInCommitment) : ℕ :=
  self.amountMsat / 1000

/-- `is_data_equal`: equal but for the output index. -/
def HTLCOutputInCommitment.isDataEqual (self other : HTLCOutputInCommitment) : Bool :=
  self.offered = other.offered ∧ self.amountMsat = other.amountMsat ∧
    self.cltvExpiry = other.cltvExpiry ∧ self.paymentHash = other.paymentHash

/-- `enum HTLCSource`: where an outbound HTLC comes from. A trampoline payment with an HTLC on a
commitment has been dispatched, so it has a session key. The fields that only the channel manager
reads are one byte string, `rest`. -/
inductive HTLCSource where
  | previousHopData (prevOutboundScidAlias htlcId : ℕ) (cltvExpiry : Option ℕ) (rest : List UInt8)
  | trampolineForward (sessionPriv : Bytes32) (rest : List UInt8)
  | outboundRoute (sessionPriv : Bytes32) (firstHopHtlcMsat : ℕ) (rest : List UInt8)
deriving DecidableEq, Repr

inductive SentHTLCId where
  | previousHopData (prevOutboundScidAlias htlcId : ℕ)
  | outboundRoute (sessionPriv : Bytes32)
  | trampolineForward (sessionPriv : Bytes32)
deriving DecidableEq, Repr

def SentHTLCId.fromSource : HTLCSource → SentHTLCId
  | .previousHopData scidAlias htlcId _ _ => .previousHopData scidAlias htlcId
  | .trampolineForward sessionPriv _ => .trampolineForward sessionPriv
  | .outboundRoute sessionPriv _ _ => .outboundRoute sessionPriv

def HTLCSource.inboundHtlcExpiry : HTLCSource → Option ℕ
  | .previousHopData _ _ cltvExpiry _ => cltvExpiry
  | _ => none

def HTLCSource.possiblyMatchesOutput (self : HTLCSource) (htlc : HTLCOutputInCommitment) : Bool :=
  match self with
  | .outboundRoute _ firstHopHtlcMsat _ => firstHopHtlcMsat = htlc.amountMsat
  | _ => true

/-! ### Channels and commitments -/

/-- `ChannelTypeFeatures`, as far as claims depend on it. -/
structure ChannelTypeFeatures where
  (anchorsZeroFeeHtlcTx anchorZeroFeeCommitments : Bool)
deriving DecidableEq, Repr, Inhabited

/-- `struct ChannelTransactionParameters`. The funding output is known in every monitor. -/
structure ChannelTransactionParameters where
  fundingOutpoint : OutPoint
  channelValueSatoshis : ℕ
  spliceParentFundingTxid : Option Txid
  channelTypeFeatures : ChannelTypeFeatures
  /-- The public keys of both parties. -/
  pubkeys : List PublicKey
deriving DecidableEq, Inhabited

structure CommitmentTransaction where
  builtTransaction : Transaction
  commitmentNumber : ℕ
  perCommitmentPoint : PublicKey
  negotiatedFeeratePerKw : ℕ
  nondustHtlcs : List HTLCOutputInCommitment
deriving DecidableEq, Inhabited

def CommitmentTransaction.txid (self : CommitmentTransaction) : Txid := self.builtTransaction.txid

/-- `struct CommitmentHTLCData`: what the commitments of all fundings share. -/
structure CommitmentHTLCData where
  /-- The sources of the outbound HTLCs that have an output, in the order of the outputs. -/
  nondustHtlcSources : List HTLCSource
  dustHtlcs : List (HTLCOutputInCommitment × Option HTLCSource)
deriving DecidableEq, Inhabited

end PqLightning.Chain
