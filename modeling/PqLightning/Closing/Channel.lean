import PqLightning.ChannelState

/-!
# Cooperative closing

The part of `FundedChannel` in `ln/channel.rs` that closes a channel in agreement with the
counterparty: `build_closing_transaction`, `calculate_closing_fee_limits`,
`maybe_propose_closing_signed` and `closing_signed`, and `update_fee`, which a counterparty can send
in between.

A handler changes the channel also when it returns an error, and it can panic, so it returns
`Except Panic` of the new channel and the result. What the Bitcoin library and the signer do is a
parameter: `Crypto`. The signer may be unavailable, and the fee estimates may differ, at each call.

Left out are logging, the counter of updates, and what the result of a shutdown says about the
funding transaction and the identity of the channel. There is no pending splice.
-/

namespace PqLightning.Closing

variable {Script Sig : Type}

/-! ### Messages and transactions -/

/-- The transaction that closes the channel; an output with the value 0 is not there. -/
structure ClosingTransaction (Script : Type) where
  (toHolderValueSat toCounterpartyValueSat : ℕ)
  (toHolderScript toCounterpartyScript : Script)
deriving DecidableEq, Repr

def ClosingTransaction.outputs (self : ClosingTransaction Script) : List (ℕ × Script) :=
  (if 0 < self.toCounterpartyValueSat then
    [(self.toCounterpartyValueSat, self.toCounterpartyScript)] else []) ++
  if 0 < self.toHolderValueSat then [(self.toHolderValueSat, self.toHolderScript)] else []

structure ClosingSignedFeeRange where
  (minFeeSatoshis maxFeeSatoshis : ℕ)
deriving DecidableEq, Repr

structure ClosingSigned (Sig : Type) where
  feeSatoshis : ℕ
  signature : Sig
  feeRange : Option ClosingSignedFeeRange
deriving DecidableEq, Repr

structure Crypto (Script Sig : Type) where
  scriptLen : Script → ℕ
  isWitnessProgram : Script → Bool
  /-- The counterparty's signature is valid for the transaction. -/
  verify : ClosingTransaction Script → Sig → Bool
  /-- The holder's signature of the transaction. -/
  sign : ClosingTransaction Script → Sig

/-- What may differ from call to call: the estimates of the feerate, and whether the signer is
available. -/
structure CallEnv extends FeeEstimator where
  signerReady : Bool
deriving DecidableEq, Repr

structure LastSentClosingFee (Sig : Type) where
  feeSatoshis : ℕ
  skipRemoteOutput : Bool
  feeRange : ClosingSignedFeeRange
  holderSig : Option Sig
deriving DecidableEq, Repr

/-- The signed transaction; the signatures are in the order of the funding keys. -/
structure SignedClosingTransaction (Script Sig : Type) where
  tx : ClosingTransaction Script
  witness : List Sig
deriving DecidableEq, Repr

inductive ClosureReason where
  | locallyInitiatedCooperativeClosure
  | counterpartyInitiatedCooperativeClosure
deriving DecidableEq, Repr

structure ShutdownResult where
  closureReason : ClosureReason
  (channelCapacitySatoshis lastLocalBalanceMsat : ℕ)
deriving DecidableEq, Repr

structure FundedChannel (Script Sig : Type) where
  channelState : ChannelState
  isOutbound : Bool
  (valueSatoshis valueToSelfMsat : ℕ)
  channelType : ChannelTypeFeatures
  /-- The holder's funding key is the smaller one. -/
  holderKeyFirst : Bool
  feeratePerKw : UInt32
  holderDustLimitSatoshis : ℕ
  /-- The numbers of pending HTLCs. -/
  (pendingInboundHtlcs pendingOutboundHtlcs : ℕ)
  pendingUpdateFee : Option (UInt32 × FeeUpdateState)
  (shutdownScriptpubkey counterpartyShutdownScriptpubkey : Option Script)
  localInitiatedShutdown : Bool
  targetClosingFeerateSatsPerKw : Option UInt32
  forceCloseAvoidanceMaxFeeSatoshis : ℕ
  expectingPeerCommitmentSigned : Bool
  closingFeeLimits : Option (ℕ × ℕ)
  lastSentClosingFee : Option (LastSentClosingFee Sig)
  lastReceivedClosingSig : Option Sig
  pendingCounterpartyClosingSigned : Option (ClosingSigned Sig)
  signerPendingClosing : Bool

abbrev Handled (Script Sig α : Type) : Type := FundedChannel Script Sig × Except ChannelError α

/-- What a handler of the closing negotiation returns: a message to send, and the final transaction
if the negotiation is over. -/
abbrev ClosingReply (Script Sig : Type) : Type :=
  Option (ClosingSigned Sig) × Option (SignedClosingTransaction Script Sig × ShutdownResult)

def maxStdOutputDustLimitSatoshis : ℕ := 546

def fundingRedeemscriptLen : ℕ := 71

namespace FundedChannel

/-! ### The closing transaction -/

variable (crypto : Crypto Script Sig)

def outputWeight (script : Option Script) : ℕ :=
  (script.map fun spk => ((8 + 1) + crypto.scriptLen spk) * 4).getD 0

def getClosingTransactionWeight (a b : Option Script) : ℕ :=
  (4 + 1 + 36 + 1 + 4 + 1 + 4) * 4 + 2 + 1 + 4 + fundingRedeemscriptLen + 2 * (1 + 71) +
    outputWeight crypto a + outputWeight crypto b

variable (self : FundedChannel Script Sig)

variable (proposedTotalFeeSatoshis : ℕ) (msg : ClosingSigned Sig)
  (closingTx : ClosingTransaction Script) (skipRemoteOutput : Bool) (env : CallEnv)

/-- The fee that would be paid if a party cannot afford the proposed one. -/
def totalFee (valueToHolder valueToCounterparty : Int) : Except Panic ℕ :=
  if valueToHolder < 0 then do
    Panic.unless self.isOutbound .assertion
    addU64 proposedTotalFeeSatoshis (-valueToHolder).toNat
  else if valueToCounterparty < 0 then do
    Panic.unless (!self.isOutbound) .assertion
    addU64 proposedTotalFeeSatoshis (-valueToCounterparty).toNat
  else .ok proposedTotalFeeSatoshis

/-- The last step of `build_closing_transaction`: outputs of at most the dust limit are dropped. -/
def closingTransaction (valueToHolder valueToCounterparty : Int) :
    Except Panic (Except ChannelError (ClosingTransaction Script)) := do
  Panic.unless (0 ≤ valueToCounterparty) .debugAssertion
  if valueToCounterparty < 0 then
    return .error (.close s!"Value to counterparty below 0: {valueToCounterparty}")
  Panic.unless (0 ≤ valueToHolder) .debugAssertion
  if valueToHolder < 0 then
    return .error (.close s!"Value to holder below 0: {valueToHolder}")
  match self.shutdownScriptpubkey with
  | none => .error .assertion
  | some toHolderScript =>
    match self.counterpartyShutdownScriptpubkey with
    | none => .error .unwrap
    | some toCounterpartyScript =>
      return .ok {
        toHolderValueSat :=
          if valueToHolder.toNat ≤ self.holderDustLimitSatoshis then 0 else valueToHolder.toNat
        toCounterpartyValueSat :=
          if skipRemoteOutput ∨ valueToCounterparty.toNat ≤ self.holderDustLimitSatoshis then 0
          else valueToCounterparty.toNat
        toHolderScript
        toCounterpartyScript }

/-- Builds the closing transaction with the given fee; also returns the fee it pays. -/
def buildClosingTransaction :
    Except Panic (Except ChannelError (ClosingTransaction Script × ℕ)) := do
  Panic.unless (self.pendingInboundHtlcs = 0) .assertion
  Panic.unless (self.pendingOutboundHtlcs = 0) .assertion
  Panic.unless self.pendingUpdateFee.isNone .assertion
  let valueToHolder := asI64 self.valueToSelfMsat / 1000 -
    if self.isOutbound then asI64 proposedTotalFeeSatoshis else 0
  let valueMsat ← mulU64 self.valueSatoshis 1000
  let counterpartyMsat ← subU64 valueMsat self.valueToSelfMsat
  let valueToCounterparty := asI64 counterpartyMsat / 1000 -
    if self.isOutbound then 0 else asI64 proposedTotalFeeSatoshis
  let totalFeeSatoshis ← self.totalFee proposedTotalFeeSatoshis valueToHolder valueToCounterparty
  let closingTx ← self.closingTransaction skipRemoteOutput valueToHolder valueToCounterparty
  return closingTx.map fun tx => (tx, totalFeeSatoshis)

/-! ### The fees we accept -/

/-- The feerates of our range, before a target is taken into account. -/
def proposedFeerates (self : FundedChannel Script Sig) : UInt32 × UInt32 :=
  let proposedMaxFeerate := if self.isOutbound then env.nonAnchorChannelFee else 0xFFFFFFFF
  match self.targetClosingFeerateSatsPerKw with
  | some targetFeerate =>
    let minFeerate := if self.isOutbound then targetFeerate else min self.feeratePerKw targetFeerate
    (max env.channelCloseMinimum minFeerate, max proposedMaxFeerate minFeerate)
  | none => (env.channelCloseMinimum, proposedMaxFeerate)

def closingWeight (self : FundedChannel Script Sig) : ℕ :=
  getClosingTransactionWeight crypto self.shutdownScriptpubkey self.counterpartyShutdownScriptpubkey

def feeFor (feerate : UInt32) (weight : ℕ) : Except Panic ℕ := do
  let fee ← mulU64 feerate.toNat weight
  return fee / 1000

/-- The largest fee we accept: as the funder from our estimate, else all that the counterparty
has. -/
def proposedMaxTotalFeeSatoshis (self : FundedChannel Script Sig) : Except Panic ℕ :=
  if self.isOutbound then do
    let normalFee ← feeFor env.nonAnchorChannelFee (self.closingWeight crypto)
    let withAvoidance ← addU64 normalFee self.forceCloseAvoidanceMaxFeeSatoshis
    let maxFee ← feeFor (self.proposedFeerates env).2 (self.closingWeight crypto)
    return max withAvoidance maxFee
  else subU64 self.valueSatoshis ((self.valueToSelfMsat + 999) / 1000)

/-- Our minimum and maximum closing transaction fee amounts. They remain consistent unless a peer
reconnects. -/
def calculateClosingFeeLimits (self : FundedChannel Script Sig) :
    Except Panic (FundedChannel Script Sig × (ℕ × ℕ)) :=
  match self.closingFeeLimits with
  | some limits => .ok (self, limits)
  | none => do
    Panic.unless self.shutdownScriptpubkey.isSome .unwrap
    Panic.unless self.counterpartyShutdownScriptpubkey.isSome .unwrap
    let proposedTotalFeeSatoshis ←
      feeFor (self.proposedFeerates env).1 (self.closingWeight crypto)
    let proposedMaxTotalFeeSatoshis ← self.proposedMaxTotalFeeSatoshis crypto env
    let limits := (proposedTotalFeeSatoshis, proposedMaxTotalFeeSatoshis)
    return ({ self with closingFeeLimits := some limits }, limits)

/-! ### The negotiation -/

/-- Both sides have exchanged a `shutdown` and everything pending has been drained. -/
def closingNegotiationReady : Bool :=
  self.pendingInboundHtlcs = 0 && self.pendingOutboundHtlcs = 0 && self.pendingUpdateFee.isNone &&
    match self.channelState with
    | .awaitingChannelReady flags => flags = ⟨false, false, true, true⟩
    | .channelReady flags => flags = ⟨⟨false, false, true, true⟩, false, false, false, false⟩
    | _ => false

def isShutdownPendingSignature : Bool :=
  (match self.channelState with | .channelReady _ => true | _ => false) &&
    self.signerPendingClosing && self.lastReceivedClosingSig.isSome

def shutdownResultCoopClose : ShutdownResult where
  closureReason :=
    if self.localInitiatedShutdown then .locallyInitiatedCooperativeClosure
    else .counterpartyInitiatedCooperativeClosure
  channelCapacitySatoshis := self.valueSatoshis
  lastLocalBalanceMsat := self.valueToSelfMsat

def buildSignedClosingTransaction (counterpartySig sig : Sig) :
    SignedClosingTransaction Script Sig where
  tx := closingTx
  witness := if self.holderKeyFirst then [sig, counterpartySig] else [counterpartySig, sig]

def getClosingSignedMsg (self : FundedChannel Script Sig) (closingTx : ClosingTransaction Script)
    (skipRemoteOutput : Bool) (feeSatoshis minFeeSatoshis maxFeeSatoshis : ℕ) :
    FundedChannel Script Sig × Option (ClosingSigned Sig) :=
  let sig := if env.signerReady then some (crypto.sign closingTx) else none
  let feeRange := ⟨minFeeSatoshis, maxFeeSatoshis⟩
  ({ self with
      signerPendingClosing := sig.isNone
      lastSentClosingFee := some ⟨feeSatoshis, skipRemoteOutput, feeRange, sig⟩ },
    sig.map fun signature => { feeSatoshis, signature, feeRange := some feeRange })

/-- What `closing_signed` has checked of a message before it decides on an answer: the transaction
the counterparty signed, and whether its own output is left out of it. -/
def checkClosingSigned (self : FundedChannel Script Sig) (msg : ClosingSigned Sig) :
    Except Panic (Except ChannelError (ClosingTransaction Script × Bool)) := do
  match ← self.buildClosingTransaction msg.feeSatoshis false with
  | .error e => return .error e
  | .ok (closingTx, usedTotalFee) =>
    if usedTotalFee ≠ msg.feeSatoshis then
      let fee := msg.feeSatoshis
      return .error (.close
        ("Remote sent us a closing_signed with a fee other than the value they can claim. Fee " ++
         s!"in message: {fee}. Actual closing tx fee: {usedTotalFee}"))
    else if crypto.verify closingTx msg.signature then return .ok (closingTx, false)
    else
      -- the remote end may have decided to revoke their output due to inconsistent dust limits
      match ← self.buildClosingTransaction msg.feeSatoshis true with
      | .error e => return .error e
      | .ok (closingTx, _) =>
        return if crypto.verify closingTx msg.signature then .ok (closingTx, true)
          else .error (.close "Invalid closing tx signature from peer")

def feeToPropose (ourMinFee ourMaxFee : ℕ) : Except Panic (Except ChannelError ℕ) :=
  let fee := msg.feeSatoshis
  match msg.feeRange with
  | some ⟨minFee, maxFee⟩ =>
    if fee < minFee ∨ maxFee < fee then
      .ok (.error (.close
        (s!"Peer sent a bogus closing_signed - suggested fee of {fee} sat was not in their " ++
         s!"desired range of {minFee} sat - {maxFee} sat")))
    else if maxFee < ourMinFee then
      .ok (.error (.warn
        (s!"Unable to come to consensus about closing feerate, remote's max fee ({maxFee} sat) " ++
         s!"was smaller than our min fee ({ourMinFee} sat)")))
    else if ourMaxFee < minFee then
      .ok (.error (.warn
        (s!"Unable to come to consensus about closing feerate, remote's min fee ({minFee} sat) " ++
         s!"was greater than our max fee ({ourMaxFee} sat)")))
    else if !self.isOutbound then do
      -- they have to pay, so pick the highest fee in the overlapping range
      let balance ← subU64 self.valueSatoshis ((self.valueToSelfMsat + 999) / 1000)
      Panic.unless (ourMaxFee = balance) .debugAssertion
      return .ok (min maxFee ourMaxFee)
    else if fee < ourMinFee ∨ ourMaxFee < fee then
      .ok (.error (.close
        (s!"Peer sent a bogus closing_signed - suggested fee of {fee} sat was not in our " ++
         s!"desired range of {ourMinFee} sat - {ourMaxFee} sat after we informed them of our " ++
         "range.")))
    else .ok (.ok fee)
  | none =>
    -- old fee style negotiation
    match self.lastSentClosingFee with
    | some last =>
      if last.feeSatoshis < fee then if fee < ourMaxFee then .ok (.ok fee)
        else if last.feeSatoshis < ourMaxFee then .ok (.ok ourMaxFee)
        else .ok (.error (.close
          (s!"Unable to come to consensus about closing feerate, remote wants something ({fee} " ++
           s!"sat) higher than our max fee ({ourMaxFee} sat)")))
      else if ourMinFee < fee then .ok (.ok fee)
      else if ourMinFee < last.feeSatoshis then .ok (.ok ourMinFee)
      else .ok (.error (.close
        (s!"Unable to come to consensus about closing feerate, remote wants something ({fee} " ++
         s!"sat) lower than our min fee ({ourMinFee} sat)")))
    | none =>
      if fee < ourMinFee then .ok (.ok ourMinFee)
      else if ourMaxFee < fee then .ok (.ok ourMaxFee)
      else .ok (.ok fee)

/-- The transaction of a new proposal, whether it leaves the counterparty's output out, and the fee
it pays: what the counterparty signed, if the fee is theirs. -/
def proposedTransaction (newFee : ℕ) :
    Except Panic (Except ChannelError (ClosingTransaction Script × Bool × ℕ)) :=
  if newFee = msg.feeSatoshis then .ok (.ok (closingTx, skipRemoteOutput, newFee))
  else do
    let built ← self.buildClosingTransaction newFee false
    return built.map fun (tx, usedFee) => (tx, false, usedFee)

/-- `propose_fee!`: proposes a fee, which ends the negotiation if it is the counterparty's. -/
def proposeFee (self : FundedChannel Script Sig) (msg : ClosingSigned Sig)
    (closingTx : ClosingTransaction Script) (skipRemoteOutput : Bool)
    (ourMinFee ourMaxFee newFee : ℕ) :
    Except Panic (Handled Script Sig (ClosingReply Script Sig)) := do
  match ← self.proposedTransaction msg closingTx skipRemoteOutput newFee with
  | .error e => return (self, .error e)
  | .ok (closingTx, skipRemoteOutput, usedFee) =>
    let sent := self.getClosingSignedMsg crypto env closingTx skipRemoteOutput usedFee ourMinFee
      ourMaxFee
    if newFee = msg.feeSatoshis then
      let self := { sent.1 with lastReceivedClosingSig := some msg.signature }
      match sent.2 with
      | some reply =>
        return ({ self with channelState := .shutdownComplete },
          .ok (some reply, some (self.buildSignedClosingTransaction closingTx msg.signature
            reply.signature, self.shutdownResultCoopClose)))
      | none => return (self, .ok (none, none))
    else return (sent.1, .ok (sent.2, none))

/-- The second half of `closing_signed`: the counterparty's signature is valid for `closingTx`. -/
def answerClosingSigned (self : FundedChannel Script Sig) (msg : ClosingSigned Sig)
    (closingTx : ClosingTransaction Script) (skipRemoteOutput : Bool) :
    Except Panic (Handled Script Sig (ClosingReply Script Sig)) := do
  let (self, ourMinFee, ourMaxFee) ← self.calculateClosingFeeLimits crypto env
  match ← self.feeToPropose msg ourMinFee ourMaxFee with
  | .error e => return (self, .error e)
  | .ok newFee =>
    self.proposeFee crypto env msg closingTx skipRemoteOutput ourMinFee ourMaxFee newFee

def closingSignedRefusal : Option ChannelError :=
  if self.isShutdownPendingSignature then
    some (.warn
      ("Remote end sent us a closing_signed while fully shutdown and just waiting on the final " ++
       "closing signature"))
  else if !self.channelState.isBothSidesShutdown then
    some (.close "Remote end sent us a closing_signed before both sides provided a shutdown")
  else if self.channelState.isPeerDisconnected then
    some (.close "Peer sent closing_signed when we needed a channel_reestablish")
  else if self.pendingInboundHtlcs ≠ 0 ∨ self.pendingOutboundHtlcs ≠ 0 then
    some (.close "Remote end sent us a closing_signed while there were still pending HTLCs")
  else if totalBitcoinSupplySatoshis < msg.feeSatoshis then
    some (.close "Remote tried to send us a closing tx with > 21 million BTC fee")
  else if self.isOutbound ∧ self.lastSentClosingFee.isNone then
    some (.close
      "Remote tried to send a closing_signed when we were supposed to propose the first one")
  else none

def closingSigned (self : FundedChannel Script Sig) (msg : ClosingSigned Sig) :
    Except Panic (Handled Script Sig (ClosingReply Script Sig)) := do
  match self.closingSignedRefusal msg with
  | some e => return (self, .error e)
  | none =>
    if self.channelState.isMonitorUpdateInProgress then
      return ({ self with pendingCounterpartyClosingSigned := some msg }, .ok (none, none))
    else
      match ← self.checkClosingSigned crypto msg with
      | .error e => return (self, .error e)
      | .ok (closingTx, skipRemoteOutput) =>
        if closingTx.outputs.any fun output =>
            !crypto.isWitnessProgram output.2 && output.1 < maxStdOutputDustLimitSatoshis then
          return (self, .error (.close
            ("Remote sent us a closing_signed with a dust output. Always use segwit closing " ++
             "scripts!")))
        else
          match self.lastSentClosingFee with
          | some ⟨lastFee, _, _, some sig⟩ =>
            if lastFee = msg.feeSatoshis then
              return ({ self with channelState := .shutdownComplete },
                .ok (none, some (self.buildSignedClosingTransaction closingTx msg.signature sig,
                  self.shutdownResultCoopClose)))
            else self.answerClosingSigned crypto env msg closingTx skipRemoteOutput
          | _ => self.answerClosingSigned crypto env msg closingTx skipRemoteOutput

def proposeFirst (self : FundedChannel Script Sig) :
    Except Panic (Handled Script Sig (ClosingReply Script Sig)) := do
  let (self, ourMinFee, ourMaxFee) ← self.calculateClosingFeeLimits crypto env
  Panic.unless self.shutdownScriptpubkey.isSome .assertion
  match ← self.buildClosingTransaction ourMinFee false with
  | .error e => return (self, .error e)
  | .ok (closingTx, totalFeeSatoshis) =>
    let sent := self.getClosingSignedMsg crypto env closingTx false totalFeeSatoshis ourMinFee
      ourMaxFee
    return (sent.1, .ok (sent.2, none))

/-- Starts the negotiation, if it is time and it is up to us, or handles a `closing_signed` that had
to wait. -/
def maybeProposeClosingSigned (self : FundedChannel Script Sig) :
    Except Panic (Handled Script Sig (ClosingReply Script Sig)) :=
  if self.lastSentClosingFee.isSome ∨ !self.closingNegotiationReady then
    .ok (self, .ok (none, none))
  else if !self.isOutbound then
    match self.pendingCounterpartyClosingSigned with
    | some msg =>
      closingSigned crypto env { self with pendingCounterpartyClosingSigned := none } msg
    | none => .ok (self, .ok (none, none))
  else if self.expectingPeerCommitmentSigned then .ok (self, .ok (none, none))
  else self.proposeFirst crypto env

/-! ### Fee updates -/

def updateFee (self : FundedChannel Script Sig) (feeratePerKw : UInt32) :
    FundedChannel Script Sig × Except ChannelError Unit :=
  if self.isOutbound then (self, .error (.close "Non-funding remote tried to update channel fee"))
  else if self.channelState.isPeerDisconnected then
    (self, .error (.close "Peer sent update_fee when we needed a channel_reestablish"))
  else if self.channelState.isRemoteStfuSent || self.channelState.isQuiescent then
    (self, .error (.warnAndDisconnect "Got fee update message while quiescent"))
  else if self.channelType.supportsAnchorZeroFeeCommitments then
    (self, .error (.warnAndDisconnect
      "Update fee message received for zero fee commitment channel"))
  else
    match env.checkRemoteFee self.channelType feeratePerKw (some self.feeratePerKw) with
    | .error e => (self, .error e)
    | .ok _ => ({ self with pendingUpdateFee := some (feeratePerKw, .remoteAnnounced) }, .ok ())

end FundedChannel

end PqLightning.Closing
