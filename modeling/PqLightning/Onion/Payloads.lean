import PqLightning.Onion.Packet

/-!
# The payloads of a payment onion

`build_onion_payloads_callback` of `ln/onion_utils.rs` and what is built on it. It walks over a path
from the last hop to the first, adding up fees and CLTV deltas, and produces one payload for each
hop. The last hop of the path decides how it ends: at a recipient, in a blinded tail or at a
Trampoline. The same walk makes the payloads of the Trampoline onion, so it is generic in the
payload (`OnionPayload`).
-/

namespace PqLightning.Onion

/-! ### Paths -/

/-- `struct RouteHop`, without features. -/
structure RouteHop (PublicKey : Type) where
  pubkey : PublicKey
  (shortChannelId feeMsat cltvExpiryDelta : ℕ)
deriving DecidableEq

/-- `struct TrampolineHop`, without features. -/
structure TrampolineHop (PublicKey : Type) where
  pubkey : PublicKey
  (feeMsat cltvExpiryDelta : ℕ)
deriving DecidableEq

structure BlindedHop (PublicKey : Type) where
  blindedNodeId : PublicKey
  encryptedPayload : List UInt8
deriving DecidableEq

structure BlindedTail (PublicKey : Type) where
  trampolineHops : List (TrampolineHop PublicKey)
  hops : List (BlindedHop PublicKey)
  blindingPoint : PublicKey
  (excessFinalCltvExpiryDelta finalValueMsat : ℕ)
  kemCt : Option (List UInt8)
deriving DecidableEq

structure Path (PublicKey : Type) where
  hops : List (RouteHop PublicKey)
  blindedTail : Option (BlindedTail PublicKey)
deriving DecidableEq

variable {PublicKey : Type}

variable (path : Path PublicKey)

def Path.hasTrampolineHops : Bool := path.blindedTail.any fun tail => !tail.trampolineHops.isEmpty

/-- `total_cltv_expiry_delta`: a sum of `u32` that can overflow. -/
def Path.totalCltvExpiryDelta : Except Panic ℕ :=
  path.hops.foldlM (fun sum hop =>
    if sum + hop.cltvExpiryDelta < 2 ^ 32 then .ok (sum + hop.cltvExpiryDelta)
    else .error .overflow) 0

/-- `trait PathHop`: what the walk over a path looks at. -/
structure PathHop (HopId : Type) where
  hopId : HopId
  (feeMsat cltvExpiryDelta : ℕ)

/-- A hop is known by its channel, -/
def RouteHop.pathHop (hop : RouteHop PublicKey) : PathHop ℕ :=
  ⟨hop.shortChannelId, hop.feeMsat, hop.cltvExpiryDelta⟩

/-- and a Trampoline hop by its node. -/
def TrampolineHop.pathHop (hop : TrampolineHop PublicKey) : PathHop PublicKey :=
  ⟨hop.pubkey, hop.feeMsat, hop.cltvExpiryDelta⟩

/-! ### Payloads -/

structure RecipientOnionFields where
  paymentSecret : Option Bytes32
  totalMppAmountMsat : ℕ
  paymentMetadata : Option (List UInt8)
  customTlvs : List (ℕ × List UInt8)
deriving DecidableEq

structure FinalOnionHopData where
  paymentSecret : Bytes32
  totalMsat : ℕ
deriving DecidableEq

/-- `enum OutboundOnionPayload`. An invoice request is seen as its encoding. -/
inductive OutboundOnionPayload (PublicKey : Type) where
  | forward (shortChannelId amtToForward outgoingCltvValue : ℕ)
  | trampolineEntrypoint (amtToForward outgoingCltvValue : ℕ)
      (multipathTrampolineData : Option FinalOnionHopData) (trampolinePacket : Packet PublicKey)
      (currentPathKey : Option PublicKey)
  | receive (paymentData : Option FinalOnionHopData) (paymentMetadata : Option (List UInt8))
      (keysendPreimage : Option Bytes32) (customTlvs : List (ℕ × List UInt8))
      (senderIntendedHtlcAmtMsat cltvExpiryHeight : ℕ)
  | blindedForward (encryptedTlvs : List UInt8) (introNodeBlindingPoint : Option PublicKey)
  | blindedReceive (senderIntendedHtlcAmtMsat totalMsat cltvExpiryHeight : ℕ)
      (encryptedTlvs : List UInt8) (introNodeBlindingPoint : Option PublicKey)
      (keysendPreimage : Option Bytes32) (customTlvs : List (ℕ × List UInt8))
      (invoiceRequest : Option (List UInt8))
deriving DecidableEq

/-- `enum OutboundTrampolinePayload`, those of its payloads that are ever made. -/
inductive OutboundTrampolinePayload (PublicKey : Type) where
  | forward (amtToForward outgoingCltvValue : ℕ) (outgoingNodeId : PublicKey)
  | blindedForward (encryptedTlvs : List UInt8) (introNodeBlindingPoint : Option PublicKey)
  | blindedReceive (senderIntendedHtlcAmtMsat totalMsat cltvExpiryHeight : ℕ)
      (encryptedTlvs : List UInt8) (introNodeBlindingPoint : Option PublicKey)
      (keysendPreimage : Option Bytes32) (customTlvs : List (ℕ × List UInt8))
deriving DecidableEq

inductive OnionError where
  /-- `APIError::InvalidRoute` -/
  | invalidRoute (err : String)
  | panicked (p : Panic)
deriving DecidableEq, Repr

def OnionError.ofPanic {α : Type} (x : Except Panic α) : Except OnionError α := x.mapError .panicked

@[simp]
theorem OnionError.ofPanic_eq_ok {α : Type} {x : Except Panic α} {a : α} :
    OnionError.ofPanic x = .ok a ↔ x = .ok a := by
  cases x <;> simp [OnionError.ofPanic, Except.mapError]

structure OnionPayload (PublicKey HopId Payload : Type) where
  newForward : (hopId : HopId) → (amtToForward outgoingCltvValue : ℕ) → Payload
  newReceive : RecipientOnionFields → (keysendPreimage : Option Bytes32) →
    (senderIntendedHtlcAmtMsat cltvExpiryHeight : ℕ) → Except OnionError Payload
  newBlindedForward : (encryptedTlvs : List UInt8) → (introNodeBlindingPoint : Option PublicKey) →
    Payload
  newBlindedReceive : (senderIntendedHtlcAmtMsat totalMsat cltvExpiryHeight : ℕ) →
    (encryptedTlvs : List UInt8) → (introNodeBlindingPoint : Option PublicKey) →
    (keysendPreimage : Option Bytes32) → (invoiceRequest : Option (List UInt8)) →
    (customTlvs : List (ℕ × List UInt8)) → Payload
  newTrampolineEntry : (amtToForward outgoingCltvValue : ℕ) → RecipientOnionFields →
    (packet : Packet PublicKey) → (currentPathKey : Option PublicKey) → Except OnionError Payload

variable (recipientOnion : RecipientOnionFields)

/-- The payment secret, with the amount that goes with it. -/
def RecipientOnionFields.finalData : Option FinalOnionHopData :=
  recipientOnion.paymentSecret.map fun secret => ⟨secret, recipientOnion.totalMppAmountMsat⟩

def outboundOnionPayload : OnionPayload PublicKey ℕ (OutboundOnionPayload PublicKey) where
  newForward shortChannelId amtToForward outgoingCltvValue :=
    .forward shortChannelId amtToForward outgoingCltvValue
  newReceive recipientOnion keysendPreimage senderIntendedHtlcAmtMsat cltvExpiryHeight :=
    .ok (.receive recipientOnion.finalData recipientOnion.paymentMetadata keysendPreimage
      recipientOnion.customTlvs senderIntendedHtlcAmtMsat cltvExpiryHeight)
  newBlindedForward encryptedTlvs introNodeBlindingPoint :=
    .blindedForward encryptedTlvs introNodeBlindingPoint
  newBlindedReceive senderIntendedHtlcAmtMsat totalMsat cltvExpiryHeight encryptedTlvs
      introNodeBlindingPoint keysendPreimage invoiceRequest customTlvs :=
    .blindedReceive senderIntendedHtlcAmtMsat totalMsat cltvExpiryHeight encryptedTlvs
      introNodeBlindingPoint keysendPreimage customTlvs invoiceRequest
  newTrampolineEntry amtToForward outgoingCltvValue recipientOnion packet currentPathKey :=
    .ok (.trampolineEntrypoint amtToForward outgoingCltvValue recipientOnion.finalData packet
      currentPathKey)

def outboundTrampolinePayload :
    OnionPayload PublicKey PublicKey (OutboundTrampolinePayload PublicKey) where
  newForward outgoingNodeId amtToForward outgoingCltvValue :=
    .forward amtToForward outgoingCltvValue outgoingNodeId
  newReceive _ _ _ _ :=
    .error (.invalidRoute "Unblinded receiving is not supported for Trampoline!")
  newBlindedForward encryptedTlvs introNodeBlindingPoint :=
    .blindedForward encryptedTlvs introNodeBlindingPoint
  newBlindedReceive senderIntendedHtlcAmtMsat totalMsat cltvExpiryHeight encryptedTlvs
      introNodeBlindingPoint keysendPreimage _ customTlvs :=
    .blindedReceive senderIntendedHtlcAmtMsat totalMsat cltvExpiryHeight encryptedTlvs
      introNodeBlindingPoint keysendPreimage customTlvs
  newTrampolineEntry _ _ _ _ _ :=
    .error (.invalidRoute "Trampoline onions cannot contain Trampoline entrypoints!")

/-! ### The walk -/

inductive TailDetails (PublicKey : Type) where
  | blinded (hops : List (BlindedHop PublicKey)) (blindingPoint : PublicKey)
      (finalValueMsat excessFinalCltvExpiryDelta : ℕ)
  | sendToTrampoline (trampolinePacket : Packet PublicKey) (finalValueMsat : ℕ)
  | forwardToTrampoline (trampolinePacket : Packet PublicKey) (currentPathKey : Option PublicKey)
      (trampolineExpiryHeight : ℕ)

def saturatingAddU32 (a b : ℕ) : ℕ := min (a + b) (2 ^ 32 - 1)

structure Walk (HopId Payload : Type) where
  (curValueMsat curCltv : ℕ)
  lastHopId : Option HopId
  /-- The payloads so far. -/
  res : List Payload

section Walk

variable {HopId Payload : Type} (op : OnionPayload PublicKey HopId Payload)
  (recipientOnion : RecipientOnionFields) (curBlockHeight : ℕ) (keysendPreimage : Option Bytes32)
  (invoiceRequest : Option (List UInt8))

/-- The payloads of a blinded tail, and the running value. Only the first of them has the blinding
point. -/
def blindedPayloads (finalValueMsat excessFinalCltvExpiryDelta : ℕ) :
    List (BlindedHop PublicKey) → Option PublicKey → ℕ → Except OnionError (List Payload × ℕ)
  | [], _, curValueMsat => .ok ([], curValueMsat)
  | [hop], blindingPoint, curValueMsat => do
    let curValueMsat ← OnionError.ofPanic (addU64 curValueMsat finalValueMsat)
    let height ← OnionError.ofPanic (addU32 curBlockHeight excessFinalCltvExpiryDelta)
    .ok ([op.newBlindedReceive finalValueMsat recipientOnion.totalMppAmountMsat height
      hop.encryptedPayload blindingPoint keysendPreimage invoiceRequest recipientOnion.customTlvs],
      curValueMsat)
  | hop :: hop' :: hops, blindingPoint, curValueMsat => do
    let (payloads, curValueMsat) ← blindedPayloads finalValueMsat excessFinalCltvExpiryDelta
      (hop' :: hops) none curValueMsat
    .ok (op.newBlindedForward hop.encryptedPayload blindingPoint :: payloads, curValueMsat)

/-- The end of every round: the hop's fee and delta are added. -/
def closeHop (hop : PathHop HopId) (hopCltvDelta : ℕ) (walk : Walk HopId Payload) :
    Except OnionError (Walk HopId Payload) := do
  let curValueMsat ← OnionError.ofPanic (addU64 walk.curValueMsat hop.feeMsat)
  guardWith (curValueMsat < 21000000 * 100000000 * 1000)
    (.invalidRoute "Channel fees overflowed?")
  let curCltv := saturatingAddU32 walk.curCltv hopCltvDelta
  guardWith (curCltv < 500000000) (.invalidRoute "Channel CLTV overflowed?")
  .ok { walk with curValueMsat := curValueMsat, curCltv := curCltv, lastHopId := some hop.hopId }

def tailRound (tail : Option (TailDetails PublicKey)) (hop : PathHop HopId) :
    Except OnionError (Walk HopId Payload) :=
  let declaredIncomingCltv := saturatingAddU32 hop.cltvExpiryDelta curBlockHeight
  match tail with
  | some (.blinded hops blindingPoint finalValueMsat excessFinalCltvExpiryDelta) => do
    let (res, curValueMsat) ← blindedPayloads op recipientOnion curBlockHeight keysendPreimage
      invoiceRequest finalValueMsat excessFinalCltvExpiryDelta hops (some blindingPoint) 0
    closeHop hop hop.cltvExpiryDelta ⟨curValueMsat, curBlockHeight, none, res⟩
  | some (.sendToTrampoline trampolinePacket finalValueMsat) => do
    let amtToForward ← OnionError.ofPanic (addU64 finalValueMsat hop.feeMsat)
    let payload ← op.newTrampolineEntry amtToForward declaredIncomingCltv recipientOnion
      trampolinePacket none
    closeHop hop hop.cltvExpiryDelta ⟨finalValueMsat, curBlockHeight, none, [payload]⟩
  | some (.forwardToTrampoline trampolinePacket currentPathKey trampolineExpiryHeight) => do
    guardWith (curBlockHeight ≤ trampolineExpiryHeight)
      (.invalidRoute "Next trampoline's cltv expiry height has already expired")
    let payload ← op.newTrampolineEntry hop.feeMsat trampolineExpiryHeight recipientOnion
      trampolinePacket currentPathKey
    closeHop hop 0 ⟨0, trampolineExpiryHeight, none, [payload]⟩
  | none => do
    let payload ← op.newReceive recipientOnion keysendPreimage hop.feeMsat declaredIncomingCltv
    closeHop hop hop.cltvExpiryDelta ⟨0, curBlockHeight, none, [payload]⟩

def forwardRound (walk : Walk HopId Payload) (hop : PathHop HopId) :
    Except OnionError (Walk HopId Payload) := do
  let valueMsat := if walk.curValueMsat = 0 then hop.feeMsat else walk.curValueMsat
  let hopId ← walk.lastHopId.elim
    (.error (.invalidRoute "Next hop ID must be known for non-final hops")) .ok
  let payload := op.newForward hopId valueMsat walk.curCltv
  closeHop hop hop.cltvExpiryDelta { walk with res := payload :: walk.res }

/-- `build_onion_payloads_callback`, with callbacks that push the payloads to a list: the payloads,
and the value and CLTV of the first hop. -/
def buildOnionPayloadsCallback (hops : List (PathHop HopId))
    (tail : Option (TailDetails PublicKey)) :
    Except OnionError (List Payload × ℕ × ℕ) :=
  match hops.reverse with
  | [] => .ok ([], 0, curBlockHeight)
  | last :: hops => do
    let walk ← tailRound op recipientOnion curBlockHeight keysendPreimage invoiceRequest tail last
    let walk ← hops.foldlM (forwardRound op) walk
    .ok (walk.res, walk.curValueMsat, walk.curCltv)

end Walk

def BlindedTail.details (tail : BlindedTail PublicKey) : TailDetails PublicKey :=
  .blinded tail.hops tail.blindingPoint tail.finalValueMsat tail.excessFinalCltvExpiryDelta

def buildTrampolineOnionPayloads (blindedTail : BlindedTail PublicKey)
    (recipientOnion : RecipientOnionFields) (curBlockHeight : ℕ)
    (keysendPreimage : Option Bytes32) :
    Except OnionError (List (OutboundTrampolinePayload PublicKey) × ℕ) := do
  let (res, valueMsat, _) ← buildOnionPayloadsCallback outboundTrampolinePayload recipientOnion
    curBlockHeight keysendPreimage none (blindedTail.trampolineHops.map TrampolineHop.pathHop)
    (some blindedTail.details)
  .ok (res, valueMsat)

def buildOnionPayloads (curBlockHeight : ℕ) (keysendPreimage : Option Bytes32)
    (invoiceRequest : Option (List UInt8)) (trampolinePacket : Option (Packet PublicKey)) :
    Except OnionError (List (OutboundOnionPayload PublicKey) × ℕ × ℕ) :=
  buildOnionPayloadsCallback outboundOnionPayload recipientOnion curBlockHeight keysendPreimage
    invoiceRequest (path.hops.map RouteHop.pathHop)
    (path.blindedTail.map fun tail =>
      match trampolinePacket with
      | some packet => .sendToTrampoline packet tail.finalValueMsat
      | none => tail.details)

end PqLightning.Onion
