import PqLightning.Onion.Payloads

/-!
# Building a payment onion

`create_payment_onion_internal` and `create_pq_payment_onion` of `ln/onion_utils.rs`, with the keys
they build the packet with. A classical hop is keyed by the secret of an exchange between its node
id and an ephemeral key that is blinded from hop to hop. In a post-quantum onion the secret of an
ML-KEM encapsulation is folded into it, and the ciphertexts travel beside the onion in a list of
fixed length.

What the two functions return does not show which payloads they have packed. They are modelled as
functions that return their payloads too (`OnionParts`); what the source returns is a part of that.
-/

namespace PqLightning.Onion

open Crypto List
open Gossip (Bytes pqKemEkLen)

/-- What onions are built with. That a hash is a scalar and that a blinded key is a key, which the
source takes for granted (`unwrap`, `expect`), is built into the types. -/
structure OnionCrypto (PublicKey SecretKey Scalar : Type) extends PacketCrypto where
  fromSecretKey : SecretKey → PublicKey
  serialize : PublicKey → Bytes 33
  /-- `SharedSecret::new` -/
  sharedSecret : PublicKey → SecretKey → Bytes32
  sha256 : Sha256
  /-- `Scalar::from_be_bytes` -/
  scalar : Bytes32 → Scalar
  /-- `SecretKey::mul_tweak` -/
  mulTweakSecret : SecretKey → Scalar → SecretKey
  /-- `SecretKey::from_slice` -/
  secretFromSlice : Bytes32 → SecretKey
  secretBytes : SecretKey → Bytes32
  kem : MlKem
  dummyCiphertextFromSeed : Bytes32 → Bytes pqKemCtLen

def OutboundOnionPayload.withPacket {PublicKey : Type} (packet : Packet PublicKey) :
    OutboundOnionPayload PublicKey → OutboundOnionPayload PublicKey
  | .trampolineEntrypoint amtToForward outgoingCltvValue multipathTrampolineData _ currentPathKey =>
    .trampolineEntrypoint amtToForward outgoingCltvValue multipathTrampolineData packet
      currentPathKey
  | payload => payload

/-- How payloads are written. A packet takes as many bytes as any other with as much hop data. -/
structure PayloadWriter (PublicKey : Type) where
  onion : OutboundOnionPayload PublicKey → List UInt8
  trampoline : OutboundTrampolinePayload PublicKey → List UInt8
  length_onion : ∀ (payload : OutboundOnionPayload PublicKey) (packet packet' : Packet PublicKey),
    packet.hopData.length = packet'.hopData.length →
      (onion (payload.withPacket packet)).length = (onion (payload.withPacket packet')).length

variable {PublicKey SecretKey Scalar : Type}

/-! ### Keys -/

namespace OnionCrypto

variable (c : OnionCrypto PublicKey SecretKey Scalar)

def mixPaymentOnionSecret (classicalSs kemSs : Bytes32) : Bytes32 :=
  c.sha256 (ascii "LDK-PQ-payment-onion-hybrid-ss" ++ classicalSs.toList ++ kemSs.toList)

def blindingFactor (pubkey : PublicKey) (sharedSecret : Bytes32) : Scalar :=
  c.scalar (c.sha256 ((c.serialize pubkey).1 ++ sharedSecret.toList))

def onionKeys (ephemeralPubkey : PublicKey) (sharedSecret : Bytes32) : OnionKeys PublicKey :=
  let (rho, mu) := c.genRhoMuFromSharedSecret sharedSecret
  ⟨ephemeralPubkey, rho, mu⟩

end OnionCrypto

section Keys

variable (c : OnionCrypto PublicKey SecretKey Scalar)

/-- The keys that an onion has a layer for: the unblinded hops, and the hops of the blinded tail
behind its introduction node, which is the last unblinded one. -/
def layerPubkeys (hops : List PublicKey) (blindedTail : Option (BlindedTail PublicKey)) :
    List PublicKey :=
  hops ++ ((blindedTail.map BlindedTail.hops).getD []).tail.map BlindedHop.blindedNodeId

/-- `construct_onion_keys_generic`: the shared secret and the ephemeral key of each layer. -/
def constructOnionKeysGeneric : List PublicKey → SecretKey → List (Bytes32 × PublicKey)
  | [], _ => []
  | pubkey :: pubkeys, blindedPriv =>
    let blindedPub := c.fromSecretKey blindedPriv
    let sharedSecret := c.sharedSecret pubkey blindedPriv
    (sharedSecret, blindedPub) :: constructOnionKeysGeneric pubkeys
      (c.mulTweakSecret blindedPriv (c.blindingFactor blindedPub sharedSecret))

def constructOnionKeys (path : Path PublicKey) (sessionPriv : SecretKey) :
    List (OnionKeys PublicKey) :=
  let blindedTail := path.blindedTail.filter fun tail => tail.trampolineHops.isEmpty
  (constructOnionKeysGeneric c (layerPubkeys (path.hops.map RouteHop.pubkey) blindedTail)
    sessionPriv).map fun (sharedSecret, ephemeralPubkey) => c.onionKeys ephemeralPubkey sharedSecret

def constructTrampolineOnionKeys (blindedTail : BlindedTail PublicKey) (sessionPriv : SecretKey) :
    List (OnionKeys PublicKey) :=
  (constructOnionKeysGeneric c
    (layerPubkeys (blindedTail.trampolineHops.map TrampolineHop.pubkey) (some blindedTail))
    sessionPriv).map fun (sharedSecret, ephemeralPubkey) => c.onionKeys ephemeralPubkey sharedSecret

def computeTrampolineSessionPriv (outerOnionSessionPriv : SecretKey) : SecretKey :=
  c.secretFromSlice (c.sha256 (c.secretBytes outerOnionSessionPriv).toList)

def u64Bytes (n : ℕ) : List UInt8 := (List.range 8).map fun i => UInt8.ofNat (n / 256 ^ (7 - i))

def pqHopKemSeed (baseSeed : Bytes32) (idx : ℕ) : Bytes32 :=
  c.hmac (ascii "pq_payment_kem_seed") (baseSeed.toList ++ u64Bytes idx)

structure PqKeys (PublicKey : Type) where
  onionKeys : List (OnionKeys PublicKey)
  ciphertexts : List (Bytes pqKemCtLen)
  kemSecrets : List Bytes32

/-- The loop of `construct_pq_onion_keys_inner`, at the layer `idx`. Layers without an ML-KEM key
are those of the blinded tail. -/
def pqKeysFrom (hopKemKeys : List (Bytes pqKemEkLen)) (kemBaseSeed : Bytes32)
    (kemSeedIdxOffset : ℕ) : ℕ → List (Bytes32 × PublicKey) → Option (PqKeys PublicKey)
  | _, [] => some ⟨[], [], []⟩
  | idx, (classical, ephemeralPubkey) :: layers => do
    match hopKemKeys[idx]? with
    | some key =>
      let hopSeed := pqHopKemSeed c kemBaseSeed (kemSeedIdxOffset + idx)
      let (kemSs, ct) ← c.kem.encapsulate key hopSeed
      let hybrid := c.mixPaymentOnionSecret classical kemSs
      let rest ← pqKeysFrom hopKemKeys kemBaseSeed kemSeedIdxOffset (idx + 1) layers
      some ⟨c.onionKeys ephemeralPubkey hybrid :: rest.onionKeys, ct :: rest.ciphertexts,
        kemSs :: rest.kemSecrets⟩
    | none =>
      let rest ← pqKeysFrom hopKemKeys kemBaseSeed kemSeedIdxOffset (idx + 1) layers
      some { rest with onionKeys := c.onionKeys ephemeralPubkey classical :: rest.onionKeys }

def constructPqOnionKeysInner (hops : List PublicKey) (blindedTail : Option (BlindedTail PublicKey))
    (sessionPriv : SecretKey) (hopKemKeys : List (Bytes pqKemEkLen)) (kemBaseSeed : Bytes32)
    (kemSeedIdxOffset : ℕ) : Option (PqKeys PublicKey) :=
  if hops = [] ∨ hopKemKeys.length ≠ hops.length then none
  else pqKeysFrom c hopKemKeys kemBaseSeed kemSeedIdxOffset 0
    (constructOnionKeysGeneric c (layerPubkeys hops blindedTail) sessionPriv)

/-! ### The trail of ciphertexts -/

abbrev maxPathLengthEstimate : ℕ := 19

abbrev pqPaymentTrailHops : ℕ := maxPathLengthEstimate + 1

abbrev pqPaymentTrailLen : ℕ := pqPaymentTrailHops * pqKemCtLen

/-- Entries of fixed length, one behind the other. -/
def flatBytes {n : ℕ} (entries : List (Bytes n)) : List UInt8 := (entries.map Subtype.val).flatten

@[simp]
theorem length_flatBytes {n : ℕ} (entries : List (Bytes n)) :
    (flatBytes entries).length = entries.length * n := by
  induction entries with
  | nil => exact (Nat.zero_mul n).symm
  | cons entry entries ih =>
    rw [flatBytes, map_cons, flatten_cons, length_append, entry.2, length_cons,
      Nat.succ_mul, Nat.add_comm]
    exact congrArg (· + n) ih

def pqDummyTrailCt (prngSeed : Bytes32) (idx : ℕ) : Bytes pqKemCtLen :=
  c.dummyCiphertextFromSeed
    (c.hmac (ascii "pq_payment_trail_dummy_ct") (prngSeed.toList ++ u64Bytes idx))

variable (ciphertexts : List (Bytes pqKemCtLen))

variable (prngSeed : Bytes32)

/-- The ciphertexts of a trail, with as many dummies as there is room for. -/
def trailEntries : List (Bytes pqKemCtLen) :=
  ciphertexts ++ (List.range' ciphertexts.length (pqPaymentTrailHops - ciphertexts.length)).map
    (pqDummyTrailCt c prngSeed)

/-- `build_pq_trail`: the bytes of a `PqOnionTrail`. -/
def buildPqTrail : Except PacketError (List UInt8) := do
  let realHops := ciphertexts.length
  guardWith (¬ (realHops = 0 ∨ realHops > maxPathLengthEstimate)) .err
  let hopData := flatBytes (trailEntries c ciphertexts prngSeed)
  PacketError.ofPanic (Panic.unless (hopData.length = pqPaymentTrailLen) .debugAssertion)
  .ok hopData

theorem length_trailEntries {ciphertexts : List (Bytes pqKemCtLen)} (prngSeed : Bytes32)
    (h : ciphertexts.length ≤ maxPathLengthEstimate) :
    (trailEntries c ciphertexts prngSeed).length = pqPaymentTrailHops := by
  rw [trailEntries, length_append, length_map, length_range']
  exact Nat.add_sub_cancel' (Nat.le_succ_of_le h)

/-- **Trails** are built for one to 19 hops. -/
theorem buildPqTrail_eq :
    buildPqTrail c ciphertexts prngSeed =
      if 0 < ciphertexts.length ∧ ciphertexts.length ≤ maxPathLengthEstimate then
        .ok (flatBytes (trailEntries c ciphertexts prngSeed)) else .error .err := by
  rw [buildPqTrail]
  split
  next h =>
    have hlength : (flatBytes (trailEntries c ciphertexts prngSeed)).length =
        pqPaymentTrailLen := by
      rw [length_flatBytes, length_trailEntries c prngSeed h.2]
    rw [guardWith, if_pos (by omega), ok_bind]
    simp only [Panic.unless_of _ hlength]
    rfl
  next h =>
    rw [guardWith, if_neg (by omega)]
    rfl

def constructPqOnionKeysAndTrail (path : Path PublicKey) (sessionPriv : SecretKey)
    (hopKemKeys : List (Bytes pqKemEkLen)) (kemBaseSeed trailPrngSeed : Bytes32) :
    Except PacketError (PqKeys PublicKey × List UInt8) := do
  guardWith (¬ (path.hops.length > maxPathLengthEstimate ∨ path.hasTrampolineHops)) .err
  let keys ← (constructPqOnionKeysInner c (path.hops.map RouteHop.pubkey) path.blindedTail
    sessionPriv hopKemKeys kemBaseSeed 0).elim (.error .err) .ok
  let trail ← buildPqTrail c keys.ciphertexts trailPrngSeed
  .ok (keys, trail)

end Keys

/-! ### Packets -/

section Packets

variable (c : OnionCrypto PublicKey SecretKey Scalar)

abbrev onionDataLen : ℕ := 20 * 65

theorem onionDataLen_lt : onionDataLen < 2 ^ 32 := by decide

/-- Noise of some length below 2³². -/
def noise (prngSeed : Bytes32) (len : ℕ) (h : len < 2 ^ 32) : PacketData :=
  ⟨c.applyKeystream prngSeed 0 (List.replicate len 0), by
    rw [PacketCrypto.applyKeystream, Layers.Mask.length_apply, length_replicate]
    exact h⟩

@[simp]
theorem length_noise (prngSeed : Bytes32) (len : ℕ) (h : len < 2 ^ 32) :
    (noise c prngSeed len h).bytes.length = len :=
  (Layers.Mask.length_apply _ _).trans length_replicate

/-- `construct_onion_packet`, of payloads as they are written. -/
def constructOnionPacket (payloads : List (List UInt8)) (onionKeys : List (OnionKeys PublicKey))
    (prngSeed : Bytes32) (associatedData : Bytes32) : Except PacketError (Packet PublicKey) := do
  PacketError.ofPanic (Panic.unless (payloads.length = onionKeys.length) .debugAssertion)
  constructOnionPacketWithInitNoise c.toPacketCrypto payloads onionKeys
    (noise c prngSeed onionDataLen onionDataLen_lt) (some associatedData)

/-- `construct_trampoline_onion_packet`, of the shortest length that will do. -/
def constructTrampolineOnionPacket (payloads : List (List UInt8))
    (onionKeys : List (OnionKeys PublicKey)) (prngSeed : Bytes32) (associatedData : Bytes32) :
    Except PacketError (Packet PublicKey) :=
  let minimumPacketLength := (payloads.map fun payload => payload.length + 32).sum
  if h : minimumPacketLength < onionDataLen then
    constructOnionPacketWithInitNoise c.toPacketCrypto payloads onionKeys
      (noise c prngSeed minimumPacketLength (Nat.lt_trans h onionDataLen_lt)) (some associatedData)
  else .error (.panicked .debugAssertion)

/-- `map_err(|_| APIError::InvalidRoute { .. })?` -/
def mapErr {α : Type} (err : String) (x : Except PacketError α) : Except OnionError α :=
  x.mapError fun
    | .err => .invalidRoute err
    | .panicked p => .panicked p

@[simp]
theorem mapErr_eq_ok {α : Type} {err : String} {x : Except PacketError α} {a : α} :
    mapErr err x = .ok a ↔ x = .ok a := by
  cases x <;> simp [mapErr, Except.mapError]

/-- What an onion is made of: the payloads of the Trampoline onion, if there is one, and of the
outer onion, the packet, and the value and CLTV of the first hop. -/
structure OnionParts (PublicKey : Type) where
  inner : Option (List (OutboundTrampolinePayload PublicKey))
  outer : List (OutboundOnionPayload PublicKey)
  packet : Packet PublicKey
  (htlcMsat htlcCltv : ℕ)

/-- `debug_assert_eq!(htlc_cltv - cur_block_height, path.total_cltv_expiry_delta())` -/
def checkCltv (path : Path PublicKey) (curBlockHeight htlcCltv : ℕ) : Except OnionError Unit := do
  let delta ← OnionError.ofPanic (subU64 htlcCltv curBlockHeight)
  let total ← OnionError.ofPanic path.totalCltvExpiryDelta
  OnionError.ofPanic (Panic.unless (delta = total) .debugAssertion)

def trampolineOuterOnion (recipientOnion : RecipientOnionFields) (outerTotalMsat : ℕ) :
    RecipientOnionFields :=
  ⟨recipientOnion.paymentSecret, outerTotalMsat, none, []⟩

/-- The arguments that both functions have. -/
structure OnionRequest (PublicKey SecretKey : Type) where
  path : Path PublicKey
  sessionPriv : SecretKey
  recipientOnion : RecipientOnionFields
  curBlockHeight : ℕ
  paymentHash : Bytes32
  keysendPreimage : Option Bytes32
  invoiceRequest : Option (List UInt8)
  prngSeed : Bytes32

variable (writer : PayloadWriter PublicKey)

def tooLarge : String := "Route size too large (or empty) considering onion data"

def metadataForBlinded : String := "Cannot pass payment_metadata to a blinded recipient"

variable (req : OnionRequest PublicKey SecretKey)

variable (pq : PqRequest) (trampolineSessionPrivOverride : Option SecretKey)
  (trampolinePrngSeedOverride : Option Bytes32)

/-- The part of `create_payment_onion_internal` that decides what the outer onion carries: its
fields, and the Trampoline onion with its payloads. -/
def outerOnion : Except OnionError (RecipientOnionFields ×
      Option (List (OutboundTrampolinePayload PublicKey) × Packet PublicKey)) :=
  match req.path.blindedTail with
  | none => .ok (req.recipientOnion, none)
  | some blindedTail => do
    guardWith (req.recipientOnion.paymentMetadata = none) (.invalidRoute metadataForBlinded)
    if blindedTail.trampolineHops = [] then .ok (req.recipientOnion, none)
    else
      let (trampolinePayloads, outerTotalMsat) ← buildTrampolineOnionPayloads blindedTail
        req.recipientOnion req.curBlockHeight req.keysendPreimage
      let trampolineSessionPriv :=
        trampolineSessionPrivOverride.getD (computeTrampolineSessionPriv c req.sessionPriv)
      let onionKeys := constructTrampolineOnionKeys c blindedTail trampolineSessionPriv
      let trampolinePacket ← mapErr tooLarge (constructTrampolineOnionPacket c
        (trampolinePayloads.map writer.trampoline) onionKeys
        (trampolinePrngSeedOverride.getD req.prngSeed) req.paymentHash)
      .ok (trampolineOuterOnion req.recipientOnion outerTotalMsat,
        some (trampolinePayloads, trampolinePacket))

/-- `create_payment_onion_internal`, with the payloads. -/
def createPaymentOnionInternal : Except OnionError (OnionParts PublicKey) := do
  let (outer, trampoline) ← outerOnion c writer req trampolineSessionPrivOverride
    trampolinePrngSeedOverride
  let (onionPayloads, htlcMsat, htlcCltv) ← buildOnionPayloads req.path outer req.curBlockHeight
    req.keysendPreimage req.invoiceRequest (trampoline.map Prod.snd)
  checkCltv req.path req.curBlockHeight htlcCltv
  let onionKeys := constructOnionKeys c req.path req.sessionPriv
  let onionPacket ← mapErr tooLarge (constructOnionPacket c (onionPayloads.map writer.onion)
    onionKeys req.prngSeed req.paymentHash)
  .ok ⟨trampoline.map Prod.fst, onionPayloads, onionPacket, htlcMsat, htlcCltv⟩

/-! ### The post-quantum onion -/

structure PqRequest where
  (hopKemKeys trampolineKemKeys : List (Bytes pqKemEkLen))
  (kemBaseSeed trailPrngSeed : Bytes32)

/-- What it returns, with the payloads. -/
structure PqOnionParts (PublicKey : Type) extends OnionParts PublicKey where
  /-- The bytes of the `PqOnionTrail`. -/
  trail : List UInt8
  kemSecretsFlat : List UInt8
  pqBlindedCt : Option (List UInt8)

def keysFailed : String :=
  "Failed to build post-quantum onion keys (route too long or missing ML-KEM key)"

/-- `create_pq_payment_onion` on a path without Trampoline hops. -/
def createPqPlainOnion : Except OnionError (PqOnionParts PublicKey) := do
  OnionError.ofPanic (Panic.unless (pq.trampolineKemKeys = []) .debugAssertion)
  let (onionPayloads, htlcMsat, htlcCltv) ← buildOnionPayloads req.path req.recipientOnion
    req.curBlockHeight req.keysendPreimage req.invoiceRequest none
  checkCltv req.path req.curBlockHeight htlcCltv
  let (keys, trail) ← mapErr keysFailed (constructPqOnionKeysAndTrail c req.path req.sessionPriv
    pq.hopKemKeys pq.kemBaseSeed pq.trailPrngSeed)
  let onionPacket ← mapErr tooLarge (constructOnionPacket c (onionPayloads.map writer.onion)
    keys.onionKeys req.prngSeed req.paymentHash)
  let pqBlindedCt := req.path.blindedTail.bind BlindedTail.kemCt
  .ok ⟨⟨none, onionPayloads, onionPacket, htlcMsat, htlcCltv⟩, trail,
    (keys.kemSecrets.map Vector.toList).flatten, pqBlindedCt⟩

/-- `create_pq_payment_onion` on a path with Trampoline hops. -/
def createPqTrampolineOnion (blindedTail : BlindedTail PublicKey) :
    Except OnionError (PqOnionParts PublicKey) := do
  guardWith (req.recipientOnion.paymentMetadata = none) (.invalidRoute metadataForBlinded)
  let (trampolinePayloads, outerTotalMsat) ← buildTrampolineOnionPayloads blindedTail
    req.recipientOnion req.curBlockHeight req.keysendPreimage
  let trampolineKeys ←
    (constructPqOnionKeysInner c (blindedTail.trampolineHops.map TrampolineHop.pubkey)
      (some blindedTail) (computeTrampolineSessionPriv c req.sessionPriv) pq.trampolineKemKeys
      pq.kemBaseSeed req.path.hops.length).elim
      (.error (.invalidRoute
        "Failed to build post-quantum Trampoline onion keys (missing ML-KEM key)")) .ok
  let trampolinePacket ← mapErr tooLarge (constructTrampolineOnionPacket c
    (trampolinePayloads.map writer.trampoline) trampolineKeys.onionKeys req.prngSeed
      req.paymentHash)
  let (onionPayloads, htlcMsat, htlcCltv) ← buildOnionPayloads req.path
    (trampolineOuterOnion req.recipientOnion outerTotalMsat) req.curBlockHeight req.keysendPreimage
    req.invoiceRequest (some trampolinePacket)
  checkCltv req.path req.curBlockHeight htlcCltv
  let keys ← (constructPqOnionKeysInner c (req.path.hops.map RouteHop.pubkey) none req.sessionPriv
    pq.hopKemKeys pq.kemBaseSeed 0).elim (.error (.invalidRoute keysFailed)) .ok
  let onionPacket ← mapErr tooLarge (constructOnionPacket c (onionPayloads.map writer.onion)
    keys.onionKeys req.prngSeed req.paymentHash)
  let trail ← mapErr keysFailed
    (buildPqTrail c (keys.ciphertexts ++ trampolineKeys.ciphertexts) pq.trailPrngSeed)
  .ok ⟨⟨some trampolinePayloads, onionPayloads, onionPacket, htlcMsat, htlcCltv⟩, trail,
    ((keys.kemSecrets ++ trampolineKeys.kemSecrets).map Vector.toList).flatten, blindedTail.kemCt⟩

/-- `create_pq_payment_onion`, with the payloads. -/
def createPqPaymentOnion : Except OnionError (PqOnionParts PublicKey) := do
  guardWith (¬ (req.path.blindedTail.any fun tail => tail.kemCt.isNone))
    (.invalidRoute "Post-quantum payment onion requires a post-quantum blinded path")
  if req.path.hasTrampolineHops then
    let blindedTail ← OnionError.ofPanic (unwrap req.path.blindedTail)
    createPqTrampolineOnion c writer req pq blindedTail
  else createPqPlainOnion c writer req pq

end Packets

end PqLightning.Onion
