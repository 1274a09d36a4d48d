import PqLightning.Offers.Streams
import PqLightning.Crypto.PqKem

/-!
# Metadata that a node can verify without storing it

A node that hands out an offer, an invoice request or a refund derives from its contents, with a
secret key and a nonce, either a signing key or a tag (`offers/signer.rs`). When the contents come
back in somebody else's message, it derives them again and compares.

The node's key enters through its uses (`OfferCrypto`): the HMAC keyed with it, the cipher for
payment ids, and what is derived from a digest. No property is assumed here; the results that need
one say so.
-/

namespace PqLightning.Offers

open List

open Gossip (Bytes)
open Crypto (ascii)

abbrev Nonce : Type := Bytes 16

abbrev PaymentId : Type := Bytes 32

/-- The node's `ExpandedKey` through its uses, and the primitives that digests are put into: the
HMAC keyed with `offers_base_key`, the cipher of payment ids, the bytes of a digest, the public key
of a keypair whose secret is a digest, and the ML-DSA public key of a digest as seed. -/
structure OfferCrypto (Digest : Type) where
  hmacForOffer : List UInt8 → Digest
  cryptForOffer : PaymentId → Nonce → PaymentId
  toByteArray : Digest → Bytes 32
  publicKey : Digest → Value
  mlDsaPublicKey : Digest → Bytes Gossip.pqPublicKeyLen

def derivedMetadataHmacInput : List UInt8 := List.replicate 16 1

def derivedMetadataAndKeysHmacInput : List UInt8 := List.replicate 16 2

def withoutEncryptedPaymentIdHmacInput : List UInt8 := List.replicate 16 3

def withEncryptedPaymentIdHmacInput : List UInt8 := List.replicate 16 4

/-! ### Derivation -/

/-- `struct MetadataMaterial`, without the HMAC engine, which is the node's. -/
structure MetadataMaterial where
  nonce : Nonce
  encryptedPaymentId : Option PaymentId

inductive Metadata where
  | bytes (bytes : Value)
  | recipientData (nonce : Nonce)
  | derived (material : MetadataMaterial)
  | derivedSigningPubkey (material : MetadataMaterial)

section

variable {Digest : Type} (crypto : OfferCrypto Digest)

def MetadataMaterial.new (nonce : Nonce) (paymentId : Option PaymentId) : MetadataMaterial where
  nonce
  encryptedPaymentId := paymentId.map fun id => crypto.cryptForOffer id nonce

variable (self : MetadataMaterial)

/-- `maybe_include_encrypted_payment_id` -/
def MetadataMaterial.paymentIdInput : List UInt8 :=
  match self.encryptedPaymentId with
  | none => withoutEncryptedPaymentIdHmacInput
  | some id => withEncryptedPaymentIdHmacInput ++ id.1

/-- The bytes that the encrypted payment id and the nonce take in the metadata. -/
def MetadataMaterial.leading : List UInt8 :=
  (self.encryptedPaymentId.elim [] Subtype.val) ++ self.nonce.1

theorem MetadataMaterial.length_leading : self.leading.length ≤ 48 := by
  have hnonce := self.nonce.2
  rw [leading, length_append, hnonce]
  match self.encryptedPaymentId with
  | none => simp
  | some id =>
    have hid := id.2
    simp only [Option.elim_some, hid]
    omega

def MetadataMaterial.hmacInput (ivBytes : List UInt8)
    (tlvStream : List TlvRecord) (use : List UInt8) : List UInt8 :=
  ivBytes ++ self.nonce.1 ++ toBytes tlvStream ++ use ++ self.paymentIdInput

def MetadataMaterial.deriveMetadata (ivBytes : List UInt8) (tlvStream : List TlvRecord) : Value :=
  let digest := crypto.hmacForOffer (self.hmacInput ivBytes tlvStream derivedMetadataHmacInput)
  ⟨self.leading ++ (crypto.toByteArray digest).1, by
    have hleading := self.length_leading
    have hdigest := (crypto.toByteArray digest).2
    rw [length_append, hdigest]
    omega⟩

/-- `derive_metadata_and_keys`; a keypair is given by its secret. -/
def MetadataMaterial.deriveMetadataAndKeys (ivBytes : List UInt8)
    (tlvStream : List TlvRecord) : Value × Digest :=
  (⟨self.leading, by have := self.length_leading; omega⟩,
    crypto.hmacForOffer (self.hmacInput ivBytes tlvStream derivedMetadataAndKeysHmacInput))

namespace Metadata

def hasDerivationMaterial : Metadata → Except Panic Bool
  | bytes _ => .ok false
  | recipientData _ => .error .debugAssertion
  | derived _ | derivedSigningPubkey _ => .ok true

def derivesPayerKeys : Metadata → Bool
  | bytes b => b.1.length = 48
  | recipientData _ | derived _ => false
  | derivedSigningPubkey _ => true

def derivesRecipientKeys : Metadata → Bool
  | bytes b => b.1.length = 16
  | recipientData _ | derivedSigningPubkey _ => true
  | derived _ => false

def withoutKeys : Metadata → Except Panic Metadata
  | bytes b => .ok (bytes b)
  | recipientData _ => .error .debugAssertion
  | derived material | derivedSigningPubkey material => .ok (derived material)

def asBytes : Metadata → Except Panic Value
  | bytes b => .ok b
  | _ => .error .debugAssertion

def asRef : Metadata → Except Panic (List UInt8)
  | bytes b => .ok b.1
  | recipientData nonce => .ok nonce.1
  | derived _ | derivedSigningPubkey _ => .error .debugAssertion

def deriveFrom (self : Metadata) (ivBytes : List UInt8) (tlvStream : List TlvRecord) :
    Except Panic (Metadata × Option Digest) :=
  match self with
  | bytes b => .ok (bytes b, none)
  | recipientData _ => .error .debugAssertion
  | derived material => .ok (bytes (material.deriveMetadata crypto ivBytes tlvStream), none)
  | derivedSigningPubkey material =>
    let (metadata, keys) := material.deriveMetadataAndKeys crypto ivBytes tlvStream
    .ok (bytes metadata, some keys)

end Metadata

/-! ### Verification -/

variable (metadata ivBytes : List UInt8)

/-- `hmac_for_message`: what has been put into the HMAC. -/
def hmacForMessage (tlvStream : List TlvRecord) : Option (List UInt8) :=
  if metadata.length < 16 then none
  else some (ivBytes ++ metadata.take 16 ++ toBytes tlvStream ++
    if metadata.length = 16 then derivedMetadataAndKeysHmacInput else derivedMetadataHmacInput)

def verifyMetadata (metadata : List UInt8) (hmac : Digest) (signingPubkey : Value) :
    Option (Option Digest) :=
  if metadata.length = 16 then
    if signingPubkey = crypto.publicKey hmac then some (some hmac) else none
  else if metadata.length = 48 ∧ metadata.drop 16 = (crypto.toByteArray hmac).1 then some none
  else none

def verifyRecipientMetadata (signingPubkey : Value)
    (tlvStream : List TlvRecord) : Option (Option Digest) := do
  let hmac ← hmacForMessage metadata ivBytes tlvStream
  verifyMetadata crypto metadata (crypto.hmacForOffer (hmac ++ withoutEncryptedPaymentIdHmacInput))
    signingPubkey

def verifyPayerMetadataInner (signingPubkey : Value)
    (tlvStream : List TlvRecord) : Option (Option Digest) :=
  if metadata.length < 32 then none
  else do
    let hmac ← hmacForMessage (metadata.drop 32) ivBytes tlvStream
    verifyMetadata crypto (metadata.drop 32)
      (crypto.hmacForOffer (hmac ++ withEncryptedPaymentIdHmacInput ++ metadata.take 32))
        signingPubkey

def sliceAt (start n : ℕ) (l : List UInt8) : Option (Bytes n) :=
  if h : ((l.drop start).take n).length = n then some ⟨(l.drop start).take n, h⟩ else none

def verifyPayerMetadata (signingPubkey : Value)
    (tlvStream : List TlvRecord) : Option PaymentId := do
  let _ ← verifyPayerMetadataInner crypto metadata ivBytes signingPubkey tlvStream
  let encryptedPaymentId ← sliceAt 0 32 metadata
  let nonce ← sliceAt 32 16 metadata
  return crypto.cryptForOffer encryptedPaymentId nonce

def derivePayerKeys (signingPubkey : Value) (tlvStream : List TlvRecord) : Option Digest :=
  (verifyPayerMetadataInner crypto metadata ivBytes signingPubkey tlvStream).bind id

/-! ### What the checks compare -/

/-- **A nonce as recipient data**: the signing key is compared with the derived one. -/
theorem verifyRecipientMetadata_nonce (nonce : Nonce) (ivBytes : List UInt8) (signingPubkey : Value)
    (tlvStream : List TlvRecord) :
    verifyRecipientMetadata crypto nonce.1 ivBytes signingPubkey tlvStream =
      let keys := (MetadataMaterial.deriveMetadataAndKeys crypto ⟨nonce, none⟩ ivBytes tlvStream).2
      if signingPubkey = crypto.publicKey keys then some (some keys) else none := by
  have hlength := nonce.2
  rw [verifyRecipientMetadata, hmacForMessage, if_neg (by omega), take_of_length_le (by omega),
    if_pos hlength]
  show verifyMetadata crypto nonce.1 _ signingPubkey = _
  rw [verifyMetadata, if_pos hlength]
  rfl

/-- **Metadata with a derived key**: the signing key is compared with the derived one. -/
theorem verifyPayerMetadataInner_keys (id : PaymentId) (nonce : Nonce) (ivBytes : List UInt8)
    (signingPubkey : Value) (tlvStream : List TlvRecord) :
    verifyPayerMetadataInner crypto (id.1 ++ nonce.1) ivBytes signingPubkey tlvStream = let keys :=
        (MetadataMaterial.deriveMetadataAndKeys crypto ⟨nonce, some id⟩ ivBytes tlvStream).2
      if signingPubkey = crypto.publicKey keys then some (some keys) else none := by
  have hid := id.2
  have hnonce := nonce.2
  rw [verifyPayerMetadataInner, if_neg (by rw [length_append]; omega), drop_left' hid,
    take_left' hid, hmacForMessage, if_neg (by omega), take_of_length_le (by omega),
    if_pos hnonce]
  show verifyMetadata crypto nonce.1 _ signingPubkey = _
  rw [verifyMetadata, if_pos hnonce, append_assoc _ withEncryptedPaymentIdHmacInput]
  rfl

/-- **Metadata with a tag**: the tag is compared with the derived one. -/
theorem verifyPayerMetadataInner_tag (id : PaymentId) (nonce : Nonce) (tag : Bytes 32)
    (ivBytes : List UInt8) (signingPubkey : Value) (tlvStream : List TlvRecord) :
    verifyPayerMetadataInner crypto (id.1 ++ nonce.1 ++ tag.1) ivBytes signingPubkey tlvStream =
      let digest := crypto.hmacForOffer
        (MetadataMaterial.hmacInput ⟨nonce, some id⟩ ivBytes tlvStream derivedMetadataHmacInput)
      if tag.1 = (crypto.toByteArray digest).1 then some none else none := by
  have hid := id.2
  have hnonce := nonce.2
  have htag := tag.2
  have hlength : (nonce.1 ++ tag.1).length = 48 := by rw [length_append]; omega
  rw [verifyPayerMetadataInner, if_neg (by simp only [length_append]; omega),
    append_assoc, drop_left' hid, take_left' hid, hmacForMessage, if_neg (by omega),
    take_left' hnonce, if_neg (by omega)]
  show verifyMetadata crypto (nonce.1 ++ tag.1) _ signingPubkey = _
  rw [verifyMetadata, if_neg (by omega), hlength, drop_left' hnonce,
    append_assoc _ withEncryptedPaymentIdHmacInput]
  simp only [true_and]
  rfl

theorem verifyPayerMetadata_eq (id : PaymentId) (nonce : Nonce) (rest ivBytes : List UInt8)
    (signingPubkey : Value) (tlvStream : List TlvRecord) :
    verifyPayerMetadata crypto (id.1 ++ nonce.1 ++ rest) ivBytes signingPubkey tlvStream =
      (verifyPayerMetadataInner crypto (id.1 ++ nonce.1 ++ rest) ivBytes signingPubkey
        tlvStream).map fun _ => crypto.cryptForOffer id nonce := by
  have hid := id.2
  have hnonce := nonce.2
  have hidSlice : sliceAt 0 32 (id.1 ++ nonce.1 ++ rest) = some id := by
    have htake : ((id.1 ++ nonce.1 ++ rest).drop 0).take 32 = id.1 := by
      rw [drop_zero, append_assoc, take_left' hid]
    rw [sliceAt, dif_pos (by rw [htake, hid])]
    exact congrArg some (Subtype.ext htake)
  have hnonceSlice : sliceAt 32 16 (id.1 ++ nonce.1 ++ rest) = some nonce := by
    have htake : ((id.1 ++ nonce.1 ++ rest).drop 32).take 16 = nonce.1 := by
      rw [append_assoc, drop_left' hid, take_left' hnonce]
    rw [sliceAt, dif_pos (by rw [htake, hnonce])]
    exact congrArg some (Subtype.ext htake)
  rw [verifyPayerMetadata, hidSlice, hnonceSlice]
  cases verifyPayerMetadataInner crypto (id.1 ++ nonce.1 ++ rest) ivBytes signingPubkey
    tlvStream <;> rfl

end

end PqLightning.Offers
