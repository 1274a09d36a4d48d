import PqLightning.Offers.Pq
import PqLightning.Offers.Merkle

/-!
# Offers

An offer is a stream of records that a node hands out (`offers/offer.rs`). If it has blinded paths,
the key that signs its invoices is derived from its own records and a nonce; the nonce comes back
through the blinded path and the records come back in the invoice request, so the node can verify a
request without having stored the offer. Under the post-quantum feature the offer also has a
metadata record with the issuer's ML-DSA key and the ciphertexts of its post-quantum paths.

Three functions look at the records of an offer, each in its own way. The id of an offer is computed
from its records without a post-quantum metadata record. The id of the offer of a request is
computed from the records of the offer ranges without a post-quantum metadata record. Verification
leaves out every metadata record.

The feature is a `Bool` where the source has `cfg`. The checks of `build` and of
`OfferContents::try_from` on amounts, currencies and descriptions decide only whether there is an
offer: the first are left out, the second are a parameter. A field of the contents is its value as
bytes.
-/

namespace PqLightning.Offers

open Option List Metadata

open Gossip (Bytes pqPublicKeyLen)
open Crypto (ascii)

def offerIvBytesWithMetadata : List UInt8 := ascii "LDK Offer ~~~~~~"

def offerIvBytesWithoutMetadata : List UInt8 := ascii "LDK Offer v2~~~~"

def pqOfferIv : List UInt8 := ascii "LDK PQ Offer ~~~"

def offerIssuerIdType : ℕ := 22

def offerSpec : StreamSpec where
  start := 1
  stop := 80
  known := [2, 4, 6, 8, 10, 12, 14, 16, 18, 20, 22]

def experimentalOfferSpec : StreamSpec where
  start := 1000000000
  stop := 2000000000
  known := []

/-! ### Typed streams -/

/-- `OfferTlvStream`; the experimental stream has no fields. -/
structure OfferTlvStream where
  (chains metadata currency amount description features absoluteExpiry : Option Value)
  paths : Option PathList
  (issuer quantityMax issuerId : Option Value)

namespace OfferTlvStream

variable (self : OfferTlvStream)

def fields : List Field := [
  ⟨2, self.chains, by decide⟩,
  ⟨4, self.metadata, by decide⟩,
  ⟨6, self.currency, by decide⟩,
  ⟨8, self.amount, by decide⟩,
  ⟨10, self.description, by decide⟩,
  ⟨12, self.features, by decide⟩,
  ⟨14, self.absoluteExpiry, by decide⟩,
  ⟨16, self.paths.map PathList.value, by decide⟩,
  ⟨18, self.issuer, by decide⟩,
  ⟨20, self.quantityMax, by decide⟩,
  ⟨22, self.issuerId, by decide⟩]

def write : List TlvRecord := encodeTlvStream self.fields

theorem map_type_fields : self.fields.map Field.type = offerSpec.known := rfl

theorem within_write : Within 1 80 self.write :=
  within_encodeTlvStream (by rw [map_type_fields]; decide) (by rw [map_type_fields]; decide)

theorem ascending_write : Ascending self.write := self.within_write.ascending

variable {self : OfferTlvStream}

theorem type_lt_of_mem_write {record : TlvRecord}
    (h : record ∈ self.write) : 1 ≤ record.type ∧ record.type < 80 :=
  self.within_write.bounds record h

def value (self : OfferTlvStream) : ℕ → Option Value
  | 2 => self.chains
  | 4 => self.metadata
  | 6 => self.currency
  | 8 => self.amount
  | 10 => self.description
  | 12 => self.features
  | 14 => self.absoluteExpiry
  | 16 => self.paths.map PathList.value
  | 18 => self.issuer
  | 20 => self.quantityMax
  | 22 => self.issuerId
  | _ => none

theorem value_of_mem_fields {field : Field} (h : field ∈ self.fields) :
    field.value = self.value field.type := by
  simp only [fields, mem_cons, not_mem_nil, or_false] at h
  rcases h with rfl | rfl | rfl | rfl | rfl | rfl | rfl | rfl | rfl | rfl | rfl <;> rfl

theorem mem_known_of_value_ne_none {type : ℕ} (h : self.value type ≠ none) :
    type ∈ offerSpec.known := by
  rw [value.eq_def] at h
  split at h <;> first | decide | exact absurd rfl h

/-- **The records of a stream** are its fields with a value. -/
theorem mem_write_iff {record : TlvRecord} :
    record ∈ self.write ↔ self.value record.type = some ⟨record.value, record.length_lt⟩ := by
  rw [write, mem_encodeTlvStream]
  constructor
  · rintro ⟨field, hmem, hrecord⟩
    obtain ⟨htype, hvalue⟩ := Field.record_eq_some_iff.mp hrecord
    rw [htype, ← value_of_mem_fields hmem, hvalue]
  · intro hvalue
    have hknown := mem_known_of_value_ne_none (hvalue ▸ some_ne_none _)
    rw [← self.map_type_fields] at hknown
    obtain ⟨field, hmem, htype⟩ := mem_map.mp hknown
    refine ⟨field, hmem, Field.record_eq_some_iff.mpr ⟨htype.symm, ?_⟩⟩
    rw [value_of_mem_fields hmem, htype, hvalue]

end OfferTlvStream

def OfferTlvStream.read (records : List TlvRecord) : Option OfferTlvStream :=
  (readPathsField 16 records).map fun paths =>
    { chains := findField 2 records
      metadata := findField 4 records
      currency := findField 6 records
      amount := findField 8 records
      description := findField 10 records
      features := findField 12 records
      absoluteExpiry := findField 14 records
      paths
      issuer := findField 18 records
      quantityMax := findField 20 records
      issuerId := findField 22 records }

theorem OfferTlvStream.findField_write (self : OfferTlvStream) (type : ℕ) :
    findField type self.write = self.value type := by
  match hvalue : self.value type with
  | none =>
    rw [findField_eq_none_iff]
    rintro record hmem rfl
    rw [mem_write_iff, hvalue] at hmem
    cases hmem
  | some value =>
    have hlt : ∀ type ∈ offerSpec.known, type < 2 ^ 64 := by decide
    have htype := hlt type (mem_known_of_value_ne_none (hvalue ▸ some_ne_none _))
    rw [findField_eq_some_iff self.ascending_write]
    exact ⟨⟨type, value.1, htype, value.2⟩, mem_write_iff.mpr hvalue, rfl, rfl⟩

/-- **A stream is read back** without the ciphertexts of its paths. -/
theorem OfferTlvStream.read_write (self : OfferTlvStream) :
    OfferTlvStream.read self.write = some { self with paths := self.paths.map PathList.bare } := by
  rw [OfferTlvStream.read, readPathsField_value (self.findField_write 16)]
  simp only [findField_write, map_some]
  rfl

/-! ### Contents -/

/-- `OfferContents`; the amount and its currency are kept as the two records have them, and so is
the quantity. -/
structure OfferContents where
  chains : Option Value
  metadata : Option Metadata
  (currency amount description : Option Value)
  features : Value
  absoluteExpiry : Option Value
  paths : Option PathList
  (issuer quantityMax issuerSigningPubkey : Option Value)

/-- Features equal to `Features::empty`: no flag is set. -/
def featuresEmpty (features : Value) : Bool := features.1.all fun flags => flags = 0

def featuresField (features : Value) : Option Value := if featuresEmpty features then none
    else some features

namespace OfferContents

def toTlvStream (self : OfferContents) (metadata : Option Value) : OfferTlvStream where
  chains := self.chains
  metadata
  currency := self.currency
  amount := self.amount
  description := self.description
  features := featuresField self.features
  absoluteExpiry := self.absoluteExpiry
  paths := self.paths
  issuer := self.issuer
  quantityMax := self.quantityMax
  issuerId := self.issuerSigningPubkey

def metadataBytes (self : OfferContents) : Except Panic (Option Value) :=
  match self.metadata with
  | none => .ok none
  | some metadata => metadata.asBytes.map some

def asTlvStream (self : OfferContents) : Except Panic OfferTlvStream := do
  let metadata ← self.metadataBytes
  return self.toTlvStream metadata

def ofStream (stream : OfferTlvStream) : OfferContents where
  chains := stream.chains
  metadata := stream.metadata.map bytes
  currency := stream.currency
  amount := stream.amount
  description := stream.description
  features := stream.features.getD .empty
  absoluteExpiry := stream.absoluteExpiry
  paths := stream.paths
  issuer := stream.issuer
  quantityMax := stream.quantityMax
  issuerSigningPubkey := stream.issuerId

/-- `OfferContents::try_from`: an offer needs an issuer id or a path. -/
def tryFrom (semantics : OfferTlvStream → Bool) (stream : OfferTlvStream) : Option OfferContents :=
  if semantics stream = false then none
  else if stream.issuerId = none ∧ ∀ paths ∈ stream.paths, paths.paths = [] then none
  else some (ofStream stream)

theorem tryFrom_eq_some {semantics : OfferTlvStream → Bool} {stream : OfferTlvStream}
    {contents : OfferContents} (h : tryFrom semantics stream = some contents) :
    contents = ofStream stream ∧
      ¬ (stream.issuerId = none ∧ ∀ paths ∈ stream.paths, paths.paths = []) := by
  rw [tryFrom] at h
  split at h
  · cases h
  · split at h
    · cases h
    next hkey =>
      cases h
      exact ⟨rfl, hkey⟩

end OfferContents

/-! ### Offer ids -/

/-- The hashes of a message, and the hash of a root under a tag (`tagged_hash`). -/
structure MessageHashes (Hash : Type) extends TaggedHashes Hash where
  tagged : List UInt8 → Hash → Hash

section

variable {Hash : Type} [LinearOrder Hash] (hashes : MessageHashes Hash) (postQuantum : Bool)

def offerIdTag : List UInt8 := ascii "LDK Offer ID"

def taggedHash (tag : List UInt8) (records : List TlvRecord) : Except Panic Hash := do
  let root ← rootHash hashes.toTaggedHashes records
  return hashes.tagged tag root

variable (records : List TlvRecord)

/-- The records without the post-quantum metadata, under the feature. -/
def withoutPqMetadata : List TlvRecord :=
  if postQuantum then records.filter fun record => !decide (IsOfferPqMetadataRecord record)
    else records

def offerIdFromValidOfferTlvStream : Except Panic Hash :=
  taggedHash hashes offerIdTag (withoutPqMetadata postQuantum records)

def offerTlvStreamIter : List TlvRecord :=
  withoutPqMetadata postQuantum (range offerSpec.start offerSpec.stop records) ++
    range experimentalOfferSpec.start experimentalOfferSpec.stop records

def offerIdFromValidBolt12TlvStream : Except Panic Hash :=
  taggedHash hashes offerIdTag (offerTlvStreamIter postQuantum records)

/-! ### Building and reading -/

structure Offer (Hash : Type) where
  records : List TlvRecord
  contents : OfferContents
  id : Hash

def Offer.issuerPqId (self : Offer Hash) : Option (Bytes pqPublicKeyLen) :=
    parseOfferPqPubkey self.records

/-- The paths of an offer that was read: under the feature their ciphertexts come from the metadata.
-/
def attachedPaths (paths : Option PathList) : Option PathList :=
  paths.bind fun paths =>
    pathList (if postQuantum then attachKemCts paths.paths (parseOfferPqKemCts records)
      else paths.paths)

theorem value_attachedPaths (paths : Option PathList) :
    (attachedPaths postQuantum records paths).map PathList.value = paths.map PathList.value := by
  match paths with
  | none => rfl
  | some paths =>
    rw [attachedPaths, bind_some, map_some]
    split
    · obtain ⟨list, hlist, hvalue⟩ :=
        exists_pathList_attachKemCts paths (parseOfferPqKemCts records)
      rw [hlist, map_some, hvalue]
    · rw [pathList_paths, map_some]

def Offer.tryFrom (fields : Fields) (semantics : OfferTlvStream → Bool) (bytes : List UInt8) :
    Except Panic (Option (Offer Hash)) :=
  match tlvStream bytes with
  | none => .ok none
  | some records =>
    match readStreams fields [offerSpec, experimentalOfferSpec] records with
    | some [offerStream, _] =>
      match (OfferTlvStream.read offerStream).bind (OfferContents.tryFrom semantics) with
      | none => .ok none
      | some contents => do
        let id ← offerIdFromValidOfferTlvStream hashes postQuantum records
        return some ⟨records,
          { contents with paths := attachedPaths postQuantum records contents.paths },
          id⟩
    | _ => .ok none

variable {Digest : Type} (crypto : OfferCrypto Digest)

def recoverOfferPqSeed (nonce : Nonce) : Digest := crypto.hmacForOffer (pqOfferIv ++ nonce.1)

def Metadata.deriveOfferPqSeed : Metadata → Option Digest
  | .derivedSigningPubkey material => some (recoverOfferPqSeed crypto material.nonce)
  | _ => none

variable (self : OfferContents)

/-- The first part of `build_without_checks`: the metadata or the signing key is derived. The second
component is the seed of the issuer's ML-DSA key. -/
def OfferContents.deriveMetadata : Except Panic (OfferContents × Option Digest) :=
  match self.metadata with
  | none => .ok (self, none)
  | some metadata => do
    if ← metadata.hasDerivationMaterial then
      let metadata ← if self.paths.isNone then metadata.withoutKeys else .ok metadata
      let ivBytes := if self.paths.isNone then offerIvBytesWithMetadata
        else offerIvBytesWithoutMetadata
      let tlvStream ← { self with metadata := none }.asTlvStream
      let issuerId := if metadata.derivesRecipientKeys then none else tlvStream.issuerId
      let (derivedMetadata, keys) ←
        metadata.deriveFrom crypto ivBytes { tlvStream with metadata := none, issuerId }.write
      match keys with
      | some keys =>
        return ({ self with metadata := none, issuerSigningPubkey := some (crypto.publicKey keys) },
          metadata.deriveOfferPqSeed crypto)
      | none => return ({ self with metadata := some derivedMetadata },
        metadata.deriveOfferPqSeed crypto)
    else return (self, none)

/-- The second part of `build_without_checks`: the post-quantum metadata record, under the feature.
-/
def OfferContents.commitPq (seed : Option Digest) (records : List TlvRecord) :
    OfferContents × List TlvRecord :=
  match postQuantum, seed with
  | true, some seed =>
    let paths := self.paths.getD ⟨[], by decide⟩
    match insertOfferPqMetadata records (crypto.mlDsaPublicKey seed) paths with
    | some (records, value) => ({ self with metadata := some (.bytes value) }, records)
    | none => (self, records)
  | _, _ => (self, records)

def OfferContents.buildWithoutChecks : Except Panic (Offer Hash) := do
  let (offer, seed) ← self.deriveMetadata crypto
  let tlvStream ← offer.asTlvStream
  let (contents, records) := offer.commitPq postQuantum crypto seed tlvStream.write
  let id ← offerIdFromValidOfferTlvStream hashes postQuantum records
  return ⟨records, contents, id⟩

/-! ### Verification -/

/-- The records that `OfferContents::verify` puts into the HMAC. -/
def verifiedRecords (metadata : Metadata) (records : List TlvRecord) : List TlvRecord :=
  ((range offerSpec.start offerSpec.stop records).filter fun record =>
    record.type ≠ offerMetadataType ∧
      (record.type = offerIssuerIdType → metadata.derivesRecipientKeys = false)) ++
    range experimentalOfferSpec.start experimentalOfferSpec.stop records

def OfferContents.verify (records : List TlvRecord) (metadata : Option Metadata)
    (ivBytes : List UInt8) : Except Panic (Option (Hash × Option Digest)) :=
  match metadata, self.issuerSigningPubkey with
  | some metadata, some signingPubkey => do
    match verifyRecipientMetadata crypto (← metadata.asRef) ivBytes signingPubkey
      (verifiedRecords metadata records) with
    | none => return none
    | some keys =>
      let offerId ← offerIdFromValidBolt12TlvStream hashes postQuantum records
      return some (offerId, keys)
  | _, _ => .ok none

def OfferContents.verifyUsingRecipientData (records : List TlvRecord)
    (nonce : Nonce) : Except Panic (Option (Hash × Option Digest)) :=
  self.verify hashes postQuantum crypto records (some (.recipientData nonce))
    offerIvBytesWithoutMetadata

/-! ### An offer with a derived key -/

def issuerKeys (nonce : Nonce) (records : List TlvRecord) : Digest :=
  (MetadataMaterial.deriveMetadataAndKeys crypto ⟨nonce, none⟩ offerIvBytesWithoutMetadata
    records).2

def OfferContents.derivationRecords : List TlvRecord :=
  { self.toTlvStream none with issuerId := none }.write

/-- The stream of an offer with a derived key, without metadata. -/
def OfferContents.keyedStream (nonce : Nonce) : OfferTlvStream :=
  { self.toTlvStream none with
    issuerId := some (crypto.publicKey (issuerKeys crypto nonce self.derivationRecords)) }

def OfferContents.derivedStream (nonce : Nonce) (paths : PathList) : OfferTlvStream :=
  { self.keyedStream crypto nonce with
    metadata := if postQuantum then
        some (offerPqMetadata (crypto.mlDsaPublicKey (recoverOfferPqSeed crypto nonce)) paths)
      else none }

/-- The contents of an offer with a derived key, without metadata. -/
def OfferContents.keyedContents (nonce : Nonce) : OfferContents :=
  { self with metadata := none, issuerSigningPubkey := (self.keyedStream crypto nonce).issuerId }

def OfferContents.derivedContents (nonce : Nonce) (paths : PathList) : OfferContents :=
  { self with
    metadata := (self.derivedStream postQuantum crypto nonce paths).metadata.map bytes
    issuerSigningPubkey := (self.derivedStream postQuantum crypto nonce paths).issuerId }

variable (stream : OfferTlvStream)

theorem OfferTlvStream.value_metadata (metadata : Option Value) (type : ℕ) :
    { stream with metadata }.value type = if type = offerMetadataType then metadata
      else stream.value type := by
  split
  next h => rw [h]; rfl
  next h =>
    rw [value.eq_def, value.eq_def]
    split <;> first | rfl | exact absurd rfl h

theorem OfferTlvStream.value_issuerId (issuerId : Option Value) (type : ℕ) :
    { stream with issuerId }.value type = if type = offerIssuerIdType then issuerId
      else stream.value type := by
  split
  next h => rw [h]; rfl
  next h =>
    rw [value.eq_def, value.eq_def]
    split <;> first | rfl | exact absurd rfl h

theorem insertRecord_write (hnone : stream.metadata = none) (value : Value) :
    insertRecord ⟨offerMetadataType, value.1, by decide, value.2⟩ stream.write =
      { stream with metadata := some value }.write := by
  have hfree : ∀ record ∈ stream.write, record.type ≠ offerMetadataType := by
    intro record hmem htype
    rw [OfferTlvStream.mem_write_iff, htype] at hmem
    cases hnone.symm.trans hmem
  refine (ascending_insertRecord stream.ascending_write hfree).eq_of_mem_iff
    (OfferTlvStream.ascending_write _) fun record => ?_
  rw [mem_insertRecord, OfferTlvStream.mem_write_iff, OfferTlvStream.mem_write_iff,
    OfferTlvStream.value_metadata stream (some value)]
  obtain ⟨type, bytes, type_lt, length_lt⟩ := record
  split
  next h =>
    have h : type = offerMetadataType := h
    have hvalue : stream.value offerMetadataType = none := hnone
    simp [h, hvalue, Subtype.ext_iff, eq_comm]
  next h => simp [show type ≠ offerMetadataType from h]

section

variable {hashes postQuantum crypto} {self : OfferContents} {nonce : Nonce} {paths : PathList}

theorem deriveMetadata_derived
    (hmetadata : self.metadata = some (.derivedSigningPubkey ⟨nonce, none⟩))
    (hpaths : self.paths = some paths) :
    self.deriveMetadata crypto =
      .ok (self.keyedContents crypto nonce, some (recoverOfferPqSeed crypto nonce)) := by
  cases self
  cases hmetadata
  cases hpaths
  rfl

/-- There is no metadata record before the post-quantum one is inserted. -/
theorem insertOfferPqMetadata_keyedStream (pubkey : Bytes pqPublicKeyLen) :
    insertOfferPqMetadata (self.keyedStream crypto nonce).write pubkey paths =
      some ({ self.keyedStream crypto nonce with
        metadata := some (offerPqMetadata pubkey paths) }.write,
        offerPqMetadata pubkey paths) := by
  have hfind : findField offerMetadataType (self.keyedStream crypto nonce).write = none := by
    rw [findField_eq_none_iff]
    intro record hmem htype
    rw [OfferTlvStream.mem_write_iff, htype] at hmem
    cases hmem
  rw [insertOfferPqMetadata, hfind, ← insertRecord_write (self.keyedStream crypto nonce) rfl]

theorem commitPq_keyedContents (hpaths : self.paths = some paths) :
    (self.keyedContents crypto nonce).commitPq postQuantum crypto
      (some (recoverOfferPqSeed crypto nonce)) (self.keyedStream crypto nonce).write =
        (self.derivedContents postQuantum crypto nonce paths,
          (self.derivedStream postQuantum crypto nonce paths).write) := by
  cases postQuantum with
  | false => rfl
  | true =>
    have hgetD : (self.keyedContents crypto nonce).paths.getD ⟨[], by decide⟩ = paths := by
      simp [OfferContents.keyedContents, hpaths]
    simp only [OfferContents.commitPq, hgetD, insertOfferPqMetadata_keyedStream]
    rfl

/-- **The records of an offer with a derived key.** -/
theorem buildWithoutChecks_derived
    (hmetadata : self.metadata = some (.derivedSigningPubkey ⟨nonce, none⟩))
    (hpaths : self.paths = some paths) :
    self.buildWithoutChecks hashes postQuantum crypto =
      (offerIdFromValidOfferTlvStream hashes postQuantum
        (self.derivedStream postQuantum crypto nonce paths).write).map fun id =>
          ⟨(self.derivedStream postQuantum crypto nonce paths).write,
            self.derivedContents postQuantum crypto nonce paths, id⟩ := by
  have hstream : (self.keyedContents crypto nonce).asTlvStream =
    .ok (self.keyedStream crypto nonce) := rfl
  rw [OfferContents.buildWithoutChecks, deriveMetadata_derived hmetadata hpaths]
  simp only [ok_bind, hstream, commitPq_keyedContents hpaths]
  cases offerIdFromValidOfferTlvStream hashes postQuantum
    (self.derivedStream postQuantum crypto nonce paths).write <;> rfl

theorem verifyUsingRecipientData_eq_some_iff {records : List TlvRecord} {id : Hash}
    {keys : Option Digest} :
    self.verifyUsingRecipientData hashes postQuantum crypto records nonce = .ok (some (id, keys)) ↔
      let derived := issuerKeys crypto nonce (verifiedRecords (.recipientData nonce) records)
      self.issuerSigningPubkey = some (crypto.publicKey derived) ∧ keys = some derived ∧
        offerIdFromValidBolt12TlvStream hashes postQuantum records = .ok id := by
  rw [OfferContents.verifyUsingRecipientData, OfferContents.verify.eq_def]
  match self.issuerSigningPubkey with
  | none => simp
  | some signingPubkey =>
    simp only [asRef, ok_bind, verifyRecipientMetadata_nonce, Option.some.injEq]
    by_cases heq : signingPubkey = crypto.publicKey
        (issuerKeys crypto nonce (verifiedRecords (.recipientData nonce) records))
    · rw [issuerKeys] at heq
      rw [if_pos heq, issuerKeys]
      simp only [bind_eq_ok]
      constructor
      · rintro ⟨offerId, hid, hreturn⟩
        cases hreturn
        exact ⟨heq, rfl, hid⟩
      · rintro ⟨-, rfl, hid⟩
        exact ⟨id, hid, rfl⟩
    · rw [issuerKeys] at heq ⊢
      rw [if_neg heq]
      exact ⟨fun h => (by cases h), fun h => absurd h.1 heq⟩

end

theorem value_of_read {records : List TlvRecord} {stream : OfferTlvStream}
    (h : OfferTlvStream.read records = some stream) {type : ℕ} (htype : type ∈ offerSpec.known) :
    stream.value type = findField type records := by
  obtain ⟨paths, hpaths, rfl⟩ := map_eq_some_iff.mp h
  simp only [offerSpec, mem_cons, not_mem_nil, or_false] at htype
  rcases htype with rfl | rfl | rfl | rfl | rfl | rfl | rfl | rfl | rfl | rfl | rfl
  all_goals first | rfl | exact value_of_readPathsField hpaths

theorem ordered_offerSpecs : Ordered [offerSpec, experimentalOfferSpec] := by decide

variable {hashes postQuantum} in
/-- **An offer that was read**: its types go up, and its contents are those of its records. -/
theorem Offer.tryFrom_eq_some {fields : Fields} {semantics : OfferTlvStream → Bool}
    {bytes : List UInt8} {offer : Offer Hash}
    (h : Offer.tryFrom hashes postQuantum fields semantics bytes = .ok (some offer)) :
    bytes = toBytes offer.records ∧ Ascending offer.records ∧
      (∀ record ∈ offer.records, offerSpec.Covers record ∨ experimentalOfferSpec.Covers record) ∧
      ∃ stream paths,
        (∀ type ∈ offerSpec.known, stream.value type = findField type offer.records) ∧
        ¬ (stream.issuerId = none ∧ ∀ paths ∈ stream.paths, paths.paths = []) ∧
        offer.contents = { OfferContents.ofStream stream with paths } ∧
        paths.map PathList.value = stream.paths.map PathList.value := by
  rw [Offer.tryFrom] at h
  split at h
  · cases h
  next records hrecords =>
    split at h
    next offerStream experimentalOffer hstreams =>
      split at h
      · cases h
      next contents hcontents =>
        obtain ⟨id, -, h⟩ := bind_eq_ok.mp h
        cases h
        obtain ⟨hasc, hcovers⟩ := ascending_of_readStreams ordered_offerSpecs hstreams
        obtain ⟨stream, hread, htry⟩ := bind_eq_some_iff.mp hcontents
        obtain ⟨rfl, hkey⟩ := OfferContents.tryFrom_eq_some htry
        have hoffers := readStreams_eq_some ordered_offerSpecs hstreams
        simp only [map_cons, cons.injEq] at hoffers
        refine ⟨tlvStream_eq_some_iff.mp hrecords, hasc, fun record hmem => ?_, stream, _,
          fun type htype => ?_, hkey, rfl, ?_⟩
        · obtain ⟨spec, hspec, hstart, hstop, -⟩ := hcovers record hmem
          simp only [mem_cons, not_mem_nil, or_false] at hspec
          rcases hspec with rfl | rfl
          · exact .inl ⟨hstart, hstop⟩
          · exact .inr ⟨hstart, hstop⟩
        · rw [value_of_read hread htype, hoffers.1]
          have hknown : ∀ type ∈ offerSpec.known, offerSpec.start ≤ type ∧ type <
            offerSpec.stop := by
            decide
          refine findField_filter fun record hrecord => decide_eq_true ?_
          rw [StreamSpec.Covers, hrecord]
          exact hknown type htype
        · exact value_attachedPaths postQuantum records stream.paths
    · cases h

end

end PqLightning.Offers
