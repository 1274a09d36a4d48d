import PqLightning.Offers.Offer

/-!
# Invoice requests

A payer answers an offer with an invoice request (`offers/invoice_request.rs`): the records of the
offer copied from its bytes, records of the payer's own, and a signature. The payer's metadata and
signing key are derived from the typed contents of the request.

A payer with the post-quantum feature leaves the offer's post-quantum metadata record out of the
request and out of its derivation; a payer without the feature copies it like any other record. The
issuer reads the request and verifies it with the nonce of the blinded path through which it came.

What the checks of the readers accept beyond the presence of fields (chains, amounts, quantities,
the signature) is a parameter (`RequestReading`).
-/

namespace PqLightning.Offers

open Option

open Crypto (ascii)

def invoiceRequestIvBytes : List UInt8 := ascii "LDK Invreq ~~~~~"

def invoiceRequestSignatureTag : List UInt8 := ascii "lightninginvoice_requestsignature"

def payerSpec : StreamSpec where
  start := 0
  stop := 1
  known := [0]

def invoiceRequestSpec : StreamSpec where
  start := 80
  stop := 160
  known := [80, 82, 84, 86, 88, 89, 90, 91]

def signatureSpec : StreamSpec where
  start := 240
  stop := 1001
  known := [240]

def refundPqKemCtType : ℕ := 2000000243

def experimentalInvoiceRequestSpec : StreamSpec where
  start := 2000000000
  stop := 3000000000
  known := [refundPqKemCtType]

/-! ### Typed streams -/

structure InvoiceRequestTlvStream where
  (chain amount features quantity payerId payerNote : Option Value)
  paths : Option PathList
  offerFromHrn : Option Value

variable (self : InvoiceRequestTlvStream)

def InvoiceRequestTlvStream.fields : List Field := [
  ⟨80, self.chain, by decide⟩,
  ⟨82, self.amount, by decide⟩,
  ⟨84, self.features, by decide⟩,
  ⟨86, self.quantity, by decide⟩,
  ⟨88, self.payerId, by decide⟩,
  ⟨89, self.payerNote, by decide⟩,
  ⟨90, self.paths.map PathList.value, by decide⟩,
  ⟨91, self.offerFromHrn, by decide⟩]

def InvoiceRequestTlvStream.write : List TlvRecord := encodeTlvStream self.fields

theorem InvoiceRequestTlvStream.within_write : Within 80 160 self.write :=
  within_encodeTlvStream (show (self.fields.map Field.type).Pairwise _ from
    (by decide : invoiceRequestSpec.known.Pairwise (· < ·)))
    (show ∀ type ∈ self.fields.map Field.type, _ from
      (by decide : ∀ type ∈ invoiceRequestSpec.known, 80 ≤ type ∧ type < 160))

def InvoiceRequestTlvStream.read (records : List TlvRecord) : Option InvoiceRequestTlvStream :=
  (readPathsField 90 records).map fun paths =>
    { chain := findField 80 records
      amount := findField 82 records
      features := findField 84 records
      quantity := findField 86 records
      payerId := findField 88 records
      payerNote := findField 89 records
      paths
      offerFromHrn := findField 91 records }

/-- `PartialInvoiceRequestTlvStream`: the payer's stream, the offer's, the request's, and the
experimental one of the request, which has one field under the post-quantum feature. -/
structure PartialInvoiceRequestTlvStream where
  payerMetadata : Option Value
  offer : OfferTlvStream
  invoiceRequest : InvoiceRequestTlvStream
  pqKemCts : Option Value

namespace PartialInvoiceRequestTlvStream

variable (self : PartialInvoiceRequestTlvStream)

def writePayer : List TlvRecord := encodeTlvStream [⟨0, self.payerMetadata, by decide⟩]

def writeExperimental : List TlvRecord :=
  encodeTlvStream [⟨refundPqKemCtType, self.pqKemCts, by decide⟩]

theorem within_writePayer : Within 0 1 self.writePayer :=
  within_encodeTlvStream (List.pairwise_singleton _ _) fun _ hmem => by
    rw [List.mem_singleton.mp hmem]
    exact (by decide : 0 ≤ 0 ∧ 0 < 1)

theorem within_writeExperimental : Within 2000000000 3000000000 self.writeExperimental :=
  within_encodeTlvStream (List.pairwise_singleton _ _) fun _ hmem => by
    rw [List.mem_singleton.mp hmem]
    exact (by decide : 2000000000 ≤ refundPqKemCtType ∧ refundPqKemCtType < 3000000000)

def write (self : PartialInvoiceRequestTlvStream) : List TlvRecord :=
  self.writePayer ++ self.offer.write ++ self.invoiceRequest.write ++ self.writeExperimental

end PartialInvoiceRequestTlvStream

/-! ### Contents -/

structure InvoiceRequestContentsWithoutPayerSigningPubkey where
  payer : Metadata
  offer : OfferContents
  (chain amountMsats : Option Value)
  features : Value
  (quantity payerNote offerFromHrn : Option Value)

structure InvoiceRequestContents where
  inner : InvoiceRequestContentsWithoutPayerSigningPubkey
  payerSigningPubkey : Value

namespace InvoiceRequestContentsWithoutPayerSigningPubkey

def invoiceRequestStream (self : InvoiceRequestContentsWithoutPayerSigningPubkey) :
    InvoiceRequestTlvStream where
  chain := self.chain
  amount := self.amountMsats
  features := featuresField self.features
  quantity := self.quantity
  payerId := none
  payerNote := self.payerNote
  paths := none
  offerFromHrn := self.offerFromHrn

def asTlvStream (self : InvoiceRequestContentsWithoutPayerSigningPubkey) :
    Except Panic PartialInvoiceRequestTlvStream := do
  let metadata ← self.payer.asBytes
  let offer ← self.offer.asTlvStream
  return {
    payerMetadata := some metadata
    offer
    invoiceRequest := self.invoiceRequestStream
    pqKemCts := none }

end InvoiceRequestContentsWithoutPayerSigningPubkey

def InvoiceRequestContents.asTlvStream (self : InvoiceRequestContents) :
    Except Panic PartialInvoiceRequestTlvStream := do
  let stream ← self.inner.asTlvStream
  return { stream with
    invoiceRequest := { stream.invoiceRequest with payerId := some self.payerSigningPubkey } }

section

variable {Hash : Type} [LinearOrder Hash] (hashes : MessageHashes Hash) (postQuantum : Bool)

/-! ### Building -/

structure UnsignedInvoiceRequest (Hash : Type) where
  (records experimentalRecords : List TlvRecord)
  contents : InvoiceRequestContents
  taggedHash : Hash

structure InvoiceRequest where
  records : List TlvRecord
  contents : InvoiceRequestContents
  signature : Value

def signatureRecord (signature : Value) : TlvRecord :=
  ⟨240, signature.1, by decide, signature.length_lt⟩

/-- `UnsignedInvoiceRequest::new`: the records of the offer come from its bytes. In an offer nothing
precedes the records of the first range, so what follows them starts at their number. -/
def UnsignedInvoiceRequest.new (offer : Offer Hash) (contents : InvoiceRequestContents) :
    Except Panic (UnsignedInvoiceRequest Hash) := do
  let stream ← contents.asTlvStream
  let offerRecords := range offerSpec.start offerSpec.stop offer.records
  let records := stream.writePayer ++ withoutPqMetadata postQuantum offerRecords ++
    stream.invoiceRequest.write
  let experimentalRecords :=
    range experimentalOfferSpec.start experimentalOfferSpec.stop
      (offer.records.drop offerRecords.length)
      ++ stream.writeExperimental
  let taggedHash ←
    Offers.taggedHash hashes invoiceRequestSignatureTag (records ++ experimentalRecords)
  return { records, experimentalRecords, contents, taggedHash }

/-- `UnsignedInvoiceRequest::sign`, with the signature that the function returned. -/
def UnsignedInvoiceRequest.sign (self : UnsignedInvoiceRequest Hash) (signature : Value) :
    InvoiceRequest where
  records := self.records ++ [signatureRecord signature] ++ self.experimentalRecords
  contents := self.contents
  signature

variable {Digest : Type} (crypto : OfferCrypto Digest)

/-- The first part of `build_without_checks`: the metadata and the signing key are derived from the
typed contents. -/
def InvoiceRequestContentsWithoutPayerSigningPubkey.deriveMetadata
    (self : InvoiceRequestContentsWithoutPayerSigningPubkey) (payerSigningPubkey : Option Value) :
    Except Panic (InvoiceRequestContentsWithoutPayerSigningPubkey × Option Value × Option Digest) :=
      do
  if ← self.payer.hasDerivationMaterial then
    let stream ← { self with payer := .bytes .empty }.asTlvStream
    Panic.unless (stream.invoiceRequest.payerId = none) .debugAssertion
    let offerMetadata := if postQuantum then
        stream.offer.metadata.filter fun value => !decide (IsOfferPqMetadataValue value.1)
      else stream.offer.metadata
    let payerId := if self.payer.derivesPayerKeys then none else payerSigningPubkey
    let (metadata, keys) ← self.payer.deriveFrom crypto invoiceRequestIvBytes
      { stream with
        payerMetadata := none
        offer := { stream.offer with metadata := offerMetadata }
        invoiceRequest := { stream.invoiceRequest with payerId } }.write
    match keys with
    | some keys =>
      Panic.unless (payerSigningPubkey = none) .debugAssertion
      return ({ self with payer := metadata }, some (crypto.publicKey keys), some keys)
    | none => return ({ self with payer := metadata }, payerSigningPubkey, none)
  else return (self, payerSigningPubkey, none)

def buildInvoiceRequest (offer : Offer Hash)
    (request : InvoiceRequestContentsWithoutPayerSigningPubkey)
    (payerSigningPubkey : Option Value) :
    Except Panic (UnsignedInvoiceRequest Hash × Option Digest) := do
  let (inner, payerSigningPubkey, keys) ← request.deriveMetadata postQuantum crypto
    payerSigningPubkey
  let payerSigningPubkey ← unwrap payerSigningPubkey
  let unsigned ← UnsignedInvoiceRequest.new hashes postQuantum offer ⟨inner, payerSigningPubkey⟩
  return (unsigned, keys)

/-! ### Reading -/

/-- What the readers of a request accept: the values of the single fields, the amounts and
currencies of the offer, the chain, amount and quantity of the request, and the signature. -/
structure RequestReading (Hash : Type) where
  fields : Fields
  offerSemantics : OfferTlvStream → Bool
  semantics : PartialInvoiceRequestTlvStream → Bool
  verifySignature : Value → Hash → Value → Bool

def InvoiceRequestContents.tryFrom (reading : RequestReading Hash)
    (stream : PartialInvoiceRequestTlvStream) : Option InvoiceRequestContents := do
  let metadata ← stream.payerMetadata
  let offer ← OfferContents.tryFrom reading.offerSemantics stream.offer
  guard (reading.semantics stream = true)
  let payerSigningPubkey ← stream.invoiceRequest.payerId
  guard stream.invoiceRequest.paths.isNone
  return {
    inner := {
      payer := .bytes metadata
      offer
      chain := stream.invoiceRequest.chain
      amountMsats := stream.invoiceRequest.amount
      features := stream.invoiceRequest.features.getD .empty
      quantity := stream.invoiceRequest.quantity
      payerNote := stream.invoiceRequest.payerNote
      offerFromHrn := stream.invoiceRequest.offerFromHrn }
    payerSigningPubkey }

def requestSpecs : List StreamSpec :=
  [payerSpec, offerSpec, invoiceRequestSpec, signatureSpec, experimentalOfferSpec,
    experimentalInvoiceRequestSpec]

theorem ordered_requestSpecs : Ordered requestSpecs := by decide

def PartialInvoiceRequestTlvStream.read (payer offer invoiceRequest experimental : List TlvRecord) :
    Option PartialInvoiceRequestTlvStream := do
  let offer ← OfferTlvStream.read offer
  let invoiceRequest ← InvoiceRequestTlvStream.read invoiceRequest
  return {
    payerMetadata := findField 0 payer
    offer
    invoiceRequest
    pqKemCts := findField refundPqKemCtType experimental }

theorem PartialInvoiceRequestTlvStream.read_eq_some
    {payer offer invoiceRequest experimental : List TlvRecord}
      {stream : PartialInvoiceRequestTlvStream}
    (h : PartialInvoiceRequestTlvStream.read payer offer invoiceRequest experimental =
      some stream) :
    stream.payerMetadata = findField 0 payer ∧
      (∀ type ∈ offerSpec.known, stream.offer.value type = findField type offer) ∧
      stream.invoiceRequest.payerId = findField 88 invoiceRequest ∧
      stream.invoiceRequest.paths.map PathList.value = findField 90 invoiceRequest := by
  obtain ⟨offerStream, hoffer, h⟩ := bind_eq_some_iff.mp h
  obtain ⟨requestStream, hrequest, h⟩ := bind_eq_some_iff.mp h
  cases h
  obtain ⟨paths, hpaths, rfl⟩ := map_eq_some_iff.mp hrequest
  exact ⟨rfl, fun type htype => value_of_read hoffer htype, rfl, value_of_readPathsField hpaths⟩

def InvoiceRequest.tryFrom (reading : RequestReading Hash) (bytes : List UInt8) :
    Except Panic (Option InvoiceRequest) :=
  match tlvStream bytes with
  | none => .ok none
  | some records =>
    match readStreams reading.fields requestSpecs records with
    | some [payer, offer, invoiceRequest, signature, _, experimental] =>
      match (PartialInvoiceRequestTlvStream.read payer offer invoiceRequest experimental).bind
        (InvoiceRequestContents.tryFrom reading), findField 240 signature with
      | some contents, some signature => do
        let message ← taggedHash hashes invoiceRequestSignatureTag records
        if reading.verifySignature signature message contents.payerSigningPubkey then
          return some ⟨records, contents, signature⟩
        else return none
      | _, _ => .ok none
    | _ => .ok none

/-! ### Verification -/

/-- `VerifiedInvoiceRequest`; there are keys if the signing key was derived. -/
structure VerifiedInvoiceRequest (Digest Hash : Type) where
  offerId : Hash
  inner : InvoiceRequest
  (keys pqSeed : Option Digest)

def InvoiceRequest.verifyUsingRecipientData (self : InvoiceRequest) (nonce : Nonce) :
    Except Panic (Option (VerifiedInvoiceRequest Digest Hash)) := do
  let verified ←
    self.contents.inner.offer.verifyUsingRecipientData hashes postQuantum crypto self.records nonce
  return verified.map fun (offerId, keys) =>
    { offerId
      inner := self
      keys
      pqSeed := if postQuantum then some (recoverOfferPqSeed crypto nonce) else none }

section

variable {hashes postQuantum crypto} {request : InvoiceRequest}

/-- **The records of a request** that is not signed yet. -/
theorem UnsignedInvoiceRequest.new_eq_ok {offer : Offer Hash} {contents : InvoiceRequestContents}
    {unsigned : UnsignedInvoiceRequest Hash}
    (h : UnsignedInvoiceRequest.new hashes postQuantum offer contents = .ok unsigned) :
    ∃ stream, contents.asTlvStream = .ok stream ∧ unsigned.contents = contents ∧
      unsigned.records = stream.writePayer ++
        withoutPqMetadata postQuantum (range offerSpec.start offerSpec.stop offer.records) ++
        stream.invoiceRequest.write ∧
      unsigned.experimentalRecords =
        range experimentalOfferSpec.start experimentalOfferSpec.stop
          (offer.records.drop (range offerSpec.start offerSpec.stop offer.records).length) ++
        stream.writeExperimental := by
  obtain ⟨stream, hstream, h⟩ := bind_eq_ok.mp h
  obtain ⟨hash, -, h⟩ := bind_eq_ok.mp h
  cases h
  exact ⟨stream, hstream, rfl, rfl, rfl⟩

theorem offer_of_deriveMetadata {request inner : InvoiceRequestContentsWithoutPayerSigningPubkey}
    {payerSigningPubkey payerSigningPubkey' : Option Value} {keys : Option Digest}
    (h : request.deriveMetadata postQuantum crypto payerSigningPubkey =
      .ok (inner, payerSigningPubkey', keys)) : inner.offer = request.offer := by
  obtain ⟨derives, -, h⟩ := bind_eq_ok.mp h
  split at h
  · obtain ⟨stream, -, h⟩ := bind_eq_ok.mp h
    obtain ⟨_, -, h⟩ := bind_eq_ok.mp h
    obtain ⟨⟨metadata, derived⟩, -, h⟩ := bind_eq_ok.mp h
    match derived, h with
    | some keys, h =>
      obtain ⟨_, -, h⟩ := bind_eq_ok.mp h
      cases h
      rfl
    | none, h =>
      cases h
      rfl
  · cases h
    rfl

theorem buildInvoiceRequest_eq_ok {offer : Offer Hash}
    {request : InvoiceRequestContentsWithoutPayerSigningPubkey} {payerSigningPubkey : Option Value}
    {unsigned : UnsignedInvoiceRequest Hash} {keys : Option Digest}
    (h : buildInvoiceRequest hashes postQuantum crypto offer request payerSigningPubkey =
      .ok (unsigned, keys)) :
    unsigned.contents.inner.offer = request.offer ∧
      UnsignedInvoiceRequest.new hashes postQuantum offer unsigned.contents = .ok unsigned := by
  obtain ⟨⟨inner, payerSigningPubkey', keys'⟩, hderive, h⟩ := bind_eq_ok.mp h
  obtain ⟨key, -, h⟩ := bind_eq_ok.mp h
  obtain ⟨unsigned', hnew, h⟩ := bind_eq_ok.mp h
  cases h
  obtain ⟨-, -, hcontents, -⟩ := UnsignedInvoiceRequest.new_eq_ok hnew
  rw [hcontents]
  exact ⟨offer_of_deriveMetadata hderive, hnew⟩

theorem InvoiceRequest.verifyUsingRecipientData_eq_some_iff {nonce : Nonce}
    {verified : VerifiedInvoiceRequest Digest Hash} :
    request.verifyUsingRecipientData hashes postQuantum crypto nonce = .ok (some verified) ↔
      let derived :=
        issuerKeys crypto nonce (verifiedRecords (.recipientData nonce) request.records)
      request.contents.inner.offer.issuerSigningPubkey = some (crypto.publicKey derived) ∧
        offerIdFromValidBolt12TlvStream hashes postQuantum request.records = .ok verified.offerId ∧
        verified.inner = request ∧ verified.keys = some derived ∧
        verified.pqSeed = if postQuantum then some (recoverOfferPqSeed crypto nonce) else none := by
  rw [InvoiceRequest.verifyUsingRecipientData, bind_eq_ok]
  constructor
  · rintro ⟨inner, hinner, hreturn⟩
    obtain ⟨⟨offerId, keys⟩, rfl, rfl⟩ := map_eq_some_iff.mp (Except.ok.inj hreturn)
    obtain ⟨hkey, hkeys, hid⟩ := Offers.verifyUsingRecipientData_eq_some_iff.mp hinner
    exact ⟨hkey, hid, rfl, hkeys, rfl⟩
  · rintro ⟨hkey, hid, hinner, hkeys, hseed⟩
    refine ⟨some (verified.offerId, verified.keys),
      Offers.verifyUsingRecipientData_eq_some_iff.mpr ⟨hkey, hkeys, hid⟩, ?_⟩
    rw [← hseed]
    cases hinner
    rfl

omit [LinearOrder Hash] in
theorem InvoiceRequestContents.tryFrom_eq_some {reading : RequestReading Hash}
    {stream : PartialInvoiceRequestTlvStream} {contents : InvoiceRequestContents}
    (h : InvoiceRequestContents.tryFrom reading stream = some contents) :
    (∃ metadata, stream.payerMetadata = some metadata ∧ contents.inner.payer = .bytes metadata) ∧
      contents.inner.offer = OfferContents.ofStream stream.offer ∧
      stream.invoiceRequest.payerId = some contents.payerSigningPubkey := by
  obtain ⟨metadata, hmetadata, h⟩ := bind_eq_some_iff.mp h
  obtain ⟨offer, hoffer, h⟩ := bind_eq_some_iff.mp h
  obtain ⟨_, -, h⟩ := bind_eq_some_iff.mp h
  obtain ⟨payerSigningPubkey, hkey, h⟩ := bind_eq_some_iff.mp h
  obtain ⟨_, -, h⟩ := bind_eq_some_iff.mp h
  cases h
  exact ⟨⟨metadata, hmetadata, rfl⟩, (OfferContents.tryFrom_eq_some hoffer).1, hkey⟩

/-- **A request that was read**: its types go up, and the key against which it is verified is that
of its issuer id record. -/
theorem InvoiceRequest.tryFrom_eq_some {reading : RequestReading Hash} {bytes : List UInt8}
    (h : InvoiceRequest.tryFrom hashes reading bytes = .ok (some request)) :
    bytes = toBytes request.records ∧ Ascending request.records ∧
      request.contents.inner.offer.issuerSigningPubkey = findField 22 request.records := by
  rw [InvoiceRequest.tryFrom] at h
  split at h
  · cases h
  next records hrecords =>
    split at h
    next payer offer invoiceRequest signature experimentalOffer experimental hstreams =>
      split at h
      next contents signature hcontents hsignature =>
        obtain ⟨message, -, h⟩ := bind_eq_ok.mp h
        split at h
        · cases h
          obtain ⟨hasc, -⟩ := ascending_of_readStreams ordered_requestSpecs hstreams
          refine ⟨(tlvStream_eq_some_iff.mp hrecords), hasc, ?_⟩
          obtain ⟨stream, hread, htry⟩ := bind_eq_some_iff.mp hcontents
          obtain ⟨-, hvalues, -⟩ := PartialInvoiceRequestTlvStream.read_eq_some hread
          obtain ⟨-, hoffer, -⟩ := InvoiceRequestContents.tryFrom_eq_some htry
          have hoffers := readStreams_eq_some ordered_requestSpecs hstreams
          simp only [requestSpecs, List.map_cons, List.cons.injEq] at hoffers
          rw [hoffer]
          refine (hvalues offerIssuerIdType (by decide)).trans ?_
          rw [hoffers.2.1]
          refine findField_filter fun record htype => decide_eq_true ?_
          rw [StreamSpec.Covers, htype]
          decide
        · cases h
      · cases h
    · cases h

end

end

end PqLightning.Offers
