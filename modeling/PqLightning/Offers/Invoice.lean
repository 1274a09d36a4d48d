import PqLightning.Offers.InvoiceRequest

/-!
# Refunds and invoices

A refund is a request for an invoice that nobody offered (`offers/refund.rs`); the node that hands
it out is the payer. An invoice answers an invoice request or a refund and repeats its records
(`offers/invoice.rs`). The payer verifies an invoice with the metadata in it: it derives its signing
key, or the tag in the metadata, from the repeated records and compares.

When the payer built the request or the refund it derived from typed contents; now it derives from
the records as they are.
-/

namespace PqLightning.Offers

open Option

open Crypto (ascii)

def refundIvBytesWithMetadata : List UInt8 := ascii "LDK Refund ~~~~~"

def refundIvBytesWithoutMetadata : List UInt8 := ascii "LDK Refund v2~~~"

def invoiceSignatureTag : List UInt8 := ascii "lightninginvoicesignature"

def invoiceSpec : StreamSpec where
  start := 160
  stop := 240
  known := [160, 162, 164, 166, 168, 170, 172, 174, 176, 236]

def experimentalInvoiceSpec : StreamSpec where
  start := 3000000000
  stop := 4000000000
  known := []

/-! ### Refunds -/

structure RefundContents where
  payer : Metadata
  description : Value
  (absoluteExpiry issuer chain : Option Value)
  (amountMsats features : Value)
  quantity : Option Value
  payerSigningPubkey : Value
  payerNote : Option Value
  paths : Option PathList
  pqKemCts : Option Value

structure Refund where
  records : List TlvRecord
  contents : RefundContents

variable (self : RefundContents)

namespace RefundContents

def toTlvStream (metadata : Option Value) : PartialInvoiceRequestTlvStream where
  payerMetadata := metadata
  offer :=
    { chains := none
      metadata := none
      currency := none
      amount := none
      description := some self.description
      features := none
      absoluteExpiry := self.absoluteExpiry
      paths := none
      issuer := self.issuer
      quantityMax := none
      issuerId := none }
  invoiceRequest :=
    { chain := self.chain
      amount := some self.amountMsats
      features := featuresField self.features
      quantity := self.quantity
      payerId := some self.payerSigningPubkey
      payerNote := self.payerNote
      paths := self.paths
      offerFromHrn := none }
  pqKemCts := self.pqKemCts

def asTlvStream : Except Panic PartialInvoiceRequestTlvStream := do
  let metadata ← self.payer.asBytes
  return self.toTlvStream (some metadata)

/-- The ciphertexts of the post-quantum paths as a field of the refund, under the feature. -/
def conveyPq (postQuantum : Bool) : RefundContents :=
  match postQuantum, self.paths with
  | true, some paths =>
    if kemCts paths.paths = [] then self
    else
      { self with
        pqKemCts := some ⟨encodePqKemCts (kemCts paths.paths), by
          have := paths.length_encodePqKemCts_lt
          omega⟩ }
  | _, _ => self

section

variable {Digest : Type} (crypto : OfferCrypto Digest)

/-- The part of `build` in which the metadata, and with blinded paths the signing key, are derived.
-/
def deriveMetadata (self : RefundContents) : Except Panic RefundContents := do
  if ← self.payer.hasDerivationMaterial then
    let metadata ← if self.paths.isNone then self.payer.withoutKeys else .ok self.payer
    let ivBytes := if self.paths.isNone then refundIvBytesWithMetadata
      else refundIvBytesWithoutMetadata
    let stream ← { self with payer := .bytes .empty }.asTlvStream
    let payerId := if metadata.derivesPayerKeys then none else stream.invoiceRequest.payerId
    let (derivedMetadata, keys) ← metadata.deriveFrom crypto ivBytes
      { stream with
        payerMetadata := none
        invoiceRequest := { stream.invoiceRequest with payerId } }.write
    match keys with
    | some keys =>
      return { self with payer := derivedMetadata, payerSigningPubkey := crypto.publicKey keys }
    | none => return { self with payer := derivedMetadata }
  else return self

/-- `build`, but for the chain, which is left out if it is the implied one. -/
def build (self : RefundContents) (postQuantum : Bool) : Except Panic Refund := do
  let contents ← (self.conveyPq postQuantum).deriveMetadata crypto
  let stream ← contents.asTlvStream
  return ⟨stream.write, contents⟩

end

def tryFrom (semantics : PartialInvoiceRequestTlvStream → Bool)
    (stream : PartialInvoiceRequestTlvStream) :
    Option RefundContents := do
  let payerMetadata ← stream.payerMetadata
  guard (stream.offer.metadata = none ∧ stream.offer.chains = none ∧ stream.offer.currency = none ∧
    stream.offer.amount = none)
  let description ← stream.offer.description
  guard (stream.offer.features = none ∧ stream.offer.paths.isNone ∧
    stream.offer.quantityMax = none ∧
    stream.offer.issuerId = none ∧ stream.invoiceRequest.offerFromHrn = none)
  let amountMsats ← stream.invoiceRequest.amount
  guard (semantics stream = true)
  let payerSigningPubkey ← stream.invoiceRequest.payerId
  return {
    payer := .bytes payerMetadata
    description
    absoluteExpiry := stream.offer.absoluteExpiry
    issuer := stream.offer.issuer
    chain := stream.invoiceRequest.chain
    amountMsats
    features := stream.invoiceRequest.features.getD .empty
    quantity := stream.invoiceRequest.quantity
    payerSigningPubkey
    payerNote := stream.invoiceRequest.payerNote
    paths := stream.invoiceRequest.paths
    pqKemCts := stream.pqKemCts }

end RefundContents

/-! ### Invoices -/

/-- `InvoiceContents`, without the invoice's own fields. -/
inductive InvoiceContents where
  | forOffer (invoiceRequest : InvoiceRequestContents)
  | forRefund (refund : RefundContents)

structure Bolt12Invoice (Hash : Type) where
  records : List TlvRecord
  contents : InvoiceContents
  signature : Value
  offerId : Option Hash

def invoiceSpecs : List StreamSpec :=
  [payerSpec, offerSpec, invoiceRequestSpec, invoiceSpec, signatureSpec, experimentalOfferSpec,
    experimentalInvoiceRequestSpec, experimentalInvoiceSpec]

theorem ordered_invoiceSpecs : Ordered invoiceSpecs := by decide

/-- What the readers of an invoice accept: those of the request or the refund in it, the invoice's
own fields (its paths, dates, amount and signing key), and the signature. -/
structure InvoiceReading (Hash : Type) extends RequestReading Hash where
  refundSemantics : PartialInvoiceRequestTlvStream → Bool
  invoiceSemantics : PartialInvoiceRequestTlvStream → List TlvRecord → Bool
  verifyInvoiceSignature : Value → Hash → List TlvRecord → Bool

section

variable {Hash : Type} [LinearOrder Hash] (hashes : MessageHashes Hash) (postQuantum : Bool)

omit [LinearOrder Hash] in
/-- `InvoiceContents::try_from`: an invoice without an issuer id and without offer paths is for a
refund. -/
def InvoiceContents.tryFrom (reading : InvoiceReading Hash)
    (stream : PartialInvoiceRequestTlvStream)
    (invoice : List TlvRecord) : Option InvoiceContents := do
  guard (reading.invoiceSemantics stream invoice = true)
  if stream.offer.issuerId.isNone && stream.offer.paths.isNone then
    return .forRefund (← RefundContents.tryFrom reading.refundSemantics stream)
  else
    return .forOffer (← InvoiceRequestContents.tryFrom reading.toRequestReading stream)

def Bolt12Invoice.tryFrom (reading : InvoiceReading Hash) (bytes : List UInt8) :
    Except Panic (Option (Bolt12Invoice Hash)) :=
  match tlvStream bytes with
  | none => .ok none
  | some records =>
    match readStreams reading.fields invoiceSpecs records with
    | some [payer, offer, invoiceRequest, invoice, signature, _, experimental, _] =>
      match (PartialInvoiceRequestTlvStream.read payer offer invoiceRequest experimental).bind
        fun stream => InvoiceContents.tryFrom reading stream invoice, findField 240 signature with
      | some contents, some signature => do
        let message ← taggedHash hashes invoiceSignatureTag records
        if reading.verifyInvoiceSignature signature message invoice then
          match contents with
          | .forOffer _ =>
            let offerId ← offerIdFromValidBolt12TlvStream hashes postQuantum records
            return some ⟨records, contents, signature, some offerId⟩
          | .forRefund _ => return some ⟨records, contents, signature, none⟩
        else return none
      | _, _ => .ok none
    | _ => .ok none

/-! ### Verification by the payer -/

def payerTlvStream (records : List TlvRecord) (excludePayerId : Bool) : List TlvRecord :=
  range offerSpec.start offerSpec.stop records ++
    (range invoiceRequestSpec.start invoiceRequestSpec.stop records).filter (fun record =>
      record.type ≠ 0 ∧ (record.type = 88 → excludePayerId = false)) ++
    range experimentalOfferSpec.start experimentalInvoiceRequestSpec.stop records

variable {Digest : Type} (crypto : OfferCrypto Digest)

namespace InvoiceContents

def payer : InvoiceContents → Metadata
  | forOffer invoiceRequest => invoiceRequest.inner.payer
  | forRefund refund => refund.payer

def payerSigningPubkey : InvoiceContents → Value
  | forOffer invoiceRequest => invoiceRequest.payerSigningPubkey
  | forRefund refund => refund.payerSigningPubkey

def ivBytes : InvoiceContents → List UInt8
  | forOffer _ => invoiceRequestIvBytes
  | forRefund refund =>
    -- a refund without paths and one with an empty list of them
    if refund.paths.all fun paths => paths.paths.isEmpty then refundIvBytesWithMetadata
    else refundIvBytesWithoutMetadata

def verify (self : InvoiceContents) (records : List TlvRecord) : Except Panic
    (Option PaymentId) := do
  let tlvStream := payerTlvStream records self.payer.derivesPayerKeys
  return verifyPayerMetadata crypto (← self.payer.asRef) self.ivBytes self.payerSigningPubkey
    tlvStream

def derivePayerSigningKeys (self : InvoiceContents) (records : List TlvRecord) :
    Except Panic (Option Digest) := do
  let metadata ← self.payer.asBytes
  return derivePayerKeys crypto metadata.1 self.ivBytes self.payerSigningPubkey
    (payerTlvStream records true)

end InvoiceContents

def Bolt12Invoice.verifyUsingMetadata (self : Bolt12Invoice Hash) : Except Panic
    (Option PaymentId) :=
  self.contents.verify crypto self.records

def Bolt12Invoice.derivePayerSigningKeys (self : Bolt12Invoice Hash) : Except Panic
    (Option Digest) :=
  self.contents.derivePayerSigningKeys crypto self.records

/-! ### Invoices that were read -/

theorem RefundContents.tryFrom_eq_some {semantics : PartialInvoiceRequestTlvStream → Bool}
    {stream : PartialInvoiceRequestTlvStream} {refund : RefundContents}
    (h : RefundContents.tryFrom semantics stream = some refund) :
    (∃ metadata, stream.payerMetadata = some metadata ∧ refund.payer = .bytes metadata) ∧
      stream.invoiceRequest.payerId = some refund.payerSigningPubkey ∧
      refund.paths = stream.invoiceRequest.paths := by
  obtain ⟨metadata, hmetadata, h⟩ := bind_eq_some_iff.mp h
  obtain ⟨_, -, h⟩ := bind_eq_some_iff.mp h
  obtain ⟨description, -, h⟩ := bind_eq_some_iff.mp h
  obtain ⟨_, -, h⟩ := bind_eq_some_iff.mp h
  obtain ⟨amountMsats, -, h⟩ := bind_eq_some_iff.mp h
  obtain ⟨_, -, h⟩ := bind_eq_some_iff.mp h
  obtain ⟨payerSigningPubkey, hkey, h⟩ := bind_eq_some_iff.mp h
  cases h
  exact ⟨⟨metadata, hmetadata, rfl⟩, hkey, rfl⟩

variable {hashes postQuantum}

theorem Bolt12Invoice.tryFrom_streams {reading : InvoiceReading Hash} {bytes : List UInt8}
    {invoice : Bolt12Invoice Hash}
    (h : Bolt12Invoice.tryFrom hashes postQuantum reading bytes = .ok (some invoice)) :
    ∃ payer offer invoiceRequest own signature experimentalOffer experimental experimentalOwn
        stream,
      tlvStream bytes = some invoice.records ∧
      readStreams reading.fields invoiceSpecs invoice.records =
        some [payer, offer, invoiceRequest, own,
        signature, experimentalOffer, experimental, experimentalOwn] ∧
      PartialInvoiceRequestTlvStream.read payer offer invoiceRequest experimental = some stream ∧
      InvoiceContents.tryFrom reading stream own = some invoice.contents := by
  rw [Bolt12Invoice.tryFrom] at h
  split at h
  · cases h
  next records hrecords =>
    split at h
    next payer offer invoiceRequest own signature experimentalOffer experimental experimentalOwn
      hstreams =>
      split at h
      next contents signature' hcontents hsignature =>
        obtain ⟨stream, hread, htry⟩ := bind_eq_some_iff.mp hcontents
        obtain ⟨message, -, h⟩ := bind_eq_ok.mp h
        have hinvoice : invoice.records = records ∧ invoice.contents = contents := by
          split at h
          · split at h
            · obtain ⟨offerId, -, h⟩ := bind_eq_ok.mp h
              cases h
              exact ⟨rfl, rfl⟩
            · cases h
              exact ⟨rfl, rfl⟩
          · cases h
        obtain ⟨rfl, rfl⟩ := hinvoice
        exact ⟨payer, offer, invoiceRequest, own, signature, experimentalOffer, experimental,
          experimentalOwn, stream, hrecords, hstreams, hread, htry⟩
      · cases h
    · cases h

theorem findField_covers {spec : StreamSpec} {type : ℕ} (h : spec.start ≤ type ∧ type < spec.stop)
    (records : List TlvRecord) :
    findField type (records.filter fun record => decide (spec.Covers record)) =
      findField type records := by
  refine findField_filter fun record htype => decide_eq_true ?_
  rwa [StreamSpec.Covers, htype]

/-- **An invoice that was read**: its types go up, and its payer's metadata, payer id and paths are
those of its records. It is for a refund if it has neither an issuer id nor offer paths. -/
theorem Bolt12Invoice.tryFrom_eq_some {reading : InvoiceReading Hash} {bytes : List UInt8}
    {invoice : Bolt12Invoice Hash}
    (h : Bolt12Invoice.tryFrom hashes postQuantum reading bytes = .ok (some invoice)) :
    bytes = toBytes invoice.records ∧ Ascending invoice.records ∧
      (∃ metadata, findField 0 invoice.records = some metadata ∧
        invoice.contents.payer = .bytes metadata) ∧
      findField 88 invoice.records = some invoice.contents.payerSigningPubkey ∧
      (findField 22 invoice.records = none ∧ findField 16 invoice.records = none →
        ∃ refund, invoice.contents = .forRefund refund ∧
          refund.paths.map PathList.value = findField 90 invoice.records) ∧
      (¬ (findField 22 invoice.records = none ∧ findField 16 invoice.records = none) →
        ∃ request, invoice.contents = .forOffer request) := by
  obtain ⟨payer, offer, invoiceRequest, own, signature, experimentalOffer, experimental,
    experimentalOwn, stream, hrecords, hstreams, hread, htry⟩ := Bolt12Invoice.tryFrom_streams h
  have hspecs := readStreams_eq_some ordered_invoiceSpecs hstreams
  simp only [invoiceSpecs, List.map_cons, List.cons.injEq] at hspecs
  obtain ⟨hpayer, hoffer, hrequest, -⟩ := hspecs
  obtain ⟨hmetadata, hvalues, hpayerId, hpaths⟩ := PartialInvoiceRequestTlvStream.read_eq_some hread
  rw [hpayer, findField_covers (by decide)] at hmetadata
  rw [hrequest, findField_covers (by decide)] at hpayerId hpaths
  have hissuerId : stream.offer.issuerId = findField 22 invoice.records := by
    refine (hvalues 22 (by decide)).trans ?_
    rw [hoffer, findField_covers (by decide)]
  have hofferPaths : stream.offer.paths.map PathList.value = findField 16 invoice.records := by
    refine (hvalues 16 (by decide)).trans ?_
    rw [hoffer, findField_covers (by decide)]
  obtain ⟨_, -, htry⟩ := bind_eq_some_iff.mp htry
  refine ⟨tlvStream_eq_some_iff.mp hrecords,
    (ascending_of_readStreams ordered_invoiceSpecs hstreams).1, ?_⟩
  rw [← hmetadata, ← hpayerId, ← hpaths, ← hissuerId, ← hofferPaths, map_eq_none_iff]
  have hkind : (stream.offer.issuerId.isNone && stream.offer.paths.isNone) = true ↔
      stream.offer.issuerId = none ∧ stream.offer.paths = none := by
    rw [Bool.and_eq_true, isNone_iff_eq_none, isNone_iff_eq_none]
  split at htry
  next hrefund =>
    obtain ⟨refund, hcontents, htry⟩ := bind_eq_some_iff.mp htry
    obtain ⟨hpayer, hkey, hrefundPaths⟩ := RefundContents.tryFrom_eq_some hcontents
    have hcontents := Option.some.inj htry
    rw [← hcontents]
    exact ⟨hpayer, hkey, fun _ => ⟨refund, rfl, by rw [hrefundPaths]⟩,
      fun hnot => absurd (hkind.mp hrefund) hnot⟩
  next hoffer =>
    obtain ⟨request, hcontents, htry⟩ := bind_eq_some_iff.mp htry
    obtain ⟨hpayer, -, hkey⟩ := InvoiceRequestContents.tryFrom_eq_some hcontents
    have hcontents := Option.some.inj htry
    rw [← hcontents]
    exact ⟨hpayer, hkey, fun hrefund => absurd (hkind.mpr hrefund) hoffer, fun _ => ⟨request, rfl⟩⟩

end

end PqLightning.Offers
