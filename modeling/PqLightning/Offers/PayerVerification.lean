import PqLightning.Offers.Invoice
import PqLightning.Offers.NamedOffer

/-!
# Invoices that the payer verifies

A payer derives its key from the typed contents of a request and verifies an invoice with the
records that the invoice repeats. The two agree if the offer has no record that the typed contents
drop: one of an unknown type, or features without a flag. A request copies such a record from the
bytes of the offer, and then an honest invoice fails verification.

A refund is made from typed contents only, so every invoice for it is verified. Its key can be
derived again if the refund has blinded paths; without them the payer's key is the key of its node.
-/

namespace PqLightning.Offers

open List PartialInvoiceRequestTlvStream
open InvoiceRequestContentsWithoutPayerSigningPubkey UnsignedInvoiceRequest

/-! ### The typed contents of an offer -/

def offerFeaturesType : ℕ := 12

/-- A record of an offer that its typed contents keep. -/
def IsTyped (record : TlvRecord) : Prop :=
  record.type ∈ offerSpec.known ∧
    ¬ (record.type = offerFeaturesType ∧ featuresEmpty ⟨record.value, record.length_lt⟩ = true)

instance (record : TlvRecord) : Decidable (IsTyped record) := inferInstanceAs (Decidable (_ ∧ _))

/-- Features come back unless they are empty. -/
theorem featuresField_getD (features : Option Value) :
    featuresField (features.getD .empty) = features.filter fun value => !featuresEmpty
      value := by
  match features with
  | none => rfl
  | some value =>
    rw [Option.getD_some, featuresField]
    cases h : featuresEmpty value <;> simp [Option.filter, h]

theorem value_toTlvStream_ofStream {stream : OfferTlvStream} {paths : Option PathList}
    (hpaths : paths.map PathList.value = stream.paths.map PathList.value) (type : ℕ) :
    ({ OfferContents.ofStream stream with paths }.toTlvStream stream.metadata).value type =
      if type = offerFeaturesType then stream.features.filter fun value => !featuresEmpty value
      else stream.value type := by
  split
  next h =>
    rw [h]
    exact featuresField_getD stream.features
  next h =>
    rw [OfferTlvStream.value.eq_def, OfferTlvStream.value.eq_def]
    split <;> first | rfl | exact hpaths | exact absurd rfl h

section

variable {Hash : Type} [LinearOrder Hash] {hashes : MessageHashes Hash} {postQuantum : Bool}
  {fields : Fields} {semantics : OfferTlvStream → Bool} {bytes : List UInt8} {offer : Offer Hash}

/-- **The typed contents of an offer that was read** are written as the records that they keep. -/
theorem exists_typedStream
    (h : Offer.tryFrom hashes postQuantum fields semantics bytes = .ok (some offer)) :
    ∃ stream, offer.contents.asTlvStream = .ok stream ∧
      (∀ record, record ∈ stream.write ↔ record ∈ offer.records ∧ IsTyped record) := by
  obtain ⟨-, hasc, -, stream, paths, hvalues, -, hcontents, hpaths⟩ := Offer.tryFrom_eq_some h
  refine ⟨{ OfferContents.ofStream stream with paths }.toTlvStream stream.metadata, ?_,
    fun record => ?_⟩
  · rw [hcontents, OfferContents.asTlvStream, OfferContents.metadataBytes]
    obtain ⟨chains, metadata, _, _, _, _, _, _, _, _, _⟩ := stream
    cases metadata <;> rfl
  · have hvalue : record.type ∈ offerSpec.known →
        (stream.value record.type = some ⟨record.value, record.length_lt⟩ ↔
          record ∈ offer.records) := by
      intro hknown
      rw [hvalues _ hknown, findField_type_eq_some_iff hasc]
    rw [OfferTlvStream.mem_write_iff, value_toTlvStream_ofStream hpaths, IsTyped]
    split
    next htype =>
      have hknown : offerFeaturesType ∈ offerSpec.known := by decide
      have hfeatures : stream.features = stream.value record.type := by rw [htype]; rfl
      rw [hfeatures, Option.filter_eq_some_iff, hvalue (by rwa [htype])]
      simp [htype, hknown]
    next htype =>
      constructor
      · intro hsome
        have hknown := OfferTlvStream.mem_known_of_value_ne_none (hsome ▸ Option.some_ne_none _)
        exact ⟨(hvalue hknown).mp hsome, hknown, fun hboth => htype hboth.1⟩
      · rintro ⟨hmem, hknown, -⟩
        exact (hvalue hknown).mpr hmem

end

/-! ### The records of an invoice -/

/-- A type that the payer looks at in an invoice: of an offer, of a request, or of the experimental
ranges of the two. -/
def IsPayerType (type : ℕ) : Prop := type < 160 ∨ 1000000000 ≤ type ∧ type < 3000000000

/-- An invoice with the records of a request: those of the payer, of the offer and of the request
are the same byte for byte. -/
def Echoes (invoice request : List TlvRecord) : Prop :=
  ∀ record : TlvRecord, IsPayerType record.type → (record ∈ invoice ↔ record ∈ request)

section

variable {records : List TlvRecord} {record : TlvRecord} {excludePayerId : Bool}

theorem mem_payerTlvStream (h : Ascending records) :
    record ∈ payerTlvStream records excludePayerId ↔
      record ∈ records ∧ IsPayerType record.type ∧ record.type ≠ 0 ∧
        (record.type = 88 → excludePayerId = false) := by
  rw [payerTlvStream, mem_append, mem_append, mem_filter, range_eq_filter h,
    range_eq_filter h, range_eq_filter h, mem_filter, mem_filter, mem_filter]
  rw [decide_eq_true_eq, decide_eq_true_eq, decide_eq_true_eq, decide_eq_true_eq]
  simp only [offerSpec, invoiceRequestSpec, experimentalOfferSpec, experimentalInvoiceRequestSpec,
    IsPayerType]
  constructor
  · rintro ((⟨hmem, hrange⟩ | ⟨⟨hmem, hrange⟩, hfilter⟩) | ⟨hmem, hrange⟩)
    · exact ⟨hmem, by omega, by omega, fun heq => by omega⟩
    · exact ⟨hmem, by omega, hfilter⟩
    · exact ⟨hmem, by omega, by omega, fun heq => by omega⟩
  · rintro ⟨hmem, htype, hne, hkey⟩
    by_cases hoffer : record.type < 80
    · exact .inl (.inl ⟨hmem, by omega, hoffer⟩)
    · by_cases hrequest : record.type < 160
      · exact .inl (.inr ⟨⟨hmem, by omega, hrequest⟩, hne, hkey⟩)
      · exact .inr ⟨hmem, by omega⟩

theorem ascending_payerTlvStream (h : Ascending records) :
    Ascending (payerTlvStream records excludePayerId) := by
  have hwithin : ∀ a b, Within a b (range a b records) := by
    intro a b
    rw [range_eq_filter h]
    exact ⟨h.filter _, fun record hmem => of_decide_eq_true (mem_filter.mp hmem).2⟩
  have hrequest := hwithin invoiceRequestSpec.start invoiceRequestSpec.stop
  have hkept : Within 80 160
      ((range invoiceRequestSpec.start invoiceRequestSpec.stop records).filter
      fun record => record.type ≠ 0 ∧ (record.type = 88 → excludePayerId = false)) :=
    ⟨hrequest.ascending.filter _, fun record hmem => hrequest.bounds record (mem_filter.mp hmem).1⟩
  exact (((hwithin 1 80).append hkept (by decide) (by decide)).append
    ((hwithin _ _).mono (by decide) le_rfl) (by decide) (by decide)).ascending

end

/-! ### Messages of the payer -/

/-- A request or a refund: the metadata of the payer, its key, and the other records that it looks
at in an invoice. -/
structure PayerMessage (message rest : List TlvRecord) (metadata payerId : Value) : Prop where
  mem_iff : ∀ record : TlvRecord, IsPayerType record.type → (record ∈ message ↔
    (record.type = 0 ∧ metadata = ⟨record.value, record.length_lt⟩) ∨ record ∈ rest ∨
      record.type = 88 ∧ payerId = ⟨record.value, record.length_lt⟩)
  types : ∀ record ∈ rest, IsPayerType record.type ∧ record.type ≠ 0 ∧ record.type ≠ 88

variable {record : TlvRecord}

namespace PayerMessage

variable {message rest invoice : List TlvRecord} {metadata payerId : Value}
  (h : PayerMessage message rest metadata payerId) (hasc : Ascending invoice)
  (hechoes : Echoes invoice message)

include h hasc hechoes

theorem findField_metadata : findField 0 invoice = some metadata := by
  have htype : IsPayerType 0 := .inl (by decide)
  exact (findField_eq_some_iff hasc).mpr ⟨⟨0, metadata.1, by decide, metadata.2⟩,
    (hechoes _ htype).mpr ((h.mem_iff _ htype).mpr (.inl ⟨rfl, rfl⟩)), rfl, rfl⟩

theorem findField_payerId : findField 88 invoice = some payerId := by
  have htype : IsPayerType 88 := .inl (by decide)
  exact (findField_eq_some_iff hasc).mpr ⟨⟨88, payerId.1, by decide, payerId.2⟩,
    (hechoes _ htype).mpr ((h.mem_iff _ htype).mpr (.inr (.inr ⟨rfl, rfl⟩))), rfl, rfl⟩

omit hasc in
theorem mem_invoice (htype : IsPayerType record.type)
    (hne : record.type ≠ 0 ∧ record.type ≠ 88) : record ∈ invoice ↔ record ∈ rest := by
  rw [hechoes record htype, h.mem_iff record htype]
  simp [hne.1, hne.2]

/-- **What the payer sees in an invoice**: the other records of the message, and its key unless that
is left out. -/
theorem mem_payerTlvStream {excludePayerId : Bool} :
    record ∈ payerTlvStream invoice excludePayerId ↔ record ∈ rest ∨ (excludePayerId = false ∧
      record.type = 88 ∧ payerId = ⟨record.value, record.length_lt⟩) := by
  rw [Offers.mem_payerTlvStream hasc]
  constructor
  · rintro ⟨hmem, htype, hne, hkey⟩
    rw [hechoes record htype, h.mem_iff record htype] at hmem
    rcases hmem with ⟨hzero, -⟩ | hmem | hmem
    · exact absurd hzero hne
    · exact .inl hmem
    · exact .inr ⟨hkey hmem.1, hmem⟩
  · rintro (hmem | ⟨hexclude, htype, hvalue⟩)
    · obtain ⟨htype, hne⟩ := h.types record hmem
      exact ⟨(h.mem_invoice hechoes htype hne).mpr hmem, htype, hne.1,
        fun hkey => absurd hkey hne.2⟩
    · have hpayerType : IsPayerType record.type := .inl (by omega)
      refine ⟨?_, hpayerType, by omega, fun _ => hexclude⟩
      exact (hechoes record hpayerType).mpr
        ((h.mem_iff record hpayerType).mpr (.inr (.inr ⟨htype, hvalue⟩)))

end PayerMessage

/-! ### The streams of a request and of a refund -/

theorem PartialInvoiceRequestTlvStream.ascending_write (self : PartialInvoiceRequestTlvStream) :
    Ascending self.write :=
  (((self.within_writePayer.append self.offer.within_write (by decide) (by decide)).append
    self.invoiceRequest.within_write (by decide) (by decide)).append
    (self.within_writeExperimental.mono (by decide) le_rfl) (by decide)
    (by decide)).ascending

variable (stream : InvoiceRequestTlvStream)

theorem mem_write_payerId {payerId : Option Value} :
    record ∈ { stream with payerId }.write ↔ record ∈ { stream with payerId := none }.write ∨
        record.type = 88 ∧ payerId = some ⟨record.value, record.length_lt⟩ := by
  have hnone : ¬ (⟨88, none, by decide⟩ : Field).record = some record := fun h => by cases h
  have hpayerId : (⟨88, payerId, by decide⟩ : Field).record = some record ↔
      record.type = 88 ∧ payerId = some ⟨record.value, record.length_lt⟩ := Field.record_eq_some_iff
  rw [InvoiceRequestTlvStream.write, InvoiceRequestTlvStream.write, mem_encodeTlvStream,
    mem_encodeTlvStream]
  simp only [InvoiceRequestTlvStream.fields, mem_cons, not_mem_nil, or_false,
    exists_eq_or_imp, exists_eq_left, hnone, hpayerId]
  tauto

theorem mem_write_paths (htype : record.type = 90) :
    record ∈ stream.write ↔
      stream.paths.map PathList.value = some ⟨record.value, record.length_lt⟩ := by
  rw [InvoiceRequestTlvStream.write, mem_encodeTlvStream]
  simp [InvoiceRequestTlvStream.fields, Field.record_eq_some_iff, htype]

theorem type_ne_of_mem_request
    (h : record ∈ { stream with payerId := none }.write) : record.type ≠ 88 := by
  intro htype
  obtain ⟨field, hmem, hrecord⟩ := mem_encodeTlvStream.mp h
  obtain ⟨hfield, hvalue⟩ := Field.record_eq_some_iff.mp hrecord
  rw [htype] at hfield
  simp only [InvoiceRequestTlvStream.fields, mem_cons, not_mem_nil, or_false] at hmem
  rcases hmem with rfl | rfl | rfl | rfl | rfl | rfl | rfl | rfl
  all_goals first | cases hvalue | exact absurd hfield (by simp)

/-- The streams of a request or a refund without the metadata, and without the payer id if that is
derived. -/
def PartialInvoiceRequestTlvStream.forPayer (self : PartialInvoiceRequestTlvStream)
    (excludePayerId : Bool) : PartialInvoiceRequestTlvStream :=
  { self with
    payerMetadata := none
    invoiceRequest := { self.invoiceRequest with
      payerId := if excludePayerId then none else self.invoiceRequest.payerId } }

variable {stream : PartialInvoiceRequestTlvStream}

theorem PartialInvoiceRequestTlvStream.mem_writePayer :
    record ∈ stream.writePayer ↔
      record.type = 0 ∧ stream.payerMetadata = some ⟨record.value, record.length_lt⟩ := by
  rw [writePayer, mem_encodeTlvStream]
  simp [Field.record_eq_some_iff]

/-- The records of the streams: the metadata, the payer id and those that the payer derives from. -/
theorem PartialInvoiceRequestTlvStream.mem_write_iff (stream : PartialInvoiceRequestTlvStream) :
    record ∈ stream.write ↔
      (record.type = 0 ∧ stream.payerMetadata = some ⟨record.value, record.length_lt⟩) ∨
      record ∈ (stream.forPayer true).write ∨
      record.type = 88 ∧ stream.invoiceRequest.payerId = some ⟨record.value, record.length_lt⟩ := by
  have hrequest : record ∈ stream.invoiceRequest.write ↔
      record ∈ (stream.forPayer true).invoiceRequest.write ∨ record.type = 88 ∧ _ :=
    mem_write_payerId stream.invoiceRequest
  have hnil : (stream.forPayer true).writePayer = [] := rfl
  have hoffer : (stream.forPayer true).offer = stream.offer := rfl
  have hexperimental : (stream.forPayer true).writeExperimental = stream.writeExperimental := rfl
  rw [write, write]
  simp only [mem_append, mem_writePayer, hrequest, hnil, hoffer, hexperimental,
    not_mem_nil, false_or]
  tauto

/-- The records of a request or a refund that is written from streams. -/
theorem payerMessage_of_stream {metadata payerId : Value}
    (hmetadata : stream.payerMetadata = some metadata)
    (hpayerId : stream.invoiceRequest.payerId = some payerId) :
    PayerMessage stream.write (stream.forPayer true).write metadata payerId where
  mem_iff := fun record _ => by
    rw [mem_write_iff, hmetadata, hpayerId, Option.some.injEq, Option.some.injEq]
  types := fun record hmem => by
    rw [write, mem_append, mem_append, mem_append] at hmem
    rw [IsPayerType]
    rcases hmem with ((hmem | hmem) | hmem) | hmem
    · cases hmem
    · have := (stream.forPayer true).offer.within_write.bounds record hmem
      omega
    · have := (stream.forPayer true).invoiceRequest.within_write.bounds record hmem
      exact ⟨by omega, by omega, type_ne_of_mem_request _ hmem⟩
    · have := (stream.forPayer true).within_writeExperimental.bounds record hmem
      omega

/-! ### Requests -/

section

variable {Hash : Type} [LinearOrder Hash] {hashes : MessageHashes Hash} {postQuantum : Bool}
  {Digest : Type} {crypto : OfferCrypto Digest}
  {request : InvoiceRequestContentsWithoutPayerSigningPubkey} {material : MetadataMaterial}
  {offerStream : OfferTlvStream} {offer : Offer Hash} {unsigned : UnsignedInvoiceRequest Hash}
  {keys : Option Digest}

variable (self : InvoiceRequestContentsWithoutPayerSigningPubkey)

/-- The streams from which the payer derives. -/
def InvoiceRequestContentsWithoutPayerSigningPubkey.derivationStream (postQuantum : Bool)
    (offer : OfferTlvStream) : PartialInvoiceRequestTlvStream where
  payerMetadata := none
  offer := { offer with
    metadata := if postQuantum then
        offer.metadata.filter fun value => !decide (IsOfferPqMetadataValue value.1)
      else offer.metadata }
  invoiceRequest := self.invoiceRequestStream
  pqKemCts := none

def InvoiceRequestContentsWithoutPayerSigningPubkey.derived (postQuantum : Bool)
    (crypto : OfferCrypto Digest) (material : MetadataMaterial) (offer : OfferTlvStream) :
    Value × Digest :=
  material.deriveMetadataAndKeys crypto invoiceRequestIvBytes
    (self.derivationStream postQuantum offer).write

theorem deriveMetadata_eq_ok (hpayer : request.payer = .derivedSigningPubkey material)
    (hoffer : request.offer.asTlvStream = .ok offerStream) :
    request.deriveMetadata postQuantum crypto none =
      .ok ({ request with
          payer := .bytes (request.derived postQuantum crypto material offerStream).1 },
        some (crypto.publicKey (request.derived postQuantum crypto material offerStream).2),
        some (request.derived postQuantum crypto material offerStream).2) := by
  have hstream : { request with payer := .bytes .empty }.asTlvStream =
      .ok ⟨some .empty, offerStream, request.invoiceRequestStream, none⟩ := by
    rw [asTlvStream, Metadata.asBytes, ok_bind, hoffer]
    rfl
  rw [deriveMetadata, hpayer]
  simp only [Metadata.hasDerivationMaterial, ok_bind, if_true, hstream]
  rfl

/-- The records from which the payer derives: those that the typed contents keep, without the
post-quantum metadata under the feature, and those of the request. -/
theorem mem_derivationStream {offerRecords : List TlvRecord}
    (hwrite : ∀ record, record ∈ offerStream.write ↔ record ∈ offerRecords ∧ IsTyped record) :
    record ∈ (request.derivationStream postQuantum offerStream).write ↔
      (record ∈ offerRecords ∧ IsTyped record ∧
        ¬ (postQuantum = true ∧ IsOfferPqMetadataRecord record)) ∨
      record ∈ request.invoiceRequestStream.write := by
  have hoffer : record ∈ (request.derivationStream postQuantum offerStream).offer.write ↔
      record ∈ offerStream.write ∧ ¬ (postQuantum = true ∧ IsOfferPqMetadataRecord record) := by
    have hvalue := OfferTlvStream.value_metadata offerStream
      (request.derivationStream postQuantum offerStream).offer.metadata record.type
    rw [OfferTlvStream.mem_write_iff, OfferTlvStream.mem_write_iff]
    refine (Eq.congr_left hvalue).trans ?_
    split
    next htype =>
      have hmetadata : offerStream.value record.type = offerStream.metadata := by rw [htype]; rfl
      rw [hmetadata]
      cases postQuantum with
      | false => simp [derivationStream]
      | true => simp [derivationStream, Option.filter_eq_some_iff, IsOfferPqMetadataRecord, htype]
    next htype => simp [IsOfferPqMetadataRecord, htype]
  rw [write, mem_append, mem_append, mem_append, hoffer, hwrite, and_assoc]
  have hpayer : (request.derivationStream postQuantum offerStream).writePayer = [] := rfl
  have hexperimental : (request.derivationStream postQuantum offerStream).writeExperimental = [] :=
    rfl
  rw [hpayer, hexperimental]
  simp only [not_mem_nil, false_or, or_false]
  rfl

section

variable {offerRecords : List TlvRecord} (hasc : Ascending offerRecords)
  (hcovers : ∀ record ∈ offerRecords, offerSpec.Covers record ∨ experimentalOfferSpec.Covers record)

include hasc hcovers

/-- An offer consists of the records of its two ranges. -/
theorem range_append_range :
    range offerSpec.start offerSpec.stop offerRecords ++
      range experimentalOfferSpec.start experimentalOfferSpec.stop offerRecords = offerRecords := by
  refine (ascending_append_range hasc (List.Sublist.refl _)).eq_of_mem_iff hasc fun record => ?_
  rw [mem_append, range_eq_filter hasc, range_eq_filter hasc, mem_filter, mem_filter,
    decide_eq_true_eq, decide_eq_true_eq, ← and_or_left]
  exact and_iff_left_of_imp (hcovers record)

theorem range_drop :
    range experimentalOfferSpec.start experimentalOfferSpec.stop
      (offerRecords.drop (range offerSpec.start offerSpec.stop offerRecords).length) =
        range experimentalOfferSpec.start experimentalOfferSpec.stop offerRecords := by
  have hdrop := congrArg (List.drop (range offerSpec.start offerSpec.stop offerRecords).length)
    (range_append_range hasc hcovers)
  rw [drop_left] at hdrop
  rw [← hdrop, range_eq_filter hasc, range_eq_filter (hasc.filter _), filter_filter]
  simp

theorem mem_copiedRecords :
    record ∈ withoutPqMetadata postQuantum (range offerSpec.start offerSpec.stop offerRecords) ∨
      record ∈ range experimentalOfferSpec.start experimentalOfferSpec.stop offerRecords ↔
      record ∈ offerRecords ∧ ¬ (postQuantum = true ∧ IsOfferPqMetadataRecord record) := by
  have hsplit : record ∈ offerRecords ↔ record ∈ range offerSpec.start offerSpec.stop offerRecords ∨
      record ∈ range experimentalOfferSpec.start experimentalOfferSpec.stop offerRecords := by
    rw [← mem_append, range_append_range hasc hcovers]
  have hexp : record ∈ range experimentalOfferSpec.start experimentalOfferSpec.stop offerRecords →
      ¬ (postQuantum = true ∧ IsOfferPqMetadataRecord record) := by
    rintro hmem ⟨-, hpq, -⟩
    rw [range_eq_filter hasc] at hmem
    have hstart := (of_decide_eq_true (mem_filter.mp hmem).2).1
    rw [hpq] at hstart
    exact absurd hstart (by decide)
  rw [mem_withoutPqMetadata, hsplit]
  tauto

end

/-- The records that a request copies from an offer, and its own. -/
def InvoiceRequestContentsWithoutPayerSigningPubkey.ownRecords (postQuantum : Bool)
    (offerRecords : List TlvRecord) : List TlvRecord :=
  withoutPqMetadata postQuantum (range offerSpec.start offerSpec.stop offerRecords) ++
    range experimentalOfferSpec.start experimentalOfferSpec.stop offerRecords ++
      self.invoiceRequestStream.write

/-- The streams of a request with its metadata and its key. -/
def InvoiceRequestContentsWithoutPayerSigningPubkey.signedStream (offer : OfferTlvStream)
    (metadata payerId : Value) : PartialInvoiceRequestTlvStream where
  payerMetadata := some metadata
  offer
  invoiceRequest := { self.invoiceRequestStream with payerId := some payerId }
  pqKemCts := none

section

variable (hpayer : request.payer = .derivedSigningPubkey material)
  (hstream : request.offer.asTlvStream = .ok offerStream)
  (hbuild : buildInvoiceRequest hashes postQuantum crypto offer request none = .ok (unsigned, keys))

include hpayer hstream hbuild

theorem new_of_buildInvoiceRequest :
    new hashes postQuantum offer
      ⟨{ request with payer := .bytes (request.derived postQuantum crypto material offerStream).1 },
        crypto.publicKey (request.derived postQuantum crypto material offerStream).2⟩ =
          .ok unsigned := by
  rw [buildInvoiceRequest, deriveMetadata_eq_ok hpayer hstream, ok_bind] at hbuild
  obtain ⟨key, hkey, hbuild⟩ := bind_eq_ok.mp hbuild
  cases hkey
  obtain ⟨unsigned', hnew, hreturn⟩ := bind_eq_ok.mp hbuild
  cases hreturn
  exact hnew

/-- **The records of a signed request** with derived metadata. -/
theorem payerMessage_of_build (hasc : Ascending offer.records) (hcovers : ∀ record ∈ offer.records,
      offerSpec.Covers record ∨ experimentalOfferSpec.Covers record) (signature : Value) :
    PayerMessage (unsigned.sign signature).records (request.ownRecords postQuantum offer.records)
      (request.derived postQuantum crypto material offerStream).1
      (crypto.publicKey (request.derived postQuantum crypto material offerStream).2) := by
  have hnew := new_of_buildInvoiceRequest hpayer hstream hbuild
  generalize request.derived postQuantum crypto material offerStream = derived at hnew ⊢
  obtain ⟨stream, hrequest, -, hrecords, hexperimental⟩ := new_eq_ok hnew
  obtain rfl : request.signedStream offerStream derived.1 (crypto.publicKey derived.2) =
      stream := by
    rw [InvoiceRequestContents.asTlvStream, asTlvStream, Metadata.asBytes, ok_bind,
      hstream] at hrequest
    exact Except.ok.inj hrequest
  refine ⟨fun record htype => ?_, fun record hmem => ?_⟩
  · have hsignature : record ≠ signatureRecord signature := by
      rintro rfl
      have htype : IsPayerType 240 := htype
      rw [IsPayerType] at htype
      omega
    have hkey : record ∈ (request.signedStream offerStream derived.1
        (crypto.publicKey derived.2)).invoiceRequest.write ↔
          record ∈ request.invoiceRequestStream.write ∨ record.type = 88 ∧ _ :=
      mem_write_payerId request.invoiceRequestStream
    have hnil : (request.signedStream offerStream derived.1
      (crypto.publicKey derived.2)).writeExperimental = [] := rfl
    have hmetadata : (request.signedStream offerStream derived.1
      (crypto.publicKey derived.2)).payerMetadata = some derived.1 := rfl
    rw [sign, hrecords, hexperimental, range_drop hasc hcovers, hnil, ownRecords]
    simp only [mem_append, mem_singleton, hsignature, or_false, append_nil, hkey,
      mem_writePayer, hmetadata, Option.some.injEq]
    tauto
  · rw [ownRecords, mem_append, mem_append, mem_copiedRecords hasc hcovers] at hmem
    rw [IsPayerType]
    rcases hmem with ⟨hmem, -⟩ | hmem
    · have hcover := hcovers record hmem
      simp only [StreamSpec.Covers, offerSpec, experimentalOfferSpec] at hcover
      omega
    · have := request.invoiceRequestStream.within_write.bounds record hmem
      exact ⟨by omega, by omega, type_ne_of_mem_request request.invoiceRequestStream hmem⟩

end

/-- **When the payer derives from the records of the request**: when the typed contents of the offer
keep all of its records. -/
theorem ownRecords_mem_iff_derivationStream {offerRecords : List TlvRecord}
    (hasc : Ascending offerRecords)
    (hcovers : ∀ record ∈ offerRecords,
      offerSpec.Covers record ∨ experimentalOfferSpec.Covers record)
    (hwrite : ∀ record, record ∈ offerStream.write ↔ record ∈ offerRecords ∧ IsTyped record) :
    (∀ record, record ∈ request.ownRecords postQuantum offerRecords ↔
      record ∈ (request.derivationStream postQuantum offerStream).write) ↔
        ∀ record ∈ offerRecords, IsTyped record := by
  simp only [ownRecords, mem_append, mem_copiedRecords hasc hcovers, mem_derivationStream hwrite]
  constructor
  · intro hiff record hmem
    by_cases hpq : postQuantum = true ∧ IsOfferPqMetadataRecord record
    · rw [IsTyped, hpq.2.1]
      exact ⟨by decide, fun h => absurd h.1 (by decide)⟩
    · rcases (hiff record).mp (.inl ⟨hmem, hpq⟩) with ⟨-, htyped, -⟩ | hin
      · exact htyped
      · have hrange := request.invoiceRequestStream.within_write.bounds record hin
        have hcover := hcovers record hmem
        simp only [StreamSpec.Covers, offerSpec, experimentalOfferSpec] at hcover
        omega
  · intro htyped record
    exact or_congr_left ⟨fun h => ⟨h.1, htyped record h.1, h.2⟩, fun h => ⟨h.1, h.2.2⟩⟩

end

/-! ### What the payer compares -/

section

variable {Digest : Type} (crypto : OfferCrypto Digest) {contents : InvoiceContents}
  {id : PaymentId} {nonce : Nonce}

/-- The keys that the payer derives from the records of an invoice. -/
def payerKeys (id : PaymentId) (nonce : Nonce) (ivBytes : List UInt8) (records : List TlvRecord) :
    Digest :=
  (MetadataMaterial.deriveMetadataAndKeys crypto ⟨nonce, some id⟩ ivBytes
    (payerTlvStream records true)).2

/-- **Metadata of a derived key**: the payer id is compared with the derived key. -/
theorem verify_of_keys (records : List TlvRecord) {metadata : Value}
    (hpayer : contents.payer = .bytes metadata) (hmetadata : metadata.1 = id.1 ++ nonce.1) :
    let keys := payerKeys crypto id nonce contents.ivBytes records
    contents.verify crypto records = .ok
      (if contents.payerSigningPubkey = crypto.publicKey keys
        then some (crypto.cryptForOffer id nonce)
      else none) ∧
    contents.derivePayerSigningKeys crypto records = .ok
      (if contents.payerSigningPubkey = crypto.publicKey keys then some keys else none) := by
  have hid := id.2
  have hnonce := nonce.2
  have hlength : metadata.1.length = 48 := by
    rw [hmetadata, length_append]
    omega
  have hexclude : contents.payer.derivesPayerKeys = true := by
    rw [hpayer, Metadata.derivesPayerKeys, hlength]
    rfl
  have hinner := verifyPayerMetadataInner_keys crypto id nonce contents.ivBytes
    contents.payerSigningPubkey (payerTlvStream records true)
  constructor
  · rw [InvoiceContents.verify, hexclude, hpayer]
    have hverify := verifyPayerMetadata_eq crypto id nonce [] contents.ivBytes
      contents.payerSigningPubkey (payerTlvStream records true)
    rw [append_nil, hinner] at hverify
    simp only [Metadata.asRef, ok_bind, hmetadata, hverify]
    refine congrArg Except.ok ?_
    rw [payerKeys]
    split <;> rfl
  · rw [InvoiceContents.derivePayerSigningKeys, hpayer]
    simp only [Metadata.asBytes, ok_bind, hmetadata, derivePayerKeys, hinner]
    refine congrArg Except.ok ?_
    rw [payerKeys]
    split <;> rfl

/-- **Metadata with a tag**: the tag is compared with the derived one, and there are no keys. -/
theorem verify_of_tag (records : List TlvRecord) {metadata : Value} {tag : Gossip.Bytes 32}
    (hpayer : contents.payer = .bytes metadata)
      (hmetadata : metadata.1 = id.1 ++ nonce.1 ++ tag.1) :
    contents.verify crypto records = .ok
      (if tag.1 =
        (crypto.toByteArray (crypto.hmacForOffer (MetadataMaterial.hmacInput ⟨nonce, some id⟩
          contents.ivBytes (payerTlvStream records false) derivedMetadataHmacInput))).1 then
        some (crypto.cryptForOffer id nonce)
      else none) ∧ contents.derivePayerSigningKeys crypto records = .ok none := by
  have hid := id.2
  have hnonce := nonce.2
  have htag := tag.2
  have hexclude : contents.payer.derivesPayerKeys = false := by
    have hlength : metadata.1.length = 80 := by
      rw [hmetadata, length_append, length_append]
      omega
    rw [hpayer, Metadata.derivesPayerKeys, hlength]
    rfl
  constructor
  · rw [InvoiceContents.verify, hexclude, hpayer]
    have hverify := verifyPayerMetadata_eq crypto id nonce tag.1 contents.ivBytes
      contents.payerSigningPubkey (payerTlvStream records false)
    rw [verifyPayerMetadataInner_tag] at hverify
    simp only [Metadata.asRef, ok_bind, hmetadata, hverify]
    refine congrArg Except.ok ?_
    split <;> rfl
  · rw [InvoiceContents.derivePayerSigningKeys, hpayer]
    simp only [Metadata.asBytes, ok_bind, hmetadata, derivePayerKeys, verifyPayerMetadataInner_tag]
    refine congrArg Except.ok ?_
    split <;> rfl

end

/-! ### Invoices -/

/-- The payer verifies an invoice as one for its payment, and can derive the key again that is its
payer id. -/
def Bolt12Invoice.Verifies {Hash Digest : Type} (crypto : OfferCrypto Digest)
    (self : Bolt12Invoice Hash)
    (paymentId : PaymentId) (payerId : Value) : Prop :=
  self.verifyUsingMetadata crypto = .ok (some paymentId) ∧
    ∃ keys, self.derivePayerSigningKeys crypto = .ok (some keys) ∧ crypto.publicKey keys = payerId

/-- **Invoices with the payer's metadata and a derived key** are verified if the payer derives that
key from the records of the invoice. -/
theorem verifies_iff {Hash Digest : Type} {crypto : OfferCrypto Digest}
    {invoice : Bolt12Invoice Hash} (paymentId : PaymentId) (nonce : Nonce) {metadata : Value}
    (hcrypt : ∀ id nonce, crypto.cryptForOffer (crypto.cryptForOffer id nonce) nonce = id)
    (hpayer : invoice.contents.payer = .bytes metadata)
    (hmetadata : metadata.1 = (crypto.cryptForOffer paymentId nonce).1 ++ nonce.1) :
    invoice.Verifies crypto paymentId invoice.contents.payerSigningPubkey ↔
      invoice.contents.payerSigningPubkey = crypto.publicKey
        (payerKeys crypto (crypto.cryptForOffer paymentId nonce) nonce invoice.contents.ivBytes
          invoice.records) := by
  obtain ⟨hverify, hderive⟩ := verify_of_keys crypto invoice.records hpayer hmetadata
  rw [Bolt12Invoice.Verifies, Bolt12Invoice.verifyUsingMetadata,
    Bolt12Invoice.derivePayerSigningKeys, hverify, hderive, hcrypt]
  constructor
  · rintro ⟨hsome, -⟩
    split at hsome
    next h => exact h
    · cases hsome
  · intro h
    rw [if_pos h, if_pos h]
    exact ⟨rfl, _, rfl, h.symm⟩

section

variable {Hash : Type} [LinearOrder Hash] {hashes : MessageHashes Hash} {invoiceFeature : Bool}
  {reading : InvoiceReading Hash} {invoiceBytes : List UInt8} {invoice : Bolt12Invoice Hash}
  (hinvoice : Bolt12Invoice.tryFrom hashes invoiceFeature reading invoiceBytes = .ok (some invoice))

include hinvoice

theorem PayerMessage.contents {message rest : List TlvRecord} {metadata payerId : Value}
    (h : PayerMessage message rest metadata payerId) (hechoes : Echoes invoice.records message) :
    invoice.contents.payer = .bytes metadata ∧ invoice.contents.payerSigningPubkey = payerId := by
  obtain ⟨-, hasc, ⟨metadata', hmetadata, hpayer⟩, hkey, -⟩ :=
    Bolt12Invoice.tryFrom_eq_some hinvoice
  rw [hpayer, ← Option.some.inj (hmetadata.symm.trans (h.findField_metadata hasc hechoes))]
  exact ⟨rfl, Option.some.inj (hkey.symm.trans (h.findField_payerId hasc hechoes))⟩

theorem exists_forOffer {postQuantum : Bool} {fields : Fields} {semantics : OfferTlvStream → Bool}
    {offerBytes : List UInt8} {offer : Offer Hash}
    (hoffer : Offer.tryFrom hashes postQuantum fields semantics offerBytes = .ok (some offer))
    (hmem : ∀ record ∈ offer.records, record.type = 16 ∨ record.type = 22 →
      record ∈ invoice.records) : ∃ request, invoice.contents = .forOffer request := by
  obtain ⟨-, -, -, stream, -, hvalues, hissuer, -⟩ := Offer.tryFrom_eq_some hoffer
  obtain ⟨-, -, -, -, -, hforOffer⟩ := Bolt12Invoice.tryFrom_eq_some hinvoice
  have hnone : ∀ type, type = 16 ∨ type = 22 → findField type invoice.records = none →
      findField type offer.records = none := by
    intro type htype hnone
    rw [findField_eq_none_iff] at hnone ⊢
    intro record hrecord heq
    exact hnone record (hmem record hrecord (heq ▸ htype)) heq
  refine hforOffer fun hboth => hissuer ⟨?_, fun paths hpaths => ?_⟩
  · exact (hvalues 22 (by decide)).trans (hnone 22 (.inr rfl) hboth.1)
  · have hvalue := (hvalues 16 (by decide)).trans (hnone 16 (.inl rfl) hboth.2)
    cases (Option.map_eq_none_iff.mp hvalue) ▸ hpaths

end

/-! ### Refunds -/

theorem RefundContents.conveyPq_eq (self : RefundContents) (postQuantum : Bool) :
    ∃ pqKemCts, self.conveyPq postQuantum = { self with pqKemCts } := by
  rw [RefundContents.conveyPq.eq_def]
  split
  · split
    · exact ⟨self.pqKemCts, rfl⟩
    · exact ⟨_, rfl⟩
  · exact ⟨self.pqKemCts, rfl⟩

/-- **The streams of a refund** have its key and the paths it was built with, and not what makes an
invoice one for an offer. With paths the metadata and the key are derived; without them the metadata
only. -/
theorem exists_refundStream {Digest : Type} {crypto : OfferCrypto Digest}
    {material : MetadataMaterial} {contents : RefundContents} {postQuantum : Bool} {refund : Refund}
    (hpayer : contents.payer = .derivedSigningPubkey material)
    (h : contents.build crypto postQuantum = .ok refund) :
    ∃ stream : PartialInvoiceRequestTlvStream, refund.records = stream.write ∧
      stream.invoiceRequest.payerId = some refund.contents.payerSigningPubkey ∧
      stream.invoiceRequest.paths = contents.paths ∧ stream.offer.issuerId = none ∧
      stream.offer.paths = none ∧
      if contents.paths.isNone then
        stream.payerMetadata = some (material.deriveMetadata crypto refundIvBytesWithMetadata
          (stream.forPayer false).write)
      else
        let derived := material.deriveMetadataAndKeys crypto refundIvBytesWithoutMetadata
          (stream.forPayer true).write
        stream.payerMetadata = some derived.1 ∧
          refund.contents.payerSigningPubkey = crypto.publicKey derived.2 := by
  obtain ⟨pqKemCts, hconvey⟩ := contents.conveyPq_eq postQuantum
  rw [RefundContents.build, hconvey, RefundContents.deriveMetadata] at h
  cases hpaths : contents.paths.isNone with
  | true =>
    simp only [hpayer, hpaths, Metadata.hasDerivationMaterial, Metadata.withoutKeys, ok_bind,
      if_true, RefundContents.asTlvStream, Metadata.asBytes, Metadata.deriveFrom] at h
    cases h
    exact ⟨_, rfl, rfl, rfl, rfl, rfl, rfl⟩
  | false =>
    simp only [hpayer, hpaths, Metadata.hasDerivationMaterial, ok_bind, if_true,
      Bool.false_eq_true, if_false, RefundContents.asTlvStream, Metadata.asBytes,
      Metadata.deriveFrom] at h
    cases h
    exact ⟨_, rfl, rfl, rfl, rfl, rfl, rfl, rfl⟩

/-- **An invoice that repeats a refund** is for a refund with the paths of it. -/
theorem exists_forRefund {Hash : Type} [LinearOrder Hash] {hashes : MessageHashes Hash}
    {invoiceFeature : Bool} {reading : InvoiceReading Hash} {bytes : List UInt8}
    {invoice : Bolt12Invoice Hash} {metadata payerId : Value}
    (hinvoice : Bolt12Invoice.tryFrom hashes invoiceFeature reading bytes = .ok (some invoice))
    (hmessage : PayerMessage stream.write (stream.forPayer true).write metadata payerId)
    (hechoes : Echoes invoice.records stream.write) (hissuer : stream.offer.issuerId = none)
    (hpaths : stream.offer.paths = none) :
    ∃ refund, invoice.contents = .forRefund refund ∧
      refund.paths.map PathList.value = stream.invoiceRequest.paths.map PathList.value := by
  obtain ⟨-, hasc, -, -, hforRefund, -⟩ := Bolt12Invoice.tryFrom_eq_some hinvoice
  have hmem {record : TlvRecord} (htype : 1 ≤ record.type ∧ record.type < 160)
      (hne : record.type ≠ 88) : record ∈ invoice.records ↔
        record ∈ stream.offer.write ∨ record ∈ (stream.forPayer true).invoiceRequest.write := by
    have hexperimental : record ∉ (stream.forPayer true).writeExperimental := fun hmem => by
      have := (stream.forPayer true).within_writeExperimental.bounds record hmem
      omega
    have hnil : (stream.forPayer true).writePayer = [] := rfl
    rw [hmessage.mem_invoice hechoes (.inl htype.2) ⟨by omega, hne⟩,
      write, hnil, mem_append, mem_append, nil_append]
    exact or_iff_left hexperimental
  have hnone : ∀ type, 1 ≤ type ∧ type < 80 → stream.offer.value type = none →
      findField type invoice.records = none := by
    intro type htype hvalue
    rw [findField_eq_none_iff]
    rintro record hrecord rfl
    rcases (hmem ⟨htype.1, by omega⟩ (by omega)).mp hrecord with hin | hin
    · rw [OfferTlvStream.mem_write_iff, hvalue] at hin
      cases hin
    · have := (stream.forPayer true).invoiceRequest.within_write.bounds record hin
      omega
  obtain ⟨refund, hrefund, hrefundPaths⟩ := hforRefund ⟨hnone 22 (by decide) hissuer,
    hnone 16 (by decide) (Option.map_eq_none_iff.mpr hpaths)⟩
  refine ⟨refund, hrefund, hrefundPaths.trans (Option.ext fun value => ?_)⟩
  have hninety : ∀ record : TlvRecord, record.type = 90 → (record ∈ invoice.records ↔
      stream.invoiceRequest.paths.map PathList.value = some ⟨record.value, record.length_lt⟩) := by
    intro record htype
    have hoffer : record ∉ stream.offer.write := fun hin => by
      have := stream.offer.within_write.bounds record hin
      omega
    rw [hmem (by omega) (by omega), or_iff_right hoffer]
    exact mem_write_paths _ htype
  rw [findField_eq_some_iff hasc]
  constructor
  · rintro ⟨record, hrecord, htype, hvalue⟩
    rw [(hninety record htype).mp hrecord]
    exact congrArg some (Subtype.ext hvalue)
  · intro hvalue
    exact ⟨⟨90, value.1, by decide, value.2⟩, (hninety _ rfl).mpr hvalue, rfl, rfl⟩

/-! ### Honest invoices -/

/-- A request that the payer built, with derived metadata, from an offer that it read. -/
structure HonestRequest {Hash Digest : Type} [LinearOrder Hash] (hashes : MessageHashes Hash)
    (postQuantum : Bool) (crypto : OfferCrypto Digest) (nonce : Nonce) (paymentId : PaymentId)
    (offer : Offer Hash) (request : InvoiceRequestContentsWithoutPayerSigningPubkey)
    (unsigned : UnsignedInvoiceRequest Hash) : Prop where
  read : ∃ fields semantics bytes,
    Offer.tryFrom hashes postQuantum fields semantics bytes = .ok (some offer)
  contents : request.offer = offer.contents
  payer : request.payer = .derivedSigningPubkey (.new crypto nonce (some paymentId))
  built : ∃ keys,
    buildInvoiceRequest hashes postQuantum crypto offer request none = .ok (unsigned, keys)

/-- A refund that the payer built, with derived metadata; its paths are added one by one. -/
structure HonestRefund {Digest : Type} (postQuantum : Bool) (crypto : OfferCrypto Digest)
    (nonce : Nonce) (paymentId : PaymentId) (contents : RefundContents) (refund : Refund) :
    Prop where
  payer : contents.payer = .derivedSigningPubkey (.new crypto nonce (some paymentId))
  paths : ∀ paths ∈ contents.paths, paths.paths ≠ []
  built : contents.build crypto postQuantum = .ok refund

section

variable {Hash : Type} [LinearOrder Hash] {hashes : MessageHashes Hash}
  {postQuantum invoiceFeature : Bool} {Digest : Type} {crypto : OfferCrypto Digest}
  {nonce : Nonce} {paymentId : PaymentId} {reading : InvoiceReading Hash}
  {invoiceBytes : List UInt8} {invoice : Bolt12Invoice Hash}
  (hcrypt : ∀ id nonce, crypto.cryptForOffer (crypto.cryptForOffer id nonce) nonce = id)
  (hinvoice : Bolt12Invoice.tryFrom hashes invoiceFeature reading invoiceBytes = .ok (some invoice))

include hcrypt hinvoice

section

variable {offer : Offer Hash} {request : InvoiceRequestContentsWithoutPayerSigningPubkey}
  {unsigned : UnsignedInvoiceRequest Hash} {signature : Value}
  (h : HonestRequest hashes postQuantum crypto nonce paymentId offer request unsigned)
  (hechoes : Echoes invoice.records (unsigned.sign signature).records)

include h hechoes

/-- **An honest invoice for a request** is verified if the key that is derived from its records is
the one that was derived from the typed contents. The records are the same if the typed contents
keep all of the offer's. -/
theorem HonestRequest.verifies_iff_keys :
    ∃ stream, offer.contents.asTlvStream = .ok stream ∧
      (payerTlvStream invoice.records true = (request.derivationStream postQuantum stream).write ↔
        ∀ record ∈ offer.records, IsTyped record) ∧
      (invoice.Verifies crypto paymentId unsigned.contents.payerSigningPubkey ↔
        crypto.publicKey (crypto.hmacForOffer
          ((MetadataMaterial.new crypto nonce (some paymentId)).hmacInput invoiceRequestIvBytes
            (request.derivationStream postQuantum stream).write derivedMetadataAndKeysHmacInput)) =
        crypto.publicKey (crypto.hmacForOffer
          ((MetadataMaterial.new crypto nonce (some paymentId)).hmacInput invoiceRequestIvBytes
            (payerTlvStream invoice.records true) derivedMetadataAndKeysHmacInput))) := by
  obtain ⟨fields, semantics, offerBytes, hoffer⟩ := h.read
  obtain ⟨keys, hbuild⟩ := h.built
  obtain ⟨-, hasc, hcovers, -⟩ := Offer.tryFrom_eq_some hoffer
  obtain ⟨stream, hstream, hwrite⟩ := exists_typedStream hoffer
  have hstream' := h.contents.symm ▸ hstream
  have hmessage := payerMessage_of_build h.payer hstream' hbuild hasc hcovers signature
  obtain ⟨hpayer, hkey⟩ := hmessage.contents hinvoice hechoes
  obtain ⟨-, hinvoiceAsc, -⟩ := Bolt12Invoice.tryFrom_eq_some hinvoice
  obtain ⟨invoiceRequest, hfor⟩ := exists_forOffer hinvoice hoffer fun record hrecord htype => by
    refine (hmessage.mem_invoice hechoes (.inl (by omega)) (by omega)).mpr ?_
    rw [ownRecords, mem_append, mem_append, mem_copiedRecords hasc hcovers]
    refine .inl ⟨hrecord, ?_⟩
    rintro ⟨-, hpq, -⟩
    rw [hpq, offerMetadataType] at htype
    omega
  have hiv : invoice.contents.ivBytes = invoiceRequestIvBytes := by
    rw [hfor]
    rfl
  have hunsigned : unsigned.contents.payerSigningPubkey = invoice.contents.payerSigningPubkey := by
    obtain ⟨-, -, hunsigned, -⟩ := new_eq_ok (new_of_buildInvoiceRequest h.payer hstream' hbuild)
    rw [hunsigned, hkey]
  have hstreams : payerTlvStream invoice.records true =
      (request.derivationStream postQuantum stream).write ↔
        ∀ record ∈ offer.records, IsTyped record := by
    rw [← ownRecords_mem_iff_derivationStream hasc hcovers hwrite]
    have hmem (record : TlvRecord) : record ∈ payerTlvStream invoice.records true ↔
        record ∈ request.ownRecords postQuantum offer.records := by
      rw [hmessage.mem_payerTlvStream hinvoiceAsc hechoes]
      simp
    refine ⟨fun heq record => by rw [← hmem, heq], fun hiff => ?_⟩
    exact (ascending_payerTlvStream hinvoiceAsc).eq_of_mem_iff
      (ascending_write _) fun record => (hmem record).trans (hiff record)
  refine ⟨stream, hstream, hstreams, ?_⟩
  rw [hunsigned, Offers.verifies_iff paymentId nonce hcrypt hpayer rfl, hkey, hiv]
  rfl

theorem HonestRequest.verifies_of_typed (htyped : ∀ record ∈ offer.records, IsTyped record) :
    invoice.Verifies crypto paymentId unsigned.contents.payerSigningPubkey := by
  obtain ⟨stream, -, hstreams, hverifies⟩ := h.verifies_iff_keys hcrypt hinvoice hechoes
  rw [hverifies, hstreams.mpr htyped]

/-- Only what leads to the same key is verified. -/
theorem HonestRequest.typed_of_verifies
    (hderives : ∀ stream, offer.contents.asTlvStream = .ok stream →
      crypto.DerivesOnce ((MetadataMaterial.new crypto nonce (some paymentId)).hmacInput
        invoiceRequestIvBytes (request.derivationStream postQuantum stream).write
        derivedMetadataAndKeysHmacInput))
    (hverified : invoice.Verifies crypto paymentId unsigned.contents.payerSigningPubkey) :
    ∀ record ∈ offer.records, IsTyped record := by
  obtain ⟨stream, hstream, hstreams, hverifies⟩ := h.verifies_iff_keys hcrypt hinvoice hechoes
  have hinput := hderives stream hstream _ (hverifies.mp hverified).symm
  exact hstreams.mp (MetadataMaterial.hmacInput_injective _ _ _ hinput)

end

/-- **An honest invoice for a refund** is verified. The key of the payer is derived again if the
refund has paths. -/
theorem HonestRefund.verifies {contents : RefundContents} {refund : Refund}
    (h : HonestRefund postQuantum crypto nonce paymentId contents refund)
    (hechoes : Echoes invoice.records refund.records) :
    invoice.verifyUsingMetadata crypto = .ok (some paymentId) ∧
      (invoice.Verifies crypto paymentId refund.contents.payerSigningPubkey ↔
        contents.paths.isSome = true) := by
  obtain ⟨stream, hrecords, hkey, hpaths, hissuer, hofferPaths, hderived⟩ :=
    exists_refundStream h.payer h.built
  obtain ⟨-, hasc, -⟩ := Bolt12Invoice.tryFrom_eq_some hinvoice
  rw [hrecords] at hechoes
  obtain ⟨metadata, hmetadata⟩ : ∃ metadata, stream.payerMetadata = some metadata := by
    split at hderived
    · exact ⟨_, hderived⟩
    · exact ⟨_, hderived.1⟩
  have hmessage := payerMessage_of_stream hmetadata hkey
  obtain ⟨hpayer, hinvoiceKey⟩ := hmessage.contents hinvoice hechoes
  obtain ⟨refund', hfor, hrefundPaths⟩ :=
    exists_forRefund hinvoice hmessage hechoes hissuer hofferPaths
  rw [hpaths] at hrefundPaths
  have hstream (exclude : Bool) :
      payerTlvStream invoice.records exclude = (stream.forPayer exclude).write := by
    refine (ascending_payerTlvStream hasc).eq_of_mem_iff (ascending_write _) fun record => ?_
    rw [hmessage.mem_payerTlvStream hasc hechoes, (stream.forPayer exclude).mem_write_iff]
    cases exclude <;> simp [forPayer, hkey]
  split at hderived
  next hnone =>
    have hnone := Option.isNone_iff_eq_none.mp hnone
    have hiv : invoice.contents.ivBytes = refundIvBytesWithMetadata := by
      rw [hnone, Option.map_none, Option.map_eq_none_iff] at hrefundPaths
      rw [hfor, InvoiceContents.ivBytes, hrefundPaths]
      rfl
    obtain rfl := Option.some.inj (hmetadata.symm.trans hderived)
    obtain ⟨hverify, hderive⟩ := verify_of_tag crypto invoice.records hpayer rfl
    rw [hiv, hstream] at hverify
    have hverified : invoice.verifyUsingMetadata crypto = .ok (some paymentId) := by
      refine hverify.trans (congrArg Except.ok ?_)
      exact (if_pos rfl).trans (congrArg some (hcrypt paymentId nonce))
    refine ⟨hverified, iff_of_false ?_ (by simp [hnone])⟩
    rintro ⟨-, keys, hkeys, -⟩
    cases hderive.symm.trans hkeys
  next hnot =>
    obtain ⟨paths, hsome⟩ := Option.ne_none_iff_exists'.mp
      fun hnone => hnot (Option.isNone_iff_eq_none.mpr hnone)
    have hiv : invoice.contents.ivBytes = refundIvBytesWithoutMetadata := by
      rw [hsome, Option.map_some, Option.map_eq_some_iff] at hrefundPaths
      obtain ⟨paths', hsome', hvalue⟩ := hrefundPaths
      rw [hfor, InvoiceContents.ivBytes, hsome', Option.all_some, if_neg]
      intro hempty
      have hbare := PathList.map_bare_of_value_eq hvalue
      rw [List.isEmpty_iff.mp hempty, map_nil] at hbare
      exact h.paths paths hsome (map_eq_nil_iff.mp hbare.symm)
    obtain rfl := Option.some.inj (hmetadata.symm.trans hderived.1)
    have hverifies := Offers.verifies_iff paymentId nonce hcrypt hpayer rfl
    rw [hiv, payerKeys, hstream, hinvoiceKey, hderived.2] at hverifies
    have hverified := hverifies.mpr rfl
    rw [hderived.2]
    exact ⟨hverified.1, iff_of_true hverified (by rw [hsome]; rfl)⟩

/-- **When honest invoices are verified.** For a request that was built from an offer with derived
metadata, an invoice with the records of the request is verified, and the key of the payer is
derived again, if the typed contents of the offer keep all of its records; if no other records lead
to the key of the payer, it is not verified otherwise. An invoice for a refund is always verified,
and the key of the payer is derived again if the refund has paths. -/
theorem honest_invoice_verifies_iff :
    (∀ (offer : Offer Hash) (request : InvoiceRequestContentsWithoutPayerSigningPubkey)
      (unsigned : UnsignedInvoiceRequest Hash) (signature : Value),
      HonestRequest hashes postQuantum crypto nonce paymentId offer request unsigned →
      Echoes invoice.records (unsigned.sign signature).records →
      ((∀ record ∈ offer.records, IsTyped record) →
        invoice.Verifies crypto paymentId unsigned.contents.payerSigningPubkey) ∧
      ((∀ stream, offer.contents.asTlvStream = .ok stream →
        crypto.DerivesOnce ((MetadataMaterial.new crypto nonce (some paymentId)).hmacInput
          invoiceRequestIvBytes (request.derivationStream postQuantum stream).write
          derivedMetadataAndKeysHmacInput)) →
        (invoice.Verifies crypto paymentId unsigned.contents.payerSigningPubkey ↔
          ∀ record ∈ offer.records, IsTyped record))) ∧
    ∀ (contents : RefundContents) (refund : Refund),
      HonestRefund postQuantum crypto nonce paymentId contents refund →
      Echoes invoice.records refund.records →
      invoice.verifyUsingMetadata crypto = .ok (some paymentId) ∧
        (invoice.Verifies crypto paymentId refund.contents.payerSigningPubkey ↔
          contents.paths.isSome = true) :=
  ⟨fun _ _ _ _ h hechoes => ⟨h.verifies_of_typed hcrypt hinvoice hechoes, fun hderives =>
      ⟨h.typed_of_verifies hcrypt hinvoice hechoes hderives,
        h.verifies_of_typed hcrypt hinvoice hechoes⟩⟩,
    fun _ _ h hechoes => h.verifies hcrypt hinvoice hechoes⟩

end

/-! ### A request with a record of an unknown type -/

variable (unknown : Bool)

/-- The records of an offer with an issuer id, and perhaps a record of an odd type that is not
known. -/
def issuerRecords : List TlvRecord :=
  smallRecord 22 (some 7) :: if unknown then [smallRecord 33 none] else []

def issuerContents : OfferContents where
  chains := none
  metadata := none
  currency := none
  amount := none
  description := none
  features := .empty
  absoluteExpiry := none
  paths := none
  issuer := none
  quantityMax := none
  issuerSigningPubkey := some ⟨[7], by decide⟩

theorem exists_issuerOffer :
    ∃ offer, Offer.tryFrom plainHashes true plainReading.fields plainReading.offerSemantics
        (toBytes (issuerRecords unknown)) = .ok (some offer) ∧
      offer.records = issuerRecords unknown ∧ offer.contents = issuerContents := by
  have hissuer : smallRecord 22 (some 7) ∈
      withoutPqMetadata true (issuerRecords unknown) := by
    cases unknown <;> exact mem_cons_self
  obtain ⟨id, hid⟩ := exists_taggedHash plainHashes offerIdTag hissuer (by decide)
  refine ⟨⟨issuerRecords unknown, issuerContents, id⟩, ?_, rfl, rfl⟩
  have hstreams : readStreams plainReading.fields [offerSpec, experimentalOfferSpec]
      (issuerRecords unknown) = some [issuerRecords unknown, []] := by
    cases unknown <;> rfl
  rw [Offer.tryFrom, tlvStream_toBytes]
  simp only [hstreams, offerIdFromValidOfferTlvStream, hid]
  cases unknown <;> rfl

def plainPaymentId : PaymentId := Gossip.constBytes 32 6

def issuerRequest : InvoiceRequestContentsWithoutPayerSigningPubkey where
  payer := .derivedSigningPubkey (.new plainCrypto plainNonce (some plainPaymentId))
  offer := issuerContents
  chain := none
  amountMsats := some plainAmount
  features := .empty
  quantity := none
  payerNote := none
  offerFromHrn := none

def issuerStream : OfferTlvStream := issuerContents.toTlvStream none

def issuerDerived : Value × List UInt8 :=
  issuerRequest.derived true plainCrypto (.new plainCrypto plainNonce (some plainPaymentId))
    issuerStream

theorem issuerRequest_derivesOnce :
    plainCrypto.DerivesOnce
      ((MetadataMaterial.new plainCrypto plainNonce (some plainPaymentId)).hmacInput
      invoiceRequestIvBytes (issuerRequest.derivationStream true issuerStream).write
      derivedMetadataAndKeysHmacInput) :=
  plainCrypto_derivesOnce (by decide +kernel) (by decide +kernel)

def issuerSignedStream : PartialInvoiceRequestTlvStream :=
  issuerRequest.signedStream issuerStream issuerDerived.1 (plainCrypto.publicKey issuerDerived.2)

def issuerRequestRecords : List TlvRecord :=
  issuerSignedStream.writePayer ++ issuerRecords unknown ++
    issuerSignedStream.invoiceRequest.write ++
      [signatureRecord (plainCrypto.publicKey issuerDerived.2)]

def issuerRequestContents : InvoiceRequestContents where
  inner := { issuerRequest with payer := .bytes issuerDerived.1 }
  payerSigningPubkey := plainCrypto.publicKey issuerDerived.2

theorem exists_issuerUnsigned {offer : Offer ℕ} (hoffer : offer.records = issuerRecords unknown) :
    ∃ unsigned keys,
      buildInvoiceRequest plainHashes true plainCrypto offer issuerRequest none =
        .ok (unsigned, keys) ∧
      (unsigned.sign (plainCrypto.publicKey issuerDerived.2)).records =
        issuerRequestRecords unknown := by
  let stream := issuerRequest.signedStream issuerStream issuerDerived.1
    (plainCrypto.publicKey issuerDerived.2)
  have hrange : range offerSpec.start offerSpec.stop offer.records = issuerRecords unknown ∧
      withoutPqMetadata true (issuerRecords unknown) = issuerRecords unknown ∧
      offer.records.drop (issuerRecords unknown).length = [] := by
    rw [hoffer]
    cases unknown <;> exact ⟨rfl, rfl, rfl⟩
  have hpayer : (⟨0, issuerDerived.1.1, by decide, issuerDerived.1.2⟩ : TlvRecord) ∈
      stream.writePayer ++ issuerRecords unknown ++ stream.invoiceRequest.write ++
        (range experimentalOfferSpec.start experimentalOfferSpec.stop [] ++
          stream.writeExperimental) :=
    mem_cons_self
  obtain ⟨hash, hhash⟩ := exists_taggedHash plainHashes invoiceRequestSignatureTag hpayer
    (by decide)
  let unsigned : UnsignedInvoiceRequest ℕ :=
    ⟨stream.writePayer ++ issuerRecords unknown ++ stream.invoiceRequest.write, [],
      issuerRequestContents, hash⟩
  have hnew : new plainHashes true offer issuerRequestContents =
    .ok unsigned := by
    have hrequest : issuerRequestContents.asTlvStream = .ok stream := rfl
    rw [new, hrequest, ok_bind]
    simp only [hrange.1, hrange.2.1, hrange.2.2, hhash, ok_bind]
    rfl
  refine ⟨unsigned, some issuerDerived.2, ?_, ?_⟩
  · have hstream : issuerRequest.offer.asTlvStream = .ok issuerStream := rfl
    rw [buildInvoiceRequest, deriveMetadata_eq_ok rfl hstream, ok_bind]
    show (new plainHashes true offer issuerRequestContents >>=
      fun unsigned => pure (unsigned, some issuerDerived.2)) = _
    rw [hnew]
    rfl
  · cases unknown <;> rfl

/-- The checks of `InvoiceContents`: a path, the time of creation, the payment hash, the amount of
the request and the key of the issuer, which signs. -/
def plainInvoiceReading : InvoiceReading ℕ where
  toRequestReading := plainReading
  refundSemantics stream := stream.invoiceRequest.amount.isSome
  invoiceSemantics stream own :=
    [160, 162, 164, 168].all (fun type => (findField type own).isSome) &&
      (findField 236 own).isNone && findField 170 own = stream.invoiceRequest.amount &&
      findField 176 own = stream.offer.issuerId
  verifyInvoiceSignature signature _ own := findField 176 own = some signature

/-- The records of the invoice itself. -/
def issuerInvoiceOwn : List TlvRecord := [
  ⟨160, plainPaths.value.1, by decide, plainPaths.value.2⟩,
  ⟨162, replicate 28 0, by decide, by decide⟩,
  smallRecord 164 (some 1),
  ⟨168, replicate 32 5, by decide, by decide⟩,
  ⟨170, plainAmount.1, by decide, plainAmount.2⟩,
  smallRecord 176 (some 7)]

def issuerInvoiceRecords : List TlvRecord :=
  issuerSignedStream.writePayer ++ issuerRecords unknown ++
    issuerSignedStream.invoiceRequest.write ++
      (issuerInvoiceOwn ++ [signatureRecord ⟨[7], by decide⟩])

/-- The invoice repeats the request: its other records are of types that the payer does not look at.
-/
theorem echoes_issuerInvoiceRecords :
    Echoes (issuerInvoiceRecords unknown) (issuerRequestRecords unknown) := by
  intro record htype
  have hown : record ∉ issuerInvoiceOwn ++ [signatureRecord ⟨[7], by decide⟩] := by
    intro hmem
    have hrange : ∀ record ∈ issuerInvoiceOwn ++ [signatureRecord ⟨[7], by decide⟩],
        160 ≤ record.type ∧ record.type ≤ 240 := by
      decide
    have := hrange record hmem
    rcases htype with hlt | hle <;> omega
  have hsignature : record ∉ [signatureRecord (plainCrypto.publicKey issuerDerived.2)] := by
    rintro hmem
    rw [mem_singleton.mp hmem] at htype
    rcases htype with hlt | hle
    · exact absurd hlt (by decide)
    · exact absurd hle.1 (by decide)
  exact (mem_append.trans (or_iff_left hown)).trans
    (mem_append.trans (or_iff_left hsignature)).symm

set_option maxRecDepth 4000 in
theorem exists_issuerInvoice :
    ∃ invoice, Bolt12Invoice.tryFrom plainHashes true plainInvoiceReading
        (toBytes (issuerInvoiceRecords unknown)) = .ok (some invoice) ∧
      invoice.records = issuerInvoiceRecords unknown ∧
      invoice.contents = .forOffer issuerRequestContents := by
  have hpayer : (⟨0, issuerDerived.1.1, by decide, issuerDerived.1.2⟩ : TlvRecord) ∈
      issuerInvoiceRecords unknown := mem_cons_self
  obtain ⟨hash, hhash⟩ := exists_taggedHash plainHashes invoiceSignatureTag hpayer (by decide)
  have hissuer : smallRecord 22 (some 7) ∈
      offerTlvStreamIter true (issuerInvoiceRecords unknown) := by
    cases unknown <;> exact mem_cons_self
  obtain ⟨id, hid⟩ := exists_taggedHash plainHashes offerIdTag hissuer (by decide)
  refine ⟨⟨issuerInvoiceRecords unknown, .forOffer issuerRequestContents, ⟨[7], by decide⟩,
    some id⟩, ?_, rfl, rfl⟩
  have hstreams : readStreams plainInvoiceReading.fields invoiceSpecs
      (issuerInvoiceRecords unknown) =
        some [[⟨0, issuerDerived.1.1, by decide, issuerDerived.1.2⟩], issuerRecords unknown,
          issuerSignedStream.invoiceRequest.write, issuerInvoiceOwn,
          [signatureRecord ⟨[7], by decide⟩], [], [], []] := by
    cases unknown <;> rfl
  have hcontents : (read
      [⟨0, issuerDerived.1.1, by decide, issuerDerived.1.2⟩] (issuerRecords unknown)
      issuerSignedStream.invoiceRequest.write []).bind
        (fun stream => InvoiceContents.tryFrom plainInvoiceReading stream issuerInvoiceOwn) =
          some (.forOffer issuerRequestContents) := by
    cases unknown <;> rfl
  have hsignature : findField 240 [signatureRecord ⟨[7], by decide⟩] = some ⟨[7], by decide⟩ := rfl
  rw [Bolt12Invoice.tryFrom, tlvStream_toBytes]
  simp only [hstreams, hcontents, hsignature, hhash, ok_bind, offerIdFromValidBolt12TlvStream, hid]
  rfl

theorem issuerStream_of_asTlvStream {stream : OfferTlvStream}
    (h : issuerContents.asTlvStream = .ok stream) : stream = issuerStream :=
  (Except.ok.inj h).symm

/-- An invoice for a request of which the typed contents of the offer keep all records. -/
theorem issuerInvoice_verifies :
    ∃ offer unsigned keys invoice,
      Offer.tryFrom plainHashes true plainReading.fields plainReading.offerSemantics
        (toBytes (issuerRecords false)) = .ok (some offer) ∧
      buildInvoiceRequest plainHashes true plainCrypto offer issuerRequest none =
        .ok (unsigned, keys) ∧
      Bolt12Invoice.tryFrom plainHashes true plainInvoiceReading
        (toBytes (issuerInvoiceRecords false)) = .ok (some invoice) ∧
      invoice.Verifies plainCrypto plainPaymentId unsigned.contents.payerSigningPubkey := by
  obtain ⟨offer, hoffer, hrecords, hcontents⟩ := exists_issuerOffer false
  obtain ⟨unsigned, keys, hbuild, hsigned⟩ := exists_issuerUnsigned false hrecords
  obtain ⟨invoice, hinvoice, hechoed, -⟩ := exists_issuerInvoice false
  refine ⟨offer, unsigned, keys, invoice, hoffer, hbuild, hinvoice, ?_⟩
  refine (((honest_invoice_verifies_iff plainCrypto_cryptForOffer hinvoice).1 offer
    issuerRequest unsigned (plainCrypto.publicKey issuerDerived.2)
    ⟨⟨_, _, _, hoffer⟩, hcontents.symm, rfl, ⟨keys, hbuild⟩⟩ ?_).2 ?_).mpr ?_
  · rw [hechoed, hsigned]
    exact echoes_issuerInvoiceRecords false
  · intro stream hstream
    rw [hcontents] at hstream
    rw [issuerStream_of_asTlvStream hstream]
    exact issuerRequest_derivesOnce
  · rw [hrecords]
    decide

/-- An offer with a record of type 33 is read, a request for it is built, and an invoice with the
records of the request is read. The payer does not verify it. -/
theorem unknown_record_not_verified :
    ∃ offer unsigned keys invoice,
      Offer.tryFrom plainHashes true plainReading.fields plainReading.offerSemantics
        (toBytes (issuerRecords true)) = .ok (some offer) ∧
      buildInvoiceRequest plainHashes true plainCrypto offer issuerRequest none =
        .ok (unsigned, keys) ∧
      Bolt12Invoice.tryFrom plainHashes true plainInvoiceReading
        (toBytes (issuerInvoiceRecords true)) = .ok (some invoice) ∧
      Echoes invoice.records (unsigned.sign (plainCrypto.publicKey issuerDerived.2)).records ∧
      invoice.verifyUsingMetadata plainCrypto = .ok none ∧
      invoice.derivePayerSigningKeys plainCrypto = .ok none := by
  obtain ⟨offer, hoffer, hrecords, hcontents⟩ := exists_issuerOffer true
  obtain ⟨unsigned, keys, hbuild, hsigned⟩ := exists_issuerUnsigned true hrecords
  obtain ⟨invoice, hinvoice, hechoed, hfor⟩ := exists_issuerInvoice true
  have hechoes : Echoes invoice.records
      (unsigned.sign (plainCrypto.publicKey issuerDerived.2)).records := by
    rw [hechoed, hsigned]
    exact echoes_issuerInvoiceRecords true
  refine ⟨offer, unsigned, keys, invoice, hoffer, hbuild, hinvoice, hechoes, ?_⟩
  have hkeys : plainCrypto.publicKey issuerDerived.2 ≠ plainCrypto.publicKey
      (payerKeys plainCrypto (plainCrypto.cryptForOffer plainPaymentId plainNonce) plainNonce
        invoiceRequestIvBytes (issuerInvoiceRecords true)) := by
    decide +kernel
  obtain ⟨hverify, hderive⟩ := verify_of_keys plainCrypto invoice.records
    (show invoice.contents.payer = .bytes issuerDerived.1 by rw [hfor]; rfl)
    (show issuerDerived.1.1 =
      (plainCrypto.cryptForOffer plainPaymentId plainNonce).1 ++ plainNonce.1 from rfl)
  rw [Bolt12Invoice.verifyUsingMetadata, Bolt12Invoice.derivePayerSigningKeys, hverify, hderive,
    hfor, hechoed]
  exact ⟨congrArg Except.ok (if_neg hkeys), congrArg Except.ok (if_neg hkeys)⟩

end PqLightning.Offers
