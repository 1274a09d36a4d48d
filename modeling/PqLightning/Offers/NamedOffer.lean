import PqLightning.Offers.InvoiceRequest
import PqLightning.Offers.DisclosureSound

/-!
# Which offer a verified request names

The issuer derives a key from the records of a request without any metadata record. If the
derivation has no collisions, a request with the issuer id of an offer verifies only if its other
offer records are those of the offer. The metadata record is not among them: a payer may add one, or
replace the offer's post-quantum one. The offer id that verification returns leaves a metadata
record out only if it has the post-quantum format, so the id of such a request is that of no offer
the issuer handed out.
-/

namespace PqLightning.Offers

open List OfferTlvStream InvoiceRequest

open Gossip (Bytes constBytes)

/-! ### Hashes and keys determine records -/

variable {records : List TlvRecord}

section

variable {Hash : Type} [LinearOrder Hash] {hashes : MessageHashes Hash}

variable (hashes) in
/-- A stream with a record outside the signature range has a hash. -/
theorem exists_taggedHash (tag : List UInt8) {record : TlvRecord}
    (hmem : record ∈ records) (htype : ¬ IsSignatureType record.type) :
    ∃ hash, taggedHash hashes tag records = .ok hash := by
  obtain ⟨first, hfirst⟩ : ∃ first, records.head? = some first :=
    Option.isSome_iff_exists.mp (isSome_head?.mpr (ne_nil_of_mem hmem))
  have hdata : merkleTlvData hashes.toTaggedHashes records =
      .ok ((nonSignature records).map (tlvHashData hashes.toTaggedHashes first)) := by
    rw [merkleTlvData, unwrap_eq_ok.mpr hfirst]
    rfl
  have hnonSignature : record ∈ nonSignature records := mem_filter.mpr ⟨hmem, by simpa using htype⟩
  obtain ⟨root, hroot, -⟩ := Merkle.exists_root (taggedBranchHash hashes.toTaggedHashes)
    (((nonSignature records).map (tlvHashData hashes.toTaggedHashes first)).map
      TlvHashData.perTlvHash)
    (ne_nil_of_mem (mem_map_of_mem (mem_map_of_mem hnonSignature)))
  refine ⟨hashes.tagged tag root, ?_⟩
  rw [taggedHash, (rootHash_eq_ok_iff hashes.toTaggedHashes).mpr ⟨_, hdata, hroot⟩]
  rfl

/-- **Without collisions, a tagged hash determines its records.** -/
theorem mem_of_taggedHash_eq (hfree : hashes.Free) {tag : List UInt8}
    (htag : Function.Injective (hashes.tagged tag)) {records records' : List TlvRecord}
      {hash : Hash}
    (h : taggedHash hashes tag records = .ok hash) (h' : taggedHash hashes tag records' = .ok hash)
    {record : TlvRecord} (hmem : record ∈ records) (htype : ¬ IsSignatureType record.type) :
    record ∈ records' := by
  obtain ⟨root, hroot, hhash⟩ := bind_eq_ok.mp h
  obtain ⟨root', hroot', hhash'⟩ := bind_eq_ok.mp h'
  obtain rfl : root' = root := htag ((Except.ok.inj hhash').trans (Except.ok.inj hhash).symm)
  obtain ⟨tlvData, hdata, htree⟩ := (rootHash_eq_ok_iff _).mp hroot
  obtain ⟨tlvData', hdata', htree'⟩ := (rootHash_eq_ok_iff _).mp hroot'
  obtain ⟨first, -, hreturn⟩ := bind_eq_ok.mp hdata
  obtain ⟨first', -, hreturn'⟩ := bind_eq_ok.mp hdata'
  cases hreturn
  cases hreturn'
  have htop : Beneath hashes.toTaggedHashes first' records' root' :=
    .node (Merkle.spans_of_root htree')
  have hbeneath := Merkle.of_root (Beneath.parts hfree) _ htree htop
  have hleaf := hbeneath _ (mem_map_of_mem (mem_map_of_mem
    (mem_filter.mpr ⟨hmem, by simpa using htype⟩)))
  obtain ⟨signed, hsigned, hbytes⟩ := (Beneath.parts hfree _ _ hleaf).1.exists_record hfree
  rwa [TlvRecord.recordBytes_injective hbytes]

end

section

variable {Digest : Type} (crypto : OfferCrypto Digest)

/-- No other input of the HMAC gives the same public key. If the HMAC and the derivation of the key
are injective, this holds of every input. -/
def OfferCrypto.DerivesOnce (input : List UInt8) : Prop :=
  ∀ input', crypto.publicKey (crypto.hmacForOffer input') =
    crypto.publicKey (crypto.hmacForOffer input) →
    input' = input

theorem toBytes_injective : Function.Injective toBytes := by
  intro records records' h
  have := tlvStream_toBytes records
  rw [h, tlvStream_toBytes] at this
  exact (Option.some.inj this).symm

/-- The input of the HMAC determines the records in it. -/
theorem MetadataMaterial.hmacInput_injective (material : MetadataMaterial)
    (ivBytes use : List UInt8) :
    Function.Injective fun records => material.hmacInput ivBytes records use := by
  intro records records' h
  have h := append_cancel_right h
  have h := append_cancel_right h
  exact toBytes_injective (append_cancel_left h)

def OfferContents.derivationInput (self : OfferContents) (nonce : Nonce) : List UInt8 :=
  MetadataMaterial.hmacInput ⟨nonce, none⟩ offerIvBytesWithoutMetadata self.derivationRecords
    derivedMetadataAndKeysHmacInput

variable {crypto}

/-- **The key of an offer is derived from its records only.** -/
theorem eq_derivationRecords {self : OfferContents} {nonce : Nonce}
    (h : crypto.DerivesOnce (self.derivationInput nonce))
    (heq : crypto.publicKey (issuerKeys crypto nonce records) =
      crypto.publicKey (issuerKeys crypto nonce self.derivationRecords)) :
    records = self.derivationRecords :=
  MetadataMaterial.hmacInput_injective ⟨nonce, none⟩ offerIvBytesWithoutMetadata
    derivedMetadataAndKeysHmacInput (h _ heq)

end

/-! ### The records of a request and of an offer -/

def IsOfferType (type : ℕ) : Prop := offerSpec.start ≤ type ∧ type < offerSpec.stop

def IsExperimentalOfferType (type : ℕ) : Prop :=
  experimentalOfferSpec.start ≤ type ∧ type < experimentalOfferSpec.stop

section

variable {records : List TlvRecord} {postQuantum : Bool} {record : TlvRecord}

theorem mem_withoutPqMetadata :
    record ∈ withoutPqMetadata postQuantum records ↔
      record ∈ records ∧ ¬ (postQuantum = true ∧ IsOfferPqMetadataRecord record) := by
  rw [withoutPqMetadata]
  cases postQuantum <;> simp [mem_filter]

section

variable (h : Ascending records)

include h

theorem mem_offerTlvStreamIter :
    record ∈ offerTlvStreamIter postQuantum records ↔
      record ∈ records ∧
        (IsOfferType record.type ∧ ¬ (postQuantum = true ∧ IsOfferPqMetadataRecord record) ∨
        IsExperimentalOfferType record.type) := by
  rw [offerTlvStreamIter, mem_append, mem_withoutPqMetadata, range_eq_filter h,
    range_eq_filter h, mem_filter, mem_filter, decide_eq_true_eq, decide_eq_true_eq,
    IsOfferType, IsExperimentalOfferType]
  tauto

theorem mem_verifiedRecords (nonce : Nonce) :
    record ∈ verifiedRecords (.recipientData nonce) records ↔
      record ∈ records ∧ (IsOfferType record.type ∧ record.type ≠ offerMetadataType ∧
        record.type ≠ offerIssuerIdType ∨ IsExperimentalOfferType record.type) := by
  rw [verifiedRecords, mem_append, mem_filter, range_eq_filter h, range_eq_filter h,
    mem_filter, mem_filter, decide_eq_true_eq, decide_eq_true_eq, decide_eq_true_eq,
    IsOfferType, IsExperimentalOfferType]
  simp only [Metadata.derivesRecipientKeys, Bool.true_eq_false, imp_false]
  tauto

/-- The records of the two ranges, with some left out of the first. -/
theorem ascending_append_range {l : List TlvRecord}
    (hl : l.Sublist (range offerSpec.start offerSpec.stop records)) :
    Ascending (l ++ range experimentalOfferSpec.start experimentalOfferSpec.stop records) := by
  rw [range_eq_filter h] at hl ⊢
  refine pairwise_append.mpr ⟨(h.filter _).sublist hl, h.filter _, fun a ha b hb => ?_⟩
  have ha := (of_decide_eq_true (mem_filter.mp (hl.subset ha)).2).2
  have hb := (of_decide_eq_true (mem_filter.mp hb).2).1
  simp only [offerSpec, experimentalOfferSpec] at ha hb
  omega

theorem ascending_offerTlvStreamIter : Ascending (offerTlvStreamIter postQuantum records) := by
  refine ascending_append_range h ?_
  rw [withoutPqMetadata]
  split
  · exact filter_sublist
  · exact List.Sublist.refl _

theorem ascending_verifiedRecords (metadata : Metadata) :
    Ascending (verifiedRecords metadata records) :=
  ascending_append_range h filter_sublist

end

end

section

variable {Digest : Type} (crypto : OfferCrypto Digest) {self : OfferContents} (nonce : Nonce)
  {paths : PathList} {built : Bool} {record : TlvRecord}

/-- The key is derived from every record of the offer but the issuer id. -/
theorem mem_derivationRecords :
    record ∈ self.derivationRecords ↔
      record ∈ (self.keyedStream crypto nonce).write ∧ record.type ≠ offerIssuerIdType := by
  have hderivation := value_issuerId (self.toTlvStream none) none record.type
  have hkeyed := value_issuerId (self.toTlvStream none)
    (self.keyedStream crypto nonce).issuerId record.type
  rw [OfferContents.derivationRecords, OfferContents.keyedStream, mem_write_iff,
    mem_write_iff, hderivation]
  split
  next htype => simp [htype]
  next htype =>
    rw [if_neg htype] at hkeyed
    simp only [ne_eq, htype, not_false_eq_true, and_true]
    rw [← hkeyed]
    rfl

variable {crypto nonce}

theorem issuerId_of_mem_keyedStream (h : record.type = offerIssuerIdType) :
    record ∈ (self.keyedStream crypto nonce).write ↔
      (self.keyedStream crypto nonce).issuerId = some ⟨record.value, record.length_lt⟩ := by
  rw [mem_write_iff, h]
  rfl

variable (self crypto nonce) in
theorem exists_issuer_record :
    ∃ record ∈ (self.keyedStream crypto nonce).write, record.type = offerIssuerIdType :=
  ⟨⟨offerIssuerIdType, _, by decide,
    (crypto.publicKey (issuerKeys crypto nonce self.derivationRecords)).2⟩,
    mem_write_iff.mpr rfl, rfl⟩

theorem type_ne_of_mem_keyedStream (h : record ∈ (self.keyedStream crypto nonce).write) :
    record.type ≠ offerMetadataType := by
  intro htype
  rw [mem_write_iff, htype] at h
  cases h

variable (paths built) in
/-- The metadata record of a post-quantum offer does not enter into its id. -/
theorem withoutPqMetadata_derivedStream :
    withoutPqMetadata built (self.derivedStream built crypto nonce paths).write =
      (self.keyedStream crypto nonce).write := by
  cases built with
  | false => rfl
  | true =>
    refine (Ascending.filter (ascending_write _) _).eq_of_mem_iff
      (ascending_write _) fun record => ?_
    have hstream : (self.derivedStream true crypto nonce paths).value record.type =
        if record.type = offerMetadataType then
          some (offerPqMetadata (crypto.mlDsaPublicKey (recoverOfferPqSeed crypto nonce)) paths)
        else (self.keyedStream crypto nonce).value record.type :=
      value_metadata (self.keyedStream crypto nonce) _ _
    rw [mem_filter, mem_write_iff, mem_write_iff, hstream,
      Bool.not_eq_true', decide_eq_false_iff_not]
    split
    next htype =>
      have hnone : (self.keyedStream crypto nonce).value record.type = none := by
        rw [htype]
        rfl
      rw [hnone]
      constructor
      · rintro ⟨hvalue, hnot⟩
        refine absurd ⟨htype, ?_⟩ hnot
        have hbytes := congrArg Subtype.val (Option.some.inj hvalue)
        simp only at hbytes
        exact hbytes ▸ isOfferPqMetadataValue_offerMetadataValue _ _
      · intro h
        cases h
    next htype => simp [IsOfferPqMetadataRecord, htype]

theorem parseOfferPqPubkey_derivedStream {pubkey : Bytes Gossip.pqPublicKeyLen}
    (h : parseOfferPqPubkey (self.derivedStream built crypto nonce paths).write = some pubkey) :
    crypto.mlDsaPublicKey (recoverOfferPqSeed crypto nonce) = pubkey := by
  have hasc := (self.derivedStream built crypto nonce paths).ascending_write
  cases built with
  | false =>
    have hnone : findField offerMetadataType
        (self.derivedStream false crypto nonce paths).write = none := by
      rw [findField_eq_none_iff]
      exact fun record hmem => type_ne_of_mem_keyedStream hmem
    rw [parseOfferPqPubkey, findOfferPqMetadata, hnone] at h
    cases h
  | true =>
    have hsome : findField offerMetadataType (self.derivedStream true crypto nonce paths).write =
        some (offerPqMetadata (crypto.mlDsaPublicKey (recoverOfferPqSeed crypto nonce)) paths) := by
      rw [findField_eq_some_iff hasc]
      exact ⟨⟨offerMetadataType, _, by decide, (offerPqMetadata _ paths).2⟩,
        mem_write_iff.mpr rfl, rfl, rfl⟩
    rw [parseOfferPqPubkey_value hsome] at h
    exact Option.some.inj h

/-- **A request that derives the offer's key** and has its issuer id has the records of the offer's
id, unless it has a metadata record of another format. -/
theorem offerTlvStreamIter_eq {postQuantum : Bool} (h : Ascending records)
    (hverified : verifiedRecords (.recipientData nonce) records = self.derivationRecords)
    (hissuer : findField offerIssuerIdType records = (self.keyedStream crypto nonce).issuerId)
    (hmetadata : ∀ record ∈ records, record.type = offerMetadataType →
      postQuantum = true ∧ IsOfferPqMetadataRecord record) :
    offerTlvStreamIter postQuantum records = (self.keyedStream crypto nonce).write := by
  refine (ascending_offerTlvStreamIter h).eq_of_mem_iff (ascending_write _) fun record => ?_
  have hrest : record.type ≠ offerMetadataType → record.type ≠ offerIssuerIdType →
      (record ∈ offerTlvStreamIter postQuantum records ↔
        record ∈ (self.keyedStream crypto nonce).write) := by
    intro hne hne'
    have hpq : ¬ (postQuantum = true ∧ IsOfferPqMetadataRecord record) := fun hpq => hne hpq.2.1
    rw [← and_iff_left (a := record ∈ (self.keyedStream crypto nonce).write) hne',
      ← mem_derivationRecords, ← hverified, mem_verifiedRecords h, mem_offerTlvStreamIter h]
    simp [hpq, hne, hne']
  by_cases htype : record.type = offerMetadataType
  · -- a metadata record is left out on both sides
    refine iff_of_false (fun hmem => ?_) fun hmem => type_ne_of_mem_keyedStream hmem htype
    obtain ⟨hmem, hkept⟩ := (mem_offerTlvStreamIter h).mp hmem
    rcases hkept with ⟨-, hnot⟩ | ⟨hstart, -⟩
    · exact hnot (hmetadata record hmem htype)
    · rw [htype] at hstart
      exact absurd hstart (by decide)
  · by_cases htype' : record.type = offerIssuerIdType
    · -- the issuer id is that of the offer
      have hrange : IsOfferType record.type := by
        rw [htype']
        exact ⟨by decide, by decide⟩
      have hpq : ¬ (postQuantum = true ∧ IsOfferPqMetadataRecord record) := fun hpq => htype hpq.2.1
      rw [issuerId_of_mem_keyedStream htype', ← hissuer, ← htype', findField_type_eq_some_iff h,
        mem_offerTlvStreamIter h]
      exact and_iff_left (.inl ⟨hrange, hpq⟩)
    · exact hrest htype htype'

end

/-! ### The request of a payer -/

/-- The records of a request for an offer without experimental records: behind one another, the
payer's, those of the offer, those of the request, the signature, and the experimental ones. -/
def requestRecords (stream : PartialInvoiceRequestTlvStream) (offerRecords : List TlvRecord)
    (signature : Value) : List TlvRecord :=
  stream.writePayer ++ (offerRecords ++ (stream.invoiceRequest.write ++
    (signatureRecord signature :: stream.writeExperimental)))

section

variable {stream : PartialInvoiceRequestTlvStream} {offerRecords : List TlvRecord}
  {signature : Value}
  {record : TlvRecord}

theorem mem_requestRecords (h : IsOfferType record.type ∨ IsExperimentalOfferType record.type) :
    record ∈ requestRecords stream offerRecords signature ↔ record ∈ offerRecords := by
  simp only [IsOfferType, IsExperimentalOfferType, offerSpec, experimentalOfferSpec] at h
  rw [requestRecords]
  simp only [mem_append, mem_cons]
  constructor
  · rintro (hmem | hmem | hmem | hmem | hmem)
    · have := stream.within_writePayer.bounds record hmem
      omega
    · exact hmem
    · have := stream.invoiceRequest.within_write.bounds record hmem
      omega
    · have : record.type = 240 := hmem ▸ rfl
      omega
    · have := stream.within_writeExperimental.bounds record hmem
      omega
  · exact fun hmem => .inr (.inl hmem)

theorem ascending_requestRecords (h : Within 1 80 offerRecords) :
    Ascending (requestRecords stream offerRecords signature) := by
  have hsignature : Within 160 241 [signatureRecord signature] := by
    refine ⟨pairwise_singleton _ _, fun record hmem => ?_⟩
    rw [mem_singleton.mp hmem]
    exact (by decide : 160 ≤ 240 ∧ 240 < 241)
  have htail := hsignature.append (stream.within_writeExperimental.mono (by decide) le_rfl)
    (by decide) (by decide)
  have hrequest := stream.invoiceRequest.within_write.append htail (by decide) (by decide)
  exact (stream.within_writePayer.append (h.append hrequest (by decide) (by decide)) (by decide)
    (by decide)).ascending

end

section

variable {Hash : Type} [LinearOrder Hash] {hashes : MessageHashes Hash} {Digest : Type}
  {crypto : OfferCrypto Digest} {self : OfferContents} {nonce : Nonce} {paths : PathList}
    {built : Bool}

theorem isOfferType_of_mem_derivedStream {record : TlvRecord}
    (h : record ∈ (self.derivedStream built crypto nonce paths).write) : IsOfferType record.type :=
  type_lt_of_mem_write h

theorem mem_derivedStream_of_type_ne {record : TlvRecord} (h : record.type ≠ offerMetadataType) :
    record ∈ (self.derivedStream built crypto nonce paths).write ↔
      record ∈ (self.keyedStream crypto nonce).write := by
  rw [← withoutPqMetadata_derivedStream paths built, mem_withoutPqMetadata]
  exact (and_iff_left fun hpq => h hpq.2.1).symm

theorem ascending_payerRecords {payerFeature : Bool} {stream : PartialInvoiceRequestTlvStream}
    {signature : Value} :
    Ascending (requestRecords stream (withoutPqMetadata payerFeature
      (self.derivedStream built crypto nonce paths).write) signature) := by
  refine ascending_requestRecords ⟨?_, fun record hmem =>
    isOfferType_of_mem_derivedStream (mem_withoutPqMetadata.mp hmem).1⟩
  rw [withoutPqMetadata]
  split
  · exact Ascending.filter (ascending_write _) _
  · exact ascending_write _

variable (hashes) in
/-- An offer with a derived key is always built. -/
theorem exists_buildWithoutChecks
    (hmetadata : self.metadata = some (.derivedSigningPubkey (.new crypto nonce none)))
    (hpaths : self.paths = some paths) :
    ∃ offer, self.buildWithoutChecks hashes built crypto = .ok offer ∧
      offer.contents.issuerSigningPubkey = (self.keyedStream crypto nonce).issuerId ∧
      taggedHash hashes offerIdTag (self.keyedStream crypto nonce).write = .ok offer.id := by
  obtain ⟨issuer, hmem, htype⟩ := exists_issuer_record crypto self nonce
  obtain ⟨id, hid⟩ := exists_taggedHash hashes offerIdTag hmem (by rw [htype]; decide)
  refine ⟨⟨(self.derivedStream built crypto nonce paths).write,
    self.derivedContents built crypto nonce paths, id⟩, ?_, rfl, hid⟩
  rw [buildWithoutChecks_derived hmetadata hpaths, offerIdFromValidOfferTlvStream,
    withoutPqMetadata_derivedStream, hid]
  rfl

/-- **A request that derives the offer's key** and has its issuer id is verified. -/
theorem exists_verified {postQuantum : Bool} {request : InvoiceRequest}
    (hasc : Ascending request.records)
    (hverified : verifiedRecords (.recipientData nonce) request.records = self.derivationRecords)
    (hissuer : request.contents.inner.offer.issuerSigningPubkey =
      (self.keyedStream crypto nonce).issuerId)
    (hmem : ∀ record ∈ (self.keyedStream crypto nonce).write, record.type = offerIssuerIdType →
      record ∈ request.records) :
    ∃ verified, request.verifyUsingRecipientData hashes postQuantum crypto nonce =
      .ok (some verified) := by
  -- the issuer id is among the records of which the id is computed
  obtain ⟨issuer, hin, htype⟩ := exists_issuer_record crypto self nonce
  have hne : issuer.type ≠ offerMetadataType := by rw [htype]; decide
  have hrange : IsOfferType issuer.type := type_lt_of_mem_write hin
  have hiter : issuer ∈ offerTlvStreamIter postQuantum request.records :=
    (mem_offerTlvStreamIter hasc).mpr
      ⟨hmem issuer hin htype, .inl ⟨hrange, fun hpq => hne hpq.2.1⟩⟩
  obtain ⟨id, hid⟩ := exists_taggedHash hashes offerIdTag hiter (by rw [htype]; decide)
  refine ⟨⟨id, request, some (issuerKeys crypto nonce self.derivationRecords),
    if postQuantum then some (recoverOfferPqSeed crypto nonce) else none⟩,
    InvoiceRequest.verifyUsingRecipientData_eq_some_iff.mpr ?_⟩
  rw [hverified]
  exact ⟨hissuer, hid, rfl, rfl, rfl⟩

/-- **The request of a payer** is verified: of a payer that leaves the post-quantum metadata out,
and of one that copies it. -/
theorem exists_verified_of_requestRecords {postQuantum payerFeature : Bool}
    {stream : PartialInvoiceRequestTlvStream} {signature : Value} {request : InvoiceRequest}
    (hrecords : request.records = requestRecords stream (withoutPqMetadata payerFeature
      (self.derivedStream built crypto nonce paths).write) signature)
    (hissuer : request.contents.inner.offer.issuerSigningPubkey =
      (self.keyedStream crypto nonce).issuerId) :
    ∃ verified, request.verifyUsingRecipientData hashes postQuantum crypto nonce =
      .ok (some verified) := by
  have hasc : Ascending request.records := by
    rw [hrecords]
    exact ascending_payerRecords
  have hmem : ∀ record : TlvRecord, record.type ≠ offerMetadataType →
      (record ∈ request.records ∧ (IsOfferType record.type ∨ IsExperimentalOfferType record.type) ↔
        record ∈ (self.keyedStream crypto nonce).write) := by
    intro record hne
    constructor
    · rintro ⟨hin, hrange⟩
      rw [hrecords, mem_requestRecords hrange] at hin
      exact (mem_derivedStream_of_type_ne hne).mp (mem_withoutPqMetadata.mp hin).1
    · intro hin
      have hrange : IsOfferType record.type := type_lt_of_mem_write hin
      refine ⟨?_, .inl hrange⟩
      rw [hrecords, mem_requestRecords (.inl hrange), mem_withoutPqMetadata]
      exact ⟨(mem_derivedStream_of_type_ne hne).mpr hin, fun hpq => hne hpq.2.1⟩
  have hverified : verifiedRecords (.recipientData nonce) request.records =
    self.derivationRecords := by
    refine (ascending_verifiedRecords hasc _).eq_of_mem_iff (ascending_write _) fun record => ?_
    rw [mem_verifiedRecords hasc, mem_derivationRecords crypto nonce]
    constructor
    · rintro ⟨hin, ⟨hrange, hne, hne'⟩ | hrange⟩
      · exact ⟨(hmem record hne).mp ⟨hin, .inl hrange⟩, hne'⟩
      · have hstart : 1000000000 ≤ record.type := hrange.1
        have hne : record.type ≠ offerMetadataType := by
          rw [offerMetadataType]
          omega
        refine ⟨(hmem record hne).mp ⟨hin, .inr hrange⟩, ?_⟩
        rw [offerIssuerIdType]
        omega
    · rintro ⟨hin, hne'⟩
      have hne := type_ne_of_mem_keyedStream hin
      exact ⟨((hmem record hne).mpr hin).1, .inl ⟨type_lt_of_mem_write hin, hne, hne'⟩⟩
  refine exists_verified hasc hverified hissuer fun record hin htype => ?_
  exact ((hmem record (by rw [htype]; decide)).mpr hin).1

/-- Everything in an offer with a derived key is in the first range. -/
theorem range_derivedStream :
    range offerSpec.start offerSpec.stop (self.derivedStream built crypto nonce paths).write =
      (self.derivedStream built crypto nonce paths).write := by
  rw [range_eq_filter (ascending_write _), filter_eq_self]
  exact fun record hmem => decide_eq_true (isOfferType_of_mem_derivedStream hmem)

theorem records_sign {payerFeature : Bool} {payer : Offer Hash} {contents : InvoiceRequestContents}
    {unsigned : UnsignedInvoiceRequest Hash} (signature : Value)
    (hpayer : payer.records = (self.derivedStream built crypto nonce paths).write)
    (h : UnsignedInvoiceRequest.new hashes payerFeature payer contents = .ok unsigned) :
    ∃ stream, (unsigned.sign signature).records = requestRecords stream
      (withoutPqMetadata payerFeature (self.derivedStream built crypto nonce paths).write)
        signature := by
  obtain ⟨stream, -, -, hrecords, hexperimental⟩ := UnsignedInvoiceRequest.new_eq_ok h
  refine ⟨stream, ?_⟩
  rw [hpayer, range_derivedStream] at hrecords hexperimental
  rw [drop_length] at hexperimental
  rw [UnsignedInvoiceRequest.sign, hrecords, hexperimental, requestRecords]
  simp [range]

theorem findField_issuerId (h : Ascending records)
    (hmem : ∀ record ∈ (self.keyedStream crypto nonce).write, record.type = offerIssuerIdType →
      record ∈ records) :
    findField offerIssuerIdType records = (self.keyedStream crypto nonce).issuerId := by
  obtain ⟨record, hrecord, htype⟩ := exists_issuer_record crypto self nonce
  rw [(issuerId_of_mem_keyedStream htype).mp hrecord, findField_eq_some_iff h]
  exact ⟨record, hmem record hrecord htype, htype, rfl⟩

/-! ### Verified requests -/

section

variable {offer : Offer Hash}
  (hmetadata : self.metadata = some (.derivedSigningPubkey (.new crypto nonce none)))
  (hpaths : self.paths = some paths)
  (hoffer : self.buildWithoutChecks hashes built crypto = .ok offer)

include hmetadata hpaths hoffer

theorem exists_id_of_buildWithoutChecks :
    ∃ id, taggedHash hashes offerIdTag (self.keyedStream crypto nonce).write = .ok id ∧
      offer = ⟨(self.derivedStream built crypto nonce paths).write,
        self.derivedContents built crypto nonce paths, id⟩ := by
  rw [buildWithoutChecks_derived hmetadata hpaths] at hoffer
  obtain ⟨id, hid, rfl⟩ := map_eq_ok.mp hoffer
  rw [offerIdFromValidOfferTlvStream, withoutPqMetadata_derivedStream] at hid
  exact ⟨id, hid, rfl⟩

section

variable {reading : RequestReading Hash} {bytes : List UInt8} {postQuantum : Bool}
  {request : InvoiceRequest} {verified : VerifiedInvoiceRequest Digest Hash}
  (hread : tryFrom hashes reading bytes = .ok (some request))
  (hverify : request.verifyUsingRecipientData hashes postQuantum crypto nonce = .ok (some verified))

include hread hverify

/-- A metadata record that is not left out of the id is in the hash of the request, and not in that
of the offer. -/
theorem metadata_of_offerId_eq (hfree : hashes.Free)
    (htag : Function.Injective (hashes.tagged offerIdTag)) (hname : verified.offerId = offer.id) :
    ∀ record ∈ request.records, record.type = offerMetadataType →
      postQuantum = true ∧ IsOfferPqMetadataRecord record := by
  obtain ⟨id, hid, rfl⟩ := exists_id_of_buildWithoutChecks hmetadata hpaths hoffer
  obtain ⟨-, hasc, -⟩ := tryFrom_eq_some hread
  obtain ⟨-, hverifiedId, -⟩ := InvoiceRequest.verifyUsingRecipientData_eq_some_iff.mp hverify
  intro record hmem htype
  by_contra hkept
  have hiter : record ∈ offerTlvStreamIter postQuantum request.records := by
    refine (mem_offerTlvStreamIter hasc).mpr ⟨hmem, .inl ⟨?_, hkept⟩⟩
    rw [htype]
    exact ⟨by decide, by decide⟩
  rw [hname] at hverifiedId
  exact type_ne_of_mem_keyedStream (mem_of_taggedHash_eq hfree htag hverifiedId hid hiter
    (by rw [htype]; decide)) htype

/-- Without such a record the id, the keys and the seed are those of the offer. -/
theorem names_of_metadata (hderives : crypto.DerivesOnce (self.derivationInput nonce))
    (hsame : request.contents.inner.offer.issuerSigningPubkey = offer.contents.issuerSigningPubkey)
    (hformat : ∀ record ∈ request.records, record.type = offerMetadataType →
      postQuantum = true ∧ IsOfferPqMetadataRecord record) :
    verified.offerId = offer.id ∧
      (∃ keys, verified.keys = some keys ∧
        offer.contents.issuerSigningPubkey = some (crypto.publicKey keys)) ∧
      ∀ seed ∈ verified.pqSeed, ∀ pubkey ∈ offer.issuerPqId,
        crypto.mlDsaPublicKey seed = pubkey := by
  obtain ⟨id, hid, rfl⟩ := exists_id_of_buildWithoutChecks hmetadata hpaths hoffer
  obtain ⟨-, hasc, hissuer⟩ := tryFrom_eq_some hread
  obtain ⟨hsigning, hverifiedId, -, hkeys, hseed⟩ :=
    InvoiceRequest.verifyUsingRecipientData_eq_some_iff.mp hverify
  have hkey : (self.derivedContents built crypto nonce paths).issuerSigningPubkey =
      some (crypto.publicKey (issuerKeys crypto nonce self.derivationRecords)) := rfl
  have hverified := eq_derivationRecords hderives (Option.some.inj
    (hsigning.symm.trans (hsame.trans hkey)))
  have hiter := offerTlvStreamIter_eq hasc hverified (hissuer.symm.trans hsame) hformat
  rw [offerIdFromValidBolt12TlvStream, hiter, hid] at hverifiedId
  refine ⟨(Except.ok.inj hverifiedId).symm, ⟨_, hkeys, hkey.trans (by rw [hverified])⟩, ?_⟩
  intro seed hseedMem pubkey hpubkey
  rw [hseed] at hseedMem
  have hrecovered : recoverOfferPqSeed crypto nonce = seed := by
    cases postQuantum with
    | false => cases hseedMem
    | true => exact Option.some.inj hseedMem
  exact hrecovered ▸ parseOfferPqPubkey_derivedStream hpubkey

end

/-- **The request that a payer builds** from the offer is verified, as it is and when it was read.
-/
theorem exists_verified_of_buildInvoiceRequest {postQuantum payerFeature : Bool}
    {payerCrypto : OfferCrypto Digest} {fields : Fields} {semantics : OfferTlvStream → Bool}
    {payer : Offer Hash} {contents : InvoiceRequestContentsWithoutPayerSigningPubkey}
    {payerSigningPubkey : Option Value} {unsigned : UnsignedInvoiceRequest Hash}
    {keys : Option Digest} (signature : Value)
    (hread : Offer.tryFrom hashes payerFeature fields semantics (toBytes offer.records) =
      .ok (some payer)) (hcontents : contents.offer = payer.contents)
    (hbuild : buildInvoiceRequest hashes payerFeature payerCrypto payer contents
      payerSigningPubkey = .ok (unsigned, keys)) :
    (∃ verified, (unsigned.sign signature).verifyUsingRecipientData hashes postQuantum crypto
      nonce = .ok (some verified)) ∧
    ∀ (reading : RequestReading Hash) (request : InvoiceRequest),
      tryFrom hashes reading (toBytes (unsigned.sign signature).records) = .ok (some request) →
      ∃ verified, request.verifyUsingRecipientData hashes postQuantum crypto nonce =
        .ok (some verified) := by
  obtain ⟨id, -, rfl⟩ := exists_id_of_buildWithoutChecks hmetadata hpaths hoffer
  obtain ⟨hbytes, -, -, offerStream, offerPaths, hvalues, -, hofferContents, -⟩ :=
    Offer.tryFrom_eq_some hread
  have hpayer := toBytes_injective hbytes.symm
  obtain ⟨hrequested, hnew⟩ := buildInvoiceRequest_eq_ok hbuild
  obtain ⟨stream, hrecords⟩ := records_sign signature hpayer hnew
  have hissuer : (unsigned.sign signature).contents.inner.offer.issuerSigningPubkey =
      (self.keyedStream crypto nonce).issuerId := by
    have hvalue := hvalues offerIssuerIdType (by decide)
    rw [hpayer] at hvalue
    show unsigned.contents.inner.offer.issuerSigningPubkey = _
    rw [hrequested, hcontents, hofferContents]
    show offerStream.value offerIssuerIdType = _
    rw [hvalue]
    exact findField_issuerId (ascending_write _) fun record hmem htype =>
      (mem_derivedStream_of_type_ne (by rw [htype]; decide)).mpr hmem
  refine ⟨exists_verified_of_requestRecords hrecords hissuer, fun reading request hread => ?_⟩
  obtain ⟨hbytes', -, hissuer'⟩ := tryFrom_eq_some hread
  have hsame := (toBytes_injective hbytes').symm.trans hrecords
  refine exists_verified_of_requestRecords hsame (hissuer'.trans ?_)
  rw [hsame]
  refine findField_issuerId ascending_payerRecords fun record hmem htype => ?_
  have hne : record.type ≠ offerMetadataType := by rw [htype]; decide
  rw [mem_requestRecords (.inl (type_lt_of_mem_write hmem)), mem_withoutPqMetadata]
  exact ⟨(mem_derivedStream_of_type_ne hne).mpr hmem, fun hpq => hne hpq.2.1⟩

end

/-- **When a verified request names the offer.** -/
theorem verified_names_offer_iff (hfree : hashes.Free)
    (htag : Function.Injective (hashes.tagged offerIdTag))
    (hmetadata : self.metadata = some (.derivedSigningPubkey (.new crypto nonce none)))
    (hpaths : self.paths = some paths) (hderives : crypto.DerivesOnce (self.derivationInput nonce))
    {offer : Offer Hash} (hoffer : self.buildWithoutChecks hashes built crypto = .ok offer)
    (postQuantum : Bool) :
    (∀ (reading : RequestReading Hash) (bytes : List UInt8) (request : InvoiceRequest)
      (verified : VerifiedInvoiceRequest Digest Hash),
      tryFrom hashes reading bytes = .ok (some request) →
      request.verifyUsingRecipientData hashes postQuantum crypto nonce = .ok (some verified) →
      ((verified.offerId = offer.id ∧
        (∃ keys, verified.keys = some keys ∧
          offer.contents.issuerSigningPubkey = some (crypto.publicKey keys)) ∧
        ∀ seed ∈ verified.pqSeed, ∀ pubkey ∈ offer.issuerPqId, crypto.mlDsaPublicKey seed =
          pubkey) ↔
        request.contents.inner.offer.issuerSigningPubkey = offer.contents.issuerSigningPubkey ∧
        ∀ record ∈ request.records, record.type = offerMetadataType →
          postQuantum = true ∧ IsOfferPqMetadataRecord record)) ∧
    (∀ (payerFeature : Bool) (payerCrypto : OfferCrypto Digest) (fields : Fields)
      (semantics : OfferTlvStream → Bool) (payer : Offer Hash)
      (contents : InvoiceRequestContentsWithoutPayerSigningPubkey)
        (payerSigningPubkey : Option Value)
      (unsigned : UnsignedInvoiceRequest Hash) (keys : Option Digest) (signature : Value),
      Offer.tryFrom hashes payerFeature fields semantics (toBytes offer.records) =
        .ok (some payer) →
      contents.offer = payer.contents →
      buildInvoiceRequest hashes payerFeature payerCrypto payer contents payerSigningPubkey =
        .ok (unsigned, keys) →
      (∃ verified, (unsigned.sign signature).verifyUsingRecipientData hashes postQuantum crypto
        nonce = .ok (some verified)) ∧
      ∀ (reading : RequestReading Hash) (request : InvoiceRequest),
        tryFrom hashes reading (toBytes (unsigned.sign signature).records) = .ok (some request) →
        ∃ verified, request.verifyUsingRecipientData hashes postQuantum crypto nonce =
          .ok (some verified)) := by
  refine ⟨fun reading bytes request verified hread hverify => ⟨?_, ?_⟩, ?_⟩
  · rintro ⟨hname, ⟨keys, hkeysEq, hpublic⟩, -⟩
    obtain ⟨hsigning, -, -, hkeys, -⟩ :=
      InvoiceRequest.verifyUsingRecipientData_eq_some_iff.mp hverify
    obtain rfl := Option.some.inj (hkeys.symm.trans hkeysEq)
    exact ⟨hsigning.trans hpublic.symm,
      metadata_of_offerId_eq hmetadata hpaths hoffer hread hverify hfree htag hname⟩
  · rintro ⟨hsame, hformat⟩
    exact names_of_metadata hmetadata hpaths hoffer hread hverify hderives hsame hformat
  · intro payerFeature payerCrypto fields semantics payer contents payerSigningPubkey unsigned keys
      signature hread hcontents hbuild
    exact exists_verified_of_buildInvoiceRequest hmetadata hpaths hoffer signature hread hcontents
      hbuild

end

/-! ### An offer and two requests -/

/-- A derivation in which the keys are the inputs themselves, and payment ids are masked with a byte
of the nonce. -/
def plainCrypto : OfferCrypto (List UInt8) where
  hmacForOffer input := input
  cryptForOffer id nonce :=
    ⟨id.1.map (· ^^^ nonce.1.headD 0), by rw [length_map]; exact id.2⟩
  toByteArray input := constBytes 32 input.sum
  publicKey input := if h : input.length < 2 ^ 64 then ⟨input, h⟩ else .empty
  mlDsaPublicKey input := constBytes _ input.sum

theorem plainCrypto_cryptForOffer (id : PaymentId) (nonce : Nonce) :
    plainCrypto.cryptForOffer (plainCrypto.cryptForOffer id nonce) nonce = id :=
  Subtype.ext (by simp [plainCrypto, Function.comp_def, UInt8.xor_assoc])

theorem plainCrypto_derivesOnce {input : List UInt8} (hne : input ≠ [])
    (h : input.length < 2 ^ 64) : plainCrypto.DerivesOnce input := by
  intro input' heq
  simp only [plainCrypto, dif_pos h] at heq
  split at heq
  · exact congrArg Subtype.val heq
  · exact absurd (congrArg Subtype.val heq).symm hne

/-- Hashes without collisions, under which a root is its own tagged hash. -/
def plainHashes : MessageHashes ℕ := { natHashes with tagged := fun _ root => root }

def plainKey : PublicKey := ⟨2 :: List.replicate 32 0, by decide⟩

def plainPaths : PathList where
  paths := [⟨⟨.nodeId plainKey, plainKey, [⟨plainKey, .empty⟩], by decide, by decide⟩,
    none⟩]
  size_lt := by decide

def plainNonce : Nonce := constBytes 16 9

/-- The contents of an offer with one path and nothing else. -/
def plainContents : OfferContents where
  chains := none
  metadata := some (.derivedSigningPubkey (.new plainCrypto plainNonce none))
  currency := none
  amount := none
  description := none
  features := .empty
  absoluteExpiry := none
  paths := some plainPaths
  issuer := none
  quantityMax := none
  issuerSigningPubkey := some ⟨plainKey.1, by decide⟩

theorem plainContents_derivesOnce :
    plainCrypto.DerivesOnce (plainContents.derivationInput plainNonce) :=
  plainCrypto_derivesOnce (by decide +kernel) (by decide +kernel)

/-- 1000 msat -/
def plainAmount : Value := ⟨[3, 232], by decide⟩

variable (metadata : Option Value)

/-- The streams of a request for the offer, with a metadata record or without. -/
def plainStream : PartialInvoiceRequestTlvStream where
  payerMetadata := some .empty
  offer := { plainContents.keyedStream plainCrypto plainNonce with metadata }
  invoiceRequest := ⟨none, some plainAmount, none, none, some ⟨plainKey.1, by decide⟩, none, none,
    none⟩
  pqKemCts := none

/-- The sizes of the fields: numbers have at most eight bytes and no leading zeros, chains and
hashes have 32 bytes. Keys are not empty; they have any length, as those of `plainCrypto` do. -/
def plainFields (type : ℕ) (value : Value) : Bool :=
  match type with
  | 8 | 14 | 20 | 82 | 86 | 164 | 166 | 170 => value.1.length ≤ 8 && value.1.head? != some 0
  | 80 | 168 => value.1.length = 32
  | 22 | 88 | 176 => !value.1.isEmpty
  | _ => true

def number (value : Value) : ℕ := value.1.foldl (fun n byte => 256 * n + byte.toNat) 0

/-- The checks of `OfferContents` and `InvoiceRequestContents`, for a node on one chain that offers
in bitcoin and by the piece. A signature repeats the key it is made with. -/
def plainReading : RequestReading ℕ where
  fields := plainFields
  offerSemantics stream :=
    stream.currency.isNone && stream.quantityMax.isNone &&
      stream.amount.all (fun amount =>
        0 < number amount ∧ number amount ≤ totalBitcoinSupplySatoshis * 1000) &&
      (stream.amount.isNone || stream.description.isSome)
  semantics stream :=
    stream.offer.chains.isNone && stream.invoiceRequest.chain.isNone &&
      stream.invoiceRequest.quantity.isNone &&
      (stream.offer.amount.isSome || stream.invoiceRequest.amount.isSome) &&
      stream.invoiceRequest.amount.all fun amount =>
        (stream.offer.amount.map number).getD 0 ≤ number amount ∧
          number amount ≤ totalBitcoinSupplySatoshis * 1000
  verifySignature signature _ key := signature = key

def plainRecords : List TlvRecord :=
  requestRecords (plainStream metadata) (plainStream metadata).offer.write ⟨plainKey.1, by decide⟩

set_option maxRecDepth 4000 in
theorem readStreams_plainRecords :
    readStreams plainReading.fields requestSpecs (plainRecords metadata) =
      some [(plainStream metadata).writePayer, (plainStream metadata).offer.write,
        (plainStream metadata).invoiceRequest.write, [signatureRecord ⟨plainKey.1, by decide⟩], [],
          []] := by
  cases metadata <;> rfl

theorem read_plainRecords :
    PartialInvoiceRequestTlvStream.read (plainStream metadata).writePayer
      (plainStream metadata).offer.write (plainStream metadata).invoiceRequest.write [] =
        some (plainStream metadata) := by
  rw [PartialInvoiceRequestTlvStream.read, read_write]
  rfl

def plainRequest : InvoiceRequest where
  records := plainRecords metadata
  contents := {
    inner := {
      payer := .bytes .empty
      offer := { plainContents.keyedContents plainCrypto plainNonce with
        metadata := metadata.map Metadata.bytes }
      chain := none
      amountMsats := some plainAmount
      features := .empty
      quantity := none
      payerNote := none
      offerFromHrn := none }
    payerSigningPubkey := ⟨plainKey.1, by decide⟩ }
  signature := ⟨plainKey.1, by decide⟩

theorem tryFrom_plainRecords :
    tryFrom plainHashes plainReading (toBytes (plainRecords metadata)) =
      .ok (some (plainRequest metadata)) := by
  have hpayer : (⟨0, [], by decide, by decide⟩ : TlvRecord) ∈ plainRecords metadata :=
    mem_append_left _ (mem_singleton_self _)
  obtain ⟨hash, hhash⟩ := exists_taggedHash plainHashes invoiceRequestSignatureTag hpayer
    (by decide)
  rw [tryFrom, tlvStream_toBytes]
  simp only [readStreams_plainRecords, read_plainRecords, hhash]
  rfl

theorem plainHashes_free : plainHashes.Free := natHashes_free

theorem ascending_plainRecords : Ascending (plainRecords metadata) :=
  ascending_requestRecords (within_write _)

theorem exists_verified_plainRequest :
    ∃ verified, (plainRequest metadata).verifyUsingRecipientData plainHashes true plainCrypto
      plainNonce = .ok (some verified) := by
  have hverified : verifiedRecords (.recipientData plainNonce) (plainRecords metadata) =
      plainContents.derivationRecords := by
    cases metadata <;> rfl
  refine exists_verified (ascending_plainRecords metadata) hverified rfl fun record hmem htype => ?_
  refine (mem_requestRecords (.inl (type_lt_of_mem_write hmem))).mpr ?_
  rw [mem_write_iff, htype] at hmem ⊢
  exact hmem

theorem exists_plainOffer :
    ∃ offer, plainContents.buildWithoutChecks plainHashes true plainCrypto = .ok offer ∧
      offer.contents.issuerSigningPubkey =
        (plainContents.keyedStream plainCrypto plainNonce).issuerId ∧
      taggedHash plainHashes offerIdTag (plainContents.keyedStream plainCrypto plainNonce).write =
        .ok offer.id :=
  exists_buildWithoutChecks plainHashes rfl rfl

/-- A request without a metadata record names the offer. -/
theorem plainRequest_names_offer :
    ∃ offer verified,
      plainContents.buildWithoutChecks plainHashes true plainCrypto = .ok offer ∧
      tryFrom plainHashes plainReading (toBytes (plainRecords none)) =
        .ok (some (plainRequest none)) ∧
      (plainRequest none).verifyUsingRecipientData plainHashes true plainCrypto plainNonce =
        .ok (some verified) ∧ verified.offerId = offer.id := by
  obtain ⟨offer, hbuild, hissuer, -⟩ := exists_plainOffer
  obtain ⟨verified, hverify⟩ := exists_verified_plainRequest none
  have hnames := (verified_names_offer_iff plainHashes_free (fun _ _ h => h) rfl rfl
    plainContents_derivesOnce hbuild true).1 plainReading _ _ verified
      (tryFrom_plainRecords none) hverify
  refine ⟨offer, verified, hbuild, tryFrom_plainRecords none, hverify,
    (hnames.mpr ⟨hissuer.symm, fun record hmem htype => ?_⟩).1⟩
  have hrange : IsOfferType record.type := htype ▸ ⟨by decide, by decide⟩
  have hin : record ∈ (plainStream none).offer.write := (mem_requestRecords (.inl hrange)).mp hmem
  rw [mem_write_iff, htype] at hin
  cases hin

/-- A request for the offer to which the payer has added a metadata record. It is read, it has the
issuer id of the offer and it is verified with the nonce of the offer, but the id that verification
returns is not that of the offer. -/
theorem added_metadata_names_no_offer :
    ∃ offer verified,
      plainContents.buildWithoutChecks plainHashes true plainCrypto = .ok offer ∧
      tryFrom plainHashes plainReading
        (toBytes (plainRecords (some ⟨[7], by decide⟩))) =
          .ok (some (plainRequest (some ⟨[7], by decide⟩))) ∧
      (plainRequest (some ⟨[7], by decide⟩)).contents.inner.offer.issuerSigningPubkey =
        offer.contents.issuerSigningPubkey ∧
      (plainRequest (some ⟨[7], by decide⟩)).verifyUsingRecipientData plainHashes true plainCrypto
        plainNonce = .ok (some verified) ∧ verified.offerId ≠ offer.id := by
  obtain ⟨offer, hbuild, hissuer, hid⟩ := exists_plainOffer
  obtain ⟨verified, hverify⟩ := exists_verified_plainRequest (some ⟨[7], by decide⟩)
  refine ⟨offer, verified, hbuild, tryFrom_plainRecords _, hissuer.symm, hverify, fun hname => ?_⟩
  obtain ⟨-, hverifiedId, -⟩ := InvoiceRequest.verifyUsingRecipientData_eq_some_iff.mp hverify
  rw [hname] at hverifiedId
  -- the added record is hashed into the id of the request but not into that of the offer
  let added : TlvRecord := ⟨offerMetadataType, [7], by decide, by decide⟩
  have hadded : added ∈ plainRecords (some ⟨[7], by decide⟩) :=
    (mem_requestRecords (.inl ⟨by decide, by decide⟩)).mpr (mem_write_iff.mpr rfl)
  have hiter : added ∈ offerTlvStreamIter true (plainRecords (some ⟨[7], by decide⟩)) :=
    (mem_offerTlvStreamIter (ascending_plainRecords _)).mpr
      ⟨hadded, .inl ⟨⟨by decide, by decide⟩, by decide⟩⟩
  exact type_ne_of_mem_keyedStream
    (mem_of_taggedHash_eq plainHashes_free (fun _ _ h => h) hverifiedId hid
    hiter (by decide)) rfl

end PqLightning.Offers
