import PqLightning.Offers.Pq

/-!
# Post-quantum records in bytes

The functions of `offers/pq.rs` walk over the records of a byte string, to its end or to the first
one that cannot be read. In a well-formed stream the walk visits its records, and the metadata of an
offer are spliced in between two of them. On the bytes of a stream the functions do what those of
`Offers.Pq` do on its records.
-/

namespace PqLightning.Offers.PqBytes

open Reader List Option
open Gossip (Bytes constBytes pqPublicKeyLen)

variable (bytes value : List UInt8) (recordType : ℕ) (pubkey : Bytes pqPublicKeyLen)
  (cts : List (ℕ × Bytes pqKemCtLen))

/-- The records that a loop over the bytes visits. -/
def walk : List TlvRecord := many readRecord bytes.length bytes

def appendRecord : List UInt8 := writeBigSize recordType ++ writeBigSize value.length ++ value

def findRecord : Option (List UInt8) :=
  ((walk bytes).find? fun record => record.type = recordType).map TlvRecord.value

def pqInsertOffsetFrom : ℕ → List UInt8 → ℕ
  | 0, bytes => bytes.length
  | fuel + 1, bytes => match readRecord bytes with
    | none => bytes.length
    | some (record, rest) =>
      if recordType < record.type then 0
      else record.recordBytes.length + pqInsertOffsetFrom fuel rest

def pqInsertOffset : ℕ := pqInsertOffsetFrom recordType bytes.length bytes

/-- `bytes.splice(offset..offset, ..)` at the place for a type. -/
def spliceAt (inserted : List UInt8) : List UInt8 :=
  let offset := pqInsertOffset bytes recordType
  bytes.take offset ++ inserted ++ bytes.drop offset

/-! ### Offers -/

/-- The bytes afterwards, and the value if a record was inserted. -/
def insertOfferPqMetadata : List UInt8 × Option (List UInt8) :=
  if (findRecord bytes offerMetadataType).isSome then (bytes, none)
  else
    let value := offerMetadataValue pubkey cts
    (spliceAt bytes offerMetadataType (appendRecord value offerMetadataType), some value)

def findOfferPqMetadata : Option (List UInt8) :=
  (findRecord bytes offerMetadataType).bind offerPqPayload

def parseOfferPqKemCts : List (ℕ × Bytes pqKemCtLen) :=
  (findOfferPqMetadata bytes).elim [] fun payload => parsePqKemCts (payload.drop pqPublicKeyLen)

def parseOfferPqPubkey : Option (Bytes pqPublicKeyLen) :=
  (findOfferPqMetadata bytes).bind (sliceAt 0 pqPublicKeyLen)

/-! ### Well-formed streams -/

variable {recordType : ℕ} {records : List TlvRecord}

theorem walk_toBytes (records : List TlvRecord) : walk (toBytes records) = records :=
  many_flatMap (fun _ _ _ => readRecord_eq_some_iff.mpr rfl) rfl
    (length_le_length_flatMap fun record _ => record.recordBytes_ne_nil)

theorem toBytes_append (a b : List TlvRecord) : toBytes (a ++ b) = toBytes a ++ toBytes b :=
  flatMap_append

theorem appendRecord_eq (record : TlvRecord) :
    appendRecord record.value record.type = toBytes [record] :=
  (append_nil _).symm

theorem pqInsertOffsetFrom_toBytes {fuel : ℕ} (hfuel : records.length ≤ fuel) :
    pqInsertOffsetFrom recordType fuel (toBytes records) =
      (toBytes (records.takeWhile fun r => r.type ≤ recordType)).length := by
  induction records generalizing fuel with
  | nil => cases fuel <;> rfl
  | cons record records ih =>
    match fuel, hfuel with
    | fuel + 1, hfuel =>
      have hread : readRecord (toBytes (record :: records)) = some (record, toBytes records) :=
        readRecord_eq_some_iff.mpr rfl
      rw [pqInsertOffsetFrom, hread]
      dsimp only
      by_cases hle : record.type ≤ recordType
      · rw [if_neg (by omega), ih (by simpa using hfuel),
          takeWhile_cons_of_pos (by simpa using hle)]
        exact length_append.symm
      · rw [if_pos (by omega), takeWhile_cons_of_neg (by simpa using hle)]
        rfl

/-- What is inserted comes to stand between two records. -/
theorem spliceAt_toBytes (inserted : List TlvRecord) :
    spliceAt (toBytes records) recordType (toBytes inserted) =
      toBytes ((records.takeWhile fun r => r.type ≤ recordType) ++
        (inserted ++ records.dropWhile fun r => r.type ≤ recordType)) := by
  have hoffset : pqInsertOffset (toBytes records) recordType = _ :=
    pqInsertOffsetFrom_toBytes (length_le_length_flatMap fun record _ => record.recordBytes_ne_nil)
  have hsplit := congrArg toBytes
    (takeWhile_append_dropWhile (p := fun r => decide (r.type ≤ recordType)) (l := records))
  rw [toBytes_append] at hsplit
  simp only [spliceAt, hoffset, toBytes_append]
  rw [← hsplit, take_left, drop_left, append_assoc]

theorem findRecord_toBytes (records : List TlvRecord) (recordType : ℕ) :
    findRecord (toBytes records) recordType = (findField recordType records).map Subtype.val := by
  rw [findRecord, walk_toBytes, findField, Option.map_map]
  rfl

theorem findRecord_toBytes_eq_none :
    findRecord (toBytes records) recordType = none ↔ ∀ r ∈ records, r.type ≠ recordType := by
  rw [findRecord, walk_toBytes, map_eq_none_iff, find?_eq_none]
  simp

/-! ### Bytes and records -/

theorem findOfferPqMetadata_toBytes (records : List TlvRecord) :
    findOfferPqMetadata (toBytes records) = Offers.findOfferPqMetadata records := by
  rw [findOfferPqMetadata, findRecord_toBytes, Option.bind_map]
  rfl

theorem parseOfferPqKemCts_toBytes (records : List TlvRecord) :
    parseOfferPqKemCts (toBytes records) = Offers.parseOfferPqKemCts records := by
  rw [parseOfferPqKemCts, findOfferPqMetadata_toBytes]
  rfl

theorem parseOfferPqPubkey_toBytes (records : List TlvRecord) :
    parseOfferPqPubkey (toBytes records) = Offers.parseOfferPqPubkey records := by
  rw [parseOfferPqPubkey, findOfferPqMetadata_toBytes]
  rfl

/-- **Inserting the metadata** into the bytes inserts them into the records. -/
theorem insertOfferPqMetadata_toBytes (records : List TlvRecord) (paths : PathList) :
    insertOfferPqMetadata (toBytes records) pubkey (kemCts paths.paths) =
      (Offers.insertOfferPqMetadata records pubkey paths).elim (toBytes records, none)
        fun (inserted, value) => (toBytes inserted, some value.1) := by
  rw [insertOfferPqMetadata, findRecord_toBytes, Offers.insertOfferPqMetadata]
  cases findField offerMetadataType records with
  | some value => rfl
  | none =>
    let value := offerPqMetadata pubkey paths
    let record : TlvRecord := ⟨offerMetadataType, value.1, by decide, value.2⟩
    have hsplice : spliceAt (toBytes records) offerMetadataType
        (appendRecord value.1 offerMetadataType) = toBytes (insertRecord record records) := by
      rw [show appendRecord value.1 offerMetadataType = toBytes [record] from
        appendRecord_eq record, spliceAt_toBytes]
      rfl
    exact congrArg (·, some value.1) hsplice

/-! ### Round trips -/

/-- **An offer's post-quantum metadata** is inserted in order and read back, and without it the
offer is what it was. An offer that has metadata is left alone. -/
theorem insertOfferPqMetadata_roundTrip (records : List TlvRecord) (h : Ascending records)
    (pubkey : Bytes pqPublicKeyLen) (cts : List (ℕ × Bytes pqKemCtLen))
    (hindex : ∀ entry ∈ cts, entry.1 < 2 ^ 64)
    (hsize : (offerMetadataValue pubkey cts).length < 2 ^ 64) :
    ((∃ r ∈ records, r.type = offerMetadataType) →
      insertOfferPqMetadata (toBytes records) pubkey cts = (toBytes records, none)) ∧
    ((∀ r ∈ records, r.type ≠ offerMetadataType) → ∃ inserted : List TlvRecord,
      insertOfferPqMetadata (toBytes records) pubkey cts =
        (toBytes inserted, some (offerMetadataValue pubkey cts)) ∧
      Ascending inserted ∧
      inserted.filter (¬ IsOfferPqMetadataRecord ·) = records ∧
      parseOfferPqPubkey (toBytes inserted) = some pubkey ∧
      parseOfferPqKemCts (toBytes inserted) = cts) := by
  refine ⟨fun ⟨r, hr, htype⟩ => ?_, fun hnone => ?_⟩
  · have hsome : (findRecord (toBytes records) offerMetadataType).isSome := by
      rw [isSome_iff_ne_none, Ne, findRecord_toBytes_eq_none]
      exact fun hall => hall r hr htype
    rw [insertOfferPqMetadata, if_pos hsome]
  let record : TlvRecord := ⟨offerMetadataType, offerMetadataValue pubkey cts, by decide, hsize⟩
  have hascending : Ascending (insertRecord record records) := ascending_insertRecord h hnone
  have hfound : findField offerMetadataType (insertRecord record records) =
      some ⟨offerMetadataValue pubkey cts, hsize⟩ :=
    (findField_eq_some_iff hascending).mpr ⟨record, mem_insertRecord.mpr (.inl rfl), rfl, rfl⟩
  have hpayload : findOfferPqMetadata (toBytes (insertRecord record records)) =
      some (pubkey.1 ++ encodePqKemCts cts) := by
    rw [findOfferPqMetadata_toBytes, Offers.findOfferPqMetadata, hfound, bind_some,
      offerPqPayload_offerMetadataValue]
  refine ⟨insertRecord record records, ?_, hascending, ?_, ?_, ?_⟩
  · rw [insertOfferPqMetadata, findRecord_toBytes_eq_none.mpr hnone]
    simp only [isSome_none]
    rw [if_neg (by decide), appendRecord_eq record, spliceAt_toBytes]
    rfl
  · have hpq : IsOfferPqMetadataRecord record :=
      ⟨rfl, isOfferPqMetadataValue_offerMetadataValue pubkey cts⟩
    have hkeep : ∀ l ⊆ records, l.filter (¬ IsOfferPqMetadataRecord ·) = l := fun l hl =>
      filter_eq_self.mpr fun r hr => decide_eq_true fun hr' => hnone r (hl hr) hr'.1
    rw [insertRecord, filter_append, filter_cons_of_neg (by simpa using hpq),
      hkeep _ (takeWhile_subset _), hkeep _ (dropWhile_subset _), takeWhile_append_dropWhile]
  · rw [parseOfferPqPubkey, hpayload, bind_some, sliceAt_pubkey]
  · rw [parseOfferPqKemCts, hpayload, elim_some, drop_left' pubkey.2, parsePqKemCts_encode hindex]

/-- Two ciphertexts are put between a record of type 2 and one of type 10, and read back. Where a
record of type 4 is there, nothing changes. -/
theorem insertOfferPqMetadata_roundTrip_two :
    let key : Bytes pqPublicKeyLen := constBytes _ 3
    let cts : List (ℕ × Bytes pqKemCtLen) := [(0, constBytes _ 1), (2, constBytes _ 5)]
    let records := [smallRecord 2 (some 7), smallRecord 10 (some 1)]
    let taken := [smallRecord 2 (some 7), smallRecord 4 none, smallRecord 10 (some 1)]
    insertOfferPqMetadata (toBytes taken) key cts = (toBytes taken, none) ∧
    ∃ inserted, insertOfferPqMetadata (toBytes records) key cts =
        (toBytes inserted, some (offerMetadataValue key cts)) ∧
      Ascending inserted ∧ inserted.filter (¬ IsOfferPqMetadataRecord ·) = records ∧
      parseOfferPqPubkey (toBytes inserted) = some key ∧
      parseOfferPqKemCts (toBytes inserted) = cts := by
  intro key cts records taken
  have hsize : (offerMetadataValue key cts).length < 2 ^ 64 := by
    simp [offerMetadataValue, pqOfferMetadataMagic, encodePqKemCts, writeKemCt, key.2, cts,
      constBytes, writeBigSize]
    decide
  exact ⟨(insertOfferPqMetadata_roundTrip taken (by decide) key cts (by decide) hsize).1
    (by decide),
    (insertOfferPqMetadata_roundTrip records (by decide) key cts (by decide) hsize).2 (by decide)⟩

end PqLightning.Offers.PqBytes
