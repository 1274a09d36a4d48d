import PqLightning.Offers.Paths
import PqLightning.Offers.Signer

/-!
# Post-quantum carriers in offers and refunds

The ciphertexts of post-quantum blinded paths are not part of the encodings of the paths
(`Offers.Paths`); a message carries them beside the paths, as pairs of a path's index and its
ciphertext (`offers/pq.rs`). In an offer the pairs stand behind a magic prefix and the issuer's
ML-DSA public key, as the value of the offer's metadata record. A refund has a record of its own for
them.

The source works on the bytes of a stream; the definitions here work on its records, and
`Offers.PqBytes` shows that this is the same.
-/

namespace PqLightning.Offers

open Reader List BlindedMessagePath
open Gossip (Bytes pqPublicKeyLen)
open Crypto (ascii)

/-! ### Ciphertexts beside the paths -/

def kemCtsFrom : ℕ → List BlindedMessagePath → List (ℕ × Bytes pqKemCtLen)
  | _, [] => []
  | i, path :: paths => (path.kemCt.map fun ct => (i, ct)).toList ++ kemCtsFrom (i + 1) paths

variable (paths : List BlindedMessagePath)

/-- The pairs of a path's index and its ciphertext. -/
def kemCts : List (ℕ × Bytes pqKemCtLen) := kemCtsFrom 0 paths

def writeKemCt (entry : ℕ × Bytes pqKemCtLen) : List UInt8 := writeBigSize entry.1 ++ entry.2.1

def encodePqKemCts (cts : List (ℕ × Bytes pqKemCtLen)) : List UInt8 := cts.flatMap writeKemCt

def readKemCt : Read UInt8 (ℕ × Bytes pqKemCtLen) := fun l =>
  match andThen readBigSize (readExact pqKemCtLen) l with
  | none => none
  | some ((idx, ct), rest) =>
    if h : ct.length = pqKemCtLen then some ((idx, ⟨ct, h⟩), rest) else none

/-- `parse_refund_pq_kem_cts`: the pairs up to the first that cannot be read. -/
def parsePqKemCts (value : List UInt8) : List (ℕ × Bytes pqKemCtLen) :=
  many readKemCt value.length value

variable {entry : ℕ × Bytes pqKemCtLen}

theorem reads_readKemCt (h : entry.1 < 2 ^ 64) : Reads readKemCt (writeKemCt entry) entry := by
  intro tail
  have hindex : Reads readBigSize (writeBigSize entry.1) entry.1 :=
    fun tail => readBigSize_eq_some_iff.mpr ⟨h, rfl⟩
  rw [readKemCt, writeKemCt, hindex.andThen (reads_readExact entry.2.2) tail]
  exact dif_pos entry.2.2

/-- **The pairs are read back.** -/
theorem parsePqKemCts_encode {cts : List (ℕ × Bytes pqKemCtLen)}
    (h : ∀ entry ∈ cts, entry.1 < 2 ^ 64) : parsePqKemCts (encodePqKemCts cts) = cts := by
  refine many_flatMap (fun entry hmem => reads_readKemCt (h entry hmem)) rfl
    (length_le_length_flatMap fun entry _ => ?_)
  simp [writeKemCt, writeBigSize_ne_nil]

variable (pubkey : Bytes pqPublicKeyLen) (cts : List (ℕ × Bytes pqKemCtLen))

/-- `set_kem_ct`, for the pairs whose index is that of a path. -/
def attachKemCts : List BlindedMessagePath :=
  cts.foldl (fun paths entry => paths.modify entry.1 fun path =>
    { path with kemCt := some entry.2 })
    paths

/-- Ciphertexts change nothing else about the paths. -/
theorem map_path_attachKemCts : (attachKemCts paths cts).map path = paths.map path := by
  induction cts generalizing paths with
  | nil => rfl
  | cons entry cts ih =>
    rw [attachKemCts, foldl_cons, ← attachKemCts, ih]
    apply ext_getElem?
    intro i
    rw [getElem?_map, getElem?_map, getElem?_modify]
    cases paths[i]? with
    | none => rfl
    | some path => by_cases h : entry.1 = i <;> simp [h]

theorem writePaths_eq_of_map_path {paths paths' : List BlindedMessagePath}
    (h : paths.map path = paths'.map path) : writePaths paths = writePaths paths' := by
  have hflat : ∀ paths : List BlindedMessagePath,
      writePaths paths = (paths.map path).flatMap BlindedPath.write := by
    intro paths
    rw [writePaths, flatMap_map]
    rfl
  rw [hflat, hflat, h]

/-- Paths that fit into a message still do with ciphertexts. -/
theorem exists_pathList_attachKemCts (paths : PathList) (cts : List (ℕ × Bytes pqKemCtLen)) :
    ∃ list, pathList (attachKemCts paths.paths cts) = some list ∧ list.value = paths.value := by
  have hpath := map_path_attachKemCts paths.paths cts
  have hsize : ∀ paths : List BlindedMessagePath,
      (paths.map fun path => path.write.length + (pqKemCtLen + 9)) =
        (paths.map path).map fun path => path.write.length + (pqKemCtLen + 9) := by
    intro paths
    rw [map_map]
    rfl
  have hlt : ((attachKemCts paths.paths cts).map fun path =>
      path.write.length + (pqKemCtLen + 9)).sum < 2 ^ 62 := by
    rw [hsize, hpath, ← hsize]
    exact paths.size_lt
  exact ⟨⟨_, hlt⟩, dif_pos hlt, Subtype.ext (writePaths_eq_of_map_path hpath)⟩

/-! ### Room in a record -/

theorem length_writeBigSize_le (n : ℕ) : (writeBigSize n).length ≤ 9 := by
  rw [writeBigSize]
  split
  · simp
  · split
    · simp
    · split <;> simp

theorem length_encodePqKemCts_le (start : ℕ) (paths : List BlindedMessagePath) :
    (encodePqKemCts (kemCtsFrom start paths)).length ≤
      (paths.map fun path => path.write.length + (pqKemCtLen + 9)).sum := by
  induction paths generalizing start with
  | nil => simp [encodePqKemCts, kemCtsFrom]
  | cons path paths ih =>
    have ih := ih (start + 1)
    rw [encodePqKemCts] at ih ⊢
    rw [kemCtsFrom, flatMap_append, length_append, map_cons, sum_cons]
    have hentry : ((path.kemCt.map fun ct => (start, ct)).toList.flatMap writeKemCt).length ≤
        pqKemCtLen + 9 := by
      match path.kemCt with
      | none => simp
      | some ct =>
        have hindex := length_writeBigSize_le start
        have hlength := ct.2
        simp only [Option.map_some, Option.toList_some, flatMap_singleton, writeKemCt,
          length_append]
        omega
    omega

theorem PathList.length_encodePqKemCts_lt (self : PathList) :
    (encodePqKemCts (kemCts self.paths)).length < 2 ^ 62 :=
  lt_of_le_of_lt (length_encodePqKemCts_le 0 self.paths) self.size_lt

/-! ### The metadata of an offer -/

def offerMetadataType : ℕ := 4

def pqOfferMetadataMagic : List UInt8 := ascii "PQO1"

def IsOfferPqMetadataValue (value : List UInt8) : Prop :=
  4 + pqPublicKeyLen ≤ value.length ∧ value.take 4 = pqOfferMetadataMagic

instance (value : List UInt8) : Decidable (IsOfferPqMetadataValue value) :=
  inferInstanceAs (Decidable (_ ∧ _))

def IsOfferPqMetadataRecord (record : TlvRecord) : Prop :=
  record.type = offerMetadataType ∧ IsOfferPqMetadataValue record.value

instance (record : TlvRecord) : Decidable (IsOfferPqMetadataRecord record) :=
  inferInstanceAs (Decidable (_ ∧ _))

/-- The value that `insert_offer_pq_metadata` puts together. -/
def offerMetadataValue : List UInt8 := pqOfferMetadataMagic ++ (pubkey.1 ++ encodePqKemCts cts)

theorem isOfferPqMetadataValue_offerMetadataValue :
    IsOfferPqMetadataValue (offerMetadataValue pubkey cts) := by
  refine ⟨?_, take_left' (by decide)⟩
  rw [offerMetadataValue, length_append, length_append, pubkey.2]
  exact Nat.add_le_add_left (Nat.le_add_right _ _) 4

def offerPqMetadata (paths : PathList) : Value :=
  ⟨offerMetadataValue pubkey (kemCts paths.paths), by
    have hpubkey := pubkey.2
    have hcts := paths.length_encodePqKemCts_lt
    have hmagic : pqOfferMetadataMagic.length = 4 := by decide
    have hlen : pqPublicKeyLen = 1312 := rfl
    rw [offerMetadataValue, length_append, length_append]
    omega⟩

/-- What stands behind the magic of a value. -/
def offerPqPayload (value : List UInt8) : Option (List UInt8) :=
  if IsOfferPqMetadataValue value then some (value.drop pqOfferMetadataMagic.length) else none

theorem offerPqPayload_offerMetadataValue :
    offerPqPayload (offerMetadataValue pubkey cts) = some (pubkey.1 ++ encodePqKemCts cts) := by
  rw [offerPqPayload, if_pos (isOfferPqMetadataValue_offerMetadataValue pubkey cts),
    offerMetadataValue, drop_left]

theorem sliceAt_pubkey (rest : List UInt8) :
    sliceAt 0 pqPublicKeyLen (pubkey.1 ++ rest) = some pubkey := by
  rw [sliceAt, drop_zero, take_left' pubkey.2]
  exact dif_pos pubkey.2

/-- A record at the place that keeps the types going up: the splice at `pq_insert_offset`. -/
def insertRecord (record : TlvRecord) (records : List TlvRecord) : List TlvRecord :=
  (records.takeWhile fun r => r.type ≤ record.type) ++
    record :: records.dropWhile fun r => r.type ≤ record.type

variable (records : List TlvRecord)

def insertOfferPqMetadata (pubkey : Bytes pqPublicKeyLen)
    (paths : PathList) : Option (List TlvRecord × Value) :=
  match findField offerMetadataType records with
  | some _ => none
  | none =>
    let value := offerPqMetadata pubkey paths
    some (insertRecord ⟨offerMetadataType, value.1, by decide, value.2⟩ records, value)

def findOfferPqMetadata : Option (List UInt8) :=
  (findField offerMetadataType records).bind fun value => offerPqPayload value.1

def parseOfferPqKemCts : List (ℕ × Bytes pqKemCtLen) :=
  (findOfferPqMetadata records).elim [] fun payload => parsePqKemCts (payload.drop pqPublicKeyLen)

def parseOfferPqPubkey : Option (Bytes pqPublicKeyLen) :=
  (findOfferPqMetadata records).bind (sliceAt 0 pqPublicKeyLen)

/-- **The key of a post-quantum offer** is read back. -/
theorem parseOfferPqPubkey_value {records : List TlvRecord} {pubkey : Bytes pqPublicKeyLen}
    {paths : PathList}
    (h : findField offerMetadataType records = some (offerPqMetadata pubkey paths)) :
    parseOfferPqPubkey records = some pubkey := by
  rw [parseOfferPqPubkey, findOfferPqMetadata, h, Option.bind_some, offerPqMetadata,
    offerPqPayload_offerMetadataValue, Option.bind_some, sliceAt_pubkey]

/-! ### Inserting a record -/

theorem mem_insertRecord {record r : TlvRecord} {records : List TlvRecord} :
    r ∈ insertRecord record records ↔ r = record ∨ r ∈ records := by
  conv_rhs =>
    rw [← takeWhile_append_dropWhile (p := fun r => decide (r.type ≤ record.type)) (l := records)]
  rw [insertRecord, mem_append, mem_cons, mem_append]
  tauto

theorem ascending_insertRecord {record : TlvRecord} {records : List TlvRecord}
    (h : Ascending records)
    (hnone : ∀ r ∈ records, r.type ≠ record.type) : Ascending (insertRecord record records) := by
  induction records with
  | nil => simp [insertRecord, Ascending]
  | cons r records ih =>
    obtain ⟨habove, hrest⟩ := pairwise_cons.mp h
    have hne := hnone r mem_cons_self
    have ih := ih hrest fun r hr => hnone r (mem_cons_of_mem _ hr)
    by_cases hle : r.type ≤ record.type
    · have hcons : insertRecord record (r :: records) = r :: insertRecord record records := by
        rw [insertRecord, takeWhile_cons_of_pos (by simp [hle]),
          dropWhile_cons_of_pos (by simp [hle])]
        rfl
      rw [hcons]
      refine pairwise_cons.mpr ⟨fun r' hr' => ?_, ih⟩
      rcases mem_insertRecord.mp hr' with rfl | hr'
      · omega
      · exact habove r' hr'
    · have hcons : insertRecord record (r :: records) = record :: r :: records := by
        rw [insertRecord, takeWhile_cons_of_neg (by simp [hle]),
          dropWhile_cons_of_neg (by simp [hle])]
        rfl
      rw [hcons]
      refine pairwise_cons.mpr ⟨fun r' hr' => ?_, h⟩
      rcases mem_cons.mp hr' with rfl | hr'
      · omega
      · have := habove r' hr'
        omega

end PqLightning.Offers
