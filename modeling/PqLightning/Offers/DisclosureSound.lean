import PqLightning.Offers.DisclosureComplete

/-!
# Only signed records can be shown

Whoever presents a selective disclosure chooses everything in it: the shown records, the hashes of
their types, the markers and so the shape of the tree, and the missing hashes. This file proves that
if the hashes have no collisions and the reader gets the root of a signed stream, every shown record
is a record of that stream.

A node of the signed tree is a leaf of the tree or combines two nodes, and a leaf of the tree
combines the hash of a record and the hash of a type; nothing else is below the root (`Beneath`). So
what is combined into something beneath the root is itself beneath it, whatever tree the reader was
led to build, and the hash of a shown record must be that of a signed one.
-/

namespace PqLightning.Offers

open List

/-! ### Every shown record has a position -/

theorem count_decodePositionsFrom (prevMarker : ℕ) (included markers : List ℕ) :
    (decodePositionsFrom prevMarker included markers).count true = included.length := by
  fun_induction decodePositionsFrom prevMarker included markers with
  | case1 => rfl
  | case2 _ _ _ ih => simp [ih]
  | case3 _ _ _ ih => simpa using ih
  | case4 _ _ _ _ ih => simpa using ih
  | case5 _ _ _ _ _ _ ih => simpa using ih

section

variable {Hash : Type} [LinearOrder Hash] {hashes : TaggedHashes Hash}

theorem indexed_eq_ok_iff {α : Type} {l : List α} {i : ℕ} {a : α} :
    indexed l i = .ok a ↔ l[i]? = some a := by
  rw [indexed]
  split <;> simp [*]

theorem mem_of_positionHashes {included : List TlvRecord} {nonceHashes : List Hash}
    {positions : List Bool} {incIdx : ℕ} {leaves : List (Option Hash)}
    (h : positionHashes hashes included nonceHashes positions incIdx = .ok leaves) {k : ℕ}
    (hle : incIdx ≤ k) (hlt : k < incIdx + positions.count true) {record : TlvRecord}
    (hrecord : included[k]? = some record) :
    ∃ nonceHash,
      some (taggedBranchHash hashes (hashes.leaf record.recordBytes) nonceHash) ∈ leaves := by
  induction positions generalizing incIdx leaves with
  | nil =>
    rw [count_nil] at hlt
    omega
  | cons position positions ih =>
    match position with
    | false =>
      rw [positionHashes] at h
      obtain ⟨rest, hrest, hleaves⟩ := bind_eq_ok.mp h
      cases hleaves
      obtain ⟨nonceHash, hmem⟩ := ih hrest hle (by simpa using hlt)
      exact ⟨nonceHash, mem_cons_of_mem _ hmem⟩
    | true =>
      rw [positionHashes] at h
      obtain ⟨record', hindex, h⟩ := bind_eq_ok.mp h
      obtain ⟨nonceHash, -, h⟩ := bind_eq_ok.mp h
      obtain ⟨rest, hrest, hleaves⟩ := bind_eq_ok.mp h
      cases hleaves
      rcases hle.eq_or_lt with rfl | hnext
      · rw [indexed_eq_ok_iff, hrecord] at hindex
        cases hindex
        exact ⟨nonceHash, mem_cons_self⟩
      · rw [count_cons_self] at hlt
        obtain ⟨nonceHash, hmem⟩ := ih hrest hnext (by omega)
        exact ⟨nonceHash, mem_cons_of_mem _ hmem⟩

/-! ### What is beneath the signed root -/

variable (hashes) in
/-- The hashes beneath the root of a stream: the nodes of its tree, and the two hashes of which each
leaf is made. -/
inductive Beneath (first : TlvRecord) (records : List TlvRecord) : Hash → Prop
  | node {a : Hash} (h : Merkle.Spans (taggedBranchHash hashes)
      (((nonSignature records).map (tlvHashData hashes first)).map TlvHashData.perTlvHash) a) :
      Beneath first records a
  | leaf {record : TlvRecord} (h : record ∈ records) :
      Beneath first records (hashes.leaf record.recordBytes)
  | nonce (type : List UInt8) : Beneath first records (hashes.nonce first.recordBytes type)

variable {first : TlvRecord} {records : List TlvRecord}

/-- Two of the hashes beneath the root, in either order. -/
theorem Beneath.of_sym2 {a b c d : Hash} (h : s(a, b) = s(c, d))
    (hc : Beneath hashes first records c) (hd : Beneath hashes first records d) :
    Beneath hashes first records a ∧ Beneath hashes first records b := by
  rcases Sym2.eq_iff.mp h with ⟨rfl, rfl⟩ | ⟨rfl, rfl⟩
  · exact ⟨hc, hd⟩
  · exact ⟨hd, hc⟩

/-- **What is combined into a hash beneath the root is beneath it.** -/
theorem Beneath.parts (hfree : hashes.Free) (a b : Hash)
    (h : Beneath hashes first records (taggedBranchHash hashes a b)) :
    Beneath hashes first records a ∧ Beneath hashes first records b := by
  generalize hc : taggedBranchHash hashes a b = c at h
  cases h with
  | node hspans =>
    cases hspans with
    | leaf hmem =>
      obtain ⟨data, hdata, rfl⟩ := mem_map.mp hmem
      obtain ⟨record, hrecord, rfl⟩ := mem_map.mp hdata
      exact Beneath.of_sym2 (hfree.branch_injective _ _ _ _ hc)
        (.leaf (mem_filter.mp hrecord).1)
        (.nonce _)
    | node ha hb => exact Beneath.of_sym2 (hfree.branch_injective _ _ _ _ hc) (.node ha) (.node hb)
  | leaf _ => exact absurd hc.symm (hfree.leaf_ne_branch _ _ _)
  | nonce _ => exact absurd hc.symm (hfree.nonce_ne_branch _ _ _ _)

/-- The hash of a record beneath the root is that of a signed record. -/
theorem Beneath.exists_record (hfree : hashes.Free) {record : TlvRecord}
    (h : Beneath hashes first records (hashes.leaf record.recordBytes)) :
    ∃ signed ∈ records, record.recordBytes = signed.recordBytes := by
  generalize hc : hashes.leaf record.recordBytes = c at h
  cases h with
  | node hspans =>
    cases hspans with
    | leaf hmem =>
      obtain ⟨data, hdata, rfl⟩ := mem_map.mp hmem
      obtain ⟨signed, -, rfl⟩ := mem_map.mp hdata
      exact absurd hc (hfree.leaf_ne_branch _ _ _)
    | node _ _ => exact absurd hc (hfree.leaf_ne_branch _ _ _)
  | leaf hmem => exact ⟨_, hmem, hfree.leaf_injective hc⟩
  | nonce _ => exact absurd hc (hfree.leaf_ne_nonce _ _ _)

/-- **Every shown record is signed.** The shown records, the hashes of their types, the markers and
the missing hashes are arbitrary. -/
theorem signed_of_reconstructMerkleRoot (hfree : hashes.Free) {root : Hash}
    (hroot : rootHash hashes records = .ok root) {included : List TlvRecord}
      {nonceHashes : List Hash} {omittedMarkers : List ℕ} {missingHashes : List Hash}
    (h : reconstructMerkleRoot hashes included nonceHashes omittedMarkers missingHashes =
      .ok root) :
    ∀ record ∈ included, ∃ signed ∈ records, record.recordBytes = signed.recordBytes := by
  obtain ⟨tlvData, hdata, htree⟩ := (rootHash_eq_ok_iff hashes).mp hroot
  obtain ⟨first, -, hreturn⟩ := bind_eq_ok.mp hdata
  cases hreturn
  obtain ⟨-, -, leaves, hleaves, hrebuild⟩ := (reconstructMerkleRoot_eq_ok_iff hashes).mp h
  have htop : ∀ a ∈ some root, Beneath hashes first records a := by
    rintro a ⟨⟩
    exact .node (Merkle.spans_of_root htree)
  have hbeneath := Merkle.of_rebuild (Beneath.parts hfree) leaves hrebuild htop
  intro record hmem
  obtain ⟨k, hk, hrecord⟩ := getElem_of_mem hmem
  have hcount : (decodePositions (included.map TlvRecord.type) omittedMarkers).count true =
      included.length := by
    rw [decodePositions, count_cons_of_ne (by decide), count_decodePositionsFrom, length_map]
  obtain ⟨nonceHash, hleaf⟩ := mem_of_positionHashes hleaves (Nat.zero_le k) (by omega)
    (List.getElem?_eq_some_iff.mpr ⟨hk, hrecord⟩)
  exact (Beneath.parts hfree _ _ (hbeneath _ hleaf _ rfl)).1.exists_record hfree

end

/-- The description that is shown of `describedStream` is signed. -/
theorem describedStream_signed :
    natHashes.Free ∧ ∃ root missing,
      rootHash natHashes describedStream.records = .ok root ∧
      reconstructMerkleRoot natHashes (describedStream.shown {10})
        (describedStream.nonceHashes natHashes {10})
        (omittedMarkersFrom {10} payerMetadataType describedStream.leafTypes) missing = .ok root ∧
      ∀ record ∈ describedStream.shown {10},
        ∃ signed ∈ describedStream.records, record.recordBytes = signed.recordBytes := by
  obtain ⟨root, _, missing, hbuild, hroot⟩ := exists_buildTreeDfs natHashes describedStream {10}
  have hreconstruct :=
    reconstructMerkleRoot_of_disclose ⟨10, by decide⟩ describedStream_shows hbuild
  exact ⟨natHashes_free, root, missing, hroot, hreconstruct,
    signed_of_reconstructMerkleRoot natHashes_free hroot hreconstruct⟩

end PqLightning.Offers
