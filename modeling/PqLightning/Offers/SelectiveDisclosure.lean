import PqLightning.Offers.Merkle
import Mathlib.Data.Finset.Sort

/-!
# Selective disclosure of a signed message

A payer proves that an invoice was signed without showing all of it
(`offers/selective_disclosure.rs`). It shows some of the records; for the others it gives hashes of
parts of the merkle tree, and one number for each of them, a marker, that says only where between
the shown records it stands. The reader finds out from the markers which leaves of the tree are
shown and recomputes the root.

A marker is the number after the shown type or marker before it, with one jump over the types
between the invoice range and the experimental range. The first record, of type 0, is never shown
and has no marker.
-/

namespace PqLightning.Offers

inductive SelectiveDisclosureError where
  | invalidOmittedMarkersOrder
  | invalidOmittedMarker
  | leafHashCountMismatch
  | insufficientMissingHashes
deriving DecidableEq, Repr

/-- How the reader can end other than by a root. -/
inductive DisclosureFailure where
  | err (e : SelectiveDisclosureError)
  | panicked (p : Panic)
deriving DecidableEq

structure SelectiveDisclosure (Hash : Type) where
  nonceHashes : List Hash
  omittedMarkers : List ℕ
  missingHashes : List Hash
  merkleRoot : Hash

def payerMetadataType : ℕ := 0

def invoiceTypesEnd : ℕ := 240

def experimentalOfferTypesStart : ℕ := 1000000000

/-! ### Markers -/

def nextMarker (prev : ℕ) : ℕ :=
  let next := min (prev + 1) (2 ^ 64 - 1)
  if invoiceTypesEnd ≤ next ∧ next < experimentalOfferTypesStart then experimentalOfferTypesStart
  else next

/-- The scan of `compute_omitted_markers`: `prev` is the last shown type or marker. -/
def omittedMarkersFrom (included : Finset ℕ) : ℕ → List ℕ → List ℕ
  | _, [] => []
  | prev, type :: types =>
    if type ∈ included then omittedMarkersFrom included type types
    else nextMarker prev :: omittedMarkersFrom included (nextMarker prev) types

def computeOmittedMarkers (types : List ℕ) (included : Finset ℕ) : List ℕ :=
  omittedMarkersFrom included payerMetadataType (types.filter (· ≠ payerMetadataType))

/-- The loop of `decode_positions`. -/
def decodePositionsFrom (prevMarker : ℕ) : List ℕ → List ℕ → List Bool
  | [], [] => []
  | _ :: included, [] => true :: decodePositionsFrom prevMarker included []
  | [], marker :: markers => false :: decodePositionsFrom marker [] markers
  | type :: included, marker :: markers =>
    -- the current run goes on, or a shown record sits here and the marker is looked at again
    if marker = nextMarker prevMarker then
      false :: decodePositionsFrom marker (type :: included) markers
    else true :: decodePositionsFrom type included (marker :: markers)
termination_by included markers => included.length + markers.length

def decodePositions (includedTypes omittedMarkers : List ℕ) : List Bool :=
  false :: decodePositionsFrom payerMetadataType includedTypes omittedMarkers

/-- The inner loop of `validate_omitted_markers`: what is left of the shown types behind the one
that starts a run at `marker`. -/
def advance (marker : ℕ) : List ℕ → Option (List ℕ)
  | [] => none
  | type :: included =>
    if nextMarker type = marker then some included
    else if marker ≤ type then none
    else advance marker included

/-- The loop of `validate_omitted_markers`. -/
def validateFrom (includedTypes : Finset ℕ) (included : List ℕ) (expectedNext prev : ℕ) :
    List ℕ → Except SelectiveDisclosureError Unit
  | [] => .ok ()
  | marker :: markers =>
    if marker = payerMetadataType then .error .invalidOmittedMarker
    else if marker ≤ prev then .error .invalidOmittedMarkersOrder
    else if marker ∈ includedTypes then .error .invalidOmittedMarker
    else if marker = expectedNext then
      validateFrom includedTypes included (nextMarker marker) marker markers
    else
      match advance marker included with
      | none => .error .invalidOmittedMarker
      | some included => validateFrom includedTypes included (nextMarker marker) marker markers

def validateOmittedMarkers (markers : List ℕ) (includedTypes : Finset ℕ) :
    Except SelectiveDisclosureError Unit :=
  validateFrom includedTypes (includedTypes.sort (· ≤ ·)) (nextMarker payerMetadataType)
    payerMetadataType markers

/-! ### The payer -/

section

variable {Hash : Type} [LinearOrder Hash] (hashes : TaggedHashes Hash)

/-- A record's leaf of the tree, and whether the record is shown. -/
def TlvHashData.disclosed {Hash : Type} (included : Finset ℕ) (data : TlvHashData Hash) :
    Hash × Bool :=
  (data.perTlvHash, decide (data.tlvType ∈ included))

/-- `build_tree_dfs`. It does not return for the empty list, which it is never called with. -/
def buildTreeDfs (tlvData : List (TlvHashData Hash)) (included : Finset ℕ) (missing : List Hash) :
    Option ((Hash × Bool) × List Hash) :=
  Merkle.disclose (taggedBranchHash hashes) (tlvData.map (TlvHashData.disclosed included)) missing

def computeSelectiveDisclosure (records : List TlvRecord) (included : Finset ℕ) :
    Except Panic (SelectiveDisclosure Hash) := do
  Panic.unless (payerMetadataType ∉ included) .debugAssertion
  let tlvData ← merkleTlvData hashes records
  Panic.unless (tlvData ≠ []) .assertion
  let ((merkleRoot, _), missingHashes) ← unwrap (buildTreeDfs hashes tlvData included [])
  return {
    nonceHashes := (tlvData.filter fun data => decide (data.tlvType ∈ included)).map
      TlvHashData.nonceHash
    omittedMarkers := computeOmittedMarkers (tlvData.map TlvHashData.tlvType) included
    missingHashes
    merkleRoot }

/-! ### The reader -/

def indexed {α : Type} (l : List α) (i : ℕ) : Except Panic α :=
  match l[i]? with
  | some a => .ok a
  | none => .error .index

/-- The loop of `reconstruct_merkle_root` over the positions, from the shown record `incIdx` on. -/
def positionHashes (included : List TlvRecord) (nonceHashes : List Hash) :
    List Bool → ℕ → Except Panic (List (Option Hash))
  | [], _ => .ok []
  | true :: positions, incIdx => do
    let record ← indexed included incIdx
    let nonceHash ← indexed nonceHashes incIdx
    let rest ← positionHashes included nonceHashes positions (incIdx + 1)
    return some (taggedBranchHash hashes (hashes.leaf record.recordBytes) nonceHash) :: rest
  | false :: positions, incIdx => do
    let rest ← positionHashes included nonceHashes positions incIdx
    return none :: rest

/-- `reconstruct_merkle_root_dfs`. It does not return for the empty list, which it is never called
with. -/
def reconstructMerkleRootDfs (leaves : List (Option Hash)) (missingHashes : List Hash)
    (missingIdx : ℕ) : Except SelectiveDisclosureError (Option Hash × ℕ) :=
  match Merkle.rebuild (taggedBranchHash hashes) missingHashes leaves missingIdx with
  | none => .error .insufficientMissingHashes
  | some result => .ok result

def reconstructMerkleRoot (included : List TlvRecord) (nonceHashes : List Hash)
    (omittedMarkers : List ℕ) (missingHashes : List Hash) : Except DisclosureFailure Hash := do
  guardWith (validateOmittedMarkers omittedMarkers (included.map TlvRecord.type).toFinset = .ok ())
    (.panicked .debugAssertion)
  guardWith (included.length = nonceHashes.length) (.err .leafHashCountMismatch)
  let positions := decodePositions (included.map TlvRecord.type) omittedMarkers
  let leaves ← (positionHashes hashes included nonceHashes positions 0).mapError .panicked
  let (root, missingIdx) ← (reconstructMerkleRootDfs hashes leaves missingHashes 0).mapError .err
  guardWith (missingIdx = missingHashes.length) (.err .insufficientMissingHashes)
  match root with
  | none => .error (.err .insufficientMissingHashes)
  | some root => return root

theorem mapError_eq_ok_iff {ε ε' α : Type} {f : ε → ε'} {x : Except ε α} {a : α} :
    x.mapError f = .ok a ↔ x = .ok a := by
  cases x <;> simp [Except.mapError]

theorem reconstructMerkleRootDfs_eq_ok_iff {leaves : List (Option Hash)} {missingHashes : List Hash}
    {missingIdx : ℕ} {result : Option Hash × ℕ} :
    reconstructMerkleRootDfs hashes leaves missingHashes missingIdx = .ok result ↔
      Merkle.rebuild (taggedBranchHash hashes) missingHashes leaves missingIdx = some result := by
  rw [reconstructMerkleRootDfs]
  split <;> simp [*]

/-- **The reader gets a root** when the markers pass the check, every shown record has its hash, and
the tree can be rebuilt with the missing hashes, all of them. -/
theorem reconstructMerkleRoot_eq_ok_iff {included : List TlvRecord} {nonceHashes : List Hash}
    {omittedMarkers : List ℕ} {missingHashes : List Hash} {root : Hash} :
    reconstructMerkleRoot hashes included nonceHashes omittedMarkers missingHashes = .ok root ↔
      validateOmittedMarkers omittedMarkers (included.map TlvRecord.type).toFinset = .ok () ∧
      included.length = nonceHashes.length ∧
      ∃ leaves,
        positionHashes hashes included nonceHashes
          (decodePositions (included.map TlvRecord.type) omittedMarkers) 0 = .ok leaves ∧
        Merkle.rebuild (taggedBranchHash hashes) missingHashes leaves 0 =
          some (some root, missingHashes.length) := by
  simp only [reconstructMerkleRoot, bind_eq_ok, guardWith_eq_ok, mapError_eq_ok_iff,
    reconstructMerkleRootDfs_eq_ok_iff]
  constructor
  · rintro ⟨_, hmarkers, _, hlength, leaves, hleaves, ⟨top, next⟩, hrebuild, _, hnext, htop⟩
    refine ⟨hmarkers, hlength, leaves, hleaves, ?_⟩
    cases top with
    | none => cases htop
    | some top =>
      cases htop
      rw [hrebuild, show next = missingHashes.length from hnext]
  · rintro ⟨hmarkers, hlength, leaves, hleaves, hrebuild⟩
    exact ⟨(), hmarkers, (), hlength, leaves, hleaves, _, hrebuild, (), rfl, rfl⟩

end

end PqLightning.Offers
