import PqLightning.Offers.Tlv
import PqLightning.Lib.MerkleTree
import Mathlib.Data.Sym.Sym2
import Mathlib.Logic.Equiv.List

/-!
# The merkle root of a stream of records

A message of the offers protocol is signed through the merkle root of its records
(`offers/merkle.rs`). Each record outside the signature range gives two hashes, one of its bytes and
one of its type that nobody can compute without the first record; the two are combined into the
record's leaf of the tree. The root is computed level by level in place.

The hash function enters through its three uses (`TaggedHashes`), so that the results that need no
property of it need no hypothesis. That the uses are free of collisions is `TaggedHashes.Free`; the
hashes `natHashes` are.
-/

namespace PqLightning.Offers

/-- `SIGNATURE_TYPES` -/
def IsSignatureType (type : ℕ) : Prop := 240 ≤ type ∧ type ≤ 1000

instance (type : ℕ) : Decidable (IsSignatureType type) :=
  inferInstanceAs (Decidable (240 ≤ type ∧ type ≤ 1000))

/-- The tagged hashes of a message: of a record's bytes (`LnLeaf`), of a record's type under a tag
that depends on the first record (`LnNonce`), and of two hashes one after the other (`LnBranch`). -/
structure TaggedHashes (Hash : Type) where
  leaf : List UInt8 → Hash
  nonce : List UInt8 → List UInt8 → Hash
  branch : Hash → Hash → Hash

structure TlvHashData (Hash : Type) where
  tlvType : ℕ
  (nonceHash perTlvHash : Hash)

section

variable {Hash : Type} [LinearOrder Hash] (hashes : TaggedHashes Hash)

/-- `tagged_branch_hash_from_engine`: the smaller hash comes first. -/
def taggedBranchHash (leaf1 leaf2 : Hash) : Hash :=
  if leaf1 < leaf2 then hashes.branch leaf1 leaf2 else hashes.branch leaf2 leaf1

/-- What `merkle_tlv_data` computes for one record. -/
def tlvHashData (first record : TlvRecord) : TlvHashData Hash where
  tlvType := record.type
  nonceHash := hashes.nonce first.recordBytes record.typeBytes
  perTlvHash := taggedBranchHash hashes (hashes.leaf record.recordBytes)
    (hashes.nonce first.recordBytes record.typeBytes)

variable (records : List TlvRecord)

/-- The records that `merkle_tlv_data` looks at. -/
def nonSignature : List TlvRecord :=
  records.filter fun record => !decide (IsSignatureType record.type)

def merkleTlvData : Except Panic (List (TlvHashData Hash)) := do
  let first ← unwrap records.head?
  return (nonSignature records).map (tlvHashData hashes first)

def rootHash : Except Panic Hash := do
  let tlvData ← merkleTlvData hashes records
  let leaves := tlvData.map TlvHashData.perTlvHash
  Panic.unless (leaves ≠ []) .assertion
  unwrap (Merkle.levels (taggedBranchHash hashes) leaves.length 0 leaves).head?

/-- **The root** is that of the tree over the leaves. -/
theorem rootHash_eq_ok_iff {records : List TlvRecord} {root : Hash} :
    rootHash hashes records = .ok root ↔
      ∃ tlvData, merkleTlvData hashes records = .ok tlvData ∧
        Merkle.root (taggedBranchHash hashes) (tlvData.map TlvHashData.perTlvHash) = some root := by
  rw [rootHash, bind_eq_ok]
  refine exists_congr fun tlvData => and_congr_right fun _ => ?_
  rw [bind_eq_ok]
  constructor
  · rintro ⟨_, hne, hroot⟩
    rwa [unwrap_eq_ok, Merkle.head?_levels (Panic.unless_eq_ok.mp hne)] at hroot
  · intro hroot
    have hne : tlvData.map TlvHashData.perTlvHash ≠ [] := by
      intro hnil
      rw [hnil, Merkle.root] at hroot
      cases hroot
    exact ⟨(), Panic.unless_of _ hne, by rwa [unwrap_eq_ok, Merkle.head?_levels hne]⟩

/-- The hashes have no collisions: the three uses are injective, the last one up to the order of its
two arguments, and no two of them agree anywhere. -/
structure TaggedHashes.Free : Prop where
  leaf_injective : Function.Injective hashes.leaf
  nonce_injective : Function.Injective2 hashes.nonce
  branch_injective : ∀ a b c d, taggedBranchHash hashes a b = taggedBranchHash hashes c d →
    s(a, b) = s(c, d)
  leaf_ne_nonce : ∀ bytes first type, hashes.leaf bytes ≠ hashes.nonce first type
  leaf_ne_branch : ∀ bytes a b, hashes.leaf bytes ≠ taggedBranchHash hashes a b
  nonce_ne_branch : ∀ first type a b, hashes.nonce first type ≠ taggedBranchHash hashes a b

end

def natHashes : TaggedHashes ℕ where
  leaf bytes := 3 * Encodable.encode (bytes.map UInt8.toNat)
  nonce first type :=
    3 * Nat.pair (Encodable.encode (first.map UInt8.toNat))
      (Encodable.encode (type.map UInt8.toNat)) + 1
  branch a b := 3 * Nat.pair a b + 2

theorem encode_toNat_injective :
    Function.Injective fun bytes : List UInt8 => Encodable.encode (bytes.map UInt8.toNat) :=
  Encodable.encode_injective.comp (List.map_injective_iff.mpr fun _ _ => UInt8.toNat_inj.mp)

/-- Both ways round, the smaller argument comes first. -/
theorem taggedBranchHash_natHashes (a b : ℕ) :
    taggedBranchHash natHashes a b = 3 * Nat.pair (min a b) (max a b) + 2 := by
  rw [taggedBranchHash]
  split
  next h => rw [min_eq_left h.le, max_eq_right h.le]; rfl
  next h => rw [min_eq_right (not_lt.mp h), max_eq_left (not_lt.mp h)]; rfl

theorem natHashes_free : natHashes.Free where
  leaf_injective := by
    intro a b h
    have h : 3 * _ = 3 * _ := h
    exact encode_toNat_injective (Nat.eq_of_mul_eq_mul_left (by decide) h)
  nonce_injective := by
    intro first first' type type' h
    have h : 3 * Nat.pair _ _ + 1 = 3 * Nat.pair _ _ + 1 := h
    obtain ⟨hfirst, htype⟩ := Nat.pair_eq_pair.mp (Nat.eq_of_mul_eq_mul_left (by decide)
      (Nat.add_right_cancel h))
    exact ⟨encode_toNat_injective hfirst, encode_toNat_injective htype⟩
  branch_injective := by
    intro a b c d h
    rw [taggedBranchHash_natHashes, taggedBranchHash_natHashes] at h
    obtain ⟨hmin, hmax⟩ := Nat.pair_eq_pair.mp (Nat.eq_of_mul_eq_mul_left (by decide)
      (Nat.add_right_cancel h))
    rw [Sym2.eq_iff]
    omega
  leaf_ne_nonce := by
    intro bytes first type h
    have h : 3 * _ = 3 * _ + 1 := h
    omega
  leaf_ne_branch := by
    intro bytes a b h
    rw [taggedBranchHash_natHashes] at h
    have h : 3 * _ = 3 * _ + 2 := h
    omega
  nonce_ne_branch := by
    intro first type a b h
    rw [taggedBranchHash_natHashes] at h
    have h : 3 * _ + 1 = 3 * _ + 2 := h
    omega

end PqLightning.Offers
