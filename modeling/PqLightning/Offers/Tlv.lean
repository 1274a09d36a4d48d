import PqLightning.Gossip.PqRecords
import PqLightning.Lib.Reader

/-!
# Type-length-value records

The messages of the offers protocol are streams of records: a type, a length and a value
(`util/ser.rs`, `offers/merkle.rs`). Types and lengths are written in a variable-length code whose
reader refuses all but the shortest form, so a record has one encoding only, and a stream of bytes
is well formed in at most one way.

A record is its type and its value. The bytes of the record are computed from the two, so that the
type in them and the length in them are always the right ones, as they are for the records that
`TlvStream` yields.
-/

namespace PqLightning.Offers

open Reader List
open Gossip (readBigEndian)

/-! ### Numbers -/

/-- An unsigned integer of `n` bytes, as it is written. -/
def writeBigEndian : ℕ → ℕ → List UInt8
  | 0, _ => []
  | n + 1, v => writeBigEndian n (v / 256) ++ [UInt8.ofNat v]

@[simp] theorem length_writeBigEndian (n v : ℕ) : (writeBigEndian n v).length = n := by
  induction n generalizing v with
  | zero => rfl
  | succ n ih => simp [writeBigEndian, ih]

variable (bytes : List UInt8)

def ofBigEndian : ℕ := bytes.foldl (fun acc b => acc * 256 + b.toNat) 0

theorem ofBigEndian_concat (b : UInt8) :
    ofBigEndian (bytes ++ [b]) = ofBigEndian bytes * 256 + b.toNat := by
  simp [ofBigEndian]

theorem ofBigEndian_writeBigEndian {n v : ℕ} (h : v < 256 ^ n) :
    ofBigEndian (writeBigEndian n v) = v := by
  induction n generalizing v with
  | zero =>
    have hzero : v = 0 := by simpa using h
    rw [hzero]
    rfl
  | succ n ih =>
    have hlt : v / 256 < 256 ^ n := Nat.div_lt_of_lt_mul (by rwa [Nat.pow_succ'] at h)
    rw [writeBigEndian, ofBigEndian_concat, ih hlt, UInt8.toNat_ofNat']
    omega

theorem writeBigEndian_ofBigEndian : writeBigEndian bytes.length (ofBigEndian bytes) = bytes := by
  induction bytes using List.reverseRecOn with
  | nil => rfl
  | append_singleton bytes b ih =>
    have hlt : b.toNat < 256 := b.toNat_lt
    have hdiv : (ofBigEndian bytes * 256 + b.toNat) / 256 = ofBigEndian bytes := by omega
    have hmod : UInt8.ofNat (ofBigEndian bytes * 256 + b.toNat) = b := by
      apply UInt8.toNat_inj.mp
      rw [UInt8.toNat_ofNat']
      omega
    rw [length_append, length_singleton, ofBigEndian_concat, writeBigEndian, hdiv, hmod, ih]

theorem ofBigEndian_lt : ofBigEndian bytes < 256 ^ bytes.length := by
  induction bytes using List.reverseRecOn with
  | nil => exact Nat.one_pos
  | append_singleton bytes b ih =>
    have hlt : b.toNat < 256 := b.toNat_lt
    rw [ofBigEndian_concat, length_append, length_singleton, Nat.pow_succ]
    omega

variable {l rest : List UInt8}

theorem readBigEndian_eq_some_iff {n v : ℕ} :
    readBigEndian n l = some (v, rest) ↔ v < 256 ^ n ∧ l = writeBigEndian n v ++ rest := by
  rw [readBigEndian]
  constructor
  · intro h
    split at h
    · next hn =>
      cases h
      have hlength : (l.take n).length = n := length_take_of_le hn
      have hlt := ofBigEndian_lt (l.take n)
      have hbytes := writeBigEndian_ofBigEndian (l.take n)
      rw [hlength] at hlt hbytes
      exact ⟨hlt, by rw [← ofBigEndian, hbytes, take_append_drop]⟩
    · cases h
  · rintro ⟨hlt, rfl⟩
    have hlength := length_writeBigEndian n v
    rw [if_pos (by rw [length_append]; omega), take_left' hlength,
      drop_left' hlength, ← ofBigEndian, ofBigEndian_writeBigEndian hlt]

/-! ### `BigSize` -/

def writeBigSize (n : ℕ) : List UInt8 :=
  if n < 0xfd then [UInt8.ofNat n]
  else if n < 0x10000 then 0xfd :: writeBigEndian 2 n
  else if n < 0x100000000 then 0xfe :: writeBigEndian 4 n
  else 0xff :: writeBigEndian 8 n

/-- The number behind the first byte of a `BigSize`, which must not fit in a shorter form. -/
def readAtLeast (least n : ℕ) : Read UInt8 ℕ := fun l =>
  match readBigEndian n l with
  | none => none
  | some (v, rest) => if v < least then none else some (v, rest)

def readBigSize : Read UInt8 ℕ
  | [] => none
  | first :: rest =>
    if first = 0xff then readAtLeast 0x100000000 8 rest
    else if first = 0xfe then readAtLeast 0x10000 4 rest
    else if first = 0xfd then readAtLeast 0xfd 2 rest
    else some (first.toNat, rest)

theorem readAtLeast_eq_some_iff {least n v : ℕ} :
    readAtLeast least n l = some (v, rest) ↔
      least ≤ v ∧ v < 256 ^ n ∧ l = writeBigEndian n v ++ rest := by
  rw [← readBigEndian_eq_some_iff, readAtLeast]
  constructor
  · intro h
    split at h
    · cases h
    · next v' rest' hread =>
      split at h
      · cases h
      · next hle =>
        cases h
        exact ⟨Nat.le_of_not_lt hle, hread⟩
  · rintro ⟨hle, hread⟩
    simp only [hread, if_neg (Nat.not_lt.mpr hle)]

/-- **The code has no second form**: what is read as a number is what is written for it. -/
theorem readBigSize_eq_some_iff {n : ℕ} :
    readBigSize l = some (n, rest) ↔ n < 2 ^ 64 ∧ l = writeBigSize n ++ rest := by
  constructor
  · intro h
    match l with
    | [] => simp [readBigSize] at h
    | first :: l =>
      rw [readBigSize] at h
      split at h
      · next hfirst =>
        obtain ⟨hle, hlt, rfl⟩ := readAtLeast_eq_some_iff.mp h
        refine ⟨by omega, ?_⟩
        rw [writeBigSize, if_neg (by omega), if_neg (by omega), if_neg (by omega), hfirst]
        rfl
      · split at h
        · next hfirst =>
          obtain ⟨hle, hlt, rfl⟩ := readAtLeast_eq_some_iff.mp h
          refine ⟨by omega, ?_⟩
          rw [writeBigSize, if_neg (by omega), if_neg (by omega), if_pos (by omega), hfirst]
          rfl
        · split at h
          · next hfirst =>
            obtain ⟨hle, hlt, rfl⟩ := readAtLeast_eq_some_iff.mp h
            refine ⟨by omega, ?_⟩
            rw [writeBigSize, if_neg (by omega), if_pos (by omega), hfirst]
            rfl
          · next h8 h4 h2 =>
            cases h
            have hlt : first.toNat < 0xfd := by
              have hbyte : first.toNat < 256 := first.toNat_lt
              have hne : ∀ b : UInt8, first ≠ b → first.toNat ≠ b.toNat :=
                fun b hb heq => hb (UInt8.toNat_inj.mp heq)
              have h8 : first.toNat ≠ 255 := hne _ h8
              have h4 : first.toNat ≠ 254 := hne _ h4
              have h2 : first.toNat ≠ 253 := hne _ h2
              omega
            refine ⟨by omega, ?_⟩
            rw [writeBigSize, if_pos hlt, UInt8.ofNat_toNat]
            rfl
  · rintro ⟨hlt, rfl⟩
    rw [writeBigSize]
    split
    · next hsmall =>
      have hne : ∀ b : UInt8, n ≠ b.toNat → UInt8.ofNat n ≠ b := by
        rintro b hb rfl
        rw [UInt8.toNat_ofNat'] at hb
        omega
      rw [singleton_append, readBigSize, if_neg (hne _ (by show n ≠ 255; omega)),
        if_neg (hne _ (by show n ≠ 254; omega)), if_neg (hne _ (by show n ≠ 253; omega)),
        UInt8.toNat_ofNat', Nat.mod_eq_of_lt (by omega)]
    · split
      · rw [cons_append, readBigSize, if_neg (by decide), if_neg (by decide), if_pos rfl,
          readAtLeast_eq_some_iff]
        exact ⟨by omega, by omega, rfl⟩
      · split
        · rw [cons_append, readBigSize, if_neg (by decide), if_pos rfl, readAtLeast_eq_some_iff]
          exact ⟨by omega, by omega, rfl⟩
        · rw [cons_append, readBigSize, if_pos rfl, readAtLeast_eq_some_iff]
          exact ⟨by omega, by omega, rfl⟩

theorem writeBigSize_ne_nil (n : ℕ) : writeBigSize n ≠ [] := by
  rw [writeBigSize]
  split
  · simp
  · split
    · simp
    · split <;> simp

/-! ### Records -/

structure TlvRecord where
  type : ℕ
  value : List UInt8
  type_lt : type < 2 ^ 64
  length_lt : value.length < 2 ^ 64

@[ext] theorem TlvRecord.ext {a b : TlvRecord} (htype : a.type = b.type)
    (hvalue : a.value = b.value) : a = b := by
  cases a
  cases b
  cases htype
  cases hvalue
  rfl

instance : DecidableEq TlvRecord := fun _ _ => decidable_of_iff' _ TlvRecord.ext_iff

/-- A record of a type below 256 with at most one byte. -/
def smallRecord (type : UInt8) (byte : Option UInt8) : TlvRecord where
  type := type.toNat
  value := byte.toList
  type_lt := type.toNat_lt.trans (by decide)
  length_lt := Option.length_toList_le.trans_lt (by decide)

variable (record : TlvRecord)

namespace TlvRecord

def typeBytes : List UInt8 := writeBigSize record.type

def recordBytes : List UInt8 := record.typeBytes ++ writeBigSize record.value.length ++ record.value

theorem recordBytes_ne_nil : record.recordBytes ≠ [] := by
  simp [recordBytes, typeBytes, writeBigSize_ne_nil]

end TlvRecord

theorem length_take_lt {n : ℕ} (h : n < 2 ^ 64) (l : List UInt8) : (l.take n).length < 2 ^ 64 :=
  (length_take_le n l).trans_lt h

/-- One round of `TlvStream::next`. -/
def readRecord : Read UInt8 TlvRecord := fun l =>
  match andThen readBigSize readBigSize l with
  | none => none
  | some ((type, length), rest) =>
    if h : type < 2 ^ 64 ∧ length < 2 ^ 64 ∧ length ≤ rest.length then
      some (⟨type, rest.take length, h.1, length_take_lt h.2.1 rest⟩, rest.drop length)
    else none

theorem readRecord_eq_some_iff {record : TlvRecord} :
    readRecord l = some (record, rest) ↔ l = record.recordBytes ++ rest := by
  rw [readRecord]
  constructor
  · intro h
    split at h
    · cases h
    · next type length tail hread =>
      obtain ⟨mid, htype, hlength⟩ := andThen_eq_some_iff.mp hread
      obtain ⟨-, rfl⟩ := readBigSize_eq_some_iff.mp htype
      obtain ⟨-, rfl⟩ := readBigSize_eq_some_iff.mp hlength
      split at h
      · next hbound =>
        cases h
        simp only [TlvRecord.recordBytes, TlvRecord.typeBytes, length_take_of_le hbound.2.2,
          append_assoc, take_append_drop]
      · cases h
  · rintro rfl
    have hread : andThen readBigSize readBigSize (record.recordBytes ++ rest) =
        some ((record.type, record.value.length), record.value ++ rest) := by
      rw [andThen_eq_some_iff]
      refine ⟨writeBigSize record.value.length ++ (record.value ++ rest), ?_, ?_⟩
      · rw [readBigSize_eq_some_iff]
        exact ⟨record.type_lt, by simp only [TlvRecord.recordBytes, TlvRecord.typeBytes,
          append_assoc]⟩
      · rw [readBigSize_eq_some_iff]
        exact ⟨record.length_lt, rfl⟩
    simp only [hread]
    rw [dif_pos ⟨record.type_lt, record.length_lt, by rw [length_append]; omega⟩]
    simp

theorem TlvRecord.recordBytes_injective : Function.Injective TlvRecord.recordBytes := by
  intro a b h
  have ha : readRecord (a.recordBytes ++ []) = some (a, []) := readRecord_eq_some_iff.mpr rfl
  have hb : readRecord (a.recordBytes ++ []) = some (b, []) :=
    readRecord_eq_some_iff.mpr (by rw [h])
  exact (Prod.mk.inj (Option.some.inj (ha.symm.trans hb))).1

/-- The records of a stream of bytes, `TlvStream::new(bytes)`: `none` where an `unwrap` or a slice
of the iterator panics, that is where the stream is not well formed. -/
def tlvStream (bytes : List UInt8) : Option (List TlvRecord) :=
  match bytes with
  | [] => some []
  | b :: bytes =>
    match h : readRecord (b :: bytes) with
    | none => none
    | some (record, rest) =>
      have : rest.length < (b :: bytes).length := by
        rw [readRecord_eq_some_iff.mp h, length_append]
        have := length_pos_of_ne_nil record.recordBytes_ne_nil
        omega
      (tlvStream rest).map (record :: ·)
termination_by bytes.length
decreasing_by exact this

def toBytes (records : List TlvRecord) : List UInt8 := records.flatMap TlvRecord.recordBytes

theorem tlvStream_toBytes (records : List TlvRecord) : tlvStream (toBytes records) =
    some records := by
  induction records with
  | nil => simp [toBytes, tlvStream]
  | cons record records ih =>
    rw [toBytes, flatMap_cons, ← toBytes]
    obtain ⟨b, bytes, hcons⟩ := exists_cons_of_ne_nil
      (append_ne_nil_of_left_ne_nil record.recordBytes_ne_nil (toBytes records))
    have hread : readRecord (b :: bytes) = some (record, toBytes records) :=
      readRecord_eq_some_iff.mpr hcons.symm
    rw [hcons, tlvStream]
    split
    · next hnone => exact absurd (hread.symm.trans hnone) nofun
    · next record' rest hsome =>
      obtain ⟨rfl, rfl⟩ := Prod.mk.inj (Option.some.inj (hread.symm.trans hsome))
      rw [ih]
      rfl

/-- **A stream is well formed** when it is the concatenation of its records. -/
theorem tlvStream_eq_some_iff {bytes : List UInt8} {records : List TlvRecord} :
    tlvStream bytes = some records ↔ bytes = toBytes records := by
  constructor
  · intro h
    fun_induction tlvStream bytes generalizing records with
    | case1 => rw [← Option.some.inj h]; rfl
    | case2 => cases h
    | case3 b bytes record rest hread _ ih =>
      obtain ⟨records', hrest, rfl⟩ := Option.map_eq_some_iff.mp h
      rw [readRecord_eq_some_iff.mp hread, ih hrest, toBytes, toBytes, flatMap_cons]
  · rintro rfl
    exact tlvStream_toBytes records

end PqLightning.Offers
