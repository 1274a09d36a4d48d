import PqLightning.Basic

/-!
# Post-quantum records in gossip messages

A gossip message of a post-quantum node carries its ML-DSA key, its ML-KEM key and its ML-DSA
signature as type-length-value records in the `excess_data` of the message (`sign/pq.rs`). The
parser reads the records in whatever order they come and leaves everything else alone; the last
record of each type is the one that counts.

Positions are 64-bit: the end of a record is the cursor plus a length that the sender chose, and
the addition panics when it does not fit.
-/

namespace PqLightning.Gossip

abbrev Bytes (n : ℕ) : Type := { l : List UInt8 // l.length = n }

def constBytes (n : ℕ) (b : UInt8) : Bytes n := ⟨List.replicate n b, List.length_replicate⟩

abbrev pqPublicKeyLen : ℕ := 1312

abbrev pqSignatureLen : ℕ := 2420

abbrev pqKemEkLen : ℕ := 1184

def pqPublicKeyRecordType : ℕ := 27

def pqKemKeyRecordType : ℕ := 29

def pqSignatureRecordType : ℕ := 31

structure PqRecords where
  pubkey : Option (Bytes pqPublicKeyLen)
  kemKey : Option (Bytes pqKemEkLen)
  signature : Option (Bytes pqSignatureLen)
  signatureRecordLen : ℕ
deriving DecidableEq

/-- The big-endian number at the front of `data`, `n` bytes long, and what follows it. -/
def readBigEndian (n : ℕ) (data : List UInt8) : Option (ℕ × List UInt8) :=
  if n ≤ data.length then
    some ((data.take n).foldl (fun acc b => acc * 256 + b.toNat) 0, data.drop n)
  else none

/-- `read_bigsize`, on what is left of the data from the cursor on. -/
def readBigsize : List UInt8 → Option (ℕ × List UInt8)
  | [] => none
  | first :: rest =>
    if first = 0xff then readBigEndian 8 rest
    else if first = 0xfe then readBigEndian 4 rest
    else if first = 0xfd then readBigEndian 2 rest
    else some (first.toNat, rest)

/-- What the loop of `parse_records` does with one record of type `typ`, of which `recordLen` bytes
are in the message. -/
def PqRecords.store (records : PqRecords) (typ : ℕ) (value : List UInt8) (recordLen : ℕ) :
    PqRecords :=
  if h : typ = pqPublicKeyRecordType ∧ value.length = pqPublicKeyLen then
    { records with pubkey := some ⟨value, h.2⟩ }
  else if h : typ = pqKemKeyRecordType ∧ value.length = pqKemEkLen then
    { records with kemKey := some ⟨value, h.2⟩ }
  else if h : typ = pqSignatureRecordType ∧ value.length = pqSignatureLen then
    { records with signature := some ⟨value, h.2⟩, signatureRecordLen := recordLen }
  else records

/-- The loop of `parse_records`: `rest` is what is left of the `total` bytes from the cursor on. -/
def parseFrom (total : ℕ) : ℕ → List UInt8 → PqRecords → Except Panic PqRecords
  | 0, _, records => .ok records
  | fuel + 1, rest, records =>
    match readBigsize rest with
    | none => .ok records
    | some (typ, afterType) =>
      match readBigsize afterType with
      | none => .ok records
      | some (len, afterLen) => do
        let stop ← addU64 (total - afterLen.length) len
        if total < stop then .ok records
        else
          let next := afterLen.drop len
          parseFrom total fuel next
            (records.store typ (afterLen.take len) (rest.length - next.length))

/-- `parse_records`. Each turn of the loop consumes at least two bytes, so there are never more
turns than bytes. -/
def parseRecords (excessData : List UInt8) : Except Panic PqRecords :=
  parseFrom excessData.length excessData.length excessData ⟨none, none, none, 0⟩

end PqLightning.Gossip
