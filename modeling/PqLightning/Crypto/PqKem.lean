import PqLightning.Gossip.PqRecords

/-!
# ML-KEM

`crypto/pq_kem.rs`: key pairs from seeds, encapsulation and decapsulation. The algorithm itself is a
parameter (`MlKem`). Whether 1184 bytes are an encapsulation key is for the algorithm to say, and
encapsulating to bytes that are not returns nothing.
-/

namespace PqLightning.Crypto

open Gossip (Bytes pqKemEkLen)

abbrev pqKemDkLen : ℕ := 2400

abbrev pqKemCtLen : ℕ := 1088

abbrev Sha256 : Type := List UInt8 → Bytes32

def ascii (text : String) : List UInt8 := text.toList.map fun c => UInt8.ofNat c.toNat

/-- ML-KEM-768, as the `fips203` crate has it. -/
structure MlKem where
  /-- `EncapsKey::try_from_bytes` succeeds. -/
  wellFormed : Bytes pqKemEkLen → Bool
  /-- `encaps_from_seed` -/
  encapsFromSeed : Bytes pqKemEkLen → Bytes32 → Bytes32 × Bytes pqKemCtLen
  /-- `KG::keygen_from_seed` -/
  keygenFromSeed : Bytes32 → Bytes32 → Bytes pqKemEkLen × Bytes pqKemDkLen
  /-- `DecapsKey::try_from_bytes`, `CipherText::try_from_bytes` and `try_decaps` -/
  tryDecaps : Bytes pqKemDkLen → Bytes pqKemCtLen → Option Bytes32

namespace MlKem

variable (kem : MlKem)

def encapsulate (ek : Bytes pqKemEkLen) (seed : Bytes32) : Option (Bytes32 × Bytes pqKemCtLen) :=
  if kem.wellFormed ek then some (kem.encapsFromSeed ek seed) else none

def decapsulate (dk : Bytes pqKemDkLen) (ct : Bytes pqKemCtLen) : Option Bytes32 :=
  kem.tryDecaps dk ct

def expandSeed (sha256 : Sha256) (seed : Bytes32) : Bytes32 × Bytes32 :=
  (sha256 (ascii "LDK-PQ-KEM-d" ++ seed.toList), sha256 (ascii "LDK-PQ-KEM-z" ++ seed.toList))

def keypairFromSeed (sha256 : Sha256) (seed : Bytes32) : Bytes pqKemEkLen × Bytes pqKemDkLen :=
  let (d, z) := expandSeed sha256 seed
  kem.keygenFromSeed d z

/-- `decaps` recovers the secrets that are encapsulated to the well-formed key `ek`. -/
structure Pair (decaps : Bytes pqKemCtLen → Option Bytes32) (ek : Bytes pqKemEkLen) : Prop where
  wellFormed : kem.wellFormed ek
  decaps_encaps : ∀ seed, decaps (kem.encapsFromSeed ek seed).2 =
    some (kem.encapsFromSeed ek seed).1

/-- Generated keys are a pair. -/
def Correct : Prop :=
  ∀ d z, kem.Pair (kem.decapsulate (kem.keygenFromSeed d z).2) (kem.keygenFromSeed d z).1

variable {kem}

theorem encapsulate_of_wellFormed {ek : Bytes pqKemEkLen} (h : kem.wellFormed ek) (seed : Bytes32) :
    kem.encapsulate ek seed = some (kem.encapsFromSeed ek seed) := if_pos h

theorem isSome_encapsulate_iff {ek : Bytes pqKemEkLen} {seed : Bytes32} :
    (kem.encapsulate ek seed).isSome ↔ kem.wellFormed ek := by
  rw [encapsulate]
  split <;> simp [*]

theorem Correct.pair_keypairFromSeed (h : kem.Correct) (sha256 : Sha256) (seed : Bytes32) :
    kem.Pair (kem.decapsulate (kem.keypairFromSeed sha256 seed).2)
      (kem.keypairFromSeed sha256 seed).1 := h _ _

end MlKem

end PqLightning.Crypto
