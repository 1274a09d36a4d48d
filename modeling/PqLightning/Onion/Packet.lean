import PqLightning.Crypto.PqKem
import PqLightning.Lib.Layers

/-!
# Onion packets

The two halves of `ln/onion_utils.rs` that handle the packet itself:
`construct_onion_packet_with_init_noise` builds it from the payloads of all hops and
`decode_next_hop` takes one layer off. The HMAC and the key stream of ChaCha20 are parameters
(`PacketCrypto`); the key stream is addressed by byte.
-/

namespace PqLightning.Onion

open Crypto (ascii)

structure PacketCrypto where
  /-- `HmacEngine<Sha256>`, of a key and everything that is put into it. -/
  hmac : List UInt8 → List UInt8 → Bytes32
  /-- The key stream of `ChaCha20` with a zero nonce, by key and byte. -/
  keystream : Bytes32 → ℕ → UInt8

/-- A byte of a text and a byte of a key stream. -/
def xorMask : Layers.Mask UInt8 where
  op b k := b ^^^ k
  zero := 0
  op_op b k := by rw [UInt8.xor_assoc, UInt8.xor_self, UInt8.xor_zero]

namespace PacketCrypto

variable (c : PacketCrypto)

/-- `ChaCha20::new(key, nonce, seek)` and `apply_keystream` -/
def applyKeystream (key : Bytes32) (seek : ℕ) (text : List UInt8) : List UInt8 :=
  xorMask.apply (c.keystream key) seek text

def genRhoMuFromSharedSecret (sharedSecret : Bytes32) : Bytes32 × Bytes32 :=
  (c.hmac (ascii "rho") sharedSecret.toList, c.hmac (ascii "mu") sharedSecret.toList)

end PacketCrypto

structure OnionKeys (PublicKey : Type) where
  ephemeralPubkey : PublicKey
  (rho mu : Bytes32)

/-- What a packet is made of: `OnionPacket`, `TrampolineOnionPacket` and the packet of an onion
message. -/
structure Packet (PublicKey : Type) where
  publicKey : PublicKey
  hopData : List UInt8
  hmac : Bytes32
deriving DecidableEq

/-- Bytes that are to become a packet. Positions in the key stream are `u32`. -/
structure PacketData where
  bytes : List UInt8
  bounded : bytes.length < 2 ^ 32

def zeroHmac : Bytes32 := Vector.replicate 32 0

/-! ### Writing -/

inductive PacketError where
  /-- `Err(())` -/
  | err
  | panicked (p : Panic)
deriving DecidableEq, Repr

def PacketError.ofPanic {α : Type} (x : Except Panic α) : Except PacketError α :=
  x.mapError .panicked

@[simp]
theorem PacketError.ofPanic_eq_ok {α : Type} {x : Except Panic α} {a : α} :
    PacketError.ofPanic x = .ok a ↔ x = .ok a := by
  cases x <;> simp [PacketError.ofPanic, Except.mapError]

/-- The first loop of `shift_slice_right`, with `n` positions still to go: from the last position
down, `arr[i] = arr[i - amt]`. -/
def moveRight (amt : ℕ) : ℕ → List UInt8 → List UInt8
  | 0, arr => arr
  | n + 1, arr => moveRight amt n (arr.set (amt + n) (arr.getD n 0))

variable (arr : List UInt8)

def clearAt (i : ℕ) : Except Panic (List UInt8) :=
  if i < arr.length then .ok (arr.set i 0) else .error .index

def shiftSliceRight (amt : ℕ) : Except Panic (List UInt8) :=
  (List.range amt).foldlM clearAt (moveRight amt (arr.length - amt) arr)

/-- `arr[start..start + slice.len()].copy_from_slice(slice)` -/
def copyAt (start : ℕ) (slice : List UInt8) : Except Panic (List UInt8) :=
  if start + slice.length ≤ arr.length then
    .ok (arr.take start ++ slice ++ arr.drop (start + slice.length))
  else .error .index

section Construct

variable {PublicKey : Type} (c : PacketCrypto)

/-- The loop that computes the filler, at hop `i` of which `last` is the last one, with the part
`pos` of the packet already taken. -/
def fillerFrom (len last : ℕ) :
    ℕ → ℕ → List UInt8 → List (List UInt8 × OnionKeys PublicKey) → Option (List UInt8)
  | _, _, res, [] => some res
  | i, pos, res, (payload, keys) :: hops =>
    let seekPos := (len - pos) % 2 ^ 32
    let pos := pos + (payload.length + 32)
    if len < pos then none
    else if i = last then some res
    else
      let res := res ++ List.replicate (pos - res.length) 0
      fillerFrom len last (i + 1) pos (c.applyKeystream keys.rho seekPos res) hops

def packetHmac (mu : Bytes32) (packetData : List UInt8) (associatedData : Option Bytes32) :
    Bytes32 :=
  c.hmac mu.toList (packetData ++ (associatedData.map Vector.toList).getD [])

/-- The end of the packet is overwritten with the filler, at the last hop only. -/
def placeFiller (filler : List UInt8) (i : ℕ) (packetData : List UInt8) :
    Except PacketError (List UInt8) :=
  if i = 0 then
    if filler.length ≤ packetData.length then
      PacketError.ofPanic (copyAt packetData (packetData.length - filler.length) filler)
    else .error .err
  else .ok packetData

/-- The body of the loop that wraps the packet, at the `i`th hop from the end. -/
def wrapHop (associatedData : Option Bytes32) (filler : List UInt8) (i : ℕ)
    (hop : List UInt8 × OnionKeys PublicKey) (packetData : List UInt8) (hmacRes : Bytes32) :
    Except PacketError (List UInt8 × Bytes32) := do
  let packetData ← PacketError.ofPanic (shiftSliceRight packetData (hop.1.length + 32))
  let packetData ← PacketError.ofPanic (copyAt packetData 0 hop.1)
  let packetData ← PacketError.ofPanic (copyAt packetData hop.1.length hmacRes.toList)
  let packetData := c.applyKeystream hop.2.rho 0 packetData
  let packetData ← placeFiller filler i packetData
  .ok (packetData, packetHmac c hop.2.mu packetData associatedData)

/-- The loop, over the hops from the last to the first. -/
def wrapHops (associatedData : Option Bytes32) (filler : List UInt8) :
    ℕ → List (List UInt8 × OnionKeys PublicKey) → List UInt8 → Bytes32 →
      Except PacketError (List UInt8 × Bytes32)
  | _, [], packetData, hmacRes => .ok (packetData, hmacRes)
  | i, hop :: hops, packetData, hmacRes => do
    let (packetData, hmacRes) ← wrapHop c associatedData filler i hop packetData hmacRes
    wrapHops associatedData filler (i + 1) hops packetData hmacRes

/-- `construct_onion_packet_with_init_noise`, of payloads as they are written. -/
def constructOnionPacketWithInitNoise (payloads : List (List UInt8))
    (onionKeys : List (OnionKeys PublicKey)) (packetData : PacketData)
    (associatedData : Option Bytes32) : Except PacketError (Packet PublicKey) := do
  guardWith (payloads ≠ []) .err
  let hops := payloads.zip onionKeys
  let filler ← (fillerFrom c packetData.bytes.length (payloads.length - 1) 0 0 [] hops).elim
    (.error .err) .ok
  let (packetData, hmacRes) ←
    wrapHops c associatedData filler 0 hops.reverse packetData.bytes zeroHmac
  let first ← PacketError.ofPanic (unwrap onionKeys.head?)
  .ok ⟨first.ephemeralPubkey, packetData, hmacRes⟩

end Construct

/-! ### Reading -/

inductive DecodeError where
  | unknownVersion
  | unknownRequiredFeature
  | invalidValue
  | shortRead
  | badLengthDescriptor
  | io
  | unsupportedCompression
  | dangerousValue
deriving DecidableEq, Repr

/-- The values of `enum LocalHTLCFailureReason` that decoding an onion can give. -/
inductive LocalHTLCFailureReason where
  | temporaryNodeFailure
  | invalidOnionVersion
  | invalidOnionHMAC
  | invalidOnionPayload
  | invalidOnionBlinding
  | invalidTrampolinePayload
deriving DecidableEq, Repr

inductive OnionDecodeErr where
  | malformed (errMsg : String) (reason : LocalHTLCFailureReason)
  | relay (errMsg : String) (reason : LocalHTLCFailureReason) (sharedSecret : Bytes32)
      (trampolineSharedSecret : Option Bytes32)
deriving DecidableEq

abbrev Reader (R : Type) : Type := List UInt8 → Except DecodeError (R × List UInt8)

/-- `Writeable` and `ReadableArgs` fit: what was written is read back, and no more of it. -/
def ReadsBack {R : Type} (read : Reader R) (written : List UInt8) (value : R) : Prop :=
  ∀ tail, read (written ++ tail) = .ok (value, tail)

/-- `read_exact` -/
def readBytes (n : ℕ) : Reader (List UInt8) := fun bytes =>
  if n ≤ bytes.length then .ok (bytes.take n, bytes.drop n) else .error .shortRead

theorem readsBack_readBytes {n : ℕ} {value : List UInt8} (h : value.length = n) :
    ReadsBack (readBytes n) value value := by
  intro tail
  rw [readBytes, if_pos (by rw [List.length_append]; omega), List.take_left' h, List.drop_left' h]

/-- `read_exact` into 32 bytes. -/
def readExact32 (bytes : List UInt8) : Option (Bytes32 × List UInt8) :=
  if h : (bytes.take 32).length = 32 then some (⟨(bytes.take 32).toArray, h⟩, bytes.drop 32)
    else none

/-- The failure reason for a payload that cannot be read. -/
def reasonOf : DecodeError → LocalHTLCFailureReason
  | .unknownVersion => .invalidOnionVersion
  | .unknownRequiredFeature | .invalidValue | .shortRead => .invalidOnionPayload
  | _ => .temporaryNodeFailure

/-- `decode_next_hop`. The payload and the HMAC behind it are read off the decrypted packet; if the
packet goes on, it is filled up again with the key stream. -/
def decodeNextHop {R : Type} (c : PacketCrypto) (sharedSecret : Bytes32) (hopData : List UInt8)
    (hmacBytes : Bytes32) (paymentHash : Option Bytes32) (read : Reader R) :
    Except OnionDecodeErr (R × Option (Bytes32 × List UInt8)) :=
  let (rho, mu) := c.genRhoMuFromSharedSecret sharedSecret
  if packetHmac c mu hopData paymentHash ≠ hmacBytes then
    .error (.malformed "HMAC Check failed" .invalidOnionHMAC)
  else
    match read (c.applyKeystream rho 0 hopData) with
    | .error err => .error (.relay "Unable to decode our hop data" (reasonOf err) sharedSecret none)
    | .ok (msg, rest) =>
      match readExact32 rest with
      | none => .error (.relay "Unable to decode our hop data" .invalidOnionPayload
        sharedSecret none)
      | some (hmac, rest) =>
        if hmac = zeroHmac then .ok (msg, none)
        else
          let padding := List.replicate (hopData.length - rest.length) 0
          .ok (msg, some (hmac, rest ++ c.applyKeystream rho hopData.length padding))

end PqLightning.Onion
