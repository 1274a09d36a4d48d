import PqLightning.Crypto.PqKem
import PqLightning.Gossip.Graph

/-!
# The handshake of the transport

The part of `ln/peer_channel_encryptor.rs` that establishes a connection: the three acts of the
classical handshake, and the hybrid ones in which two ML-KEM secrets are folded into the chaining
key. The curve, the hash, the key derivation and the authenticated encryption are parameters
(`NoiseCrypto`).

An act that fails disconnects the peer. The half-changed state it leaves behind is not modelled; a
function returns a new state only if it succeeds.
-/

namespace PqLightning.Transport

open Crypto
open Gossip (Bytes pqKemEkLen toHexString)

/-! ### Failures and primitives -/

/-- How a function of the transport can end other than by succeeding. -/
inductive Failure where
  /-- A `LightningError` whose action is `DisconnectPeer { msg: None }`. -/
  | disconnect (err : String)
  | panicked (p : Panic)
deriving DecidableEq, Repr

def ofPanic {α : Type} (x : Except Panic α) : Except Failure α := x.mapError .panicked

def okOr {α : Type} (x : Option α) (err : String) : Except Failure α :=
  match x with
  | some a => .ok a
  | none => .error (.disconnect err)

def copyFromSlice (n : ℕ) (l : List UInt8) : Except Failure (Bytes n) :=
  if h : l.length = n then .ok ⟨l, h⟩ else .error (.panicked .index)

structure NoiseCrypto (PublicKey SecretKey : Type) where
  fromSecretKey : SecretKey → PublicKey
  serialize : PublicKey → Bytes 33
  fromSlice : List UInt8 → Option PublicKey
  /-- `SharedSecret::new` -/
  sharedSecret : PublicKey → SecretKey → Bytes32
  sha256 : Sha256
  /-- `hkdf_extract_expand_twice` -/
  hkdfExtractExpandTwice : List UInt8 → List UInt8 → Bytes32 × Bytes32
  /-- `ChaCha20Poly1305::encrypt`, of a key, a nonce, associated data and a plaintext. -/
  encrypt : Bytes32 → ℕ → List UInt8 → List UInt8 → List UInt8 × Bytes 16
  /-- `ChaCha20Poly1305::decrypt` -/
  decrypt : Bytes32 → ℕ → List UInt8 → List UInt8 → Bytes 16 → Option (List UInt8)
  kem : MlKem

/-- What the transport asks of a `NodeSigner`, about the node itself (`Recipient::Node`). -/
structure NodeSigner (PublicKey : Type) where
  getNodeId : Option PublicKey
  ecdh : PublicKey → Option Bytes32
  pqKemDecapsulate : Bytes pqKemCtLen → Option Bytes32

/-! ### The state of one side -/

inductive NoiseStep where
  | preActOne
  | postActOne
  | postActTwo
deriving DecidableEq, Repr

structure BidirectionalNoiseState where
  (h ck : Bytes32)

inductive DirectionalNoiseState (PublicKey SecretKey : Type) where
  | outbound (ie : SecretKey)
  | inbound (ie : Option PublicKey) (re : Option SecretKey) (tempK2 : Option Bytes32)

/-- The fields of `NoiseState::Finished`: key, nonce and chaining key of each direction. -/
structure Finished where
  sk : Bytes32
  sn : ℕ
  (sck rk : Bytes32)
  rn : ℕ
  rck : Bytes32

inductive NoiseState (PublicKey SecretKey : Type) where
  | inProgress (state : NoiseStep) (directionalState : DirectionalNoiseState PublicKey SecretKey)
      (bidirectionalState : BidirectionalNoiseState)
  | finished (keys : Finished)

inductive PqHandshakeState where
  | outbound (rsKemEk : Bytes pqKemEkLen) (pqSeed : Bytes32) (ephDk : Option (Bytes pqKemDkLen))
  | inbound (pqSeed : Bytes32)

structure PeerChannelEncryptor (PublicKey SecretKey : Type) where
  theirNodeId : Option PublicKey
  noiseState : NoiseState PublicKey SecretKey
  pq : Option PqHandshakeState

variable {PublicKey SecretKey : Type}

def noiseCk : Bytes32 := #v[
  0x26, 0x40, 0xf5, 0x2e, 0xeb, 0xcd, 0x9e, 0x88, 0x29, 0x58, 0x95, 0x1c, 0x79, 0x42, 0x50, 0xee,
  0xdb, 0x28, 0x00, 0x2c, 0x05, 0xd7, 0xdc, 0x2e, 0xa0, 0xf1, 0x95, 0x40, 0x60, 0x42, 0xca, 0xf1]

def noiseH : Bytes32 := #v[
  0xd1, 0xfb, 0xf6, 0xde, 0xe4, 0xf6, 0x86, 0xf1, 0x32, 0xfd, 0x70, 0x2c, 0x4a, 0xbf, 0x8f, 0xba,
  0x4b, 0xb4, 0x20, 0xd8, 0x9d, 0x2a, 0x04, 0x8a, 0x3c, 0x4f, 0x4c, 0x09, 0x2e, 0x37, 0xb6, 0x76]

namespace NoiseCrypto

variable (c : NoiseCrypto PublicKey SecretKey)

/-- The state in which both sides begin: the responder's id is part of the transcript. -/
def start (responder : PublicKey) : BidirectionalNoiseState where
  h := c.sha256 (noiseH.toList ++ (c.serialize responder).1)
  ck := noiseCk

variable (state : BidirectionalNoiseState)

/-- `mix_hash`, and the same three lines where the classical acts have them. -/
def mixHash (data : List UInt8) : BidirectionalNoiseState :=
  { state with h := c.sha256 (state.h.toList ++ data) }

def hkdf (ss : Bytes32) : BidirectionalNoiseState × Bytes32 :=
  let (t1, t2) := c.hkdfExtractExpandTwice state.ck.toList ss.toList
  ({ state with ck := t1 }, t2)

def mixKemSecret (ss : Bytes32) : BidirectionalNoiseState := (c.hkdf state ss).1

/-- `encrypt_with_ad`: the ciphertext and, behind it, the tag. -/
def encryptWithAd (n : ℕ) (key : Bytes32) (ad plaintext : List UInt8) : List UInt8 :=
  let (ciphertext, tag) := c.encrypt key n ad plaintext
  ciphertext ++ tag.1

def decryptWithAd (n : ℕ) (key : Bytes32) (ad cyphertext : List UInt8) :
    Except Failure (List UInt8) := do
  let split ← ofPanic (subU64 cyphertext.length 16)
  let tag ← copyFromSlice 16 (cyphertext.drop split)
  okOr (c.decrypt key n ad (cyphertext.take split) tag) "Bad MAC"

/-- `outbound_noise_act`: the new state, the act and the key it was sealed with. -/
def outboundNoiseAct (ourKey : SecretKey) (theirKey : PublicKey) :
    BidirectionalNoiseState × List UInt8 × Bytes32 :=
  let ourPub := (c.serialize (c.fromSecretKey ourKey)).1
  let state := c.mixHash state ourPub
  let (state, tempK) := c.hkdf state (c.sharedSecret theirKey ourKey)
  let tag := c.encryptWithAd 0 tempK state.h.toList []
  (c.mixHash state tag, 0 :: ourPub ++ tag, tempK)

def checkVersion (act : List UInt8) : Except Failure Unit :=
  match act with
  | [] => .error (.panicked .index)
  | version :: _ =>
    guardWith (version = 0)
      (.disconnect ("Unknown handshake version number " ++ toString version.toNat))

/-- `inbound_noise_act`. The secret key is seen through the shared secrets it gives. -/
def inboundNoiseAct (act : List UInt8) (secretKey : PublicKey → Except Failure Bytes32) :
    Except Failure (BidirectionalNoiseState × PublicKey × Bytes32) := do
  ofPanic (Panic.unless (act.length = 50) .assertion)
  checkVersion act
  let theirPub ← okOr (c.fromSlice ((act.drop 1).take 33))
    ("Invalid public key " ++ toHexString ((act.drop 1).take 33))
  let state := c.mixHash state (c.serialize theirPub).1
  let ss ← secretKey theirPub
  let (state, tempK) := c.hkdf state ss
  let _ ← c.decryptWithAd 0 tempK state.h.toList (act.drop 34)
  .ok (c.mixHash state (act.drop 34), theirPub, tempK)

def inMemory (key : SecretKey) (theirPub : PublicKey) : Except Failure Bytes32 :=
  .ok (c.sharedSecret theirPub key)

def pqSubseed (seed : Bytes32) (tag : String) : Bytes32 := c.sha256 (ascii tag ++ seed.toList)

end NoiseCrypto

def NodeSigner.secretKey (signer : NodeSigner PublicKey) (theirPub : PublicKey) :
    Except Failure Bytes32 :=
  okOr (signer.ecdh theirPub) "Failed to derive shared secret"

namespace PeerChannelEncryptor

variable (c : NoiseCrypto PublicKey SecretKey)

def newOutbound (theirNodeId : PublicKey) (ephemeralKey : SecretKey) :
    PeerChannelEncryptor PublicKey SecretKey where
  theirNodeId := some theirNodeId
  noiseState := .inProgress .preActOne (.outbound ephemeralKey) (c.start theirNodeId)
  pq := none

def newOutboundPq (theirNodeId : PublicKey) (ephemeralKey : SecretKey)
    (responderKemKey : Bytes pqKemEkLen) (pqSeed : Bytes32) :
    PeerChannelEncryptor PublicKey SecretKey :=
  { newOutbound c theirNodeId ephemeralKey with
    pq := some (.outbound responderKemKey pqSeed none) }

def newInbound (signer : NodeSigner PublicKey) :
    Except Failure (PeerChannelEncryptor PublicKey SecretKey) := do
  let ourNodeId ← ofPanic (unwrap signer.getNodeId)
  .ok { theirNodeId := none
        noiseState := .inProgress .preActOne (.inbound none none none) (c.start ourNodeId)
        pq := none }

def newInboundPq (signer : NodeSigner PublicKey) (pqSeed : Bytes32) :
    Except Failure (PeerChannelEncryptor PublicKey SecretKey) := do
  let res ← newInbound c signer
  .ok { res with pq := some (.inbound pqSeed) }

/-! ### The acts -/

variable (self : PeerChannelEncryptor PublicKey SecretKey)

/-- The side that called, with what the acts of an outbound connection work on. -/
def expectOutbound (step : NoiseStep) : Except Failure (SecretKey × BidirectionalNoiseState) :=
  match self.noiseState with
  | .inProgress state (.outbound ie) bidirectionalState => do
    ofPanic (Panic.unless (state = step) .unreachable)
    .ok (ie, bidirectionalState)
  | _ => .error (.panicked .unreachable)

/-- The side that was called, with what the acts of an inbound connection work on. -/
def expectInbound (step : NoiseStep) : Except Failure
      ((Option PublicKey × Option SecretKey × Option Bytes32) × BidirectionalNoiseState) :=
  match self.noiseState with
  | .inProgress state (.inbound ie re tempK2) bidirectionalState => do
    ofPanic (Panic.unless (state = step) .unreachable)
    .ok ((ie, re, tempK2), bidirectionalState)
  | _ => .error (.panicked .unreachable)

def getActOne : Except Failure (List UInt8 × PeerChannelEncryptor PublicKey SecretKey) := do
  let (ie, state) ← self.expectOutbound .preActOne
  let theirNodeId ← ofPanic (unwrap self.theirNodeId)
  let (state, res, _) := c.outboundNoiseAct state ie theirNodeId
  .ok (res, { self with noiseState := .inProgress .postActOne (.outbound ie) state })

def processActOneWithKeys (actOne : List UInt8)
    (signer : NodeSigner PublicKey) (ourEphemeral : SecretKey) :
    Except Failure (List UInt8 × PeerChannelEncryptor PublicKey SecretKey) := do
  ofPanic (Panic.unless (actOne.length = 50) .assertion)
  let ((ie, re, _), state) ← self.expectInbound .preActOne
  let (state, theirPub, _) ← c.inboundNoiseAct state actOne signer.secretKey
  let ie := ie.getD theirPub
  let re := re.getD ourEphemeral
  let (state, res, tempK) := c.outboundNoiseAct state re ie
  .ok (res, { self with
    noiseState := .inProgress .postActTwo (.inbound (some ie) (some re) (some tempK)) state })

/-- The second half of `process_act_two` and of `process_act_two_pq`: our static key, sealed, and
the keys of the finished connection. -/
def finishOutbound (state : BidirectionalNoiseState) (re : PublicKey) (tempK2 : Bytes32)
    (signer : NodeSigner PublicKey) :
    Except Failure ((List UInt8 × PublicKey) × PeerChannelEncryptor PublicKey SecretKey) := do
  let ourNodeId ← okOr signer.getNodeId "Failed to encrypt message"
  let sealedKey := c.encryptWithAd 1 tempK2 state.h.toList (c.serialize ourNodeId).1
  let state := c.mixHash state sealedKey
  let ss ← signer.secretKey re
  let (state, tempK) := c.hkdf state ss
  let tag := c.encryptWithAd 0 tempK state.h.toList []
  let (sk, rk) := c.hkdfExtractExpandTwice state.ck.toList []
  let theirNodeId ← ofPanic (unwrap self.theirNodeId)
  .ok ((0 :: sealedKey ++ tag, theirNodeId),
    { self with noiseState := .finished ⟨sk, 0, state.ck, rk, 0, state.ck⟩ })

def processActTwo (actTwo : List UInt8) (signer : NodeSigner PublicKey) :
    Except Failure ((List UInt8 × PublicKey) × PeerChannelEncryptor PublicKey SecretKey) := do
  ofPanic (Panic.unless (actTwo.length = 50) .assertion)
  let (ie, state) ← self.expectOutbound .postActOne
  let (state, re, tempK2) ← c.inboundNoiseAct state actTwo (c.inMemory ie)
  self.finishOutbound c state re tempK2 signer

def processActThree (actThree : List UInt8) :
    Except Failure (PublicKey × PeerChannelEncryptor PublicKey SecretKey) := do
  ofPanic (Panic.unless (actThree.length = 66) .assertion)
  let ((_, re, tempK2), state) ← self.expectInbound .postActTwo
  NoiseCrypto.checkVersion actThree
  let sealedKey := (actThree.drop 1).take 49
  let tempK2 ← ofPanic (unwrap tempK2)
  let theirNodeId ← c.decryptWithAd 1 tempK2 state.h.toList sealedKey
  let theirNodeId ← okOr (c.fromSlice theirNodeId)
    ("Bad node_id from peer, " ++ toHexString theirNodeId)
  let state := c.mixHash state sealedKey
  let re ← ofPanic (unwrap re)
  let (state, tempK) := c.hkdf state (c.sharedSecret theirNodeId re)
  let _ ← c.decryptWithAd 0 tempK state.h.toList (actThree.drop 50)
  let (rk, sk) := c.hkdfExtractExpandTwice state.ck.toList []
  .ok (theirNodeId, { self with
    theirNodeId := some theirNodeId
    noiseState := .finished ⟨sk, 0, state.ck, rk, 0, state.ck⟩ })

def getActOnePq : Except Failure (List UInt8 × PeerChannelEncryptor PublicKey SecretKey) :=
  match self.pq with
  | some (.outbound rsKemEk pqSeed _) => do
    let (ie, state) ← self.expectOutbound .preActOne
    let theirNodeId ← ofPanic (unwrap self.theirNodeId)
    let (state, classical, _) := c.outboundNoiseAct state ie theirNodeId
    let (ssS, ctS) ← ofPanic
      (unwrap (c.kem.encapsulate rsKemEk (c.pqSubseed pqSeed "LDK-PQ-XK-static-encaps")))
    let state := c.mixKemSecret (c.mixHash state ctS.1) ssS
    let (ephEk, ephDk) := c.kem.keypairFromSeed c.sha256 (c.pqSubseed pqSeed "LDK-PQ-XK-ephemeral")
    let state := c.mixHash state ephEk.1
    .ok (classical ++ ctS.1 ++ ephEk.1, { self with
      noiseState := .inProgress .postActOne (.outbound ie) state
      pq := some (.outbound rsKemEk pqSeed (some ephDk)) })
  | _ => .error (.panicked .unreachable)

def processActOneWithKeysPq (actOne : List UInt8)
    (signer : NodeSigner PublicKey) (ourEphemeral : SecretKey) :
    Except Failure (List UInt8 × PeerChannelEncryptor PublicKey SecretKey) := do
  ofPanic (Panic.unless (actOne.length = 50 + pqKemCtLen + pqKemEkLen) .assertion)
  match self.pq with
  | some (.inbound pqSeed) =>
    let ctS ← copyFromSlice pqKemCtLen ((actOne.drop 50).take pqKemCtLen)
    let ephEk ← copyFromSlice pqKemEkLen (actOne.drop (50 + pqKemCtLen))
    let ((ie, re, _), state) ← self.expectInbound .preActOne
    let (state, theirPub, _) ← c.inboundNoiseAct state (actOne.take 50) signer.secretKey
    let ie := ie.getD theirPub
    let state := c.mixHash state ctS.1
    let ssS ← okOr (signer.pqKemDecapsulate ctS)
      "Failed to decapsulate post-quantum static shared secret"
    let state := c.mixHash (c.mixKemSecret state ssS) ephEk.1
    let re := re.getD ourEphemeral
    let (state, classical, tempK) := c.outboundNoiseAct state re ie
    let (ssE, ctE) ← okOr
      (c.kem.encapsulate ephEk (c.pqSubseed pqSeed "LDK-PQ-XK-ephemeral-encaps"))
      "Invalid post-quantum ephemeral key in act one"
    let state := c.mixKemSecret (c.mixHash state ctE.1) ssE
    .ok (classical ++ ctE.1, { self with
      noiseState := .inProgress .postActTwo (.inbound (some ie) (some re) (some tempK)) state })
  | _ => .error (.panicked .unreachable)

def processActTwoPq (actTwo : List UInt8) (signer : NodeSigner PublicKey) :
    Except Failure ((List UInt8 × PublicKey) × PeerChannelEncryptor PublicKey SecretKey) := do
  ofPanic (Panic.unless (actTwo.length = 50 + pqKemCtLen) .assertion)
  match self.pq with
  | some (.outbound _ _ (some ephDk)) =>
    let ctE ← copyFromSlice pqKemCtLen (actTwo.drop 50)
    let (ie, state) ← self.expectOutbound .postActOne
    let (state, re, tempK2) ← c.inboundNoiseAct state (actTwo.take 50) (c.inMemory ie)
    let state := c.mixHash state ctE.1
    let ssE ← okOr (c.kem.decapsulate ephDk ctE)
      "Failed to decapsulate post-quantum ephemeral shared secret"
    let state := c.mixKemSecret state ssE
    self.finishOutbound c state re tempK2 signer
  | _ => .error (.panicked .unreachable)

end PeerChannelEncryptor

end PqLightning.Transport
