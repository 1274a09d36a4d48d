import PqLightning.Transport.Noise

/-!
# Both sides of a handshake agree

Each act is written by one side and read by the other, and both fold the same things into the
transcript hash and the chaining key as they do so. Reading an act leads to the state that writing
it led to (`inboundNoiseAct_outboundNoiseAct`). So there is one state of the handshake after each
act, and the two sides differ only in what they know besides.

The primitives are assumed to do what they are for (`NoiseCrypto.Lawful`): the two halves of a
Diffie-Hellman exchange give the same secret, what was encrypted is decrypted, and what was
encapsulated to a key is decapsulated with it.
-/

namespace PqLightning.Transport

open Crypto List
open Gossip (Bytes constBytes pqKemEkLen toHexString)

variable {PublicKey SecretKey : Type} {c : NoiseCrypto PublicKey SecretKey}

/-! ### The primitives -/

/-- The primitives do what they are for. -/
structure NoiseCrypto.Lawful (c : NoiseCrypto PublicKey SecretKey) : Prop where
  fromSlice_serialize : ∀ key, c.fromSlice (c.serialize key).1 = some key
  sharedSecret_comm : ∀ a b,
    c.sharedSecret (c.fromSecretKey a) b = c.sharedSecret (c.fromSecretKey b) a
  length_encrypt : ∀ key n ad plaintext, (c.encrypt key n ad plaintext).1.length = plaintext.length
  decrypt_encrypt : ∀ key n ad plaintext,
    c.decrypt key n ad (c.encrypt key n ad plaintext).1 (c.encrypt key n ad plaintext).2 =
      some plaintext
  kem : c.kem.Correct

structure NodeSigner.Holds (c : NoiseCrypto PublicKey SecretKey) (signer : NodeSigner PublicKey)
    (key : SecretKey) : Prop where
  getNodeId : signer.getNodeId = some (c.fromSecretKey key)
  ecdh : ∀ theirPub, signer.ecdh theirPub = some (c.sharedSecret theirPub key)

theorem NodeSigner.Holds.secretKey {signer : NodeSigner PublicKey} {key : SecretKey}
    (h : signer.Holds c key) (theirPub : PublicKey) :
    signer.secretKey theirPub = .ok (c.sharedSecret theirPub key) := by
  rw [NodeSigner.secretKey, h.ecdh]
  rfl

theorem copyFromSlice_eq {n : ℕ} (bytes : Bytes n) : copyFromSlice n bytes.1 = .ok bytes :=
  dif_pos bytes.2

theorem ofPanic_unless {p : Prop} [Decidable p] {panic : Panic} (h : p) :
    ofPanic (Panic.unless p panic) = .ok () := by
  rw [Panic.unless_of panic h]
  rfl

namespace NoiseCrypto

theorem decryptWithAd_append (n : ℕ) (key : Bytes32) (ad ciphertext : List UInt8) (tag : Bytes 16) :
    c.decryptWithAd n key ad (ciphertext ++ tag.1) =
      okOr (c.decrypt key n ad ciphertext tag) "Bad MAC" := by
  have hsplit : subU64 (ciphertext ++ tag.1).length 16 = .ok ciphertext.length := by
    rw [length_append, tag.2, subU64_of_le (Nat.le_add_left _ _), Nat.add_sub_cancel]
  rw [decryptWithAd, hsplit]
  change copyFromSlice 16 ((ciphertext ++ tag.1).drop ciphertext.length) >>= _ = _
  rw [drop_left, copyFromSlice_eq, ok_bind, take_left]

variable (hc : c.Lawful)

include hc

theorem Lawful.length_encryptWithAd (n : ℕ) (key : Bytes32) (ad plaintext : List UInt8) :
    (c.encryptWithAd n key ad plaintext).length = plaintext.length + 16 := by
  rw [encryptWithAd, length_append, hc.length_encrypt, (c.encrypt key n ad plaintext).2.2]

/-- **What was encrypted is decrypted.** -/
theorem Lawful.decryptWithAd_encryptWithAd (n : ℕ) (key : Bytes32) (ad plaintext : List UInt8) :
    c.decryptWithAd n key ad (c.encryptWithAd n key ad plaintext) = .ok plaintext := by
  rw [encryptWithAd, decryptWithAd_append, hc.decrypt_encrypt]
  rfl

/-! ### Acts -/

theorem Lawful.length_outboundNoiseAct (state : BidirectionalNoiseState)
    (ourKey : SecretKey) (theirKey : PublicKey) :
    (c.outboundNoiseAct state ourKey theirKey).2.1.length = 50 := by
  simp [outboundNoiseAct, hc.length_encryptWithAd, (c.serialize _).2]

/-- **Reading an act** leads to the state that writing it led to. -/
theorem Lawful.inboundNoiseAct_outboundNoiseAct (state : BidirectionalNoiseState)
    {ourKey : SecretKey} {theirKey : PublicKey} {secretKey : PublicKey → Except Failure Bytes32}
    (hsecret : secretKey (c.fromSecretKey ourKey) = .ok (c.sharedSecret theirKey ourKey)) :
    c.inboundNoiseAct state (c.outboundNoiseAct state ourKey theirKey).2.1 secretKey =
      .ok ((c.outboundNoiseAct state ourKey theirKey).1, c.fromSecretKey ourKey,
        (c.outboundNoiseAct state ourKey theirKey).2.2) := by
  have hlen := hc.length_outboundNoiseAct state ourKey theirKey
  rw [inboundNoiseAct, ofPanic_unless hlen, ok_bind]
  simp only [outboundNoiseAct]
  have hpub : (c.serialize (c.fromSecretKey ourKey)).1.length = 33 := (c.serialize _).2
  simp only [checkVersion, cons_append, drop_succ_cons, drop_zero,
    take_left' hpub, drop_left' hpub, hc.fromSlice_serialize, okOr, ok_bind, hsecret,
    guardWith, if_true]
  rw [hc.decryptWithAd_encryptWithAd]
  rfl

theorem Lawful.inMemory_fromSecretKey (ours theirs : SecretKey) :
    c.inMemory ours (c.fromSecretKey theirs) =
      .ok (c.sharedSecret (c.fromSecretKey ours) theirs) := by
  rw [inMemory, hc.sharedSecret_comm]

end NoiseCrypto

/-! ### Agreement -/

/-- The two sides of an established connection: each receives under the key, the nonce and the
chaining key that the other sends under. -/
structure Finished.Matches (initiator responder : Finished) : Prop where
  sk : initiator.sk = responder.rk
  sn : initiator.sn = responder.rn
  sck : initiator.sck = responder.rck
  rk : initiator.rk = responder.sk
  rn : initiator.rn = responder.sn
  rck : initiator.rck = responder.sck

/-- What both sides have when a handshake is over. -/
structure Finished.Fresh (initiator responder : Finished) : Prop extends
    Finished.Matches initiator responder where
  ck : initiator.sck = initiator.rck
  nonces : initiator.sn = 0 ∧ initiator.rn = 0 ∧ responder.sn = 0 ∧ responder.rn = 0

/-- The two parties of a handshake, with everything they bring along. -/
structure Parties (PublicKey SecretKey : Type) where
  (initiatorKey responderKey : SecretKey)
  (initiatorSigner responderSigner : NodeSigner PublicKey)
  /-- The ephemeral keys. -/
  (ie re : SecretKey)
  /-- The ML-KEM key that the initiator knows the responder by. -/
  responderKemKey : Bytes pqKemEkLen
  (initiatorSeed responderSeed : Bytes32)

/-- The signers hold the keys, and the responder can decapsulate for its ML-KEM key. -/
structure Parties.Genuine (c : NoiseCrypto PublicKey SecretKey)
    (p : Parties PublicKey SecretKey) : Prop where
  initiator : p.initiatorSigner.Holds c p.initiatorKey
  responder : p.responderSigner.Holds c p.responderKey
  kem : c.kem.Pair p.responderSigner.pqKemDecapsulate p.responderKemKey

/-- What a handshake leads to: the two sides, and the ids that their functions returned. -/
structure Established (PublicKey SecretKey : Type) where
  (initiator responder : PeerChannelEncryptor PublicKey SecretKey)
  (responderId initiatorId : PublicKey)

/-- The two sides know each other and have the same keys. -/
structure Established.Agrees (c : NoiseCrypto PublicKey SecretKey) (p : Parties PublicKey SecretKey)
    (e : Established PublicKey SecretKey) : Prop where
  responderId : e.responderId = c.fromSecretKey p.responderKey
  initiatorId : e.initiatorId = c.fromSecretKey p.initiatorKey
  initiatorKnows : e.initiator.theirNodeId = some (c.fromSecretKey p.responderKey)
  responderKnows : e.responder.theirNodeId = some (c.fromSecretKey p.initiatorKey)
  keys : ∃ keys keys', e.initiator.noiseState = .finished keys ∧
    e.responder.noiseState = .finished keys' ∧ Finished.Fresh keys keys'

namespace Parties

open PeerChannelEncryptor

variable (c) (p : Parties PublicKey SecretKey)

def hybrid : Except Failure (Established PublicKey SecretKey) := do
  let initiator := newOutboundPq c (c.fromSecretKey p.responderKey) p.ie
    p.responderKemKey p.initiatorSeed
  let responder ← newInboundPq c p.responderSigner p.responderSeed
  let (actOne, initiator) ← initiator.getActOnePq c
  let (actTwo, responder) ← responder.processActOneWithKeysPq c actOne p.responderSigner p.re
  let ((actThree, responderId), initiator) ← initiator.processActTwoPq c actTwo p.initiatorSigner
  let (initiatorId, responder) ← responder.processActThree c actThree
  .ok ⟨initiator, responder, responderId, initiatorId⟩

def classical : Except Failure (Established PublicKey SecretKey) := do
  let initiator := newOutbound c (c.fromSecretKey p.responderKey) p.ie
  let responder ← newInbound c p.responderSigner
  let (actOne, initiator) ← initiator.getActOne c
  let (actTwo, responder) ← responder.processActOneWithKeys c actOne p.responderSigner p.re
  let ((actThree, responderId), initiator) ← initiator.processActTwo c actTwo p.initiatorSigner
  let (initiatorId, responder) ← responder.processActThree c actThree
  .ok ⟨initiator, responder, responderId, initiatorId⟩

variable {c} {p} (hc : c.Lawful) (h : p.Genuine c)

theorem Genuine.newInbound (h : p.Genuine c) :
    newInbound c p.responderSigner =
      .ok ⟨none, .inProgress .preActOne (.inbound none none none)
        (c.start (c.fromSecretKey p.responderKey)), none⟩ := by
  rw [PeerChannelEncryptor.newInbound, h.responder.getNodeId]
  rfl

include hc

/-! ### Acts of the two parties -/

/-- **The hybrid act one** as the responder reads it, and its answer. -/
theorem processActOneWithKeysPq_append {signer : NodeSigner PublicKey}
    {ie : SecretKey} {theirKey : PublicKey}
    (hsecret : signer.secretKey (c.fromSecretKey ie) = .ok (c.sharedSecret theirKey ie))
    {ssS : Bytes32} {ctS : Bytes pqKemCtLen} (hdecaps : signer.pqKemDecapsulate ctS = some ssS)
    {ephEk : Bytes pqKemEkLen} (hek : c.kem.wellFormed ephEk) (state : BidirectionalNoiseState)
    (re : SecretKey) (seed : Bytes32) :
    let one := c.outboundNoiseAct state ie theirKey
    let two := c.outboundNoiseAct
      (c.mixHash (c.mixKemSecret (c.mixHash one.1 ctS.1) ssS) ephEk.1) re (c.fromSecretKey ie)
    let fresh := c.kem.encapsFromSeed ephEk (c.pqSubseed seed "LDK-PQ-XK-ephemeral-encaps")
    processActOneWithKeysPq c
      ⟨none, .inProgress .preActOne (.inbound none none none) state, some (.inbound seed)⟩
      (one.2.1 ++ ctS.1 ++ ephEk.1) signer re =
        .ok (two.2.1 ++ fresh.2.1, ⟨none, .inProgress .postActTwo
          (.inbound (some (c.fromSecretKey ie)) (some re) (some two.2.2))
          (c.mixKemSecret (c.mixHash two.1 fresh.2.1) fresh.1), some (.inbound seed)⟩) := by
  intro one two fresh
  have hone : one.2.1.length = 50 := hc.length_outboundNoiseAct _ _ _
  have hlen : (one.2.1 ++ ctS.1 ++ ephEk.1).length = 50 + pqKemCtLen + pqKemEkLen := by
    rw [length_append, length_append, hone, ctS.2, ephEk.2]
  have htake : (one.2.1 ++ ctS.1 ++ ephEk.1).take 50 = one.2.1 := by
    rw [append_assoc, take_left' hone]
  have hct : ((one.2.1 ++ ctS.1 ++ ephEk.1).drop 50).take pqKemCtLen = ctS.1 := by
    rw [append_assoc, drop_left' hone, take_left' ctS.2]
  have hdrop : (one.2.1 ++ ctS.1 ++ ephEk.1).drop (50 + pqKemCtLen) = ephEk.1 := by
    rw [drop_left']
    rw [length_append, hone, ctS.2]
  rw [processActOneWithKeysPq, ofPanic_unless hlen, ok_bind]
  simp only [htake, hct, hdrop, copyFromSlice_eq, ok_bind, expectInbound,
    ofPanic_unless]
  rw [hc.inboundNoiseAct_outboundNoiseAct _ hsecret, ok_bind]
  simp only [hdecaps, okOr, ok_bind, MlKem.encapsulate_of_wellFormed hek]
  rfl

/-- **The hybrid act two** as the initiator reads it. -/
theorem processActTwoPq_append {ie re : SecretKey} {ephDk : Bytes pqKemDkLen}
    {ssE : Bytes32} {ctE : Bytes pqKemCtLen} (hdecaps : c.kem.decapsulate ephDk ctE = some ssE)
    (signer : NodeSigner PublicKey) {self : PeerChannelEncryptor PublicKey SecretKey}
    {state : BidirectionalNoiseState}
    (hstate : self.noiseState = .inProgress .postActOne (.outbound ie) state)
    {ek : Bytes pqKemEkLen} {seed : Bytes32}
    (hpq : self.pq = some (.outbound ek seed (some ephDk))) :
    let two := c.outboundNoiseAct state re (c.fromSecretKey ie)
    self.processActTwoPq c (two.2.1 ++ ctE.1) signer =
      self.finishOutbound c (c.mixKemSecret (c.mixHash two.1 ctE.1) ssE)
        (c.fromSecretKey re) two.2.2
        signer := by
  intro two
  have htwo : two.2.1.length = 50 := hc.length_outboundNoiseAct _ _ _
  have hlen : (two.2.1 ++ ctE.1).length = 50 + pqKemCtLen := by
    rw [length_append, htwo, ctE.2]
  rw [processActTwoPq, ofPanic_unless hlen, ok_bind]
  simp only [hpq, hstate, take_left' htwo, drop_left' htwo, copyFromSlice_eq, ok_bind,
    expectOutbound, ofPanic_unless]
  rw [hc.inboundNoiseAct_outboundNoiseAct _ (hc.inMemory_fromSecretKey ie re), ok_bind]
  simp only [hdecaps, okOr, ok_bind]
  rfl

include h

/-- **Act three.** What the initiator seals under the second temporary key, the responder opens;
they learn each other's node id and derive the same keys. -/
theorem Genuine.processActThree_finishOutbound
    (initiator responder : PeerChannelEncryptor PublicKey SecretKey)
    (hid : initiator.theirNodeId = some (c.fromSecretKey p.responderKey))
    {state : BidirectionalNoiseState} {tempK2 : Bytes32} {ie : Option PublicKey}
    (hstate : responder.noiseState =
      .inProgress .postActTwo (.inbound ie (some p.re) (some tempK2)) state) :
    ∃ actThree initiator' responder',
      initiator.finishOutbound c state (c.fromSecretKey p.re) tempK2 p.initiatorSigner =
        .ok ((actThree, c.fromSecretKey p.responderKey), initiator') ∧
      responder.processActThree c actThree = .ok (c.fromSecretKey p.initiatorKey, responder') ∧
      Established.Agrees c p ⟨initiator', responder', c.fromSecretKey p.responderKey,
        c.fromSecretKey p.initiatorKey⟩ := by
  let ourNodeId := c.fromSecretKey p.initiatorKey
  let sealedKey := c.encryptWithAd 1 tempK2 state.h.toList (c.serialize ourNodeId).1
  let ss := c.sharedSecret (c.fromSecretKey p.re) p.initiatorKey
  let mixed := c.hkdf (c.mixHash state sealedKey) ss
  let tag := c.encryptWithAd 0 mixed.2 mixed.1.h.toList []
  let final := c.hkdfExtractExpandTwice mixed.1.ck.toList []
  have hsealed : sealedKey.length = 49 := by
    rw [hc.length_encryptWithAd, (c.serialize ourNodeId).2]
  have htag : tag.length = 16 := hc.length_encryptWithAd _ _ _ _
  let keys : Finished := ⟨final.1, 0, mixed.1.ck, final.2, 0, mixed.1.ck⟩
  let keys' : Finished := ⟨final.2, 0, mixed.1.ck, final.1, 0, mixed.1.ck⟩
  refine ⟨0 :: sealedKey ++ tag, { initiator with noiseState := .finished keys },
    { responder with theirNodeId := some ourNodeId, noiseState := .finished keys' }, ?_, ?_,
    rfl, rfl, hid, rfl, keys, keys', rfl, rfl, ⟨rfl, rfl, rfl, rfl, rfl, rfl⟩, rfl, rfl, rfl,
    rfl, rfl⟩
  · simp only [finishOutbound, h.initiator.getNodeId, okOr, ok_bind, h.initiator.secretKey, hid,
      unwrap, ofPanic, Except.mapError]
    rfl
  · have hlen : (0 :: sealedKey ++ tag).length = 66 := by
      rw [length_append, length_cons, hsealed, htag]
    rw [processActThree, ofPanic_unless hlen, ok_bind]
    have hinbound : responder.expectInbound .postActTwo =
        .ok ((ie, some p.re, some tempK2), state) := by
      simp only [expectInbound, hstate]
      rfl
    rw [hinbound, ok_bind]
    simp only [NoiseCrypto.checkVersion, cons_append, guardWith, if_true, drop_succ_cons,
      drop_zero, take_left' hsealed, drop_left' hsealed, ok_bind, unwrap, ofPanic,
      Except.mapError]
    have hopen : c.decryptWithAd 1 tempK2 state.h.toList sealedKey =
        .ok (c.serialize ourNodeId).1 := hc.decryptWithAd_encryptWithAd _ _ _ _
    have hss : c.sharedSecret ourNodeId p.re = ss := hc.sharedSecret_comm _ _
    have hmac : c.decryptWithAd 0 mixed.2 mixed.1.h.toList tag = .ok [] :=
      hc.decryptWithAd_encryptWithAd _ _ _ _
    rw [hopen, ok_bind, hc.fromSlice_serialize, okOr, ok_bind, hss, hmac]
    rfl

/-! ### Whole handshakes -/

theorem Genuine.responder_secretKey :
    p.responderSigner.secretKey (c.fromSecretKey p.ie) =
      .ok (c.sharedSecret (c.fromSecretKey p.responderKey) p.ie) := by
  rw [h.responder.secretKey, hc.sharedSecret_comm]

theorem classical_agrees : ∃ e, p.classical c = .ok e ∧ e.Agrees c p := by
  let rid := c.fromSecretKey p.responderKey
  let one := c.outboundNoiseAct (c.start rid) p.ie rid
  let two := c.outboundNoiseAct one.1 p.re (c.fromSecretKey p.ie)
  let initiator : PeerChannelEncryptor PublicKey SecretKey :=
    ⟨some rid, .inProgress .postActOne (.outbound p.ie) one.1, none⟩
  let responder : PeerChannelEncryptor PublicKey SecretKey :=
    ⟨none, .inProgress .postActTwo
      (.inbound (some (c.fromSecretKey p.ie)) (some p.re) (some two.2.2)) two.1, none⟩
  have hone : (newOutbound c rid p.ie).getActOne c =
      .ok (one.2.1, initiator) := rfl
  have htwo : processActOneWithKeys c ⟨none, .inProgress .preActOne
      (.inbound none none none) (c.start rid), none⟩ one.2.1 p.responderSigner p.re =
      .ok (two.2.1, responder) := by
    rw [processActOneWithKeys,
      ofPanic_unless (hc.length_outboundNoiseAct _ _ _), ok_bind]
    simp only [expectInbound, ofPanic_unless, ok_bind]
    rw [hc.inboundNoiseAct_outboundNoiseAct _ (h.responder_secretKey hc)]
    rfl
  obtain ⟨actThree, initiator', responder', hthree, hfinal, hagrees⟩ :=
    h.processActThree_finishOutbound hc initiator responder rfl rfl
  have hthree' : initiator.processActTwo c two.2.1 p.initiatorSigner =
      .ok ((actThree, rid), initiator') := by
    rw [← hthree, processActTwo,
      ofPanic_unless (hc.length_outboundNoiseAct _ _ _), ok_bind]
    simp only [expectOutbound, ofPanic_unless, ok_bind, initiator]
    rw [hc.inboundNoiseAct_outboundNoiseAct _ (hc.inMemory_fromSecretKey p.ie p.re)]
    rfl
  refine ⟨_, ?_, hagrees⟩
  rw [classical, h.newInbound, ok_bind]
  simp only [rid, hone, htwo, hthree', hfinal, ok_bind]

theorem hybrid_agrees : ∃ e, p.hybrid c = .ok e ∧ e.Agrees c p := by
  let rid := c.fromSecretKey p.responderKey
  let static := c.kem.encapsFromSeed p.responderKemKey
    (c.pqSubseed p.initiatorSeed "LDK-PQ-XK-static-encaps")
  let ephemeral := c.kem.keypairFromSeed c.sha256
    (c.pqSubseed p.initiatorSeed "LDK-PQ-XK-ephemeral")
  let fresh := c.kem.encapsFromSeed ephemeral.1
    (c.pqSubseed p.responderSeed "LDK-PQ-XK-ephemeral-encaps")
  have hephemeral : c.kem.Pair (c.kem.decapsulate ephemeral.2) ephemeral.1 :=
    hc.kem.pair_keypairFromSeed _ _
  -- the state after each act, on both sides
  let one := c.outboundNoiseAct (c.start rid) p.ie rid
  let stateOne := c.mixHash (c.mixKemSecret (c.mixHash one.1 static.2.1) static.1) ephemeral.1.1
  let two := c.outboundNoiseAct stateOne p.re (c.fromSecretKey p.ie)
  let stateTwo := c.mixKemSecret (c.mixHash two.1 fresh.2.1) fresh.1
  let initiator : PeerChannelEncryptor PublicKey SecretKey :=
    ⟨some rid, .inProgress .postActOne (.outbound p.ie) stateOne,
      some (.outbound p.responderKemKey p.initiatorSeed (some ephemeral.2))⟩
  let responder : PeerChannelEncryptor PublicKey SecretKey :=
    ⟨none, .inProgress .postActTwo
      (.inbound (some (c.fromSecretKey p.ie)) (some p.re) (some two.2.2)) stateTwo,
      some (.inbound p.responderSeed)⟩
  have hone : (newOutboundPq c rid p.ie p.responderKemKey
      p.initiatorSeed).getActOnePq c = .ok (one.2.1 ++ static.2.1 ++ ephemeral.1.1, initiator) := by
    simp only [getActOnePq, newOutboundPq,
      MlKem.encapsulate_of_wellFormed h.kem.wellFormed]
    rfl
  have htwo : processActOneWithKeysPq c ⟨none, .inProgress .preActOne
      (.inbound none none none) (c.start rid), some (.inbound p.responderSeed)⟩
      (one.2.1 ++ static.2.1 ++ ephemeral.1.1) p.responderSigner p.re =
      .ok (two.2.1 ++ fresh.2.1, responder) :=
    processActOneWithKeysPq_append hc (h.responder_secretKey hc) (h.kem.decaps_encaps _)
      hephemeral.wellFormed _ _ _
  obtain ⟨actThree, initiator', responder', hthree, hfinal, hagrees⟩ :=
    h.processActThree_finishOutbound hc initiator responder rfl rfl
  have hthree' : initiator.processActTwoPq c (two.2.1 ++ fresh.2.1) p.initiatorSigner =
      .ok ((actThree, rid), initiator') := by
    rw [← hthree]
    exact processActTwoPq_append hc (hephemeral.decaps_encaps _) _ rfl rfl
  refine ⟨_, ?_, hagrees⟩
  rw [hybrid, newInboundPq, h.newInbound, ok_bind]
  simp only [rid, hone, htwo, hthree', hfinal, ok_bind]

end Parties

/-- **Agreement.** Both handshakes succeed whatever the keys and seeds of two genuine parties are.
Each side then knows the other's node id, sends under the key that the other receives under, and
has all nonces at zero and the one chaining key. -/
theorem handshakes_agree (hc : c.Lawful) (p : Parties PublicKey SecretKey) (h : p.Genuine c) :
    (∃ e, p.hybrid c = .ok e ∧ e.Agrees c p) ∧ (∃ e, p.classical c = .ok e ∧ e.Agrees c p) :=
  ⟨Parties.hybrid_agrees hc h, Parties.classical_agrees hc h⟩

/-! ### Primitives that are lawful -/

/-- A checksum that depends on the order of the bytes. -/
def checksum (data : List UInt8) : UInt8 := data.foldl (fun h byte => 31 * h + byte) 7

/-- Keys modulo 256, whose public keys are their triples: a secret shared between `a` and `b` is
`3 * a * b`. -/
def modularKem : MlKem where
  wellFormed ek := ek = constBytes _ (ek.1.headD 0)
  encapsFromSeed ek seed :=
    (Vector.replicate 32 (ek.1.headD 0 * seed.toList.headD 0),
      constBytes _ (3 * seed.toList.headD 0))
  keygenFromSeed d _ := (constBytes _ (3 * d.toList.headD 0), constBytes _ (d.toList.headD 0))
  tryDecaps dk ct := some (Vector.replicate 32 (ct.1.headD 0 * dk.1.headD 0))

/-- The same keys for the exchanges, checksums for hashes and tags, and a cipher that adds the key
and the nonce to every byte. -/
def modularCrypto : NoiseCrypto UInt8 UInt8 where
  fromSecretKey key := 3 * key
  serialize key := constBytes 33 key
  fromSlice l := if l = (constBytes 33 (l.headD 0)).1 then some (l.headD 0) else none
  sharedSecret theirs ours := Vector.replicate 32 (theirs * ours)
  sha256 data := Vector.replicate 32 (checksum data)
  hkdfExtractExpandTwice salt ikm :=
    (Vector.replicate 32 (checksum (1 :: salt ++ ikm)),
      Vector.replicate 32 (checksum (2 :: salt ++ ikm)))
  encrypt key n ad plaintext :=
    (plaintext.map (· + (key.toList.headD 0 + UInt8.ofNat n)),
      constBytes 16 (checksum (key.toList ++ UInt8.ofNat n :: ad ++ plaintext)))
  decrypt key n ad ciphertext tag :=
    let plaintext := ciphertext.map (· - (key.toList.headD 0 + UInt8.ofNat n))
    if tag = constBytes 16 (checksum (key.toList ++ UInt8.ofNat n :: ad ++ plaintext)) then
      some plaintext
    else none
  kem := modularKem

theorem modularKem_pair (key : UInt8) :
    modularKem.Pair (modularKem.decapsulate (constBytes _ key)) (constBytes _ (3 * key)) where
  wellFormed := decide_eq_true rfl
  decaps_encaps seed := by
    have hcomm : 3 * seed.toList.headD 0 * key = 3 * key * seed.toList.headD 0 := by
      rw [UInt8.mul_assoc, UInt8.mul_comm _ key, UInt8.mul_assoc]
    exact congrArg (fun byte => some (Vector.replicate 32 byte)) hcomm

theorem lawful_modularCrypto : modularCrypto.Lawful where
  fromSlice_serialize _ := if_pos rfl
  sharedSecret_comm a b := by
    have hcomm : 3 * a * b = 3 * b * a := by
      rw [UInt8.mul_assoc, UInt8.mul_comm a, UInt8.mul_assoc]
    exact congrArg (Vector.replicate 32) hcomm
  length_encrypt _ _ _ _ := length_map _
  decrypt_encrypt key n ad plaintext := by
    have hundone : (plaintext.map (· + (key.toList.headD 0 + UInt8.ofNat n))).map
        (· - (key.toList.headD 0 + UInt8.ofNat n)) = plaintext := by
      simp [Function.comp_def]
    simp only [modularCrypto, hundone, if_true]
  kem d _ := modularKem_pair (d.toList.headD 0)

/-- A signer that holds a key of `modularCrypto`, and the same one as its ML-KEM key. -/
def modularSigner (key : UInt8) : NodeSigner UInt8 where
  getNodeId := some (3 * key)
  ecdh theirPub := some (Vector.replicate 32 (theirPub * key))
  pqKemDecapsulate := modularKem.decapsulate (constBytes _ key)

/-- Two parties with the keys 2 and 3. -/
def twoAndThree : Parties UInt8 UInt8 where
  initiatorKey := 2
  responderKey := 3
  initiatorSigner := modularSigner 2
  responderSigner := modularSigner 3
  ie := 4
  re := 5
  responderKemKey := constBytes _ 9
  initiatorSeed := Vector.replicate 32 6
  responderSeed := Vector.replicate 32 7

theorem genuine_twoAndThree : twoAndThree.Genuine modularCrypto :=
  ⟨⟨rfl, fun _ => rfl⟩, ⟨rfl, fun _ => rfl⟩, modularKem_pair 3⟩

theorem handshakes_agree_twoAndThree :
    (∃ e, twoAndThree.hybrid modularCrypto = .ok e ∧ e.Agrees modularCrypto twoAndThree) ∧
    (∃ e, twoAndThree.classical modularCrypto = .ok e ∧ e.Agrees modularCrypto twoAndThree) :=
  handshakes_agree lawful_modularCrypto twoAndThree genuine_twoAndThree

end PqLightning.Transport
