import PqLightning.Lib.Ratchet
import PqLightning.Transport.Handshake

/-!
# The message stream of an established connection

The part of `ln/peer_channel_encryptor.rs` that is used once the handshake is over. A message goes
out as an encrypted length and an encrypted body, each with its tag, under two consecutive nonces.
Either side replaces a key when it is about to use it for a length and its counter has reached 1000;
nothing on the wire says so.

Each direction is a ratchet (`Ratchet.State`). Sender and receiver start a frame in the same state,
so they replace the key at the same frames, and the states are again the same when the frame is
over.
-/

namespace PqLightning.Transport

open List

open Gossip (Bytes)

variable {PublicKey SecretKey : Type}

/-! ### Sending -/

abbrev lnMaxMsgLen : ℕ := 65535

/-- `to_be_bytes` of a `u16`; what is above 16 bits is cut off, as `as u16` does. -/
def toBeBytes (n : ℕ) : List UInt8 := [UInt8.ofNat (n / 256), UInt8.ofNat n]

def fromBeBytes (hi lo : UInt8) : ℕ := hi.toNat * 256 + lo.toNat

/-- `struct MessageBuf`: an encoded message behind the room for its length. -/
structure MessageBuf where
  bytes : List UInt8
  header : 18 ≤ bytes.length
  bounded : bytes.length ≤ 18 + lnMaxMsgLen

variable (c : NoiseCrypto PublicKey SecretKey)

def NoiseCrypto.rekey (ck key : Bytes32) : Bytes32 × Bytes32 :=
  c.hkdfExtractExpandTwice ck.toList key.toList

def NoiseCrypto.encryptInPlaceWithAd (res : List UInt8)
    (offset n : ℕ) (key : Bytes32) (ad : List UInt8) : List UInt8 :=
  res.take offset ++ c.encryptWithAd n key ad (res.drop offset)

namespace Finished

variable (keys : Finished)

def sending : Ratchet.State Bytes32 Bytes32 := ⟨keys.sk, keys.sn, keys.sck⟩

def receiving : Ratchet.State Bytes32 Bytes32 := ⟨keys.rk, keys.rn, keys.rck⟩

def withSending (s : Ratchet.State Bytes32 Bytes32) : Finished :=
  { keys with sk := s.key, sn := s.nonce, sck := s.chain }

def withReceiving (s : Ratchet.State Bytes32 Bytes32) : Finished :=
  { keys with rk := s.key, rn := s.nonce, rck := s.chain }

end Finished

namespace PeerChannelEncryptor

variable (c : NoiseCrypto PublicKey SecretKey)

variable (self : PeerChannelEncryptor PublicKey SecretKey)

/-- `encrypt_message_with_header_0s`. A release build returns an error where a debug assertion
stands. -/
def encryptMessageWithHeader0s (msgbuf : List UInt8) :
    Except Panic (List UInt8 × PeerChannelEncryptor PublicKey SecretKey) := do
  let msgLen ← subU64 msgbuf.length 18
  Panic.unless (msgLen ≤ lnMaxMsgLen) .debugAssertion
  match self.noiseState with
  | .finished keys =>
    let s := keys.sending.rotate c.rekey 1000
    let msgbuf := c.encryptWithAd s.nonce s.key [] (toBeBytes msgLen) ++ msgbuf.drop 18
    let sn ← addU64 s.nonce 1
    let msgbuf := c.encryptInPlaceWithAd msgbuf 18 sn s.key []
    let sn ← addU64 sn 1
    .ok (msgbuf, { self with noiseState := .finished (keys.withSending { s with nonce := sn }) })
  | .inProgress .. => .error .debugAssertion

def encryptBuffer (msg : MessageBuf) :
    Except Panic (List UInt8 × PeerChannelEncryptor PublicKey SecretKey) :=
  self.encryptMessageWithHeader0s c msg.bytes

def encryptMessage (typeId : UInt16) (body : List UInt8) :
    Except Panic (List UInt8 × PeerChannelEncryptor PublicKey SecretKey) :=
  self.encryptMessageWithHeader0s c (List.replicate 18 0 ++ (toBeBytes typeId.toNat ++ body))

/-! ### Receiving -/

def decryptLengthHeader (msg : List UInt8) :
    Except Failure (ℕ × PeerChannelEncryptor PublicKey SecretKey) := do
  ofPanic (Panic.unless (msg.length = 16 + 2) .assertion)
  match self.noiseState with
  | .finished keys =>
    let s := keys.receiving.rotate c.rekey 1000
    match ← c.decryptWithAd s.nonce s.key [] msg with
    | [hi, lo] =>
      let rn ← ofPanic (addU64 s.nonce 1)
      .ok (fromBeBytes hi lo,
        { self with noiseState := .finished (keys.withReceiving { s with nonce := rn }) })
    | _ => .error (.panicked .index)
  | .inProgress .. => .error (.panicked .unreachable)

/-- `decrypt_message`: the message, without the tag that the source leaves behind it. -/
def decryptMessage (msg : List UInt8) :
    Except Failure (List UInt8 × PeerChannelEncryptor PublicKey SecretKey) := do
  ofPanic (Panic.unless (msg.length ≤ lnMaxMsgLen + 16) .debugAssertion)
  match self.noiseState with
  | .finished keys =>
    let plaintext ← c.decryptWithAd keys.rn keys.rk [] msg
    let rn ← ofPanic (addU64 keys.rn 1)
    .ok (plaintext, { self with noiseState := .finished { keys with rn := rn } })
  | .inProgress .. => .error (.panicked .unreachable)

end PeerChannelEncryptor

/-! ### Runs -/

/-- A message on its way out. -/
inductive Outgoing where
  | buffer (msg : MessageBuf)
  | message (typeId : UInt16) (body : List UInt8)

namespace Outgoing

def encoded : Outgoing → List UInt8
  | .buffer msg => msg.bytes.drop 18
  | .message typeId body => toBeBytes typeId.toNat ++ body

/-- What is encrypted for it, in order: its length and itself. -/
def plaintexts (msg : Outgoing) : List (List UInt8) := [toBeBytes msg.encoded.length, msg.encoded]

end Outgoing

namespace PeerChannelEncryptor

variable (c : NoiseCrypto PublicKey SecretKey)

def send (self : PeerChannelEncryptor PublicKey SecretKey) :
    Outgoing → Except Panic (List UInt8 × PeerChannelEncryptor PublicKey SecretKey)
  | .buffer msg => self.encryptBuffer c msg
  | .message typeId body => self.encryptMessage c typeId body

def sendAll (self : PeerChannelEncryptor PublicKey SecretKey) :
    List Outgoing → Except Panic (List (List UInt8) × PeerChannelEncryptor PublicKey SecretKey)
  | [] => .ok ([], self)
  | msg :: msgs => do
    let (frame, self) ← self.send c msg
    let (frames, self) ← sendAll self msgs
    .ok (frame :: frames, self)

/-- Takes one message off what has arrived: 18 bytes for the length, and as many for the message as
the length says. -/
def receive (self : PeerChannelEncryptor PublicKey SecretKey) (wire : List UInt8) :
    Except Failure ((ℕ × List UInt8) × List UInt8 × PeerChannelEncryptor PublicKey SecretKey) := do
  let (msgLen, self) ← self.decryptLengthHeader c (wire.take 18)
  let (msg, self) ← self.decryptMessage c ((wire.drop 18).take (msgLen + 16))
  .ok ((msgLen, msg), (wire.drop 18).drop (msgLen + 16), self)

def receiveAll : ℕ → PeerChannelEncryptor PublicKey SecretKey → List UInt8 →
    Except Failure (List (ℕ × List UInt8) × List UInt8 × PeerChannelEncryptor PublicKey SecretKey)
  | 0, self, wire => .ok ([], wire, self)
  | n + 1, self, wire => do
    let (msg, wire, self) ← self.receive c wire
    let (msgs, wire, self) ← receiveAll n self wire
    .ok (msg :: msgs, wire, self)

end PeerChannelEncryptor

/-- The keys and nonces that a run of `n` messages is sent under. -/
def Finished.stamps (c : NoiseCrypto PublicKey SecretKey) (keys : Finished) (n : ℕ) :
    List (Ratchet.Stamp Bytes32) :=
  Ratchet.stamps c.rekey 1000 2 n 0 keys.sending

/-- The chaining key and the key to send under, derived `n` times. -/
def Finished.derived (keys : Finished) : ℕ → Bytes32 × Bytes32
  | 0 => (keys.sck, keys.sk)
  | n + 1 => c.hkdfExtractExpandTwice (keys.derived n).1.toList (keys.derived n).2.toList

/-- The key to send under after it was replaced `epoch` times. -/
def Finished.epochKey (keys : Finished) (epoch : ℕ) : Bytes32 := (keys.derived c epoch).2

/-- How often the key is replaced while `n` messages are sent: when the counter has reached 1000,
and from then on every 500 messages. -/
def Finished.replacements (keys : Finished) (n : ℕ) : ℕ := (n + 499 - (1001 - keys.sn) / 2) / 500

def NoiseCrypto.sealUnder (stamp : Ratchet.Stamp Bytes32) (plaintext : List UInt8) : List UInt8 :=
  c.encryptWithAd stamp.nonce stamp.key [] plaintext

/-! ### One message -/

variable {c : NoiseCrypto PublicKey SecretKey}

theorem fromBeBytes_toBeBytes {n : ℕ} (h : n ≤ lnMaxMsgLen) :
    fromBeBytes (UInt8.ofNat (n / 256)) (UInt8.ofNat n) = n := by
  have hn : n ≤ 65535 := h
  simp only [fromBeBytes, UInt8.toNat_ofNat']
  omega

/-- The frame of a message, in a direction whose key is not due for replacement. -/
def NoiseCrypto.frame (c : NoiseCrypto PublicKey SecretKey) (s : Ratchet.State Bytes32 Bytes32)
    (msg : List UInt8) : List UInt8 :=
  c.encryptWithAd s.nonce s.key [] (toBeBytes msg.length) ++
    c.encryptWithAd (s.nonce + 1) s.key [] msg

def NoiseCrypto.afterFrame (c : NoiseCrypto PublicKey SecretKey)
    (s : Ratchet.State Bytes32 Bytes32) : Ratchet.State Bytes32 Bytes32 :=
  Ratchet.next c.rekey 1000 2 s

variable (s : Ratchet.State Bytes32 Bytes32)

theorem addU64_rotate {n : ℕ} (hn : n ≤ 2) :
    addU64 (s.rotate c.rekey 1000).nonce n = .ok ((s.rotate c.rekey 1000).nonce + n) := by
  have hlt : (s.rotate c.rekey 1000).nonce < 1000 := s.rotate_nonce_lt (by decide)
  exact addU64_of_lt (by omega)

variable {self : PeerChannelEncryptor PublicKey SecretKey} {keys : Finished}

namespace PeerChannelEncryptor

section

variable (hc : c.Lawful) (hself : self.noiseState = .finished keys)

include hc hself

/-- **Sending a message**, whatever is in the room for its length. -/
theorem encryptMessageWithHeader0s_append {room msg : List UInt8} (hroom : room.length = 18)
    (hmsg : msg.length ≤ lnMaxMsgLen) :
    self.encryptMessageWithHeader0s c (room ++ msg) =
      .ok (c.frame (keys.sending.rotate c.rekey 1000) msg,
        { self with noiseState := .finished (keys.withSending (c.afterFrame keys.sending)) }) := by
  have hlen : subU64 (room ++ msg).length 18 = .ok msg.length := by
    rw [length_append, hroom, subU64_of_le (Nat.le_add_right _ _), Nat.add_sub_cancel_left]
  have hheader : (c.encryptWithAd (keys.sending.rotate c.rekey 1000).nonce
      (keys.sending.rotate c.rekey 1000).key [] (toBeBytes msg.length)).length = 18 :=
    hc.length_encryptWithAd _ _ _ _
  have hlast : addU64 ((keys.sending.rotate c.rekey 1000).nonce + 1) 1 =
      .ok ((keys.sending.rotate c.rekey 1000).nonce + 2) := by
    have hlt : (keys.sending.rotate c.rekey 1000).nonce < 1000 :=
      Ratchet.State.rotate_nonce_lt (by decide) _
    exact addU64_of_lt (by omega)
  rw [encryptMessageWithHeader0s, hlen, ok_bind, Panic.unless_of _ hmsg, ok_bind]
  simp only [hself, addU64_rotate _ (Nat.le_succ 1), ok_bind, drop_left' hroom, hlast,
    NoiseCrypto.encryptInPlaceWithAd, take_left' hheader, drop_left' hheader]
  rfl

/-- **Receiving a message** that was sent in the same state. -/
theorem receive_frame {msg : List UInt8} (hmsg : msg.length ≤ lnMaxMsgLen) (wire : List UInt8) :
    self.receive c (c.frame (keys.receiving.rotate c.rekey 1000) msg ++ wire) =
      .ok ((msg.length, msg), wire, { self with
        noiseState := .finished (keys.withReceiving (c.afterFrame keys.receiving)) }) := by
  let s := keys.receiving.rotate c.rekey 1000
  let header := c.encryptWithAd s.nonce s.key [] (toBeBytes msg.length)
  let body := c.encryptWithAd (s.nonce + 1) s.key [] msg
  have hheader : header.length = 18 := hc.length_encryptWithAd _ _ _ _
  have hbody : body.length = msg.length + 16 := hc.length_encryptWithAd _ _ _ _
  let between : PeerChannelEncryptor PublicKey SecretKey :=
    { self with noiseState := .finished (keys.withReceiving { s with nonce := s.nonce + 1 }) }
  have hlength : self.decryptLengthHeader c header = .ok (msg.length, between) := by
    rw [decryptLengthHeader, ofPanic_unless hheader, ok_bind]
    simp only [hself]
    rw [hc.decryptWithAd_encryptWithAd, ok_bind]
    simp only [toBeBytes, addU64_rotate _ (Nat.le_succ 1), ofPanic, Except.mapError, ok_bind,
      fromBeBytes_toBeBytes hmsg]
    rfl
  have hmessage : between.decryptMessage c body = .ok (msg, { self with
      noiseState := .finished (keys.withReceiving (c.afterFrame keys.receiving)) }) := by
    have hbound : body.length ≤ lnMaxMsgLen + 16 := by omega
    have hlast : addU64 (s.nonce + 1) 1 = .ok (s.nonce + 2) := by
      have hlt : s.nonce < 1000 := Ratchet.State.rotate_nonce_lt (by decide) _
      exact addU64_of_lt (by omega)
    have hopen : c.decryptWithAd (s.nonce + 1) s.key [] body = .ok msg :=
      hc.decryptWithAd_encryptWithAd _ _ _ _
    rw [decryptMessage, ofPanic_unless hbound, ok_bind]
    simp only [between, Finished.withReceiving, hopen, hlast, ok_bind, ofPanic, Except.mapError]
    rfl
  have htake : (header ++ (body ++ wire)).take 18 = header := take_left' hheader
  have hdrop : (header ++ (body ++ wire)).drop 18 = body ++ wire := drop_left' hheader
  have hframe : c.frame s msg ++ wire = header ++ (body ++ wire) := append_assoc _ _ _
  rw [hframe, receive, htake, hdrop, hlength, ok_bind]
  simp only [take_left' hbody, drop_left' hbody]
  rw [hmessage, ok_bind]

/-- **Sending**, either way. -/
theorem send_eq {msg : Outgoing} (hmsg : msg.encoded.length ≤ lnMaxMsgLen) :
    self.send c msg = .ok (c.frame (keys.sending.rotate c.rekey 1000) msg.encoded,
      { self with noiseState := .finished (keys.withSending (c.afterFrame keys.sending)) }) := by
  cases msg with
  | buffer msg =>
    have hroom : (msg.bytes.take 18).length = 18 := by
      rw [length_take, Nat.min_eq_left msg.header]
    have happend := encryptMessageWithHeader0s_append hc hself hroom hmsg
    rwa [Outgoing.encoded, take_append_drop] at happend
  | message typeId body => exact encryptMessageWithHeader0s_append hc hself length_replicate hmsg

end

end PeerChannelEncryptor

/-! ### Whole runs -/

namespace Finished

theorem Matches.sending_eq {keys keys' : Finished} (h : keys.Matches keys') :
    keys.sending = keys'.receiving :=
  Ratchet.State.ext h.sk h.sn h.sck

/-- **Step.** The two sides still match when both have taken the same step in one direction. -/
theorem Matches.with {keys keys' : Finished} (h : keys.Matches keys')
    (s : Ratchet.State Bytes32 Bytes32) : (keys.withSending s).Matches (keys'.withReceiving s) :=
  ⟨rfl, rfl, rfl, h.rk, h.rn, h.rck⟩

theorem receiving_withReceiving (keys : Finished) (s : Ratchet.State Bytes32 Bytes32) :
    (keys.withReceiving s).receiving = s := rfl

end Finished

def NoiseCrypto.frames (c : NoiseCrypto PublicKey SecretKey) :
    Ratchet.State Bytes32 Bytes32 → List Outgoing → List (List UInt8)
  | _, [] => []
  | s, msg :: msgs => c.frame (s.rotate c.rekey 1000) msg.encoded :: c.frames (c.afterFrame s) msgs

section

variable (hc : c.Lawful) {msgs : List Outgoing}
  (hmsgs : ∀ msg ∈ msgs, msg.encoded.length ≤ lnMaxMsgLen)
  (hself : self.noiseState = .finished keys)

include hc hmsgs hself

theorem PeerChannelEncryptor.sendAll_eq :
    self.sendAll c msgs = .ok (c.frames keys.sending msgs, { self with
      noiseState := .finished (keys.withSending (c.afterFrame^[msgs.length] keys.sending)) }) := by
  induction msgs generalizing keys self with
  | nil =>
    rw [sendAll]
    obtain ⟨theirNodeId, noiseState, pq⟩ := self
    obtain rfl : noiseState = .finished keys := hself
    rfl
  | cons msg msgs ih =>
    rw [sendAll, send_eq hc hself (hmsgs msg mem_cons_self), ok_bind]
    simp only
    rw [ih (fun msg' hmsg' => hmsgs msg' (mem_cons_of_mem msg hmsg')) rfl, ok_bind]
    rfl

theorem PeerChannelEncryptor.receiveAll_eq :
    self.receiveAll c msgs.length (c.frames keys.receiving msgs).flatten =
      .ok (msgs.map fun msg => (msg.encoded.length, msg.encoded), [], { self with
        noiseState :=
          .finished (keys.withReceiving (c.afterFrame^[msgs.length] keys.receiving)) }) := by
  induction msgs generalizing keys self with
  | nil =>
    obtain ⟨theirNodeId, noiseState, pq⟩ := self
    obtain rfl : noiseState = .finished keys := hself
    rfl
  | cons msg msgs ih =>
    rw [length_cons, receiveAll, NoiseCrypto.frames, flatten_cons,
      receive_frame hc hself (hmsgs msg mem_cons_self), ok_bind]
    simp only
    rw [← Finished.receiving_withReceiving keys (c.afterFrame keys.receiving),
      ih (fun msg' hmsg' => hmsgs msg' (mem_cons_of_mem msg hmsg')) rfl, ok_bind]
    rfl

end

/-- The frames of a run are what was encrypted, each length and each message under a stamp of its
own. -/
theorem NoiseCrypto.flatten_frames (epoch : ℕ) (msgs : List Outgoing) :
    (c.frames s msgs).flatten =
      (List.zipWith c.sealUnder (Ratchet.stamps c.rekey 1000 2 msgs.length epoch s)
        (msgs.flatMap Outgoing.plaintexts)).flatten := by
  induction msgs generalizing s epoch with
  | nil => rfl
  | cons msg msgs ih =>
    rw [frames, flatten_cons, ih (c.afterFrame s) (s.rotatedEpoch 1000 epoch)]
    exact append_assoc _ _ _

theorem length_stamps (epoch : ℕ) (msgs : List Outgoing) :
    (Ratchet.stamps c.rekey 1000 2 msgs.length epoch s).length =
      (msgs.flatMap Outgoing.plaintexts).length := by
  induction msgs generalizing s epoch with
  | nil => rfl
  | cons msg msgs ih =>
    rw [length_cons, Ratchet.stamps, flatMap_cons, length_append, length_append, ← ih]
    rfl

theorem Finished.iterate_rekeyed (keys : Finished) (epoch : ℕ) :
    ((Ratchet.State.rekeyed c.rekey)^[epoch] keys.sending).chain = (keys.derived c epoch).1 ∧
      ((Ratchet.State.rekeyed c.rekey)^[epoch] keys.sending).key = keys.epochKey c epoch := by
  induction epoch with
  | zero => exact ⟨rfl, rfl⟩
  | succ epoch ih =>
    rw [Function.iterate_succ_apply', epochKey, derived, ← ih.1, ← epochKey, ← ih.2]
    exact ⟨rfl, rfl⟩

/-- **Each replacement takes 500 messages**, but for the first. -/
theorem epoch_le_of_mem_stamps {stamp : Ratchet.Stamp Bytes32} {n epoch : ℕ}
    (h : stamp ∈ Ratchet.stamps c.rekey 1000 2 n epoch s) :
    stamp.epoch ≤ epoch + (n + 499 - (1001 - s.nonce) / 2) / 500 := by
  induction n generalizing epoch s with
  | zero => exact absurd h not_mem_nil
  | succ n ih =>
    have hrotated : s.rotatedEpoch 1000 epoch +
        (n + 499 - (1001 - ((s.rotate c.rekey 1000).nonce + 2)) / 2) / 500 ≤
          epoch + (n + 1 + 499 - (1001 - s.nonce) / 2) / 500 := by
      rw [Ratchet.State.rotatedEpoch, Ratchet.State.rotate]
      split
      · simp only [Ratchet.State.rekeyed]
        omega
      · omega
    rcases mem_append.mp h with h | h
    · obtain ⟨i, -, rfl⟩ := Ratchet.mem_frame.mp h
      exact le_trans (Nat.le_add_right _ _) hrotated
    · exact le_trans (ih _ h) hrotated

theorem NoiseCrypto.iterate_afterFrame_nonce_le {n : ℕ}
    (h : n ≠ 0 ∨ s.nonce ≤ 1001) : (c.afterFrame^[n] s).nonce ≤ 1001 := by
  cases n with
  | zero => exact h.resolve_left fun hne => hne rfl
  | succ n =>
    rw [Function.iterate_succ_apply']
    exact Nat.le_of_lt_succ (Ratchet.next_nonce_lt (by decide) _)

/-- **The stream.** Two sides match, and one of them sends any messages that are not too long. All
of them are sent and all of them arrive, with their lengths, and the two sides match again.

What goes over the wire was encrypted under the stamps of the run, one for every length and one for
every message. A stamp has the key of its epoch, and no two stamps of an epoch have the same nonce.
So if the key derivation does not lead back to a key within the replacements of the run, no two
stamps have the same key and nonce. The counter stays at most 1001, and the nonces that are used at
most 1000. -/
theorem stream_delivered (hc : c.Lawful)
    (sender receiver : PeerChannelEncryptor PublicKey SecretKey) {keys keys' : Finished}
    (hsender : sender.noiseState = .finished keys)
    (hreceiver : receiver.noiseState = .finished keys') (hkeys : keys.Matches keys')
    (msgs : List Outgoing) (hmsgs : ∀ msg ∈ msgs, msg.encoded.length ≤ lnMaxMsgLen) :
    (∃ wire sender' receiver' after after',
      sender.sendAll c msgs = .ok (wire, sender') ∧ sender'.noiseState = .finished after ∧
      receiver.receiveAll c msgs.length wire.flatten =
        .ok (msgs.map fun msg => (msg.encoded.length, msg.encoded), [], receiver') ∧
      receiver'.noiseState = .finished after' ∧ after.Matches after' ∧
      (msgs ≠ [] ∨ keys.sn ≤ 1001 → after.sn ≤ 1001) ∧
      (keys.stamps c msgs.length).length = (msgs.flatMap Outgoing.plaintexts).length ∧
      wire.flatten = (List.zipWith c.sealUnder (keys.stamps c msgs.length)
        (msgs.flatMap Outgoing.plaintexts)).flatten) ∧
    (∀ stamp ∈ keys.stamps c msgs.length,
      stamp.nonce ≤ 1000 ∧ stamp.epoch ≤ keys.replacements msgs.length ∧
        stamp.key = keys.epochKey c stamp.epoch) ∧
    ((keys.stamps c msgs.length).map fun stamp => (stamp.epoch, stamp.nonce)).Nodup ∧
    (Set.InjOn (keys.epochKey c) (Set.Iic (keys.replacements msgs.length)) →
      ((keys.stamps c msgs.length).map fun stamp => (stamp.key, stamp.nonce)).Nodup) := by
  have hnodup : ((keys.stamps c msgs.length).map fun stamp => (stamp.epoch, stamp.nonce)).Nodup :=
    Ratchet.nodup_stamps _ _ _
  have hstamps : ∀ stamp ∈ keys.stamps c msgs.length,
      stamp.nonce ≤ 1000 ∧ stamp.epoch ≤ keys.replacements msgs.length ∧
        stamp.key = keys.epochKey c stamp.epoch := by
    intro stamp hstamp
    have hnonce := Ratchet.nonce_lt_of_mem_stamps (by decide) hstamp
    have hepoch := epoch_le_of_mem_stamps _ hstamp
    rw [Nat.zero_add] at hepoch
    exact ⟨by omega, hepoch,
      (Ratchet.key_of_mem_stamps hstamp).trans (keys.iterate_rekeyed stamp.epoch).2⟩
  refine ⟨?_, hstamps, hnodup, ?_⟩
  · have hreceived := PeerChannelEncryptor.receiveAll_eq hc hmsgs hreceiver
    rw [← hkeys.sending_eq] at hreceived
    refine ⟨_, _, _, _, _, PeerChannelEncryptor.sendAll_eq hc hmsgs hsender, rfl, hreceived, rfl,
      hkeys.with _, ?_, length_stamps _ _ _, NoiseCrypto.flatten_frames _ _ _⟩
    intro h
    refine NoiseCrypto.iterate_afterFrame_nonce_le _ (h.imp ?_ id)
    exact fun hne hlen => hne (eq_nil_of_length_eq_zero hlen)
  · intro hfresh
    rw [nodup_map_iff_inj_on hnodup.of_map]
    intro stamp hstamp stamp' hstamp' heq
    obtain ⟨hkey, hnonce⟩ := Prod.mk.inj heq
    obtain ⟨-, hepoch, hof⟩ := hstamps stamp hstamp
    obtain ⟨-, hepoch', hof'⟩ := hstamps stamp' hstamp'
    have hsame : stamp.epoch = stamp'.epoch := hfresh hepoch hepoch' (hof ▸ hof' ▸ hkey)
    exact inj_on_of_nodup_map hnodup hstamp hstamp' (Prod.ext hsame hnonce)

def lastFrame : Finished :=
  ⟨Vector.replicate 32 1, 999, Vector.replicate 32 2, Vector.replicate 32 3, 0,
    Vector.replicate 32 4⟩

/-- The other side. -/
def lastFrameReceived : Finished :=
  ⟨Vector.replicate 32 3, 0, Vector.replicate 32 4, Vector.replicate 32 1, 999,
    Vector.replicate 32 2⟩

/-- The key is replaced before the second message. -/
theorem stream_delivered_lastFrame :
    (∃ wire sender' receiver',
      PeerChannelEncryptor.sendAll modularCrypto ⟨none, .finished lastFrame, none⟩
        [.message 18 [0, 1, 0, 0], .message 19 [0, 0]] = .ok (wire, sender') ∧
      PeerChannelEncryptor.receiveAll modularCrypto 2 ⟨none, .finished lastFrameReceived, none⟩
        wire.flatten = .ok ([(6, [0, 18, 0, 1, 0, 0]), (4, [0, 19, 0, 0])], [], receiver')) ∧
    lastFrame.replacements 2 = 1 ∧
    ((lastFrame.stamps modularCrypto 2).map fun stamp => (stamp.key, stamp.nonce)).Nodup := by
  obtain ⟨⟨wire, sender', receiver', _, _, hsent, -, hreceived, -⟩, -, -, hfresh⟩ :=
    stream_delivered lawful_modularCrypto ⟨none, .finished lastFrame, none⟩
      ⟨none, .finished lastFrameReceived, none⟩ rfl rfl ⟨rfl, rfl, rfl, rfl, rfl, rfl⟩
      [.message 18 [0, 1, 0, 0], .message 19 [0, 0]] (by decide)
  refine ⟨⟨wire, sender', receiver', hsent, hreceived⟩, rfl, hfresh ?_⟩
  have hdiffer : lastFrame.epochKey modularCrypto 0 ≠ lastFrame.epochKey modularCrypto 1 := by
    decide +kernel
  intro epoch hepoch epoch' hepoch' heq
  have hle : epoch ≤ 1 := hepoch
  have hle' : epoch' ≤ 1 := hepoch'
  rcases Nat.le_one_iff_eq_zero_or_eq_one.mp hle with rfl | rfl <;>
    rcases Nat.le_one_iff_eq_zero_or_eq_one.mp hle' with rfl | rfl
  · rfl
  · exact absurd heq hdiffer
  · exact absurd heq.symm hdiffer
  · rfl

end PqLightning.Transport
