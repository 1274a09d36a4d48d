import PqLightning.Onion.Build
import PqLightning.Onion.Peel

/-!
# The two onion builders compared

`create_pq_payment_onion` repeats what `create_payment_onion_internal` does, with other keys.
Whether a packet can be built depends on the number of keys and the lengths of the payloads only
(`construct_of_alike`), and the payloads do not depend on what is inside a Trampoline packet
(`buildOnionPayloads_withPacket`). So what the one function builds the other can build too, with one
exception: for a path that ends in a blinded tail without Trampoline hops, only the classical
function refuses to send payment metadata.
-/

namespace PqLightning.Onion

open List OutboundOnionPayload
open Gossip (constBytes)

variable {PublicKey SecretKey Scalar : Type}

/-! ### Payloads with another Trampoline packet -/

/-- What commutes with each step of a fold commutes with the fold. -/
theorem foldlM_comm {ε α β : Type} {f : β → α → Except ε β} {g : β → β}
    (hstep : ∀ b a, f (g b) a = (f b a).map g) (l : List α) (b : β) :
    l.foldlM f (g b) = (l.foldlM f b).map g := by
  induction l generalizing b with
  | nil => rfl
  | cons a l ih =>
    rw [foldlM_cons, foldlM_cons, hstep]
    cases f b a with
    | error e => rfl
    | ok b' => exact ih b'

section Walk

variable {HopId Payload : Type}

def Walk.mapRes (f : Payload → Payload) (walk : Walk HopId Payload) : Walk HopId Payload :=
  { walk with res := walk.res.map f }

theorem closeHop_mapRes (f : Payload → Payload) (hop : PathHop HopId) (hopCltvDelta : ℕ)
    (walk : Walk HopId Payload) :
    closeHop hop hopCltvDelta (walk.mapRes f) =
      (closeHop hop hopCltvDelta walk).map (Walk.mapRes f) := by
  obtain ⟨curValueMsat, curCltv, lastHopId, res⟩ := walk
  change closeHop hop hopCltvDelta ⟨curValueMsat, curCltv, lastHopId, res.map f⟩ = _
  rw [closeHop, closeHop]
  cases OnionError.ofPanic (addU64 curValueMsat hop.feeMsat) with
  | error e => rfl
  | ok curValueMsat =>
    rw [ok_bind, ok_bind]
    cases guardWith (curValueMsat < 21000000 * 100000000 * 1000)
      (OnionError.invalidRoute "Channel fees overflowed?") with
    | error e => rfl
    | ok =>
      simp only [ok_bind]
      cases guardWith (saturatingAddU32 curCltv hopCltvDelta < 500000000)
        (OnionError.invalidRoute "Channel CLTV overflowed?") <;> rfl

theorem forwardRound_mapRes {op : OnionPayload PublicKey HopId Payload} {f : Payload → Payload}
    (hf : ∀ hopId amt cltv, f (op.newForward hopId amt cltv) = op.newForward hopId amt cltv)
    (walk : Walk HopId Payload) (hop : PathHop HopId) :
    forwardRound op (walk.mapRes f) hop = (forwardRound op walk hop).map (Walk.mapRes f) := by
  simp only [forwardRound, Walk.mapRes]
  cases walk.lastHopId with
  | none => rfl
  | some hopId =>
    rw [Option.elim_some, ok_bind, ok_bind, ← hf, ← map_cons]
    exact closeHop_mapRes f hop hop.cltvExpiryDelta ⟨walk.curValueMsat, walk.curCltv, some hopId, _⟩

end Walk

variable (path : Path PublicKey) (recipientOnion : RecipientOnionFields) (curBlockHeight : ℕ)
  (keysendPreimage : Option Bytes32) (invoiceRequest : Option (List UInt8))

theorem tailRound_withPacket (packet packet' : Packet PublicKey)
    (tail : Option (BlindedTail PublicKey)) (hop : PathHop ℕ) :
    tailRound outboundOnionPayload recipientOnion curBlockHeight keysendPreimage invoiceRequest
        (tail.map fun tail => .sendToTrampoline packet' tail.finalValueMsat) hop =
      (tailRound outboundOnionPayload recipientOnion curBlockHeight keysendPreimage invoiceRequest
        (tail.map fun tail => .sendToTrampoline packet tail.finalValueMsat) hop).map
          (Walk.mapRes (withPacket packet')) := by
  cases tail with
  | none =>
    exact closeHop_mapRes (withPacket packet') hop hop.cltvExpiryDelta
      ⟨0, curBlockHeight, none, [receive _ _ _ _ _ _]⟩
  | some tail =>
    simp only [tailRound, Option.map_some]
    cases OnionError.ofPanic (addU64 tail.finalValueMsat hop.feeMsat) with
    | error e => rfl
    | ok amt =>
      exact closeHop_mapRes (withPacket packet') hop _
        ⟨tail.finalValueMsat, curBlockHeight, none,
          [trampolineEntrypoint amt _ _ packet none]⟩

/-- **Another Trampoline packet** changes nothing but the packet. -/
theorem buildOnionPayloads_withPacket (packet packet' : Packet PublicKey) :
    buildOnionPayloads path recipientOnion curBlockHeight keysendPreimage invoiceRequest
        (some packet') =
      (buildOnionPayloads path recipientOnion curBlockHeight keysendPreimage invoiceRequest
        (some packet)).map (Prod.map (List.map (.withPacket packet')) id) := by
  simp only [buildOnionPayloads, buildOnionPayloadsCallback]
  cases (path.hops.map RouteHop.pathHop).reverse with
  | nil => rfl
  | cons last hops =>
    simp only
    rw [tailRound_withPacket _ _ _ _ packet packet']
    cases tailRound outboundOnionPayload recipientOnion curBlockHeight keysendPreimage
      invoiceRequest
      (path.blindedTail.map fun tail => .sendToTrampoline packet tail.finalValueMsat) last with
    | error e => rfl
    | ok walk =>
      change hops.foldlM (forwardRound outboundOnionPayload)
        (walk.mapRes (withPacket packet')) >>= _ = _
      rw [foldlM_comm (forwardRound_mapRes fun _ _ _ => rfl)]
      change _ = Except.map _ (hops.foldlM (forwardRound outboundOnionPayload) walk >>= _)
      cases hops.foldlM (forwardRound outboundOnionPayload) walk <;> rfl

/-- Payloads that differ at most in what is inside a Trampoline packet. -/
inductive Alike : OutboundOnionPayload PublicKey → OutboundOnionPayload PublicKey → Prop
  | refl (payload) : Alike payload payload
  | entrypoint (amtToForward outgoingCltvValue multipathTrampolineData currentPathKey)
      {packet packet' : Packet PublicKey} (publicKey : packet.publicKey = packet'.publicKey)
      (length : packet.hopData.length = packet'.hopData.length) :
    Alike
      (.trampolineEntrypoint amtToForward outgoingCltvValue multipathTrampolineData packet
        currentPathKey)
      (.trampolineEntrypoint amtToForward outgoingCltvValue multipathTrampolineData packet'
        currentPathKey)

theorem alike_withPacket (payload : OutboundOnionPayload PublicKey)
    {packet packet' : Packet PublicKey}
    (publicKey : packet.publicKey = packet'.publicKey)
    (length : packet.hopData.length = packet'.hopData.length) :
    Alike (payload.withPacket packet) (payload.withPacket packet') := by
  cases payload with
  | trampolineEntrypoint => exact .entrypoint _ _ _ _ publicKey length
  | forward => exact .refl _
  | receive => exact .refl _
  | blindedForward => exact .refl _
  | blindedReceive => exact .refl _

/-! ### The number of payloads -/

section Count

variable {HopId Payload : Type} {op : OnionPayload PublicKey HopId Payload}

variable {walk walk' : Walk HopId Payload}

theorem res_closeHop {hop : PathHop HopId} {hopCltvDelta : ℕ}
    (h : closeHop hop hopCltvDelta walk = .ok walk') : walk'.res = walk.res := by
  rw [closeHop] at h
  obtain ⟨_, -, h⟩ := bind_eq_ok.mp h
  obtain ⟨_, -, h⟩ := bind_eq_ok.mp h
  obtain ⟨_, -, h⟩ := bind_eq_ok.mp h
  rw [← Except.ok.inj h]

theorem length_res_forwardRound {hop : PathHop HopId}
    (h : forwardRound op walk hop = .ok walk') : walk'.res.length = walk.res.length + 1 := by
  rw [forwardRound] at h
  obtain ⟨_, -, h⟩ := bind_eq_ok.mp h
  rw [res_closeHop h, length_cons]

theorem length_res_foldlM {hops : List (PathHop HopId)}
    (h : hops.foldlM (forwardRound op) walk = .ok walk') :
    walk'.res.length = walk.res.length + hops.length := by
  induction hops generalizing walk with
  | nil => rw [← Except.ok.inj h, length_nil, Nat.add_zero]
  | cons hop hops ih =>
    rw [foldlM_cons] at h
    obtain ⟨next, hnext, h⟩ := bind_eq_ok.mp h
    rw [ih h, length_res_forwardRound hnext, length_cons, Nat.add_assoc, Nat.add_comm 1]

/-- A blinded tail has one payload for each hop. -/
theorem length_blindedPayloads {finalValueMsat excessFinalCltvExpiryDelta : ℕ}
    {hops : List (BlindedHop PublicKey)} {blindingPoint : Option PublicKey} {value value' : ℕ}
    {payloads : List Payload}
    (h : blindedPayloads op recipientOnion curBlockHeight keysendPreimage invoiceRequest
      finalValueMsat excessFinalCltvExpiryDelta hops blindingPoint value = .ok (payloads, value')) :
    payloads.length = hops.length := by
  induction hops generalizing blindingPoint payloads value' with
  | nil =>
    cases h
    rfl
  | cons hop hops ih =>
    cases hops with
    | nil =>
      rw [blindedPayloads] at h
      obtain ⟨_, -, h⟩ := bind_eq_ok.mp h
      obtain ⟨_, -, h⟩ := bind_eq_ok.mp h
      rw [← (ok_pair_inj h).1, length_singleton, length_singleton]
    | cons hop' hops =>
      rw [blindedPayloads] at h
      obtain ⟨⟨rest, _⟩, hrest, h⟩ := bind_eq_ok.mp h
      rw [← (ok_pair_inj h).1, length_cons, ih hrest]
      rfl

end Count

/-- A Trampoline onion has at most as many payloads as there are keys for it. -/
theorem length_buildTrampolineOnionPayloads {blindedTail : BlindedTail PublicKey}
    {payloads : List (OutboundTrampolinePayload PublicKey)} {total : ℕ}
    (h : buildTrampolineOnionPayloads blindedTail recipientOnion curBlockHeight keysendPreimage =
      .ok (payloads, total)) :
    payloads.length ≤
      (layerPubkeys (blindedTail.trampolineHops.map TrampolineHop.pubkey)
        (some blindedTail)).length := by
  have hkeys : (layerPubkeys (blindedTail.trampolineHops.map TrampolineHop.pubkey)
      (some blindedTail)).length = blindedTail.trampolineHops.length +
        (blindedTail.hops.length - 1) := by
    simp [layerPubkeys]
  have hreverse : (blindedTail.trampolineHops.map TrampolineHop.pathHop).reverse.length =
      blindedTail.trampolineHops.length := by
    rw [length_reverse, length_map]
  rw [buildTrampolineOnionPayloads] at h
  obtain ⟨⟨res, _⟩, hres, h⟩ := bind_eq_ok.mp h
  obtain rfl : res = payloads := (ok_pair_inj h).1
  rw [buildOnionPayloadsCallback] at hres
  rw [hkeys]
  split at hres
  · rw [← (ok_pair_inj hres).1]
    exact Nat.zero_le _
  next last hops hhops =>
    rw [hhops, length_cons] at hreverse
    obtain ⟨walk, hwalk, hres⟩ := bind_eq_ok.mp hres
    obtain ⟨walk', hwalk', hres⟩ := bind_eq_ok.mp hres
    rw [← (ok_pair_inj hres).1, length_res_foldlM hwalk']
    simp only [tailRound, BlindedTail.details] at hwalk
    obtain ⟨⟨tail, _⟩, htail, hwalk⟩ := bind_eq_ok.mp hwalk
    rw [res_closeHop hwalk]
    have := length_blindedPayloads _ _ _ _ htail
    simp only
    omega

/-! ### Keys -/

theorem elim_eq_ok {ε α : Type} {x : Option α} {e : ε} {a : α} :
    x.elim (Except.error e) Except.ok = Except.ok a ↔ x = some a := by
  cases x <;> simp

variable (c : OnionCrypto PublicKey SecretKey Scalar)

@[simp]
theorem length_constructOnionKeysGeneric (pubkeys : List PublicKey) (blindedPriv : SecretKey) :
    (constructOnionKeysGeneric c pubkeys blindedPriv).length = pubkeys.length := by
  induction pubkeys generalizing blindedPriv with
  | nil => rfl
  | cons pubkey pubkeys ih => exact congrArg (· + 1) (ih _)

variable {c} {hopKemKeys : List (Gossip.Bytes Gossip.pqKemEkLen)} {keys : PqKeys PublicKey}
  {kemBaseSeed : Bytes32} {sessionPriv : SecretKey} {offset : ℕ}

/-- The ephemeral keys of a post-quantum onion are the classical ones. -/
theorem ephemeralPubkey_pqKeysFrom {idx : ℕ} {layers : List (Bytes32 × PublicKey)}
    (h : pqKeysFrom c hopKemKeys kemBaseSeed offset idx layers = some keys) :
    keys.onionKeys.map OnionKeys.ephemeralPubkey = layers.map Prod.snd := by
  induction layers generalizing idx keys with
  | nil =>
    cases h
    rfl
  | cons layer layers ih =>
    rw [pqKeysFrom] at h
    split at h
    · obtain ⟨_, -, h⟩ := Option.bind_eq_some_iff.mp h
      obtain ⟨rest, hrest, h⟩ := Option.bind_eq_some_iff.mp h
      cases h
      exact congrArg (layer.2 :: ·) (ih hrest)
    · obtain ⟨rest, hrest, h⟩ := Option.bind_eq_some_iff.mp h
      cases h
      exact congrArg (layer.2 :: ·) (ih hrest)

theorem ephemeralPubkey_constructPqOnionKeysInner {hops : List PublicKey}
    {blindedTail : Option (BlindedTail PublicKey)}
    (h : constructPqOnionKeysInner c hops blindedTail sessionPriv hopKemKeys kemBaseSeed offset =
      some keys) :
    keys.onionKeys.map OnionKeys.ephemeralPubkey =
      (constructOnionKeysGeneric c (layerPubkeys hops blindedTail) sessionPriv).map Prod.snd := by
  rw [constructPqOnionKeysInner] at h
  split at h
  · cases h
  · exact ephemeralPubkey_pqKeysFrom h

variable (c) in
theorem ephemeralPubkey_map_onionKeys (layers : List (Bytes32 × PublicKey)) :
    (layers.map fun layer => c.onionKeys layer.2 layer.1).map OnionKeys.ephemeralPubkey =
      layers.map Prod.snd := by
  rw [map_map]
  rfl

/-! ### Packets -/

variable {payloads payloads' : List (List UInt8)}
    {onionKeys onionKeys' : List (OnionKeys PublicKey)}
  {packet : Packet PublicKey} {prngSeed paymentHash : Bytes32}

theorem roomOf_zip (h : payloads.length ≤ onionKeys.length) :
    roomOf (payloads.zip onionKeys) = (payloads.map fun payload => payload.length + 32).sum := by
  have hfst : (payloads.zip onionKeys).map Prod.fst = payloads := map_fst_zip h
  rw [roomOf]
  conv_rhs => rw [← hfst, map_map]
  rfl

section

variable (hpayloads : payloads.map List.length = payloads'.map List.length)
  (hkeys : onionKeys.map OnionKeys.ephemeralPubkey = onionKeys'.map OnionKeys.ephemeralPubkey)

include hpayloads hkeys

/-- **Packets alike.** Whether a packet can be built, its length and its ephemeral key depend on the
lengths of the payloads and on the ephemeral keys only. -/
theorem construct_of_alike {c : PacketCrypto} {noise noise' : PacketData}
    {associatedData : Option Bytes32} (hnoise : noise.bytes.length = noise'.bytes.length)
    (hcount : payloads.length ≤ onionKeys.length)
    (h : constructOnionPacketWithInitNoise c payloads onionKeys noise associatedData = .ok packet) :
    ∃ packet', constructOnionPacketWithInitNoise c payloads' onionKeys' noise' associatedData =
        .ok packet' ∧
      packet.publicKey = packet'.publicKey ∧ packet.hopData.length = packet'.hopData.length := by
  have hlength : payloads.length = payloads'.length := by
    simpa using congrArg List.length hpayloads
  have hlength' : onionKeys.length = onionKeys'.length := by simpa using congrArg List.length hkeys
  have hne : payloads ≠ [] := by
    rintro rfl
    cases h
  have hne' : payloads' ≠ [] := by
    rw [← length_pos_iff, ← hlength, length_pos_iff]
    exact hne
  have hcount' : payloads'.length ≤ onionKeys'.length := by omega
  have hroom : roomOf (payloads.zip onionKeys) = roomOf (payloads'.zip onionKeys') := by
    have hsum := congrArg (fun lengths => (lengths.map (· + 32)).sum) hpayloads
    simp only [map_map] at hsum
    rw [roomOf_zip hcount, roomOf_zip hcount']
    exact hsum
  have hpos : 0 < payloads.length := length_pos_of_ne_nil hne
  obtain ⟨first, rest, rfl⟩ := exists_cons_of_length_pos (Nat.lt_of_lt_of_le hpos hcount)
  obtain ⟨first', rest', rfl⟩ := exists_cons_of_length_pos
    (Nat.lt_of_lt_of_eq (Nat.succ_pos rest.length) hlength')
  have hbuilt := construct_eq (c := c) noise associatedData payloads _ hne hcount first rfl
  have hbuilt' := construct_eq (c := c) noise' associatedData payloads' _ hne' hcount' first' rfl
  simp only [h] at hbuilt
  by_cases hfits : roomOf (payloads.zip (first :: rest)) ≤ noise.bytes.length
  · have hfits' := hfits
    rw [hroom, hnoise] at hfits'
    rw [if_pos hfits] at hbuilt
    simp only [if_pos hfits'] at hbuilt'
    cases hbuilt
    refine ⟨_, hbuilt', (List.cons.inj hkeys).1, ?_⟩
    simp only
    rw [length_layers _ _ (length_filler_le hfits) hfits,
      length_layers _ _ (length_filler_le hfits') hfits', hnoise]
  · rw [if_neg hfits] at hbuilt
    cases hbuilt

/-- The same of the outer onion, -/
theorem constructOnionPacket_of_alike
    (h : constructOnionPacket c payloads onionKeys prngSeed paymentHash = .ok packet) :
    ∃ packet', constructOnionPacket c payloads' onionKeys' prngSeed paymentHash = .ok packet' := by
  have hlength : payloads.length = payloads'.length := by
    simpa using congrArg List.length hpayloads
  have hlength' : onionKeys.length = onionKeys'.length := by simpa using congrArg List.length hkeys
  rw [constructOnionPacket] at h
  obtain ⟨_, hcount, h⟩ := bind_eq_ok.mp h
  rw [PacketError.ofPanic_eq_ok, Panic.unless_eq_ok] at hcount
  obtain ⟨packet', hpacket', -⟩ := construct_of_alike hpayloads hkeys rfl hcount.le h
  refine ⟨packet', bind_eq_ok.mpr ⟨(), ?_, hpacket'⟩⟩
  rw [PacketError.ofPanic_eq_ok, Panic.unless_eq_ok, ← hlength, ← hlength', hcount]

omit hpayloads in
/-- and of the Trampoline onion. -/
theorem constructTrampolineOnionPacket_of_alike (hcount : payloads.length ≤ onionKeys.length)
    (h : constructTrampolineOnionPacket c payloads onionKeys prngSeed paymentHash = .ok packet) :
    ∃ packet', constructTrampolineOnionPacket c payloads onionKeys' prngSeed paymentHash =
        .ok packet' ∧
      packet.publicKey = packet'.publicKey ∧ packet.hopData.length = packet'.hopData.length := by
  simp only [constructTrampolineOnionPacket] at h ⊢
  split at h
  next hlt =>
    rw [dif_pos hlt]
    exact construct_of_alike rfl hkeys rfl hcount h
  next => cases h

end

/-- Payloads that fit make an onion. -/
theorem exists_constructOnionPacket (c : OnionCrypto PublicKey SecretKey Scalar)
    (prngSeed paymentHash : Bytes32) (hne : payloads ≠ [])
    (hcount : payloads.length = onionKeys.length)
    (hroom : (payloads.map fun payload => payload.length + 32).sum ≤ onionDataLen) :
    ∃ packet, constructOnionPacket c payloads onionKeys prngSeed paymentHash = .ok packet := by
  obtain ⟨first, rest, rfl⟩ := exists_cons_of_length_pos
    (Nat.lt_of_lt_of_eq (length_pos_of_ne_nil hne) hcount)
  have hbuilt := construct_eq (c := c.toPacketCrypto) (noise c prngSeed onionDataLen (by decide))
    (some paymentHash) payloads _ hne hcount.le first rfl
  simp only [roomOf_zip hcount.le, length_noise, if_pos hroom] at hbuilt
  rw [constructOnionPacket, Panic.unless_of _ hcount]
  exact ⟨_, hbuilt⟩

/-! ### The builders -/

/-- Onions of the same payloads, that offer the same to the first hop. -/
structure SameParts (parts parts' : OnionParts PublicKey) : Prop where
  inner : parts.inner = parts'.inner
  outer : List.Forall₂ Alike parts.outer parts'.outer
  /-- Without a Trampoline packet nothing differs. -/
  outer_eq : parts.inner = none → parts.outer = parts'.outer
  htlcMsat : parts.htlcMsat = parts'.htlcMsat
  htlcCltv : parts.htlcCltv = parts'.htlcCltv

/-- Payment metadata is to be sent, through a blinded tail without Trampoline hops. -/
def OnionRequest.MetadataForBlindedTail (req : OnionRequest PublicKey SecretKey) : Prop :=
  req.recipientOnion.paymentMetadata ≠ none ∧
    ∃ tail, req.path.blindedTail = some tail ∧ tail.trampolineHops = []

variable {writer : PayloadWriter PublicKey} {req : OnionRequest PublicKey SecretKey}
    {pq : PqRequest}
  {tail : BlindedTail PublicKey} {parts : PqOnionParts PublicKey}

theorem hasTrampolineHops_of_blindedTail {path : Path PublicKey}
    (h : path.blindedTail = some tail) :
    path.hasTrampolineHops = false ↔ tail.trampolineHops = [] := by
  simp [Path.hasTrampolineHops, h]

theorem outerOnion_of_plain (hplain : req.path.hasTrampolineHops = false)
    (hguard : ¬ req.MetadataForBlindedTail) :
    outerOnion c writer req none none = .ok (req.recipientOnion, none) := by
  rw [outerOnion]
  cases htail : req.path.blindedTail with
  | none => rfl
  | some tail =>
    have hhops := (hasTrampolineHops_of_blindedTail htail).mp hplain
    have hmetadata : req.recipientOnion.paymentMetadata = none := by
      by_contra hsome
      exact hguard ⟨hsome, tail, htail, hhops⟩
    simp [guardWith, hmetadata, hhops, ok_bind]

/-- Classical and post-quantum keys for the outer onion, without Trampoline hops, -/
theorem ephemeralPubkey_constructOnionKeys_of_plain (hplain : req.path.hasTrampolineHops = false) :
    (constructOnionKeys c req.path req.sessionPriv).map OnionKeys.ephemeralPubkey =
      (constructOnionKeysGeneric c
        (layerPubkeys (req.path.hops.map RouteHop.pubkey) req.path.blindedTail)
        req.sessionPriv).map Prod.snd := by
  have htail : (req.path.blindedTail.filter fun tail => tail.trampolineHops.isEmpty) =
      req.path.blindedTail := by
    cases htail : req.path.blindedTail with
    | none => rfl
    | some tail =>
      rw [hasTrampolineHops_of_blindedTail htail] at hplain
      rw [Option.filter_some, if_pos (by rw [hplain]; rfl)]
  rw [constructOnionKeys, htail]
  exact ephemeralPubkey_map_onionKeys c _

/-- and with them. -/
theorem ephemeralPubkey_constructOnionKeys_of_trampoline
    (htail : req.path.blindedTail = some tail) (hhops : tail.trampolineHops ≠ []) :
    (constructOnionKeys c req.path req.sessionPriv).map OnionKeys.ephemeralPubkey =
      (constructOnionKeysGeneric c (layerPubkeys (req.path.hops.map RouteHop.pubkey) none)
        req.sessionPriv).map Prod.snd := by
  have hfilter : (req.path.blindedTail.filter fun tail => tail.trampolineHops.isEmpty) = none := by
    rw [htail, Option.filter_some, if_neg (by rwa [List.isEmpty_iff])]
  rw [constructOnionKeys, hfilter]
  exact ephemeralPubkey_map_onionKeys c _

/-- What the keys of a post-quantum onion are built from. -/
theorem inner_of_constructPqOnionKeysAndTrail {path : Path PublicKey}
    {trailPrngSeed : Bytes32} {trail : List UInt8}
    (h : constructPqOnionKeysAndTrail c path sessionPriv hopKemKeys kemBaseSeed trailPrngSeed =
      .ok (keys, trail)) :
    constructPqOnionKeysInner c (path.hops.map RouteHop.pubkey) path.blindedTail sessionPriv
      hopKemKeys kemBaseSeed 0 = some keys := by
  rw [constructPqOnionKeysAndTrail] at h
  obtain ⟨_, -, h⟩ := bind_eq_ok.mp h
  obtain ⟨keys', hkeys, h⟩ := bind_eq_ok.mp h
  obtain ⟨_, -, h⟩ := bind_eq_ok.mp h
  cases h
  exact elim_eq_ok.mp hkeys

/-- **Without Trampoline hops.** -/
theorem createPqPlainOnion_refines (hplain : req.path.hasTrampolineHops = false)
    (hguard : ¬ req.MetadataForBlindedTail) (h : createPqPlainOnion c writer req pq = .ok parts) :
    ∃ parts', createPaymentOnionInternal c writer req none none = .ok parts' ∧
      SameParts parts.toOnionParts parts' := by
  rw [createPqPlainOnion] at h
  obtain ⟨_, -, h⟩ := bind_eq_ok.mp h
  obtain ⟨⟨payloads, msat, cltv⟩, hpayloads, h⟩ := bind_eq_ok.mp h
  obtain ⟨_, hcltv, h⟩ := bind_eq_ok.mp h
  obtain ⟨⟨keys, trail⟩, hkeys, h⟩ := bind_eq_ok.mp h
  obtain ⟨packet, hpacket, h⟩ := bind_eq_ok.mp h
  cases h
  rw [mapErr_eq_ok] at hkeys hpacket
  have hephemeral := (ephemeralPubkey_constructPqOnionKeysInner
    (inner_of_constructPqOnionKeysAndTrail hkeys)).trans
      (ephemeralPubkey_constructOnionKeys_of_plain (c := c) hplain).symm
  obtain ⟨packet', hpacket'⟩ := constructOnionPacket_of_alike rfl hephemeral hpacket
  refine ⟨⟨none, payloads, packet', msat, cltv⟩, ?_,
    ⟨rfl, forall₂_same.mpr fun _ _ => .refl _, fun _ => rfl, rfl, rfl⟩⟩
  rw [createPaymentOnionInternal, outerOnion_of_plain hplain hguard, ok_bind]
  refine bind_eq_ok.mpr ⟨_, hpayloads, bind_eq_ok.mpr ⟨_, hcltv, ?_⟩⟩
  exact bind_eq_ok.mpr ⟨packet', mapErr_eq_ok.mpr hpacket', rfl⟩

/-- **With Trampoline hops.** -/
theorem createPqTrampolineOnion_refines (htail : req.path.blindedTail = some tail)
    (hhops : tail.trampolineHops ≠ [])
    (h : createPqTrampolineOnion c writer req pq tail = .ok parts) :
    ∃ parts', createPaymentOnionInternal c writer req none none = .ok parts' ∧
      SameParts parts.toOnionParts parts' := by
  rw [createPqTrampolineOnion] at h
  obtain ⟨_, hmetadata, h⟩ := bind_eq_ok.mp h
  obtain ⟨⟨inner, total⟩, hinner, h⟩ := bind_eq_ok.mp h
  obtain ⟨innerKeys, hinnerKeys, h⟩ := bind_eq_ok.mp h
  obtain ⟨innerPacket, hinnerPacket, h⟩ := bind_eq_ok.mp h
  obtain ⟨⟨payloads, msat, cltv⟩, hpayloads, h⟩ := bind_eq_ok.mp h
  obtain ⟨_, hcltv, h⟩ := bind_eq_ok.mp h
  obtain ⟨keys, hkeys, h⟩ := bind_eq_ok.mp h
  obtain ⟨packet, hpacket, h⟩ := bind_eq_ok.mp h
  obtain ⟨trail, -, h⟩ := bind_eq_ok.mp h
  cases h
  rw [mapErr_eq_ok] at hinnerPacket hpacket
  rw [elim_eq_ok] at hinnerKeys hkeys
  -- the Trampoline packet
  have hinnerEphemeral := ephemeralPubkey_constructPqOnionKeysInner hinnerKeys
  have hcount : (inner.map writer.trampoline).length ≤ innerKeys.onionKeys.length := by
    have hlength := congrArg List.length hinnerEphemeral
    rw [length_map, length_map, length_constructOnionKeysGeneric] at hlength
    rw [length_map, hlength]
    exact length_buildTrampolineOnionPayloads _ _ _ hinner
  obtain ⟨innerPacket', hinnerPacket', hpublicKey, hlength⟩ :=
    constructTrampolineOnionPacket_of_alike
      (hinnerEphemeral.trans (ephemeralPubkey_map_onionKeys c _).symm) hcount hinnerPacket
  -- the payloads with it
  have hwith : ∀ other, buildOnionPayloads req.path (trampolineOuterOnion req.recipientOnion total)
      req.curBlockHeight req.keysendPreimage req.invoiceRequest (some other) =
        .ok (payloads.map (.withPacket other), msat, cltv) := by
    intro other
    rw [buildOnionPayloads_withPacket _ _ _ _ _ innerPacket other, hpayloads]
    rfl
  have hsame : payloads = payloads.map (.withPacket innerPacket) :=
    (Prod.mk.inj (Except.ok.inj (hpayloads.symm.trans (hwith innerPacket)))).1
  have hwritten : (payloads.map writer.onion).map List.length =
      ((payloads.map (.withPacket innerPacket')).map writer.onion).map List.length := by
    conv_lhs => rw [hsame]
    simp only [map_map]
    exact map_congr_left fun payload _ => writer.length_onion payload _ _ hlength
  have hephemeral := (ephemeralPubkey_constructPqOnionKeysInner hkeys).trans
    (ephemeralPubkey_constructOnionKeys_of_trampoline (c := c) htail hhops).symm
  obtain ⟨packet', hpacket'⟩ := constructOnionPacket_of_alike hwritten hephemeral hpacket
  have houter : outerOnion c writer req none none =
      .ok (trampolineOuterOnion req.recipientOnion total, some (inner, innerPacket')) := by
    simp only [outerOnion, htail, if_neg hhops]
    refine bind_eq_ok.mpr ⟨_, hmetadata, bind_eq_ok.mpr ⟨_, hinner, ?_⟩⟩
    exact bind_eq_ok.mpr ⟨_, mapErr_eq_ok.mpr hinnerPacket', rfl⟩
  refine ⟨⟨some inner, payloads.map (.withPacket innerPacket'), packet', msat, cltv⟩, ?_,
    ⟨rfl, ?_, fun h => absurd h (Option.some_ne_none _), rfl, rfl⟩⟩
  · rw [createPaymentOnionInternal, houter, ok_bind]
    refine bind_eq_ok.mpr ⟨_, hwith innerPacket', bind_eq_ok.mpr ⟨_, hcltv, ?_⟩⟩
    exact bind_eq_ok.mpr ⟨packet', mapErr_eq_ok.mpr hpacket', rfl⟩
  · have halike : List.Forall₂ Alike (payloads.map (.withPacket innerPacket))
        (payloads.map (.withPacket innerPacket')) := by
      rw [forall₂_map_left_iff, forall₂_map_right_iff, forall₂_same]
      exact fun payload _ => alike_withPacket payload hpublicKey hlength
    rwa [← hsame] at halike

/-- **The exception.** The classical function refuses it. -/
theorem createPaymentOnionInternal_of_metadata (h : req.MetadataForBlindedTail) :
    createPaymentOnionInternal c writer req none none =
      .error (.invalidRoute metadataForBlinded) := by
  obtain ⟨hsome, tail, htail, -⟩ := h
  rw [createPaymentOnionInternal]
  simp only [outerOnion, htail, guardWith, if_neg hsome, error_bind]

/-- **Refinement.** If the post-quantum function builds an onion, then so does the classical one,
from the same payloads for the inner and for the outer onion, and with the same value and CLTV for
the first hop — unless it was asked to send payment metadata through a blinded tail without
Trampoline hops. -/
theorem createPqPaymentOnion_refines_iff (c : OnionCrypto PublicKey SecretKey Scalar)
    (writer : PayloadWriter PublicKey) (req : OnionRequest PublicKey SecretKey) (pq : PqRequest) :
    (∀ parts, createPqPaymentOnion c writer req pq = .ok parts →
      ∃ parts', createPaymentOnionInternal c writer req none none = .ok parts' ∧
        SameParts parts.toOnionParts parts') ↔
    ¬ ((createPqPaymentOnion c writer req pq).isOk ∧ req.MetadataForBlindedTail) := by
  constructor
  · rintro hrefines ⟨hok, hmetadata⟩
    cases hbuilt : createPqPaymentOnion c writer req pq with
    | error e =>
      rw [hbuilt] at hok
      cases hok
    | ok parts =>
      obtain ⟨parts', hparts', -⟩ := hrefines parts hbuilt
      rw [createPaymentOnionInternal_of_metadata hmetadata] at hparts'
      cases hparts'
  · intro hguard parts hbuilt
    have hmetadata : ¬ req.MetadataForBlindedTail := fun hmetadata =>
      hguard ⟨by rw [hbuilt]; rfl, hmetadata⟩
    rw [createPqPaymentOnion] at hbuilt
    obtain ⟨_, -, hbuilt⟩ := bind_eq_ok.mp hbuilt
    split at hbuilt
    next htrampoline =>
      obtain ⟨tail, htail, hbuilt⟩ := bind_eq_ok.mp hbuilt
      rw [OnionError.ofPanic_eq_ok, unwrap_eq_ok] at htail
      refine createPqTrampolineOnion_refines htail (fun hhops => ?_) hbuilt
      rw [← hasTrampolineHops_of_blindedTail htail, htrampoline] at hhops
      cases hhops
    next hplain => exact createPqPlainOnion_refines (Bool.eq_false_iff.mpr hplain) hmetadata hbuilt

variable (writer req pq) in
/-- **When an onion is built**: there are payloads and keys, as many of one as of the other, and
there is room. -/
theorem exists_createPqPaymentOnion {payloads : List (OutboundOnionPayload PublicKey)}
    {msat cltv : ℕ} (hplain : req.path.hasTrampolineHops = false)
    (htail : ¬ (req.path.blindedTail.any fun tail => tail.kemCt.isNone))
    (htrampoline : pq.trampolineKemKeys = [])
    (hpayloads : buildOnionPayloads req.path req.recipientOnion req.curBlockHeight
      req.keysendPreimage
      req.invoiceRequest none = .ok (payloads, msat, cltv))
    (hcltv : checkCltv req.path req.curBlockHeight cltv = .ok ())
    (hkeys : constructPqOnionKeysInner c (req.path.hops.map RouteHop.pubkey) req.path.blindedTail
      req.sessionPriv pq.hopKemKeys pq.kemBaseSeed 0 = some keys)
    (hshort : req.path.hops.length ≤ maxPathLengthEstimate)
    (hciphertexts : 0 < keys.ciphertexts.length ∧ keys.ciphertexts.length ≤ maxPathLengthEstimate)
    (hne : payloads ≠ []) (hcount : payloads.length = keys.onionKeys.length)
    (hroom : ((payloads.map writer.onion).map fun payload => payload.length + 32).sum ≤
      onionDataLen) :
    ∃ parts, createPqPaymentOnion c writer req pq = .ok parts ∧ parts.outer = payloads := by
  obtain ⟨packet, hpacket⟩ := exists_constructOnionPacket c req.prngSeed req.paymentHash
    (map_eq_nil_iff.not.mpr hne) (by rw [length_map, hcount]) hroom
  obtain ⟨trail, htrail⟩ : ∃ trail, buildPqTrail c keys.ciphertexts pq.trailPrngSeed = .ok trail :=
    ⟨_, (buildPqTrail_eq c keys.ciphertexts pq.trailPrngSeed).trans (if_pos hciphertexts)⟩
  have hboth : constructPqOnionKeysAndTrail c req.path req.sessionPriv pq.hopKemKeys pq.kemBaseSeed
      pq.trailPrngSeed = .ok (keys, trail) := by
    refine bind_eq_ok.mpr ⟨(), ?_, bind_eq_ok.mpr ⟨keys, elim_eq_ok.mpr hkeys, ?_⟩⟩
    · rw [guardWith_eq_ok, hplain]
      simpa using hshort
    · exact bind_eq_ok.mpr ⟨_, htrail, rfl⟩
  refine ⟨⟨⟨none, payloads, packet, msat, cltv⟩, trail, (keys.kemSecrets.map Vector.toList).flatten,
    req.path.blindedTail.bind BlindedTail.kemCt⟩, ?_, rfl⟩
  refine bind_eq_ok.mpr ⟨(), guardWith_eq_ok.mpr htail, ?_⟩
  rw [if_neg (by rw [hplain]; exact Bool.false_ne_true)]
  refine bind_eq_ok.mpr ⟨(), by rw [Panic.unless_of _ htrampoline]; rfl, ?_⟩
  refine bind_eq_ok.mpr ⟨_, hpayloads, bind_eq_ok.mpr ⟨(), hcltv, ?_⟩⟩
  refine bind_eq_ok.mpr ⟨_, mapErr_eq_ok.mpr hboth, ?_⟩
  exact bind_eq_ok.mpr ⟨packet, mapErr_eq_ok.mpr hpacket, rfl⟩

/-- Bytes, multiplied, for keys, and sums for hashes. A ciphertext hides a secret behind a key. -/
def byteCrypto : OnionCrypto UInt8 UInt8 UInt8 where
  toPacketCrypto := sumCrypto
  fromSecretKey key := 3 * key
  serialize key := constBytes 33 key
  sharedSecret point key := Vector.replicate 32 (point * key)
  sha256 data := Vector.replicate 32 data.sum
  scalar bytes := firstByte bytes
  mulTweakSecret key tweak := key * tweak
  secretFromSlice bytes := firstByte bytes
  secretBytes key := Vector.replicate 32 key
  kem :=
    { wellFormed := fun ek => ek.1.headD 0 ≠ 0
      encapsFromSeed := fun ek seed =>
        (Vector.replicate 32 (firstByte seed), constBytes _ (firstByte seed ^^^ ek.1.headD 0))
      keygenFromSeed := fun d _ => (constBytes _ (firstByte d), constBytes _ (firstByte d))
      tryDecaps := fun dk ct => some (Vector.replicate 32 (ct.1.headD 0 ^^^ dk.1.headD 0)) }
  dummyCiphertextFromSeed seed := constBytes _ (firstByte seed)

/-- Payloads written as what is encrypted in them, or the packet. -/
def byteWriter : PayloadWriter UInt8 where
  onion
    | .blindedForward encryptedTlvs _ => encryptedTlvs
    | .blindedReceive _ _ _ encryptedTlvs _ _ customTlvs _ =>
      encryptedTlvs ++ (customTlvs.map Prod.snd).flatten
    | .trampolineEntrypoint _ _ _ packet _ => packet.hopData
    | _ => [1]
  trampoline _ := [2]
  length_onion payload _ _ h := by
    cases payload
    case trampolineEntrypoint => exact h
    all_goals rfl

/-- One hop to the introduction node of a blinded tail with a recipient behind it, and metadata. -/
def metadataRequest : OnionRequest UInt8 UInt8 where
  path :=
    { hops := [⟨5, 1, 100, 40⟩]
      blindedTail := some ⟨[], [⟨7, [1]⟩, ⟨11, [2]⟩], 13, 0, 1000, some []⟩ }
  sessionPriv := 17
  recipientOnion := ⟨none, 1000, some [7], []⟩
  curBlockHeight := 100
  paymentHash := Vector.replicate 32 8
  keysendPreimage := none
  invoiceRequest := none
  prngSeed := Vector.replicate 32 9

def metadataPq : PqRequest where
  hopKemKeys := [constBytes _ 5]
  trampolineKemKeys := []
  kemBaseSeed := Vector.replicate 32 10
  trailPrngSeed := Vector.replicate 32 11

/-- Metadata for a blinded recipient, which is refused by one function and accepted by the other. -/
theorem createPqPaymentOnion_accepts_metadata :
    createPaymentOnionInternal byteCrypto byteWriter metadataRequest none none =
      .error (.invalidRoute "Cannot pass payment_metadata to a blinded recipient") ∧
    (createPqPaymentOnion byteCrypto byteWriter metadataRequest metadataPq).isOk := by
  refine ⟨createPaymentOnionInternal_of_metadata ⟨by decide, _, rfl, rfl⟩, ?_⟩
  obtain ⟨keys, hkeys, hcount, hciphertexts⟩ : ∃ keys, constructPqOnionKeysInner byteCrypto
      [5] metadataRequest.path.blindedTail 17 metadataPq.hopKemKeys metadataPq.kemBaseSeed 0 =
        some keys ∧ keys.onionKeys.length = 2 ∧ keys.ciphertexts.length = 1 := ⟨_, rfl, rfl, rfl⟩
  obtain ⟨parts, hbuilt, -⟩ := exists_createPqPaymentOnion byteWriter metadataRequest
    metadataPq rfl (by decide) rfl rfl rfl hkeys (by decide)
    (by rw [hciphertexts]; decide) (cons_ne_nil _ _) hcount.symm (by decide)
  rw [hbuilt]
  rfl

end PqLightning.Onion
