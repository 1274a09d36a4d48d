import Mathlib.Data.List.GetD
import PqLightning.Onion.Packet

/-!
# Building a packet and peeling it

The packet that a hop is to receive is given by the hops from that one on (`layers`). What the loops
of `construct_onion_packet_with_init_noise` compute is this packet for all hops, and
`decode_next_hop` leads from the packet of some hops to the packet of all but the first of them.
-/

namespace PqLightning.Onion

open List

variable {PublicKey : Type} {c : PacketCrypto}

/-! ### Shifting and copying -/

theorem moveRight_eq (amt n : ℕ) (arr : List UInt8) (h : amt + n ≤ arr.length) :
    moveRight amt n arr = arr.take amt ++ arr.take n ++ arr.drop (amt + n) := by
  induction n generalizing arr with
  | zero => rw [moveRight, take_zero, append_nil, Nat.add_zero, take_append_drop]
  | succ n ih =>
    have hn : n < arr.length := by omega
    have hlast : amt + n < (arr.set (amt + n) (arr.getD n 0)).length := by
      rw [length_set]
      omega
    rw [moveRight, ih _ (Nat.le_of_lt hlast), take_set_of_le (Nat.le_add_right _ _),
      take_set_of_le (Nat.le_add_left _ _), drop_eq_getElem_cons hlast,
      getElem_set_self, drop_set_of_lt (Nat.lt_succ_self _), getD_eq_getElem _ _ hn,
      take_succ_eq_append_getElem hn]
    simp only [append_assoc, singleton_append, Nat.succ_eq_add_one, Nat.add_assoc]

theorem foldlM_clearAt (amt : ℕ) (arr : List UInt8) (h : amt ≤ arr.length) :
    (List.range amt).foldlM clearAt arr = .ok (List.replicate amt 0 ++ arr.drop amt) := by
  induction amt with
  | zero => rfl
  | succ amt ih =>
    have hlen : amt < (List.replicate amt 0 ++ arr.drop amt).length := by
      rw [length_append, length_replicate, length_drop]
      omega
    have hset : (List.replicate amt 0 ++ arr.drop amt).set amt 0 =
        List.replicate (amt + 1) 0 ++ arr.drop (amt + 1) := by
      rw [set_append_right _ _ (by rw [length_replicate]), length_replicate,
        Nat.sub_self, drop_eq_getElem_cons h, set_cons_zero, replicate_succ',
        append_assoc, singleton_append]
    rw [range_succ, foldlM_append, ih (Nat.le_of_succ_le h), ok_bind, foldlM_cons,
      clearAt, if_pos hlen, ok_bind, hset]
    rfl

/-- **`shift_slice_right`** moves the slice and leaves zeros before it. -/
theorem shiftSliceRight_eq (arr : List UInt8) (amt : ℕ) (h : amt ≤ arr.length) :
    shiftSliceRight arr amt = .ok (List.replicate amt 0 ++ arr.take (arr.length - amt)) := by
  have hmove := moveRight_eq amt (arr.length - amt) arr (by omega)
  have hdrop : (moveRight amt (arr.length - amt) arr).drop amt = arr.take (arr.length - amt) := by
    rw [hmove, Nat.add_sub_cancel' h, drop_length, append_nil]
    exact drop_left' (by rw [length_take, Nat.min_eq_left h])
  have hlength : amt ≤ (moveRight amt (arr.length - amt) arr).length := by
    rw [hmove, append_assoc, length_append, length_take, Nat.min_eq_left h]
    exact Nat.le_add_right _ _
  rw [shiftSliceRight, foldlM_clearAt _ _ hlength, hdrop]

theorem copyAt_append (before old after new : List UInt8) (h : old.length = new.length) :
    copyAt (before ++ (old ++ after)) before.length new = .ok (before ++ new ++ after) := by
  have hfits : before.length + new.length ≤ (before ++ (old ++ after)).length := by
    rw [length_append, length_append, h]
    omega
  rw [copyAt, if_pos hfits, take_left, ← append_assoc, drop_left' (by rw [length_append, h])]

/-! ### One layer -/

variable (payload : List UInt8)

/-- What is pushed in for a hop: its payload and the HMAC of the packet behind it. -/
def front (hmac : Bytes32) : List UInt8 := payload ++ hmac.toList

@[simp]
theorem length_front (hmac : Bytes32) : (front payload hmac).length = payload.length + 32 := by
  rw [front, length_append, Vector.length_toList]

variable (associatedData : Option Bytes32)

/-- **Step**, of the loop that wraps the packet. -/
theorem wrapHop_eq (filler : List UInt8) (i : ℕ)
    (hop : List UInt8 × OnionKeys PublicKey) (packetData : List UInt8) (hmacRes : Bytes32)
    (h : hop.1.length + 32 ≤ packetData.length) :
    wrapHop c associatedData filler i hop packetData hmacRes =
      placeFiller filler i
        (xorMask.wrap (c.keystream hop.2.rho) (front hop.1 hmacRes) packetData) >>=
        fun data => .ok (data, packetHmac c hop.2.mu data associatedData) := by
  let kept := packetData.take (packetData.length - (hop.1.length + 32))
  have hshift : shiftSliceRight packetData (hop.1.length + 32) =
      .ok ([] ++ (List.replicate hop.1.length 0 ++ (List.replicate 32 0 ++ kept))) := by
    rw [shiftSliceRight_eq _ _ h, replicate_add, append_assoc]
    rfl
  have hpayload : copyAt ([] ++ (List.replicate hop.1.length 0 ++ (List.replicate 32 0 ++ kept))) 0
      hop.1 = .ok (hop.1 ++ (List.replicate 32 0 ++ kept)) :=
    copyAt_append [] _ _ _ length_replicate
  have hhmac : copyAt (hop.1 ++ (List.replicate 32 0 ++ kept)) hop.1.length hmacRes.toList =
      .ok (hop.1 ++ hmacRes.toList ++ kept) :=
    copyAt_append _ _ _ _ (by rw [length_replicate, Vector.length_toList])
  have hwrap : c.applyKeystream hop.2.rho 0 (hop.1 ++ hmacRes.toList ++ kept) =
      xorMask.wrap (c.keystream hop.2.rho) (front hop.1 hmacRes) packetData := by
    rw [Layers.Mask.wrap, length_front]
    rfl
  rw [wrapHop, hshift]
  change PacketError.ofPanic (copyAt _ 0 hop.1) >>= _ = _
  rw [hpayload]
  change PacketError.ofPanic (copyAt _ hop.1.length hmacRes.toList) >>= _ = _
  rw [hhmac]
  change placeFiller filler i (c.applyKeystream hop.2.rho 0 _) >>= _ = _
  rw [hwrap]

theorem readExact32_append (hmac : Bytes32) (rest : List UInt8) :
    readExact32 (hmac.toList ++ rest) = some (hmac, rest) := by
  have htake : (hmac.toList ++ rest).take 32 = hmac.toList := take_left' (Vector.length_toList ..)
  have hdrop : (hmac.toList ++ rest).drop 32 = rest := drop_left' (Vector.length_toList ..)
  rw [readExact32, dif_pos (by rw [htake, Vector.length_toList]), hdrop]
  simp only [htake]
  rfl

/-! ### Packets, by the hops they are for -/

def roomOf (hops : List (List UInt8 × OnionKeys PublicKey)) : ℕ :=
  (hops.map fun hop => hop.1.length + 32).sum

variable {noise filler : List UInt8}

section

variable (hop hop' : List UInt8 × OnionKeys PublicKey)
    (hops : List (List UInt8 × OnionKeys PublicKey))

theorem roomOf_cons : roomOf (hop :: hops) = hop.1.length + 32 + roomOf hops := by
  rw [roomOf, map_cons, sum_cons, roomOf]

variable (c) in
/-- The filler for a packet of length `len`: what `acc` becomes by all hops but the last. -/
def fillerOf (len : ℕ) : List UInt8 → List (List UInt8 × OnionKeys PublicKey) → List UInt8
  | acc, [] => acc
  | acc, [_] => acc
  | acc, hop :: hop' :: hops =>
    fillerOf len (xorMask.extend (c.keystream hop.2.rho) len acc (hop.1.length + 32)) (hop' :: hops)

variable (c) in
/-- The packet for a list of hops, and its HMAC. The packet of the last hop ends with the filler. -/
def layers (associatedData : Option Bytes32) (noise filler : List UInt8) :
    List (List UInt8 × OnionKeys PublicKey) → List UInt8 × Bytes32
  | [] => (noise, zeroHmac)
  | [hop] =>
    let data := xorMask.wrap (c.keystream hop.2.rho) (front hop.1 zeroHmac) noise
    let data := data.take (data.length - filler.length) ++ filler
    (data, packetHmac c hop.2.mu data associatedData)
  | hop :: hop' :: hops =>
    let (inner, hmac) := layers associatedData noise filler (hop' :: hops)
    let data := xorMask.wrap (c.keystream hop.2.rho) (front hop.1 hmac) inner
    (data, packetHmac c hop.2.mu data associatedData)

theorem fillerOf_cons_cons (len : ℕ) (acc : List UInt8) :
    fillerOf c len acc (hop :: hop' :: hops) =
      fillerOf c len (xorMask.extend (c.keystream hop.2.rho) len acc (hop.1.length + 32))
        (hop' :: hops) := rfl

/-- **Run**, of the loop that computes the filler: it fails exactly if the hops take too much room.
-/
theorem fillerFrom_eq {len : ℕ} (hlen : len < 2 ^ 32) (last : ℕ) (hne : hops ≠ []) {i : ℕ}
    (res : List UInt8)
    (hlast : i + hops.length = last + 1) (hres : res.length ≤ len) :
    fillerFrom c len last i res.length res hops =
      if res.length + roomOf hops ≤ len then some (fillerOf c len res hops) else none := by
  induction hops generalizing i res with
  | nil => exact absurd rfl hne
  | cons hop hops ih =>
    obtain ⟨payload, keys⟩ := hop
    have hseek : (len - res.length) % 2 ^ 32 = len - res.length := Nat.mod_eq_of_lt (by omega)
    rw [fillerFrom, roomOf_cons, hseek]
    cases hops with
    | nil =>
      have hi : i = last := by simpa using hlast
      simp only [hi, if_true, roomOf, map_nil, sum_nil, Nat.add_zero, fillerOf]
      by_cases hfits : res.length + (payload.length + 32) ≤ len
      · rw [if_neg (Nat.not_lt.mpr hfits), if_pos hfits]
      · rw [if_pos (Nat.lt_of_not_le hfits), if_neg hfits]
    | cons hop' hops =>
      have hi : i ≠ last := by
        simp only [length_cons] at hlast
        omega
      by_cases hfits : res.length + (payload.length + 32) ≤ len
      · let grown := xorMask.extend (c.keystream keys.rho) len res (payload.length + 32)
        have hgrown : grown.length = res.length + (payload.length + 32) :=
          Layers.Mask.length_extend _ _ _
        have hih : fillerFrom c len last (i + 1) grown.length grown (hop' :: hops) = _ :=
          ih (cons_ne_nil _ _) grown (by simp only [length_cons] at hlast ⊢; omega)
            (by rw [hgrown]; exact hfits)
        rw [hgrown, Nat.add_assoc res.length] at hih
        simp only [if_neg (Nat.not_lt.mpr hfits), if_neg hi, Nat.add_sub_cancel_left]
        exact hih
      · simp only [if_pos (Nat.lt_of_not_le hfits)]
        rw [if_neg (by omega)]

theorem length_layers (hfiller : filler.length ≤ noise.length)
    (hroom : roomOf hops ≤ noise.length) :
    (layers c associatedData noise filler hops).1.length = noise.length := by
  induction hops with
  | nil => rfl
  | cons hop hops ih =>
    rw [roomOf_cons] at hroom
    cases hops with
    | nil =>
      have hwrap : (xorMask.wrap (c.keystream hop.2.rho) (front hop.1 zeroHmac) noise).length =
          noise.length := Layers.Mask.length_wrap (by rw [length_front]; omega)
      simp only [layers, length_append, length_take, hwrap]
      omega
    | cons hop' hops =>
      have hinner := ih (by omega)
      simp only [layers]
      rw [Layers.Mask.length_wrap, hinner]
      rw [length_front, hinner]
      omega

/-- **What packets end with**: with what the hops before them have made of the filler. -/
theorem suffix_layers {acc : List UInt8} (hne : hops ≠ [])
    (hroom : acc.length + roomOf hops ≤ noise.length)
    (hfiller : (fillerOf c noise.length acc hops).length ≤ noise.length) :
    acc <:+ (layers c associatedData noise (fillerOf c noise.length acc hops) hops).1 := by
  induction hops generalizing acc with
  | nil => exact absurd rfl hne
  | cons hop hops ih =>
    rw [roomOf_cons] at hroom
    cases hops with
    | nil => exact suffix_append _ _
    | cons hop' hops =>
      rw [fillerOf_cons_cons] at hfiller ⊢
      have hinner := ih (cons_ne_nil _ _) (by rw [Layers.Mask.length_extend]; omega) hfiller
      have hlen := length_layers (c := c) associatedData (hop' :: hops) hfiller (by omega)
      refine Layers.Mask.suffix_wrap (by rw [length_front, hlen]; omega) ?_
      rw [length_front, hlen]
      exact hinner

theorem length_fillerOf_le (len : ℕ) (acc : List UInt8) :
    (fillerOf c len acc hops).length ≤ acc.length + roomOf hops := by
  induction hops generalizing acc with
  | nil => exact Nat.le_add_right _ _
  | cons hop hops ih =>
    cases hops with
    | nil => exact Nat.le_add_right _ _
    | cons hop' hops =>
      refine (ih _).trans ?_
      rw [Layers.Mask.length_extend, roomOf_cons hop, Nat.add_assoc]

variable {hops} in
theorem length_filler_le {len : ℕ} (hroom : roomOf hops ≤ len) :
    (fillerOf c len [] hops).length ≤ len := by
  refine (length_fillerOf_le _ _ _).trans ?_
  rwa [length_nil, Nat.zero_add]

/-! ### The loop that wraps -/

theorem wrapHops_append (filler : List UInt8) (i : ℕ) (data : List UInt8) (hmac : Bytes32) :
    wrapHops c associatedData filler i (hops ++ [hop]) data hmac =
      wrapHops c associatedData filler i hops data hmac >>= fun result =>
        wrapHop c associatedData filler (i + hops.length) hop result.1 result.2 := by
  induction hops generalizing i data hmac with
  | nil =>
    rw [nil_append, wrapHops, wrapHops, ok_bind]
    simp only [wrapHops]
    cases wrapHop c associatedData filler i hop data hmac <;> rfl
  | cons hop' hops ih =>
    rw [cons_append, wrapHops, wrapHops]
    cases wrapHop c associatedData filler i hop' data hmac with
    | error e => rfl
    | ok result =>
      rw [ok_bind, ok_bind]
      simp [ih, Nat.add_right_comm i 1, Nat.add_assoc]

/-- **Run**, of the loop that wraps the packet. -/
theorem wrapHops_reverse (hfiller : filler.length ≤ noise.length)
    (hroom : roomOf hops ≤ noise.length) :
    wrapHops c associatedData filler 0 hops.reverse noise zeroHmac =
      .ok (layers c associatedData noise filler hops) := by
  induction hops with
  | nil => rfl
  | cons hop hops ih =>
    rw [roomOf_cons] at hroom
    have hinner : (layers c associatedData noise filler hops).1.length = noise.length :=
      length_layers associatedData hops hfiller (by omega)
    rw [reverse_cons, wrapHops_append, ih (by omega), ok_bind,
      wrapHop_eq _ _ _ _ _ _ (by rw [hinner]; omega), length_reverse, Nat.zero_add]
    cases hops with
    | nil =>
      have hwrap : (xorMask.wrap (c.keystream hop.2.rho) (front hop.1 zeroHmac) noise).length =
          noise.length := Layers.Mask.length_wrap (by rw [length_front]; omega)
      simp only [layers]
      generalize xorMask.wrap (c.keystream hop.2.rho) (front hop.1 zeroHmac) noise = data at hwrap
      have hsplit : data = data.take (data.length - filler.length) ++
          (data.drop (data.length - filler.length) ++ []) := by
        rw [append_nil, take_append_drop]
      have hstart : (data.take (data.length - filler.length)).length =
          data.length - filler.length := by
        rw [length_take, Nat.min_eq_left (Nat.sub_le _ _)]
      have hcopy := copyAt_append (data.take (data.length - filler.length))
        (data.drop (data.length - filler.length)) [] filler (by rw [length_drop]; omega)
      rw [← hsplit, hstart, append_nil] at hcopy
      rw [length_nil, placeFiller, if_pos rfl, if_pos (by omega), hcopy]
      rfl
    | cons hop' hops => rfl

end

/-! ### Peeling -/

/-- **Peeling a layer.** A hop that finds its payload and an HMAC reads both, and goes on with the
rest of the packet unless the HMAC is zero. -/
theorem decodeNextHop_front {R : Type} {sharedSecret next rho mu : Bytes32}
    {data kept payload : List UInt8} {read : Reader R} {value : R}
    (hkeys : c.genRhoMuFromSharedSecret sharedSecret = (rho, mu))
    (hread : ReadsBack read payload value)
    (hdata : xorMask.apply (c.keystream rho) 0 data = front payload next ++ kept) :
    decodeNextHop c sharedSecret data (packetHmac c mu data associatedData) associatedData read =
      .ok (value, if next = zeroHmac then none else some (next, kept ++
        xorMask.overhang (c.keystream rho) data.length (front payload next).length)) := by
  have hlength : data.length - kept.length = (front payload next).length := by
    have hsum := congrArg List.length hdata
    rw [Layers.Mask.length_apply, length_append] at hsum
    omega
  have hpayload : read (xorMask.apply (c.keystream rho) 0 data) =
      .ok (value, next.toList ++ kept) := by
    rw [hdata, front, append_assoc]
    exact hread _
  simp only [decodeNextHop, hkeys, ne_eq, not_true_eq_false, if_false,
    PacketCrypto.applyKeystream, hpayload, readExact32_append, hlength]
  split <;> rfl

/-- A hop of a path: what is sent to it, under which secret, and what it reads. -/
structure Addressee (PublicKey R : Type) where
  payload : List UInt8
  ephemeralPubkey : PublicKey
  sharedSecret : Bytes32
  read : Reader R
  value : R
  readsBack : ReadsBack read payload value

variable {R : Type}

variable (c) in
def Addressee.keys (hop : Addressee PublicKey R) : OnionKeys PublicKey :=
  ⟨hop.ephemeralPubkey, (c.genRhoMuFromSharedSecret hop.sharedSecret).1,
    (c.genRhoMuFromSharedSecret hop.sharedSecret).2⟩

variable (c) in
/-- Payloads and keys, as the loops over the hops see them. -/
def written (hops : List (Addressee PublicKey R)) : List (List UInt8 × OnionKeys PublicKey) :=
  hops.map fun hop => (hop.payload, hop.keys c)

variable (c) in
def packetFor (associatedData : Option Bytes32) (noise : List UInt8)
    (path hops : List (Addressee PublicKey R)) : List UInt8 × Bytes32 :=
  layers c associatedData noise (fillerOf c noise.length [] (written c path)) (written c hops)

variable (c) in
/-- Hop after hop takes off its layer, until one of them is the last. -/
def peelAll (associatedData : Option Bytes32) :
    List (Addressee PublicKey R) → List UInt8 → Bytes32 →
      Except OnionDecodeErr (List (R × Option (Bytes32 × List UInt8)))
  | [], _, _ => .ok []
  | hop :: hops, hopData, hmac => do
    let result ← decodeNextHop c hop.sharedSecret hopData hmac associatedData hop.read
    match result.2 with
    | none => .ok [result]
    | some (hmac, hopData) => do
      let results ← peelAll associatedData hops hopData hmac
      .ok (result :: results)

variable (c) in
/-- What the hops get: each its payload, and all but the last the packet for the next. -/
def peeled (associatedData : Option Bytes32) (noise filler : List UInt8) :
    List (Addressee PublicKey R) → List (R × Option (Bytes32 × List UInt8))
  | [] => []
  | [hop] => [(hop.value, none)]
  | hop :: hop' :: hops =>
    (hop.value, some (layers c associatedData noise filler (written c (hop' :: hops))).swap) ::
      peeled associatedData noise filler (hop' :: hops)

theorem apply_layers_singleton
    (hop : Addressee PublicKey R)
    (hroom : filler.length + (hop.payload.length + 32) ≤ noise.length) :
    ∃ kept, xorMask.apply (c.keystream (hop.keys c).rho) 0
      (layers c associatedData noise filler (written c [hop])).1 =
        front hop.payload zeroHmac ++ kept := by
  let wrapped := front hop.payload zeroHmac ++
    noise.take (noise.length - (front hop.payload zeroHmac).length)
  have hwrap : (xorMask.wrap (c.keystream (hop.keys c).rho) (front hop.payload zeroHmac)
      noise).length =
      noise.length := Layers.Mask.length_wrap (by rw [length_front]; omega)
  have hdata : (layers c associatedData noise filler (written c [hop])).1 =
      xorMask.apply (c.keystream (hop.keys c).rho) 0
        (wrapped.take (noise.length - filler.length)) ++ filler := by
    rw [← Layers.Mask.take_apply, ← hwrap]
    rfl
  have htake : wrapped.take (noise.length - filler.length) =
      front hop.payload zeroHmac ++ (noise.take (noise.length -
        (front hop.payload zeroHmac).length)).take (noise.length - filler.length -
          (front hop.payload zeroHmac).length) := by
    rw [take_append, take_of_length_le]
    rw [length_front]
    omega
  rw [hdata, Layers.Mask.apply_append, Layers.Mask.apply_apply, htake, append_assoc]
  exact ⟨_, rfl⟩

/-- A hop that finds a layer around a packet with the right end gets the packet. -/
theorem decodeNextHop_wrap (hop : Addressee PublicKey R)
    {inner : List UInt8} (acc : List UInt8) {hmac : Bytes32} (hnonzero : hmac ≠ zeroHmac)
    (hroom : hop.payload.length + 32 + acc.length ≤ inner.length)
    (hends : xorMask.extend (c.keystream (hop.keys c).rho) inner.length acc
      (hop.payload.length + 32) <:+ inner) :
    let data := xorMask.wrap (c.keystream (hop.keys c).rho) (front hop.payload hmac) inner
    decodeNextHop c hop.sharedSecret data (packetHmac c (hop.keys c).mu data associatedData)
      associatedData hop.read = .ok (hop.value, some (hmac, inner)) := by
  intro data
  rw [← length_front hop.payload hmac] at hroom hends
  obtain ⟨kept, -, hkept, hpacket⟩ := Layers.Mask.peel_wrap hroom hends
  have hdata : data.length = inner.length :=
    Layers.Mask.length_wrap (Nat.le_trans (Nat.le_add_right _ _) hroom)
  have hpeel := decodeNextHop_front associatedData rfl hop.readsBack hkept
  rw [if_neg hnonzero] at hpeel
  refine hpeel.trans ?_
  change Except.ok (hop.value, some (hmac, kept ++ xorMask.overhang _ data.length _)) = _
  rw [hdata]
  exact congrArg (fun packet => Except.ok (hop.value, some (hmac, packet))) hpacket

/-- **Step.** A hop that is not the last finds its payload, the HMAC of the packet for the next hop,
and that packet. -/
theorem decodeNextHop_layers {acc : List UInt8} {inner : List UInt8 × Bytes32}
    (hop hop' : Addressee PublicKey R) (hops : List (Addressee PublicKey R))
    (hinner : layers c associatedData noise filler (written c (hop' :: hops)) = inner)
    (hfill : fillerOf c noise.length acc (written c (hop :: hop' :: hops)) = filler)
    (hroom : acc.length + roomOf (written c (hop :: hop' :: hops)) ≤ noise.length)
    (hnonzero : inner.2 ≠ zeroHmac) :
    decodeNextHop c hop.sharedSecret
        (layers c associatedData noise filler (written c (hop :: hop' :: hops))).1
        (layers c associatedData noise filler (written c (hop :: hop' :: hops))).2 associatedData
        hop.read = .ok (hop.value, some inner.swap) := by
  let grown := xorMask.extend (c.keystream (hop.keys c).rho) noise.length acc
    (hop.payload.length + 32)
  have hgrown : grown.length = acc.length + (hop.payload.length + 32) :=
    Layers.Mask.length_extend _ _ _
  have hfill' : fillerOf c noise.length grown (written c (hop' :: hops)) = filler := hfill
  have hroom' : grown.length + roomOf (written c (hop' :: hops)) ≤ noise.length := by
    rw [hgrown, Nat.add_assoc]
    exact hroom
  have hfiller : filler.length ≤ noise.length := by
    rw [← hfill']
    exact (length_fillerOf_le _ _ _).trans hroom'
  have hends : grown <:+ inner.1 := by
    have hsuffix := suffix_layers (c := c) associatedData (written c (hop' :: hops))
      (cons_ne_nil _ _) hroom' (by rw [hfill']; exact hfiller)
    rwa [hfill', hinner] at hsuffix
  have hlength : inner.1.length = noise.length := by
    rw [← hinner]
    exact length_layers associatedData _ hfiller (Nat.le_trans (Nat.le_add_left _ _) hroom')
  have hfits : hop.payload.length + 32 + acc.length ≤ inner.1.length := by
    rw [hlength]
    omega
  simp only [grown, ← hlength] at hends
  subst hinner
  exact decodeNextHop_wrap associatedData hop acc hnonzero hfits hends

/-- **Run.** Every hop finds the packet that was wrapped for it. -/
theorem peelAll_layers {acc : List UInt8}
    (hops : List (Addressee PublicKey R)) (hne : hops ≠ [])
    (hfill : fillerOf c noise.length acc (written c hops) = filler)
    (hroom : acc.length + roomOf (written c hops) ≤ noise.length)
    (hnonzero : ∀ i, 0 < i → i < hops.length →
      (layers c associatedData noise filler (written c (hops.drop i))).2 ≠ zeroHmac) :
    peelAll c associatedData hops (layers c associatedData noise filler (written c hops)).1
      (layers c associatedData noise filler (written c hops)).2 =
        .ok (peeled c associatedData noise filler hops) := by
  induction hops generalizing acc with
  | nil => exact absurd rfl hne
  | cons hop hops ih =>
    cases hops with
    | nil =>
      obtain rfl : acc = filler := hfill
      obtain ⟨kept, hkept⟩ := apply_layers_singleton (c := c) associatedData hop hroom
      have hpeel := decodeNextHop_front associatedData rfl hop.readsBack hkept
      rw [if_pos rfl] at hpeel
      rw [peelAll]
      exact congrArg (· >>= _) hpeel
    | cons hop' hops =>
      have hstep := decodeNextHop_layers associatedData hop hop' hops rfl hfill hroom
        (hnonzero 1 Nat.one_pos (Nat.succ_lt_succ (Nat.succ_pos _)))
      have hrest := ih (cons_ne_nil _ _) hfill
        (by rw [Layers.Mask.length_extend, Nat.add_assoc]; exact hroom)
        fun i hi hlt => hnonzero (i + 1) (Nat.succ_pos i) (Nat.succ_lt_succ hlt)
      rw [peelAll, hstep, ok_bind]
      simp only [Prod.fst_swap, Prod.snd_swap]
      rw [hrest]
      rfl

/-! ### Building and peeling -/

variable (hops : List (Addressee PublicKey R))

theorem zip_written :
    (hops.map Addressee.payload).zip (hops.map (Addressee.keys c)) = written c hops := by
  rw [zip_map', written]

theorem roomOf_written :
    roomOf (written c hops) = (hops.map fun hop => hop.payload.length + 32).sum := by
  rw [roomOf, written, map_map]
  rfl

theorem roomOf_drop_le (i : ℕ) : roomOf (written c (hops.drop i)) ≤ roomOf (written c hops) := by
  induction hops generalizing i with
  | nil => rw [drop_nil]
  | cons hop hops ih =>
    cases i with
    | zero => exact Nat.le_refl _
    | succ i =>
      refine (ih i).trans ?_
      have hcons : roomOf (written c (hop :: hops)) =
          hop.payload.length + 32 + roomOf (written c hops) := roomOf_cons _ _
      rw [hcons]
      exact Nat.le_add_left _ _

/-- **What is built**: the packet for all hops, if they fit. -/
theorem construct_eq (noise : PacketData) (associatedData : Option Bytes32)
    (payloads : List (List UInt8)) (onionKeys : List (OnionKeys PublicKey)) (hne : payloads ≠ [])
    (hkeys : payloads.length ≤ onionKeys.length) (first : OnionKeys PublicKey)
    (hfirst : onionKeys.head? = some first) :
    let hops := payloads.zip onionKeys
    let packet := layers c associatedData noise.bytes (fillerOf c noise.bytes.length [] hops) hops
    constructOnionPacketWithInitNoise c payloads onionKeys noise associatedData =
      if roomOf hops ≤ noise.bytes.length then .ok ⟨first.ephemeralPubkey, packet.1, packet.2⟩
      else .error .err := by
  intro hops packet
  have hlength : hops.length = payloads.length := by
    rw [length_zip, Nat.min_eq_left hkeys]
  have hpos : 0 < payloads.length := length_pos_of_ne_nil hne
  have hops_ne : hops ≠ [] := ne_nil_of_length_pos (by rw [hlength]; exact hpos)
  have hlast : 0 + hops.length = payloads.length - 1 + 1 := by omega
  have hfiller : fillerFrom c noise.bytes.length (payloads.length - 1) 0 0 [] hops = _ :=
    fillerFrom_eq _ noise.bounded _ hops_ne [] hlast (Nat.zero_le _)
  rw [length_nil, Nat.zero_add] at hfiller
  have hguard : guardWith (payloads ≠ []) PacketError.err = .ok () := if_pos hne
  rw [constructOnionPacketWithInitNoise, hguard, ok_bind]
  simp only [show payloads.zip onionKeys = hops from rfl, hfiller]
  by_cases hroom : roomOf hops ≤ noise.bytes.length
  · rw [if_pos hroom, if_pos hroom]
    change wrapHops c associatedData _ 0 hops.reverse noise.bytes zeroHmac >>= _ = _
    rw [wrapHops_reverse associatedData _ (length_filler_le hroom) hroom, ok_bind, hfirst]
    rfl
  · rw [if_neg hroom, if_neg hroom]
    rfl

theorem map_fst_peeled :
    (peeled c associatedData noise filler hops).map Prod.fst = hops.map Addressee.value := by
  induction hops with
  | nil => rfl
  | cons hop hops ih =>
    cases hops with
    | nil => rfl
    | cons hop' hops => exact congrArg (hop.value :: ·) ih

/-- A hop that is not the last is handed the packet for those behind it. -/
theorem peeled_getElem?_of_lt {i : ℕ} (hi : i + 1 < hops.length) :
    ∃ value, (peeled c associatedData noise filler hops)[i]? =
      some (value, some (layers c associatedData noise filler
        (written c (hops.drop (i + 1)))).swap) := by
  induction hops generalizing i with
  | nil => exact absurd hi (Nat.not_lt_zero _)
  | cons hop hops ih =>
    cases hops with
    | nil => exact absurd hi (by simp)
    | cons hop' hops =>
      cases i with
      | zero => exact ⟨hop.value, rfl⟩
      | succ i => exact ih (Nat.lt_of_succ_lt_succ hi)

theorem peeled_getElem?_last (hne : hops ≠ []) :
    ∃ value, (peeled c associatedData noise filler hops)[hops.length - 1]? =
      some (value, none) := by
  induction hops with
  | nil => exact absurd rfl hne
  | cons hop hops ih =>
    cases hops with
    | nil => exact ⟨hop.value, rfl⟩
    | cons hop' hops => exact ih (cons_ne_nil _ _)

/-- **Onions.** A packet is built for any hops whose payloads, with an HMAC each, fit into the
noise, and otherwise none is. Its length is that of the noise. If no HMAC inside is zero, the hops
can peel it one after the other: each HMAC is right, each hop reads its payload, each but the last
gets a packet of the same length and its HMAC, and the last one that it is the last. -/
theorem construct_peel (noise : PacketData) (associatedData : Option Bytes32)
    (hops : List (Addressee PublicKey R)) (hne : hops ≠ []) :
    let built := constructOnionPacketWithInitNoise c (hops.map Addressee.payload)
      (hops.map (Addressee.keys c)) noise associatedData
    let room := (hops.map fun hop => hop.payload.length + 32).sum
    (noise.bytes.length < room → built = .error .err) ∧
    (room ≤ noise.bytes.length → ∃ packet, built = .ok packet ∧
      packet.publicKey = (hops.head hne).ephemeralPubkey ∧
      packet.hopData.length = noise.bytes.length ∧
      ((∀ i, 0 < i → i < hops.length →
          (packetFor c associatedData noise.bytes hops (hops.drop i)).2 ≠ zeroHmac) →
        ∃ results, peelAll c associatedData hops packet.hopData packet.hmac = .ok results ∧
          results.map Prod.fst = hops.map Addressee.value ∧
          (∀ i, i + 1 < hops.length → ∃ value hmac data,
            results[i]? = some (value, some (hmac, data)) ∧ data.length = noise.bytes.length) ∧
          ∃ value, results[hops.length - 1]? = some (value, none))) := by
  intro built room
  have hbuilt : built = _ := construct_eq noise associatedData _ _
    (fun h => hne (map_eq_nil_iff.mp h)) (by rw [length_map, length_map])
    ((hops.head hne).keys c) (by rw [head?_map, head?_eq_some_head hne]; rfl)
  rw [zip_written] at hbuilt
  have hroom : roomOf (written c hops) = room := roomOf_written hops
  rw [hroom] at hbuilt
  refine ⟨fun htoo => hbuilt.trans (if_neg (Nat.not_le.mpr htoo)), fun hfits => ?_⟩
  rw [if_pos hfits] at hbuilt
  have hfits' : roomOf (written c hops) ≤ noise.bytes.length := hroom.symm ▸ hfits
  have hfiller := length_filler_le (c := c) hfits'
  refine ⟨_, hbuilt, rfl, length_layers associatedData _ hfiller hfits', fun hnonzero => ?_⟩
  have hpeel := peelAll_layers associatedData hops hne rfl
    (by rw [length_nil, Nat.zero_add]; exact hfits') hnonzero
  refine ⟨_, hpeel, map_fst_peeled _ _, fun i hi => ?_, peeled_getElem?_last _ _ hne⟩
  obtain ⟨value, hvalue⟩ := peeled_getElem?_of_lt (c := c) associatedData hops hi
  refine ⟨value, _, _, hvalue, length_layers associatedData _ hfiller ?_⟩
  exact (roomOf_drop_le hops (i + 1)).trans hfits'

def firstByte (bytes : Bytes32) : UInt8 := bytes.toList.headD 0

/-- Sums for HMACs, but for a zero, and a key stream that counts on from the key. -/
def sumCrypto : PacketCrypto where
  hmac key data := Vector.replicate 32 (if key.sum + data.sum = 0 then 1 else key.sum + data.sum)
  keystream key i := firstByte key + UInt8.ofNat i

theorem packetHmac_sumCrypto_ne (mu : Bytes32) (data : List UInt8) :
    packetHmac sumCrypto mu data associatedData ≠ zeroHmac := by
  intro h
  have hhead := congrArg Vector.head h
  simp only [packetHmac, sumCrypto, zeroHmac, Vector.head, Vector.getElem_replicate] at hhead
  split at hhead
  · cases hhead
  next hsum => exact hsum hhead

theorem layers_sumCrypto_ne {hops : List (List UInt8 × OnionKeys PublicKey)} (hne : hops ≠ []) :
    (layers sumCrypto associatedData noise filler hops).2 ≠ zeroHmac := by
  match hops with
  | [] => exact absurd rfl hne
  | [_] => exact packetHmac_sumCrypto_ne associatedData _ _
  | _ :: _ :: _ => exact packetHmac_sumCrypto_ne associatedData _ _

def plainHop : Addressee Unit (List UInt8) where
  payload := payload
  ephemeralPubkey := ()
  sharedSecret := Vector.replicate 32 payload.sum
  read := readBytes payload.length
  value := payload
  readsBack := readsBack_readBytes rfl

def plainNoise : PacketData :=
  ⟨(List.range 150).map UInt8.ofNat, by rw [length_map, length_range]; decide⟩

theorem construct_peel_plainHop :
    ∃ packet results, constructOnionPacketWithInitNoise sumCrypto [[1, 7], [2, 3, 4], [5]]
        ([plainHop [1, 7], plainHop [2, 3, 4], plainHop [5]].map (Addressee.keys sumCrypto))
          plainNoise
        none = .ok packet ∧
      peelAll sumCrypto none [plainHop [1, 7], plainHop [2, 3, 4], plainHop [5]] packet.hopData
        packet.hmac = .ok results ∧ results.map Prod.fst = [[1, 7], [2, 3, 4], [5]] := by
  obtain ⟨packet, hbuilt, -, -, hpeel⟩ := (construct_peel (c := sumCrypto) plainNoise none
    [plainHop [1, 7], plainHop [2, 3, 4], plainHop [5]] (cons_ne_nil _ _)).2
    (show 102 ≤ _ by rw [plainNoise, length_map, length_range]; decide)
  obtain ⟨results, hresults, hvalues, -⟩ := hpeel fun i _ hlt =>
    layers_sumCrypto_ne none (mt map_eq_nil_iff.mp (mt drop_eq_nil_iff.mp (Nat.not_le.mpr hlt)))
  exact ⟨packet, results, hbuilt, hresults, hvalues⟩

end PqLightning.Onion
