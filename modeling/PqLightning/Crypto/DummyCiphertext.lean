import Mathlib.Algebra.BigOperators.Group.Finset.Piecewise
import Mathlib.Algebra.Order.BigOperators.Group.Finset
import Mathlib.Data.Rat.Floor
import Mathlib.Order.Interval.Finset.Nat
import PqLightning.Lib.BitPacking
import PqLightning.Onion.Packet

/-!
# Dummy ciphertexts

A list of ciphertexts is padded to a fixed length with bytes that must look like an ML-KEM
ciphertext (`dummy_ciphertext_from_seed` of `crypto/pq_kem.rs`). They are made as a ciphertext is:
coefficients below the modulus are compressed to 10 bits, and the last 256 of them to 4 bits, and
the bits are packed. The coefficients are 12-bit draws from a key stream, and a draw that is not
below the modulus is thrown away.

Two loops carry state. The sampler reads its draws from a buffer that is filled anew from the key
stream, so the invariant is that the draws are those of the stream (`Sampler.After`). The encoder
holds bits back in an accumulator, and the width of what comes in changes on the way; the invariant
is that the bytes written and the bits held are the string of all bits so far, cut at bytes
(`Encoder.Wrote`).

How often the sampler has to draw is up to the key stream, so the number of its turns is bounded by
a parameter, and nothing is returned when they do not suffice.

Compression maps 3329 coefficients to 1024 values, so some values are likelier than others. Who
counts them could tell random bytes from a ciphertext, which is why the dummies are made in this
way.

## Main results

* `mlkemCompress_eq_ok` — the compression rounds as the standard does
* `dummyCiphertextFromSeed_eq_byteEncode` — the bytes are the encoding of the compressed draws
* `card_preimages`, `card_four_preimages` — 257 values have four preimages, and the others three
-/

namespace PqLightning.Crypto

open List BitPacking
open Gossip (Bytes constBytes)
open Onion (xorMask)

abbrev mlkemQ : ℕ := 3329

abbrev mlkemK : ℕ := 3

abbrev mlkemN : ℕ := 256

abbrev mlkemDu : ℕ := 10

abbrev mlkemDv : ℕ := 4

/-- `a << b` of a `u32`. The bits that do not fit are lost, but a shift by the whole width panics.
-/
def shlU32 (a b : ℕ) : Except Panic ℕ :=
  if b < 32 then .ok (a <<< b % 2 ^ 32) else .error .overflow

def mlkemCompress (x d : ℕ) : Except Panic ℕ := do
  let scaled ← shlU32 x (d + 1)
  let numerator ← addU32 scaled mlkemQ
  let modulus ← shlU32 1 d
  .ok (numerator / (2 * mlkemQ) &&& (modulus - 1))

section Arrays

variable {α : Type} {n : ℕ}

/-- `[T; n]` -/
abbrev FixedArray (α : Type) (n : ℕ) : Type := { l : List α // l.length = n }

def readAt (a : FixedArray α n) (i : ℕ) : Except Panic α :=
  if h : i < a.1.length then .ok a.1[i] else .error .index

def writeAt (a : FixedArray α n) (i : ℕ) (x : α) : Except Panic (FixedArray α n) :=
  if i < n then .ok ⟨a.1.set i x, length_set.trans a.2⟩ else .error .index

end Arrays

/-! ### The coefficients -/

/-- The state of the sampling loop. -/
structure Sampler where
  /-- How much of the key stream `stream` has given. -/
  used : ℕ
  buf : Bytes 4096
  pos : ℕ
  coeffs : FixedArray ℕ ((mlkemK + 1) * mlkemN)
  filled : ℕ

namespace Sampler

variable (stream : ℕ → UInt8)

/-- A buffer of zeros under the key stream from `used` on. -/
def keystreamBuf (used : ℕ) : Bytes 4096 :=
  ⟨xorMask.apply stream used (replicate 4096 0), by rw [Layers.Mask.length_apply, length_replicate]⟩

def start : Sampler := ⟨4096, keystreamBuf stream 0, 0, ⟨replicate _ 0, length_replicate⟩, 0⟩

/-- The buffer has no draw left, and is filled again. -/
def refill (self : Sampler) : Sampler :=
  if self.pos + 2 > 4096 then
    { self with used := self.used + 4096, buf := keystreamBuf stream self.used, pos := 0 }
  else self

/-- `u16::from_le_bytes`, and 12 bits of it. -/
def draw (lo hi : UInt8) : ℕ := (lo.toNat + 256 * hi.toNat) &&& 0x0fff

/-- One turn of the loop. -/
def turn (self : Sampler) : Except Panic Sampler := do
  let self := self.refill stream
  let lo ← readAt self.buf self.pos
  let hi ← readAt self.buf (self.pos + 1)
  let self := { self with pos := self.pos + 2 }
  if draw lo hi < mlkemQ then
    let coeffs ← writeAt self.coeffs self.filled (draw lo hi)
    .ok { self with coeffs, filled := self.filled + 1 }
  else .ok self

def run : ℕ → Sampler → Except Panic (Option Sampler)
  | turns, self =>
    if self.filled < (mlkemK + 1) * mlkemN then
      match turns with
      | 0 => .ok none
      | turns + 1 => self.turn stream >>= run turns
    else .ok (some self)

end Sampler

/-! ### The bytes -/

/-- The state of the encoding loop. -/
structure Encoder where
  ct : Bytes pqKemCtLen
  (out acc nbits : ℕ)

namespace Encoder

def start : Encoder := ⟨constBytes _ 0, 0, 0, 0⟩

/-- `while nbits >= 8` -/
def drain (self : Encoder) : Except Panic Encoder :=
  if 8 ≤ self.nbits then do
    let ct ← writeAt self.ct self.out (UInt8.ofNat (self.acc &&& 0xff))
    drain ⟨ct, self.out + 1, self.acc >>> 8, self.nbits - 8⟩
  else .ok self
termination_by self.nbits

/-- One coefficient, with its index. -/
def push (self : Encoder) (coeff : ℕ × ℕ) : Except Panic Encoder := do
  let (c, i) := coeff
  let d := if i < mlkemK * mlkemN then mlkemDu else mlkemDv
  let value ← mlkemCompress c d
  let shifted ← shlU32 value self.nbits
  let nbits ← addU32 self.nbits d
  { self with acc := self.acc ||| shifted, nbits }.drain

end Encoder

/-- `dummy_ciphertext_from_seed`, with the key stream of ChaCha20 for each key, under a zero nonce.
-/
def dummyCiphertextFromSeed (keystream : Bytes32 → ℕ → UInt8) (turns : ℕ) (seed : Bytes32) :
    Except Panic (Option (Bytes pqKemCtLen)) := do
  match ← (Sampler.start (keystream seed)).run (keystream seed) turns with
  | none => .ok none
  | some sampler =>
    let encoder ← sampler.coeffs.1.zipIdx.foldlM Encoder.push .start
    Panic.unless (encoder.out = pqKemCtLen) .debugAssertion
    .ok (some encoder.ct)

/-! ### The standard -/

/-- FIPS 203 `Compress_d`: `x * 2 ^ d / q`, rounded to the nearest integer, modulo `2 ^ d`. -/
def compress (d x : ℕ) : ℕ := (round ((2 ^ d * x : ℚ) / mlkemQ)).toNat % 2 ^ d

/-- FIPS 203 `BitsToBytes` -/
def bitsToBytes (b : List Bool) : List UInt8 := (groups 8 b).map UInt8.ofNat

/-- FIPS 203 `ByteEncode_d` -/
def byteEncode (d : ℕ) (f : List ℕ) : List UInt8 := bitsToBytes (f.flatMap (bits d))

/-- Draw `i` of a key stream: 12 bits, the first byte of a pair and the low half of the second,
which is the higher one. -/
def nthDraw (stream : ℕ → UInt8) (i : ℕ) : ℕ :=
  (stream (2 * i)).toNat + 256 * ((stream (2 * i + 1)).toNat % 16)

/-- Those of the first `n` draws of a key stream that are below the modulus. -/
def accepted (stream : ℕ → UInt8) (n : ℕ) : List ℕ :=
  ((range n).map (nthDraw stream)).filter (· < mlkemQ)

/-! ### Compression -/

theorem shlU32_of_lt {a b : ℕ} (hb : b < 32) (h : a <<< b < 2 ^ 32) :
    shlU32 a b = .ok (a <<< b) := by
  rw [shlU32, if_pos hb, Nat.mod_eq_of_lt h]

/-- Rounding is a floor of twice the fraction and one more. -/
theorem compress_eq (d x : ℕ) :
    compress d x = (x <<< (d + 1) + mlkemQ) / (2 * mlkemQ) % 2 ^ d := by
  have hround : round ((2 ^ d * x : ℚ) / mlkemQ) =
      ((x <<< (d + 1) + mlkemQ) / (2 * mlkemQ) : ℕ) := by
    rw [round_eq, Int.natCast_div, ← Rat.floor_natCast_div_natCast, Nat.shiftLeft_eq]
    congr 1
    push_cast
    ring
  rw [compress, hround, Int.toNat_natCast]

theorem compress_lt (d x : ℕ) : compress d x < 2 ^ d := Nat.mod_lt _ (Nat.two_pow_pos d)

/-- **The compression** of a coefficient does not overflow, and rounds as the standard does. -/
theorem mlkemCompress_eq_ok {x d : ℕ} (hx : x < mlkemQ) (hd : d ≤ mlkemDu) :
    mlkemCompress x d = .ok (compress d x) := by
  have hd : d ≤ 10 := hd
  have hpow : 2 ^ (d + 1) ≤ 2 ^ 11 := Nat.pow_le_pow_right Nat.two_pos (by omega)
  have hscaled : x <<< (d + 1) ≤ 3328 * 2 ^ 11 := by
    rw [Nat.shiftLeft_eq]
    exact Nat.mul_le_mul (Nat.le_of_lt_succ hx) hpow
  have hone : 1 <<< d ≤ 2 ^ 11 := by
    rw [Nat.one_shiftLeft]
    exact (Nat.pow_le_pow_right Nat.two_pos d.le_succ).trans hpow
  have hsum : x <<< (d + 1) + mlkemQ < 2 ^ 32 :=
    (Nat.add_le_add_right hscaled mlkemQ).trans_lt (by decide)
  rw [mlkemCompress, shlU32_of_lt (by omega) (by omega), ok_bind, addU32_of_lt hsum, ok_bind,
    shlU32_of_lt (by omega) (by omega), ok_bind, Nat.one_shiftLeft, Nat.and_two_pow_sub_one_eq_mod,
    compress_eq]

/-! ### Preimages -/

/-- The coefficients that compress to `v`. -/
def preimages (v : ℕ) : Finset ℕ := (Finset.range mlkemQ).filter (compress mlkemDu · = v)

theorem mem_preimages {v x : ℕ} :
    x ∈ preimages v ↔ x < 3329 ∧ (x * 2048 + 3329) / 6658 % 1024 = v := by
  have hpow : 2 ^ (mlkemDu + 1) = 2048 := rfl
  have hmod : 2 ^ mlkemDu = 1024 := rfl
  have hq : 2 * mlkemQ = 6658 := rfl
  rw [preimages, Finset.mem_filter, Finset.mem_range, compress_eq, Nat.shiftLeft_eq, hpow, hmod, hq]

/-- The preimages of a value are an interval, which for 0 wraps around. -/
theorem card_preimages {v : ℕ} (hv : v < 2 ^ mlkemDu) :
    (preimages v).card = 3 ∨ (preimages v).card = 4 := by
  have hv : v < 1024 := hv
  rcases Nat.eq_zero_or_pos v with rfl | hpos
  · have hzero : preimages 0 = {0, 1, 3328} := by
      ext x
      rw [mem_preimages, Finset.mem_insert, Finset.mem_insert, Finset.mem_singleton]
      omega
    rw [hzero]
    exact .inl rfl
  · have hinterval : preimages v =
        Finset.Ico ((6658 * v - 1282) / 2048) ((6658 * v + 5376) / 2048) := by
      ext x
      have hlo : (6658 * v - 1282) / 2048 ≤ x ↔ 6658 * v ≤ x * 2048 + 3329 := by omega
      have hhi : x < (6658 * v + 5376) / 2048 ↔ x * 2048 + 3329 < 6658 * v + 6658 := by omega
      have hquot : x < 3329 → (x * 2048 + 3329) / 6658 < 1025 := fun hx =>
        Nat.div_lt_of_lt_mul (by omega)
      have hdiv : (x * 2048 + 3329) / 6658 = v ↔
          6658 * v ≤ x * 2048 + 3329 ∧ x * 2048 + 3329 < 6658 * v + 6658 :=
        (Nat.div_eq_iff (by decide)).trans (by omega)
      rw [mem_preimages, Finset.mem_Ico, hlo, hhi, ← hdiv]
      generalize (x * 2048 + 3329) / 6658 = quotient at *
      omega
    rw [hinterval, Nat.card_Ico]
    omega

/-- What a total of threes and fours says about the number of fours. -/
theorem card_fours {values : Finset ℕ} {count : ℕ → ℕ} {extra : ℕ}
    (h : ∀ v ∈ values, count v = 3 ∨ count v = 4)
    (htotal : ∑ v ∈ values, count v = values.card * 3 + extra) :
    (values.filter (count · = 4)).card = extra := by
  have hcount : ∀ v ∈ values, count v = 3 + if count v = 4 then 1 else 0 := fun v hv => by
    rcases h v hv with h | h <;> rw [h] <;> rfl
  have hthree : ∑ _v ∈ values, 3 = values.card * 3 := Finset.sum_const_nat fun _ _ => rfl
  rw [Finset.sum_congr rfl hcount, Finset.sum_add_distrib, hthree, ← Finset.card_filter] at htotal
  exact Nat.add_left_cancel htotal

/-- **The likelier values**: 257 of the 10-bit values have four preimages. -/
theorem card_four_preimages :
    ((Finset.range (2 ^ mlkemDu)).filter fun v => (preimages v).card = 4).card = 257 := by
  have htotal : (Finset.range mlkemQ).card =
      ∑ v ∈ Finset.range (2 ^ mlkemDu), (preimages v).card :=
    Finset.card_eq_sum_card_fiberwise fun x _ =>
      Finset.mem_coe.mpr (Finset.mem_range.mpr (compress_lt mlkemDu x))
  refine card_fours (fun v hv => card_preimages (Finset.mem_range.mp hv)) ?_
  rw [← htotal, Finset.card_range, Finset.card_range]
  rfl

/-! ### Arrays that are filled from the front -/

section Arrays

variable {α : Type} {n : ℕ} {a : FixedArray α n} {l : List α} {z x : α}

/-- The array has been filled up to some place, and has its first value behind it. -/
def Filled (a : FixedArray α n) (z : α) (l : List α) : Prop := a.1 = l ++ replicate (n - l.length) z

theorem Filled.writeAt (h : Filled a z l) (hlt : l.length < n) (x : α) :
    ∃ a', writeAt a l.length x = .ok a' ∧ Filled a' z (l ++ [x]) := by
  refine ⟨_, if_pos hlt, ?_⟩
  have hpad : n - l.length = n - (l ++ [x]).length + 1 := by
    rw [length_append, length_singleton]
    omega
  show a.1.set l.length x = _
  rw [h, hpad, replicate_succ, set_append_right _ _ le_rfl, Nat.sub_self, set_cons_zero,
    append_assoc, singleton_append]

theorem Filled.eq_of_length (h : Filled a z l) (hlen : l.length = n) : a.1 = l := by
  rw [h, hlen, Nat.sub_self, replicate_zero, append_nil]

theorem readAt_of_getElem? {i : ℕ} (h : a.1[i]? = some x) : readAt a i = .ok x := by
  obtain ⟨hi, rfl⟩ := List.getElem?_eq_some_iff.mp h
  exact dif_pos hi

end Arrays

/-! ### The draws -/

variable {stream : ℕ → UInt8} {m n : ℕ}

theorem Sampler.draw_eq_nthDraw (stream : ℕ → UInt8) (m : ℕ) :
    draw (stream (2 * m)) (stream (2 * m + 1)) = nthDraw stream m := by
  have hmask : (0x0fff : ℕ) = 2 ^ 12 - 1 := rfl
  have hlo : (stream (2 * m)).toNat < 256 := UInt8.toNat_lt _
  rw [draw, nthDraw, hmask, Nat.and_two_pow_sub_one_eq_mod]
  omega

theorem accepted_succ (stream : ℕ → UInt8) (m : ℕ) :
    accepted stream (m + 1) = accepted stream m ++
      if nthDraw stream m < mlkemQ then [nthDraw stream m] else [] := by
  rw [accepted, range_succ, map_append, filter_append, map_singleton, accepted, filter_cons,
    filter_nil]
  simp only [decide_eq_true_eq]

theorem accepted_mono (stream : ℕ → UInt8) (h : m ≤ n) :
    accepted stream m <+: accepted stream n := by
  induction n, h using Nat.le_induction with
  | base => exact prefix_rfl
  | succ n _ ih => exact ih.trans (accepted_succ stream n ▸ prefix_append _ _)

theorem lt_of_mem_accepted {x : ℕ} (h : x ∈ accepted stream n) : x < mlkemQ :=
  of_decide_eq_true (mem_filter.mp h).2

namespace Sampler

variable {sampler : Sampler}

/-- The next draw of the buffer is draw `m` of the stream. -/
def Placed (stream : ℕ → UInt8) (sampler : Sampler) (m : ℕ) : Prop :=
  ∃ block, sampler.used = 4096 * (block + 1) ∧ sampler.buf = keystreamBuf stream (4096 * block) ∧
    4096 * block + sampler.pos = 2 * m ∧ sampler.pos ≤ 4096

/-- **After `m` turns** the coefficients are the accepted ones of the first `m` draws. -/
structure After (stream : ℕ → UInt8) (sampler : Sampler) (m : ℕ) : Prop where
  placed : Placed stream sampler m
  filled : Filled sampler.coeffs 0 (accepted stream m)
  filled_eq : sampler.filled = (accepted stream m).length

theorem getElem?_keystreamBuf {used i : ℕ} (hi : i < 4096) :
    (keystreamBuf stream used).1[i]? = some (stream (used + i)) := by
  rw [keystreamBuf, Layers.Mask.getElem?_apply, getElem?_replicate, if_pos hi, Option.map_some]
  exact congrArg some UInt8.zero_xor

theorem after_start (stream : ℕ → UInt8) : After stream (start stream) 0 :=
  ⟨⟨0, rfl, rfl, rfl, Nat.zero_le _⟩, rfl, rfl⟩

/-- The buffer holds whole draws, so it is filled again right behind its last one. -/
theorem placed_refill (h : Placed stream sampler m) :
    Placed stream (sampler.refill stream) m ∧ (sampler.refill stream).pos + 2 ≤ 4096 := by
  obtain ⟨block, hused, hbuf, hpos, hle⟩ := h
  rw [refill]
  split
  · refine ⟨⟨block + 1, ?_, ?_, ?_, Nat.zero_le _⟩, ?_⟩
    · show sampler.used + 4096 = _
      omega
    · show keystreamBuf stream sampler.used = _
      rw [hused]
    · show 4096 * (block + 1) + 0 = _
      omega
    · show 0 + 2 ≤ 4096
      decide
  · exact ⟨⟨block, hused, hbuf, hpos, hle⟩, by omega⟩

/-- **One turn** takes one draw. -/
theorem after_turn (h : After stream sampler m) (hlt : sampler.filled < (mlkemK + 1) * mlkemN) :
    ∃ next, sampler.turn stream = .ok next ∧ After stream next (m + 1) := by
  obtain ⟨⟨block, hused, hbuf, hpos, -⟩, hroom⟩ := placed_refill h.placed
  have hcoeffs : (sampler.refill stream).coeffs = sampler.coeffs ∧
      (sampler.refill stream).filled = sampler.filled := by
    rw [refill]
    split <;> exact ⟨rfl, rfl⟩
  -- whether or not the buffer was filled again
  have hread : ∀ i < 2, readAt (sampler.refill stream).buf ((sampler.refill stream).pos + i) =
      .ok (stream (2 * m + i)) := by
    intro i hi
    refine readAt_of_getElem? ?_
    rw [hbuf, getElem?_keystreamBuf (by omega), ← hpos, Nat.add_assoc]
  have hplaced : ∀ coeffs filled, Placed stream { sampler.refill stream with
      pos := (sampler.refill stream).pos + 2, coeffs, filled } (m + 1) := fun _ _ =>
    ⟨block, hused, hbuf, by show 4096 * block + (_ + 2) = _; omega, hroom⟩
  have hlo : readAt (sampler.refill stream).buf (sampler.refill stream).pos =
      .ok (stream (2 * m)) := hread 0 Nat.two_pos
  simp only [turn, hlo, hread 1 Nat.one_lt_two, ok_bind, hcoeffs.1, hcoeffs.2, draw_eq_nthDraw]
  split
  next hdraw =>
    obtain ⟨coeffs, hwrite, hfilled⟩ := h.filled.writeAt (h.filled_eq ▸ hlt) (nthDraw stream m)
    rw [h.filled_eq, hwrite, ok_bind]
    refine ⟨_, rfl, hplaced _ _, ?_, ?_⟩ <;>
      rw [accepted_succ, if_pos hdraw]
    · exact hfilled
    · rw [length_append, length_singleton]
  next hdraw =>
    refine ⟨_, rfl, hplaced _ _, ?_, ?_⟩ <;>
      rw [accepted_succ, if_neg hdraw, append_nil]
    · exact h.filled
    · exact h.filled_eq

/-- The loop ends with the array full. -/
theorem After.coeffs_eq (h : After stream sampler m)
    (hge : ¬ sampler.filled < (mlkemK + 1) * mlkemN) (hle : m ≤ n) :
    sampler.coeffs.1 = (accepted stream n).take ((mlkemK + 1) * mlkemN) := by
  have hlength : (accepted stream m).length = (mlkemK + 1) * mlkemN := by
    have hfull := congrArg length h.filled
    rw [sampler.coeffs.2, length_append, length_replicate] at hfull
    rw [h.filled_eq] at hge
    omega
  rw [h.filled.eq_of_length hlength, ← hlength]
  exact prefix_iff_eq_take.mp (accepted_mono stream hle)

/-- While coefficients are missing, there are draws to come. -/
theorem After.lt (h : After stream sampler m) (hlt : sampler.filled < (mlkemK + 1) * mlkemN)
    (hn : (mlkemK + 1) * mlkemN ≤ (accepted stream n).length) (hle : m ≤ n) : m < n := by
  refine hle.lt_of_ne ?_
  rintro rfl
  exact absurd (h.filled_eq ▸ hlt) (Nat.not_lt.mpr hn)

/-- **The whole loop** ends within `n` turns if there are enough good draws among the first `n`. -/
theorem exists_run (hn : (mlkemK + 1) * mlkemN ≤ (accepted stream n).length) (turns : ℕ)
    (h : After stream sampler m) (hle : m ≤ n) (hturns : n ≤ m + turns) :
    ∃ last, sampler.run stream turns = .ok (some last) ∧
      last.coeffs.1 = (accepted stream n).take ((mlkemK + 1) * mlkemN) := by
  -- the turns that are left reach to draw `n`
  induction turns generalizing sampler m with
  | zero =>
    have hfull : ¬ sampler.filled < (mlkemK + 1) * mlkemN := fun hlt => by
      have := h.lt hlt hn hle
      omega
    rw [run, if_neg hfull]
    exact ⟨_, rfl, h.coeffs_eq hfull hle⟩
  | succ turns ih =>
    rw [run]
    split
    next hlt =>
      have hmore := h.lt hlt hn hle
      obtain ⟨next, hnext, hafter⟩ := after_turn h hlt
      rw [hnext, ok_bind]
      exact ih hafter hmore (by omega)
    next hfull => exact ⟨_, rfl, h.coeffs_eq hfull hle⟩

end Sampler

/-! ### The packed bits -/

theorem bitsToBytes_append (s t : List Bool) :
    bitsToBytes (s ++ t) = bitsToBytes s ++ bitsToBytes (rest 8 s ++ t) := by
  rw [bitsToBytes, groups_append (by decide), map_append, bitsToBytes, bitsToBytes]

theorem length_bitsToBytes (s : List Bool) : (bitsToBytes s).length = s.length / 8 := by
  rw [bitsToBytes, length_map, length_groups]

namespace Encoder

variable {encoder : Encoder} {s : List Bool}

/-- Bytes have been written, and bits are held that are still to be. -/
structure Holding (encoder : Encoder) (written : List UInt8) (s : List Bool) : Prop where
  filled : Filled encoder.ct 0 written
  out_eq : encoder.out = written.length
  holds : Holds encoder.acc encoder.nbits s

/-- All full bytes are written. -/
theorem Holding.drain {written : List UInt8} (h : Holding encoder written s)
    (hroom : written.length + s.length / 8 ≤ pqKemCtLen) :
    ∃ next, encoder.drain = .ok next ∧ Holding next (written ++ bitsToBytes s) (rest 8 s) := by
  have h8 : 0 < 8 := by decide
  induction s using groupInduction h8 generalizing encoder written with
  | short s hs =>
    have hnbits : ¬ 8 ≤ encoder.nbits := by
      have := h.holds.length_eq
      omega
    refine ⟨encoder, by rw [Encoder.drain, if_neg hnbits], ?_⟩
    rw [bitsToBytes, groups_of_lt hs, rest_of_lt hs, map_nil, append_nil]
    exact h
  | long s hs ih =>
    have hnbits : 8 ≤ encoder.nbits := h.holds.length_eq ▸ hs
    rw [length_div_of_le h8 hs] at hroom
    obtain ⟨ct, hwrite, hfilled⟩ := h.filled.writeAt (by omega)
      (UInt8.ofNat (encoder.acc &&& 0xff))
    have hpopped : Holding ⟨ct, encoder.out + 1, encoder.acc >>> 8, encoder.nbits - 8⟩
        (written ++ [UInt8.ofNat (encoder.acc &&& 0xff)]) (s.drop 8) :=
      ⟨hfilled, by simp [h.out_eq], h.holds.pop hnbits⟩
    obtain ⟨next, hnext, hholding⟩ := ih hpopped (by rw [length_append, length_singleton]; omega)
    refine ⟨next, ?_, ?_⟩
    · rw [Encoder.drain, if_pos hnbits, h.out_eq, hwrite, ok_bind, ← h.out_eq]
      exact hnext
    · rw [bitsToBytes, h.holds.groups_eq h8 hnbits, rest_of_le h8 hs, map_cons,
        ← Nat.and_two_pow_sub_one_eq_mod, append_cons]
      exact hholding

/-- **All bits so far** are written as far as they fill bytes, and held otherwise. -/
def Wrote (encoder : Encoder) (s : List Bool) : Prop := Holding encoder (bitsToBytes s) (rest 8 s)

theorem wrote_start : Wrote start [] := ⟨rfl, rfl, holds_zero⟩

/-- **One coefficient.** -/
theorem Wrote.push (h : Wrote encoder s) {c i d : ℕ} (hc : c < mlkemQ)
    (hd : (if i < mlkemK * mlkemN then mlkemDu else mlkemDv) = d)
    (hroom : s.length + d ≤ 8 * pqKemCtLen) :
    ∃ next, encoder.push (c, i) = .ok next ∧ Wrote next (s ++ bits d (compress d c)) := by
  have hle : d ≤ mlkemDu := by
    rw [← hd]
    split <;> decide
  -- less than a byte is held, so there is room for 10 bits more
  have hnbits : encoder.nbits < 8 := by
    rw [← h.holds.length_eq, length_rest]
    exact Nat.mod_lt _ (by decide)
  have hshift : compress d c <<< encoder.nbits < 2 ^ 32 := by
    rw [Nat.shiftLeft_eq]
    calc compress d c * 2 ^ encoder.nbits
      _ < 2 ^ d * 2 ^ 8 := Nat.mul_lt_mul_of_lt_of_le (compress_lt d c)
          (Nat.pow_le_pow_right Nat.two_pos hnbits.le) (Nat.two_pow_pos 8)
      _ ≤ 2 ^ 10 * 2 ^ 8 := Nat.mul_le_mul_right _ (Nat.pow_le_pow_right Nat.two_pos hle)
      _ < 2 ^ 32 := by decide
  have hbits : encoder.nbits + d < 2 ^ 32 :=
    (Nat.add_lt_add_of_lt_of_le hnbits hle).trans (by decide)
  have hpushed : Holding { encoder with
      acc := encoder.acc ||| compress d c <<< encoder.nbits, nbits := encoder.nbits + d }
      (bitsToBytes s) (rest 8 s ++ bits d (compress d c)) :=
    ⟨h.filled, h.out_eq, h.holds.push (compress_lt d c)⟩
  obtain ⟨next, hnext, hholding⟩ := hpushed.drain (by
    rw [length_bitsToBytes, length_append, length_rest, length_bits]
    omega)
  refine ⟨next, ?_, ?_⟩
  · rw [← hnext, Encoder.push]
    simp only [hd, mlkemCompress_eq_ok hc hle, shlU32_of_lt (hnbits.trans (by decide)) hshift,
      addU32_of_lt hbits, ok_bind]
  · rw [Wrote, bitsToBytes_append, rest_append (by decide)]
    exact hholding

/-- **Coefficients of one width.** -/
theorem Wrote.foldlM (h : Wrote encoder s) (cs : List ℕ) {k d : ℕ} (hcs : ∀ c ∈ cs, c < mlkemQ)
    (hd : ∀ i, k ≤ i → i < k + cs.length → (if i < mlkemK * mlkemN then mlkemDu else mlkemDv) = d)
    (hroom : s.length + d * cs.length ≤ 8 * pqKemCtLen) :
    ∃ last, (cs.zipIdx k).foldlM Encoder.push encoder = .ok last ∧
      Wrote last (s ++ (cs.map (compress d)).flatMap (bits d)) := by
  induction cs generalizing encoder s k with
  | nil => exact ⟨encoder, rfl, by simpa using h⟩
  | cons c cs ih =>
    rw [length_cons] at hd hroom
    rw [Nat.mul_add_one] at hroom
    obtain ⟨next, hnext, hwrote⟩ := h.push (hcs c mem_cons_self) (hd k le_rfl (by omega)) (by omega)
    obtain ⟨last, hlast, hdone⟩ := ih hwrote (k := k + 1)
      (fun c' hc' => hcs c' (mem_cons_of_mem _ hc')) (fun i hi hlt => hd i (by omega) (by omega))
      (by rw [length_append, length_bits]; omega)
    refine ⟨last, ?_, ?_⟩
    · rw [zipIdx_cons, foldlM_cons, hnext, ok_bind, hlast]
    · rw [map_cons, flatMap_cons, ← append_assoc]
      exact hdone

end Encoder

/-- **The encoding** of 1024 coefficients is that of the first 768 and that of the others. -/
theorem exists_encoded (us vs : List ℕ) (hus : us.length = 768) (hvs : vs.length = 256)
    (hlt : ∀ c ∈ us ++ vs, c < mlkemQ) :
    ∃ encoder, (us ++ vs).zipIdx.foldlM Encoder.push .start = .ok encoder ∧
      encoder.out = pqKemCtLen ∧
      encoder.ct.1 =
        byteEncode 10 (us.map (compress 10)) ++ byteEncode 4 (vs.map (compress 4)) := by
  obtain ⟨middle, hmiddle, hu⟩ := Encoder.wrote_start.foldlM us (k := 0) (d := 10)
    (fun c hc => hlt c (mem_append_left _ hc)) (fun i _ hi => if_pos (show i < 768 by omega))
    (by rw [hus]; decide)
  obtain ⟨last, hlast, hv⟩ := hu.foldlM vs (k := 768) (d := 4)
    (fun c hc => hlt c (mem_append_right _ hc)) (fun i hi _ => if_neg (show ¬ i < 768 by omega))
    (by rw [nil_append, length_flatMap_bits, length_map, hus, hvs]; decide)
  have hlength : (bitsToBytes ([] ++ (us.map (compress 10)).flatMap (bits 10) ++
      (vs.map (compress 4)).flatMap (bits 4))).length = pqKemCtLen := by
    rw [nil_append, length_bitsToBytes, length_append, length_flatMap_bits, length_flatMap_bits,
      length_map, length_map, hus, hvs]
  refine ⟨last, ?_, hv.out_eq.trans hlength, ?_⟩
  · rw [zipIdx_append, foldlM_append, hmiddle, ok_bind, hus]
    exact hlast
  · have haligned : rest 8 ((us.map (compress 10)).flatMap (bits 10)) = [] :=
      rest_of_dvd (by rw [length_flatMap_bits, length_map, hus]; decide)
    rw [hv.filled.eq_of_length hlength, nil_append, bitsToBytes_append, haligned, nil_append,
      byteEncode, byteEncode]

/-- **Dummy ciphertexts are encodings**, and compression has the preimages it has in the standard.
-/
theorem dummyCiphertextFromSeed_eq_byteEncode (keystream : Bytes32 → ℕ → UInt8) (seed : Bytes32)
    (n : ℕ) (hn : 1024 ≤ (accepted (keystream seed) n).length) (turns : ℕ) (hturns : n ≤ turns) :
    (∃ ct, dummyCiphertextFromSeed keystream turns seed = .ok (some ct) ∧ ct.1.length = 1088 ∧
      ct.1 = byteEncode 10 (((accepted (keystream seed) n).take 768).map (compress 10)) ++
        byteEncode 4 ((((accepted (keystream seed) n).drop 768).take 256).map (compress 4))) ∧
    ∀ v, ((Finset.range 3329).filter (mlkemCompress · 10 = .ok v)).card =
      ((Finset.range 3329).filter (compress 10 · = v)).card := by
  obtain ⟨sampler, hrun, hcoeffs⟩ := Sampler.exists_run hn turns
    (Sampler.after_start (keystream seed)) (Nat.zero_le n) (by omega)
  have hsplit : sampler.coeffs.1 = (accepted (keystream seed) n).take 768 ++
      ((accepted (keystream seed) n).drop 768).take 256 :=
    hcoeffs.trans (show (accepted (keystream seed) n).take (768 + 256) = _ from take_add)
  obtain ⟨encoder, hencoder, hout, hct⟩ := exists_encoded
    ((accepted (keystream seed) n).take 768) (((accepted (keystream seed) n).drop 768).take 256)
    (by rw [length_take]; omega) (by rw [length_take, length_drop]; omega) fun c hc =>
      lt_of_mem_accepted (mem_of_mem_take (take_add ▸ hc))
  refine ⟨⟨encoder.ct, ?_, encoder.ct.2, hct⟩, fun v => ?_⟩
  · rw [dummyCiphertextFromSeed, hrun, ok_bind]
    simp only [hsplit, hencoder, ok_bind, Panic.unless_of _ hout]
  · refine congrArg Finset.card (Finset.filter_congr fun x hx => ?_)
    rw [mlkemCompress_eq_ok (Finset.mem_range.mp hx) le_rfl, Except.ok.injEq]

theorem dummyCiphertextFromSeed_counter :
    ∃ ct, dummyCiphertextFromSeed (fun _ i => UInt8.ofNat i) 1366 (Vector.replicate 32 0) =
      .ok (some ct) ∧ ct.1.length = 1088 := by
  obtain ⟨⟨ct, hct, hlength, -⟩, -⟩ := dummyCiphertextFromSeed_eq_byteEncode
    (fun _ i => UInt8.ofNat i) (Vector.replicate 32 0) 1366 (by decide +kernel) 1366 le_rfl
  exact ⟨ct, hct, hlength⟩

end PqLightning.Crypto
