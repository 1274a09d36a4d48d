import Mathlib.Data.List.Infix

/-!
# Packets that are peeled layer by layer

A packet of fixed length is wrapped once for each hop, from the last to the first. To wrap it is to
push something in at the front, drop as much at the end, and mask the whole with the hop's key
stream. The hop that unmasks it takes its part off the front and has to make up for what was
dropped: it lets its key stream run on past the end of the packet.

For that to be what was dropped, the packet must end with what all the hops before it will add. The
filler is that end, computed from the first hop on: each hop masks what there is of it and adds a
piece of its own key stream (`extend`). A packet that ends with the extended filler is, once
wrapped, a packet that ends with the filler before (`suffix_wrap`), and peeling gives it back
(`peel_wrap`).

## Main results

* `Mask.suffix_wrap` — what a wrapped packet ends with
* `Mask.peel_wrap` — peeling a layer gives the packet back
-/

namespace Layers

open List

variable {β : Type}

/-- A way to combine a letter with a letter of a key stream, its own inverse. -/
structure Mask (β : Type) where
  op : β → β → β
  zero : β
  op_op : ∀ b k, op (op b k) k = b

namespace Mask

variable (m : Mask β) (stream : ℕ → β)

/-- Combines a text with the key stream from `offset` on. -/
def apply : ℕ → List β → List β
  | _, [] => []
  | offset, b :: text => m.op b (stream offset) :: apply (offset + 1) text

/-- One layer: `front` pushed in before the packet, and the whole masked. -/
def wrap (front packet : List β) : List β :=
  m.apply stream 0 (front ++ packet.take (packet.length - front.length))

/-- What a key stream adds behind the end of a packet of length `len`. -/
def overhang (len n : ℕ) : List β := m.apply stream len (List.replicate n m.zero)

/-- The filler for a packet of length `len` after a hop that takes `n` letters off. -/
def extend (len : ℕ) (filler : List β) (n : ℕ) : List β :=
  m.apply stream (len - filler.length) (filler ++ List.replicate n m.zero)

variable {m} {stream}

variable (offset : ℕ)

@[simp]
theorem length_apply (text : List β) : (m.apply stream offset text).length = text.length := by
  induction text generalizing offset with
  | nil => rfl
  | cons b text ih => rw [apply, length_cons, length_cons, ih]

theorem getElem?_apply (text : List β) (i : ℕ) :
    (m.apply stream offset text)[i]? = text[i]?.map (m.op · (stream (offset + i))) := by
  induction text generalizing offset i with
  | nil => rfl
  | cons b text ih =>
    cases i with
    | zero => rfl
    | succ i =>
      rw [apply, getElem?_cons_succ, getElem?_cons_succ, ih, Nat.add_assoc, Nat.add_comm 1]

theorem apply_append (text text' : List β) :
    m.apply stream offset (text ++ text') =
      m.apply stream offset text ++ m.apply stream (offset + text.length) text' := by
  induction text generalizing offset with
  | nil => rfl
  | cons b text ih =>
    rw [cons_append, apply, apply, ih, cons_append, length_cons, Nat.add_assoc, Nat.add_comm 1]

theorem take_apply (n : ℕ) (text : List β) :
    (m.apply stream offset text).take n = m.apply stream offset (text.take n) := by
  induction text generalizing offset n with
  | nil => rw [apply, take_nil, apply]
  | cons b text ih =>
    cases n with
    | zero => rfl
    | succ n => rw [apply, take_succ_cons, take_succ_cons, apply, ih]

theorem apply_apply (text : List β) :
    m.apply stream offset (m.apply stream offset text) = text := by
  induction text generalizing offset with
  | nil => rfl
  | cons b text ih => rw [apply, apply, ih, m.op_op]

theorem length_extend (len : ℕ) (filler : List β) (n : ℕ) :
    (m.extend stream len filler n).length = filler.length + n := by
  rw [extend, length_apply, length_append, length_replicate]

theorem length_wrap {front packet : List β} (h : front.length ≤ packet.length) :
    (m.wrap stream front packet).length = packet.length := by
  rw [wrap, length_apply, length_append, length_take, Nat.min_eq_left (Nat.sub_le _ _),
    Nat.add_sub_cancel' h]

/-- The extended filler is the filler under the key stream, and its overhang. -/
theorem extend_eq_append {len : ℕ} {filler : List β} (h : filler.length ≤ len) (n : ℕ) :
    m.extend stream len filler n =
      m.apply stream (len - filler.length) filler ++ m.overhang stream len n := by
  rw [extend, apply_append, Nat.sub_add_cancel h, overhang]

/-- **What a packet with an extended filler looks like.** -/
theorem exists_of_extend_suffix {packet filler : List β} {n : ℕ}
    (hfits : n + filler.length ≤ packet.length)
    (hsuffix : m.extend stream packet.length filler n <:+ packet) :
    ∃ start : List β, n + start.length + filler.length = packet.length ∧
      packet.take (packet.length - n) =
        start ++ m.apply stream (packet.length - filler.length) filler ∧
      packet = packet.take (packet.length - n) ++ m.overhang stream packet.length n := by
  obtain ⟨start, hstart⟩ := hsuffix
  have hlen : start.length + (filler.length + n) = packet.length := by
    have hlength := congrArg List.length hstart
    rwa [length_append, length_extend] at hlength
  have hsplit : packet = (start ++ m.apply stream (packet.length - filler.length) filler) ++
      m.overhang stream packet.length n := by
    rw [append_assoc, ← extend_eq_append (Nat.le_trans (Nat.le_add_left _ _) hfits), hstart]
  have htake : packet.take (packet.length - n) =
      start ++ m.apply stream (packet.length - filler.length) filler := by
    have hfront : (start ++ m.apply stream (packet.length - filler.length) filler).length =
        packet.length - n := by
      rw [length_append, length_apply]
      omega
    exact (congrArg (List.take _) hsplit).trans (take_left' hfront)
  refine ⟨start, by omega, htake, ?_⟩
  rw [htake]
  exact hsplit

section

variable {front packet filler : List β} (hfits : front.length + filler.length ≤ packet.length)
  (hsuffix : m.extend stream packet.length filler front.length <:+ packet)

include hfits hsuffix

/-- **A wrapped packet** ends with the filler that its own hop did not extend yet. -/
theorem suffix_wrap : filler <:+ m.wrap stream front packet := by
  obtain ⟨start, hlen, htake, -⟩ := exists_of_extend_suffix hfits hsuffix
  have hoffset : 0 + (front ++ start).length = packet.length - filler.length := by
    rw [length_append]
    omega
  rw [wrap, htake, ← append_assoc, apply_append, hoffset, apply_apply]
  exact suffix_append _ _

/-- **Peeling.** Unmasked, a wrapped packet shows what was pushed in and the packet as far as it was
kept; the overhang of the key stream is the rest of it. -/
theorem peel_wrap :
    ∃ kept : List β, kept.length = packet.length - front.length ∧
      m.apply stream 0 (m.wrap stream front packet) = front ++ kept ∧
      kept ++ m.overhang stream packet.length front.length = packet := by
  obtain ⟨start, hlen, htake, hpacket⟩ := exists_of_extend_suffix hfits hsuffix
  refine ⟨packet.take (packet.length - front.length), ?_, ?_, hpacket.symm⟩
  · rw [length_take, Nat.min_eq_left (Nat.sub_le _ _)]
  · rw [wrap, apply_apply]

end

end Mask

end Layers
