import Mathlib.Data.List.Nodup
import Mathlib.Logic.Function.Iterate

/-!
# Key ratchets

A cipher is used with a counter as its nonce. When the counter has reached a limit, a new key is
derived from the old one and the counter starts again. The counter is looked at only between frames,
and a frame takes several nonces, so that the last frame under a key can go over the limit.

A ghost number counts the keys. What was encrypted under is then recorded as a `Stamp`, and no stamp
comes twice: the epoch never falls, and while it stays the nonce rises.

## Main results

* `nodup_stamps` — no nonce is used twice in an epoch
* `key_of_mem_stamps` — each epoch has one key, derived as often as the epoch says
* `nonce_lt_of_mem_stamps` — nonces stay close to the limit
-/

namespace Ratchet

variable {Key Chain : Type}

/-- The key in use, the next nonce, and what the next key is derived with. -/
@[ext]
structure State (Key Chain : Type) where
  key : Key
  nonce : ℕ
  chain : Chain

/-- What one encryption is made under. -/
structure Stamp (Key : Type) where
  epoch : ℕ
  key : Key
  nonce : ℕ
deriving DecidableEq

namespace State

variable (rekey : Chain → Key → Chain × Key) (limit : ℕ)

variable (s : State Key Chain)

def rekeyed : State Key Chain := ⟨(rekey s.chain s.key).2, 0, (rekey s.chain s.key).1⟩

def rotate : State Key Chain := if limit ≤ s.nonce then s.rekeyed rekey else s

/-- The state when `n` nonces were used. -/
def spend (n : ℕ) : State Key Chain := { s with nonce := s.nonce + n }

/-- The epoch after the counter was looked at. -/
def rotatedEpoch (epoch : ℕ) : ℕ := if limit ≤ s.nonce then epoch + 1 else epoch

variable {rekey} {limit}

theorem rotate_nonce_lt (hlimit : 0 < limit) (s : State Key Chain) :
    (s.rotate rekey limit).nonce < limit := by
  rw [rotate]
  split
  · exact hlimit
  next h =>
    exact Nat.lt_of_not_le h

theorem iterate_rekeyed_spend (n k : ℕ) :
    ((rekeyed rekey)^[k] (s.spend n)).key = ((rekeyed rekey)^[k] s).key := by
  cases k with
  | zero => rfl
  | succ k => rfl

end State

open State

variable (rekey : Chain → Key → Chain × Key) (limit width : ℕ)

def frame (epoch : ℕ) (s : State Key Chain) : List (Stamp Key) :=
  (List.range width).map fun i => ⟨epoch, s.key, s.nonce + i⟩

def next (s : State Key Chain) : State Key Chain := (s.rotate rekey limit).spend width

def stamps : ℕ → ℕ → State Key Chain → List (Stamp Key)
  | 0, _, _ => []
  | n + 1, epoch, s =>
    frame width (s.rotatedEpoch limit epoch) (s.rotate rekey limit) ++
      stamps n (s.rotatedEpoch limit epoch) (next rekey limit width s)

variable {rekey} {limit} {width} {epoch n : ℕ} {s : State Key Chain} {stamp : Stamp Key}

theorem mem_frame :
    stamp ∈ frame width epoch s ↔ ∃ i < width, stamp = ⟨epoch, s.key, s.nonce + i⟩ := by
  simp [frame, eq_comm]

/-- **Step.** The stamps after a look at the counter are those after it in epoch and nonce. -/
theorem rotatedEpoch_le_and_nonce_le (rekey : Chain → Key → Chain × Key) (limit : ℕ)
    (s : State Key Chain) (epoch : ℕ) :
    epoch ≤ s.rotatedEpoch limit epoch ∧
      (s.rotatedEpoch limit epoch = epoch → s.nonce = (s.rotate rekey limit).nonce) := by
  rw [rotatedEpoch, rotate]
  split
  · exact ⟨Nat.le_succ _, fun h => absurd h (Nat.succ_ne_self _)⟩
  · exact ⟨Nat.le_refl _, fun _ => rfl⟩

theorem le_of_mem_stamps (h : stamp ∈ stamps rekey limit width n epoch s) :
    epoch ≤ stamp.epoch ∧ (stamp.epoch = epoch → s.nonce ≤ stamp.nonce) := by
  induction n generalizing epoch s with
  | zero => exact absurd h List.not_mem_nil
  | succ n ih =>
    obtain ⟨hepoch, hnonce⟩ := rotatedEpoch_le_and_nonce_le rekey limit s epoch
    rcases List.mem_append.mp h with h | h
    · obtain ⟨i, -, rfl⟩ := mem_frame.mp h
      exact ⟨hepoch, fun heq => hnonce heq ▸ Nat.le_add_right _ _⟩
    · obtain ⟨hlater, hafter⟩ := ih h
      refine ⟨Nat.le_trans hepoch hlater, fun heq => ?_⟩
      have hsame : s.rotatedEpoch limit epoch = epoch := by omega
      have hspent : (s.rotate rekey limit).nonce + width ≤ stamp.nonce :=
        hafter (heq.trans hsame.symm)
      rw [hnonce hsame]
      omega

/-- **No nonce is used twice in an epoch.** -/
theorem nodup_stamps (n epoch : ℕ) (s : State Key Chain) :
    ((stamps rekey limit width n epoch s).map fun stamp => (stamp.epoch, stamp.nonce)).Nodup := by
  induction n generalizing epoch s with
  | zero => exact List.nodup_nil
  | succ n ih =>
    rw [stamps, List.map_append]
    refine List.Nodup.append ?_ (ih _ _) ?_
    · rw [frame, List.map_map]
      refine List.nodup_range.map fun i j heq => ?_
      simp only [Function.comp_apply, Prod.mk.injEq, true_and] at heq
      omega
    · -- the stamps of the later frames have a later epoch or a nonce past this frame
      intro pair hframe hlater
      obtain ⟨early, hearly, rfl⟩ := List.mem_map.mp hframe
      obtain ⟨late, hlate, heq⟩ := List.mem_map.mp hlater
      obtain ⟨i, hi, rfl⟩ := mem_frame.mp hearly
      obtain ⟨hepoch, hnonce⟩ : late.epoch = s.rotatedEpoch limit epoch ∧
          late.nonce = (s.rotate rekey limit).nonce + i := by
        simpa only [Prod.mk.injEq] using heq
      have hpast : (s.rotate rekey limit).nonce + width ≤ late.nonce :=
        (le_of_mem_stamps hlate).2 hepoch
      omega

/-- **Each epoch has one key**, derived as often as the epoch says. -/
theorem key_of_mem_stamps (h : stamp ∈ stamps rekey limit width n epoch s) :
    stamp.key = ((rekeyed rekey)^[stamp.epoch - epoch] s).key := by
  induction n generalizing epoch s with
  | zero => exact absurd h List.not_mem_nil
  | succ n ih =>
    have hkey : ∀ k, s.rotatedEpoch limit epoch ≤ k →
        ((rekeyed rekey)^[k - s.rotatedEpoch limit epoch] (s.rotate rekey limit)).key =
          ((rekeyed rekey)^[k - epoch] s).key := by
      intro k hk
      rw [rotatedEpoch] at hk ⊢
      rw [rotate]
      split
      next hlimit =>
        rw [if_pos hlimit] at hk
        have hsucc : k - epoch = (k - (epoch + 1)) + 1 := by omega
        rw [hsucc, Function.iterate_succ_apply]
      · rfl
    rcases List.mem_append.mp h with h | h
    · obtain ⟨i, -, rfl⟩ := mem_frame.mp h
      rw [← hkey _ (Nat.le_refl _), Nat.sub_self]
      rfl
    · rw [ih h, next, iterate_rekeyed_spend, hkey _ (le_of_mem_stamps h).1]

/-- **Nonces stay close to the limit.** -/
theorem nonce_lt_of_mem_stamps (hlimit : 0 < limit)
    (h : stamp ∈ stamps rekey limit width n epoch s) : stamp.nonce + 1 < limit + width := by
  induction n generalizing epoch s with
  | zero => exact absurd h List.not_mem_nil
  | succ n ih =>
    rcases List.mem_append.mp h with h | h
    · obtain ⟨i, hi, rfl⟩ := mem_frame.mp h
      have hrotated : (s.rotate rekey limit).nonce < limit := s.rotate_nonce_lt hlimit
      change (s.rotate rekey limit).nonce + i + 1 < limit + width
      omega
    · exact ih h

theorem next_nonce_lt (hlimit : 0 < limit) (s : State Key Chain) :
    (next rekey limit width s).nonce < limit + width :=
  Nat.add_lt_add_right (s.rotate_nonce_lt hlimit) width

end Ratchet
