import PqLightning.Basic
import PqLightning.Lib.Dyadic

/-!
# The store of the counterparty's revocation secrets

`CounterpartyCommitmentSecrets` of `ln/chan_utils.rs` keeps 49 of the up to 2^48 secrets the
counterparty reveals, one for each number of trailing zeros an index can have, and rederives the
others by flipping bits and hashing. The hash is a parameter throughout: nothing about SHA-256 is
used.

The secrets arrive in descending order of index, starting from 2^48 - 1. After the secrets down to
index `n` have been accepted the store satisfies `Holds n`: slot `p` holds the secret of the lowest
index from `n` up that has exactly `p` trailing zeros, and from each used slot the secrets of its
whole subtree derive. The second half is the point of the checks in `provide_secret`: a slot is
overwritten by a parent from which everything the slot was answering for can be derived.
-/

namespace PqLightning

open List Function Dyadic

/-- `idx & (1 << bitpos) == (1 << bitpos)`. -/
def hasBit (idx bitpos : ℕ) : Bool := idx &&& 1 <<< bitpos == 1 <<< bitpos

@[simp] theorem hasBit_eq_testBit (idx bitpos : ℕ) : hasBit idx bitpos = idx.testBit bitpos := by
  rw [hasBit, Nat.one_shiftLeft, Nat.and_two_pow]
  cases h : idx.testBit bitpos <;> simp [(Nat.two_pow_pos bitpos).ne]

/-- `res[bitpos / 8] ^= 1 << (bitpos & 7)`. -/
def flipBit (res : Bytes32) (bitpos : ℕ) : Bytes32 :=
  res.setIfInBounds (bitpos / 8) (res.getD (bitpos / 8) 0 ^^^ 1 <<< UInt8.ofNat (bitpos % 8))

section Derivation

variable (sha256 : Bytes32 → Bytes32)

def buildCommitmentSecret (commitmentSeed : Bytes32) (idx : ℕ) : Bytes32 :=
  (range 48).foldl
    (fun res i =>
      let bitpos := 47 - i
      if hasBit idx bitpos then sha256 (flipBit res bitpos) else res)
    commitmentSeed

/-- Derives the secret at `idx` from one that shares all but the low `bits` bits of its index. -/
def deriveSecret (secret : Bytes32) (bits idx : ℕ) : Bytes32 :=
  (range bits).foldl
    (fun res i =>
      let bitpos := bits - 1 - i
      if hasBit idx bitpos then sha256 (flipBit res bitpos) else res)
    secret

/-- The loop is the walk down the index tree whose step at bit `b` flips that bit and hashes. -/
theorem deriveSecret_eq_derive (secret : Bytes32) (bits idx : ℕ) :
    deriveSecret sha256 secret bits idx =
      derive (fun b s => sha256 (flipBit s b)) bits idx secret := by
  induction bits generalizing secret with
  | zero => rfl
  | succ bits ih =>
    rw [derive, ← ih, deriveSecret, range_succ_eq_map, foldl_cons, foldl_map, deriveSecret]
    simp only [hasBit_eq_testBit, Nat.add_sub_cancel, Nat.sub_zero]
    congr 1
    funext res i
    rw [show bits - (i + 1) = bits - 1 - i by omega]

/-- The honest secrets are the walk over all 48 bits from the seed. -/
theorem buildCommitmentSecret_eq_derive (seed : Bytes32) (idx : ℕ) :
    buildCommitmentSecret sha256 seed idx = derive (fun b s => sha256 (flipBit s b)) 48 idx seed :=
  deriveSecret_eq_derive sha256 seed 48 idx

end Derivation

/-! ### The store -/

structure CounterpartyCommitmentSecrets where
  /-- One slot for each number of trailing zeros of a 48-bit index. -/
  oldSecrets : Fin 49 → Bytes32 × ℕ

namespace CounterpartyCommitmentSecrets

/-- An empty store: the index `1 << 48` of every slot is not one of a secret. -/
def new : CounterpartyCommitmentSecrets where
  oldSecrets := fun _ => (Vector.replicate 32 0, 1 <<< 48)

/-- The slot of an index: its number of trailing zeros, at most 48. -/
def placeSecret (idx : ℕ) : Fin 49 := Fin.ofNat 49 (((range 48).find? (hasBit idx)).getD 48)

def getMinSeenSecret (self : CounterpartyCommitmentSecrets) : ℕ :=
  (finRange 49).foldl
    (fun min i => if (self.oldSecrets i).2 < min then (self.oldSecrets i).2 else min) (1 <<< 48)

variable (sha256 : Bytes32 → Bytes32)

/-- Inserts the `secret` at `idx`, after checking that the secrets of the lower slots derive from
it. A store that has already seen an index as low is left as it is. -/
def provideSecret (self : CounterpartyCommitmentSecrets) (idx : ℕ) (secret : Bytes32) :
    Except Unit CounterpartyCommitmentSecrets :=
  let pos := placeSecret idx
  if ∀ i < pos, deriveSecret sha256 secret pos (self.oldSecrets i).2 = (self.oldSecrets i).1 then
    if self.getMinSeenSecret ≤ idx then .ok self
    else .ok { oldSecrets := update self.oldSecrets pos (secret, idx) }
  else .error ()

/-- The secret at `idx`, from the first slot whose subtree contains it. With no such slot the
function asserts that the index was not seen yet. -/
def getSecret (self : CounterpartyCommitmentSecrets) (idx : ℕ) : Except Panic (Option Bytes32) :=
  match (finRange 49).find? fun i => idx >>> i.val <<< i.val == (self.oldSecrets i).2 with
  | some i => .ok (some (deriveSecret sha256 (self.oldSecrets i).1 i idx))
  | none => do
    Panic.unless (idx < self.getMinSeenSecret) .assertion
    return none

/-! ### What the parts of the store compute -/

/-- The loop of `place_secret` finds the level of an index in the tree. -/
theorem placeSecret_isLevel {idx : ℕ} (h : idx < 2 ^ 48) :
    Dyadic.IsLevel 48 (placeSecret idx) idx := by
  unfold placeSecret
  cases hf : (range 48).find? (hasBit idx) with
  | none =>
    -- no bit below 48 is set, so the index is zero
    have hz : idx = 0 := by
      refine Nat.eq_of_testBit_eq fun b => ?_
      rw [Nat.zero_testBit]
      rcases Nat.lt_or_ge b 48 with hb | hb
      · simpa using find?_eq_none.mp hf b (mem_range.mpr hb)
      · exact Nat.testBit_lt_two_pow (Nat.lt_of_lt_of_le h (Nat.pow_le_pow_right (by omega) hb))
    exact ⟨Nat.le_refl 48, hz ▸ Nat.dvd_zero _, fun hlt => absurd hlt (Nat.lt_irrefl 48)⟩
  | some p =>
    obtain ⟨hp, hmem, hlow⟩ := find?_range_eq_some.mp hf
    simp only [hasBit_eq_testBit, Bool.not_eq_true'] at hp hlow
    have hval : (Fin.ofNat 49 ((some p).getD 48)).val = p :=
      Nat.mod_eq_of_lt (Nat.lt_succ_of_lt (mem_range.mp hmem))
    rw [hval]
    refine ⟨Nat.le_of_lt (mem_range.mp hmem), dvd_of_testBit hlow, fun _ hdvd => ?_⟩
    rw [← base_of_dvd hdvd, testBit_base_of_lt (Nat.lt_succ_self p)] at hp
    exact Bool.false_ne_true hp

theorem le_getMinSeenSecret {store : CounterpartyCommitmentSecrets} {n : ℕ} (hn : n ≤ 2 ^ 48)
    (h : ∀ p, n ≤ (store.oldSecrets p).2) : n ≤ store.getMinSeenSecret := by
  unfold getMinSeenSecret
  refine foldlRecOn (motive := fun min => n ≤ min) (finRange 49) _ hn ?_
  intro min hmin p _
  split
  · exact h p
  · exact hmin

theorem foldl_min_le (store : CounterpartyCommitmentSecrets) (slots : List (Fin 49)) (start : ℕ) :
    let min := slots.foldl
      (fun min i => if (store.oldSecrets i).2 < min then (store.oldSecrets i).2 else min) start
    min ≤ start ∧ ∀ p ∈ slots, min ≤ (store.oldSecrets p).2 := by
  induction slots generalizing start with
  | nil => exact ⟨Nat.le_refl _, nofun⟩
  | cons q slots ih =>
    rw [foldl_cons]
    obtain ⟨hstart, hslots⟩ := ih
      (if (store.oldSecrets q).2 < start then (store.oldSecrets q).2 else start)
    refine ⟨Nat.le_trans hstart (by split <;> omega), ?_⟩
    rintro p (_ | ⟨_, hp⟩)
    · exact Nat.le_trans hstart (by split <;> omega)
    · exact hslots p hp

theorem getMinSeenSecret_le (store : CounterpartyCommitmentSecrets) :
    store.getMinSeenSecret ≤ 2 ^ 48 ∧ ∀ p, store.getMinSeenSecret ≤ (store.oldSecrets p).2 :=
  have h := foldl_min_le store (finRange 49) (1 <<< 48)
  ⟨h.1, fun p => h.2 p (mem_finRange p)⟩

/-! ### The invariant -/

/-- The store after the secrets `sec i` of all indices `i` from `n` up to 2^48 were accepted, in
descending order. -/
structure Holds (n : ℕ) (sec : ℕ → Bytes32) (store : CounterpartyCommitmentSecrets) : Prop where
  /-- Secrets are numbered with 48 bits. -/
  le : n ≤ 2 ^ 48
  /-- No slot is about an index not seen yet. -/
  ge_slot : ∀ p, n ≤ (store.oldSecrets p).2
  /-- A slot is no higher than any seen index of its level. -/
  slot_le : ∀ (p : Fin 49) (u : ℕ), n ≤ u → u < 2 ^ 48 → Dyadic.IsLevel 48 p u →
    (store.oldSecrets p).2 ≤ u
  /-- A used slot is at its own level. -/
  slot_level : ∀ p, (store.oldSecrets p).2 < 2 ^ 48 → Dyadic.IsLevel 48 p (store.oldSecrets p).2
  /-- All secrets of a used slot's subtree derive from the slot. -/
  derives : ∀ (p : Fin 49) (i : ℕ), i < 2 ^ 48 → base i p = (store.oldSecrets p).2 →
    deriveSecret sha256 (store.oldSecrets p).1 p i = sec i

theorem holds_new (sec : ℕ → Bytes32) : Holds sha256 (2 ^ 48) sec new where
  le := Nat.le_refl _
  ge_slot _ := Nat.le_refl _
  slot_le _ _ hu hlt := absurd hlt (Nat.not_lt.mpr hu)
  slot_level _ h := absurd h (Nat.lt_irrefl _)
  derives p i hi hb := by
    have := base_le i p
    simp only [new, Nat.one_shiftLeft] at hb
    omega

variable {sha256} {n : ℕ} {sec : ℕ → Bytes32} {store : CounterpartyCommitmentSecrets}

section

variable (h : Holds sha256 n sec store)

include h

theorem Holds.getMinSeenSecret_eq : store.getMinSeenSecret = n := by
  refine Nat.le_antisymm ?_ (le_getMinSeenSecret h.le h.ge_slot)
  rcases Nat.lt_or_ge n (2 ^ 48) with hn | hn
  · exact Nat.le_trans ((getMinSeenSecret_le store).2 (placeSecret n))
      (h.slot_le _ n (Nat.le_refl n) hn (placeSecret_isLevel hn))
  · exact Nat.le_trans (getMinSeenSecret_le store).1 hn

theorem Holds.congr {sec' : ℕ → Bytes32}
    (heq : ∀ i, n ≤ i → i < 2 ^ 48 → sec i = sec' i) : Holds sha256 n sec' store where
  le := h.le
  ge_slot := h.ge_slot
  slot_le := h.slot_le
  slot_level := h.slot_level
  derives p i hi hb := by
    have hni : n ≤ i := by
      have h1 := h.ge_slot p
      have h2 := base_le i p
      omega
    rw [h.derives p i hi hb, heq i hni hi]

/-- **Coverage.** Every index seen so far lies in the subtree of some slot. -/
theorem Holds.exists_slot {i : ℕ} (hn : n ≤ i) (hi : i < 2 ^ 48) :
    ∃ p : Fin 49, base i p = (store.oldSecrets p).2 := by
  obtain ⟨p, hlev, hnp, hleast⟩ := exists_least_level hn hi
  let q : Fin 49 := ⟨p, Nat.lt_succ_of_le hlev.le⟩
  have hle : (store.oldSecrets q).2 ≤ base i p :=
    h.slot_le q _ hnp (Nat.lt_of_le_of_lt (base_le i p) hi) hlev
  have hlt : (store.oldSecrets q).2 < 2 ^ 48 :=
    Nat.lt_of_le_of_lt (Nat.le_trans hle (base_le i p)) hi
  exact ⟨q, Nat.le_antisymm (hleast _ (h.ge_slot q) (h.slot_level q hlt)) hle⟩

/-- **Completeness of lookup.** The secret of a seen index is returned. -/
theorem Holds.getSecret_of_ge {i : ℕ} (hn : n ≤ i)
    (hi : i < 2 ^ 48) : store.getSecret sha256 i = .ok (some (sec i)) := by
  obtain ⟨p, hp⟩ := h.exists_slot hn hi
  unfold getSecret
  split
  next q hq =>
    have hbase := find?_some hq
    rw [beq_iff_eq, Nat.shiftRight_eq_div_pow, Nat.shiftLeft_eq] at hbase
    rw [h.derives q i hi hbase]
  next hnone =>
    have hne := find?_eq_none.mp hnone p (mem_finRange p)
    rw [beq_iff_eq, Nat.shiftRight_eq_div_pow, Nat.shiftLeft_eq] at hne
    exact absurd hp hne

/-- **Lookup of an index not seen yet.** Nothing is returned and the assertion holds. -/
theorem Holds.getSecret_of_lt {i : ℕ} (hi : i < n) : store.getSecret sha256 i = .ok none := by
  unfold getSecret
  split
  next q hq =>
    have hbase := find?_some hq
    rw [beq_iff_eq, Nat.shiftRight_eq_div_pow, Nat.shiftLeft_eq] at hbase
    have h1 := h.ge_slot q
    have h2 : base i q ≤ i := base_le i q
    rw [base] at h2
    omega
  next =>
    have hmin := le_getMinSeenSecret h.le h.ge_slot
    rw [Panic.unless_of _ (Nat.lt_of_lt_of_le hi hmin)]
    rfl

end

/-! ### Providing a secret -/

section

variable (h : Holds sha256 (n + 1) sec store) {secret : Bytes32}

include h

variable {store' : CounterpartyCommitmentSecrets}

/-- What acceptance of a fresh index means: the checks passed and the slot was written. -/
theorem Holds.provideSecret_eq_ok :
    store.provideSecret sha256 n secret = .ok store' ↔
      (∀ i < placeSecret n, deriveSecret sha256 secret (placeSecret n) (store.oldSecrets i).2 =
        (store.oldSecrets i).1) ∧
      store' = { oldSecrets := update store.oldSecrets (placeSecret n) (secret, n) } := by
  have hmin : ¬ store.getMinSeenSecret ≤ n := Nat.not_le.mpr (le_getMinSeenSecret h.le h.ge_slot)
  unfold provideSecret
  simp only [if_neg hmin]
  split
  · simp_all [eq_comm]
  · simp_all

/-- The new slot answers for its subtree: for the index itself directly, and for every other index
through the slot that answered for it before, whose secret was checked against the new one. -/
theorem Holds.derives_placed {p : Fin 49} (hlev : Dyadic.IsLevel 48 p n)
    (hcheck : ∀ i < p, deriveSecret sha256 secret p (store.oldSecrets i).2 = (store.oldSecrets i).1)
    {i : ℕ} (hi : i < 2 ^ 48) (hb : base i p = n) :
    deriveSecret sha256 secret p i = update sec n secret i := by
  rcases eq_or_ne i n with rfl | hne
  · rw [update_self, deriveSecret_eq_derive, derive_of_dvd hlev.dvd]
  · have hni : n + 1 ≤ i := by
      have := base_le i p
      omega
    obtain ⟨q, hq⟩ := h.exists_slot hni hi
    have hqp : q < p := by
      by_contra hpq
      have h1 : base i q ≤ base i p := base_antitone (Fin.not_lt.mp hpq)
      have h2 := h.ge_slot q
      omega
    calc deriveSecret sha256 secret p i
        = deriveSecret sha256 (deriveSecret sha256 secret p (base i q)) q i := by
          simp only [deriveSecret_eq_derive]
          rw [derive_base (Nat.le_of_lt hqp)]
      _ = deriveSecret sha256 (store.oldSecrets q).1 q i := by rw [hq, hcheck q hqp]
      _ = sec i := h.derives q i hi hq
      _ = update sec n secret i := (update_of_ne hne _ _).symm

/-- **Step.** Accepting the secret of the next index keeps the invariant. -/
theorem Holds.provideSecret (hok : store.provideSecret sha256 n secret = .ok store') :
    Holds sha256 n (update sec n secret) store' := by
  obtain ⟨hcheck, rfl⟩ := h.provideSecret_eq_ok.mp hok
  have hlt : n < 2 ^ 48 := h.le
  have hlev := placeSecret_isLevel hlt
  have hslot : ∀ q ≠ placeSecret n, (update store.oldSecrets (placeSecret n) (secret, n)) q
      = store.oldSecrets q := fun q hq => update_of_ne hq _ _
  refine ⟨Nat.le_of_lt hlt, fun q => ?_, fun q u hu hu' hlevu => ?_, fun q hq => ?_,
    fun q i hi hb => ?_⟩
  all_goals rcases eq_or_ne q (placeSecret n) with rfl | hne
  · simp
  · simpa [hslot q hne] using Nat.le_of_succ_le (h.ge_slot q)
  · simpa using hu
  · have hun : u ≠ n := fun he => hne (Fin.ext (hlevu.unique (he ▸ hlev)))
    simpa [hslot q hne] using h.slot_le q u (Nat.lt_of_le_of_ne hu (Ne.symm hun)) hu' hlevu
  · simpa using hlev
  · simp only [hslot q hne] at hq ⊢
    exact h.slot_level q hq
  · simp only [update_self] at hb ⊢
    exact h.derives_placed hlev hcheck hi hb
  · simp only [hslot q hne] at hb ⊢
    have hin : i ≠ n := by
      have h1 := base_le i q
      have h2 := h.ge_slot q
      omega
    rw [update_of_ne hin]
    exact h.derives q i hi hb

end

/-- **Honest secrets are accepted.** The slots below the one to be written are in the new secret's
subtree, and hold secrets derived from the same seed. -/
theorem Holds.exists_provideSecret {seed : Bytes32}
    (h : Holds sha256 (n + 1) (buildCommitmentSecret sha256 seed) store) :
    ∃ store', store.provideSecret sha256 n (buildCommitmentSecret sha256 seed n) = .ok store' := by
  refine ⟨_, h.provideSecret_eq_ok.mpr ⟨fun i hi => ?_, rfl⟩⟩
  have hlt : n < 2 ^ 48 := h.le
  have hlev := placeSecret_isLevel hlt
  -- the lowest index of level `i` above `n` is `n + 2 ^ i`, still in the subtree of `n`
  have hnext : n + 2 ^ (placeSecret n).val ≤ 2 ^ 48 :=
    add_two_pow_le hlt hlev.dvd (pow_dvd_pow 2 hlev.le)
  have hpow : 2 ^ i.val < 2 ^ (placeSecret n).val := Nat.pow_lt_pow_right (by omega) hi
  have hu : (store.oldSecrets i).2 ≤ n + 2 ^ i.val :=
    h.slot_le i _ (by have := Nat.two_pow_pos i.val; omega) (by omega) (hlev.add_two_pow hi)
  have hge := h.ge_slot i
  generalize hidx : (store.oldSecrets i).2 = u at hu hge
  have hlevu : Dyadic.IsLevel 48 i u := hidx ▸ h.slot_level i (by omega)
  have hbase : base u (placeSecret n) = n := base_eq_of_mem hlev.dvd (by omega) (by omega)
  calc deriveSecret sha256 (buildCommitmentSecret sha256 seed n) (placeSecret n) u
      = buildCommitmentSecret sha256 seed u := by
        simp only [deriveSecret_eq_derive, buildCommitmentSecret_eq_derive]
        have hwalk := derive_base (f := fun b s => sha256 (flipBit s b)) hlev.le u seed
        rwa [hbase] at hwalk
    _ = deriveSecret sha256 (store.oldSecrets i).1 i u :=
        (h.derives i u (by omega) (by rw [hidx, base_of_dvd hlevu.dvd])).symm
    _ = (store.oldSecrets i).1 := by
        rw [deriveSecret_eq_derive, derive_of_dvd hlevu.dvd]

end CounterpartyCommitmentSecrets

/-! ### Whole sequences -/

open CounterpartyCommitmentSecrets

variable (sha256 : Bytes32 → Bytes32) (secrets : List Bytes32)

/-- Provides a list of secrets to an empty store, for the indices 2^48 - 1, 2^48 - 2 and so on. -/
def provideDescending : Except Unit CounterpartyCommitmentSecrets :=
  secrets.zipIdx.foldlM (fun store s => store.provideSecret sha256 (2 ^ 48 - 1 - s.2) s.1) new

/-- Providing one more secret is providing it to the store the others lead to. -/
theorem provideDescending_concat (secret : Bytes32) :
    provideDescending sha256 (secrets ++ [secret]) =
      (provideDescending sha256 secrets).bind fun store =>
        store.provideSecret sha256 (2 ^ 48 - 1 - secrets.length) secret := by
  simp only [provideDescending, zipIdx_append, foldlM_append, zipIdx_singleton,
    foldlM_cons, foldlM_nil, Nat.zero_add, bind_pure]
  rfl

/-- The secret a list has for an index. Indices past the end of the list have none. -/
def secretAt (idx : ℕ) : Bytes32 := secrets.getD (2 ^ 48 - 1 - idx) (Vector.replicate 32 0)

theorem secretAt_concat {secrets : List Bytes32} (secret : Bytes32)
    (hlen : secrets.length < 2 ^ 48) {idx : ℕ} (hge : 2 ^ 48 - 1 - secrets.length ≤ idx)
    (hidx : idx < 2 ^ 48) :
    update (secretAt secrets) (2 ^ 48 - 1 - secrets.length) secret idx =
      secretAt (secrets ++ [secret]) idx := by
  rcases eq_or_ne idx (2 ^ 48 - 1 - secrets.length) with rfl | hne
  · have hpos : 2 ^ 48 - 1 - (2 ^ 48 - 1 - secrets.length) = secrets.length := by omega
    rw [update_self, secretAt, hpos]
    simp
  · rw [update_of_ne hne, secretAt, secretAt, getD_append]
    omega

/-- **Run.** After any accepted sequence the invariant holds of the secrets provided. -/
theorem holds_of_provideDescending {sha256 : Bytes32 → Bytes32} {secrets : List Bytes32}
    {store : CounterpartyCommitmentSecrets} (hlen : secrets.length ≤ 2 ^ 48)
    (hok : provideDescending sha256 secrets = .ok store) :
    Holds sha256 (2 ^ 48 - secrets.length) (secretAt secrets) store := by
  induction secrets using reverseRecOn generalizing store with
  | nil =>
    obtain rfl : new = store := by simpa [provideDescending, pure, Except.pure] using hok
    exact holds_new sha256 _
  | append_singleton secrets secret ih =>
    rw [length_append, length_singleton] at hlen
    rw [provideDescending_concat] at hok
    cases hprev : provideDescending sha256 secrets with
    | error => simp [hprev, Except.bind] at hok
    | ok prev =>
      simp only [hprev, Except.bind] at hok
      have hprevHolds := ih (by omega) hprev
      rw [show 2 ^ 48 - secrets.length = 2 ^ 48 - 1 - secrets.length + 1 by omega] at hprevHolds
      rw [length_append, length_singleton,
        show 2 ^ 48 - (secrets.length + 1) = 2 ^ 48 - 1 - secrets.length by omega]
      exact (hprevHolds.provideSecret hok).congr fun i hge hi =>
        secretAt_concat secret (by omega) hge hi

/-- The secrets of an honest party for its first `n` commitments. -/
def honestSecrets (seed : Bytes32) (n : ℕ) : List Bytes32 :=
  (range n).map fun j => buildCommitmentSecret sha256 seed (2 ^ 48 - 1 - j)

theorem secretAt_honestSecrets {sha256 : Bytes32 → Bytes32} {seed : Bytes32} {n idx : ℕ}
    (hge : 2 ^ 48 - n ≤ idx) (hidx : idx < 2 ^ 48) :
    secretAt (honestSecrets sha256 seed n) idx = buildCommitmentSecret sha256 seed idx := by
  have hlt : 2 ^ 48 - 1 - idx < n := by omega
  have hinv : 2 ^ 48 - 1 - (2 ^ 48 - 1 - idx) = idx := by omega
  rw [secretAt, honestSecrets, getD_eq_getElem _ _ (by simpa using hlt)]
  simp only [getElem_map, getElem_range, hinv]

/-- **Honest runs.** The secrets built from a seed are accepted, one after the other. -/
theorem exists_provideDescending_honestSecrets (seed : Bytes32) {n : ℕ} (hn : n ≤ 2 ^ 48) :
    ∃ store, provideDescending sha256 (honestSecrets sha256 seed n) = .ok store := by
  induction n with
  | zero => exact ⟨new, rfl⟩
  | succ n ih =>
    obtain ⟨prev, hprev⟩ := ih (by omega)
    have hlen : (honestSecrets sha256 seed n).length = n := by simp [honestSecrets]
    have hholds := holds_of_provideDescending (by omega) hprev
    rw [hlen, show 2 ^ 48 - n = 2 ^ 48 - 1 - n + 1 by omega] at hholds
    obtain ⟨store, hstore⟩ := (hholds.congr fun i hge hi =>
      secretAt_honestSecrets (by omega) hi).exists_provideSecret
    refine ⟨store, ?_⟩
    rw [honestSecrets, range_succ, map_append, map_singleton, ← honestSecrets,
      provideDescending_concat, hprev, hlen]
    exact hstore

/-- **The store is sound and complete, for every hash function.** After any accepted sequence of
secrets for the indices from 2^48 - 1 down, a lookup returns exactly what was provided for the
index, and nothing, without failing its assertion, for every lower index; and the secrets built from
any seed are accepted. -/
theorem provideDescending_sound_complete :
    (∀ (secrets : List Bytes32) (store : CounterpartyCommitmentSecrets),
      secrets.length ≤ 2 ^ 48 → provideDescending sha256 secrets = .ok store →
        (∀ (j : ℕ) (hj : j < secrets.length),
          store.getSecret sha256 (2 ^ 48 - 1 - j) = .ok (some secrets[j])) ∧
        ∀ idx, idx + secrets.length < 2 ^ 48 → store.getSecret sha256 idx = .ok none) ∧
    ∀ (seed : Bytes32) (n : ℕ), n ≤ 2 ^ 48 →
      ∃ store, provideDescending sha256 (honestSecrets sha256 seed n) = .ok store := by
  refine ⟨fun secrets store hlen hok => ?_, fun seed n hn =>
    exists_provideDescending_honestSecrets sha256 seed hn⟩
  have hholds := holds_of_provideDescending hlen hok
  refine ⟨fun j hj => ?_, fun idx hidx => hholds.getSecret_of_lt (by omega)⟩
  have hinv : 2 ^ 48 - 1 - (2 ^ 48 - 1 - j) = j := by omega
  rw [hholds.getSecret_of_ge (by omega) (by omega), secretAt, hinv, getD_eq_getElem _ _ hj]

/-- Two secrets of the all-zero seed under the identity as hash: the second derives the first, both
are returned, and the next index is not known. -/
theorem provideDescending_sound_complete_two :
    ∃ store, provideDescending id (honestSecrets id (Vector.replicate 32 0) 2) = .ok store ∧
      store.getSecret id (2 ^ 48 - 1) =
        .ok (some (buildCommitmentSecret id (Vector.replicate 32 0) (2 ^ 48 - 1))) ∧
      store.getSecret id (2 ^ 48 - 3) = .ok none := by
  obtain ⟨hsound, hcomplete⟩ := provideDescending_sound_complete id
  obtain ⟨store, hstore⟩ := hcomplete (Vector.replicate 32 0) 2 (by omega)
  obtain ⟨hget, hnone⟩ := hsound _ store (by simp [honestSecrets]) hstore
  exact ⟨store, hstore, hget 0 (by simp [honestSecrets]), hnone _ (by simp [honestSecrets])⟩

end PqLightning
