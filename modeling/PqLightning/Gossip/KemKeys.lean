import PqLightning.Gossip.Pins
import PqLightning.Onion.Build
import PqLightning.Transport.Noise

/-!
# The use of the pinned ML-KEM keys

A pinned ML-KEM key is encapsulated to by the first act of the hybrid handshake, which panics if
that fails, and by the onion of a payment. What the graph checks of a key before it is pinned is its
length and that the announcement is signed, not that it is well formed.
-/

namespace PqLightning.Gossip

open Crypto Onion Transport AssocMap Option NetworkGraph NodeInfo

variable {kem : MlKem} {crypto : GossipCrypto} {around : Surroundings} {g g' : NetworkGraph}
  {n : NodeId} {key : Bytes pqKemEkLen}

/-! ### Where a key comes from -/

/-- The operation is an announcement with the ML-KEM key. -/
def Operation.Announces (key : Bytes pqKemEkLen) : Operation → Prop
  | .updateNodeFromAnnouncement msg =>
    ∃ records, parseRecords msg.contents.excessData = .ok records ∧ records.kemKey = some key
  | _ => False

/-- An ML-KEM key that a node has was there before, or is one of those in `P`. -/
def KemFrom (P : Bytes pqKemEkLen → Prop) (info info' : NodeInfo) : Prop :=
  ∀ key, info'.pqKemNodeId = some key → info.pqKemNodeId = some key ∨ P key

variable {P : Bytes pqKemEkLen → Prop}

theorem KemFrom.ofPins : OfPins (KemFrom P) where
  of_eq _ hkem _ hk := .inl (hkem ▸ hk)
  trans h h' key hk := (h' key hk).elim (h key) .inr

theorem kemFrom_pinSigned {msg full : NodeAnnouncement} {info info' : NodeInfo}
    (h : info.pinSigned msg.contents (some full) = .ok info') :
    KemFrom (Operation.Announces · (.updateNodeFromAnnouncement msg)) info info' := by
  obtain ⟨records, hrecords, h⟩ := bind_eq_ok.mp h
  simp only [pin, bind_eq_ok] at h
  obtain ⟨-, -, -, -, -, -, heq⟩ := h
  rw [← Except.ok.inj heq]
  intro key hkey
  rcases or_eq_some_iff.mp hkey with hk | ⟨-, hk⟩
  · exact .inl hk
  · exact .inr ⟨records, Outcome.ofPanic_eq_ok.mp hrecords, hk⟩

theorem ShrinksBy.pins_kem (h : ShrinksBy (KemFrom P) g g') (hn : (g'.pins n).2 = some key) :
    (g.pins n).2 = some key ∨ P key := by
  obtain ⟨info', hinfo', hkey⟩ := bind_eq_some_iff.mp hn
  obtain ⟨info, hinfo, hfrom⟩ := h n info' hinfo'
  rw [pins_of_lookup hinfo]
  exact hfrom key hkey

/-- Only an announcement with the key pins it. -/
theorem pins_kem_of_run {op : Operation} (h : op.run crypto around g = .ok g')
    (hn : (g'.pins n).2 = some key) : (g.pins n).2 = some key ∨ op.Announces key := by
  rcases run_cases KemFrom.ofPins h (fun hop => hop ▸ kemFrom_pinSigned) with
    hshrinks | ⟨scid, chanInfo, utxoValue, hadd, -⟩
  · exact hshrinks.pins_kem hn
  · obtain ⟨g₁, hroom, heq⟩ := bind_eq_ok.mp hadd
    rw [← Except.ok.inj heq, enterChannel_pins] at hn
    exact (makeRoom_shrinks (KemFrom.ofPins (P := (op.Announces ·))) hroom).pins_kem hn

/-! ### Keys that can be used -/

/-- The graphs that are reached while the ML-KEM keys of the announcements that are accepted are
well formed. -/
inductive WellFormedRun (kem : MlKem) (crypto : GossipCrypto) : NetworkGraph → Prop
  | new (chainHash : Bytes 32) : WellFormedRun kem crypto (.new chainHash)
  | step {g g' : NetworkGraph} (around : Surroundings) (op : Operation) :
      WellFormedRun kem crypto g → step crypto around g op = .ok g' →
      (op.run crypto around g = .ok g' → ∀ key, op.Announces key → kem.wellFormed key) →
      WellFormedRun kem crypto g'

theorem WellFormedRun.reachable (h : WellFormedRun kem crypto g) : Reachable crypto g := by
  induction h with
  | new chainHash => exact .new chainHash
  | step around op _ hstep _ ih => exact .step around op ih hstep

theorem WellFormedRun.wellFormed (h : WellFormedRun kem crypto g)
    (hn : (g.pins n).2 = some key) : kem.wellFormed key := by
  induction h with
  | new chainHash => cases hn
  | step around op _ hstep hop ih =>
    rcases step_eq_ok_iff.mp hstep with hrun | ⟨_, -, rfl⟩
    · exact (pins_kem_of_run hrun hn).elim ih (hop hrun key)
    · exact ih hn

theorem isSome_pqKeysFrom {PublicKey SecretKey Scalar : Type}
    {c : OnionCrypto PublicKey SecretKey Scalar} {keys : List (Bytes pqKemEkLen)}
    (hkeys : ∀ key ∈ keys, c.kem.wellFormed key) (seed : Bytes32) (offset idx : ℕ)
    (layers : List (Bytes32 × PublicKey)) : (pqKeysFrom c keys seed offset idx layers).isSome := by
  induction layers generalizing idx with
  | nil => rfl
  | cons layer layers ih =>
    obtain ⟨rest, hrest⟩ := isSome_iff_exists.mp (ih (idx + 1))
    rw [pqKeysFrom, hrest]
    cases hkey : keys[idx]? with
    | none => rfl
    | some key =>
      simp only [MlKem.encapsulate_of_wellFormed (hkeys key (List.mem_of_getElem? hkey))]
      rfl

/-- **Pinned keys are usable while none that is malformed is accepted**: to encapsulate, for the
first act of a handshake and for the onions of payments. -/
theorem usable_of_wellFormedRun (h : WellFormedRun kem crypto g) :
    (∀ n ek, (g.pins n).2 = some ek → ∀ seed, (kem.encapsulate ek seed).isSome) ∧
    (∀ {PublicKey SecretKey : Type} (c : NoiseCrypto PublicKey SecretKey), c.kem = kem →
      ∀ n ek, (g.pins n).2 = some ek → ∀ theirNodeId ephemeralKey seed,
        (PeerChannelEncryptor.getActOnePq c
          (.newOutboundPq c theirNodeId ephemeralKey ek seed)).isOk) ∧
    (∀ {PublicKey SecretKey Scalar : Type} (c : OnionCrypto PublicKey SecretKey Scalar),
      c.kem = kem → ∀ keys, (∀ key ∈ keys, ∃ n, (g.pins n).2 = some key) →
      ∀ hops blindedTail sessionPriv seed offset, hops ≠ [] → keys.length = hops.length →
        (constructPqOnionKeysInner c hops blindedTail sessionPriv keys seed offset).isSome) := by
  refine ⟨fun n ek hn seed => ?_, ?_, ?_⟩
  · exact MlKem.isSome_encapsulate_iff.mpr (h.wellFormed hn)
  · rintro _ _ c rfl n ek hn theirNodeId ephemeralKey seed
    simp only [PeerChannelEncryptor.getActOnePq, PeerChannelEncryptor.newOutboundPq,
      MlKem.encapsulate_of_wellFormed (h.wellFormed hn)]
    rfl
  · rintro _ _ _ c rfl keys hkeys hops blindedTail sessionPriv seed offset hhops hlength
    rw [constructPqOnionKeysInner, if_neg (by simp [hhops, hlength])]
    refine isSome_pqKeysFrom (fun key hkey => ?_) _ _ _ _
    obtain ⟨n, hn⟩ := hkeys key hkey
    exact h.wellFormed hn

/-! ### A malformed key -/

/-- The 12-bit coefficients that bytes encode. -/
def coefficients : List UInt8 → List ℕ
  | b₀ :: b₁ :: b₂ :: rest =>
    (b₀.toNat + 256 * (b₁.toNat % 16)) :: (b₁.toNat / 16 + 16 * b₂.toNat) :: coefficients rest
  | _ => []

/-- An ML-KEM that accepts a key if its coefficients are reduced. -/
def sampleKem : MlKem where
  wellFormed ek := (coefficients (ek.1.take 1152)).all (· < 3329)
  encapsFromSeed ek seed := (seed, constBytes 1088 (ek.1.headD 0))
  keygenFromSeed d z := (constBytes 1184 (d.toList.headD 0), constBytes 2400 (z.toList.headD 0))
  tryDecaps _ ct := some (.replicate 32 (ct.1.headD 0))

/-- An announcement of the first node with an ML-KEM key that repeats a byte. -/
def kemNodeAnnouncement (byte : UInt8) : NodeAnnouncement :=
  { pqNodeAnnouncement with
    contents := { pqNodeAnnouncement.contents with
      excessData := [29, 0xfd, 0x04, 0xa0] ++ List.replicate 1184 byte ++
        pqNodeAnnouncement.contents.excessData } }

def kemGraph (byte : UInt8) : NetworkGraph :=
  afterStep announcedGraph (.updateNodeFromAnnouncement (kemNodeAnnouncement byte))

/-- The coefficients of the key are 257 and 16 by turns. -/
theorem kemGraph_wellFormedRun : WellFormedRun sampleKem permissiveCrypto (kemGraph 1) := by
  have announced : WellFormedRun sampleKem permissiveCrypto announcedGraph :=
    .step quietSurroundings _ (.new _) (step_eq_afterStep (by decide +kernel)) fun _ _ h => h.elim
  refine .step quietSurroundings _ announced (step_eq_afterStep (by decide +kernel)) ?_
  rintro - key ⟨records, hrecords, hkey⟩
  have hparsed : (parseRecords (kemNodeAnnouncement 1).contents.excessData).map PqRecords.kemKey =
      .ok (some (constBytes 1184 1)) := by
    decide +kernel
  rw [hrecords] at hparsed
  obtain rfl : key = constBytes 1184 1 := Option.some.inj (hkey.symm.trans (Except.ok.inj hparsed))
  decide +kernel

theorem usable_kemGraph :
    (sampleKem.encapsulate (constBytes 1184 1) (.replicate 32 5)).isSome :=
  (usable_of_wellFormedRun kemGraph_wellFormedRun).1 (constBytes 33 2) _ (by decide +kernel) _

/-- **A key that is not well formed is pinned**, nothing can be encapsulated to it, and the first
act of a handshake with the node panics. -/
theorem malformed_key_pinned :
    Reachable permissiveCrypto (kemGraph 255) ∧
      ((kemGraph 255).pins (constBytes 33 2)).2 = some (constBytes 1184 255) ∧
      (∀ seed, sampleKem.encapsulate (constBytes 1184 255) seed = none) ∧
      ∀ c : NoiseCrypto Unit Unit, c.kem = sampleKem → ∀ seed,
        (PeerChannelEncryptor.newOutboundPq c () () (constBytes 1184 255) seed).getActOnePq c =
          .error (.panicked .unwrap) := by
  have announced : Reachable permissiveCrypto announcedGraph :=
    .step quietSurroundings _ (.new _) (step_eq_afterStep (by decide +kernel))
  have hmalformed : sampleKem.wellFormed (constBytes 1184 255) = false := by decide +kernel
  have hnone : ∀ seed, sampleKem.encapsulate (constBytes 1184 255) seed = none := fun _ =>
    if_neg (by rw [hmalformed]; exact Bool.false_ne_true)
  refine ⟨.step quietSurroundings _ announced (step_eq_afterStep (by decide +kernel)),
    by decide +kernel, hnone, fun c hc seed => ?_⟩
  simp only [PeerChannelEncryptor.getActOnePq, PeerChannelEncryptor.newOutboundPq, hc, hnone]
  rfl

end PqLightning.Gossip
