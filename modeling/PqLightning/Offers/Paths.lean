import PqLightning.Offers.Streams

/-!
# Blinded message paths

A blinded path is an introduction node, a blinding point and hops, each a blinded key and an
encrypted payload (`blinded_path/mod.rs`). A blinded message path is such a path together with, if
it is a post-quantum one, the ML-KEM ciphertext that the introduction node decapsulates
(`blinded_path/message.rs`). The ciphertext is not part of the path's own encoding.

A public key is its 33 bytes; that they are a point of the curve is not modelled.
-/

namespace PqLightning.Offers

open Reader List
open Gossip (Bytes readBigEndian)

abbrev pqKemCtLen : ℕ := 1088

abbrev PublicKey : Type :=
  { l : List UInt8 // l.length = 33 ∧ (l.head? = some 2 ∨ l.head? = some 3) }

/-! ### Encodings -/

def readExact (n : ℕ) : Read UInt8 (List UInt8) := fun l =>
  if n ≤ l.length then some (l.take n, l.drop n) else none

theorem reads_readExact {n : ℕ} {l : List UInt8} (h : l.length = n) : Reads (readExact n) l l := by
  intro tail
  rw [readExact, if_pos (by rw [length_append]; omega), take_left' h, drop_left' h]

def readPublicKey : Read UInt8 PublicKey := fun l =>
  match readExact 33 l with
  | none => none
  | some (key, rest) =>
    if h : key.length = 33 ∧ (key.head? = some 2 ∨ key.head? = some 3) then some (⟨key, h⟩, rest)
    else none

theorem reads_readPublicKey (key : PublicKey) : Reads readPublicKey key.1 key := by
  intro tail
  rw [readPublicKey, reads_readExact key.2.1 tail]
  exact dif_pos key.2

def writeCollectionLength (n : ℕ) : List UInt8 :=
  if n < 0xffff then writeBigEndian 2 n
  else writeBigEndian 2 0xffff ++ writeBigEndian 8 (n - 0xffff)

def readCollectionLength : Read UInt8 ℕ := fun l =>
  match readBigEndian 2 l with
  | none => none
  | some (short, rest) =>
    if short = 0xffff then
      match readBigEndian 8 rest with
      | none => none
      | some (long, rest) => if long + 0xffff < 2 ^ 64 then some (long + 0xffff, rest) else none
    else some (short, rest)

theorem reads_readCollectionLength {n : ℕ} (h : n < 2 ^ 64) :
    Reads readCollectionLength (writeCollectionLength n) n := by
  intro tail
  rw [writeCollectionLength]
  split
  next hshort =>
    have hread : readBigEndian 2 (writeBigEndian 2 n ++ tail) = some (n, tail) :=
      readBigEndian_eq_some_iff.mpr ⟨by omega, rfl⟩
    simp only [readCollectionLength, hread, if_neg hshort.ne]
  next hlong =>
    have hmark :
      readBigEndian 2 (writeBigEndian 2 0xffff ++ (writeBigEndian 8 (n - 0xffff) ++ tail)) =
        some (0xffff, writeBigEndian 8 (n - 0xffff) ++ tail) :=
      readBigEndian_eq_some_iff.mpr ⟨by decide, rfl⟩
    have hread : readBigEndian 8 (writeBigEndian 8 (n - 0xffff) ++ tail) =
      some (n - 0xffff, tail) :=
      readBigEndian_eq_some_iff.mpr ⟨by omega, rfl⟩
    have hsum : n - 0xffff + 0xffff = n := by omega
    simp only [readCollectionLength, append_assoc, hmark, hread, hsum, if_pos h, if_true]

/-! ### Paths -/

inductive Direction where
  | nodeOne
  | nodeTwo
deriving DecidableEq

inductive IntroductionNode where
  | nodeId (pubkey : PublicKey)
  | directedShortChannelId (direction : Direction) (scid : UInt64)
deriving DecidableEq

structure BlindedHop where
  blindedNodeId : PublicKey
  encryptedPayload : Value
deriving DecidableEq

/-- `BlindedPath`; a path has a hop, and the number of hops fits in a byte. -/
structure BlindedPath where
  introductionNode : IntroductionNode
  blindingPoint : PublicKey
  blindedHops : List BlindedHop
  hops_ne_nil : blindedHops ≠ []
  hops_lt : blindedHops.length < 256
deriving DecidableEq

def IntroductionNode.write : IntroductionNode → List UInt8
  | nodeId pubkey => pubkey.1
  | directedShortChannelId .nodeOne scid => 0 :: writeBigEndian 8 scid.toNat
  | directedShortChannelId .nodeTwo scid => 1 :: writeBigEndian 8 scid.toNat

def BlindedHop.write (hop : BlindedHop) : List UInt8 :=
  hop.blindedNodeId.1 ++ (writeCollectionLength hop.encryptedPayload.1.length ++
    hop.encryptedPayload.1)

def BlindedPath.write (path : BlindedPath) : List UInt8 :=
  path.introductionNode.write ++ (path.blindingPoint.1 ++
    ([UInt8.ofNat path.blindedHops.length] ++ path.blindedHops.flatMap BlindedHop.write))

def readIntroductionNode : Read UInt8 IntroductionNode
  | [] => none
  | first :: rest =>
    if first = 0 ∨ first = 1 then
      match readBigEndian 8 rest with
      | none => none
      | some (scid, rest) =>
        some (.directedShortChannelId (if first = 0 then .nodeOne else .nodeTwo)
          (UInt64.ofNat scid),
          rest)
    else
      match readPublicKey (first :: rest) with
      | none => none
      | some (pubkey, rest) => some (.nodeId pubkey, rest)

def readBlindedHop : Read UInt8 BlindedHop := fun l =>
  match andThen readPublicKey readCollectionLength l with
  | none => none
  | some ((blindedNodeId, length), rest) =>
    match readExact length rest with
    | none => none
    | some (payload, rest) =>
      if h : payload.length < 2 ^ 64 then some (⟨blindedNodeId, ⟨payload, h⟩⟩, rest) else none

def readBlindedPath : Read UInt8 BlindedPath := fun l =>
  match andThen readIntroductionNode (andThen readPublicKey (readBigEndian 1)) l with
  | none => none
  | some ((introductionNode, blindingPoint, numHops), rest) =>
    match times readBlindedHop numHops rest with
    | none => none
    | some (blindedHops, rest) =>
      if h : blindedHops ≠ [] ∧ blindedHops.length < 256 then
        some (⟨introductionNode, blindingPoint, blindedHops, h.1, h.2⟩, rest)
      else none

theorem IntroductionNode.reads_write (node : IntroductionNode) :
    Reads readIntroductionNode node.write node := by
  intro tail
  have hscid : ∀ scid : UInt64, readBigEndian 8 (writeBigEndian 8 scid.toNat ++ tail) =
      some (scid.toNat, tail) := fun scid =>
    readBigEndian_eq_some_iff.mpr ⟨scid.toNat_lt, rfl⟩
  match node with
  | directedShortChannelId .nodeOne scid => simp [write, readIntroductionNode, hscid scid]
  | directedShortChannelId .nodeTwo scid => simp [write, readIntroductionNode, hscid scid]
  | nodeId pubkey =>
    obtain ⟨first, rest, hcons⟩ := exists_cons_of_length_pos
      (show 0 < pubkey.1.length by rw [pubkey.2.1]; decide)
    have hfirst : ¬ (first = 0 ∨ first = 1) := by
      have hhead := pubkey.2.2
      rw [hcons, head?_cons] at hhead
      rcases hhead with hhead | hhead <;> cases hhead <;> decide
    have hread := reads_readPublicKey pubkey tail
    rw [hcons, cons_append] at hread
    rw [write, hcons, cons_append, readIntroductionNode, if_neg hfirst, hread]

theorem BlindedHop.reads_write (hop : BlindedHop) : Reads readBlindedHop hop.write hop := by
  intro tail
  have hfront := (reads_readPublicKey hop.blindedNodeId).andThen
    (reads_readCollectionLength hop.encryptedPayload.2) (hop.encryptedPayload.1 ++ tail)
  rw [readBlindedHop, write, append_assoc, append_assoc, ← append_assoc, hfront]
  simp only [reads_readExact rfl tail, dif_pos hop.encryptedPayload.2]

/-- **A path is read back as it was written.** -/
theorem BlindedPath.reads_write (path : BlindedPath) : Reads readBlindedPath path.write path := by
  intro tail
  have hlength : (UInt8.ofNat path.blindedHops.length).toNat = path.blindedHops.length := by
    rw [UInt8.toNat_ofNat', Nat.mod_eq_of_lt path.hops_lt]
  have hcount : Reads (readBigEndian 1) [UInt8.ofNat path.blindedHops.length]
      path.blindedHops.length := by
    intro tail
    refine readBigEndian_eq_some_iff.mpr ⟨path.hops_lt, ?_⟩
    simp [writeBigEndian]
  have hfront := path.introductionNode.reads_write.andThen
    ((reads_readPublicKey path.blindingPoint).andThen hcount)
    (path.blindedHops.flatMap BlindedHop.write ++ tail)
  have hhops := Reads.times (fun hop (_ : hop ∈ path.blindedHops) => hop.reads_write) tail
  rw [readBlindedPath, write]
  simp only [append_assoc] at hfront ⊢
  rw [hfront]
  simp only [hhops, dif_pos (And.intro path.hops_ne_nil path.hops_lt)]

theorem BlindedPath.write_ne_nil (path : BlindedPath) : path.write ≠ [] := by
  simp [write]

/-! ### Message paths -/

structure BlindedMessagePath where
  path : BlindedPath
  kemCt : Option (Bytes pqKemCtLen)
deriving DecidableEq

/-- `BlindedMessagePath::write`: the ciphertext is not written. -/
def BlindedMessagePath.write (self : BlindedMessagePath) : List UInt8 := self.path.write

def readBlindedMessagePath : Read UInt8 BlindedMessagePath := fun l =>
  (readBlindedPath l).map fun (path, rest) => (⟨path, none⟩, rest)

/-- A path as it is read back. -/
def BlindedMessagePath.bare (self : BlindedMessagePath) : BlindedMessagePath := ⟨self.path, none⟩

theorem BlindedMessagePath.reads_write (self : BlindedMessagePath) :
    Reads readBlindedMessagePath self.write self.bare := by
  intro tail
  rw [readBlindedMessagePath, write, self.path.reads_write tail]
  rfl

/-! ### What was read -/

theorem inverts_readExact (n : ℕ) : Inverts (readExact n) fun l => l := by
  intro l a rest h
  rw [readExact] at h
  split at h
  · cases h
    exact (take_append_drop n l).symm
  · cases h

theorem inverts_readPublicKey : Inverts readPublicKey fun key => key.1 := by
  intro l key rest h
  rw [readPublicKey] at h
  split at h
  · cases h
  next bytes rest' hread =>
    split at h
    · cases h
      exact inverts_readExact 33 l bytes rest hread
    · cases h

theorem inverts_readBigEndian (n : ℕ) : Inverts (readBigEndian n) (writeBigEndian n) :=
  fun _ _ _ h => (readBigEndian_eq_some_iff.mp h).2

theorem inverts_readCollectionLength : Inverts readCollectionLength writeCollectionLength := by
  intro l n rest h
  rw [readCollectionLength] at h
  split at h
  · cases h
  next short rest' hshort =>
    obtain ⟨hlt, rfl⟩ := readBigEndian_eq_some_iff.mp hshort
    split at h
    next hmark =>
      split at h
      · cases h
      next long rest'' hlong =>
        split at h
        · cases h
          rw [inverts_readBigEndian 8 rest' long rest hlong, writeCollectionLength,
            if_neg (by omega), Nat.add_sub_cancel, hmark, append_assoc]
        · cases h
    next hmark =>
      cases h
      rw [writeCollectionLength, if_pos (by omega)]

theorem inverts_readIntroductionNode : Inverts readIntroductionNode IntroductionNode.write := by
  intro l node rest h
  match l, h with
  | first :: l, h =>
    rw [readIntroductionNode] at h
    split at h
    next hfirst =>
      split at h
      · cases h
      next scid rest' hscid =>
        cases h
        obtain ⟨hlt, rfl⟩ := readBigEndian_eq_some_iff.mp hscid
        have htoNat : (UInt64.ofNat scid).toNat = scid := UInt64.toNat_ofNat_of_lt hlt
        rcases hfirst with rfl | rfl <;> simp [IntroductionNode.write, htoNat]
    next hfirst =>
      split at h
      · cases h
      next pubkey rest' hpubkey =>
        cases h
        exact inverts_readPublicKey _ pubkey rest hpubkey

theorem inverts_readBlindedHop : Inverts readBlindedHop BlindedHop.write := by
  intro l hop rest h
  rw [readBlindedHop] at h
  split at h
  · cases h
  next blindedNodeId length rest' hfront =>
    split at h
    · cases h
    next payload rest'' hpayload =>
      split at h
      · cases h
        have hlength : payload.length = length := by
          rw [readExact] at hpayload
          split at hpayload
          next hle =>
            cases hpayload
            rw [length_take]
            omega
          · cases hpayload
        rw [(inverts_readPublicKey.andThen inverts_readCollectionLength) l _ _ hfront,
          inverts_readExact length rest' payload rest hpayload, BlindedHop.write, hlength]
        simp
      · cases h

theorem inverts_readBlindedPath : Inverts readBlindedPath BlindedPath.write := by
  intro l path rest h
  rw [readBlindedPath] at h
  split at h
  · cases h
  next introductionNode blindingPoint numHops rest' hfront =>
    split at h
    · cases h
    next blindedHops rest'' hhops =>
      split at h
      next hvalid =>
        cases h
        have hfront := (inverts_readIntroductionNode.andThen
          (inverts_readPublicKey.andThen (inverts_readBigEndian 1))) l _ _ hfront
        rw [hfront, inverts_readBlindedHop.times numHops rest' blindedHops rest hhops,
          BlindedPath.write, length_of_times hhops]
        simp only [append_assoc]
        rfl
      · cases h

variable (paths : List BlindedMessagePath)

/-- The paths of a record: a `Vec<BlindedMessagePath>` without its length. -/
def writePaths : List UInt8 := paths.flatMap BlindedMessagePath.write

def readPaths (l : List UInt8) : Option (List BlindedMessagePath) :=
  untilEnd readBlindedMessagePath l.length l

/-- **Message paths are read back without their ciphertexts.** -/
theorem readPaths_write :
    readPaths (writePaths paths) = some (paths.map BlindedMessagePath.bare) := by
  have hbare : writePaths paths = (paths.map BlindedMessagePath.bare).flatMap
    BlindedMessagePath.write := by
    rw [writePaths, flatMap_map]
    rfl
  have hreads : ∀ path ∈ paths.map BlindedMessagePath.bare,
      Reads readBlindedMessagePath path.write path ∧ path.write ≠ [] := by
    intro path hmem
    obtain ⟨path, -, rfl⟩ := mem_map.mp hmem
    exact ⟨path.reads_write, path.path.write_ne_nil⟩
  rw [readPaths, hbare]
  exact untilEnd_flatMap hreads (length_le_length_flatMap fun path hmem => (hreads path hmem).2)

/-- **What was read as paths** is what would be written for them. -/
theorem writePaths_of_readPaths {l : List UInt8} {paths : List BlindedMessagePath}
    (h : readPaths l = some paths) : writePaths paths = l := by
  refine flatMap_of_untilEnd (fun l path rest hread => ?_) h
  obtain ⟨⟨inner, rest'⟩, hinner, heq⟩ := Option.map_eq_some_iff.mp hread
  cases heq
  exact inverts_readBlindedPath l inner rest hinner

/-- Paths whose encodings and ciphertexts fit into a message. -/
structure PathList where
  paths : List BlindedMessagePath
  size_lt : (paths.map fun path => path.write.length + (pqKemCtLen + 9)).sum < 2 ^ 62

variable (self : PathList)

theorem PathList.length_writePaths_lt : (writePaths self.paths).length < 2 ^ 64 := by
  have hle : ∀ paths : List BlindedMessagePath, (writePaths paths).length ≤
      (paths.map fun path => path.write.length + (pqKemCtLen + 9)).sum := by
    intro paths
    induction paths with
    | nil => simp [writePaths]
    | cons path paths ih =>
      rw [writePaths, flatMap_cons, ← writePaths, length_append, map_cons, sum_cons]
      omega
  have := hle self.paths
  have := self.size_lt
  omega

def PathList.value : Value := ⟨writePaths self.paths, self.length_writePaths_lt⟩

def PathList.bare (self : PathList) : PathList where
  paths := self.paths.map BlindedMessagePath.bare
  size_lt := by
    rw [map_map]
    exact self.size_lt

/-- Paths that were read, if they fit into a message. -/
def pathList : Option PathList :=
  if h : (paths.map fun path => path.write.length + (pqKemCtLen + 9)).sum < 2 ^ 62
    then some ⟨paths, h⟩
  else none

def readPathsField (type : ℕ) (records : List TlvRecord) : Option (Option PathList) :=
  match findField type records with
  | none => some none
  | some value => ((readPaths value.1).bind pathList).map some

/-- Lists with the same encoding differ in ciphertexts only. -/
theorem PathList.map_bare_of_value_eq {list list' : PathList} (h : list.value = list'.value) :
    list.paths.map BlindedMessagePath.bare = list'.paths.map BlindedMessagePath.bare := by
  have hbytes : writePaths list.paths = writePaths list'.paths := congrArg Subtype.val h
  rw [← Option.some.injEq, ← readPaths_write, ← readPaths_write, hbytes]

theorem pathList_paths : pathList self.paths = some self := dif_pos self.size_lt

theorem paths_of_pathList {paths : List BlindedMessagePath} {list : PathList}
    (h : pathList paths = some list) : list.paths = paths := by
  rw [pathList] at h
  split at h
  · cases h
    rfl
  · cases h

/-- **A field that was read** is written as it was. -/
theorem value_of_readPathsField {type : ℕ} {records : List TlvRecord} {paths : Option PathList}
    (h : readPathsField type records = some paths) :
    paths.map PathList.value = findField type records := by
  rw [readPathsField] at h
  split at h
  next hnone =>
    cases h
    exact hnone.symm
  next value hvalue =>
    obtain ⟨list, hlist, rfl⟩ := Option.map_eq_some_iff.mp h
    obtain ⟨paths, hpaths, hlist⟩ := Option.bind_eq_some_iff.mp hlist
    rw [hvalue, Option.map_some]
    refine congrArg some (Subtype.ext ?_)
    show writePaths list.paths = value.1
    rw [paths_of_pathList hlist, writePaths_of_readPaths hpaths]

/-- **The field of some paths** is read back without their ciphertexts. -/
theorem readPathsField_value {type : ℕ} {records : List TlvRecord} {paths : Option PathList}
    (h : findField type records = paths.map PathList.value) :
    readPathsField type records = some (paths.map PathList.bare) := by
  rw [readPathsField, h]
  match paths with
  | none => rfl
  | some paths =>
    simp only [Option.map_some, PathList.value, readPaths_write, Option.bind_some]
    rw [show paths.paths.map BlindedMessagePath.bare = paths.bare.paths from rfl, pathList_paths]
    rfl

end PqLightning.Offers
