import PqLightning.Gossip.Pins
import PqLightning.Lib.Reader

/-!
# Which bytes of an announcement are signed

The ML-DSA signature of a node announcement travels in the `excess_data` that it signs. The signer
appends the signature record last (`append_signature_record`), and the verifier takes as many bytes
as that record has off the end of the data to find out what was signed. The parser, however, takes
the records in any order and accepts bytes after the last of them, so the bytes taken off the end
need not be those of the signature record.

`excess_data` is seen here as a list of whole records (`Record`) and a rest.
-/

namespace PqLightning.Gossip

open Reader List

/-! ### Records and their encodings -/

theorem readBigEndian_honest (n : ℕ) : Honest (readBigEndian n) := by
  intro l v rest h
  rw [readBigEndian] at h
  split at h
  next hn =>
    cases h
    have hlen : (l.take n).length = n := length_take_of_le hn
    refine ⟨l.take n, (take_append_drop n l).symm, fun tail => ?_⟩
    rw [readBigEndian, if_pos (by rw [length_append, hlen]; exact Nat.le_add_right n _),
      take_left' hlen, drop_left' hlen]
  · cases h

/-- A reader that acts on the first byte and then reads on is honest if what it goes on with is. -/
theorem honest_cons {α : Type} {read : Read UInt8 α} (hnil : read [] = none)
    (hcons : ∀ b, ∃ read', Honest read' ∧ ∀ l, read (b :: l) = read' l) : Honest read := by
  intro l a rest h
  cases l with
  | nil => cases hnil.symm.trans h
  | cons b l =>
    obtain ⟨read', hhonest, heq⟩ := hcons b
    rw [heq] at h
    obtain ⟨front, rfl, hfront⟩ := hhonest l a rest h
    exact ⟨b :: front, rfl, fun tail => (heq _).trans (hfront tail)⟩

theorem readBigsize_honest : Honest readBigsize := by
  refine honest_cons rfl fun b => ?_
  by_cases h8 : b = 0xff
  · exact ⟨_, readBigEndian_honest 8, fun l => by rw [readBigsize, if_pos h8]⟩
  by_cases h4 : b = 0xfe
  · exact ⟨_, readBigEndian_honest 4, fun l => by rw [readBigsize, if_neg h8, if_pos h4]⟩
  by_cases h2 : b = 0xfd
  · exact ⟨_, readBigEndian_honest 2, fun l => by rw [readBigsize, if_neg h8, if_neg h4, if_pos h2]⟩
  refine ⟨fun l => some (b.toNat, l), fun l v rest h => ?_, fun l => ?_⟩
  · cases h
    exact ⟨[], rfl, fun _ => rfl⟩
  · rw [readBigsize, if_neg h8, if_neg h4, if_neg h2]

/-- The type and the length of the record at the front of the data. -/
def readHeader : Read UInt8 (ℕ × ℕ) := andThen readBigsize readBigsize

theorem readHeader_honest : Honest readHeader := readBigsize_honest.andThen readBigsize_honest

/-- A record of a message, with the bytes its type and its length are encoded in. -/
structure Record where
  header : List UInt8
  typ : ℕ
  value : List UInt8
  reads : Reads readHeader header (typ, value.length)

variable (r : Record) (rs : List Record)

def Record.bytes : List UInt8 := r.header ++ r.value

def Record.storeIn (records : PqRecords) (r : Record) : PqRecords :=
  records.store r.typ r.value r.bytes.length

def bytesOf : List UInt8 := rs.flatMap Record.bytes

theorem bytesOf_cons : bytesOf (r :: rs) = r.bytes ++ bytesOf rs := flatMap_cons

theorem bytesOf_append (rs' : List Record) : bytesOf (rs ++ rs') = bytesOf rs ++ bytesOf rs' :=
  flatMap_append

theorem bytesOf_singleton : bytesOf [r] = r.bytes := append_nil _

theorem Record.bytes_ne_nil : r.bytes ≠ [] := by
  intro h
  have hheader : r.header = [] := (append_eq_nil_iff.mp h).1
  have hreads := r.reads []
  rw [hheader] at hreads
  cases hreads

theorem length_le_length_bytesOf : rs.length ≤ (bytesOf rs).length := by
  induction rs with
  | nil => exact le_rfl
  | cons r rs ih =>
    have hr := length_pos_of_ne_nil r.bytes_ne_nil
    rw [bytesOf_cons, length_append, length_cons]
    omega

/-! ### The parser on whole records -/

theorem parseFrom_succ (total fuel : ℕ) (rest : List UInt8) (records : PqRecords) :
    parseFrom total (fuel + 1) rest records =
      match readHeader rest with
      | none => .ok records
      | some ((typ, len), afterLen) =>
        addU64 (total - afterLen.length) len >>= fun stop =>
          if total < stop then .ok records else parseFrom total fuel (afterLen.drop len)
            (records.store typ (afterLen.take len) (rest.length - (afterLen.drop len).length)) := by
  rw [parseFrom, readHeader, andThen]
  cases readBigsize rest with
  | none => rfl
  | some first =>
    simp only
    cases readBigsize first.2 <;> rfl

variable {total fuel : ℕ} {records : PqRecords}

/-- **A whole record.** The loop stores it and goes on behind it, if its end can be computed. -/
theorem parseFrom_record {r : Record} {tail : List UInt8} (h : (r.bytes ++ tail).length ≤ total) :
    parseFrom total (fuel + 1) (r.bytes ++ tail) records =
      if total - tail.length < 2 ^ 64 then parseFrom total fuel tail (r.storeIn records)
      else .error .overflow := by
  have hbytes : r.bytes ++ tail = r.header ++ (r.value ++ tail) := append_assoc _ _ _
  have hlen : (r.bytes ++ tail).length = r.header.length + (r.value.length + tail.length) := by
    rw [hbytes, length_append, length_append]
  have hstop : total - (r.value ++ tail).length + r.value.length = total - tail.length := by
    rw [length_append]
    omega
  rw [parseFrom_succ, hbytes, r.reads (r.value ++ tail)]
  simp only [addU64, hstop, take_left, drop_left]
  split
  · rw [ok_bind, if_neg (by omega)]
    congr 2
    rw [Record.bytes, ← hbytes, hlen, length_append]
    omega
  · rfl

variable {rs : List Record}

theorem parseFrom_bytesOf {tail : List UInt8}
    (htotal : total < 2 ^ 64) (h : (bytesOf rs ++ tail).length ≤ total) :
    parseFrom total (fuel + rs.length) (bytesOf rs ++ tail) records =
      parseFrom total fuel tail (rs.foldl Record.storeIn records) := by
  induction rs generalizing records with
  | nil => rfl
  | cons r rs ih =>
    rw [bytesOf_cons, append_assoc] at h ⊢
    have hrest : (bytesOf rs ++ tail).length ≤ total := by
      rw [length_append] at h
      omega
    rw [length_cons, ← Nat.add_assoc, parseFrom_record h, if_pos (by omega), ih hrest, foldl_cons]

theorem parseFrom_nil (total fuel : ℕ) (records : PqRecords) :
    parseFrom total fuel [] records = .ok records := by
  cases fuel <;> rfl

def PqRecords.empty : PqRecords := ⟨none, none, none, 0⟩

/-- **What the parser makes of whole records.** -/
theorem parseRecords_bytesOf (h : (bytesOf rs).length < 2 ^ 64) :
    parseRecords (bytesOf rs) = .ok (rs.foldl Record.storeIn .empty) := by
  obtain ⟨fuel, hfuel⟩ := Nat.exists_eq_add_of_le' (length_le_length_bytesOf rs)
  have hparse : parseFrom (bytesOf rs).length (fuel + rs.length) (bytesOf rs ++ []) .empty =
      parseFrom (bytesOf rs).length fuel [] (rs.foldl Record.storeIn .empty) :=
    parseFrom_bytesOf h (by rw [append_nil])
  rw [append_nil, parseFrom_nil, ← hfuel] at hparse
  exact hparse

/-- If the parser gets to the end of whole records, that end is a position. -/
theorem lt_of_parseFrom_bytesOf {records records' : PqRecords}
    (hne : rs ≠ []) (hfuel : rs.length ≤ fuel) (h : (bytesOf rs).length ≤ total)
    (hparse : parseFrom total fuel (bytesOf rs) records = .ok records') : total < 2 ^ 64 := by
  induction rs generalizing fuel records with
  | nil => exact absurd rfl hne
  | cons r rs ih =>
    obtain ⟨fuel, rfl⟩ : ∃ n, fuel = n + 1 := ⟨fuel - 1, by rw [length_cons] at hfuel; omega⟩
    rw [bytesOf_cons] at h hparse
    rw [parseFrom_record h] at hparse
    split at hparse
    next hlt =>
      by_cases hrs : rs = []
      · rw [hrs] at hlt
        exact hlt
      · refine ih hrs (Nat.le_of_succ_le_succ hfuel) ?_ hparse
        rw [length_append] at h
        omega
    · cases hparse

/-! ### The signature record -/

structure Record.IsSignature (r : Record) : Prop where
  typ : r.typ = pqSignatureRecordType
  length : r.value.length = pqSignatureLen

def EndsWithSignature (data : List UInt8) : Prop :=
  ∃ before sig, sig.IsSignature ∧ data = bytesOf (before ++ [sig])

/-- The signature record that the parser reports is the last thing in the data; what is left when it
is taken off are the records before it, and they carry the keys `pins`. -/
def SignsItsKeys (data : List UInt8) (records : PqRecords)
    (pins : Option (Bytes pqPublicKeyLen) × Option (Bytes pqKemEkLen)) : Prop :=
  ∃ before sig, sig.IsSignature ∧ data = bytesOf (before ++ [sig]) ∧
    records.signature.map Subtype.val = some sig.value ∧
    data.take (data.length - records.signatureRecordLen) = bytesOf before ∧
    ∃ reparsed, parseRecords (data.take (data.length - records.signatureRecordLen)) = .ok reparsed ∧
      (reparsed.pubkey, reparsed.kemKey) = pins

theorem Record.IsSignature.storeIn {r : Record} (h : r.IsSignature) (records : PqRecords) :
    r.storeIn records =
      { records with
        signature := some ⟨r.value, h.length⟩, signatureRecordLen := r.bytes.length } := by
  have hdsa : ¬ (r.typ = pqPublicKeyRecordType ∧ r.value.length = pqPublicKeyLen) := by
    rintro ⟨htyp, -⟩
    cases h.typ.symm.trans htyp
  have hkem : ¬ (r.typ = pqKemKeyRecordType ∧ r.value.length = pqKemEkLen) := by
    rintro ⟨htyp, -⟩
    cases h.typ.symm.trans htyp
  rw [Record.storeIn, PqRecords.store, dif_neg hdsa, dif_neg hkem, dif_pos ⟨h.typ, h.length⟩]

theorem signsItsKeys_of_endsWithSignature {data : List UInt8}
    (hparse : parseRecords data = .ok records) (h : EndsWithSignature data) :
    SignsItsKeys data records (records.pubkey, records.kemKey) := by
  obtain ⟨before, sig, hsig, rfl⟩ := h
  have hlt := lt_of_parseFrom_bytesOf (by simp) (length_le_length_bytesOf _) le_rfl hparse
  rw [parseRecords_bytesOf hlt, foldl_append, foldl_cons, foldl_nil, hsig.storeIn] at hparse
  cases hparse
  rw [bytesOf_append, bytesOf_singleton, length_append] at hlt
  have htake : (bytesOf (before ++ [sig])).take
      ((bytesOf (before ++ [sig])).length - sig.bytes.length) = bytesOf before := by
    rw [bytesOf_append, bytesOf_singleton, length_append, Nat.add_sub_cancel, take_left]
  refine ⟨before, sig, hsig, rfl, rfl, htake, before.foldl Record.storeIn .empty, ?_, rfl⟩
  rw [htake]
  exact parseRecords_bytesOf (by omega)

/-! ### Accepted announcements -/

variable {crypto : GossipCrypto} {around : Surroundings} {g g' : NetworkGraph}

theorem checkContinuity_or {n : ℕ} {pinned announced : Option (Bytes n)}
    {substituted dropped : String}
    (h : checkContinuity pinned announced substituted dropped = .ok ()) :
    pinned.or announced = announced := by
  cases pinned with
  | none => rfl
  | some key =>
    cases announced with
    | none => cases h
    | some new => rw [Option.some_or, guardWith_eq_ok.mp h]

/-- **An accepted announcement.** The keys it carries are the ones pinned afterwards. -/
theorem pins_of_updateNodeFromAnnouncement {msg : NodeAnnouncement}
    (h : g.updateNodeFromAnnouncement crypto around msg = .ok g')
    (hparse : parseRecords msg.contents.excessData = .ok records) :
    g'.pins msg.contents.nodeId = (records.pubkey, records.kemKey) := by
  obtain ⟨_, -, h⟩ := bind_eq_ok.mp h
  obtain ⟨_, -, h⟩ := bind_eq_ok.mp h
  simp only [NetworkGraph.updateNodeFromAnnouncementIntern] at h
  split at h
  · obtain ⟨_, -, h⟩ := bind_eq_ok.mp h
    cases h
  · obtain ⟨_, -, h⟩ := bind_eq_ok.mp h
    obtain ⟨node, hpin, h⟩ := bind_eq_ok.mp h
    obtain ⟨records', hparse', hpin⟩ := bind_eq_ok.mp hpin
    obtain rfl : records = records' :=
      Except.ok.inj (hparse.symm.trans (Outcome.ofPanic_eq_ok.mp hparse'))
    simp only [NodeInfo.pin, bind_eq_ok] at hpin
    obtain ⟨_, hdsa, _, hkem, _, -, hnode⟩ := hpin
    rw [← Except.ok.inj h, ← Except.ok.inj hnode, checkContinuity_or hdsa, checkContinuity_or hkem,
      NetworkGraph.pins, AList.lookup_insert]
    rfl

/-- **What an accepted announcement signs.** The signature record is the last thing in the data, and
the bytes that are verified carry the keys that are pinned, exactly if the data is a sequence of
whole records that ends with a signature. -/
theorem signsItsKeys_iff (crypto : GossipCrypto) (around : Surroundings) (g g' : NetworkGraph)
    (msg : NodeAnnouncement) (records : PqRecords)
    (hok : g.updateNodeFromAnnouncement crypto around msg = .ok g')
    (hparse : parseRecords msg.contents.excessData = .ok records) :
    SignsItsKeys msg.contents.excessData records (g'.pins msg.contents.nodeId) ↔
      EndsWithSignature msg.contents.excessData := by
  constructor
  · rintro ⟨before, sig, hsig, hdata, -⟩
    exact ⟨before, sig, hsig, hdata⟩
  · intro h
    rw [pins_of_updateNodeFromAnnouncement hok hparse]
    exact signsItsKeys_of_endsWithSignature hparse h

theorem pqNodeAnnouncement_accepted :
    announcedGraph.updateNodeFromAnnouncement permissiveCrypto quietSurroundings
      pqNodeAnnouncement = .ok pinnedGraph :=
  run_eq_afterStep (.updateNodeFromAnnouncement pqNodeAnnouncement) (by decide +kernel)

def pqNodeAnnouncementRecords : PqRecords :=
  ⟨some (constBytes 1312 7), none, some (constBytes 2420 0), 2424⟩

theorem signsItsKeys_iff_pqNodeAnnouncement :
    SignsItsKeys pqNodeAnnouncement.contents.excessData pqNodeAnnouncementRecords
        (pinnedGraph.pins (constBytes 33 2)) ↔
      EndsWithSignature pqNodeAnnouncement.contents.excessData :=
  signsItsKeys_iff permissiveCrypto quietSurroundings announcedGraph pinnedGraph pqNodeAnnouncement
    pqNodeAnnouncementRecords pqNodeAnnouncement_accepted (by decide +kernel)

/-! ### A record behind the signature -/

def keyRecords : List UInt8 :=
  [27, 0xfd, 0x05, 0x20] ++ List.replicate 1312 7 ++ [29, 0xfd, 0x04, 0xa0] ++ List.replicate 1184 9

def signatureRecord : List UInt8 := [31, 0xfd, 0x09, 0x74] ++ List.replicate 2420 0

/-- An announcement of the first node of `plainChannelAnnouncement` with an empty record of an
unknown type behind the signature. -/
def signatureNotLast : NodeAnnouncement where
  signature := constBytes 64 0
  contents := {
    nodeId := constBytes 33 2, timestamp := 1, body := [], excessAddressData := []
    excessData := keyRecords ++ signatureRecord ++ [5, 0] }

/-- One ML-DSA signature was made, over the keys and the first two bytes of a signature record. -/
def oneSignature : GossipCrypto :=
  { permissiveCrypto with
    pqVerifyNodeAnnouncement := fun _ msg _ => msg.excessData = keyRecords ++ [31, 0xfd] }

/-- **The signature is not the last record** and the announcement is accepted, and its keys pinned.
As many bytes are taken off as the signature record has, which leaves the two bytes that the last
record has of the signature record. -/
theorem signature_not_last_accepted :
    (announcedGraph.updateNodeFromAnnouncement oneSignature quietSurroundings signatureNotLast).map
        (fun g => g.pins (constBytes 33 2)) =
      .ok (some (constBytes 1312 7), some (constBytes 1184 9)) ∧
    (parseRecords signatureNotLast.contents.excessData).map PqRecords.signatureRecordLen =
      .ok signatureRecord.length ∧
    signatureNotLast.contents.excessData.take
        (signatureNotLast.contents.excessData.length - signatureRecord.length) =
      keyRecords ++ [31, 0xfd] := by
  refine ⟨?_, ?_, ?_⟩ <;> decide +kernel

end PqLightning.Gossip
