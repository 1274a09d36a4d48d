import PqLightning.Gossip.Layout

/-!
# The record parser and the positions it computes

`parseRecords` reads off the front of a list. The code reads an array at positions that it computes,
with lengths that the sender of the message chose: `parse_records` adds a length to a position
before it compares the sum with the size of the array. Here the parser is modelled with these
positions, on 64 bits, in builds that check additions for overflow and in builds that wrap around.

An array has less than `2 ^ 63` bytes (`ExcessData`), so a position inside it is no danger. A length
that the sender chose is.
-/

namespace PqLightning.Gossip

open Reader List

/-! ### The parser with positions -/

/-- How a build treats an addition on `usize` that overflows. -/
inductive Build where
  /-- `overflow-checks` are on: it panics. -/
  | checked
  /-- They are off: it wraps around. -/
  | wrapping
deriving DecidableEq, Repr

variable (build : Build)

def addUsize (a b : ℕ) : Except Panic ℕ :=
  match build with
  | .checked => addU64 a b
  | .wrapping => .ok ((a + b) % 2 ^ 64)

variable (data : List UInt8)

/-- `data.get(start..stop)` -/
def getRange (start stop : ℕ) : Option (List UInt8) :=
  if start ≤ stop ∧ stop ≤ data.length then some ((data.drop start).take (stop - start)) else none

def slice (start stop : ℕ) : Except Panic (List UInt8) :=
  match getRange data start stop with
  | some bytes => .ok bytes
  | none => .error .index

/-- One of the arms of `read_bigsize` that read `n` more bytes. -/
def readWordAt (pos n : ℕ) : Except Panic (Option (ℕ × ℕ)) := do
  let stop ← addUsize build pos n
  .ok ((getRange data pos stop).map fun bytes =>
    (bytes.foldl (fun acc b => acc * 256 + b.toNat) 0, stop))

/-- `read_bigsize`: the value and the position behind it. -/
def readBigsizeAt (pos : ℕ) : Except Panic (Option (ℕ × ℕ)) :=
  match data[pos]? with
  | none => .ok none
  | some first => do
    let pos ← addUsize build pos 1
    if first = 0xff then readWordAt build data pos 8
    else if first = 0xfe then readWordAt build data pos 4
    else if first = 0xfd then readWordAt build data pos 2
    else .ok (some (first.toNat, pos))

def readHeaderAt (pos : ℕ) : Except Panic (Option (ℕ × ℕ × ℕ)) := do
  match ← readBigsizeAt build data pos with
  | none => .ok none
  | some (typ, pos) =>
    match ← readBigsizeAt build data pos with
    | none => .ok none
    | some (len, pos) => .ok (some (typ, len, pos))

/-- The loop of `parse_records`, for a number of turns; `none` if it has not ended by then. -/
def parseLoopAt (build : Build) (data : List UInt8) :
    ℕ → ℕ → PqRecords → Except Panic (Option PqRecords)
  | 0, _, _ => .ok none
  | turns + 1, pos, records =>
    if pos < data.length then do
      match ← readHeaderAt build data pos with
      | none => .ok (some records)
      | some (typ, len, start) =>
        let stop ← addUsize build start len
        if data.length < stop then .ok (some records)
        else
          let value ← slice data start stop
          parseLoopAt build data turns stop (records.store typ value (stop - pos))
    else .ok (some records)

/-- An array of bytes. No allocation in Rust has more than `isize::MAX` bytes. -/
abbrev ExcessData : Type := { data : List UInt8 // data.length < 2 ^ 63 }

/-- `parse_records`, given more turns than there are bytes. -/
def parseRecordsAt (excessData : ExcessData) : Except Panic (Option PqRecords) :=
  parseLoopAt build excessData.1 (excessData.1.length + 1) 0 .empty

/-! ### Positions inside the array -/

variable {build : Build} {data : List UInt8}

theorem addUsize_of_lt {a b : ℕ} (h : a + b < 2 ^ 64) : addUsize build a b = .ok (a + b) := by
  cases build with
  | checked => exact addU64_of_lt h
  | wrapping => rw [addUsize, Nat.mod_eq_of_lt h]

variable {rest : List UInt8}

/-- The position at which `rest` begins, `rest` being the end of `data`. -/
theorem getRange_eq {pos n : ℕ} (hdrop : data.drop pos = rest) (hpos : pos ≤ data.length) :
    getRange data pos (pos + n) = if n ≤ rest.length then some (rest.take n) else none := by
  have hlen : rest.length = data.length - pos := by rw [← hdrop, length_drop]
  rw [getRange, hdrop, Nat.add_sub_cancel_left]
  split <;> split <;> first | rfl | omega

theorem readWordAt_eq (hdata : data.length < 2 ^ 63) {pos n : ℕ} (hpos : pos ≤ data.length)
    (hn : n ≤ 8) :
    readWordAt build data pos n = .ok ((readBigEndian n (data.drop pos)).map fun read =>
      (read.1, data.length - read.2.length)) := by
  rw [readWordAt, addUsize_of_lt (by omega), ok_bind, getRange_eq rfl hpos, readBigEndian]
  split
  next hle =>
    rw [length_drop] at hle
    simp only [Option.map_some, length_drop]
    congr 4
    omega
  · rfl

theorem readBigsizeAt_eq (hdata : data.length < 2 ^ 63) (pos : ℕ) :
    readBigsizeAt build data pos = .ok ((readBigsize (data.drop pos)).map fun read =>
      (read.1, data.length - read.2.length)) := by
  rw [readBigsizeAt]
  rcases Nat.lt_or_ge pos data.length with hlt | hge
  · rw [getElem?_eq_getElem hlt, drop_eq_getElem_cons hlt]
    simp only [addUsize_of_lt (show pos + 1 < 2 ^ 64 by omega), ok_bind, readBigsize,
      readWordAt_eq hdata (show pos + 1 ≤ data.length from hlt) le_rfl,
      readWordAt_eq hdata (show pos + 1 ≤ data.length from hlt) (show 4 ≤ 8 by decide),
      readWordAt_eq hdata (show pos + 1 ≤ data.length from hlt) (show 2 ≤ 8 by decide)]
    split_ifs
    · rfl
    · rfl
    · rfl
    · simp only [Option.map_some, length_drop]
      congr 3
      omega
  · rw [getElem?_eq_none hge, drop_eq_nil_of_le hge]
    rfl

/-- What a reader leaves is an end of the data. -/
theorem drop_of_readBigsize {pos v : ℕ} (h : readBigsize (data.drop pos) = some (v, rest)) :
    data.drop (data.length - rest.length) = rest := by
  obtain ⟨front, hfront, -⟩ := readBigsize_honest _ _ _ h
  have hsuffix : rest <:+ data := (hfront ▸ suffix_append front rest).trans (drop_suffix _ _)
  exact (suffix_iff_eq_drop.mp hsuffix).symm

theorem readHeaderAt_eq (hdata : data.length < 2 ^ 63) (pos : ℕ) :
    readHeaderAt build data pos = .ok ((readHeader (data.drop pos)).map fun read =>
      (read.1.1, read.1.2, data.length - read.2.length)) := by
  rw [readHeaderAt, readBigsizeAt_eq hdata, ok_bind, readHeader, andThen]
  cases htyp : readBigsize (data.drop pos) with
  | none => rfl
  | some typ =>
    have hdrop := drop_of_readBigsize htyp
    simp only [Option.map_some, readBigsizeAt_eq hdata, ok_bind, hdrop]
    cases readBigsize typ.2 <;> rfl

/-! ### The two parsers -/

/-- How a build panics when a length is too large: where additions wrap around, the slice then ends
before it starts. -/
def Build.panic : Build → Panic
  | .checked => .overflow
  | .wrapping => .index

theorem slice_eq {start len : ℕ} (hdrop : data.drop start = rest)
    (hstart : start ≤ data.length) (h : len ≤ rest.length) :
    slice data start (start + len) = .ok (rest.take len) := by
  rw [slice, getRange_eq hdrop hstart, if_pos h]

theorem slice_of_lt {start stop : ℕ} (h : stop < start) :
    slice data start stop = .error .index := by
  rw [slice, getRange, if_neg (by omega)]

theorem foldl_bigEndian_lt (bytes : List UInt8) (acc : ℕ) :
    bytes.foldl (fun acc b => acc * 256 + b.toNat) acc < (acc + 1) * 256 ^ bytes.length := by
  induction bytes generalizing acc with
  | nil => simp
  | cons b bytes ih =>
    have hb : b.toNat < 256 := b.toNat_lt
    calc (b :: bytes).foldl (fun acc b => acc * 256 + b.toNat) acc
        < (acc * 256 + b.toNat + 1) * 256 ^ bytes.length := ih _
      _ ≤ ((acc + 1) * 256) * 256 ^ bytes.length := Nat.mul_le_mul_right _ (by omega)
      _ = (acc + 1) * 256 ^ (b :: bytes).length := by
          rw [length_cons, Nat.pow_succ', Nat.mul_assoc]

theorem readBigEndian_lt {n v : ℕ} {l rest : List UInt8} (hn : n ≤ 8)
    (h : readBigEndian n l = some (v, rest)) : v < 2 ^ 64 := by
  rw [readBigEndian] at h
  split at h
  next hle =>
    obtain ⟨rfl, -⟩ := Prod.mk.inj (Option.some.inj h)
    calc (l.take n).foldl (fun acc b => acc * 256 + b.toNat) 0
        < (0 + 1) * 256 ^ (l.take n).length := foldl_bigEndian_lt _ _
      _ ≤ 1 * 256 ^ 8 := Nat.mul_le_mul_left _
          (Nat.pow_le_pow_right (by decide) (by rw [length_take_of_le hle]; exact hn))
      _ = 2 ^ 64 := by decide
  · cases h

theorem readBigsize_lt {v : ℕ} {l rest : List UInt8} (h : readBigsize l = some (v, rest)) :
    v < 2 ^ 64 := by
  cases l with
  | nil => cases h
  | cons b l =>
    rw [readBigsize] at h
    split_ifs at h
    · exact readBigEndian_lt le_rfl h
    · exact readBigEndian_lt (by decide) h
    · exact readBigEndian_lt (by decide) h
    · obtain ⟨rfl, -⟩ := Prod.mk.inj (Option.some.inj h)
      exact lt_trans b.toNat_lt (by decide)

/-- A header, as what stands in front of the rest of the data. -/
theorem exists_header {rest after : List UInt8} {typ len : ℕ}
    (h : readHeader rest = some ((typ, len), after)) :
    len < 2 ^ 64 ∧ ∃ header, rest = header ++ after ∧ header ≠ [] ∧
      Reads readHeader header (typ, len) := by
  obtain ⟨afterType, -, hlen⟩ := andThen_eq_some_iff.mp h
  obtain ⟨header, hrest, hreads⟩ := readHeader_honest _ _ _ h
  refine ⟨readBigsize_lt hlen, header, hrest, ?_, hreads⟩
  rintro rfl
  cases hreads []

variable {records : PqRecords}

/-- **The loop with positions** does what the loop on lists does. -/
theorem parseLoopAt_eq (hdata : data.length < 2 ^ 63) {turns pos : ℕ}
    (hpos : pos ≤ data.length) (hturns : data.length - pos ≤ turns) :
    parseLoopAt build data (turns + 1) pos records =
      ((parseFrom data.length turns (data.drop pos) records).mapError fun _ => build.panic).map
        some := by
  induction turns generalizing pos records with
  | zero =>
    rw [parseLoopAt, if_neg (by omega)]
    rfl
  | succ turns ih =>
    rw [parseLoopAt, parseFrom_succ]
    rcases Nat.lt_or_ge pos data.length with hlt | hge
    · rw [if_pos hlt, readHeaderAt_eq hdata, ok_bind]
      cases hread : readHeader (data.drop pos) with
      | none => rfl
      | some read =>
        obtain ⟨⟨typ, len⟩, after⟩ := read
        obtain ⟨hlen, header, hrest, hne, -⟩ := exists_header hread
        have hheader := length_pos_of_ne_nil hne
        have hlengths : data.length - pos = header.length + after.length := by
          rw [← length_drop, hrest, length_append]
        have hdrop : data.drop (data.length - after.length) = after := by
          have hstart : data.length - after.length = pos + header.length := by omega
          rw [hstart, ← drop_drop, hrest, drop_left]
        simp only [Option.map_some]
        rcases Nat.lt_or_ge (data.length - after.length + len) (2 ^ 64) with hfits | hover
        · rw [addUsize_of_lt hfits, addU64_of_lt hfits, ok_bind, ok_bind]
          split
          · rfl
          next hle =>
            have hle' : len ≤ after.length := by omega
            rw [slice_eq hdrop (by omega) hle', ok_bind, ih (by omega) (by omega), ← drop_drop,
              hdrop]
            congr 3
            rw [length_drop, length_drop]
            congr 1
            omega
        · cases build with
          | checked =>
            rw [addUsize, addU64, if_neg (by omega)]
            rfl
          | wrapping =>
            have hmod : (data.length - after.length + len) % 2 ^ 64 =
                data.length - after.length + len - 2 ^ 64 := by
              rw [Nat.mod_eq_sub_mod hover, Nat.mod_eq_of_lt (by omega)]
            rw [addUsize, hmod, ok_bind, if_neg (by omega), slice_of_lt (by omega), addU64,
              if_neg (by omega)]
            rfl
    · rw [if_neg (by omega), drop_eq_nil_of_le hge]
      rfl

theorem parseRecordsAt_eq (data : ExcessData) :
    parseRecordsAt build data = ((parseRecords data.1).mapError fun _ => build.panic).map some :=
  parseLoopAt_eq data.2 (Nat.zero_le _) (by rw [Nat.sub_zero])

/-! ### Lengths that fit -/

/-- Wherever the parser gets to, over whole records, the end of the next record is less than
`2 ^ 64`. The data from `tail` on is looked at, out of `total` bytes. -/
def LengthsFitFrom (total : ℕ) (tail : List UInt8) : Prop :=
  ∀ rs rest typ len after, tail = bytesOf rs ++ rest →
    readHeader rest = some ((typ, len), after) → total - after.length + len < 2 ^ 64

/-- No length that the parser gets to, added to its position, reaches `2 ^ 64`. -/
def LengthsFit (data : List UInt8) : Prop := LengthsFitFrom data.length data

/-- Two records at the front of the same data end at the same place. -/
theorem Record.append_inj {r r' : Record} {tail tail' : List UInt8}
    (h : r.bytes ++ tail = r'.bytes ++ tail') : tail = tail' := by
  have hread := r.reads (r.value ++ tail)
  have hread' := r'.reads (r'.value ++ tail')
  rw [← append_assoc] at hread hread'
  rw [Record.bytes, Record.bytes] at h
  rw [h, hread'] at hread
  obtain ⟨hheader, hafter⟩ := Prod.mk.inj (Option.some.inj hread)
  have hlen : r'.value.length = r.value.length := (Prod.mk.inj hheader).2
  exact ((List.append_inj hafter hlen).2).symm

variable {tail : List UInt8}

theorem lengthsFitFrom_record_iff {total : ℕ} {r : Record}
    (h : total - tail.length < 2 ^ 64) (htotal : (r.bytes ++ tail).length ≤ total) :
    LengthsFitFrom total (r.bytes ++ tail) ↔ LengthsFitFrom total tail := by
  constructor
  · intro hfits rs rest typ len after htail hread
    refine hfits (r :: rs) rest typ len after ?_ hread
    rw [bytesOf_cons, append_assoc, htail]
  · intro hfits rs rest typ len after hdata hread
    cases rs with
    | nil =>
      have hrest : rest = r.header ++ (r.value ++ tail) := hdata.symm.trans (append_assoc _ _ _)
      rw [hrest, r.reads] at hread
      obtain ⟨hheader, rfl⟩ := Prod.mk.inj (Option.some.inj hread)
      obtain ⟨-, rfl⟩ := Prod.mk.inj hheader
      rw [Record.bytes, length_append] at htotal
      rw [length_append] at htotal ⊢
      omega
    | cons r' rs =>
      rw [bytesOf_cons, append_assoc] at hdata
      exact hfits rs rest typ len after (Record.append_inj hdata) hread

/-- Where no whole record stands, only the header there matters. -/
theorem lengthsFitFrom_of_not_whole {total : ℕ}
    (hwhole : ∀ (r : Record) next, tail ≠ r.bytes ++ next)
    (hfits : ∀ typ len after, readHeader tail = some ((typ, len), after) →
      total - after.length + len < 2 ^ 64) : LengthsFitFrom total tail := by
  intro rs rest typ len after htail hread
  cases rs with
  | nil =>
    obtain rfl : tail = rest := htail
    exact hfits typ len after hread
  | cons r rs =>
    rw [bytesOf_cons, append_assoc] at htail
    exact absurd htail (hwhole r _)

/-- The header of a record at the front of the data is the one that is read there. -/
theorem Record.readHeader_bytes (r : Record) (next : List UInt8) :
    readHeader (r.bytes ++ next) = some ((r.typ, r.value.length), r.value ++ next) := by
  rw [Record.bytes, append_assoc, r.reads]

theorem signatureRecordLen_store_le {total typ recordLen : ℕ}
    {value : List UInt8} (h : records.signatureRecordLen ≤ total) (hlen : recordLen ≤ total) :
    (records.store typ value recordLen).signatureRecordLen ≤ total := by
  rw [PqRecords.store]
  split_ifs
  · exact h
  · exact h
  · exact hlen
  · exact h

/-- **The loop on lists** returns if the lengths fit, and only then. -/
theorem parseFrom_isOk_iff {total fuel : ℕ}
    (htotal : total < 2 ^ 64) (htail : tail.length ≤ total) (hfuel : tail.length ≤ fuel)
    (hsig : records.signatureRecordLen ≤ total) :
    (∃ parsed, parseFrom total fuel tail records = .ok parsed ∧
      parsed.signatureRecordLen ≤ total) ↔ LengthsFitFrom total tail := by
  induction fuel generalizing tail records with
  | zero =>
    obtain rfl := eq_nil_of_length_eq_zero (Nat.le_zero.mp hfuel)
    refine iff_of_true ⟨records, rfl, hsig⟩ (lengthsFitFrom_of_not_whole (fun r next h => ?_) ?_)
    · exact r.bytes_ne_nil (append_eq_nil_iff.mp h.symm).1
    · rintro typ len after ⟨⟩
  | succ fuel ih =>
    rw [parseFrom_succ]
    cases hread : readHeader tail with
    | none =>
      refine iff_of_true ⟨records, rfl, hsig⟩ (lengthsFitFrom_of_not_whole (fun r next h => ?_) ?_)
      · rw [h, r.readHeader_bytes] at hread
        cases hread
      · intro typ len after hread'
        cases hread.symm.trans hread'
    | some read =>
      obtain ⟨⟨typ, len⟩, after⟩ := read
      obtain ⟨-, header, rfl, hne, hreads⟩ := exists_header hread
      have hheader := length_pos_of_ne_nil hne
      rw [length_append] at htail hfuel
      rcases Nat.lt_or_ge (total - after.length + len) (2 ^ 64) with hfits | hover
      · simp only [addU64_of_lt hfits, ok_bind]
        split
        · -- the record is not whole, so the parser gets no further than its header
          rename_i hcut
          refine iff_of_true ⟨records, rfl, hsig⟩
            (lengthsFitFrom_of_not_whole (fun r next h => ?_) ?_)
          · rw [h, r.readHeader_bytes] at hread
            obtain ⟨hheader, rfl⟩ := Prod.mk.inj (Option.some.inj hread)
            obtain ⟨-, rfl⟩ := Prod.mk.inj hheader
            rw [length_append] at hcut htail
            omega
          · intro typ' len' after' hread'
            obtain ⟨hheader, rfl⟩ := Prod.mk.inj (Option.some.inj (hread.symm.trans hread'))
            obtain ⟨-, rfl⟩ := Prod.mk.inj hheader
            exact hfits
        · have hle : len ≤ after.length := by omega
          let r : Record := ⟨header, typ, after.take len, by
            rw [length_take_of_le hle]; exact hreads⟩
          have hbytes : header ++ after = r.bytes ++ after.drop len := by
            rw [Record.bytes, append_assoc, take_append_drop]
          have hnext : (after.drop len).length = after.length - len := length_drop
          rw [ih (by omega) (by omega)
            (signatureRecordLen_store_le hsig (by rw [length_append]; omega)), hbytes]
          refine (lengthsFitFrom_record_iff (by omega) ?_).symm
          rw [← hbytes, length_append]
          exact htail
      · simp only [addU64, if_neg (Nat.not_lt.mpr hover)]
        refine iff_of_false ?_ fun hfit => ?_
        · rintro ⟨parsed, h, -⟩
          cases h
        · exact absurd (hfit [] _ typ len after rfl hread) (Nat.not_lt.mpr hover)

/-- **When parsing is safe.** On every array of bytes and in every build `parse_records` returns,
with a signature record that is no longer than the array, if no length that it gets to reaches `2 ^
64` when it is added to the position; otherwise it panics. -/
theorem parseRecordsAt_isOk_iff (data : ExcessData) :
    (∃ records, parseRecordsAt build data = .ok (some records) ∧
      records.signatureRecordLen ≤ data.1.length) ↔ LengthsFit data.1 := by
  have hsig : PqRecords.empty.signatureRecordLen ≤ data.1.length := Nat.zero_le _
  rw [LengthsFit, ← parseFrom_isOk_iff (lt_trans data.2 (by decide)) le_rfl le_rfl hsig,
    parseRecordsAt_eq]
  refine exists_congr fun records => and_congr_left fun _ => ?_
  change ((parseRecords data.1).mapError fun _ => build.panic).map some = _ ↔
    parseRecords data.1 = .ok records
  cases parseRecords data.1 <;> simp [Except.mapError, Except.map]

/-- A record of type 27 that claims to be `2 ^ 64 - 1` bytes long. -/
def hugeLength : ExcessData := ⟨27 :: List.replicate 9 0xff, by decide⟩

/-- **Ten bytes crash the parser**, in every build. -/
theorem huge_length_panics :
    parseRecordsAt .checked hugeLength = .error .overflow ∧
      parseRecordsAt .wrapping hugeLength = .error .index := by
  decide +kernel

end PqLightning.Gossip
