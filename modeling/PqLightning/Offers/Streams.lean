import PqLightning.Offers.Tlv
import Mathlib.Order.Nat

/-!
# Streams of typed records

Every message of the offers protocol is read as a sequence of streams, one for each range of types
(`util/ser_macros.rs`, the `tlv_stream!` macro). A stream takes records off the front as long as
their types are in its range. The types must go up, the value of a record of a known type must
decode, and a record of an unknown type must have an odd type; it is skipped, but the bytes of the
message keep it.

A typed field is its value as bytes. What the readers of the single fields accept is a parameter
(`Fields`): it decides only whether a message is read at all.
-/

namespace PqLightning.Offers

open List Option

abbrev Value : Type := { l : List UInt8 // l.length < 2 ^ 64 }

def Value.empty : Value := ⟨[], by decide⟩

theorem Value.length_lt (value : Value) : value.1.length < 2 ^ 64 := value.2

/-! ### Records in ascending order -/

abbrev Ascending (records : List TlvRecord) : Prop := records.Pairwise fun a b => a.type < b.type

/-- **Two streams with the same records** are the same. -/
theorem Ascending.eq_of_mem_iff {l l' : List TlvRecord} (h : Ascending l) (h' : Ascending l')
    (hiff : ∀ record, record ∈ l ↔ record ∈ l') : l = l' := by
  have hnodup : ∀ {l : List TlvRecord}, Ascending l → l.Nodup :=
    fun h => h.imp fun hlt heq => absurd (heq ▸ hlt) (Nat.lt_irrefl _)
  refine List.Perm.eq_of_pairwise (fun a b _ _ hab hba => absurd (hab.trans hba) (Nat.lt_irrefl _))
    h h' ((perm_ext_iff_of_nodup (hnodup h) (hnodup h')).mpr hiff)

variable {l : List TlvRecord}

theorem Ascending.eq_of_type_eq (h : Ascending l) {a b : TlvRecord} (ha : a ∈ l)
    (hb : b ∈ l) (htype : a.type = b.type) : a = b := by
  induction l with
  | nil => cases ha
  | cons c l ih =>
    obtain ⟨habove, hrest⟩ := pairwise_cons.mp h
    rcases mem_cons.mp ha with rfl | ha'
    · rcases mem_cons.mp hb with rfl | hb'
      · rfl
      · exact absurd htype (habove b hb').ne
    · rcases mem_cons.mp hb with rfl | hb'
      · exact absurd htype.symm (habove a ha').ne
      · exact ih hrest ha' hb'

theorem Ascending.filter (h : Ascending l) (p : TlvRecord → Bool) :
    Ascending (l.filter p) := h.sublist filter_sublist

/-- The types go up from a first one and stay below a last one. -/
structure Within (start stop : ℕ) (records : List TlvRecord) : Prop where
  ascending : Ascending records
  bounds : ∀ record ∈ records, start ≤ record.type ∧ record.type < stop

theorem Within.mono {a b a' b' : ℕ} (h : Within a b l) (ha : a' ≤ a)
    (hb : b ≤ b') : Within a' b' l :=
  ⟨h.ascending, fun record hmem => ⟨ha.trans (h.bounds record hmem).1,
    (h.bounds record hmem).2.trans_le hb⟩⟩

theorem Within.append {a b c : ℕ} {l l' : List TlvRecord} (h : Within a b l) (h' : Within b c l')
    (hab : a ≤ b) (hbc : b ≤ c) : Within a c (l ++ l') where
  ascending := pairwise_append.mpr ⟨h.ascending, h'.ascending, fun record hmem record' hmem' =>
    (h.bounds record hmem).2.trans_le (h'.bounds record' hmem').1⟩
  bounds := fun record hmem => (mem_append.mp hmem).elim
    ((h.mono (Nat.le_refl a) hbc).bounds record) ((h'.mono hab (Nat.le_refl c)).bounds record)

/-- The records of a range of types: `TlvStream::range`. -/
def range (start stop : ℕ) (records : List TlvRecord) : List TlvRecord :=
  (records.dropWhile fun record => !decide (start ≤ record.type ∧ record.type < stop)).takeWhile
    fun record => decide (start ≤ record.type ∧ record.type < stop)

variable {start stop : ℕ}

theorem takeWhile_range (h : Ascending l) (hstart : ∀ record ∈ l, start ≤ record.type) :
    (l.takeWhile fun record => decide (start ≤ record.type ∧ record.type < stop)) =
      l.filter fun record => decide (start ≤ record.type ∧ record.type < stop) := by
  induction l with
  | nil => rfl
  | cons a l ih =>
    obtain ⟨habove, hrest⟩ := pairwise_cons.mp h
    have hmem := hstart a mem_cons_self
    by_cases ha : a.type < stop
    · rw [takeWhile_cons_of_pos (by simp [hmem, ha]), filter_cons_of_pos (by simp [hmem, ha]),
        ih hrest fun record hr => hstart record (mem_cons_of_mem _ hr)]
    · rw [takeWhile_cons_of_neg (by simp [ha])]
      symm
      rw [filter_eq_nil_iff]
      intro b hb
      rcases mem_cons.mp hb with rfl | hb
      · simp [ha]
      · have := habove b hb
        simp only [decide_eq_true_eq]
        omega

/-- In a stream whose types go up, the records of a range are all of them. -/
theorem range_eq_filter (h : Ascending l) :
    range start stop l =
      l.filter fun record => decide (start ≤ record.type ∧ record.type < stop) := by
  rw [range]
  induction l with
  | nil => rfl
  | cons a l ih =>
    obtain ⟨habove, hrest⟩ := pairwise_cons.mp h
    by_cases ha : start ≤ a.type ∧ a.type < stop
    · rw [dropWhile_cons_of_neg (by simp [ha])]
      refine takeWhile_range h fun record hr => ?_
      rcases mem_cons.mp hr with rfl | hr
      · exact ha.1
      · exact ha.1.trans (habove record hr).le
    · rw [dropWhile_cons_of_pos (by simp [ha]), filter_cons_of_neg (by simp [ha]), ih hrest]

/-! ### Fields -/

structure Field where
  type : ℕ
  value : Option Value
  type_lt : type < 2 ^ 64 := by decide

def Field.record (field : Field) : Option TlvRecord :=
  field.value.map fun value => ⟨field.type, value.1, field.type_lt, value.2⟩

def encodeTlvStream (fields : List Field) : List TlvRecord := fields.filterMap Field.record

variable {record : TlvRecord}

theorem Field.record_eq_some_iff {field : Field} :
    field.record = some record ↔
      record.type = field.type ∧ field.value = some ⟨record.value, record.length_lt⟩ := by
  rw [Field.record, map_eq_some_iff]
  constructor
  · rintro ⟨value, hvalue, rfl⟩
    exact ⟨rfl, hvalue⟩
  · rintro ⟨htype, hvalue⟩
    refine ⟨_, hvalue, ?_⟩
    obtain ⟨type, value, type_lt, length_lt⟩ := record
    cases htype
    rfl

theorem type_of_mem_record {field : Field} (h : record ∈ field.record) :
    record.type = field.type := (Field.record_eq_some_iff.mp h).1

variable {fields : List Field}

theorem ascending_encodeTlvStream
    (h : fields.Pairwise fun a b => a.type < b.type) : Ascending (encodeTlvStream fields) := by
  rw [Ascending, encodeTlvStream, pairwise_filterMap]
  refine h.imp fun {a b} hlt record hr record' hr' => ?_
  rwa [type_of_mem_record hr, type_of_mem_record hr']

/-- The records of fields whose types go up within bounds. -/
theorem within_encodeTlvStream (h : (fields.map Field.type).Pairwise (· < ·))
    (hbounds : ∀ type ∈ fields.map Field.type, start ≤ type ∧ type < stop) :
    Within start stop (encodeTlvStream fields) where
  ascending := ascending_encodeTlvStream (pairwise_map.mp h)
  bounds := fun record hmem => by
    obtain ⟨field, hfield, hrecord⟩ := mem_filterMap.mp hmem
    rw [type_of_mem_record hrecord]
    exact hbounds _ (mem_map_of_mem hfield)

theorem mem_encodeTlvStream :
    record ∈ encodeTlvStream fields ↔ ∃ field ∈ fields, field.record = some record :=
  mem_filterMap

def findField (type : ℕ) (records : List TlvRecord) : Option Value :=
  (records.find? fun record => record.type = type).map fun record =>
    ⟨record.value, record.length_lt⟩

variable {records : List TlvRecord}

theorem findField_eq_some_iff (h : Ascending records) {type : ℕ} {value : Value} :
    findField type records = some value ↔
      ∃ record ∈ records, record.type = type ∧ record.value = value.1 := by
  rw [findField, map_eq_some_iff]
  constructor
  · rintro ⟨record, hfind, rfl⟩
    exact ⟨record, mem_of_find?_eq_some hfind, by simpa using find?_some hfind, rfl⟩
  · rintro ⟨record, hmem, rfl, hvalue⟩
    obtain ⟨record', hfind⟩ : ∃ record', (records.find? fun r => r.type = record.type) =
      some record' :=
      isSome_iff_exists.mp (find?_isSome.mpr ⟨record, hmem, by simp⟩)
    have heq : record' = record := h.eq_of_type_eq (mem_of_find?_eq_some hfind) hmem
      (by simpa using find?_some hfind)
    subst heq
    exact ⟨record', hfind, Subtype.ext hvalue⟩

/-- The field of a record's type is the record's value just if the record is there. -/
theorem findField_type_eq_some_iff (h : Ascending records) :
    findField record.type records = some ⟨record.value, record.length_lt⟩ ↔ record ∈ records := by
  rw [findField_eq_some_iff h]
  constructor
  · rintro ⟨record', hmem, htype, hvalue⟩
    obtain ⟨type, value, type_lt, length_lt⟩ := record
    obtain ⟨type', value', type_lt', length_lt'⟩ := record'
    cases htype
    cases hvalue
    exact hmem
  · exact fun hmem => ⟨record, hmem, rfl, rfl⟩

theorem findField_eq_none_iff {type : ℕ} :
    findField type records = none ↔ ∀ record ∈ records, record.type ≠ type := by
  rw [findField, map_eq_none_iff, find?_eq_none]
  simp

theorem findField_filter {type : ℕ} {p : TlvRecord → Bool}
    (h : ∀ record : TlvRecord, record.type = type → p record = true) :
    findField type (records.filter p) = findField type records := by
  rw [findField, findField, find?_filter]
  congr 2
  funext record
  by_cases htype : record.type = type
  · simp [htype, h record htype]
  · simp [htype]

/-! ### Reading the streams of a message -/

/-- A stream: its range of types, and the types it knows. -/
structure StreamSpec where
  (start stop : ℕ)
  known : List ℕ

/-- What the readers of the fields accept. -/
abbrev Fields : Type := ℕ → Value → Bool

/-- A record that a stream takes: of a known type and with a value that decodes, or of an odd type.
-/
def StreamSpec.takes (spec : StreamSpec) (fields : Fields) (record : TlvRecord) : Bool :=
  if record.type ∈ spec.known then fields record.type ⟨record.value, record.length_lt⟩
  else record.type % 2 = 1

/-- `_decode_tlv_stream_range!`: the records of the stream and what follows them. -/
def readStream (fields : Fields) (spec : StreamSpec) :
    Option ℕ → List TlvRecord → Option (List TlvRecord × List TlvRecord)
  | _, [] => some ([], [])
  | last, record :: records =>
    if spec.start ≤ record.type ∧ record.type < spec.stop then
      if (∃ type ∈ last, record.type ≤ type) ∨ spec.takes fields record = false then none
      else (readStream fields spec (some record.type) records).map fun (stream, rest) =>
        (record :: stream, rest)
    else some ([], record :: records)

/-- The streams of a message one after the other, with nothing behind them: `ParsedMessage`. -/
def readStreams (fields : Fields) : List StreamSpec → List TlvRecord → Option
    (List (List TlvRecord))
  | [], [] => some []
  | [], _ :: _ => none
  | spec :: specs, records =>
    match readStream fields spec none records with
    | none => none
    | some (stream, rest) => (readStreams fields specs rest).map (stream :: ·)

variable {fields : Fields}

theorem readStream_eq_some {spec : StreamSpec} {records stream rest : List TlvRecord}
    {last : Option ℕ} (h : readStream fields spec last records = some (stream, rest)) :
    records = stream ++ rest ∧ Ascending stream ∧
      (∀ record ∈ stream, spec.start ≤ record.type ∧ record.type < spec.stop ∧
        spec.takes fields record = true ∧ ∀ type ∈ last, type < record.type) := by
  induction records generalizing last stream with
  | nil =>
    cases h
    simp
  | cons record records ih =>
    rw [readStream] at h
    split at h
    · next hrange =>
      split at h
      · cases h
      · next hok =>
        obtain ⟨⟨stream, rest⟩, hrest, heq⟩ := map_eq_some_iff.mp h
        cases heq
        obtain ⟨rfl, hasc, hall⟩ := ih hrest
        have habove : ∀ record' ∈ stream, record.type < record'.type :=
          fun record' hmem => (hall record' hmem).2.2.2 _ rfl
        rw [not_or, not_exists, Bool.not_eq_false] at hok
        refine ⟨rfl, pairwise_cons.mpr ⟨habove, hasc⟩, fun record' hmem => ?_⟩
        rcases mem_cons.mp hmem with rfl | hmem
        · refine ⟨hrange.1, hrange.2, hok.2, fun type htype => ?_⟩
          exact Nat.lt_of_not_le fun hle => hok.1 type ⟨htype, hle⟩
        · obtain ⟨hstart, hstop, htakes, -⟩ := hall record' hmem
          refine ⟨hstart, hstop, htakes, fun type htype => ?_⟩
          refine lt_trans (Nat.lt_of_not_le fun hle => hok.1 type ⟨htype, hle⟩)
            (habove record' hmem)
    · cases h
      simp

/-- The ranges of the streams follow one another. -/
abbrev Ordered (specs : List StreamSpec) : Prop := specs.Pairwise fun a b => a.stop ≤ b.start

/-- **The types of a message that was read go up**, and each of its records is taken by one of the
streams. -/
theorem ascending_of_readStreams {specs : List StreamSpec}
    (hspecs : Ordered specs) {streams : List (List TlvRecord)}
    (h : readStreams fields specs records = some streams) :
    Ascending records ∧ ∀ record ∈ records, ∃ spec ∈ specs,
      spec.start ≤ record.type ∧ record.type < spec.stop ∧ spec.takes fields record = true := by
  induction specs generalizing records streams with
  | nil =>
    match records, h with
    | [], _ => simp
  | cons spec specs ih =>
    rw [readStreams] at h
    split at h
    · cases h
    · next stream rest hstream =>
      obtain ⟨streams, hrest, rfl⟩ := map_eq_some_iff.mp h
      obtain ⟨rfl, hasc, hall⟩ := readStream_eq_some hstream
      obtain ⟨hordered, hspecs⟩ := pairwise_cons.mp hspecs
      obtain ⟨hascRest, hallRest⟩ := ih hspecs hrest
      refine ⟨pairwise_append.mpr ⟨hasc, hascRest, fun a ha b hb => ?_⟩, fun record hmem => ?_⟩
      · obtain ⟨spec', hspec', hstart, -⟩ := hallRest b hb
        have := hordered spec' hspec'
        have := (hall a ha).2.1
        omega
      · rcases mem_append.mp hmem with hmem | hmem
        · obtain ⟨hstart, hstop, htakes, -⟩ := hall record hmem
          exact ⟨spec, mem_cons_self, hstart, hstop, htakes⟩
        · obtain ⟨spec', hspec', htaken⟩ := hallRest record hmem
          exact ⟨spec', mem_cons_of_mem _ hspec', htaken⟩

def StreamSpec.Covers (spec : StreamSpec) (record : TlvRecord) : Prop :=
  spec.start ≤ record.type ∧ record.type < spec.stop

instance (spec : StreamSpec) (record : TlvRecord) : Decidable (spec.Covers record) :=
  inferInstanceAs (Decidable (_ ∧ _))

/-- **The streams of a message** are the records of their ranges. -/
theorem readStreams_eq_some {specs : List StreamSpec} (hspecs : Ordered specs)
    {streams : List (List TlvRecord)} (h : readStreams fields specs records = some streams) :
    streams = specs.map fun spec => records.filter fun record => decide (spec.Covers record) := by
  induction specs generalizing records streams with
  | nil =>
    match records, h with
    | [], h => cases h; rfl
  | cons spec specs ih =>
    rw [readStreams] at h
    split at h
    · cases h
    · next stream rest hstream =>
      obtain ⟨streams, hrest, rfl⟩ := map_eq_some_iff.mp h
      obtain ⟨rfl, -, hall⟩ := readStream_eq_some hstream
      obtain ⟨hordered, hspecs⟩ := pairwise_cons.mp hspecs
      have hlater := (ascending_of_readStreams hspecs hrest).2
      rw [map_cons, List.cons.injEq]
      constructor
      · have hself : (stream.filter fun record => decide (spec.Covers record)) = stream := by
          refine filter_eq_self.mpr fun record hmem => ?_
          obtain ⟨hstart, hstop, -⟩ := hall record hmem
          exact decide_eq_true ⟨hstart, hstop⟩
        have hnil : (rest.filter fun record => decide (spec.Covers record)) = [] := by
          refine filter_eq_nil_iff.mpr fun record hmem hcovers => ?_
          obtain ⟨spec', hspec', hstart, -⟩ := hlater record hmem
          have := hordered spec' hspec'
          have := (of_decide_eq_true hcovers).2
          omega
        rw [filter_append, hself, hnil, append_nil]
      · rw [ih hspecs hrest]
        refine map_congr_left fun spec' hspec' => ?_
        have hnil : (stream.filter fun record => decide (spec'.Covers record)) = [] := by
          refine filter_eq_nil_iff.mpr fun record hmem hcovers => ?_
          have := hordered spec' hspec'
          have := (hall record hmem).2.1
          have := (of_decide_eq_true hcovers).1
          omega
        rw [filter_append, hnil, nil_append]

end PqLightning.Offers
