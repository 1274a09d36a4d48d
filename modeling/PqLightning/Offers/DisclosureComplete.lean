import PqLightning.Offers.SelectiveDisclosure

/-!
# What a payer discloses is accepted

The payer's side of a selective disclosure and the reader's side were written separately: the
signed root is computed level by level, the payer walks over the tree from the top, and the reader
walks over a tree whose shape it has decoded from the markers. This file proves that they agree, for
every stream and every choice of records to show.

The markers are followed along the stream. What is known at a record is the last marker, the shown
types since then, and the number that the next marker follows on, which is the last of all these.
All of them are below the types still to come, so a marker never reaches the type it stands for, and
it is never the one that would have continued the run before the last shown record.

Signature records are no leaves of the tree, so they cannot be shown.
-/

namespace PqLightning.Offers

open List TlvHashData Merkle

/-- The types of the records of an invoice, apart from the payer metadata and the signatures. -/
def IsInvoiceType (type : ℕ) : Prop := 1 ≤ type ∧ type ≤ 239 ∨ 1000000000 ≤ type ∧ type ≤ 3999999999

/-! ### Markers -/

theorem IsInvoiceType.le {type : ℕ} (h : IsInvoiceType type) : 1 ≤ type ∧ type ≤ 3999999999 := by
  rcases h with h | h <;> omega

theorem nextMarker_eq {prev : ℕ} (h : prev < 3999999999) :
    nextMarker prev = if 240 ≤ prev + 1 ∧ prev + 1 < 1000000000 then 1000000000 else prev + 1 := by
  have hmin : min (prev + 1) (2 ^ 64 - 1) = prev + 1 := Nat.min_eq_left (by omega)
  rw [nextMarker, hmin]
  rfl

variable {prev type : ℕ}

/-- A marker does not reach the type of the record it stands for. -/
theorem nextMarker_le (htype : IsInvoiceType type) (h : prev < type) : nextMarker prev ≤ type := by
  rw [nextMarker_eq (h.trans_le htype.le.2)]
  rcases htype with htype | htype
  · split <;> omega
  · split <;> omega

theorem lt_nextMarker (htype : IsInvoiceType type) (h : prev < type) : prev < nextMarker prev := by
  rw [nextMarker_eq (h.trans_le htype.le.2)]
  split <;> omega

variable {included : Finset ℕ} {types : List ℕ}

/-- The stream behind an omitted record, seen from its marker. -/
theorem pairwise_nextMarker (htype : IsInvoiceType type)
    (hsorted : (prev :: type :: types).Pairwise (· < ·)) :
    (nextMarker prev :: types).Pairwise (· < ·) := by
  obtain ⟨habove, hrest⟩ := pairwise_cons.mp hsorted
  obtain ⟨habove', hrest'⟩ := pairwise_cons.mp hrest
  have hle := nextMarker_le htype (habove type mem_cons_self)
  exact pairwise_cons.mpr ⟨fun t ht => hle.trans_lt (habove' t ht), hrest'⟩

/-- Every marker is above the number it follows on. -/
theorem lt_of_mem_omittedMarkersFrom (hvalid : ∀ t ∈ types, IsInvoiceType t) {prev marker : ℕ}
    (hsorted : (prev :: types).Pairwise (· < ·))
    (h : marker ∈ omittedMarkersFrom included prev types) : prev < marker := by
  induction types generalizing prev with
  | nil => simp [omittedMarkersFrom] at h
  | cons type types ih =>
    obtain ⟨habove, hrest⟩ := pairwise_cons.mp hsorted
    have hlt : prev < type := habove type mem_cons_self
    have htype := hvalid type mem_cons_self
    have hvalid' : ∀ t ∈ types, IsInvoiceType t := fun t ht => hvalid t (mem_cons_of_mem _ ht)
    rw [omittedMarkersFrom] at h
    split at h
    · exact hlt.trans (ih hvalid' hrest h)
    · rcases mem_cons.mp h with rfl | h
      · exact lt_nextMarker htype hlt
      · exact (lt_nextMarker htype hlt).trans (ih hvalid' (pairwise_nextMarker htype hsorted) h)

theorem decodePositionsFrom_nil (prev prev' : ℕ) (l : List ℕ) :
    decodePositionsFrom prev l [] = decodePositionsFrom prev' l [] := by
  induction l with
  | nil => rw [decodePositionsFrom, decodePositionsFrom]
  | cons type l ih => rw [decodePositionsFrom, decodePositionsFrom, ih]

/-- **The markers say which leaves are shown.** -/
theorem decodePositionsFrom_omittedMarkersFrom (hvalid : ∀ t ∈ types, IsInvoiceType t)
    (hsorted : (prev :: types).Pairwise (· < ·)) :
    decodePositionsFrom prev (types.filter (· ∈ included))
      (omittedMarkersFrom included prev types) = types.map fun t => decide (t ∈ included) := by
  induction types generalizing prev with
  | nil => simp [omittedMarkersFrom, decodePositionsFrom]
  | cons type types ih =>
    obtain ⟨habove, hrest⟩ := pairwise_cons.mp hsorted
    have hlt : prev < type := habove type mem_cons_self
    have htype := hvalid type mem_cons_self
    have hvalid' : ∀ t ∈ types, IsInvoiceType t := fun t ht => hvalid t (mem_cons_of_mem _ ht)
    rw [map_cons]
    by_cases hmem : type ∈ included
    · rw [filter_cons_of_pos (by simpa using hmem), omittedMarkersFrom, if_pos hmem,
        decide_eq_true hmem]
      have ih := ih hvalid' hrest
      have hmarkers : ∀ marker ∈ omittedMarkersFrom included type types, type < marker :=
        fun _ => lt_of_mem_omittedMarkersFrom hvalid' hrest
      revert ih hmarkers
      cases omittedMarkersFrom included type types with
      | nil =>
        intro ih _
        rw [decodePositionsFrom, decodePositionsFrom_nil prev type, ih]
      | cons marker markers =>
        intro ih hmarkers
        -- the next marker is above the shown type, so it does not continue the run before it
        have hne : marker ≠ nextMarker prev := by
          have := hmarkers marker mem_cons_self
          have := nextMarker_le htype hlt
          omega
        rw [decodePositionsFrom, if_neg hne, ih]
    · rw [filter_cons_of_neg (by simpa using hmem), omittedMarkersFrom, if_neg hmem,
        decide_eq_false hmem]
      have ih := ih hvalid' (pairwise_nextMarker htype hsorted)
      revert ih
      cases types.filter (· ∈ included) with
      | nil =>
        intro ih
        rw [decodePositionsFrom, ih]
      | cons shown rest =>
        intro ih
        rw [decodePositionsFrom, if_pos rfl, ih]

/-- The shown types since the last marker are passed over up to the last of them. -/
theorem advance_append {marker type : ℕ} (hnext : nextMarker type = marker) (passed rest : List ℕ)
    (hpassed : ∀ t ∈ passed, nextMarker t < marker ∧ t < marker) :
    advance marker (passed ++ type :: rest) = some rest := by
  induction passed with
  | nil => rw [nil_append, advance, if_pos hnext]
  | cons t passed ih =>
    obtain ⟨hne, hlt⟩ := hpassed t mem_cons_self
    rw [cons_append, advance, if_neg hne.ne, if_neg (Nat.not_le.mpr hlt)]
    exact ih fun t ht => hpassed t (mem_cons_of_mem _ ht)

/-- **The markers pass the check.** Behind `passed`, the shown types since the last marker, the
iterator of the check stands at the shown types still to come; `prev` is the number that the next
marker follows on. -/
theorem validateFrom_omittedMarkersFrom (passed : List ℕ) {last prev : ℕ}
    (hvalid : ∀ t ∈ passed ++ types, IsInvoiceType t)
    (hsorted : (last :: (passed ++ types)).Pairwise (· < ·))
    (hprev : (last :: passed).getLast? = some prev)
    (hcover : ∀ t ∈ included, t ≤ prev ∨ t ∈ types) :
    validateFrom included (passed ++ types.filter (· ∈ included)) (nextMarker last) last
      (omittedMarkersFrom included prev types) = .ok () := by
  induction types generalizing passed last prev with
  | nil => rw [omittedMarkersFrom, validateFrom]
  | cons type types ih =>
    have hassoc : passed ++ type :: types = (passed ++ [type]) ++ types := by simp
    have htype : IsInvoiceType type := hvalid type (by simp)
    obtain ⟨hsortedPassed, hsortedTypes, hacross⟩ := pairwise_append.mp (cons_append ▸ hsorted)
    have hprevMem : prev ∈ last :: passed := mem_of_getLast? hprev
    have hlt : prev < type := hacross prev hprevMem type mem_cons_self
    by_cases hmem : type ∈ included
    · rw [filter_cons_of_pos (by simpa using hmem), omittedMarkersFrom, if_pos hmem]
      have hcover' : ∀ t ∈ included, t ≤ type ∨ t ∈ types := by
        intro t ht
        rcases hcover t ht with hle | hin
        · exact .inl (hle.trans hlt.le)
        · exact (mem_cons.mp hin).imp_left le_of_eq
      have hshown := ih _ (by rwa [← hassoc]) (by rwa [← hassoc])
        (by rw [← cons_append, getLast?_concat]) hcover'
      rwa [append_assoc] at hshown
    · rw [filter_cons_of_neg (by simpa using hmem), omittedMarkersFrom, if_neg hmem]
      have hmarker := lt_nextMarker htype hlt
      have hle := nextMarker_le htype hlt
      -- the shown types are those up to `prev` and those above the omitted one
      have hnotMem : nextMarker prev ∉ included := by
        intro hin
        rcases hcover _ hin with hbelow | habove
        · omega
        · rcases mem_cons.mp habove with heq | habove
          · exact hmem (heq ▸ hin)
          · have := (pairwise_cons.mp hsortedTypes).1 _ habove
            omega
      have hcover' : ∀ t ∈ included, t ≤ nextMarker prev ∨ t ∈ types := by
        intro t ht
        rcases hcover t ht with hbelow | habove
        · exact .inl (hbelow.trans hmarker.le)
        · rcases mem_cons.mp habove with heq | habove
          · exact absurd (heq ▸ ht) hmem
          · exact .inr habove
      have hvalid' : ∀ t ∈ [] ++ types, IsInvoiceType t := fun t ht =>
        hvalid t (mem_append_right _ (mem_cons_of_mem _ ht))
      have hsorted' := pairwise_nextMarker htype
        (pairwise_cons.mpr ⟨hacross prev hprevMem, hsortedTypes⟩)
      have hrest := ih _ hvalid' hsorted' (getLast?_singleton ..) hcover'
      have hlast : last ≤ prev := by
        rcases mem_cons.mp hprevMem with rfl | hin
        · exact le_rfl
        · exact ((pairwise_cons.mp hsortedPassed).1 _ hin).le
      have hnonzero : nextMarker prev ≠ payerMetadataType :=
        Nat.ne_of_gt (Nat.zero_lt_of_lt hmarker)
      rw [validateFrom, if_neg hnonzero, if_neg (by omega), if_neg hnotMem]
      rcases eq_nil_or_concat' passed with rfl | ⟨passed, shown, rfl⟩
      · -- the run goes on
        have hrun : last = prev := by simpa using hprev
        rw [hrun, if_pos rfl]
        exact hrest
      · -- a run starts behind the last shown type
        have hshown : shown = prev := by
          rwa [← cons_append, getLast?_concat, Option.some.injEq] at hprev
        subst hshown
        have hshownType : IsInvoiceType shown := hvalid shown (by simp)
        have hbefore : ∀ t ∈ last :: passed, nextMarker t < nextMarker shown ∧ t <
          nextMarker shown := by
          intro t ht
          rw [← cons_append] at hsortedPassed
          have htlt := (pairwise_append.mp hsortedPassed).2.2 t ht shown (mem_singleton_self _)
          exact ⟨(nextMarker_le hshownType htlt).trans_lt hmarker, htlt.trans hmarker⟩
        rw [if_neg (hbefore last mem_cons_self).1.ne', append_assoc, singleton_append,
          advance_append rfl passed _ fun t ht => hbefore t (mem_cons_of_mem _ ht)]
        exact hrest

/-! ### Streams -/

/-- A stream that an invoice can have: the types go up, the first record is the payer metadata, and
the others are in the invoice ranges or are signatures. -/
structure InvoiceStream where
  first : TlvRecord
  rest : List TlvRecord
  first_type : first.type = payerMetadataType
  ascending : ((first :: rest).map TlvRecord.type).Pairwise (· < ·)
  others : ∀ record ∈ rest, IsSignatureType record.type ∨ IsInvoiceType record.type

namespace InvoiceStream

variable (stream : InvoiceStream)

def records : List TlvRecord := stream.first :: stream.rest

def leafTypes : List ℕ := (nonSignature stream.rest).map TlvRecord.type

/-- The types can be shown: they are types of leaves of the tree, apart from the payer metadata. -/
def Shows (included : Finset ℕ) : Prop :=
  ∀ type ∈ included, type ≠ payerMetadataType ∧ ¬ IsSignatureType type ∧
    ∃ record ∈ stream.records, record.type = type

def shown (included : Finset ℕ) : List TlvRecord :=
  stream.records.filter fun record => decide (record.type ∈ included)

theorem nonSignature_records : nonSignature stream.records =
    stream.first :: nonSignature stream.rest := by
  rw [records, nonSignature, nonSignature, filter_cons_of_pos]
  rw [stream.first_type]
  decide

theorem isInvoiceType_of_mem_leafTypes (h : type ∈ stream.leafTypes) : IsInvoiceType type := by
  obtain ⟨record, hrecord, rfl⟩ := mem_map.mp h
  obtain ⟨hmem, hsignature⟩ := mem_filter.mp hrecord
  exact (stream.others record hmem).resolve_left (by simpa using hsignature)

theorem pairwise_leafTypes : (payerMetadataType :: stream.leafTypes).Pairwise (· < ·) := by
  have hsub : (payerMetadataType :: stream.leafTypes).Sublist
      ((stream.first :: stream.rest).map TlvRecord.type) := by
    rw [map_cons, stream.first_type]
    exact ((filter_sublist).map _).cons_cons _
  exact stream.ascending.sublist hsub

variable {stream} {included : Finset ℕ}

section

variable (h : stream.Shows included)

include h

theorem Shows.mem_leafTypes (hmem : type ∈ included) : type ∈ stream.leafTypes := by
  obtain ⟨hnonzero, hsignature, record, hrecord, rfl⟩ := h type hmem
  rcases mem_cons.mp hrecord with rfl | hrest
  · exact absurd stream.first_type hnonzero
  · exact mem_map_of_mem (mem_filter.mpr ⟨hrest, by simpa using hsignature⟩)

theorem Shows.payerMetadata : payerMetadataType ∉ included := fun hmem => (h _ hmem).1 rfl

/-- Only leaves are shown. -/
theorem Shows.shown_eq :
    stream.shown included =
      (nonSignature stream.rest).filter fun record => decide (record.type ∈ included) := by
  have hfirst : stream.first.type ∉ included := stream.first_type ▸ h.payerMetadata
  rw [shown, records, filter_cons_of_neg (by simpa using hfirst), nonSignature, filter_filter]
  refine filter_congr fun record _ => ?_
  by_cases hmem : record.type ∈ included
  · simp [hmem, (h _ hmem).2.1]
  · simp [hmem]

theorem Shows.map_type_shown :
    (stream.shown included).map TlvRecord.type = stream.leafTypes.filter (· ∈ included) := by
  rw [h.shown_eq, leafTypes, filter_map]
  rfl

/-- The reader finds the shown types in the records it is given. -/
theorem Shows.toFinset_shown :
    ((stream.shown included).map TlvRecord.type).toFinset = included := by
  rw [h.map_type_shown]
  ext type
  rw [mem_toFinset, mem_filter, decide_eq_true_eq, and_iff_right_iff_imp]
  exact h.mem_leafTypes

theorem Shows.sort_eq : included.sort (· ≤ ·) = stream.leafTypes.filter (· ∈ included) := by
  have hsorted : (stream.leafTypes.filter (· ∈ included)).Pairwise (· < ·) :=
    ((pairwise_cons.mp stream.pairwise_leafTypes).2).sublist filter_sublist
  have hsort := (toFinset_sort (· ≤ ·) hsorted.nodup).mpr (hsorted.imp le_of_lt)
  rwa [← h.map_type_shown, h.toFinset_shown, h.map_type_shown] at hsort

end

end InvoiceStream

/-! ### The payer and the reader -/

section

variable {Hash : Type} [LinearOrder Hash] (hashes : TaggedHashes Hash)

@[simp] theorem indexed_append_length {α : Type} (before : List α) (a : α) (rest : List α) :
    indexed (before ++ a :: rest) before.length = .ok a := by
  simp [indexed]

/-- The leaves that the reader computes are those of the signed tree, the others are missing. -/
theorem positionHashes_disclosed (included : Finset ℕ) (first : TlvRecord)
    (records : List TlvRecord)
    (before : List TlvRecord) (nonces : List Hash) (hlength : before.length = nonces.length) :
    positionHashes hashes (before ++ records.filter fun record => decide (record.type ∈ included))
      (nonces ++ ((records.map (tlvHashData hashes first)).filter fun data =>
        decide (data.tlvType ∈ included)).map nonceHash)
      (records.map fun record => decide (record.type ∈ included)) before.length =
    .ok (((records.map (tlvHashData hashes first)).map (disclosed included)).map keep) := by
  induction records generalizing before nonces with
  | nil => rfl
  | cons record records ih =>
    have hdata : (tlvHashData hashes first record).tlvType = record.type := rfl
    by_cases hmem : record.type ∈ included
    · have ih := ih (before ++ [record]) (nonces ++ [(tlvHashData hashes first record).nonceHash])
        (by simpa using hlength)
      rw [length_append, length_singleton, append_assoc, append_assoc,
        singleton_append, singleton_append] at ih
      rw [filter_cons_of_pos (by simpa using hmem), map_cons, map_cons,
        map_cons, map_cons, filter_cons_of_pos (by simpa [hdata] using hmem),
        map_cons, decide_eq_true hmem, positionHashes, indexed_append_length, ok_bind, hlength,
        indexed_append_length, ok_bind, ← hlength, ih]
      simp [keep, disclosed, hmem, ok_bind, tlvHashData, pure, Except.pure]
    · rw [filter_cons_of_neg (by simpa using hmem), map_cons, map_cons,
        map_cons, map_cons, filter_cons_of_neg (by simpa [hdata] using hmem),
        decide_eq_false hmem, positionHashes, ih before nonces hlength]
      simp [keep, disclosed, hdata, hmem, ok_bind, pure, Except.pure]

variable {hashes} {stream : InvoiceStream} {included : Finset ℕ}

def InvoiceStream.tlvData (hashes : TaggedHashes Hash) (stream : InvoiceStream) :
    List (TlvHashData Hash) :=
  (nonSignature stream.records).map (tlvHashData hashes stream.first)

def InvoiceStream.nonceHashes (hashes : TaggedHashes Hash) (stream : InvoiceStream)
    (included : Finset ℕ) : List Hash :=
  ((stream.tlvData hashes).filter fun data => decide (data.tlvType ∈ included)).map
    nonceHash

theorem merkleTlvData_records : merkleTlvData hashes stream.records = .ok (stream.tlvData hashes) :=
    rfl

variable (hashes stream) in
theorem map_tlvType_tlvData :
    (stream.tlvData hashes).map tlvType = payerMetadataType :: stream.leafTypes := by
  rw [InvoiceStream.tlvData, stream.nonSignature_records, map_map, map_cons,
    InvoiceStream.leafTypes, ← stream.first_type]
  rfl

theorem computeOmittedMarkers_tlvData :
    computeOmittedMarkers ((stream.tlvData hashes).map tlvType) included =
      omittedMarkersFrom included payerMetadataType stream.leafTypes := by
  have hfilter : stream.leafTypes.filter (· ≠ payerMetadataType) = stream.leafTypes :=
    filter_eq_self.mpr fun type hmem => by
      have hpos := (pairwise_cons.mp stream.pairwise_leafTypes).1 type hmem
      simpa using hpos.ne'
  rw [computeOmittedMarkers, map_tlvType_tlvData, filter_cons_of_neg (by simp), hfilter]

theorem validateOmittedMarkers_tlvData (h : stream.Shows included) :
    validateOmittedMarkers (omittedMarkersFrom included payerMetadataType stream.leafTypes)
      included = .ok () := by
  rw [validateOmittedMarkers, h.sort_eq]
  exact validateFrom_omittedMarkersFrom [] (fun _ => stream.isInvoiceType_of_mem_leafTypes)
    stream.pairwise_leafTypes rfl
    fun _ hmem => .inr (h.mem_leafTypes hmem)

theorem decodePositions_tlvData (h : stream.Shows included) :
    decodePositions ((stream.shown included).map TlvRecord.type)
        (omittedMarkersFrom included payerMetadataType stream.leafTypes) =
      (nonSignature stream.records).map fun record => decide (record.type ∈ included) := by
  have hfirst : stream.first.type ∉ included := stream.first_type ▸ h.payerMetadata
  rw [decodePositions, h.map_type_shown, decodePositionsFrom_omittedMarkersFrom
    (fun _ => stream.isInvoiceType_of_mem_leafTypes) stream.pairwise_leafTypes,
    stream.nonSignature_records, map_cons, decide_eq_false hfirst, InvoiceStream.leafTypes,
    map_map]
  rfl

/-- The shown leaves, one after the other, for the loop of the reader. -/
theorem positionHashes_tlvData (h : stream.Shows included) :
    positionHashes hashes (stream.shown included)
        (stream.nonceHashes hashes included) ((nonSignature stream.records).map fun record =>
          decide (record.type ∈ included)) 0 =
      .ok (((stream.tlvData hashes).map (disclosed included)).map keep) := by
  have hshown : stream.shown included =
      (nonSignature stream.records).filter fun record => decide (record.type ∈ included) := by
    have hfirst : stream.first.type ∉ included := stream.first_type ▸ h.payerMetadata
    rw [h.shown_eq, stream.nonSignature_records, filter_cons_of_neg (by simpa using hfirst)]
  rw [hshown]
  exact positionHashes_disclosed hashes included stream.first (nonSignature stream.records) [] []
    rfl

variable (hashes) in
theorem length_shown (h : stream.Shows included) :
    (stream.shown included).length = (stream.nonceHashes hashes included).length := by
  have hfirst : stream.first.type ∉ included := stream.first_type ▸ h.payerMetadata
  rw [h.shown_eq, InvoiceStream.nonceHashes, length_map, InvoiceStream.tlvData,
    stream.nonSignature_records, filter_map, length_map,
    filter_cons_of_neg (by simp [tlvHashData, hfirst])]
  rfl

theorem any_disclosed (hne : included.Nonempty) (h : stream.Shows included) :
    (((stream.tlvData hashes).map (disclosed included)).any Prod.snd) = true := by
  obtain ⟨type, hmem⟩ := hne
  have hleaf : type ∈ (stream.tlvData hashes).map tlvType :=
    map_tlvType_tlvData hashes stream ▸ mem_cons_of_mem _ (h.mem_leafTypes hmem)
  obtain ⟨data, hdata, rfl⟩ := mem_map.mp hleaf
  rw [any_eq_true]
  exact ⟨_, mem_map_of_mem hdata, by simpa [disclosed] using hmem⟩

variable (hashes stream) in
theorem tlvData_ne_nil : stream.tlvData hashes ≠ [] := by
  rw [InvoiceStream.tlvData, stream.nonSignature_records]
  exact cons_ne_nil _ _

variable (hashes stream included) in
/-- The payer's way over the tree ends at the signed root. -/
theorem exists_buildTreeDfs :
    ∃ root kept missing,
      buildTreeDfs hashes (stream.tlvData hashes) included [] = some ((root, kept), missing) ∧
      rootHash hashes stream.records = .ok root := by
  obtain ⟨root, missing, hdisclose, hroot⟩ := disclose_eq (taggedBranchHash hashes)
    ((stream.tlvData hashes).map (disclosed included))
    (by simpa using tlvData_ne_nil hashes stream) []
  refine ⟨root, _, missing, hdisclose, (rootHash_eq_ok_iff hashes).mpr
    ⟨_, merkleTlvData_records, ?_⟩⟩
  rwa [map_map] at hroot

/-- The reader, given what the payer has found on its way over the tree. -/
theorem reconstructMerkleRoot_of_disclose (hne : included.Nonempty) (hshows : stream.Shows included)
    {root : Hash} {kept : Bool} {missing : List Hash}
    (h : buildTreeDfs hashes (stream.tlvData hashes) included [] = some ((root, kept), missing)) :
    reconstructMerkleRoot hashes (stream.shown included) (stream.nonceHashes hashes included)
      (omittedMarkersFrom included payerMetadataType stream.leafTypes) missing = .ok root := by
  have hnonempty : (stream.tlvData hashes).map (disclosed included) ≠ [] := by
    simpa using tlvData_ne_nil hashes stream
  obtain ⟨_, _, hdisclose, -⟩ := disclose_eq (taggedBranchHash hashes) _ hnonempty []
  obtain ⟨htop, rfl⟩ := Prod.mk.inj (Option.some.inj (h.symm.trans hdisclose))
  obtain ⟨rfl, -⟩ := Prod.mk.inj htop
  obtain ⟨_, rfl, hrebuild⟩ := rebuild_of_disclose _ hdisclose
  rw [any_disclosed hne hshows] at hrebuild
  rw [reconstructMerkleRoot_eq_ok_iff, hshows.toFinset_shown, decodePositions_tlvData hshows]
  refine ⟨validateOmittedMarkers_tlvData hshows, length_shown hashes hshows, _,
    positionHashes_tlvData hshows, ?_⟩
  rw [hrebuild _ 0 (prefix_refl _), Nat.zero_add]
  rfl

variable (hashes) in
/-- **What a payer discloses is accepted.** The root of the payer is the signed root, its markers
pass the check and say which leaves are shown, and the reader gets the signed root from the shown
records and what was disclosed beside them. -/
theorem computeSelectiveDisclosure_accepted (stream : InvoiceStream) {included : Finset ℕ}
    (hne : included.Nonempty) (hshows : stream.Shows included) :
    ∃ disclosure root,
      computeSelectiveDisclosure hashes stream.records included = .ok disclosure ∧
      rootHash hashes stream.records = .ok root ∧
      disclosure.merkleRoot = root ∧
      validateOmittedMarkers disclosure.omittedMarkers included = .ok () ∧
      decodePositions ((stream.shown included).map TlvRecord.type) disclosure.omittedMarkers =
        ((nonSignature stream.records).map fun record => decide (record.type ∈ included)) ∧
      reconstructMerkleRoot hashes (stream.shown included) disclosure.nonceHashes
        disclosure.omittedMarkers disclosure.missingHashes = .ok root := by
  obtain ⟨root, kept, missing, hbuild, hroot⟩ := exists_buildTreeDfs hashes stream included
  refine ⟨⟨stream.nonceHashes hashes included,
    omittedMarkersFrom included payerMetadataType stream.leafTypes, missing, root⟩, root, ?_, hroot,
      rfl,
    validateOmittedMarkers_tlvData hshows, decodePositions_tlvData hshows,
    reconstructMerkleRoot_of_disclose hne hshows hbuild⟩
  rw [computeSelectiveDisclosure, Panic.unless_of _ hshows.payerMetadata, ok_bind,
    merkleTlvData_records, ok_bind, Panic.unless_of _ (tlvData_ne_nil hashes stream), ok_bind,
    hbuild, computeOmittedMarkers_tlvData]
  rfl

end

def describedStream : InvoiceStream where
  first := smallRecord 0 none
  rest := [smallRecord 10 (some 1), smallRecord 22 (some 2)]
  first_type := rfl
  ascending := by decide
  others := by
    intro record hmem
    simp only [mem_cons, not_mem_nil, or_false] at hmem
    rcases hmem with rfl | rfl
    · exact .inr (.inl ⟨by decide, by decide⟩)
    · exact .inr (.inl ⟨by decide, by decide⟩)

theorem describedStream_shows : describedStream.Shows {10} := by
  intro type hmem
  rw [Finset.mem_singleton.mp hmem]
  exact ⟨by decide, by decide, smallRecord 10 (some 1), by decide, rfl⟩

/-- The description can be shown without the rest. -/
theorem describedStream_accepted :
    ({10} : Finset ℕ).Nonempty ∧ describedStream.Shows {10} ∧
    ∃ disclosure root,
      computeSelectiveDisclosure natHashes describedStream.records {10} = .ok disclosure ∧
      rootHash natHashes describedStream.records = .ok root ∧
      disclosure.merkleRoot = root ∧
      validateOmittedMarkers disclosure.omittedMarkers {10} = .ok () ∧
      decodePositions ((describedStream.shown {10}).map TlvRecord.type) disclosure.omittedMarkers =
        ((nonSignature describedStream.records).map fun record => decide
          (record.type ∈ ({10} : Finset ℕ))) ∧
      reconstructMerkleRoot natHashes (describedStream.shown {10}) disclosure.nonceHashes
        disclosure.omittedMarkers disclosure.missingHashes = .ok root :=
  ⟨⟨10, by decide⟩, describedStream_shows,
    computeSelectiveDisclosure_accepted natHashes describedStream ⟨10, by decide⟩
      describedStream_shows⟩

def signedStream : InvoiceStream where
  first := smallRecord 0 none
  rest := [smallRecord 240 none]
  first_type := rfl
  ascending := by decide
  others := by
    intro record hmem
    rw [mem_singleton.mp hmem]
    exact .inl ⟨le_rfl, by decide⟩

/-- **A signature record is no leaf of the tree**, so the payer does not show it properly: the
reader misses the hash of its type. -/
theorem signature_not_disclosed :
    ∃ disclosure,
      computeSelectiveDisclosure natHashes signedStream.records {240} = .ok disclosure ∧
      reconstructMerkleRoot natHashes (signedStream.shown {240}) disclosure.nonceHashes
        disclosure.omittedMarkers disclosure.missingHashes =
          .error (.err .leafHashCountMismatch) := by
  refine ⟨⟨[], [], [], taggedBranchHash natHashes (natHashes.leaf signedStream.first.recordBytes)
    (natHashes.nonce signedStream.first.recordBytes signedStream.first.typeBytes)⟩, ?_, ?_⟩
  · have hdata : merkleTlvData natHashes signedStream.records =
        .ok [tlvHashData natHashes signedStream.first signedStream.first] := rfl
    rw [computeSelectiveDisclosure, hdata, ok_bind, buildTreeDfs, map_singleton, disclose]
    rfl
  · rfl

end PqLightning.Offers
