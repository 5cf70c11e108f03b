import Callbook.Python.Records

/-!
# Reading the records

Read through a pointer to an object, a record says what the result says that the object was made
from; for null there is no record.
-/

namespace Callbook.Python

open Text Handles Ffi

variable {Obj α β γ : Type}

/-! ### The records say it -/

lemma decode_toCstring (s : Str) : decode (toCstring s) = text s := by
  refine Utf8.fromUtf8Lossy_map (fun b hb => ?_) (fun b hb => ?_) s
  · split_ifs
    · decide
    · exact hb
  · rw [if_neg]
    rintro rfl
    revert hb
    decide

lemma optionalInt_orMinusOne (n : Option ℕ) : optionalInt (orMinusOne n) = n := by
  cases n with
  | none => rfl
  | some n =>
    rw [orMinusOne, Option.elim_some, optionalInt, if_neg (by omega), Int.toNat_natCast]

lemma lookupStatusName_ffiStatus (status : LookupStatus) :
    lookupStatusName (ffiStatus status) = statusName status := by
  cases status <;> rfl

lemma jurisdictionName_ffiJurisdiction (jurisdiction : Jurisdiction) :
    jurisdictionName (ffiJurisdiction jurisdiction) = ofJurisdiction jurisdiction := by
  cases jurisdiction <;> rfl

lemma assetKindName_ffiAssetKind (kind : AssetKind) :
    assetKindName (ffiAssetKind kind) = ofAssetKind kind := by
  cases kind <;> rfl

/-- The fields of a snapshot object stand in the order of their names. -/
lemma snapshotFields_eq (s : Callbook.CallSnapshot) :
    (CallbookSnapshot.ofCallSnapshot s).fields =
      (namedFields s).map fun p => toCstring (p.2.getD []) := by
  simp only [CallbookSnapshot.ofCallSnapshot, snapshotFields, setField, ModernField.toNat,
    modernFieldCount, List.replicate_succ, List.replicate_zero, List.set_cons_succ,
    List.set_cons_zero, namedFields, List.map_cons, List.map_nil]

lemma fieldNames_eq (s : Callbook.CallSnapshot) :
    fieldNames = (namedFields s).mapIdx fun i p => (p.1, (i : ℤ)) := by
  simp [fieldNames, namedFields]

lemma usFields_eq (record : UsCsvRecord) :
    (CallbookUsRecord.ofUsCsvRecord record).fields =
      (namedUsFields record).map fun p => toCstring p.2 := by
  simp only [CallbookUsRecord.ofUsCsvRecord, UsField.toNat, usFieldCount, List.replicate_succ,
    List.replicate_zero, List.set_cons_succ, List.set_cons_zero, namedUsFields, List.map_cons,
    List.map_nil]

lemma usFieldNames_eq (record : UsCsvRecord) :
    usFieldNames = (namedUsFields record).mapIdx fun i p => (p.1, (i : ℤ)) := by
  simp [usFieldNames, namedUsFields]

section Reading

variable {heap : Heap Obj} {p : Pointer Obj α}

/-- A table that numbers the fields in their order gives each its text. -/
lemma readFields_eq {a : α} (h : p.asRef heap = some (some a)) {fields : α → List Bytes}
    {names : List (String × ℤ)} {texts : List (String × β)} {value : β → Str}
    (hnames : names = texts.mapIdx fun i q => (q.1, (i : ℤ)))
    (hfields : fields a = texts.map fun q => toCstring (value q.2)) :
    readFields names (textField p fields) heap =
      some (texts.map fun q => (q.1, text (value q.2))) := by
  have hread : ∀ q ∈ names, (do pure (q.1, decode (← textField p fields q.2)) :
      Read Obj (String × Str)) heap =
        some (q.1, decode (if q.2 < 0 then [] else (fields a)[q.2.toNat]?.getD [])) := by
    intro q _
    rw [Read.bind_apply, textField, Pointer.read_of_asRef h]
    rfl
  rw [readFields, Read.mapM_apply hread, hnames, hfields]
  congr 1
  apply List.ext_getElem?
  intro i
  simp only [List.getElem?_map, List.getElem?_mapIdx, Option.map_map]
  cases hq : texts[i]? with
  | none => rfl
  | some q =>
    have hi : ¬ (i : ℤ) < 0 := by omega
    simp [hq, hi, decode_toCstring]

lemma filterMap_getElem?_range (l : List β) (f : β → γ) (n : ℕ) :
    ((List.range n).map fun i => l[i]?.map f).filterMap id = (l.take n).map f := by
  induction n with
  | zero => rfl
  | succ n ih =>
    rw [List.range_succ, List.map_append, List.filterMap_append, ih, List.take_add_one,
      List.map_append, List.map_singleton]
    cases l[n]? <;> rfl

/-- A list behind a pointer is read up to the largest index. -/
lemma readList_eq {δ : Type} {a : Option α} (h : p.asRef heap = some a) {list : α → List β}
    {null : ℤ} (hnull : null ≤ 0) {items : List δ} {c : δ → β}
    (hitems : a.elim [] list = items.map c) {fromPtr : Pointer Obj β → Read Obj (Option γ)}
    {f : δ → γ} (hfrom : ∀ x (q : Pointer Obj β),
      q.asRef heap = some (some (c x)) → fromPtr q heap = some (some (f x))) :
    readList (listLen p null list) (listGet p list) fromPtr heap =
      some ((items.take maxLen).map f) := by
  rw [readList, Read.bind_apply, listLen, Pointer.read_of_asRef h, Option.bind_some]
  cases a with
  | none =>
    obtain rfl : items = [] := List.map_eq_nil_iff.mp hitems.symm
    rw [Option.elim_none, Int.toNat_of_nonpos hnull]
    rfl
  | some a =>
    rw [Option.elim_some] at hitems
    rw [Option.elim_some, toInt_clampLen, Int.toNat_natCast, hitems, List.length_map]
    set n := min items.length (2 ^ 31 - 1)
    have hitem : ∀ i ∈ List.range n, (do fromPtr (← listGet p list i) : Read Obj (Option γ)) heap =
        some (items[i]?.map f) := by
      intro i hi
      have hlt : i < items.length := by
        rw [List.mem_range] at hi
        omega
      obtain ⟨q, hq, href⟩ := Pointer.asRef_of_borrow h fun a =>
        if (i : ℤ) < 0 then none else (list a)[(i : ℤ).toNat]?
      rw [Option.bind_some, if_neg (by omega), Int.toNat_natCast, hitems, List.getElem?_map,
        List.getElem?_eq_getElem hlt, Option.map_some] at href
      rw [Read.bind_apply, listGet, hq, Option.bind_some, hfrom _ q href,
        List.getElem?_eq_getElem hlt, Option.map_some]
    rw [Read.bind_apply, Read.mapM_apply hitem, Option.bind_some, Read.pure_apply,
      filterMap_getElem?_range, maxLen, List.take_eq_take_iff.mpr]
    omega

lemma ResolvedInterest.fromPtr_eq {p : Pointer Obj CallbookInterest}
    {x : Option Callbook.ResolvedInterest}
    (h : p.asRef heap = some (x.map .ofResolvedInterest)) :
    fromPtr p heap = some (x.map .ofResolvedInterest) := by
  have hnull := Pointer.address_eq_zero_iff h
  rw [fromPtr]
  cases x with
  | none => rw [if_pos (hnull.mpr rfl)]; rfl
  | some x =>
    rw [if_neg (by simp [hnull])]
    simp [callbookInterestCode, callbookInterestCategory, callbookInterestLabel,
      Pointer.read_of_asRef h, CallbookInterest.ofResolvedInterest, decode_toCstring,
      ofResolvedInterest]

lemma CallSnapshot.fromPtr_eq {p : Pointer Obj CallbookSnapshot}
    {x : Option Callbook.CallSnapshot} (h : p.asRef heap = some (x.map .ofCallSnapshot)) :
    fromPtr p heap = some (x.map .ofCallSnapshot) := by
  have hnull := Pointer.address_eq_zero_iff h
  rw [fromPtr]
  cases x with
  | none => rw [if_pos (hnull.mpr rfl)]; rfl
  | some x =>
    rw [if_neg (by simp [hnull])]
    have hfields : readFields fieldNames (callbookSnapshotField p) heap =
        some ((namedFields x).map fun q => (q.1, text (q.2.getD []))) :=
      @readFields_eq Obj _ _ heap p _ h CallbookSnapshot.fields _ (namedFields x)
        (fun value => value.getD []) (fieldNames_eq x) (snapshotFields_eq x)
    have hinterests : readList (callbookSnapshotInterestLen p) (callbookSnapshotInterestGet p)
        ResolvedInterest.fromPtr heap =
          some ((x.interests.take maxLen).map .ofResolvedInterest) :=
      readList_eq h le_rfl rfl fun interest q hq =>
        ResolvedInterest.fromPtr_eq (x := some interest) hq
    simp [hfields, hinterests, callbookSnapshotVintage, callbookSnapshotSourceFlags,
      callbookSnapshotJurisdiction, Pointer.read_of_asRef h, CallbookSnapshot.ofCallSnapshot,
      optionalInt_orMinusOne, jurisdictionName_ffiJurisdiction, ofCallSnapshot, namedFields]

lemma CountryInfo.fromPtr_eq {p : Pointer Obj CallbookCountryInfo}
    {x : Option Callbook.CountryInfo} (h : p.asRef heap = some (x.map .ofCountryInfo)) :
    fromPtr p heap = some (.ok (x.map .ofCountryInfo)) := by
  have hnull := Pointer.address_eq_zero_iff h
  rw [fromPtr]
  cases x with
  | none => rw [if_pos (hnull.mpr rfl)]; rfl
  | some x =>
    rw [if_neg (by simp [hnull])]
    have hcoordinate : ∀ value : CallbookCountryInfo → Option F64,
        optionalFloatFrom (coordinate p value) heap =
          some (.ok (value (.ofCountryInfo x))) := by
      intro value
      rw [optionalFloatFrom, coordinate, Read.bind_apply, Pointer.read_of_asRef h]
      simp only [Option.map_some, Option.elim_some, Option.bind_some]
      cases value (.ofCountryInfo x) with
      | none => rfl
      | some value => rfl
    have hnone : orNone (text []) = none := rfl
    simp only [Read.bind_apply, callbookCountryCode, callbookCountryContinent, callbookCountryName,
      callbookCountryCleanedName, callbookCountryJurisdiction, callbookCountryItuZone,
      callbookCountryCqZone, callbookCountryLatitude, callbookCountryLongitude,
      callbookCountryNumericCode, callbookCountrySourceValue, Pointer.read_of_asRef h,
      Option.bind_some, hcoordinate, Read.pure_apply]
    simp only [Option.map_some, Option.elim_some, CallbookCountryInfo.ofCountryInfo,
      decode_toCstring, jurisdictionName_ffiJurisdiction, optionalInt_orMinusOne, ofCountryInfo]
    cases x.code <;> cases x.continent <;> simp [hnone]

lemma LookupCount.fromPtr_eq {p : Pointer Obj CallbookLookupCount}
    {x : Option LookupCountRecord} (h : p.asRef heap = some (x.map .ofLookupCountRecord)) :
    fromPtr p heap = some (x.map .ofLookupCountRecord) := by
  have hnull := Pointer.address_eq_zero_iff h
  rw [fromPtr]
  cases x with
  | none => rw [if_pos (hnull.mpr rfl)]; rfl
  | some x =>
    rw [if_neg (by simp [hnull])]
    have hnone : orNone (text []) = none := rfl
    simp only [Read.bind_apply, callbookLookupCountKey, callbookLookupCountValue,
      callbookLookupCountUpdatedYyyymmdd, callbookLookupCountStatus, Pointer.read_of_asRef h,
      Option.bind_some, Read.pure_apply]
    simp only [Option.map_some, Option.elim_some, CallbookLookupCount.ofLookupCountRecord,
      decode_toCstring, optionalInt_orMinusOne, ofLookupCountRecord]
    cases x.status <;> simp [hnone]

lemma Asset.fromPtr_eq {p : Pointer Obj CallbookAsset} {pathText : Path → Str}
    {x : Option AssetMetadata} (h : p.asRef heap = some (x.map (.ofAsset pathText))) :
    fromPtr p heap = some (x.map (.ofAsset pathText)) := by
  have hnull := Pointer.address_eq_zero_iff h
  rw [fromPtr]
  cases x with
  | none => rw [if_pos (hnull.mpr rfl)]; rfl
  | some x =>
    rw [if_neg (by simp [hnull])]
    simp [callbookAssetKindValue, callbookAssetKey, callbookAssetMediaType, callbookAssetPath,
      Pointer.read_of_asRef h, CallbookAsset.ofAsset, decode_toCstring,
      assetKindName_ffiAssetKind, ofAsset]

lemma UsRecord.fromPtr_eq {p : Pointer Obj CallbookUsRecord} {x : Option UsCsvRecord}
    (h : p.asRef heap = some (x.map .ofUsCsvRecord)) :
    fromPtr p heap = some (x.map .ofUsCsvRecord) := by
  have hnull := Pointer.address_eq_zero_iff h
  rw [fromPtr]
  cases x with
  | none => rw [if_pos (hnull.mpr rfl)]; rfl
  | some x =>
    rw [if_neg (by simp [hnull])]
    have hfields : readFields usFieldNames (callbookUsRecordField p) heap =
        some ((namedUsFields x).map fun q => (q.1, text q.2)) :=
      @readFields_eq Obj _ _ heap p _ h CallbookUsRecord.fields _ (namedUsFields x)
        id (usFieldNames_eq x) (usFields_eq x)
    simp [hfields, ofUsCsvRecord]

lemma InterestDefinition.fromPtr_eq {p : Pointer Obj CallbookInterestDefinition}
    {x : Option Callbook.InterestDefinition}
    (h : p.asRef heap = some (x.map .ofInterestDefinition)) :
    fromPtr p heap = some (x.map .ofInterestDefinition) := by
  have hnull := Pointer.address_eq_zero_iff h
  rw [fromPtr]
  cases x with
  | none => rw [if_pos (hnull.mpr rfl)]; rfl
  | some x =>
    rw [if_neg (by simp [hnull])]
    simp [callbookInterestDefinitionCode, callbookInterestDefinitionCategory,
      callbookInterestDefinitionLabel, Pointer.read_of_asRef h,
      CallbookInterestDefinition.ofInterestDefinition, decode_toCstring, ofInterestDefinition]

lemma InterestSearchMatch.fromPtr_eq {p : Pointer Obj CallbookInterestSearchMatch}
    {x : Option Callbook.InterestSearchMatch}
    (h : p.asRef heap = some (x.map .ofInterestSearchMatch)) :
    fromPtr p heap = some (x.map .ofInterestSearchMatch) := by
  have hnull := Pointer.address_eq_zero_iff h
  rw [fromPtr]
  cases x with
  | none => rw [if_pos (hnull.mpr rfl)]; rfl
  | some x =>
    rw [if_neg (by simp [hnull])]
    simp [callbookInterestSearchMatchCallsign, callbookInterestSearchMatchVintage,
      Pointer.read_of_asRef h, CallbookInterestSearchMatch.ofInterestSearchMatch,
      decode_toCstring, optionalInt_orMinusOne, ofInterestSearchMatch]

end Reading

end Callbook.Python
