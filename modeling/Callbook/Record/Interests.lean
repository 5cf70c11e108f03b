import Callbook.Record.Tags

/-!
# Interest codes of a record

Parsing keeps the last interest value that is clean, and cuts it into codes.
-/

namespace Callbook

open Text

namespace V2Record

/-- The values behind the interest tags of a segment, in order. -/
def interestValues (segment : Bytes) : List Bytes :=
  ((Framing.segments isTag (tagBytes segment)).filter fun piece =>
    piece.head? = some 0xd5).map List.tail

/-- The interest value that parsing keeps. -/
def keptInterest (segment : Bytes) : Option Str :=
  ((interestValues segment).filterMap cleanValue).getLast?

lemma ofTag_eq_interestCodesRaw_iff {tag : UInt8} :
    TagField.interestCodesRaw = TagField.ofTag tag ↔ tag = 0xd5 := by
  constructor
  · intro h
    have htag := TagField.tagOf_ofTag tag
    rw [← h] at htag
    split_ifs at htag
    · exact absurd htag (by decide)
    · exact htag.symm
  · rintro rfl
    rfl

/-- The pieces of a record keep the last clean interest value. -/
lemma interestCodesRaw_foldl {pieces : List Bytes} (hpieces : ∀ piece ∈ pieces, piece ≠ [])
    (snapshot : CallSnapshot) : (pieces.foldl applyPiece snapshot).interestCodesRaw =
      ((((pieces.filter fun piece => piece.head? = some 0xd5).map List.tail).filterMap
        cleanValue).getLast?).or snapshot.interestCodesRaw := by
  induction pieces generalizing snapshot with
  | nil => rfl
  | cons piece pieces ih =>
    rw [List.forall_mem_cons] at hpieces
    obtain ⟨tag, value, rfl⟩ := List.exists_cons_of_ne_nil hpieces.1
    have hget : ∀ s v, (applyTag s tag v).interestCodesRaw =
        if tag = 0xd5 then some v else s.interestCodesRaw := by
      intro s v
      have := TagField.get_applyTag .interestCodesRaw s tag v
      rwa [if_congr ofTag_eq_interestCodesRaw_iff rfl rfl] at this
    rw [List.foldl_cons, ih hpieces.2, List.filter_cons, List.head?_cons, applyPiece]
    by_cases htag : tag = 0xd5
    · rw [if_pos (by simp [htag]), List.map_cons, List.tail_cons, List.filterMap_cons]
      cases cleanValue value with
      | none => rfl
      | some v =>
        simp only [hget, if_pos htag, List.getLast?_cons]
        cases List.getLast? _ <;> rfl
    · rw [if_neg (by simp [htag])]
      cases cleanValue value with
      | none => rfl
      | some v => simp only [hget, if_neg htag]

@[simp] lemma interestCodes_applyTag (snapshot : CallSnapshot) (tag : UInt8) (value : Str) :
    (applyTag snapshot tag value).interestCodes = snapshot.interestCodes := by
  unfold applyTag
  split <;> rfl

lemma interestCodes_applyInterests {interests : Option InterestTable} {snapshot : CallSnapshot}
    (h : snapshot.interestCodes = []) : (applyInterests interests snapshot).interestCodes =
      InterestTable.codes (snapshot.interestCodesRaw.getD []) := by
  unfold applyInterests
  split
  · rename_i hraw
    rw [hraw, h]
    rfl
  · rename_i raw hraw
    rw [hraw]
    rfl

lemma applyCountry_keeps_interests {countries : Option CountryTable}
    {snapshot located : CallSnapshot} (h : applyCountry countries snapshot = .ok located) :
    located.interestCodes = snapshot.interestCodes ∧
      located.interestCodesRaw = snapshot.interestCodesRaw ∧
      located.interests = snapshot.interests := by
  obtain ⟨_, _, rfl⟩ := applyCountry_frame h
  exact ⟨rfl, rfl, rfl⟩

/-- A parsed record has the codes of the interest value that was kept. -/
theorem interestCodes_of_parseSegment {defaultKey : Option Bytes} {source : SnapshotSource}
    {countries : Option CountryTable} {interests : Option InterestTable} {segment : Bytes}
    {snapshot : CallSnapshot}
    (h : parseSegment defaultKey source countries interests segment = .ok (some snapshot))
    (hclean : ∀ b ∈ stripSentinel segment, isSentinel b = false) :
    snapshot.interestCodes =
      InterestTable.codes ((keptInterest (stripSentinel segment)).getD []) := by
  obtain ⟨key, call, vintage, located, -, -, -, hlocated, rfl⟩ :=
    parseSegment_eq_ok_some_iff.mp h
  obtain ⟨hcodes, hraw, -⟩ := applyCountry_keeps_interests hlocated
  rw [tagLoop_keeps (·.interestCodes) interestCodes_applyTag] at hcodes
  rw [interestCodes_applyInterests hcodes, hraw, tagLoop_eq_foldl, interestCodesRaw_foldl]
  · rw [keptInterest, interestValues]
    congr 2
    exact Option.or_none
  · intro piece hpiece
    obtain ⟨b, t, rfl, -⟩ := Framing.exists_cons_of_mem_segments _ hpiece
    exact List.cons_ne_nil _ _
  · rw [tagBytes_eq]
    exact (List.dropWhile_sublist _).length_le
  · intro b hb
    rw [tagBytes_eq] at hb
    exact hclean b ((List.dropWhile_sublist _).subset hb)
  · rw [tagBytes_eq]
    exact Framing.head?_dropWhile_not

end V2Record

end Callbook
