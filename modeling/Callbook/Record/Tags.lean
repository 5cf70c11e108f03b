import Callbook.Record.Properties

/-!
# Tagged values

Every tag of a record has one field of the snapshot. Reading a field back gives what the tag of
that field was last applied with, so the tag loop fills the fields with the tagged values.
-/

namespace Callbook

open Text

/-! ### Fields -/

/-- The fields of a snapshot that tags fill; a tag without a field of its own is kept raw. -/
inductive TagField where
  | licenseClass
  | recordCode
  | firstName
  | middleName
  | lastName
  | suffix
  | address
  | city
  | stateOrProvince
  | postalCode
  | birthDate
  | firstIssued
  | expires
  | lastChanged
  | county
  | gmtOffset
  | latitude
  | longitude
  | grid
  | areaCode
  | previousCall
  | previousClass
  | fccTransactionType
  | email
  | qsl
  | country
  | url
  | faxNumber
  | interestCodesRaw
  | licenseId
  | frn
  | iota
  | numericId
  | raw (tag : UInt8)
  deriving DecidableEq

namespace TagField

/-- The field that a tag fills. -/
def ofTag (tag : UInt8) : TagField :=
  match tag with
  | 0xb6 => licenseClass
  | 0xb7 => recordCode
  | 0xb8 => firstName
  | 0xb9 => middleName
  | 0xba => lastName
  | 0xbb => suffix
  | 0xbc | 0xbd | 0xbe => address
  | 0xbf => city
  | 0xc0 => stateOrProvince
  | 0xc1 => postalCode
  | 0xc2 => birthDate
  | 0xc3 => firstIssued
  | 0xc4 => expires
  | 0xc5 => lastChanged
  | 0xc6 => county
  | 0xc7 => gmtOffset
  | 0xc8 => latitude
  | 0xc9 => longitude
  | 0xca => grid
  | 0xcb => areaCode
  | 0xcc => previousCall
  | 0xcd => previousClass
  | 0xce => fccTransactionType
  | 0xcf => email
  | 0xd0 => qsl
  | 0xd1 => country
  | 0xd2 => url
  | 0xd4 => faxNumber
  | 0xd5 => interestCodesRaw
  | 0xd7 => licenseId
  | 0xd9 => frn
  | 0xda => iota
  | 0xde => numericId
  | tag => raw tag

/-- The value of a field. -/
def get (f : TagField) (s : CallSnapshot) : Option Str :=
  match f with
  | licenseClass => s.licenseClass
  | recordCode => s.recordCode
  | firstName => s.firstName
  | middleName => s.middleName
  | lastName => s.lastName
  | suffix => s.suffix
  | address => s.address
  | city => s.city
  | stateOrProvince => s.stateOrProvince
  | postalCode => s.postalCode
  | birthDate => s.birthDate
  | firstIssued => s.firstIssued
  | expires => s.expires
  | lastChanged => s.lastChanged
  | county => s.county
  | gmtOffset => s.gmtOffset
  | latitude => s.latitude
  | longitude => s.longitude
  | grid => s.grid
  | areaCode => s.areaCode
  | previousCall => s.previousCall
  | previousClass => s.previousClass
  | fccTransactionType => s.fccTransactionType
  | email => s.email
  | qsl => s.qsl
  | country => s.country
  | url => s.url
  | faxNumber => s.faxNumber
  | interestCodesRaw => s.interestCodesRaw
  | licenseId => s.licenseId
  | frn => s.frn
  | iota => s.iota
  | numericId => s.numericId
  | raw tag => s.rawTags[tag]?

/-- Give a field a value. -/
def set (f : TagField) (s : CallSnapshot) (value : Str) : CallSnapshot :=
  match f with
  | licenseClass => { s with licenseClass := some value }
  | recordCode => { s with recordCode := some value }
  | firstName => { s with firstName := some value }
  | middleName => { s with middleName := some value }
  | lastName => { s with lastName := some value }
  | suffix => { s with suffix := some value }
  | address => { s with address := some value }
  | city => { s with city := some value }
  | stateOrProvince => { s with stateOrProvince := some value }
  | postalCode => { s with postalCode := some value }
  | birthDate => { s with birthDate := some value }
  | firstIssued => { s with firstIssued := some value }
  | expires => { s with expires := some value }
  | lastChanged => { s with lastChanged := some value }
  | county => { s with county := some value }
  | gmtOffset => { s with gmtOffset := some value }
  | latitude => { s with latitude := some value }
  | longitude => { s with longitude := some value }
  | grid => { s with grid := some value }
  | areaCode => { s with areaCode := some value }
  | previousCall => { s with previousCall := some value }
  | previousClass => { s with previousClass := some value }
  | fccTransactionType => { s with fccTransactionType := some value }
  | email => { s with email := some value }
  | qsl => { s with qsl := some value }
  | country => { s with country := some value }
  | url => { s with url := some value }
  | faxNumber => { s with faxNumber := some value }
  | interestCodesRaw => { s with interestCodesRaw := some value }
  | licenseId => { s with licenseId := some value }
  | frn => { s with frn := some value }
  | iota => { s with iota := some value }
  | numericId => { s with numericId := some value }
  | raw tag => { s with rawTags := s.rawTags.insert tag value }

/-- A tag of the address, which three tags share. -/
def isAddressTag (tag : UInt8) : Bool := tag == 0xbc || tag == 0xbd || tag == 0xbe

/-- A tag of the field. -/
def tagOf : TagField → UInt8
  | licenseClass => 0xb6
  | recordCode => 0xb7
  | firstName => 0xb8
  | middleName => 0xb9
  | lastName => 0xba
  | suffix => 0xbb
  | address => 0xbc
  | city => 0xbf
  | stateOrProvince => 0xc0
  | postalCode => 0xc1
  | birthDate => 0xc2
  | firstIssued => 0xc3
  | expires => 0xc4
  | lastChanged => 0xc5
  | county => 0xc6
  | gmtOffset => 0xc7
  | latitude => 0xc8
  | longitude => 0xc9
  | grid => 0xca
  | areaCode => 0xcb
  | previousCall => 0xcc
  | previousClass => 0xcd
  | fccTransactionType => 0xce
  | email => 0xcf
  | qsl => 0xd0
  | country => 0xd1
  | url => 0xd2
  | faxNumber => 0xd4
  | interestCodesRaw => 0xd5
  | licenseId => 0xd7
  | frn => 0xd9
  | iota => 0xda
  | numericId => 0xde
  | raw tag => tag

lemma tagOf_ofTag (tag : UInt8) : (ofTag tag).tagOf = if isAddressTag tag then 0xbc else tag := by
  unfold ofTag
  split <;> first | rfl | (simp only [tagOf, isAddressTag]; simp_all)

/-- Two tags of one field are the same, or both are tags of the address. -/
lemma eq_or_isAddressTag_of_ofTag_eq {tag tag' : UInt8} (h : ofTag tag = ofTag tag') :
    tag = tag' ∨ isAddressTag tag ∧ isAddressTag tag' := by
  have htags := congrArg tagOf h
  rw [tagOf_ofTag, tagOf_ofTag] at htags
  split_ifs at htags with h₁ h₂ h₂
  · exact .inr ⟨h₁, h₂⟩
  · exact absurd (by rw [← htags]; rfl) h₂
  · exact absurd (by rw [htags]; rfl) h₁
  · exact .inl htags

/-- A tag sets its field. -/
lemma applyTag_eq_set (s : CallSnapshot) (tag : UInt8) (value : Str) :
    V2Record.applyTag s tag value = (ofTag tag).set s value := by
  unfold ofTag
  split
  case h_36 =>
    unfold V2Record.applyTag
    split <;> first | rfl | contradiction
  all_goals rfl

lemma get_set_self (f : TagField) (s : CallSnapshot) (value : Str) :
    f.get (f.set s value) = some value := by
  cases f with
  | raw tag => exact Std.ExtTreeMap.getElem?_insert_self
  | _ => rfl

lemma get_set_of_ne {f g : TagField} (h : f ≠ g) (s : CallSnapshot) (value : Str) :
    f.get (g.set s value) = f.get s := by
  cases g with
  | raw tag =>
    cases f with
    | raw tag' =>
      have hne : compare tag tag' ≠ .eq := fun heq =>
        h (congrArg raw (Std.LawfulEqCmp.eq_of_compare heq).symm)
      simp only [get, set, Std.ExtTreeMap.getElem?_insert, if_neg hne]
    | _ => rfl
  | _ => cases f <;> first | rfl | exact absurd rfl h

/-- A field reads back what its tag is applied with, and no other tag touches it. -/
lemma get_applyTag (f : TagField) (s : CallSnapshot) (tag : UInt8) (value : Str) :
    f.get (V2Record.applyTag s tag value) = if f = ofTag tag then some value else f.get s := by
  rw [applyTag_eq_set]
  split_ifs with hf
  · rw [hf, get_set_self]
  · exact get_set_of_ne hf s value

end TagField

/-! ### The tag loop -/

namespace V2Record

/-- The trimmed value, when it is printable and not blank. -/
def cleanValue (value : Bytes) : Option Str := (cleanAscii value).filter (· ≠ [])

/-- Apply a tag with the value behind it. -/
def applyPiece (snapshot : CallSnapshot) : Bytes → CallSnapshot
  | [] => snapshot
  | tag :: value =>
    match cleanValue value with
    | none => snapshot
    | some value => applyTag snapshot tag value

/-- The tag loop takes what stands behind the key in pieces, each one a tag with its value. -/
theorem tagLoop_eq_foldl {fuel : ℕ} {tagged : Bytes} (hfuel : tagged.length ≤ fuel)
    (hclean : ∀ b ∈ tagged, isSentinel b = false) (hhead : ∀ b ∈ tagged.head?, isTag b)
    (snapshot : CallSnapshot) : tagLoop fuel tagged snapshot =
      (Framing.segments isTag tagged).foldl applyPiece snapshot := by
  induction fuel generalizing tagged snapshot with
  | zero =>
    rw [List.length_eq_zero_iff.mp (Nat.le_zero.mp hfuel)]
    rfl
  | succ fuel ih =>
    cases tagged with
    | nil => rfl
    | cons tag rest =>
      rw [List.forall_mem_cons] at hclean
      rw [List.length_cons, Nat.add_le_add_iff_right] at hfuel
      have hsplit : rest.takeWhile (!endsValue ·) = rest.takeWhile (!isTag ·) ∧
          rest.dropWhile (!endsValue ·) = rest.dropWhile (!isTag ·) := by
        have hstep := Framing.takeWhile_append_eq (p := endsValue) (l := rest.takeWhile (!isTag ·))
          (m := rest.dropWhile (!isTag ·)) (fun b hb => ?_) fun b hb => ?_
        · rwa [List.takeWhile_append_dropWhile] at hstep
        · have htag : isTag b = false := by simpa using List.mem_takeWhile_imp hb
          have hsentinel := hclean.2 b ((List.takeWhile_sublist _).subset hb)
          grind [endsValue, isTag, isSentinel]
        · have htag := Framing.head?_dropWhile_not b hb
          grind [endsValue, isTag]
      rw [tagLoop, Framing.segments_cons, List.foldl_cons]
      have hrest := @ih (rest.dropWhile (!isTag ·))
        ((List.dropWhile_sublist _).length_le.trans hfuel)
        (fun b hb => hclean.2 b ((List.dropWhile_sublist _).subset hb)) Framing.head?_dropWhile_not
      simp only [hhead tag rfl, not_true_eq_false, if_false, hsplit.1, hsplit.2, applyPiece,
        cleanValue]
      cases cleanAscii (rest.takeWhile (!isTag ·)) with
      | none => exact hrest _
      | some value =>
        by_cases hblank : value = []
        · simp only [hblank, if_true]
          exact hrest _
        · simp only [hblank, if_false, Option.filter_some, ne_eq, not_false_eq_true, decide_true,
            if_true]
          exact hrest _

end V2Record

end Callbook
