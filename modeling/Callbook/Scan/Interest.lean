import Callbook.Library.Scanner
import Callbook.Database.Records
import Callbook.Record.Interests
import Callbook.Scan.Basic

/-!
# What the interest search lists

The search reads a record by its last interest value and accepts every key that is a callsign when
normalized. Parsing takes the last clean value and only normalized callsigns, and the country table
may panic on one. The two agree exactly when no record tells them apart, or when another record
makes up for it.
-/

namespace Callbook

open Text

/-! ### Keys -/

lemma Callsign.parse_of_chars {call : Str} (hne : call ≠ []) (hlen : call.length ≤ keyLen)
    (hchars : ∀ b ∈ call, isCallsignChar b) : ∃ key, Callsign.parse call = .ok key := by
  have htrim : Callsign.stripAsciiWhitespace call = call := by
    apply trimBy_eq_self_of_forall
    intro b hb
    have := hchars b hb
    grind [isCallsignChar, isAsciiUppercase, isAsciiDigit, isAsciiWhitespace]
  have hupper : toAsciiUppercase call = call := by
    apply toAsciiUppercase_eq_self
    intro b hb
    have := hchars b hb
    grind [isCallsignChar, isAsciiUppercase, isAsciiDigit, isAsciiLowercase]
  simp only [Callsign.parse, htrim, hupper]
  exact ⟨_, dif_pos ⟨hne, hlen, hchars⟩⟩

lemma Callsign.ne_nil_of_parse {call : Str} {key : Callsign} (h : Callsign.parse call = .ok key) :
    call ≠ [] := by
  rintro rfl
  cases h

/-- A call as parsing accepts it: up to 12 capital letters, digits and slashes. -/
structure PlainCall (call : Str) : Prop where
  length_le : call.length ≤ 12
  chars : ∀ b ∈ call, isCallsignChar b

lemma isPrintable_of_splitKey {key call : Str} {vintage : Option ℕ}
    (h : V2Record.splitKey key = some (call, vintage)) (hcall : ∀ b ∈ call, isCallsignChar b) :
    ∀ b ∈ key, isPrintable b := by
  have hprint : ∀ b ∈ call, isPrintable b := fun b hb =>
    isPrintable_of_isAsciiGraphic (Callsign.isAsciiGraphic_of_isCallsignChar (hcall b hb))
  rcases V2Record.splitKey_eq_some_iff.mp h with ⟨-, rfl, -⟩ | ⟨text, year, rfl, -, hyear, -⟩
  · exact hprint
  · intro b hb
    rw [List.mem_append, List.mem_cons] at hb
    rcases hb with hb | rfl | hb
    · exact hprint b hb
    · decide
    · exact isPrintable_of_parseUnsigned hyear b hb

/-- The search reads the keys that can be split into a callsign. -/
lemma interestRecordKey_eq_some_iff {bytes : Bytes} {call : Str} {vintage : Option ℕ} :
    interestRecordKey bytes = some (call, vintage) ↔
      V2Record.splitKey (trimAsciiLossy bytes) = some (call, vintage) ∧
        ∃ key, Callsign.parse call = .ok key := by
  simp only [interestRecordKey, Option.bind_eq_bind, Option.bind_eq_some_iff]
  constructor
  · rintro ⟨⟨call', vintage'⟩, hsplit, hparse⟩
    cases hcall : Callsign.parse call' with
    | error e => simp [hcall] at hparse
    | ok key =>
      simp only [hcall, Option.some.injEq, Prod.mk.injEq] at hparse
      obtain ⟨rfl, rfl⟩ := hparse
      exact ⟨hsplit, key, hcall⟩
  · rintro ⟨hsplit, key, hkey⟩
    exact ⟨_, hsplit, by simp [hkey]⟩

/-- Parsing reads the keys that the search reads, as far as their call is plain. -/
theorem keyOf_none_eq_some_iff {segment : Bytes} {call : Str} {vintage : Option ℕ} :
    V2Record.keyOf none segment = some (call, vintage) ↔
      interestRecordKey (V2Record.keyBytes (V2Record.stripSentinel segment)) =
        some (call, vintage) ∧ PlainCall call := by
  generalize hbytes : V2Record.keyBytes (V2Record.stripSentinel segment) = bytes
  rw [interestRecordKey_eq_some_iff]
  constructor
  · intro h
    obtain ⟨hne, hlen, hchars⟩ := V2Record.callsign_of_keyOf h
    obtain ⟨key, hkey, -, hsplit⟩ := V2Record.keyOf_eq_some_iff.mp h
    obtain ⟨hprint, ⟨-, rfl⟩ | ⟨-, default, hdefault, -⟩⟩ := V2Record.segmentKey_eq_some_iff.mp hkey
    · rw [hbytes] at hprint hsplit
      have hlossy : trimAsciiLossy bytes = V2Record.trimAscii bytes :=
        Utf8.fromUtf8Lossy_eq_self fun b hb => lt_128_of_isPrintable (hprint b hb)
      exact ⟨⟨hlossy ▸ hsplit, Callsign.parse_of_chars hne (hlen.trans (by decide)) hchars⟩,
        hlen, hchars⟩
    · cases hdefault
  · rintro ⟨⟨hsplit, key, hkey⟩, hlen, hchars⟩
    have hne := Callsign.ne_nil_of_parse hkey
    have hprint := isPrintable_of_splitKey hsplit hchars
    have hlossy : trimAsciiLossy bytes = V2Record.trimAscii bytes :=
      Utf8.eq_of_fromUtf8Lossy_ascii fun b hb => lt_128_of_isPrintable (hprint b hb)
    rw [hlossy] at hsplit hprint
    have hcall := V2Record.call_of_splitKey hsplit
    refine V2Record.keyOf_eq_some_iff.mpr ⟨V2Record.trimAscii bytes, ?_, ?_, hsplit⟩
    · rw [V2Record.segmentKey_eq_some_iff, hbytes]
      refine ⟨hprint, .inl ⟨fun hcolon => ?_, rfl⟩⟩
      -- a key that starts with its colon has no call
      obtain ⟨text, htext⟩ := List.head?_eq_some_iff.mp hcolon
      rw [htext, ← List.nil_append (0x3a :: text), beforeSep_append (by simp)] at hcall
      exact hne hcall
    · simp only [V2Record.looksLikeKey, ← hcall, Bool.and_eq_true, decide_eq_true_eq,
        List.all_eq_true]
      exact ⟨⟨hne, hlen⟩, hchars⟩

/-! ### The cursor -/

namespace InterestCursor

/-- The cursor has read what stands in a record behind its sentinel. -/
structure Holds (cursor : InterestCursor) (body : Bytes) : Prop where
  inRecord : cursor.inRecord
  key : cursor.key = V2Record.keyBytes body
  interestRaw : cursor.interestRaw = (V2Record.interestValues body).getLast?.getD []

/-- Outside a record nothing is held. -/
lemma foldl_push_outside {cursor : InterestCursor} (h : cursor.inRecord = false) (body : Bytes) :
    body.foldl push cursor = cursor := by
  induction body with
  | nil => rfl
  | cons b body ih =>
    have hstep : cursor.push b = cursor := by simp [push, h]
    rw [List.foldl_cons, hstep, ih]

lemma foldl_push_key {cursor : InterestCursor} (hin : cursor.inRecord)
    (hkey : cursor.keyComplete = false) {key : Bytes} (h : ∀ b ∈ key, V2Record.isTag b = false) :
    key.foldl push cursor = { cursor with key := cursor.key ++ key } := by
  induction key generalizing cursor with
  | nil => simp
  | cons b key ih =>
    rw [List.forall_mem_cons] at h
    have hstep : cursor.push b = { cursor with key := cursor.key ++ [b] } := by
      simp [push, h.1, hin, hkey]
    rw [List.foldl_cons, hstep, ih (by exact hin) (by exact hkey) h.2]
    simp

lemma foldl_push_value {cursor : InterestCursor} (hin : cursor.inRecord)
    (hkey : cursor.keyComplete) {value : Bytes} (h : ∀ b ∈ value, V2Record.isTag b = false) :
    value.foldl push cursor = { cursor with
      interestRaw := if cursor.currentTag = some 0xd5 then cursor.interestRaw ++ value
        else cursor.interestRaw } := by
  induction value generalizing cursor with
  | nil => simp
  | cons b value ih =>
    rw [List.forall_mem_cons] at h
    rw [List.foldl_cons]
    by_cases htag : cursor.currentTag = some 0xd5
    · have hstep : cursor.push b = { cursor with interestRaw := cursor.interestRaw ++ [b] } := by
        simp [push, h.1, hin, hkey, htag]
      rw [hstep, ih (by exact hin) (by exact hkey) h.2]
      simp [htag]
    · have hstep : cursor.push b = cursor := by simp [push, h.1, hkey, htag]
      rw [hstep, ih hin hkey h.2, if_neg htag, if_neg htag]

/-- A tag and its value; only an interest tag replaces the value that is held. -/
lemma foldl_push_piece {cursor : InterestCursor} (hin : cursor.inRecord) {tag : UInt8}
    (htag : V2Record.isTag tag) {value : Bytes} (h : ∀ b ∈ value, V2Record.isTag b = false) :
    (tag :: value).foldl push cursor = { cursor with
      keyComplete := true
      currentTag := some tag
      interestRaw := if tag = 0xd5 then value else cursor.interestRaw } := by
  have hstep : cursor.push tag = { cursor with
      keyComplete := true
      currentTag := some tag
      interestRaw := if tag = 0xd5 then [] else cursor.interestRaw } := by
    simp [push, htag, hin]
  rw [List.foldl_cons, hstep, foldl_push_value (by exact hin) rfl h]
  by_cases hinterest : tag = 0xd5 <;> simp [hinterest]

/-- The last interest value of the pieces is held. -/
lemma foldl_push_pieces {pieces : List Bytes} (h : ∀ piece ∈ pieces, ∃ tag value,
      piece = tag :: value ∧ V2Record.isTag tag ∧ ∀ b ∈ value, V2Record.isTag b = false)
    {cursor : InterestCursor} (hin : cursor.inRecord) :
    (pieces.flatten.foldl push cursor).inRecord ∧
      (pieces.flatten.foldl push cursor).key = cursor.key ∧
      (pieces.flatten.foldl push cursor).interestRaw =
        ((pieces.filter fun piece => piece.head? = some 0xd5).map List.tail).getLast?.getD
          cursor.interestRaw := by
  induction pieces generalizing cursor with
  | nil => exact ⟨hin, rfl, rfl⟩
  | cons piece pieces ih =>
    rw [List.forall_mem_cons] at h
    obtain ⟨⟨tag, value, rfl, htag, hvalue⟩, hpieces⟩ := h
    rw [List.flatten_cons, List.foldl_append, foldl_push_piece hin htag hvalue]
    have hrest := @ih hpieces { cursor with
      keyComplete := true
      currentTag := some tag
      interestRaw := if tag = 0xd5 then value else cursor.interestRaw } hin
    refine ⟨hrest.1, hrest.2.1, hrest.2.2.trans ?_⟩
    rw [List.filter_cons, List.head?_cons]
    by_cases hinterest : tag = 0xd5
    · rw [if_pos hinterest, if_pos (by simp [hinterest]), List.map_cons, List.tail_cons,
        List.getLast?_cons, Option.getD_some]
    · rw [if_neg hinterest, if_neg (by simp [hinterest])]

/-- A record that is read byte by byte is held. -/
theorem holds_foldl_push (cursor : InterestCursor) (body : Bytes) :
    (body.foldl push cursor.startRecord).Holds body := by
  have hpieces : ∀ piece ∈ Framing.segments V2Record.isTag (V2Record.tagBytes body),
      ∃ tag value, piece = tag :: value ∧ V2Record.isTag tag ∧
        ∀ b ∈ value, V2Record.isTag b = false := by
    intro piece hpiece
    obtain ⟨tag, value, rfl, hvalue⟩ := Framing.exists_cons_of_mem_segments _ hpiece
    refine ⟨tag, value, rfl, ?_, hvalue⟩
    rw [V2Record.tagBytes_eq] at hpiece
    exact Framing.opened_of_mem_segments Framing.head?_dropWhile_not hpiece tag rfl
  have hbody : body = V2Record.keyBytes body ++
      (Framing.segments V2Record.isTag (V2Record.tagBytes body)).flatten := by
    rw [Framing.flatten_segments, V2Record.keyBytes_eq, V2Record.tagBytes_eq,
      List.takeWhile_append_dropWhile]
  have hkey : ∀ b ∈ V2Record.keyBytes body, V2Record.isTag b = false := by
    intro b hb
    rw [V2Record.keyBytes_eq] at hb
    simpa using List.mem_takeWhile_imp hb
  obtain ⟨hin, hkey', hraw⟩ := @foldl_push_pieces _ hpieces
    { cursor.startRecord with key := [] ++ V2Record.keyBytes body } rfl
  have hfold : body.foldl push cursor.startRecord =
      (Framing.segments V2Record.isTag (V2Record.tagBytes body)).flatten.foldl push
        { cursor.startRecord with key := [] ++ V2Record.keyBytes body } := by
    conv_lhs => rw [hbody, List.foldl_append, foldl_push_key rfl rfl hkey]
    rfl
  rw [hfold]
  exact ⟨hin, hkey'.trans (List.nil_append _), hraw⟩

end InterestCursor

/-! ### The scan -/

/-- The codes that the search reads in a record. -/
def scannedCodes (body : Bytes) : List Str :=
  InterestTable.codes (trimAsciiLossy ((V2Record.interestValues body).getLast?.getD []))

/-- What the search lists for a record. -/
def listed (target : Str) (body : Bytes) : Option InterestSearchMatch := do
  let (callsign, vintage) ← interestRecordKey (V2Record.keyBytes body)
  if target ∈ scannedCodes body then some ⟨callsign, vintage⟩ else none

lemma listed_eq_some_iff {target : Str} {body : Bytes} {m : InterestSearchMatch} :
    listed target body = some m ↔
      interestRecordKey (V2Record.keyBytes body) = some (m.callsign, m.vintage) ∧
        target ∈ scannedCodes body := by
  simp only [listed, Option.bind_eq_bind, Option.bind_eq_some_iff, Option.ite_none_right_eq_some,
    Option.some.injEq]
  constructor
  · rintro ⟨⟨callsign, vintage⟩, hkey, hcode, rfl⟩
    exact ⟨hkey, hcode⟩
  · rintro ⟨hkey, hcode⟩
    exact ⟨_, hkey, hcode, rfl⟩

namespace InterestSearchScan

/-- At the end of a record the scan lists what the record has. -/
lemma found_finishRecord {scan : InterestSearchScan} {body : Bytes}
    (h : scan.toInterestCursor.Holds body) :
    scan.finishRecord.found = scan.found ++ (listed scan.target body).toList := by
  rw [finishRecord, listed, scannedCodes, ← h.interestRaw, ← h.key]
  by_cases hraw : scan.interestRaw = []
  · rw [if_pos (.inr hraw), hraw]
    have hcodes : InterestTable.codes (trimAsciiLossy []) = [] := rfl
    simp only [hcodes, List.not_mem_nil, if_false]
    cases interestRecordKey scan.key <;> simp
  · rw [if_neg (by simp [h.inRecord, hraw])]
    cases interestRecordKey scan.key with
    | none => simp
    | some key =>
      simp only [Option.bind_eq_bind, Option.bind_some]
      split_ifs
      · rfl
      · simp

lemma target_finishRecord (scan : InterestSearchScan) :
    scan.finishRecord.target = scan.target := by
  unfold finishRecord
  split_ifs
  · rfl
  all_goals split <;> rfl

/-- The scan reads records by its cursor, and lists them when they end. -/
lemma reads : Scanner.Reads
    (fun scan b => { scan with toInterestCursor := scan.toInterestCursor.push b })
    (fun scan => { scan with toInterestCursor := scan.toInterestCursor.startRecord })
    finishRecord toInterestCursor (fun scan => (scan.target, scan.found))
    InterestCursor.push InterestCursor.startRecord
    (fun s body => (s.1, s.2 ++ (listed s.1 body).toList)) where
  cursor_push _ _ := rfl
  cursor_start _ := rfl
  out_push _ _ := rfl
  out_start _ := rfl
  out_close scan cursor body h := by
    have hholds : scan.toInterestCursor.Holds body := h ▸ cursor.holds_foldl_push body
    rw [target_finishRecord, found_finishRecord hholds]

lemma foldl_listed (target : Str) (bodies : List Bytes) (found : List InterestSearchMatch) :
    bodies.foldl (fun s body => (s.1, s.2 ++ (listed s.1 body).toList)) (target, found) =
      (target, found ++ bodies.filterMap (listed target)) := by
  induction bodies generalizing found with
  | nil => simp
  | cons body bodies ih =>
    rw [List.foldl_cons, ih, List.filterMap_cons]
    cases listed target body <;> simp

/-- The scan lists the records of the file in order. -/
theorem found_scanDat (target : Str) (encoded : Bytes) :
    ((new target).scanDat encoded).found =
      (Scanner.bodies isSentinel (decodeDat encoded)).filterMap (listed target) := by
  have hscan := reads.out_scan (p := isSentinel) (s := new target) (fun scan head h => by
    rw [InterestCursor.foldl_push_outside rfl] at h
    have hin : scan.inRecord = false := by rw [h]; rfl
    rw [finishRecord, if_pos (by simp [hin])]) (decodeDat encoded)
  rw [foldl_listed] at hscan
  exact (congrArg Prod.snd hscan).trans (List.nil_append _)

end InterestSearchScan

namespace V2Shard

variable {shard : V2Shard} {target : Str} {record : Bytes} {m : InterestSearchMatch}

/-- The bodies of a file are those of its records. -/
lemma mem_bodies_iff {body : Bytes} : body ∈ Scanner.bodies isSentinel (decodeDat shard.datMmap) ↔
    ∃ record, shard.IsRecord record ∧ V2Record.stripSentinel record = body := by
  have hsegments : ∀ record, shard.IsRecord record ↔ record ∈ Framing.segments isSentinel
      ((decodeDat shard.datMmap).dropWhile (!isSentinel ·)) := by
    intro record
    rw [isRecord_iff]
    conv_lhs => rw [← List.takeWhile_append_dropWhile (p := (!isSentinel ·))
      (l := decodeDat shard.datMmap), Framing.segments_append _ _ Framing.head?_dropWhile_not,
      List.mem_append]
    constructor
    · rintro ⟨hmem | hmem, hopen⟩
      · -- in front of the first record nothing opens one
        obtain ⟨b, t, rfl, -⟩ := Framing.exists_cons_of_mem_segments _ hmem
        have hb : b ∈ (decodeDat shard.datMmap).takeWhile (!isSentinel ·) := by
          rw [← Framing.flatten_segments isSentinel
            ((decodeDat shard.datMmap).takeWhile (!isSentinel ·))]
          exact List.mem_flatten.mpr ⟨_, hmem, List.mem_cons_self⟩
        have hclean := List.mem_takeWhile_imp hb
        rw [hopen b rfl] at hclean
        cases hclean
      · exact hmem
    · intro hmem
      exact ⟨.inr hmem, Framing.opened_of_mem_segments Framing.head?_dropWhile_not hmem⟩
  rw [Scanner.bodies, List.mem_map]
  simp only [hsegments]
  refine exists_congr fun record => and_congr_right fun hrecord => ?_
  obtain ⟨b, body, rfl, hb, -⟩ := Scanner.exists_of_mem_segments hrecord
  rw [V2Record.stripSentinel, List.head?_cons, Option.any_some, if_pos hb]

/-- The search lists what it reads in the records of the file. -/
theorem mem_scanInterestCode_iff : m ∈ scanInterestCode shard.datMmap target ↔
    ∃ record, shard.IsRecord record ∧ listed target (V2Record.stripSentinel record) = some m := by
  rw [scanInterestCode, InterestSearchScan.finish, StableSort.mem_destutter_ne,
    StableSort.mem_sortBy, InterestSearchScan.found_scanDat, List.mem_filterMap]
  simp only [mem_bodies_iff, exists_exists_and_eq_and]

/-! ### What parsing shows -/

/-- The codes that parsing reads in a record. -/
def parsedCodes (body : Bytes) : List Str :=
  InterestTable.codes ((V2Record.keptInterest body).getD [])

/-- Some record is parsed, with the tables of the shard, to a snapshot of the station and the
vintage that shows the code. -/
def ShowsCode (shard : V2Shard) (target : Str) (m : InterestSearchMatch) : Prop :=
  ∃ record snapshot, shard.IsRecord record ∧
    V2Record.parseSegment none .hamCallDatIdx shard.countries shard.interests record =
      .ok (some snapshot) ∧
    snapshot.callsign = m.callsign ∧ snapshot.vintage = m.vintage ∧
    target ∈ snapshot.interestCodes

/-- The country table panics on a record. -/
def Panics (shard : V2Shard) (record : Bytes) : Prop :=
  ∃ call, V2Record.PanicsOn none .hamCallDatIdx shard.countries record call

lemma clean_stripSentinel (h : shard.IsRecord record) :
    ∀ b ∈ V2Record.stripSentinel record, isSentinel b = false := by
  obtain ⟨hmem, hopen⟩ := isRecord_iff.mp h
  obtain ⟨b, body, rfl, hbody⟩ := Framing.exists_cons_of_mem_segments _ hmem
  rw [V2Record.stripSentinel, List.head?_cons, Option.any_some, if_pos (hopen b rfl),
    List.tail_cons]
  exact hbody

/-- Whatever the source and the tables, a record that is parsed shows its key and its codes. -/
theorem shows_of_parseSegment (h : shard.IsRecord record) {source : SnapshotSource}
    {countries : Option CountryTable} {interests : Option InterestTable} {snapshot : CallSnapshot}
    (hparse : V2Record.parseSegment none source countries interests record =
      .ok (some snapshot)) :
    V2Record.keyOf none record = some (snapshot.callsign, snapshot.vintage) ∧
      snapshot.interestCodes = parsedCodes (V2Record.stripSentinel record) :=
  ⟨(V2Record.keyOf_of_parseSegment hparse).1,
    V2Record.interestCodes_of_parseSegment hparse (clean_stripSentinel h)⟩

lemma showsCode_iff : shard.ShowsCode target m ↔ ∃ record, shard.IsRecord record ∧
    V2Record.keyOf none record = some (m.callsign, m.vintage) ∧ ¬ shard.Panics record ∧
    target ∈ parsedCodes (V2Record.stripSentinel record) := by
  constructor
  · rintro ⟨record, snapshot, hrecord, hparse, hcall, hvintage, hcode⟩
    obtain ⟨hkey, hcodes⟩ := shows_of_parseSegment hrecord hparse
    refine ⟨record, hrecord, hcall ▸ hvintage ▸ hkey, ?_, hcodes ▸ hcode⟩
    rw [Panics, not_exists]
    exact V2Record.exists_parseSegment_eq_ok_iff.mp ⟨_, hparse⟩
  · rintro ⟨record, hrecord, hkey, hpanics, hcode⟩
    rw [Panics, not_exists] at hpanics
    obtain ⟨parsed, hparsed⟩ :=
      (@V2Record.exists_parseSegment_eq_ok_iff _ _ _ shard.interests _).mpr hpanics
    obtain ⟨snapshot, rfl, hcall, hvintage⟩ := V2Record.exists_of_parseSegment hkey hparsed
    refine ⟨record, snapshot, hrecord, hparsed, hcall, hvintage, ?_⟩
    rwa [(shows_of_parseSegment hrecord hparsed).2]

/-! ### Where the two agree -/

/-- The last interest value is blank or not printable, so parsing passes over it. -/
def LastUnclean (body : Bytes) : Prop :=
  ∃ value ∈ (V2Record.interestValues body).getLast?, V2Record.cleanValue value = none

/-- Nothing that the search and parsing read differently in a record shows in the result. -/
structure Consistent (shard : V2Shard) (target : Str) (record : Bytes) : Prop where
  /-- A key whose call is not plain comes without the code. -/
  plain : ∀ call vintage,
    interestRecordKey (V2Record.keyBytes (V2Record.stripSentinel record)) = some (call, vintage) →
      ¬ PlainCall call → target ∉ scannedCodes (V2Record.stripSentinel record)
  /-- A code that stands only in an unclean last value, or in a record that the country table panics
  on, is shown by another record of the key. -/
  invented : ∀ key, V2Record.keyOf none record = some key →
    LastUnclean (V2Record.stripSentinel record) ∨ shard.Panics record →
      target ∈ scannedCodes (V2Record.stripSentinel record) →
        ∃ record', shard.IsRecord record' ∧ V2Record.keyOf none record' = some key ∧
          ¬ shard.Panics record' ∧ target ∈ parsedCodes (V2Record.stripSentinel record')
  /-- A code that an unclean last value hides is read in another record of the key. -/
  hidden : ∀ key, V2Record.keyOf none record = some key →
    LastUnclean (V2Record.stripSentinel record) → ¬ shard.Panics record →
      target ∈ parsedCodes (V2Record.stripSentinel record) →
        ∃ record', shard.IsRecord record' ∧ V2Record.keyOf none record' = some key ∧
          target ∈ scannedCodes (V2Record.stripSentinel record')

/-- A clean last value is read alike. -/
lemma scannedCodes_eq_parsedCodes {body : Bytes} (h : ¬ LastUnclean body) :
    scannedCodes body = parsedCodes body := by
  rw [scannedCodes, parsedCodes, V2Record.keptInterest]
  generalize hvalues : V2Record.interestValues body = values
  rw [LastUnclean, hvalues] at h
  cases values using List.reverseRecOn with
  | nil => rfl
  | append_singleton values value =>
    rw [List.getLast?_concat, Option.getD_some, List.filterMap_append]
    cases hclean : V2Record.cleanValue value with
    | none => exact absurd ⟨value, by simp, hclean⟩ h
    | some text =>
      have hread := hclean
      rw [V2Record.cleanValue, Option.filter_eq_some_iff, V2Record.cleanAscii_eq_some_iff] at hclean
      obtain ⟨⟨hprint, htext⟩, -⟩ := hclean
      have hlossy : trimAsciiLossy value = text := by
        rw [trimAsciiLossy, ← htext]
        exact Utf8.fromUtf8Lossy_eq_self fun b hb => lt_128_of_isPrintable (hprint b hb)
      have hsingle : [value].filterMap V2Record.cleanValue = [text] := by
        rw [List.filterMap_cons_some hread, List.filterMap_nil]
      rw [hlossy, hsingle, List.getLast?_concat, Option.getD_some]

/-- The search lists what parsing shows exactly when every record is consistent. -/
theorem mem_scan_iff_showsCode_iff :
    (∀ m, m ∈ scanInterestCode shard.datMmap target ↔ shard.ShowsCode target m) ↔
      ∀ record, shard.IsRecord record → shard.Consistent target record := by
  simp only [mem_scanInterestCode_iff, showsCode_iff, listed_eq_some_iff]
  constructor
  · intro h record hrecord
    refine ⟨fun call vintage hkey hplain hcode => ?_, fun ⟨call, vintage⟩ hkey _ hcode => ?_,
      fun ⟨call, vintage⟩ hkey _ hpanics hcode => ?_⟩
    · obtain ⟨record', -, hkey', -⟩ := (h ⟨call, vintage⟩).mp ⟨record, hrecord, hkey, hcode⟩
      exact hplain (keyOf_none_eq_some_iff.mp hkey').2
    · exact (h ⟨call, vintage⟩).mp ⟨record, hrecord, (keyOf_none_eq_some_iff.mp hkey).1, hcode⟩
    · obtain ⟨record', hrecord', hkey', hcode'⟩ :=
        (h ⟨call, vintage⟩).mpr ⟨record, hrecord, hkey, hpanics, hcode⟩
      exact ⟨record', hrecord', keyOf_none_eq_some_iff.mpr
        ⟨hkey', (keyOf_none_eq_some_iff.mp hkey).2⟩, hcode'⟩
  · intro h m
    constructor
    · rintro ⟨record, hrecord, hkey, hcode⟩
      have hplain : PlainCall m.callsign := by
        by_contra hplain
        exact (h record hrecord).plain _ _ hkey hplain hcode
      have hkeyOf := keyOf_none_eq_some_iff.mpr ⟨hkey, hplain⟩
      by_cases hread : LastUnclean (V2Record.stripSentinel record) ∨ shard.Panics record
      · exact (h record hrecord).invented _ hkeyOf hread hcode
      · rw [not_or] at hread
        exact ⟨record, hrecord, hkeyOf, hread.2, scannedCodes_eq_parsedCodes hread.1 ▸ hcode⟩
    · rintro ⟨record, hrecord, hkeyOf, hpanics, hcode⟩
      by_cases hunclean : LastUnclean (V2Record.stripSentinel record)
      · obtain ⟨record', hrecord', hkeyOf', hcode'⟩ :=
          (h record hrecord).hidden _ hkeyOf hunclean hpanics hcode
        exact ⟨record', hrecord', (keyOf_none_eq_some_iff.mp hkeyOf').1, hcode'⟩
      · refine ⟨record, hrecord, (keyOf_none_eq_some_iff.mp hkeyOf).1, ?_⟩
        rwa [scannedCodes_eq_parsedCodes hunclean]

end V2Shard

/-! ### The search of a database -/

lemma normalizeInterestCode_eq_ok {code : Str} (hlen : code.length = 4)
    (hdigits : ∀ b ∈ code, isAsciiDigit b) : normalizeInterestCode code = .ok code := by
  have htrim : Utf8.trim code = code := by
    apply Utf8.trim_eq_self
    intro b hb
    have := hdigits b hb
    grind [isAsciiDigit, isAsciiGraphic]
  simp only [normalizeInterestCode, htrim]
  exact if_pos ⟨hlen, List.all_eq_true.mpr hdigits⟩

/-- Searching a code finds the stations whose records show it exactly when every record is read
consistently. -/
theorem searchInterest_iff_consistent (shard : V2Shard) {code : Str} (hlen : code.length = 4)
    (hdigits : ∀ b ∈ code, isAsciiDigit b) :
    ∃ search, CallBook.searchInterest ⟨some shard⟩ code = .ok search ∧ search.code = code ∧
      ((∀ m, m ∈ search.found ↔ shard.ShowsCode code m) ↔
        ∀ record, shard.IsRecord record → shard.Consistent code record) := by
  refine ⟨⟨code, shard.interests.bind (·.lookup code), scanInterestCode shard.datMmap code⟩, ?_,
    rfl, V2Shard.mem_scan_iff_showsCode_iff⟩
  rw [CallBook.searchInterest, normalizeInterestCode_eq_ok hlen hdigits]
  rfl

/-- Two records with one interest value each. -/
def interestRecords : Bytes :=
  (0xb5 :: ascii "K1ABC" ++ 0xd5 :: ascii "00100020") ++
    (0xb5 :: ascii "K1ABC:2015" ++ 0xd5 :: ascii "0010")

theorem searchInterest_iff_consistent_interestRecords :
    ∃ search, CallBook.searchInterest ⟨some (V2Shard.sampleShard interestRecords)⟩
        (ascii "0010") = .ok search ∧ search.code = ascii "0010" ∧
      ∀ m, m ∈ search.found ↔
        (V2Shard.sampleShard interestRecords).ShowsCode (ascii "0010") m := by
  obtain ⟨search, hsearch, hcode, hiff⟩ := searchInterest_iff_consistent
    (V2Shard.sampleShard interestRecords) (by decide +kernel : (ascii "0010").length = 4)
    (by decide +kernel)
  refine ⟨search, hsearch, hcode, hiff.mpr fun record hrecord => ?_⟩
  have hall : ∀ record ∈ Framing.segments isSentinel
      (decodeDat (V2Shard.sampleShard interestRecords).datMmap),
      (interestRecordKey (V2Record.keyBytes (V2Record.stripSentinel record))).all (fun key =>
        key.1.length ≤ 12 && key.1.all isCallsignChar) &&
      (V2Record.interestValues (V2Record.stripSentinel record)).getLast?.all fun value =>
        (V2Record.cleanValue value).isSome := by decide +kernel
  have hrecord := hall record (V2Shard.isRecord_iff.mp hrecord).1
  simp only [Option.all_eq_true, Bool.and_eq_true, decide_eq_true_eq, List.all_eq_true] at hrecord
  obtain ⟨hplain, hlast⟩ := hrecord
  have hclean : ¬ V2Shard.LastUnclean (V2Record.stripSentinel record) := by
    rintro ⟨value, hvalue, hnone⟩
    have hsome := hlast value hvalue
    rw [hnone] at hsome
    cases hsome
  have hpanics : ¬ (V2Shard.sampleShard interestRecords).Panics record := by
    rintro ⟨call, -, table, htable, -⟩
    cases htable
  refine ⟨fun call vintage hkey hnot => ?_, fun key _ hread _ => ?_,
    fun key _ hunclean _ _ => absurd hunclean hclean⟩
  · obtain ⟨hlen, hchars⟩ := hplain _ hkey
    exact absurd ⟨hlen, hchars⟩ hnot
  · exact absurd hread (not_or.mpr ⟨hclean, hpanics⟩)

/-- One record whose interest tag is repeated with a blank value. -/
def repeatedTag : Bytes := 0xb5 :: ascii "K1ABC" ++ 0xd5 :: ascii "0010" ++ [0xd5]

/-- The record shows the code, and the search does not list it. -/
theorem not_found_repeatedTag :
    ∃ search, CallBook.searchInterest ⟨some (V2Shard.sampleShard repeatedTag)⟩
        (ascii "0010") = .ok search ∧ search.code = ascii "0010" ∧
      ¬ ∀ m, m ∈ search.found ↔ (V2Shard.sampleShard repeatedTag).ShowsCode search.code m := by
  have hsearch : CallBook.searchInterest ⟨some (V2Shard.sampleShard repeatedTag)⟩
      (ascii "0010") = .ok ⟨ascii "0010", none, []⟩ := by decide +kernel
  refine ⟨_, hsearch, rfl, fun h => ?_⟩
  have hshows : (V2Shard.sampleShard repeatedTag).ShowsCode (ascii "0010")
      ⟨ascii "K1ABC", none⟩ := by
    rw [V2Shard.showsCode_iff]
    refine ⟨repeatedTag, V2Shard.isRecord_iff.mpr ?_, by decide +kernel, ?_, by decide +kernel⟩
    · decide +kernel
    · rintro ⟨call, -, table, htable, -⟩
      cases htable
  exact absurd ((h _).mpr hshows) List.not_mem_nil

end Callbook
