import Callbook.Database.Merge
import Callbook.Database.Total
import Callbook.Library.Firsts

/-!
# Walking over all stations

An entry iterator takes the callsigns of the IDX keys and then those of the current-US catalog, and
looks up each that it has not seen. It remembers the text that it took, while the entry carries the
callsign in normal form.
-/

namespace Callbook

open Text

/-- The callsign and the vintage that the text of a key names. -/
def statTextParts (key : Str) : Option (Str × Option ℕ) :=
  match splitOnce 0x3a key with
  | none => some (key, none)
  | some (callsign, year) => do
    if year.length = 4 ∧ year.all isAsciiDigit then
      let year ← parseUnsigned 65535 year
      if 1900 ≤ year ∧ year ≤ 2099 then some (callsign, some year) else none
    else none

/-- `stat_key_parts`. -/
def statKeyParts (key : Bytes) : Option (Str × Option ℕ) :=
  if Utf8.Valid key then
    let key := Utf8.trim key
    if key = [] ∨ key = ascii "!!!" ∨ key = ascii "ZZZZZZZZ" then none
    else do
      let (callsign, vintage) ← statTextParts key
      let _ ← (Callsign.parse callsign).toOption
      some (callsign, vintage)
  else none

/-- Which source an entry iterator reads. -/
inductive EntryIterPhase where
  | modernIdx
  | usCsv
  | done
  deriving DecidableEq, Repr

/-- Iterator over selected domain entries; of the two sources it has what is still to be read. -/
structure EntryIter where
  db : CallBook
  phase : EntryIterPhase
  includeHistory : Bool
  seen : Finset Str
  modernIdx : Option (List TextEntry)
  usCsvCallsigns : Option (List Str)

/-- Builder for iterating domain entries; `CallBook::entries` starts with the history included. -/
structure Entries where
  db : CallBook
  includeHistory : Bool

/-- `Entries::into_iter`. -/
def Entries.intoIter (entries : Entries) : EntryIter where
  db := entries.db
  phase := .modernIdx
  includeHistory := entries.includeHistory
  seen := ∅
  modernIdx := entries.db.v2.map fun v2 => v2.idx.iter
  usCsvCallsigns := entries.db.v2.bind fun v2 => v2.usCsv.map UsCsvFile.callsigns

/-- What `next` yields for a looked-up callsign; without history, a station that has no current
record is passed over. -/
def selectEntry (includeHistory : Bool) (entry : Except Error LookupResult) :
    Option (Except Error LookupResult) :=
  match entry with
  | .error e => some (.error e)
  | .ok report =>
    if includeHistory then some (.ok report)
    else if report.current = none then none
    else some (.ok { report with history := [] })

namespace EntryIter

/-- The IDX loop of `next_callsign`: the first callsign among the entries and the entries behind. -/
def nextKey (includeHistory : Bool) : List TextEntry → Option (Str × List TextEntry)
  | [] => none
  | entry :: rest =>
    match statKeyParts entry.key with
    | none => nextKey includeHistory rest
    | some (callsign, vintage) =>
      if !includeHistory && vintage.isSome then nextKey includeHistory rest
      else some (callsign, rest)

variable (iter : EntryIter)

/-- The catalog phase of `next_callsign`. -/
def nextUsCsv : Option Str × EntryIter :=
  match iter.usCsvCallsigns with
  | some (callsign :: rest) =>
    (some callsign, { iter with phase := .usCsv, usCsvCallsigns := some rest })
  | _ => (none, { iter with phase := .done })

/-- `EntryIter::next_callsign`. -/
def nextCallsign : Option Str × EntryIter :=
  match iter.phase with
  | .modernIdx =>
    match iter.modernIdx with
    | none => nextUsCsv iter
    | some entries =>
      match nextKey iter.includeHistory entries with
      | some (callsign, rest) => (some callsign, { iter with modernIdx := some rest })
      | none => nextUsCsv { iter with modernIdx := some [] }
  | .usCsv => nextUsCsv iter
  | .done => (none, iter)

/-- A bound on how often the loops run. -/
def remaining : ℕ :=
  (iter.modernIdx.getD []).length + (iter.usCsvCallsigns.getD []).length

/-- The loop of `next`. -/
def nextLoop : ℕ → EntryIter → Except Panic (Option (Except Error LookupResult) × EntryIter)
  | 0, iter => .ok (none, iter)
  | fuel + 1, iter =>
    match iter.nextCallsign with
    | (none, iter) => .ok (none, iter)
    | (some callsign, iter) =>
      if callsign ∈ iter.seen then nextLoop fuel iter
      else do
        let entry ← iter.db.lookupReport callsign
        let iter := { iter with seen := insert callsign iter.seen }
        match selectEntry iter.includeHistory entry with
        | none => nextLoop fuel iter
        | some item => pure (some item, iter)

/-- `EntryIter::next`. -/
def next : Except Panic (Option (Except Error LookupResult) × EntryIter) :=
  nextLoop (iter.remaining + 1) iter

/-- The items of a `for` loop over an iterator. -/
def itemsLoop : ℕ → EntryIter → Except Panic (List (Except Error LookupResult))
  | 0, _ => .ok []
  | fuel + 1, iter => do
    let (item, iter) ← iter.next
    match item with
    | none => pure []
    | some item =>
      let items ← itemsLoop fuel iter
      pure (item :: items)

/-- Everything that an iterator yields. -/
def items : Except Panic (List (Except Error LookupResult)) :=
  itemsLoop (iter.remaining + 1) iter

/-! ### The callsigns that are still to come -/

/-- The callsign that the IDX loop takes from an entry. -/
def takenKey (includeHistory : Bool) (entry : TextEntry) : Option Str :=
  (statKeyParts entry.key).bind fun parts =>
    if !includeHistory && parts.2.isSome then none else some parts.1

/-- The callsigns that `next_callsign` has still to return. -/
def pending : List Str :=
  match iter.phase with
  | .modernIdx =>
    (iter.modernIdx.getD []).filterMap (takenKey iter.includeHistory) ++
      iter.usCsvCallsigns.getD []
  | .usCsv => iter.usCsvCallsigns.getD []
  | .done => []

/-- The entries that an iterator selects among the looked-up callsigns. -/
def visit (callsign : Str) : Except Panic (Option (Except Error LookupResult)) :=
  (iter.db.lookupReport callsign).map (selectEntry iter.includeHistory)

/-- Two iterators over one database with one setting. -/
def Alike (iter iter' : EntryIter) : Prop :=
  iter'.db = iter.db ∧ iter'.includeHistory = iter.includeHistory

variable {iter}

lemma Alike.visit_eq {iter' : EntryIter} (h : iter.Alike iter') : iter'.visit = iter.visit := by
  funext callsign
  rw [visit, visit, h.1, h.2]

lemma nextKey_eq (includeHistory : Bool) (entries : List TextEntry) :
    (nextKey includeHistory entries = none ∧ entries.filterMap (takenKey includeHistory) = []) ∨
    ∃ callsign rest, nextKey includeHistory entries = some (callsign, rest) ∧
      entries.filterMap (takenKey includeHistory) =
        callsign :: rest.filterMap (takenKey includeHistory) := by
  induction entries with
  | nil => exact .inl ⟨rfl, rfl⟩
  | cons entry rest ih =>
    rw [nextKey, List.filterMap_cons, takenKey]
    cases statKeyParts entry.key with
    | none => exact ih
    | some parts =>
      simp only [Option.bind_some]
      by_cases hskip : !includeHistory && parts.2.isSome
      · rw [if_pos hskip, if_pos hskip]
        exact ih
      · rw [if_neg hskip, if_neg hskip]
        exact .inr ⟨parts.1, rest, rfl, rfl⟩

/-- What `next_callsign` does: it returns the next callsign and leaves the others pending. -/
structure Advances (iter : EntryIter) (found : Option Str × EntryIter) : Prop where
  head : found.1 = iter.pending.head?
  tail : found.2.pending = iter.pending.tail
  alike : iter.Alike found.2
  seen : found.2.seen = iter.seen

lemma advances_nextUsCsv (h : iter.pending = iter.usCsvCallsigns.getD []) :
    iter.Advances iter.nextUsCsv := by
  have hshow : ∀ found, found.1 = (iter.usCsvCallsigns.getD []).head? →
      found.2.pending = (iter.usCsvCallsigns.getD []).tail → iter.Alike found.2 →
      found.2.seen = iter.seen → iter.Advances found := by
    intro found hhead htail halike hseen
    rw [← h] at hhead htail
    exact ⟨hhead, htail, halike, hseen⟩
  rw [nextUsCsv]
  rcases hcsv : iter.usCsvCallsigns with _ | _ | ⟨callsign, rest⟩
  · exact hshow _ (by simp [hcsv]) (by simp [hcsv, pending]) ⟨rfl, rfl⟩ rfl
  · exact hshow _ (by simp [hcsv]) (by simp [hcsv, pending]) ⟨rfl, rfl⟩ rfl
  · exact hshow _ (by simp [hcsv]) (by simp [hcsv, pending]) ⟨rfl, rfl⟩ rfl

lemma advances_nextCallsign (iter : EntryIter) : iter.Advances iter.nextCallsign := by
  rw [nextCallsign]
  cases hphase : iter.phase with
  | modernIdx =>
    cases hidx : iter.modernIdx with
    | none =>
      apply advances_nextUsCsv
      simp [pending, hphase, hidx]
    | some entries =>
      obtain ⟨hnone, htaken⟩ | ⟨callsign, rest, hsome, htaken⟩ :=
        nextKey_eq iter.includeHistory entries
      · have hpending : iter.pending = iter.usCsvCallsigns.getD [] := by
          simp [pending, hphase, hidx, htaken]
        have hrest : { iter with modernIdx := some [] }.Advances
            (nextUsCsv { iter with modernIdx := some [] }) := by
          apply advances_nextUsCsv
          simp [pending, hphase]
        have hsame : { iter with modernIdx := some [] }.pending = iter.pending := by
          rw [hpending]
          simp [pending, hphase]
        simp only [hnone]
        exact ⟨hsame ▸ hrest.head, hsame ▸ hrest.tail, hrest.alike, hrest.seen⟩
      · have hpending : iter.pending = callsign ::
            (rest.filterMap (takenKey iter.includeHistory) ++ iter.usCsvCallsigns.getD []) := by
          simp [pending, hphase, hidx, htaken]
        simp only [hsome]
        exact ⟨by simp [hpending], by rw [hpending]; simp [pending], ⟨rfl, rfl⟩, rfl⟩
  | usCsv =>
    apply advances_nextUsCsv
    simp [pending, hphase]
  | done =>
    have hpending : iter.pending = [] := by simp [pending, hphase]
    exact ⟨by simp [hpending], by simp [hpending], ⟨rfl, rfl⟩, rfl⟩

/-! ### What an iterator yields -/

/-- The items of the callsigns that are still to come, where each is looked up once. -/
def itemsAhead (iter : EntryIter) : Except Panic (List (Except Error LookupResult)) :=
  Panic.collect (fun _ => true) iter.visit (firsts iter.seen iter.pending)

lemma itemsAhead_of_seen {iter' : EntryIter} {callsign : Str} (halike : iter.Alike iter')
    (hseen : iter'.seen = iter.seen) (hpending : iter.pending = callsign :: iter'.pending)
    (h : callsign ∈ iter.seen) : iter.itemsAhead = iter'.itemsAhead := by
  rw [itemsAhead, itemsAhead, hpending, firsts, if_pos h, halike.visit_eq, hseen]

lemma itemsAhead_of_new {iter' : EntryIter} {callsign : Str} (halike : iter.Alike iter')
    (hseen : iter'.seen = insert callsign iter.seen)
    (hpending : iter.pending = callsign :: iter'.pending) (h : callsign ∉ iter.seen) :
    iter.itemsAhead = (iter.db.lookupReport callsign).bind fun entry =>
      iter'.itemsAhead.map ((selectEntry iter.includeHistory entry).toList ++ ·) := by
  rw [itemsAhead, itemsAhead, hpending, firsts, if_neg h, halike.visit_eq, hseen, Panic.collect,
    Panic.keep, if_pos rfl, visit]
  cases iter.db.lookupReport callsign <;> rfl

/-- What `next` does: it stops behind the next item, or finishes the pending callsigns. -/
inductive Yields (iter : EntryIter) :
    Except Panic (Option (Except Error LookupResult) × EntryIter) → Prop
  | panicked {p : Panic} (h : iter.itemsAhead = .error p) : Yields iter (.error p)
  | done {iter' : EntryIter} (h : iter.itemsAhead = .ok []) : Yields iter (.ok (none, iter'))
  | item {found : Except Error LookupResult} {iter' : EntryIter}
      (shorter : iter'.pending.length < iter.pending.length)
      (h : iter.itemsAhead = iter'.itemsAhead.map (found :: ·)) :
      Yields iter (.ok (some found, iter'))

lemma Yields.of_eq {iter' : EntryIter}
    {result : Except Panic (Option (Except Error LookupResult) × EntryIter)}
    (h : iter'.Yields result) (hahead : iter.itemsAhead = iter'.itemsAhead)
    (hlen : iter'.pending.length ≤ iter.pending.length) : iter.Yields result := by
  cases h with
  | panicked h => exact .panicked (hahead.trans h)
  | done h => exact .done (hahead.trans h)
  | item shorter h => exact .item (shorter.trans_le hlen) (hahead.trans h)

/-- A callsign that is looked up yields its entry, if that is selected, and otherwise what comes
behind it. -/
lemma Yields.of_visit {iter' : EntryIter} {callsign : Str}
    {rest : Except Panic (Option (Except Error LookupResult) × EntryIter)}
    (hshorter : iter'.pending.length < iter.pending.length)
    (hahead : iter.itemsAhead = (iter.db.lookupReport callsign).bind fun entry =>
      iter'.itemsAhead.map ((selectEntry iter.includeHistory entry).toList ++ ·))
    (hrest : iter'.Yields rest) :
    iter.Yields ((iter.db.lookupReport callsign).bind fun entry =>
      match selectEntry iter.includeHistory entry with
      | none => rest
      | some found => pure (some found, iter')) := by
  cases hlookup : iter.db.lookupReport callsign with
  | error p =>
    rw [hlookup] at hahead
    exact .panicked hahead
  | ok entry =>
    rw [hlookup, Except.bind] at hahead
    rw [Except.bind]
    cases hselect : selectEntry iter.includeHistory entry with
    | none =>
      have hsame : iter.itemsAhead = iter'.itemsAhead := by
        rw [hahead, hselect]
        cases iter'.itemsAhead <;> rfl
      exact hrest.of_eq hsame hshorter.le
    | some found =>
      apply Yields.item hshorter
      rw [hahead, hselect]
      rfl

lemma yields_nextLoop {fuel : ℕ} (hfuel : iter.pending.length < fuel) :
    iter.Yields (nextLoop fuel iter) := by
  induction fuel generalizing iter with
  | zero => exact absurd hfuel (Nat.not_lt_zero _)
  | succ fuel ih =>
    have hadv := advances_nextCallsign iter
    rw [nextLoop]
    rcases hnext : iter.nextCallsign with ⟨_ | callsign, iter'⟩
    · rw [hnext] at hadv
      have hpending : iter.pending = [] := List.head?_eq_none_iff.mp hadv.head.symm
      apply Yields.done
      rw [itemsAhead, hpending]
      rfl
    · rw [hnext] at hadv
      obtain ⟨hhead, htail, halike, hseen⟩ := hadv
      have hpending : iter.pending = callsign :: iter'.pending := by
        rw [htail]
        exact List.eq_cons_of_mem_head? hhead.symm
      have hlen : iter.pending.length = iter'.pending.length + 1 := by
        rw [hpending, List.length_cons]
      simp only
      by_cases hold : callsign ∈ iter'.seen
      · rw [if_pos hold]
        exact (ih (by omega)).of_eq (itemsAhead_of_seen halike hseen hpending (hseen ▸ hold))
          (by omega)
      · have hnew : callsign ∉ iter.seen := hseen ▸ hold
        let iter'' := { iter' with seen := insert callsign iter'.seen }
        have hahead : iter.itemsAhead = (iter.db.lookupReport callsign).bind fun entry =>
            iter''.itemsAhead.map ((selectEntry iter.includeHistory entry).toList ++ ·) :=
          itemsAhead_of_new halike (congrArg (insert callsign) hseen) hpending hnew
        have hshorter : iter''.pending.length < iter.pending.length := by
          rw [hlen]
          exact Nat.lt_succ_self _
        have hvisit := Yields.of_visit hshorter hahead
          (ih (hshorter.trans_le (Nat.le_of_lt_succ hfuel)))
        rw [← halike.1, ← halike.2] at hvisit
        rw [if_neg hold]
        exact hvisit

lemma pending_length_le (iter : EntryIter) : iter.pending.length ≤ iter.remaining := by
  have htaken := List.length_filterMap_le (takenKey iter.includeHistory) (iter.modernIdx.getD [])
  rw [pending, remaining]
  split
  · rw [List.length_append]
    exact Nat.add_le_add_right htaken _
  · exact Nat.le_add_left _ _
  · exact Nat.zero_le _

lemma yields_next (iter : EntryIter) : iter.Yields iter.next :=
  yields_nextLoop (Nat.lt_succ_of_le iter.pending_length_le)

lemma itemsLoop_eq {fuel : ℕ} (hfuel : iter.pending.length < fuel) :
    itemsLoop fuel iter = iter.itemsAhead := by
  induction fuel generalizing iter with
  | zero => exact absurd hfuel (Nat.not_lt_zero _)
  | succ fuel ih =>
    have hyields := iter.yields_next
    rw [itemsLoop]
    generalize iter.next = result at hyields
    cases hyields with
    | panicked h => exact h.symm
    | done h => exact h.symm
    | @item found iter' shorter h =>
      simp only [Panic.ok_bind]
      rw [ih (shorter.trans_le (Nat.le_of_lt_succ hfuel)), h]
      cases iter'.itemsAhead <;> rfl

/-- An iterator yields the selected entries of its callsigns, each looked up once. -/
theorem items_eq (iter : EntryIter) : iter.items = iter.itemsAhead :=
  itemsLoop_eq (Nat.lt_succ_of_le iter.pending_length_le)

end EntryIter

/-! ### Which stations a walk with history visits -/

lemma exists_parse_of_statKeyParts {key : Bytes} {parts : Str × Option ℕ}
    (h : statKeyParts key = some parts) : ∃ call, Callsign.parse parts.1 = .ok call := by
  simp only [statKeyParts] at h
  split_ifs at h
  simp only [Option.bind_eq_bind, Option.bind_eq_some_iff, Option.some.injEq] at h
  obtain ⟨found, -, call, hcall, rfl⟩ := h
  exact ⟨call, Panic.toOption_eq_some_iff.mp hcall⟩

namespace CallBook

variable (db : CallBook)

/-- The iterator of `CallBook::entries`, which includes the history. -/
abbrev entryIter : EntryIter := Entries.intoIter ⟨db, true⟩

/-- The callsigns that the keys of the IDX file name. -/
def idxCallsigns : List Str :=
  db.v2.elim [] fun v2 => v2.idx.iter.filterMap fun entry => (statKeyParts entry.key).map Prod.fst

/-- The callsigns of the current-US catalog. -/
def usCsvCallsigns : List Str := (db.v2.bind V2Shard.usCsv).elim [] UsCsvFile.callsigns

/-- The texts that a walk with history takes from the two sources. -/
def rawCallsigns : List Str := db.idxCallsigns ++ db.usCsvCallsigns

/-- The callsigns, in normal form, that the two sources name. -/
def stations : Set Str :=
  {callsign | ∃ raw ∈ db.rawCallsigns, ∃ call, Callsign.parse raw = .ok call ∧
    call.asStr = callsign}

/-- A walk with history yields a report on each station, and nothing else. -/
def VisitsEachStation : Prop :=
  ∃ reports : List LookupResult, db.entryIter.items = .ok (reports.map .ok) ∧
    (reports.map LookupResult.query).Nodup ∧
    ∀ callsign, callsign ∈ reports.map LookupResult.query ↔ callsign ∈ db.stations

/-- The sources name every station in one way, every row of the catalog is a callsign, and the
country table panics on no piece of a station that its lookup reads. -/
structure Walkable : Prop where
  catalog : ∀ raw ∈ db.usCsvCallsigns, ∃ call, Callsign.parse raw = .ok call
  oneText : ∀ raw ∈ db.rawCallsigns, ∀ raw' ∈ db.rawCallsigns, ∀ call call',
    Callsign.parse raw = .ok call → Callsign.parse raw' = .ok call' →
      call.asStr = call'.asStr → raw = raw'
  located : ∀ callsign ∈ db.stations, ∀ shard ∈ db.v2, shard.LocatesRead callsign

variable {db}

lemma pending_entryIter : db.entryIter.pending = db.rawCallsigns := by
  have htaken : EntryIter.takenKey true = fun entry => (statKeyParts entry.key).map Prod.fst := by
    funext entry
    rw [EntryIter.takenKey]
    cases statKeyParts entry.key <;> rfl
  simp only [EntryIter.pending, Entries.intoIter, rawCallsigns, idxCallsigns, usCsvCallsigns,
    htaken]
  cases db.v2 with
  | none => rfl
  | some v2 => cases hcsv : v2.usCsv <;> simp [hcsv]

lemma items_entryIter : db.entryIter.items =
    Panic.collect (fun _ => true) db.entryIter.visit (firsts ∅ db.rawCallsigns) := by
  rw [EntryIter.items_eq, EntryIter.itemsAhead, pending_entryIter]
  rfl

/-- A report answers for the normal form of the callsign that was asked for. -/
lemma exists_parse_of_lookupReport {raw : Str} {r : LookupResult}
    (h : db.lookupReport raw = .ok (.ok r)) :
    ∃ call, Callsign.parse raw = .ok call ∧ r.query = call.asStr := by
  obtain ⟨call, snapshots, hparse, -, rfl⟩ := lookupReport_eq_ok_iff.mp h
  exact ⟨call, hparse, rfl⟩

/-- With history, what is looked up is what is yielded. -/
lemma visit_entryIter (raw : Str) : db.entryIter.visit raw = (db.lookupReport raw).map some := by
  have hselect : selectEntry true = some := by
    funext entry
    cases entry <;> rfl
  rw [EntryIter.visit, show db.entryIter.includeHistory = true from rfl, hselect]
  rfl

/-- Text as a callsign renders it. -/
def normalText (raw : Str) : Str := toAsciiUppercase (Callsign.stripAsciiWhitespace raw)

lemma exists_reports {raws : List Str} (h : ∀ raw ∈ raws, ∃ r, db.lookupReport raw = .ok (.ok r)) :
    ∃ reports : List LookupResult,
      Panic.collect (fun _ => true) db.entryIter.visit raws = .ok (reports.map .ok) ∧
      reports.map LookupResult.query = raws.map normalText := by
  induction raws with
  | nil => exact ⟨[], rfl, rfl⟩
  | cons raw raws ih =>
    rw [List.forall_mem_cons] at h
    obtain ⟨⟨r, hr⟩, hraws⟩ := h
    obtain ⟨reports, hreports, hqueries⟩ := ih hraws
    obtain ⟨call, hcall, hquery⟩ := exists_parse_of_lookupReport hr
    refine ⟨r :: reports, ?_, ?_⟩
    · rw [Panic.collect, Panic.keep, if_pos rfl, visit_entryIter, hr, hreports]
      rfl
    · rw [List.map_cons, List.map_cons, hqueries, hquery, Callsign.parse_asStr hcall]
      rfl

/-- When a walk yields reports only, every lookup returned one. -/
lemma lookupReport_of_collect {raws : List Str} {reports : List LookupResult}
    (h : Panic.collect (fun _ => true) db.entryIter.visit raws = .ok (reports.map .ok)) :
    ∀ raw ∈ raws, ∃ r, db.lookupReport raw = .ok (.ok r) := by
  intro raw hraw
  obtain ⟨found, hfound⟩ := Panic.exists_collect_eq_ok_iff.mp ⟨_, h⟩ raw hraw rfl
  rw [visit_entryIter] at hfound
  cases hlookup : db.lookupReport raw with
  | error p =>
    rw [hlookup] at hfound
    cases hfound
  | ok result =>
    have hmem : result ∈ reports.map Except.ok :=
      (Panic.mem_of_collect_eq_ok h).mpr ⟨raw, hraw, rfl, by rw [visit_entryIter, hlookup]; rfl⟩
    obtain ⟨r, -, rfl⟩ := List.mem_map.mp hmem
    exact ⟨r, rfl⟩

lemma mem_firsts_rawCallsigns {raw : Str} :
    raw ∈ firsts ∅ db.rawCallsigns ↔ raw ∈ db.rawCallsigns := by
  rw [mem_firsts]
  exact and_iff_left (Finset.notMem_empty raw)

/-- What a walk that visits each station tells about the texts that it takes. -/
lemma VisitsEachStation.lookups (h : db.VisitsEachStation) :
    (∀ raw ∈ db.rawCallsigns, ∃ r, db.lookupReport raw = .ok (.ok r)) ∧
    ((firsts ∅ db.rawCallsigns).map normalText).Nodup := by
  obtain ⟨reports, hitems, hnodup, -⟩ := h
  rw [items_entryIter] at hitems
  have hlookups := lookupReport_of_collect hitems
  obtain ⟨reports', hreports', hqueries⟩ := exists_reports hlookups
  rw [hitems, Except.ok.injEq] at hreports'
  have hsame : reports = reports' :=
    List.map_injective_iff.mpr (fun _ _ => Except.ok.inj) hreports'
  refine ⟨?_, ?_⟩
  · intro raw hraw
    exact hlookups raw (mem_firsts_rawCallsigns.mpr hraw)
  · rw [← hqueries, ← hsame]
    exact hnodup

theorem VisitsEachStation.walkable (h : db.VisitsEachStation) : db.Walkable := by
  obtain ⟨hlookups, hnodup⟩ := h.lookups
  refine ⟨?_, ?_, ?_⟩
  · intro raw hraw
    obtain ⟨r, hr⟩ := hlookups raw (List.mem_append_right _ hraw)
    obtain ⟨call, hcall, -⟩ := exists_parse_of_lookupReport hr
    exact ⟨call, hcall⟩
  · intro raw hraw raw' hraw' call call' hcall hcall' heq
    rw [Callsign.parse_asStr hcall, Callsign.parse_asStr hcall'] at heq
    exact List.inj_on_of_nodup_map hnodup (mem_firsts_rawCallsigns.mpr hraw)
      (mem_firsts_rawCallsigns.mpr hraw') heq
  · rintro _ ⟨raw, hraw, call, hcall, rfl⟩
    exact (exists_lookupReport_eq_ok_iff hcall).mp (hlookups raw hraw)

/-- Every text that a walk takes is a callsign. -/
lemma Walkable.exists_parse (h : db.Walkable) {raw : Str} (hraw : raw ∈ db.rawCallsigns) :
    ∃ call, Callsign.parse raw = .ok call := by
  rcases List.mem_append.mp hraw with hidx | hcsv
  · rw [idxCallsigns] at hidx
    cases hv2 : db.v2 with
    | none => simp [hv2] at hidx
    | some v2 =>
      rw [hv2, Option.elim_some, List.mem_filterMap] at hidx
      obtain ⟨entry, -, hentry⟩ := hidx
      obtain ⟨parts, hparts, rfl⟩ := Option.map_eq_some_iff.mp hentry
      exact exists_parse_of_statKeyParts hparts
  · exact h.catalog raw hcsv

/-- No lookup is aborted when every station can be matched against the country table. -/
theorem walkable_of_locates
    (catalog : ∀ raw ∈ db.usCsvCallsigns, ∃ call, Callsign.parse raw = .ok call)
    (oneText : ∀ raw ∈ db.rawCallsigns, ∀ raw' ∈ db.rawCallsigns, ∀ call call',
      Callsign.parse raw = .ok call → Callsign.parse raw' = .ok call' →
        call.asStr = call'.asStr → raw = raw')
    (hlocates : ∀ callsign ∈ db.stations, ∀ shard ∈ db.v2, shard.Locates callsign) :
    db.Walkable :=
  ⟨catalog, oneText, fun callsign hcallsign shard hshard =>
    (hlocates callsign hcallsign shard hshard).locatesRead⟩

theorem Walkable.visitsEachStation (h : db.Walkable) : db.VisitsEachStation := by
  have hlookups : ∀ raw ∈ firsts ∅ db.rawCallsigns, ∃ r, db.lookupReport raw = .ok (.ok r) := by
    intro raw hraw
    rw [mem_firsts_rawCallsigns] at hraw
    obtain ⟨call, hcall⟩ := h.exists_parse hraw
    exact (exists_lookupReport_eq_ok_iff hcall).mpr (h.located _ ⟨raw, hraw, call, hcall, rfl⟩)
  obtain ⟨reports, hreports, hqueries⟩ := exists_reports hlookups
  refine ⟨reports, items_entryIter.trans hreports, ?_, ?_⟩
  · rw [hqueries]
    refine List.Nodup.map_on ?_ (nodup_firsts ∅ db.rawCallsigns)
    intro raw hraw raw' hraw' heq
    rw [mem_firsts_rawCallsigns] at hraw hraw'
    obtain ⟨call, hcall⟩ := h.exists_parse hraw
    obtain ⟨call', hcall'⟩ := h.exists_parse hraw'
    apply h.oneText raw hraw raw' hraw' call call' hcall hcall'
    rw [Callsign.parse_asStr hcall, Callsign.parse_asStr hcall']
    exact heq
  · intro callsign
    rw [hqueries, List.mem_map]
    constructor
    · rintro ⟨raw, hraw, rfl⟩
      rw [mem_firsts_rawCallsigns] at hraw
      obtain ⟨call, hcall⟩ := h.exists_parse hraw
      exact ⟨raw, hraw, call, hcall, Callsign.parse_asStr hcall⟩
    · rintro ⟨raw, hraw, call, hcall, rfl⟩
      exact ⟨raw, mem_firsts_rawCallsigns.mpr hraw, (Callsign.parse_asStr hcall).symm⟩

/-- A walk with history visits each station once and never fails exactly when the sources name
every station in one way, every row of the catalog is a callsign, and the country table panics on no
piece of a station that its lookup reads. -/
theorem visitsEachStation_iff_walkable (db : CallBook) : db.VisitsEachStation ↔ db.Walkable :=
  ⟨VisitsEachStation.walkable, Walkable.visitsEachStation⟩

/-- A catalog with a row that is no callsign, beside an empty IDX file. -/
def badRowFiles : Files where
  idx := ascii "!!! 0 \r\n"
  dat := []
  hci := none
  usCsv := some [[ascii "K0-ABC"]]
  countries := none
  pcCountries := none
  interests := none

/-- Two IDX keys that name one station. -/
def twoCasesFiles : Files where
  idx := ascii "K0AB 1 \r\nk0ab 2 \r\n"
  dat := []
  hci := none
  usCsv := none
  countries := none
  pcCountries := none
  interests := none

/-- The texts that a walk takes, as opening the files and reading the database evaluates them. -/
lemma exists_open_of_eval (files : Files) (raws : List Str × List Str)
    (h : (CallBook.open files).map (fun opened => opened.map fun db =>
      (db.idxCallsigns, db.usCsvCallsigns)) = .ok (.ok raws)) :
    ∃ db, CallBook.open files = .ok (.ok db) ∧ db.idxCallsigns = raws.1 ∧
      db.usCsvCallsigns = raws.2 := by
  rcases hopen : CallBook.open files with p | e | db
  · rw [hopen] at h
    cases h
  · rw [hopen] at h
    cases h
  · rw [hopen] at h
    cases h
    exact ⟨db, rfl, rfl, rfl⟩

/-- A bad row of the catalog fails the walk; a station named in both cases is visited twice. -/
theorem not_visitsEachStation_sampleFiles :
    (∃ db, CallBook.open badRowFiles = .ok (.ok db) ∧ ¬ db.VisitsEachStation) ∧
    (∃ db, CallBook.open twoCasesFiles = .ok (.ok db) ∧ ¬ db.VisitsEachStation) := by
  constructor
  · obtain ⟨db, hopen, -, hcsv⟩ := exists_open_of_eval badRowFiles ([], [ascii "K0-ABC"])
      (by decide +kernel)
    refine ⟨db, hopen, fun h => ?_⟩
    obtain ⟨call, hcall⟩ := h.walkable.catalog (ascii "K0-ABC") (by simp [hcsv])
    have hbad : (Callsign.parse (ascii "K0-ABC")).isOk = false := by decide +kernel
    rw [hcall] at hbad
    cases hbad
  · obtain ⟨db, hopen, hidx, -⟩ := exists_open_of_eval twoCasesFiles
      ([ascii "K0AB", ascii "k0ab"], []) (by decide +kernel)
    refine ⟨db, hopen, fun h => ?_⟩
    have hraw : ∀ raw ∈ [ascii "K0AB", ascii "k0ab"], raw ∈ db.rawCallsigns := by
      intro raw hraw
      rw [rawCallsigns, hidx]
      exact List.mem_append_left _ hraw
    have hupper := h.walkable.exists_parse (hraw (ascii "K0AB") (by simp))
    have hlower := h.walkable.exists_parse (hraw (ascii "k0ab") (by simp))
    obtain ⟨call, hcall⟩ := hupper
    obtain ⟨call', hcall'⟩ := hlower
    have hsame : call.asStr = call'.asStr := by
      rw [Callsign.parse_asStr hcall, Callsign.parse_asStr hcall']
      decide +kernel
    have heq := h.walkable.oneText (ascii "K0AB") (hraw _ (by simp)) (ascii "k0ab")
      (hraw _ (by simp)) call call' hcall hcall' hsame
    revert heq
    decide +kernel

end CallBook

end Callbook
