import Callbook.Callsign
import Callbook.Library.Usize

/-!
# Strings in C buffers

A caller asks for the length of a result, then has it written into a buffer of that size. Lengths
are `usize` inside and saturate to a `c_int` on the way out, so the answer to the first question is
a size that the second one accepts as long as the result fits a `c_int` with its NUL.
-/

namespace Callbook

open Text

namespace Ffi

/-! ### Codes and memory -/

def callbookEUsage : Int32 := -2

def callbookEBufferTooSmall : Int32 := -4

/-- The bytes from the address of an output buffer on. -/
abbrev Memory := ℕ → UInt8

/-- `copy_nonoverlapping`. -/
def Memory.copy (memory : Memory) (bytes : Bytes) : Memory := fun i => bytes[i]?.getD (memory i)

/-- `*out_buf.add(position) = byte`. -/
def Memory.store (memory : Memory) (position : ℕ) (byte : UInt8) : Memory :=
  fun i => if i = position then byte else memory i

/-- What a function with an output buffer returns, and what the buffer holds then; there is no
buffer behind a null pointer. -/
structure Written where
  code : Int32
  outBuf : Option Memory

/-- `clamp_len`. -/
def clampLen (n : ℕ) : Int32 := Int32.ofNat (min n (2 ^ 31 - 1))

/-- `read_cstr`: nothing for a null pointer, nor for bytes that are not UTF-8. -/
def readCstr (ptr : Option Bytes) : Option Str :=
  ptr.filter fun bytes => Utf8.fromUtf8Lossy bytes = bytes

/-- `write_buf`. -/
def writeBuf (outBuf : Option Memory) (outBufLen : Int32) (bytes : Bytes) : Written :=
  match outBuf with
  | none => ⟨callbookEUsage, none⟩
  | some memory =>
    if outBufLen ≤ 0 then ⟨callbookEUsage, some memory⟩
    else
      let need := bytes.length
      let cap := outBufLen.toInt.toNat
      match Usize.checkedAdd need 1 with
      | none => ⟨callbookEBufferTooSmall, some memory⟩
      | some required =>
        if cap < required then ⟨callbookEBufferTooSmall, some memory⟩
        else ⟨clampLen need, some ((memory.copy bytes).store need 0)⟩

/-! ### The exported functions -/

section Exports

variable {Db : Type*}

/-- `callbook_lookup_json`, with the renderer `lookup_json`. -/
def callbookLookupJson (lookupJson : Db → Str → Except Error Str) (db : Option Db)
    (callsign : Option Bytes) (outBuf : Option Memory) (outBufLen : Int32) : Written :=
  match db with
  | none => ⟨callbookEUsage, outBuf⟩
  | some handle =>
    if outBuf.isNone ∨ outBufLen ≤ 0 then ⟨callbookEUsage, outBuf⟩
    else
      match readCstr callsign with
      | none => ⟨callbookEUsage, outBuf⟩
      | some call =>
        match lookupJson handle call with
        | .error _ => ⟨callbookEUsage, outBuf⟩
        | .ok json => writeBuf outBuf outBufLen json

/-- `callbook_lookup_json_required_len`. -/
def callbookLookupJsonRequiredLen (lookupJson : Db → Str → Except Error Str) (db : Option Db)
    (callsign : Option Bytes) : Int32 :=
  match db with
  | none => callbookEUsage
  | some handle =>
    match readCstr callsign with
    | none => callbookEUsage
    | some call =>
      match lookupJson handle call with
      | .error _ => callbookEUsage
      | .ok json => clampLen (json.length + 1)

/-- `callbook_map_svg`, with the renderer `map_svg`. -/
def callbookMapSvg (mapSvg : Db → Str → Except Int32 Str) (db : Option Db)
    (callsign : Option Bytes) (outBuf : Option Memory) (outBufLen : Int32) : Written :=
  match db with
  | none => ⟨callbookEUsage, outBuf⟩
  | some handle =>
    match readCstr callsign with
    | none => ⟨callbookEUsage, outBuf⟩
    | some call =>
      match mapSvg handle call with
      | .error code => ⟨code, outBuf⟩
      | .ok svg => writeBuf outBuf outBufLen svg

/-- `callbook_map_svg_required_len`. -/
def callbookMapSvgRequiredLen (mapSvg : Db → Str → Except Int32 Str) (db : Option Db)
    (callsign : Option Bytes) : Int32 :=
  match db with
  | none => callbookEUsage
  | some handle =>
    match readCstr callsign with
    | none => callbookEUsage
    | some call =>
      match mapSvg handle call with
      | .error code => code
      | .ok svg => clampLen (svg.length + 1)

end Exports

/-! ### One result -/

/-- The buffer holds the string and a NUL behind it. -/
structure HoldsCString (memory : Memory) (s : Str) : Prop where
  bytes : ∀ i b, s[i]? = some b → memory i = b
  nul : memory s.length = 0

/-- A caller who asks for the size of `s` can have it written into a buffer of that size or more, is
told so when the buffer is smaller, and nothing is written behind the end of the buffer. -/
structure SizeQuery (s : Str) (required : Int32) (write : Memory → Int32 → Written) : Prop where
  fits : ∀ memory cap, required ≤ cap → (write memory cap).code.toInt = s.length ∧
    ∃ after, (write memory cap).outBuf = some after ∧ HoldsCString after s
  tooSmall : ∀ memory cap, cap < required →
    (write memory cap).code < 0 ∧ (write memory cap).outBuf = some memory
  inside : ∀ memory cap, ∃ after, (write memory cap).outBuf = some after ∧
    ∀ i : ℕ, cap.toInt ≤ i → after i = memory i

lemma toInt_clampLen (n : ℕ) : (clampLen n).toInt = (min n (2 ^ 31 - 1) : ℕ) := by
  rw [clampLen, Int32.toInt_ofNat_of_lt (by omega)]

lemma holdsCString_store (memory : Memory) (s : Str) :
    HoldsCString ((memory.copy s).store s.length 0) s where
  bytes i b hb := by
    have hlt := (List.getElem?_eq_some_iff.mp hb).1
    rw [Memory.store, if_neg hlt.ne, Memory.copy, hb, Option.getD_some]
  nul := if_pos rfl

/-- What writing into a buffer does: a string fits when its NUL does. -/
lemma writeBuf_some (memory : Memory) (cap : Int32) (s : Str) :
    writeBuf (some memory) cap s =
      if cap.toInt ≤ 0 then ⟨callbookEUsage, some memory⟩
      else if cap.toInt ≤ s.length then ⟨callbookEBufferTooSmall, some memory⟩
      else ⟨clampLen s.length, some ((memory.copy s).store s.length 0)⟩ := by
  have hmax := cap.toInt_lt
  rw [writeBuf]
  simp only [Int32.le_iff_toInt_le, Int32.toInt_zero]
  by_cases hcap : cap.toInt ≤ 0
  · rw [if_pos hcap, if_pos hcap]
  · rw [if_neg hcap, if_neg hcap]
    by_cases hshort : cap.toInt ≤ s.length
    · rw [if_pos hshort]
      -- a length that overflows is longer than every buffer
      cases hadd : Usize.checkedAdd s.length 1 with
      | none => rfl
      | some required =>
        rw [Usize.checkedAdd] at hadd
        split_ifs at hadd
        cases hadd
        exact if_pos (by omega)
    · have hfits : s.length + 1 ≤ Usize.max := by
        rw [Usize.max]
        omega
      rw [if_neg hshort, Usize.checkedAdd_eq_some hfits]
      exact if_neg (by omega)

lemma callbookEUsage_neg : callbookEUsage < 0 := by decide

lemma callbookEBufferTooSmall_neg : callbookEBufferTooSmall < 0 := by decide

/-- A buffer without room for the NUL is left as it is. -/
lemma writeBuf_of_le {cap : Int32} {s : Str} (hle : cap.toInt ≤ s.length) (memory : Memory) :
    (writeBuf (some memory) cap s).code < 0 ∧
      (writeBuf (some memory) cap s).outBuf = some memory := by
  rw [writeBuf_some, if_pos hle]
  split_ifs
  · exact ⟨callbookEUsage_neg, rfl⟩
  · exact ⟨callbookEBufferTooSmall_neg, rfl⟩

/-- A string whose length with its NUL fits a `c_int` is written as it was announced. -/
lemma sizeQuery_writeBuf {s : Str} (hlen : s.length < 2 ^ 31 - 1) :
    SizeQuery s (clampLen (s.length + 1)) fun memory cap => writeBuf (some memory) cap s where
  fits memory cap hle := by
    rw [Int32.le_iff_toInt_le, toInt_clampLen] at hle
    rw [writeBuf_some, if_neg (by omega), if_neg (by omega)]
    refine ⟨?_, _, rfl, holdsCString_store memory s⟩
    rw [toInt_clampLen]
    omega
  tooSmall memory cap hlt := by
    rw [Int32.lt_iff_toInt_lt, toInt_clampLen] at hlt
    exact writeBuf_of_le (by omega) memory
  inside memory cap := by
    rw [writeBuf_some]
    split_ifs with hcap hshort
    · exact ⟨memory, rfl, fun i _ => rfl⟩
    · exact ⟨memory, rfl, fun i _ => rfl⟩
    · refine ⟨_, rfl, fun i hi => ?_⟩
      have hbehind : s[i]? = none := List.getElem?_eq_none (by omega)
      rw [Memory.store, if_neg (by omega), Memory.copy, hbehind, Option.getD_none]

/-- A longer string is announced with the largest `c_int`, and no buffer has room for it. -/
lemma writeBuf_of_long {s : Str} (hlen : 2 ^ 31 - 1 ≤ s.length) (memory : Memory) (cap : Int32) :
    clampLen (s.length + 1) = Int32.maxValue ∧ (writeBuf (some memory) cap s).code < 0 ∧
      (writeBuf (some memory) cap s).outBuf = some memory := by
  have hmax := cap.toInt_lt
  refine ⟨?_, writeBuf_of_le (by omega) memory⟩
  rw [← Int32.toInt_inj, toInt_clampLen, Int32.toInt_maxValue]
  omega

/-! ### The protocol -/

section Protocol

variable {Db : Type*} {db : Db} {callsign : Bytes} {call s : Str}

/-- How a size query and the call that follows it deal with `s`: as announced where its length with
its NUL fits a `c_int`, and otherwise every buffer is refused. -/
def Answers (s : Str) (required : Int32) (write : Memory → Int32 → Written) : Prop :=
  (s.length < 2 ^ 31 - 1 → required.toInt = s.length + 1 ∧ SizeQuery s required write) ∧
  (2 ^ 31 - 1 ≤ s.length → required = Int32.maxValue ∧ ∀ memory cap,
    (write memory cap).code < 0 ∧ (write memory cap).outBuf = some memory)

lemma answers_writeBuf (s : Str) : Answers s (clampLen (s.length + 1)) fun memory cap =>
    writeBuf (some memory) cap s := by
  refine ⟨fun hlen => ⟨?_, sizeQuery_writeBuf hlen⟩, fun hlen => ?_⟩
  · rw [toInt_clampLen]
    omega
  · exact ⟨(writeBuf_of_long hlen (fun _ => 0) 0).1, fun memory cap =>
      (writeBuf_of_long hlen memory cap).2⟩

lemma callbookLookupJson_eq {lookupJson : Db → Str → Except Error Str}
    (hcall : readCstr (some callsign) = some call) (hjson : lookupJson db call = .ok s)
    (memory : Memory) (cap : Int32) :
    callbookLookupJson lookupJson (some db) (some callsign) (some memory) cap =
      writeBuf (some memory) cap s := by
  rw [callbookLookupJson]
  split_ifs with h
  · have hcap : cap ≤ 0 := h.resolve_left (by simp)
    rw [writeBuf, if_pos hcap]
  · simp only [hcall, hjson]

lemma callbookMapSvg_eq {mapSvg : Db → Str → Except Int32 Str}
    (hcall : readCstr (some callsign) = some call) (hsvg : mapSvg db call = .ok s)
    (memory : Memory) (cap : Int32) :
    callbookMapSvg mapSvg (some db) (some callsign) (some memory) cap =
      writeBuf (some memory) cap s := by
  simp only [callbookMapSvg, hcall, hsvg]

/-- Whatever the renderers yield for a call, its size is announced, and it is written or refused, in
one way by both pairs of functions. -/
theorem answers_exports (lookupJson : Db → Str → Except Error Str)
    (mapSvg : Db → Str → Except Int32 Str) (hcall : readCstr (some callsign) = some call) :
    (lookupJson db call = .ok s →
      Answers s (callbookLookupJsonRequiredLen lookupJson (some db) (some callsign))
        fun memory cap =>
          callbookLookupJson lookupJson (some db) (some callsign) (some memory) cap) ∧
    (mapSvg db call = .ok s →
      Answers s (callbookMapSvgRequiredLen mapSvg (some db) (some callsign))
        fun memory cap => callbookMapSvg mapSvg (some db) (some callsign) (some memory) cap) := by
  refine ⟨fun hjson => ?_, fun hsvg => ?_⟩
  · simp only [callbookLookupJson_eq hcall hjson, callbookLookupJsonRequiredLen, hcall, hjson]
    exact answers_writeBuf s
  · simp only [callbookMapSvg_eq hcall hsvg, callbookMapSvgRequiredLen, hcall, hsvg]
    exact answers_writeBuf s

theorem answers_oneByte : Answers (ascii "x")
    (callbookLookupJsonRequiredLen (fun _ _ => .ok (ascii "x")) (some ()) (some (ascii "W1AW")))
    fun memory cap =>
      callbookLookupJson (fun _ _ => .ok (ascii "x")) (some ()) (some (ascii "W1AW"))
        (some memory) cap :=
  (answers_exports (fun _ _ => .ok (ascii "x")) (fun _ _ => .ok (ascii "x"))
    (by decide +kernel : readCstr (some (ascii "W1AW")) = some (ascii "W1AW"))).1 rfl

/-- No buffer is large enough for a string of 2 ^ 31 - 1 bytes, whatever its size was said to be. -/
theorem not_sizeQuery_longString : ¬ ∀ (lookupJson : Unit → Str → Except Error Str)
    (callsign : Bytes) (call s : Str), readCstr (some callsign) = some call →
    lookupJson () call = .ok s →
    SizeQuery s (callbookLookupJsonRequiredLen lookupJson (some ()) (some callsign))
      fun memory cap =>
        callbookLookupJson lookupJson (some ()) (some callsign) (some memory) cap := by
  intro h
  have hstrings : ∀ n : ℕ, ∃ s : Str, s.length = n :=
    fun n => ⟨List.replicate n 0x41, List.length_replicate⟩
  obtain ⟨s, hlen⟩ := hstrings (2 ^ 31 - 1)
  have hcall : readCstr (some (ascii "W1AW")) = some (ascii "W1AW") := by decide +kernel
  have hquery := h (fun _ _ => .ok s) _ _ s hcall rfl
  have hfits := (hquery.fits (fun _ => 0) Int32.maxValue (Int32.le_maxValue _)).1
  rw [callbookLookupJson_eq hcall rfl] at hfits
  have hcode := (writeBuf_of_long hlen.ge (fun _ => 0) Int32.maxValue).2.1
  rw [Int32.lt_iff_toInt_lt, hfits, Int32.toInt_zero] at hcode
  omega

end Protocol

end Ffi

end Callbook
