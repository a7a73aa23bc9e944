import AlturaProt.Http.Framing

/-!
# Methods, codings, expectations and ranges

The checks of `handle_http` in `src/http_proxy.rs` between the client's address and the request
target: `method_allowed`, `validate_method_override_headers`,
`validate_request_content_encoding`, `validate_request_expect` and `validate_request_range`. Each
looks at the lines of its own fields. Two of them read a list of words with the same loop; the
one for ranges reads a small language of its own, and accepts exactly that language
(`field_checks_exact`).
-/

namespace AlturaProt.Http

open Foundation Filter

/-! ## Methods -/

def methodAllowed (method : Str) (allowedMethods : List String) : Bool :=
  allowedMethods.any fun allowed => utf8 allowed == method

def methodOverrideNames : List Str :=
  ["x-http-method", "x-http-method-override", "x-method-override"].map utf8

def validateMethodOverrideHeaders (headers : HeaderMap) (allowOverrideHeaders : Bool) :
    Except String Unit :=
  rejectIf (!allowOverrideHeaders &&
    methodOverrideNames.any fun name => !(headers.getAll name).isEmpty)
    "method override headers not allowed"

variable {headers : HeaderMap} {allow : Bool} {known : Str → Bool} {unsupported : String}
  {maxRanges : ℕ}

theorem methodOverride_ok_iff :
    validateMethodOverrideHeaders headers allow = .ok () ↔
      allow = true ∨ ∀ name ∈ methodOverrideNames, headers.getAll name = [] := by
  rw [validateMethodOverrideHeaders, rejectIf_eq_ok]
  cases allow <;> simp

/-! ## Lists of words -/

/-- The next word of a line; the flag tells whether there was one before. -/
def checkWord (known : Str → Bool) (unsupported : String) (saw : Bool) (word : Str) :
    Except String Bool :=
  if word.isEmpty then .ok saw
  else if known word then .ok true
  else .error unsupported

/-- The words of the next line. -/
def checkWords (known : Str → Bool) (invalid unsupported : String) (saw : Bool) (line : Str) :
    Except String Bool := do
  rejectIf (!line.all isVisibleAscii) invalid
  (items 0x2C isShownWhitespace line).foldlM (checkWord known unsupported) saw

/-- All lines of a field, which have to have a word. -/
def validateWords (known : Str → Bool) (invalid unsupported : String) (lines : List Str) :
    Except String Unit := do
  let saw ← lines.foldlM (checkWords known invalid unsupported) false
  rejectIf (!saw) invalid

def validateRequestContentEncoding (headers : HeaderMap) (allowCompressedRequestBodies : Bool) :
    Except String Unit :=
  match headers.getAll (utf8 "content-encoding") with
  | [] => .ok ()
  | lines =>
    validateWords
      (fun coding => allowCompressedRequestBodies || eqIgnoreAsciiCase coding (utf8 "identity"))
      "invalid request content-encoding" "unsupported request content-encoding" lines

def validateRequestExpect (headers : HeaderMap) (allowExpectContinue : Bool) :
    Except String Unit :=
  match headers.getAll (utf8 "expect") with
  | [] => .ok ()
  | lines => do
      rejectIf (!allowExpectContinue) "expect header not supported"
      validateWords (eqIgnoreAsciiCase · (utf8 "100-continue"))
        "invalid expect header" "unsupported expectation" lines

/-- The lines are text, and list known words and at least one. -/
structure ListsWords (known : Str → Bool) (lines : List Str) : Prop where
  words : ∀ line ∈ lines, line.all isVisibleAscii = true ∧
    ∀ word ∈ items 0x2C isShownWhitespace line, word = [] ∨ known word = true
  one : ∃ line ∈ lines, ∃ word ∈ items 0x2C isShownWhitespace line, word ≠ []

theorem checkWord_ok_iff (saw : Bool) (word : Str) (b : Bool) :
    checkWord known unsupported saw word = .ok b ↔
      (word = [] ∨ known word = true) ∧ b = (saw || !word.isEmpty) := by
  cases word with
  | nil =>
    show Except.ok saw = .ok b ↔ _
    rw [Except.ok.injEq, eq_comm]
    simp
  | cons c rest =>
    show (if known (c :: rest) then Except.ok true else .error unsupported) = .ok b ↔ _
    by_cases hknown : known (c :: rest) = true
    · simp [hknown]
    · simp [hknown]

theorem checkWords_ok_iff {invalid : String} (saw : Bool) (line : Str) (b : Bool) :
    checkWords known invalid unsupported saw line = .ok b ↔
      (line.all isVisibleAscii = true ∧
        ∀ word ∈ items 0x2C isShownWhitespace line, word = [] ∨ known word = true) ∧
      b = (saw || (items 0x2C isShownWhitespace line).any fun word => !word.isEmpty) := by
  rw [checkWords, rejectIf_bind_eq_ok, foldlM_flag checkWord_ok_iff, Bool.not_eq_eq_eq_not,
    Bool.not_false, and_assoc]

theorem validateWords_ok_iff {invalid : String} {lines : List Str} :
    validateWords known invalid unsupported lines = .ok () ↔ ListsWords known lines := by
  rw [validateWords, bind_eq_ok_iff]
  simp only [foldlM_flag checkWords_ok_iff, rejectIf_eq_ok]
  constructor
  · rintro ⟨saw, ⟨hwords, hsaw⟩, hone⟩
    refine ⟨hwords, ?_⟩
    rw [hsaw] at hone
    simpa using hone
  · rintro ⟨hwords, hone⟩
    refine ⟨true, ⟨hwords, ?_⟩, rfl⟩
    symm
    simpa using hone

theorem contentEncoding_ok_iff :
    validateRequestContentEncoding headers allow = .ok () ↔
      headers.getAll (utf8 "content-encoding") = [] ∨
        ListsWords (fun coding => allow || eqIgnoreAsciiCase coding (utf8 "identity"))
          (headers.getAll (utf8 "content-encoding")) := by
  unfold validateRequestContentEncoding
  split
  · rename_i hnone
    exact iff_of_true rfl (Or.inl hnone)
  · rename_i hsome
    rw [validateWords_ok_iff, or_iff_right hsome]

theorem expect_ok_iff :
    validateRequestExpect headers allow = .ok () ↔
      headers.getAll (utf8 "expect") = [] ∨
        (allow = true ∧ ListsWords (eqIgnoreAsciiCase · (utf8 "100-continue"))
          (headers.getAll (utf8 "expect"))) := by
  unfold validateRequestExpect
  split
  · rename_i hnone
    exact iff_of_true rfl (Or.inl hnone)
  · rename_i hsome
    rw [bind_eq_ok, rejectIf_eq_ok, validateWords_ok_iff, or_iff_right hsome]
    simp

/-! ## Ranges -/

def invalidByteRange : String := "invalid byte range"

/-- The two ends of a range in order, when it has both. -/
def checkEnds (start stop : Str) : Except String Unit := do
  let start ← (parseUnsigned (2 ^ 128) start).mapError fun _ => invalidByteRange
  let stop ← (parseUnsigned (2 ^ 128) stop).mapError fun _ => invalidByteRange
  rejectIf (stop < start) invalidByteRange

def validateByteRange (range : Str) : Except String Unit :=
  match splitOnce 0x2D range with
  | none => .error invalidByteRange
  | some (start, stop) => do
      rejectIf (decide (0x2D ∈ start) || decide (0x2D ∈ stop) || (start.isEmpty && stop.isEmpty))
        invalidByteRange
      rejectIf (!start.isEmpty && !start.all isAsciiDigit) invalidByteRange
      rejectIf (!stop.isEmpty && !stop.all isAsciiDigit) invalidByteRange
      if !start.isEmpty && !stop.isEmpty then checkEnds start stop else .ok ()

/-- The next range of the header, with the number of those before. -/
def checkRange (maxRanges count : ℕ) (range : Str) : Except String ℕ := do
  rejectIf range.isEmpty invalidByteRange
  rejectIf (maxRanges < count + 1) "too many ranges"
  validateByteRange range
  return count + 1

/-- The one line of the field. -/
def validateRangeLine (range : Str) (maxRanges : ℕ) : Except String Unit := do
  rejectIf (!range.all isVisibleAscii) "invalid range header"
  match splitOnce 0x3D (trimBy isShownWhitespace range) with
  | none => .error "invalid range header"
  | some (unit, specifier) => do
      rejectIf (!eqIgnoreAsciiCase (trimBy isShownWhitespace unit) (utf8 "bytes"))
        "unsupported range unit"
      let specifier := trimBy isShownWhitespace specifier
      rejectIf specifier.isEmpty "invalid range header"
      let _ ← (items 0x2C isShownWhitespace specifier).foldlM (checkRange maxRanges) 0

def validateRequestRange (headers : HeaderMap) (maxRanges : ℕ) : Except String Unit :=
  match headers.getAll (utf8 "range") with
  | [] => .ok ()
  | [range] => validateRangeLine range maxRanges
  | _ :: _ :: _ => .error "multiple range headers"

/-- A byte range, by its digits. -/
inductive ByteRange where
  | between (first last : Str)
  | onwards (first : Str)
  | suffix (length : Str)

def ByteRange.text : ByteRange → Str
  | .between first last => first ++ 0x2D :: last
  | .onwards first => first ++ [0x2D]
  | .suffix length => 0x2D :: length

/-- The ends are numbers. Only when there are two are they compared, and have to be below the
largest number of 128 bits. -/
def ByteRange.Valid : ByteRange → Prop
  | .between first last => IsLength first ∧ IsLength last ∧
      decimalValue first ≤ decimalValue last ∧ decimalValue last < 2 ^ 128
  | .onwards first => IsLength first
  | .suffix length => IsLength length

/-- The lines of the field: a unit, and a list of ranges. -/
def RangeLine (maxRanges : ℕ) (line : Str) : Prop :=
  line.all isVisibleAscii = true ∧ ∃ (unit specifier : Str) (ranges : List ByteRange),
    line = unit ++ 0x3D :: specifier ∧
    eqIgnoreAsciiCase (trimBy isShownWhitespace unit) (utf8 "bytes") = true ∧
    items 0x2C isShownWhitespace specifier = ranges.map ByteRange.text ∧
    ranges.length ≤ maxRanges ∧ ∀ range ∈ ranges, range.Valid

theorem dash_notMem_of_digits {digits : Str} (h : digits.all isAsciiDigit = true) :
    0x2D ∉ digits := by
  intro hmem
  exact absurd (List.all_eq_true.mp h _ hmem) (by decide)

theorem checkEnds_ok_iff {start stop : Str} (hstart : IsLength start) (hstop : IsLength stop) :
    checkEnds start stop = .ok () ↔
      decimalValue start ≤ decimalValue stop ∧ decimalValue stop < 2 ^ 128 := by
  have hbound : 0 < 2 ^ 128 := by decide
  rw [checkEnds, parseUnsigned_of_digits hbound hstart.1 hstart.2,
    parseUnsigned_of_digits hbound hstop.1 hstop.2]
  by_cases hfirst : decimalValue start < 2 ^ 128
  · by_cases hlast : decimalValue stop < 2 ^ 128
    · rw [if_pos hfirst, if_pos hlast]
      show rejectIf _ _ = .ok () ↔ _
      rw [rejectIf_eq_ok, decide_eq_false_iff_not, not_lt]
      exact ⟨fun h => ⟨h, hlast⟩, fun h => h.1⟩
    · rw [if_pos hfirst, if_neg hlast]
      exact iff_of_false nofun fun h => hlast h.2
  · rw [if_neg hfirst]
    exact iff_of_false nofun fun h => hfirst (h.1.trans_lt h.2)

/-- A part that may be missing is made of digits. -/
theorem digits_check {part : Str} :
    (!part.isEmpty && !part.all isAsciiDigit) = false ↔ part = [] ∨ IsLength part := by
  cases part with
  | nil => simp
  | cons b rest =>
    have hne : b :: rest ≠ [] := by simp
    rw [or_iff_right hne, IsLength, and_iff_right hne]
    simp

/-- What is accepted, by the parts before and after the first dash. -/
theorem validateByteRange_parts {start stop : Str} (hstart : 0x2D ∉ start) :
    validateByteRange (start ++ 0x2D :: stop) = .ok () ↔
      (start = [] ∨ IsLength start) ∧ (stop = [] ∨ IsLength stop) ∧ (start ≠ [] ∨ stop ≠ []) ∧
        (start ≠ [] ∧ stop ≠ [] →
          decimalValue start ≤ decimalValue stop ∧ decimalValue stop < 2 ^ 128) := by
  rw [validateByteRange, splitOnce_append stop hstart]
  rw [rejectIf_bind_eq_ok, rejectIf_bind_eq_ok, rejectIf_bind_eq_ok, digits_check, digits_check]
  constructor
  · rintro ⟨hdash, hfirst, hlast, hends⟩
    refine ⟨hfirst, hlast, ?_, ?_⟩
    · by_contra hnone
      simp_all
    · rintro ⟨hs, ht⟩
      rw [if_pos (by simp [hs, ht])] at hends
      exact (checkEnds_ok_iff (hfirst.resolve_left hs) (hlast.resolve_left ht)).mp hends
  · rintro ⟨hfirst, hlast, hsome, hends⟩
    have hstop : 0x2D ∉ stop := by
      rcases hlast with rfl | hlast
      · simp
      · exact dash_notMem_of_digits hlast.2
    refine ⟨?_, hfirst, hlast, ?_⟩
    · rcases hsome with hs | ht
      · simp [hstart, hstop, hs]
      · simp [hstart, hstop, ht]
    · by_cases hboth : start ≠ [] ∧ stop ≠ []
      · rw [if_pos (by simpa using hboth)]
        exact (checkEnds_ok_iff (hfirst.resolve_left hboth.1) (hlast.resolve_left hboth.2)).mpr
          (hends hboth)
      · rw [if_neg (by simpa using hboth)]

theorem validateByteRange_ok_iff {text : Str} :
    validateByteRange text = .ok () ↔ ∃ range : ByteRange, range.text = text ∧ range.Valid := by
  constructor
  · intro h
    have hsplit : ∃ start stop, splitOnce 0x2D text = some (start, stop) := by
      cases hparts : splitOnce 0x2D text with
      | none =>
        rw [validateByteRange, hparts] at h
        cases h
      | some parts => exact ⟨parts.1, parts.2, rfl⟩
    obtain ⟨start, stop, hsplit⟩ := hsplit
    obtain ⟨rfl, hstart⟩ := splitOnce_eq_some_iff.mp hsplit
    obtain ⟨hfirst, hlast, hsome, hends⟩ := (validateByteRange_parts hstart).mp h
    rcases hfirst with rfl | hfirst
    · rcases hlast with rfl | hlast
      · simp at hsome
      · exact ⟨.suffix stop, rfl, hlast⟩
    · rcases hlast with rfl | hlast
      · exact ⟨.onwards start, rfl, hfirst⟩
      · exact ⟨.between start stop, rfl, hfirst, hlast, hends ⟨hfirst.1, hlast.1⟩⟩
  · rintro ⟨range, rfl, hvalid⟩
    cases range with
    | between first last =>
      obtain ⟨hfirst, hlast, hends⟩ := hvalid
      exact (validateByteRange_parts (dash_notMem_of_digits hfirst.2)).mpr
        ⟨Or.inr hfirst, Or.inr hlast, Or.inl hfirst.1, fun _ => hends⟩
    | onwards first =>
      exact (validateByteRange_parts (dash_notMem_of_digits hvalid.2)).mpr
        ⟨Or.inr hvalid, Or.inl rfl, Or.inl hvalid.1, fun h => absurd rfl h.2⟩
    | suffix length =>
      show validateByteRange ([] ++ 0x2D :: length) = .ok ()
      exact (validateByteRange_parts List.not_mem_nil).mpr
        ⟨Or.inl rfl, Or.inr hvalid, Or.inr hvalid.1, fun h => absurd rfl h.1⟩

theorem ByteRange.text_ne_nil (range : ByteRange) : range.text ≠ [] := by
  cases range <;> simp [ByteRange.text]

theorem checkRange_ok_iff (count : ℕ) (range : Str) (next : ℕ) :
    checkRange maxRanges count range = .ok next ↔
      (∃ r : ByteRange, r.text = range ∧ r.Valid) ∧ count < maxRanges ∧ next = count + 1 := by
  rw [checkRange, rejectIf_bind_eq_ok, rejectIf_bind_eq_ok, bind_eq_ok_iff]
  constructor
  · rintro ⟨-, hroom, _, hvalid, hnext⟩
    refine ⟨validateByteRange_ok_iff.mp hvalid, ?_, ?_⟩
    · simpa using hroom
    · cases hnext
      rfl
  · rintro ⟨⟨r, rfl, hvalid⟩, hroom, rfl⟩
    refine ⟨by simpa using r.text_ne_nil, by simpa using hroom, (), ?_, rfl⟩
    exact validateByteRange_ok_iff.mpr ⟨r, rfl, hvalid⟩

/-- A list of texts that are all ranges is the list of some ranges. -/
theorem exists_ranges {texts : List Str}
    (h : ∀ text ∈ texts, ∃ r : ByteRange, r.text = text ∧ r.Valid) :
    ∃ ranges : List ByteRange, texts = ranges.map ByteRange.text ∧ ∀ r ∈ ranges, r.Valid := by
  induction texts with
  | nil => exact ⟨[], rfl, nofun⟩
  | cons text rest ih =>
    obtain ⟨r, rfl, hr⟩ := h text List.mem_cons_self
    obtain ⟨ranges, rfl, hranges⟩ := ih fun t ht => h t (List.mem_cons_of_mem _ ht)
    exact ⟨r :: ranges, rfl, List.forall_mem_cons.mpr ⟨hr, hranges⟩⟩

/-- The list behind the unit. -/
theorem ranges_ok_iff {specifier : Str} {next : ℕ} :
    (items 0x2C isShownWhitespace specifier).foldlM (checkRange maxRanges) 0 = .ok next ↔
      (∃ ranges : List ByteRange,
        items 0x2C isShownWhitespace specifier = ranges.map ByteRange.text ∧
          ranges.length ≤ maxRanges ∧ ∀ range ∈ ranges, range.Valid) ∧
      next = (items 0x2C isShownWhitespace specifier).length := by
  have hne : items 0x2C isShownWhitespace specifier ≠ [] := by
    simp [items]
  rw [foldlM_count checkRange_ok_iff, or_iff_right hne, Nat.zero_add]
  constructor
  · rintro ⟨hranges, hfits, hnext⟩
    obtain ⟨ranges, htexts, hvalid⟩ := exists_ranges hranges
    refine ⟨⟨ranges, htexts, ?_, hvalid⟩, hnext⟩
    rwa [htexts, List.length_map] at hfits
  · rintro ⟨⟨ranges, htexts, hfits, hvalid⟩, hnext⟩
    refine ⟨?_, ?_, hnext⟩
    · intro text htext
      rw [htexts] at htext
      obtain ⟨range, hmem, rfl⟩ := List.mem_map.mp htext
      exact ⟨range, rfl, hvalid range hmem⟩
    · rwa [htexts, List.length_map]

/-- The unit has no sign in it that could be taken for the separator. -/
theorem eq_notMem_of_unit {unit : Str}
    (h : eqIgnoreAsciiCase (trimBy isShownWhitespace unit) (utf8 "bytes") = true) :
    0x3D ∉ unit := by
  obtain ⟨front, back, hunit, hfront, hback⟩ := eq_blanks_trimBy isShownWhitespace unit
  have hword : 0x3D ∉ trimBy isShownWhitespace unit := by
    intro hmem
    have hlower := List.mem_map_of_mem (f := toAsciiLowercase) hmem
    rw [eqIgnoreAsciiCase, beq_iff_eq] at h
    rw [h] at hlower
    exact absurd hlower (by decide)
  rw [hunit]
  have hsep : isShownWhitespace 0x3D = false := by decide
  simp [hword, notMem_of_blank hsep hfront, notMem_of_blank hsep hback]

theorem validateRangeLine_ok_iff {line : Str} :
    validateRangeLine line maxRanges = .ok () ↔ RangeLine maxRanges line := by
  have hcomma : isShownWhitespace 0x2C = false := by decide
  have hequals : isShownWhitespace 0x3D = false := by decide
  obtain ⟨front, back, hfront, hback, hparts⟩ := splitOnce_trimBy hequals line
  rw [validateRangeLine, rejectIf_bind_eq_ok, RangeLine, Bool.not_eq_eq_eq_not, Bool.not_false]
  refine and_congr_right fun _ => ?_
  cases htrim : splitOnce 0x3D (trimBy isShownWhitespace line) with
  | none =>
    rw [htrim] at hparts
    refine iff_of_false nofun ?_
    rintro ⟨unit, specifier, ranges, rfl, hunit, -⟩
    rw [splitOnce_append specifier (eq_notMem_of_unit hunit)] at hparts
    cases hparts
  | some parts =>
    obtain ⟨unit, specifier⟩ := parts
    rw [htrim] at hparts
    obtain ⟨hline, hfree⟩ := splitOnce_eq_some_iff.mp hparts
    have hunit : trimBy isShownWhitespace (front ++ unit) = trimBy isShownWhitespace unit :=
      trimBy_append_left hfront unit
    have hitems : items 0x2C isShownWhitespace (specifier ++ back) =
        items 0x2C isShownWhitespace (trimBy isShownWhitespace specifier) := by
      rw [items_append_right hcomma hback, items_trimBy hcomma]
    rw [rejectIf_bind_eq_ok, rejectIf_bind_eq_ok, bind_eq_ok_iff, Bool.not_eq_eq_eq_not,
      Bool.not_false]
    simp only [ranges_ok_iff]
    constructor
    · rintro ⟨hbytes, -, next, ⟨⟨ranges, htexts, hfits, hvalid⟩, -⟩, -⟩
      exact ⟨front ++ unit, specifier ++ back, ranges, hline, hunit ▸ hbytes,
        hitems ▸ htexts, hfits, hvalid⟩
    · rintro ⟨unit', specifier', ranges, hline', hbytes, htexts, hfits, hvalid⟩
      -- the line has one first separator
      have hsame := splitOnce_append specifier' (eq_notMem_of_unit hbytes)
      rw [← hline', hparts] at hsame
      cases hsame
      rw [hunit] at hbytes
      rw [hitems] at htexts
      refine ⟨hbytes, ?_, _, ⟨⟨ranges, htexts, hfits, hvalid⟩, rfl⟩, rfl⟩
      rw [List.isEmpty_eq_false_iff]
      intro hempty
      rw [hempty] at htexts
      -- an empty list has one empty item, and that is no range
      have hblank : [] ∈ ranges.map ByteRange.text := by
        rw [← htexts]
        exact List.mem_singleton_self _
      obtain ⟨range, -, hrange⟩ := List.mem_map.mp hblank
      exact range.text_ne_nil hrange

theorem validateRequestRange_ok_iff :
    validateRequestRange headers maxRanges = .ok () ↔
      headers.getAll (utf8 "range") = [] ∨
        ∃ line, headers.getAll (utf8 "range") = [line] ∧ RangeLine maxRanges line := by
  unfold validateRequestRange
  split
  · rename_i hnone
    exact iff_of_true rfl (Or.inl hnone)
  · rename_i line hline
    rw [validateRangeLine_ok_iff, hline]
    simp
  · rename_i hmany
    refine iff_of_false nofun ?_
    simp [hmany]

/-! ## Headers with fields left out -/

/-- Headers stay well framed when all lines of a field go. -/
theorem WellFramed.without {lengthOk codingOk : Str → Prop} {headers' : HeaderMap}
    (h : WellFramed lengthOk codingOk headers)
    (hlength : headers'.getAll (utf8 "content-length") = [] ∨
      headers'.getAll (utf8 "content-length") = headers.getAll (utf8 "content-length"))
    (hcoding : headers'.getAll (utf8 "transfer-encoding") = [] ∨
      headers'.getAll (utf8 "transfer-encoding") = headers.getAll (utf8 "transfer-encoding")) :
    WellFramed lengthOk codingOk headers' := by
  have hsub : ∀ l l' : List Str, l' = [] ∨ l' = l → l'.length ≤ l.length ∧ ∀ v ∈ l', v ∈ l := by
    rintro l l' (rfl | rfl)
    · exact ⟨Nat.zero_le _, nofun⟩
    · exact ⟨le_rfl, fun _ hv => hv⟩
  obtain ⟨hlengths, hlength_mem⟩ := hsub _ _ hlength
  obtain ⟨hcodings, hcoding_mem⟩ := hsub _ _ hcoding
  refine ⟨hlengths.trans h.one_length, fun v hv => h.length_ok v (hlength_mem v hv), ?_,
    hcodings.trans h.one_coding, fun v hv => h.coding_ok v (hcoding_mem v hv)⟩
  intro hne
  rcases hlength with hgone | hsame
  · exact hgone
  · rw [hsame]
    apply h.alone
    rcases hcoding with hgone | hsame
    · exact absurd hgone hne
    · rwa [← hsame]

/-! ## What the checks accept -/

/-- **The fields that are let through.** A request passes the three checks iff its
`Content-Encoding` lines list codings, only `identity` unless compressed bodies are allowed; its
`Expect` lines list `100-continue`, which has to be allowed; and it has at most one `Range` line,
which names the unit `bytes` and lists at least one and at most the allowed number of ranges,
each of them well formed. -/
theorem field_checks_exact (headers : HeaderMap) (allowCompressed allowExpect : Bool)
    (maxRanges : ℕ) :
    (validateRequestContentEncoding headers allowCompressed = .ok () ↔
      headers.getAll (utf8 "content-encoding") = [] ∨
        ListsWords (fun coding => allowCompressed || eqIgnoreAsciiCase coding (utf8 "identity"))
          (headers.getAll (utf8 "content-encoding"))) ∧
    (validateRequestExpect headers allowExpect = .ok () ↔
      headers.getAll (utf8 "expect") = [] ∨
        (allowExpect = true ∧ ListsWords (eqIgnoreAsciiCase · (utf8 "100-continue"))
          (headers.getAll (utf8 "expect")))) ∧
    (validateRequestRange headers maxRanges = .ok () ↔
      headers.getAll (utf8 "range") = [] ∨
        ∃ line, headers.getAll (utf8 "range") = [line] ∧ RangeLine maxRanges line) :=
  ⟨contentEncoding_ok_iff, expect_ok_iff, validateRequestRange_ok_iff⟩

example : validateRangeLine (utf8 " Bytes = 0-99, 200- ,-5") 3 = .ok () := by decide +kernel

example : validateRangeLine (utf8 "bytes=9-1") 3 = .error "invalid byte range" := by
  decide +kernel

end AlturaProt.Http
