import AlturaProt.Http.RawHead
import AlturaProt.Http.Rewrite

/-!
# Body framing, raw and parsed

What frames the body of a request is checked twice in `src/http_proxy.rs`: on the
bytes of the first head of a connection (`validate_raw_http1_header_block`), and
on the header map of every request (`validate_request_framing`). The raw check
counts lines in one pass and looks at the counts afterwards; the other one asks
the map for one field after the other.

Both are described by the same conditions on the lines of the two fields
(`WellFramed`), and differ only in which lengths they let through.
-/

namespace AlturaProt.Http

open Foundation Filter

/-! ## The check on the header map -/

def validateParsedContentLength (value : Str) (invalidReason : String) : Except String Unit := do
  rejectIf (!value.all isVisibleAscii) invalidReason
  let value := trimBy isShownWhitespace value
  rejectIf (value.isEmpty || decide (0x2C ∈ value) || !value.all isAsciiDigit) invalidReason
  let _ ← (parseUnsigned (2 ^ 64) value).mapError fun _ => invalidReason

/-- The same steps for requests and for responses of the upstream, which differ in
the word that the complaints add and in the check of the coding. -/
def validateFraming (word : String) (validateCoding : Str → Except String Unit)
    (headers : HeaderMap) : Except String Unit := do
  let contentLengths := headers.getAll (utf8 "content-length")
  rejectIf (decide (1 < contentLengths.length)) ("multiple " ++ word ++ "content-length headers")
  checkSome (validateParsedContentLength · ("invalid " ++ word ++ "content-length header"))
    contentLengths.head?
  match headers.getAll (utf8 "transfer-encoding") with
  | [] => return
  | transferEncoding :: others => do
      rejectIf contentLengths.head?.isSome
        ("ambiguous " ++ word ++ "transfer-encoding and content-length")
      rejectIf (!others.isEmpty) ("multiple " ++ word ++ "transfer-encoding headers")
      validateCoding transferEncoding

def validateRequestFraming (headers : HeaderMap) (allowChunkedRequestBodies : Bool) :
    Except String Unit :=
  validateFraming "" (validateTransferEncodingValue · allowChunkedRequestBodies) headers

def validateUpstreamResponseFraming (headers : HeaderMap) : Except String Unit :=
  validateFraming "upstream "
    (fun value => (validateTransferEncodingValue value true).mapError fun _ =>
      "unsupported upstream transfer-encoding") headers

/-! ## Well-framed headers -/

/-- At most one length, an acceptable one, and no coding beside it; at most one
line of codings, and an acceptable one. -/
structure WellFramed (lengthOk codingOk : Str → Prop) (headers : HeaderMap) : Prop where
  one_length : (headers.getAll (utf8 "content-length")).length ≤ 1
  length_ok : ∀ v ∈ headers.getAll (utf8 "content-length"), lengthOk v
  alone : headers.getAll (utf8 "transfer-encoding") ≠ [] →
    headers.getAll (utf8 "content-length") = []
  one_coding : (headers.getAll (utf8 "transfer-encoding")).length ≤ 1
  coding_ok : ∀ v ∈ headers.getAll (utf8 "transfer-encoding"), codingOk v

/-- The digits of a length, of any size. -/
def IsLength (value : Str) : Prop := value ≠ [] ∧ value.all isAsciiDigit = true

theorem validateRawContentLength_ok_iff {value : Str} :
    validateRawContentLength value = .ok () ↔ IsLength value := by
  have hcomma : value.all isAsciiDigit = true → 0x2C ∉ value := by
    intro h hmem
    exact absurd (List.all_eq_true.mp h _ hmem) (by decide)
  rw [validateRawContentLength, rejectIf_eq_ok]
  simp only [Bool.or_eq_false_iff, List.isEmpty_eq_false_iff, decide_eq_false_iff_not,
    Bool.not_eq_eq_eq_not, Bool.not_false]
  exact ⟨fun h => ⟨h.1.1, h.2⟩, fun h => ⟨⟨h.1, hcomma h.2⟩, h.2⟩⟩

theorem isLength_visible {value : Str} (h : IsLength value) : value.all isVisibleAscii = true := by
  have hbyte : ∀ b : UInt8, isAsciiDigit b = true → isVisibleAscii b = true := by
    intro b hb
    simp only [isAsciiDigit, isVisibleAscii, Bool.and_eq_true, Bool.or_eq_true,
      decide_eq_true_eq, UInt8.le_iff_toNat_le, UInt8.lt_iff_toNat_lt, UInt8.reduceToNat] at hb ⊢
    omega
  exact List.all_eq_true.mpr fun b hb => hbyte b (List.all_eq_true.mp h.2 b hb)

/-- On a value without blanks around it, the parsed check adds the bound of the
integer type. -/
theorem validateParsedContentLength_ok_iff {value : Str} {invalidReason : String}
    (htrim : trimHeaderValue value = value) :
    validateParsedContentLength value invalidReason = .ok () ↔
      IsLength value ∧ decimalValue value < 2 ^ 64 := by
  have htrim' : trimBy isShownWhitespace value = value := htrim
  have hraw : rejectIf (value.isEmpty || decide (0x2C ∈ value) || !value.all isAsciiDigit)
      invalidReason = .ok () ↔ IsLength value := by
    rw [← validateRawContentLength_ok_iff, validateRawContentLength, rejectIf_eq_ok, rejectIf_eq_ok]
  have hparse : IsLength value → ((((parseUnsigned (2 ^ 64) value).mapError fun _ =>
      invalidReason) >>= fun _ => pure ()) = .ok () ↔ decimalValue value < 2 ^ 64) := by
    intro h
    rw [parseUnsigned_of_digits (by decide) h.1 h.2]
    split <;> simp_all [Except.mapError, bind, Except.bind, pure, Except.pure]
  unfold validateParsedContentLength
  rw [htrim', bind_eq_ok, bind_eq_ok, hraw, rejectIf_eq_ok]
  constructor
  · rintro ⟨-, hlength, hvalue⟩
    exact ⟨hlength, (hparse hlength).mp hvalue⟩
  · rintro ⟨hlength, hvalue⟩
    exact ⟨by simp [isLength_visible hlength], hlength, (hparse hlength).mpr hvalue⟩

theorem validateFraming_ok_iff {word : String} {validateCoding : Str → Except String Unit}
    {headers : HeaderMap} :
    validateFraming word validateCoding headers = .ok () ↔
      WellFramed (fun v => validateParsedContentLength v
        ("invalid " ++ word ++ "content-length header") = .ok ())
        (fun v => validateCoding v = .ok ()) headers := by
  unfold validateFraming
  rw [bind_eq_ok, bind_eq_ok, rejectIf_eq_ok, checkSome_eq_ok, decide_eq_false_iff_not, not_lt]
  constructor
  · rintro ⟨hone, hlength, hrest⟩
    have hall : ∀ v ∈ headers.getAll (utf8 "content-length"),
        validateParsedContentLength v ("invalid " ++ word ++ "content-length header") = .ok () := by
      cases hlengths : headers.getAll (utf8 "content-length") with
      | nil => simp
      | cons v others =>
        rw [hlengths] at hone hlength
        have hothers : others = [] := by
          simpa using hone
        subst hothers
        simpa using hlength
    cases hcodings : headers.getAll (utf8 "transfer-encoding") with
    | nil =>
      exact ⟨hone, hall, fun h => absurd hcodings h, by simp [hcodings], by simp [hcodings]⟩
    | cons coding others =>
      rw [hcodings] at hrest
      simp only [bind_eq_ok, rejectIf_eq_ok] at hrest
      obtain ⟨hnone, hothers, hcoding⟩ := hrest
      have hothers : others = [] := by simpa using hothers
      refine ⟨hone, hall, fun _ => ?_, by simp [hcodings, hothers], ?_⟩
      · simpa using hnone
      · simpa [hcodings, hothers] using hcoding
  · intro h
    refine ⟨h.one_length, fun v hv => h.length_ok v (List.mem_of_mem_head? hv), ?_⟩
    cases hcodings : headers.getAll (utf8 "transfer-encoding") with
    | nil => rfl
    | cons coding others =>
      have halone := h.alone (by simp [hcodings])
      have hothers : others = [] := by
        have := h.one_coding
        rw [hcodings] at this
        simpa using this
      have hcoding := h.coding_ok coding (by simp [hcodings])
      simp [bind_eq_ok, halone, hothers, hcoding]

/-! ## A rendered head -/

/-- A field line as a client may write it: the name in any case, and blanks of any
amount around the value. -/
structure HeaderField where
  name : Str
  before : Str
  value : Str
  after : Str
  name_valid : headerNameFromBytes name ≠ none
  value_valid : IsHeaderText value
  value_trimmed : trimHeaderValue value = value
  before_blank : ∀ b ∈ before, isBlankByte b = true
  after_blank : ∀ b ∈ after, isBlankByte b = true

def crlf : Str := [0x0D, 0x0A]

namespace HeaderField

/-- The line without its end. -/
def text (field : HeaderField) : Str :=
  field.name ++ 0x3A :: (field.before ++ field.value ++ field.after)

/-- What the header map holds for the line. -/
def entry (field : HeaderField) : Str × Str := (field.name.map toAsciiLowercase, field.value)

theorem name_isToken (field : HeaderField) :
    field.name ≠ [] ∧ ∀ b ∈ field.name, isTokenByte b = true := by
  have h := field.name_valid
  unfold headerNameFromBytes at h
  split at h
  · exact absurd rfl h
  · rename_i hvalid
    simp only [Bool.or_eq_true, List.isEmpty_iff, decide_eq_true_eq, Bool.not_eq_true',
      not_or, Bool.not_eq_false] at hvalid
    exact ⟨hvalid.1.1, List.all_eq_true.mp hvalid.2⟩

theorem notMem_name (field : HeaderField) {b : UInt8} (hb : isTokenByte b = false) :
    b ∉ field.name := by
  intro hmem
  rw [field.name_isToken.2 b hmem] at hb
  cases hb

/-- No line feed is left in a line. -/
theorem lf_notMem_text (field : HeaderField) : 0x0A ∉ field.text := by
  have hname : 0x0A ∉ field.name := field.notMem_name (by decide)
  have hbefore : 0x0A ∉ field.before := notMem_of_blank rfl field.before_blank
  have hafter : 0x0A ∉ field.after := notMem_of_blank rfl field.after_blank
  have hvalue : 0x0A ∉ field.value := fun hmem =>
    absurd (List.all_eq_true.mp field.value_valid _ hmem) (by decide)
  simp [text, hname, hbefore, hvalue, hafter]

theorem text_ne_nil (field : HeaderField) : field.text ≠ [] := by simp [text]

end HeaderField

/-- The head: the request line and the field lines, and what follows them. -/
def renderHead (line : Str) (fields : List HeaderField) (ending : Str) : Str :=
  line ++ crlf ++ fields.flatMap (fun field => field.text ++ crlf) ++ ending

/-- Nothing follows the fields, or an empty line and anything after it. -/
def IsHeadEnding (ending : Str) : Prop := ending = [] ∨ ∃ rest, ending = crlf ++ rest

theorem splitOn_append_crlf {line : Str} (h : 0x0A ∉ line) (rest : Str) :
    (line ++ crlf ++ rest).splitOn 0x0A = (line ++ [0x0D]) :: rest.splitOn 0x0A := by
  have hline : line ++ crlf ++ rest = (line ++ [0x0D]) ++ 0x0A :: rest := by simp [crlf]
  have hnot : (0x0A : UInt8) ∉ line ++ [0x0D] := by simp [h]
  have hsplit : ((line ++ [0x0D]) ++ 0x0A :: rest).splitOn 0x0A =
      (line ++ [0x0D]).splitOn 0x0A ++ rest.splitOn 0x0A :=
    List.splitOnP_append_cons (line ++ [0x0D]) rest (beq_self_eq_true 0x0A)
  rw [hline, hsplit, List.splitOn_eq_singleton hnot]
  rfl

theorem splitOn_fields (fields : List HeaderField) (rest : Str) :
    (fields.flatMap (fun field => field.text ++ crlf) ++ rest).splitOn 0x0A =
      fields.map (fun field => field.text ++ [0x0D]) ++ rest.splitOn 0x0A := by
  induction fields with
  | nil => rfl
  | cons field fields ih =>
    rw [List.flatMap_cons, List.append_assoc, splitOn_append_crlf field.lf_notMem_text, ih]
    rfl

theorem stripCr_snoc (line : Str) : stripCr (line ++ [0x0D]) = line := by simp [stripCr]

/-- The loops over the lines see the fields, and nothing else. -/
theorem headerLines_renderHead {line : Str} (hline : 0x0A ∉ line) (fields : List HeaderField)
    {ending : Str} (hending : IsHeadEnding ending) :
    headerLines (renderHead line fields ending) = fields.map HeaderField.text := by
  have hstop : ((ending.splitOn 0x0A).map stripCr).takeWhile (!·.isEmpty) = [] := by
    rcases hending with rfl | ⟨rest, rfl⟩
    · rfl
    · rfl
  have hstrip : (fields.map fun field => field.text ++ [0x0D]).map stripCr =
      fields.map HeaderField.text := by
    rw [List.map_map]
    exact List.map_congr_left fun field _ => stripCr_snoc field.text
  rw [headerLines, renderHead, List.append_assoc (line ++ crlf), splitOn_append_crlf hline,
    List.tail_cons, splitOn_fields, List.map_append, hstrip, List.takeWhile_append_of_pos, hstop,
    List.append_nil]
  intro text htext
  obtain ⟨field, -, rfl⟩ := List.mem_map.mp htext
  simp [field.text_ne_nil]

theorem requestLine_renderHead {line : Str} (hline : 0x0A ∉ line) (fields : List HeaderField)
    (ending : Str) : requestLine (renderHead line fields ending) = line ++ [0x0D] := by
  rw [requestLine, renderHead, List.append_assoc (line ++ crlf), splitOn_append_crlf hline]
  rfl

/-! ## The raw check on a rendered head -/

/-- A line is taken apart where it was put together. -/
theorem checkRawHeaderLine_text (framing : RawFraming) (field : HeaderField) :
    checkRawHeaderLine framing field.text =
      if field.entry.1 = utf8 "content-length" then do
        validateRawContentLength field.value
        return { framing with contentLengthCount := framing.contentLengthCount + 1 }
      else if field.entry.1 = utf8 "transfer-encoding" then
        .ok { framing with
          transferEncodingCount := framing.transferEncodingCount + 1
          transferEncodingValue := some field.value }
      else .ok framing := by
  obtain ⟨hne, htoken⟩ := field.name_isToken
  have hhead : ¬(field.text.head? = some 0x20 ∨ field.text.head? = some 0x09) := by
    obtain ⟨b, rest, hname⟩ := List.exists_cons_of_ne_nil hne
    have hb := htoken b (by simp [hname])
    have hfirst : field.text.head? = some b := by simp [HeaderField.text, hname]
    rw [hfirst]
    rintro (h | h) <;> rw [Option.some.inj h] at hb <;> exact absurd hb (by decide)
  have hcolon : field.text.idxOf? 0x3A = some field.name.length := by
    have hnot : field.name.idxOf? 0x3A = none :=
      List.idxOf?_eq_none_iff.mpr (field.notMem_name (by decide))
    rw [List.idxOf?] at hnot ⊢
    simp [HeaderField.text, List.findIdx?_append, List.findIdx?_cons, hnot]
  have hvalue : trimHeaderValue (field.before ++ field.value ++ field.after) = field.value := by
    rw [trimHeaderValue, trimBy_append_right field.after_blank,
      trimBy_append_left field.before_blank]
    exact field.value_trimmed
  have hlower : ∀ known : Str, known.map toAsciiLowercase = known →
      (eqIgnoreAsciiCase field.name known = true ↔ field.entry.1 = known) := by
    intro known hknown
    rw [eqIgnoreAsciiCase, hknown, beq_iff_eq]
    rfl
  have htake : field.text.take field.name.length = field.name := by simp [HeaderField.text]
  have hdrop : field.text.drop (field.name.length + 1) =
      field.before ++ field.value ++ field.after := by simp [HeaderField.text]
  unfold checkRawHeaderLine
  rw [if_neg hhead, hcolon]
  dsimp only
  rw [htake, hdrop, hvalue, if_neg field.name_valid]
  simp only [hlower (utf8 "content-length") (by decide),
    hlower (utf8 "transfer-encoding") (by decide)]

/-- What the loop has counted after some fields. -/
def RawFraming.after (framing : RawFraming) (headers : HeaderMap) : RawFraming where
  contentLengthCount :=
    framing.contentLengthCount + (headers.getAll (utf8 "content-length")).length
  transferEncodingCount :=
    framing.transferEncodingCount + (headers.getAll (utf8 "transfer-encoding")).length
  transferEncodingValue :=
    (headers.getAll (utf8 "transfer-encoding")).getLast?.or framing.transferEncodingValue

theorem getAll_cons (entry : Str × Str) (headers : HeaderMap) (name : Str) :
    HeaderMap.getAll (entry :: headers) name =
      if entry.1 = name then entry.2 :: headers.getAll name else headers.getAll name := by
  unfold HeaderMap.getAll
  by_cases h : entry.1 = name
  · simp [h]
  · simp [h]

theorem RawFraming.after_cons (framing : RawFraming) (entry : Str × Str) (headers : HeaderMap) :
    framing.after (entry :: headers) = (framing.after [entry]).after headers := by
  have hlast : ∀ (v : Str) (vs : List Str) (seen : Option Str),
      (v :: vs).getLast?.or seen = vs.getLast?.or ([v].getLast?.or seen) := by
    intro v vs seen
    cases vs with
    | nil => rfl
    | cons w ws => simp [List.getLast?_eq_some_getLast]
  simp only [RawFraming.after, getAll_cons entry headers, getAll_cons entry []]
  have hnil : ∀ name, HeaderMap.getAll [] name = [] := fun _ => rfl
  simp only [hnil]
  congr 1
  · split
    · rw [List.length_cons, List.length_singleton]
      omega
    · simp
  · split
    · rw [List.length_cons, List.length_singleton]
      omega
    · simp
  · split
    · exact hlast _ _ _
    · simp

/-- One line adds to the counts, and a length must be one. -/
theorem checkRawHeaderLine_ok_iff (framing framing' : RawFraming) (field : HeaderField) :
    checkRawHeaderLine framing field.text = .ok framing' ↔
      (∀ v ∈ HeaderMap.getAll [field.entry] (utf8 "content-length"), IsLength v) ∧
        framing' = framing.after [field.entry] := by
  have hnames : utf8 "content-length" ≠ utf8 "transfer-encoding" := utf8_ne (by decide)
  have hnil : ∀ name, HeaderMap.getAll [] name = [] := fun _ => rfl
  rw [checkRawHeaderLine_text]
  simp only [RawFraming.after, getAll_cons, hnil]
  by_cases hlength : field.entry.1 = utf8 "content-length"
  · have hcoding : field.entry.1 ≠ utf8 "transfer-encoding" := by rw [hlength]; exact hnames
    rw [if_pos hlength, if_pos hlength, if_neg hcoding, bind_eq_ok_iff]
    simp only [List.mem_singleton, forall_eq]
    rw [← validateRawContentLength_ok_iff]
    constructor
    · rintro ⟨_, hvalid, hcount⟩
      exact ⟨hvalid, (Except.ok.inj hcount).symm⟩
    · rintro ⟨hvalid, rfl⟩
      exact ⟨(), hvalid, rfl⟩
  · rw [if_neg hlength, if_neg hlength]
    by_cases hcoding : field.entry.1 = utf8 "transfer-encoding"
    · rw [if_pos hcoding, if_pos hcoding]
      simp [HeaderField.entry, eq_comm]
    · rw [if_neg hcoding, if_neg hcoding]
      simp only [Except.ok.injEq, List.not_mem_nil, false_imp_iff, implies_true, true_and]
      exact eq_comm

theorem foldlM_checkRawHeaderLine (fields : List HeaderField) (framing framing' : RawFraming) :
    (fields.map HeaderField.text).foldlM checkRawHeaderLine framing = .ok framing' ↔
      (∀ v ∈ HeaderMap.getAll (fields.map HeaderField.entry) (utf8 "content-length"), IsLength v) ∧
      framing' = framing.after (fields.map HeaderField.entry) := by
  induction fields generalizing framing with
  | nil => simp [HeaderMap.getAll, RawFraming.after, pure, Except.pure, eq_comm]
  | cons field fields ih =>
    have hmem : ∀ v, v ∈ HeaderMap.getAll (field.entry :: fields.map HeaderField.entry)
        (utf8 "content-length") ↔
        v ∈ HeaderMap.getAll [field.entry] (utf8 "content-length") ∨
        v ∈ HeaderMap.getAll (fields.map HeaderField.entry) (utf8 "content-length") := by
      intro v
      rw [← List.mem_append, HeaderMap.getAll, HeaderMap.getAll, HeaderMap.getAll,
        ← List.map_append, ← List.filter_append]
      rfl
    rw [List.map_cons, List.foldlM_cons, bind_eq_ok_iff, List.map_cons, RawFraming.after_cons]
    simp only [checkRawHeaderLine_ok_iff, ih, hmem, or_imp, forall_and]
    constructor
    · rintro ⟨_, ⟨hfirst, rfl⟩, hrest, rfl⟩
      exact ⟨⟨hfirst, hrest⟩, rfl⟩
    · rintro ⟨⟨hfirst, hrest⟩, rfl⟩
      exact ⟨_, ⟨hfirst, rfl⟩, hrest, rfl⟩

/-- The counts after the loop say the rest. -/
theorem validateRawFraming_after (headers : HeaderMap) (allow : Bool) :
    validateRawFraming (RawFraming.after ⟨0, 0, none⟩ headers) allow = .ok () ↔
      (headers.getAll (utf8 "content-length")).length ≤ 1 ∧
      (headers.getAll (utf8 "transfer-encoding") ≠ [] →
        headers.getAll (utf8 "content-length") = []) ∧
      (headers.getAll (utf8 "transfer-encoding")).length ≤ 1 ∧
      ∀ v ∈ headers.getAll (utf8 "transfer-encoding"),
        validateTransferEncodingValue v allow = .ok () := by
  unfold validateRawFraming RawFraming.after
  rcases headers.getAll (utf8 "content-length") with _ | ⟨l, _ | ⟨l', ls⟩⟩ <;>
    rcases headers.getAll (utf8 "transfer-encoding") with _ | ⟨c, _ | ⟨c', cs⟩⟩ <;>
    simp [validateRawTransferEncoding]

/-- **The raw check** lets a head through iff its fields are well framed. -/
theorem validateRawHttp1HeaderBlock_ok_iff {line : Str} (hline : 0x0A ∉ line)
    (hblank : line.all isAsciiWhitespace = false) (fields : List HeaderField) {ending : Str}
    (hending : IsHeadEnding ending) (allow : Bool) :
    validateRawHttp1HeaderBlock (renderHead line fields ending) allow = .ok () ↔
      WellFramed IsLength (fun v => validateTransferEncodingValue v allow = .ok ())
        (fields.map HeaderField.entry) := by
  have hrequest :
      ((requestLine (renderHead line fields ending)).all isAsciiWhitespace) = false := by
    rw [requestLine_renderHead hline, List.all_append, hblank]
    rfl
  unfold validateRawHttp1HeaderBlock
  rw [hrequest, headerLines_renderHead hline fields hending, bind_eq_ok, rejectIf_eq_ok,
    bind_eq_ok_iff]
  simp only [foldlM_checkRawHeaderLine, true_and]
  constructor
  · rintro ⟨_, ⟨hlengths, rfl⟩, hframing⟩
    obtain ⟨hone, halone, hcoding, hok⟩ := (validateRawFraming_after _ allow).mp hframing
    exact ⟨hone, hlengths, halone, hcoding, hok⟩
  · intro h
    exact ⟨_, ⟨h.length_ok, rfl⟩, (validateRawFraming_after _ allow).mpr
      ⟨h.one_length, h.alone, h.one_coding, h.coding_ok⟩⟩

/-- The one case in which the two checks differ: a single length, too large for the
integer type. -/
def OversizedLength (headers : HeaderMap) : Prop :=
  ∃ v, headers.getAll (utf8 "content-length") = [v] ∧ IsLength v ∧ 2 ^ 64 ≤ decimalValue v

theorem WellFramed.imp {lengthOk lengthOk' codingOk : Str → Prop} {headers : HeaderMap}
    (h : WellFramed lengthOk codingOk headers)
    (himp : ∀ v ∈ headers.getAll (utf8 "content-length"), lengthOk v → lengthOk' v) :
    WellFramed lengthOk' codingOk headers :=
  { h with length_ok := fun v hv => himp v hv (h.length_ok v hv) }

/-- **The parsed check** lets a header map through iff it is well framed and the
length fits. -/
theorem validateRequestFraming_ok_iff (fields : List HeaderField) (allow : Bool) :
    validateRequestFraming (fields.map HeaderField.entry) allow = .ok () ↔
      WellFramed (fun v => IsLength v ∧ decimalValue v < 2 ^ 64)
        (fun v => validateTransferEncodingValue v allow = .ok ())
        (fields.map HeaderField.entry) := by
  have htrim : ∀ v ∈ HeaderMap.getAll (fields.map HeaderField.entry) (utf8 "content-length"),
      trimHeaderValue v = v := by
    intro v hv
    obtain ⟨entry, hentry, rfl⟩ := List.mem_map.mp hv
    obtain ⟨field, -, rfl⟩ := List.mem_map.mp (List.mem_filter.mp hentry).1
    exact field.value_trimmed
  rw [validateRequestFraming, validateFraming_ok_iff]
  constructor
  · intro h
    exact h.imp fun v hv => (validateParsedContentLength_ok_iff (htrim v hv)).mp
  · intro h
    exact h.imp fun v hv => (validateParsedContentLength_ok_iff (htrim v hv)).mpr

/-- **The raw and the parsed check agree** on every head, except on a single length
that only the parsed check rejects. -/
theorem raw_framing_agrees_with_parsed {line : Str} (hline : 0x0A ∉ line)
    (hblank : line.all isAsciiWhitespace = false) (fields : List HeaderField) {ending : Str}
    (hending : IsHeadEnding ending) (allow : Bool) :
    (¬OversizedLength (fields.map HeaderField.entry) →
      (validateRawHttp1HeaderBlock (renderHead line fields ending) allow = .ok () ↔
        validateRequestFraming (fields.map HeaderField.entry) allow = .ok ())) ∧
    (OversizedLength (fields.map HeaderField.entry) →
      validateRequestFraming (fields.map HeaderField.entry) allow ≠ .ok () ∧
      (validateRawHttp1HeaderBlock (renderHead line fields ending) allow = .ok () ↔
        HeaderMap.getAll (fields.map HeaderField.entry) (utf8 "transfer-encoding") = [])) := by
  rw [validateRawHttp1HeaderBlock_ok_iff hline hblank fields hending, Ne,
    validateRequestFraming_ok_iff]
  generalize fields.map HeaderField.entry = headers
  refine ⟨fun hfits => ⟨fun h => h.imp fun v hv hv' => ⟨hv', ?_⟩,
    fun h => h.imp fun _ _ => And.left⟩, ?_⟩
  · -- the length is the only one, so that it is not an oversized one
    by_contra hlarge
    refine hfits ⟨v, ?_, hv', not_lt.mp hlarge⟩
    obtain ⟨w, hw⟩ := List.length_eq_one_iff.mp
      (le_antisymm h.one_length (List.length_pos_of_mem hv))
    rw [hw] at hv ⊢
    rw [List.mem_singleton.mp hv]
  · rintro ⟨v, hlengths, hv, hlarge⟩
    refine ⟨fun h => ?_, fun h => ?_, fun hnone => ?_⟩
    · have := (h.length_ok v (by simp [hlengths])).2
      omega
    · by_contra hsome
      have := h.alone hsome
      simp [hlengths] at this
    · exact ⟨by simp [hlengths], by simpa [hlengths] using hv, fun h => absurd hnone h,
        by simp [hnone], by simp [hnone]⟩

theorem post_line_facts : 0x0A ∉ utf8 "POST /" ∧ (utf8 "POST /").all isAsciiWhitespace = false ∧
    headerNameFromBytes (utf8 "content-LENGTH") ≠ none ∧
    headerNameFromBytes (utf8 "Transfer-Encoding") ≠ none ∧
    IsLength (utf8 "18446744073709551616") ∧ IsHeaderText (utf8 "18446744073709551616") ∧
    trimHeaderValue (utf8 "18446744073709551616") = utf8 "18446744073709551616" ∧
    decimalValue (utf8 "18446744073709551616") = 2 ^ 64 ∧
    IsHeaderText (utf8 "Chunked") ∧ trimHeaderValue (utf8 "Chunked") = utf8 "Chunked" := by
  unfold IsLength IsHeaderText
  decide +kernel

/-- A length of `2^64` with blanks around it, and the line of a chunked body. -/
def oversizedField : HeaderField where
  name := utf8 "content-LENGTH"
  before := [0x20, 0x09]
  value := utf8 "18446744073709551616"
  after := [0x20]
  name_valid := post_line_facts.2.2.1
  value_valid := post_line_facts.2.2.2.2.2.1
  value_trimmed := post_line_facts.2.2.2.2.2.2.1
  before_blank := by simp [isBlankByte]
  after_blank := by simp [isBlankByte]

def chunkedField : HeaderField where
  name := utf8 "Transfer-Encoding"
  before := []
  value := utf8 "Chunked"
  after := [0x09]
  name_valid := post_line_facts.2.2.2.1
  value_valid := post_line_facts.2.2.2.2.2.2.2.2.1
  value_trimmed := post_line_facts.2.2.2.2.2.2.2.2.2
  before_blank := by simp
  after_blank := by simp [isBlankByte]

/-- The oversized length passes the raw check alone. A chunked body passes both
checks or none. -/
theorem raw_and_parsed_on_oversized_and_chunked :
    (OversizedLength [oversizedField.entry] ∧
      validateRequestFraming [oversizedField.entry] false ≠ .ok () ∧
      validateRawHttp1HeaderBlock (renderHead (utf8 "POST /") [oversizedField] crlf) false =
        .ok ()) ∧
    ¬OversizedLength [chunkedField.entry] ∧
    (validateRawHttp1HeaderBlock (renderHead (utf8 "POST /") [chunkedField] []) true = .ok () ↔
      validateRequestFraming [chunkedField.entry] true = .ok ()) := by
  obtain ⟨hline, hblank, -, -, hlength, -, -, hvalue, -⟩ := post_line_facts
  obtain ⟨hname, hother, hchunked⟩ : oversizedField.entry.1 = utf8 "content-length" ∧
      oversizedField.entry.1 ≠ utf8 "transfer-encoding" ∧
      chunkedField.entry.1 ≠ utf8 "content-length" := by decide +kernel
  have hnil : ∀ name, HeaderMap.getAll [] name = [] := fun _ => rfl
  have hover : OversizedLength [oversizedField.entry] :=
    ⟨_, by rw [getAll_cons, if_pos hname, hnil]; rfl, hlength, hvalue.ge⟩
  have hfits : ¬OversizedLength [chunkedField.entry] := by
    rintro ⟨v, hlengths, -⟩
    cases hlengths
  obtain ⟨hparsed, hraw⟩ := (raw_framing_agrees_with_parsed hline hblank [oversizedField]
    (.inr ⟨[], rfl⟩) false).2 hover
  refine ⟨⟨hover, hparsed, hraw.mpr ?_⟩, hfits,
    (raw_framing_agrees_with_parsed hline hblank [chunkedField] (.inl rfl) true).1 hfits⟩
  show HeaderMap.getAll [oversizedField.entry] _ = []
  rw [getAll_cons, if_neg hother, hnil]

end AlturaProt.Http
