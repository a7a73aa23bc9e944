import AlturaProt.Filter.Rule
import Mathlib.Data.List.Sort

/-!
# What a request looks like to the filters

Two derived descriptions of a request. Its *path shape* replaces the segments of
the path that carry identifiers by placeholders, so that the requests of one
route family share a shape. Its *signature* is a hash of the method, the
normalized path, the query keys and two coarse header classes.
-/

namespace AlturaProt.Filter

open Foundation

/-! ## Path shapes -/

def COMMON_SEGMENTS : List String :=
  ["api", "app", "auth", "blog", "cart", "docs", "home", "jobs", "json", "login", "news",
   "oauth", "order", "price", "store", "users", "subscription", "membership", "onboarding",
   "authentication", "authorization", "notification", "notifications", "preferences",
   "marketplace", "integration", "integrations", "transaction", "transactions",
   "organization", "organizations", "certificate", "certificates", "configuration",
   "documentation", "catalog", "checkout", "dashboard", "inventory", "customers", "products",
   "settings", "profile", "profiles", "analytics", "warehouse", "fulfillment", "warehouses"]

def isCommonPathSegment (segment : Str) : Bool :=
  COMMON_SEGMENTS.any fun common => utf8 common == segment

def isVersionSegment : Str → Bool
  | 0x76 :: rest => !rest.isEmpty && rest.all isAsciiDigit
  | _ => false

def isUuidSegment (segment : Str) : Bool :=
  segment.length == 36 && segment.zipIdx.all fun (byte, idx) =>
    if idx ∈ [8, 13, 18, 23] then byte == 0x2D else isAsciiHexdigit byte

def isLongTokenSegment (segment : Str) : Bool :=
  if segment.length < 10 || !segment.all isAsciiAlphanumeric then false
  else if segment.any isAsciiDigit then true
  else if segment.any isAsciiUppercase then true
  else !isCommonPathSegment segment

def isShortRotatingTokenSegment (segment : Str) : Bool :=
  if !(2 ≤ segment.length && segment.length < 10) || !segment.all isAsciiAlphanumeric then false
  else if isVersionSegment segment || isCommonPathSegment segment then false
  else segment.any fun b => isAsciiDigit b || isAsciiUppercase b

def isLowConfidenceShortTokenSegment (segment : Str) : Bool :=
  (2 ≤ segment.length && segment.length ≤ 3) && segment.all isAsciiLowercase &&
    !isVersionSegment segment && !isCommonPathSegment segment

def appendNormalizedSegment (out segment : Str)
    (includeHighEntropyTokens forceShortToken : Bool) : Str :=
  let out := if out.getLast? = some 0x2F then out else out ++ [0x2F]
  if forceShortToken then out ++ utf8 ":short-token"
  else if segment.all isAsciiDigit then out ++ utf8 ":num"
  else if isUuidSegment segment then out ++ utf8 ":uuid"
  else if 16 ≤ segment.length && segment.all isAsciiHexdigit then out ++ utf8 ":hex"
  else if includeHighEntropyTokens && isLongTokenSegment segment then out ++ utf8 ":token"
  else if includeHighEntropyTokens && isShortRotatingTokenSegment segment then
    out ++ utf8 ":short-token"
  else out ++ segment

/-- A path that would come out empty is the root. -/
def orRoot (out : Str) : Str := if out.isEmpty then utf8 "/" else out

def normalizePathWith (path : Str) (includeHighEntropyTokens : Bool) : Str :=
  orRoot ((path.splitOn 0x2F).foldl (fun out segment =>
    if segment.isEmpty then out ++ [0x2F]
    else appendNormalizedSegment out segment includeHighEntropyTokens false) [])

def normalizePath (path : Str) : Str := normalizePathWith path false

def requestPathShape (path : Str) : Str := normalizePathWith path true

/-- The shape of the path with its first short lowercase segment replaced, and
that segment. -/
def shortTokenParentShape (path : Str) : Option (Str × Str) :=
  let out := (path.splitOn 0x2F).foldl (fun (acc : Str × Option Str) segment =>
    if segment.isEmpty then (acc.1 ++ [0x2F], acc.2)
    else
      let replace := acc.2.isNone && isLowConfidenceShortTokenSegment segment
      (appendNormalizedSegment acc.1 segment true replace,
        if replace then some segment else acc.2)) ([], none)
  out.2.map fun token => (orRoot out.1, token)

/-! ## Headers -/

/-- Field lines in order; names are in lower case. -/
abbrev HeaderMap : Type := List (Str × Str)

def HeaderMap.getAll (headers : HeaderMap) (name : Str) : List Str :=
  (headers.filter fun field => field.1 == name).map Prod.snd

/-- The values of a field that `to_str` accepts. -/
def HeaderMap.textValues (headers : HeaderMap) (name : Str) : List Str :=
  (headers.getAll name).filter fun value => value.all isVisibleAscii

def combinedHeaderValue (headers : HeaderMap) (name : Str) : Option Str :=
  match headers.textValues name with
  | [] => none
  | first :: rest => some (first ++ rest.flatMap fun value => utf8 ", " ++ value)

def asciiContainsIgnoreCase (haystack needle : Str) : Bool :=
  if needle.isEmpty then true
  else if haystack.length < needle.length then false
  else (List.range (haystack.length - needle.length + 1)).any fun i =>
    eqIgnoreAsciiCase ((haystack.drop i).take needle.length) needle

def headerValuesContainIgnoreCase (headers : HeaderMap) (name needle : Str) : Bool :=
  (headers.textValues name).any fun value => asciiContainsIgnoreCase value needle

/-! ## Signatures -/

/-- White space of the characters a header value can show. -/
def isShownWhitespace (b : UInt8) : Bool := b == 0x20 || b == 0x09

def trimShown (s : Str) : Str :=
  ((s.dropWhile isShownWhitespace).reverse.dropWhile isShownWhitespace).reverse

/-- `user_agent_family`; the value is ASCII, as `to_str` has let it through. -/
def userAgentFamily (ua : Str) : Str :=
  let lower := ua.map toAsciiLowercase
  match ["curl", "python", "wrk", "hey", "go-http", "java", "node", "mozilla"].find?
      fun known => containsStr lower (utf8 known) with
  | some known => utf8 known
  | none => (lower.takeWhile fun b => !(b == 0x2F || isShownWhitespace b || b == 0x3B)).take 32

def headerClass (value : Str) : Str :=
  (trimShown ((value.map toAsciiLowercase).takeWhile (· != 0x2C))).take 32

def queryShape (query : Str) : Str :=
  if query.isEmpty then utf8 "none"
  else
    let keys := ((query.splitOn 0x26).map fun pair =>
      ((splitOnce 0x3D pair).map Prod.fst).getD pair).take 16
    (utf8 ",").intercalate (keys.insertionSort (· ≤ ·))

def signatureBasis (method path : Str) (query : Option Str) (headers : HeaderMap) : Str :=
  let ua := ((combinedHeaderValue headers (utf8 "user-agent")).map userAgentFamily).getD
    (utf8 "empty")
  let accept := ((combinedHeaderValue headers (utf8 "accept")).map headerClass).getD
    (utf8 "empty")
  (utf8 "|").intercalate [method.map toAsciiUppercase, normalizePath path,
    queryShape (query.getD []), ua, accept]

def hexDigit (nibble : UInt8) : UInt8 := if nibble < 10 then 0x30 + nibble else 0x57 + nibble

def hexPrefix (bytes : Str) (len : ℕ) : Str :=
  (bytes.take len).flatMap fun (byte : UInt8) => [hexDigit (byte >>> 4), hexDigit (byte &&& 0x0F)]

def fnv1a64 (bytes : Str) : UInt64 :=
  bytes.foldl (fun hash byte => (hash ^^^ byte.toUInt64) * 0x100000001b3) 0xcbf29ce484222325

/-- A 64-bit number as sixteen lowercase hex digits. -/
def hex64 (n : UInt64) : Str :=
  (List.range 16).map fun i => hexDigit ((n >>> (60 - 4 * i).toUInt64).toUInt8 &&& 0x0F)

/-- `request_signature`, over the hash function `blake3`. -/
def requestSignature (blake3 : Str → Str) (method path : Str) (query : Option Str)
    (headers : HeaderMap) : Str :=
  hexPrefix (blake3 (signatureBasis method path query headers)) REQUEST_SIGNATURE_HASH_BYTES

def legacyRequestSignature (method path : Str) (query : Option Str) (headers : HeaderMap) :
    Str :=
  hex64 (fnv1a64 (signatureBasis method path query headers))

/-! ## A shape and its parent -/

/-- What stands for a segment of the path. -/
def segmentText (segment : Str) : Str :=
  if segment.all isAsciiDigit then utf8 ":num"
  else if isUuidSegment segment then utf8 ":uuid"
  else if 16 ≤ segment.length && segment.all isAsciiHexdigit then utf8 ":hex"
  else if isLongTokenSegment segment then utf8 ":token"
  else if isShortRotatingTokenSegment segment then utf8 ":short-token"
  else segment

/-- The slash before a segment, unless there is one already. -/
def slashAfter (out : Str) : Str := if out.getLast? = some 0x2F then [] else [0x2F]

theorem append_slashAfter (out : Str) :
    (if out.getLast? = some 0x2F then out else out ++ [0x2F]) = out ++ slashAfter out := by
  unfold slashAfter
  split
  · rw [List.append_nil]
  · rfl

theorem appendNormalizedSegment_eq (out segment : Str) (force : Bool) :
    appendNormalizedSegment out segment true force =
      out ++ slashAfter out ++ if force then utf8 ":short-token" else segmentText segment := by
  unfold appendNormalizedSegment segmentText
  rw [append_slashAfter]
  simp only [Bool.true_and, ← apply_ite (out ++ slashAfter out ++ ·)]

/-- One segment of the shape. -/
def shapeStep (out segment : Str) : Str :=
  if segment.isEmpty then out ++ [0x2F] else appendNormalizedSegment out segment true false

/-- One segment of the parent shape. -/
def parentStep (acc : Str × Option Str) (segment : Str) : Str × Option Str :=
  if segment.isEmpty then (acc.1 ++ [0x2F], acc.2)
  else
    let replace := acc.2.isNone && isLowConfidenceShortTokenSegment segment
    (appendNormalizedSegment acc.1 segment true replace,
      if replace then some segment else acc.2)

theorem segmentText_ne_nil {segment : Str} (h : segment ≠ []) : segmentText segment ≠ [] := by
  unfold segmentText
  split_ifs
  · decide
  · decide
  · decide
  · decide
  · decide
  · exact h

/-- What the segments add depends on the text before only by its last slash. -/
theorem foldl_shapeStep_append (segments : List Str) {a b : Str}
    (h : a.getLast? = some 0x2F ↔ b.getLast? = some 0x2F) :
    ∃ back, segments.foldl shapeStep a = a ++ back ∧ segments.foldl shapeStep b = b ++ back := by
  induction segments generalizing a b with
  | nil => exact ⟨[], by simp, by simp⟩
  | cons segment rest ih =>
    -- one step adds the same non-empty text to both
    have hstep : ∃ added, added ≠ [] ∧ shapeStep a segment = a ++ added ∧
        shapeStep b segment = b ++ added := by
      have hslash : slashAfter a = slashAfter b := by simp only [slashAfter, h]
      unfold shapeStep
      split
      · exact ⟨[0x2F], by simp, rfl, rfl⟩
      · rename_i hsegment
        refine ⟨slashAfter b ++ segmentText segment, ?_, ?_, ?_⟩
        · intro hnil
          have hne : segment ≠ [] := by simpa using hsegment
          exact segmentText_ne_nil hne (List.append_eq_nil_iff.mp hnil).2
        · rw [appendNormalizedSegment_eq, hslash, List.append_assoc]
          rfl
        · rw [appendNormalizedSegment_eq, List.append_assoc]
          rfl
    obtain ⟨added, hne, ha, hb⟩ := hstep
    obtain ⟨back, hback⟩ := ih (a := a ++ added) (b := b ++ added) (by
      rw [List.getLast?_append_of_ne_nil _ hne, List.getLast?_append_of_ne_nil _ hne])
    refine ⟨added ++ back, ?_⟩
    rw [List.foldl_cons, List.foldl_cons, ha, hb, ← List.append_assoc, ← List.append_assoc]
    exact hback

/-- Once a segment is replaced the parent goes on like the shape. -/
theorem foldl_parentStep_some (segments : List Str) (out token : Str) :
    segments.foldl parentStep (out, some token) = (segments.foldl shapeStep out, some token) := by
  induction segments generalizing out with
  | nil => rfl
  | cons segment rest ih =>
    have hstep : parentStep (out, some token) segment = (shapeStep out segment, some token) := by
      unfold parentStep shapeStep
      split <;> rfl
    rw [List.foldl_cons, List.foldl_cons, hstep, ih]

theorem segmentText_lowConfidence {token : Str}
    (h : isLowConfidenceShortTokenSegment token = true) : segmentText token = token := by
  have hletter : ∀ b : UInt8, isAsciiLowercase b = true →
      isAsciiDigit b = false ∧ isAsciiUppercase b = false := by
    intro b
    simp only [isAsciiLowercase, isAsciiDigit, isAsciiUppercase, Bool.and_eq_true,
      decide_eq_true_eq, Bool.and_eq_false_iff, decide_eq_false_iff_not, UInt8.le_iff_toNat_le,
      UInt8.reduceToNat]
    omega
  simp only [isLowConfidenceShortTokenSegment, Bool.and_eq_true, decide_eq_true_eq,
    List.all_eq_true] at h
  obtain ⟨⟨⟨⟨hmin, hmax⟩, hlower⟩, -⟩, -⟩ := h
  have hdigits : token.all isAsciiDigit = false := by
    obtain ⟨b, hb⟩ := List.exists_mem_of_length_pos (by omega : 0 < token.length)
    exact List.all_eq_false.mpr ⟨b, hb, by simp [(hletter b (hlower b hb)).1]⟩
  have hrotating : isShortRotatingTokenSegment token = false := by
    have hany : (token.any fun b => isAsciiDigit b || isAsciiUppercase b) = false := by
      rw [List.any_eq_false]
      intro b hb
      simp [hletter b (hlower b hb)]
    simp [isShortRotatingTokenSegment, hany]
  have huuid : isUuidSegment token = false := by
    have : token.length ≠ 36 := by omega
    simp [isUuidSegment, this]
  have hlong : isLongTokenSegment token = false := by
    have : token.length < 10 := by omega
    simp [isLongTokenSegment, this]
  have hhex : ¬ 16 ≤ token.length := by omega
  simp [segmentText, hdigits, huuid, hlong, hrotating, hhex]

theorem getLast?_lowConfidence {token : Str} (h : isLowConfidenceShortTokenSegment token = true)
    (front : Str) : (front ++ token).getLast? ≠ some 0x2F := by
  simp only [isLowConfidenceShortTokenSegment, Bool.and_eq_true, decide_eq_true_eq,
    List.all_eq_true] at h
  obtain ⟨⟨⟨⟨hmin, -⟩, hlower⟩, -⟩, -⟩ := h
  have hne : token ≠ [] := List.length_pos_iff.mp (by omega)
  rw [List.getLast?_append_of_ne_nil _ hne]
  intro hslash
  exact absurd (hlower _ (List.mem_of_getLast? hslash)) (by decide)

/-- The shape and the parent differ in one segment, a short token of lower-case
letters behind a slash. -/
structure ParentOf (shape parent token : Str) : Prop where
  lowConfidence : isLowConfidenceShortTokenSegment token = true
  parts : ∃ front back, front.getLast? = some 0x2F ∧ shape = front ++ token ++ back ∧
    parent = front ++ utf8 ":short-token" ++ back

theorem foldl_parentStep_none {segments : List Str} {out parent token : Str}
    (h : segments.foldl parentStep (out, none) = (parent, some token)) :
    ParentOf (segments.foldl shapeStep out) parent token := by
  induction segments generalizing out with
  | nil => cases h
  | cons segment rest ih =>
    rw [List.foldl_cons] at h ⊢
    by_cases hreplace : segment.isEmpty = false ∧ isLowConfidenceShortTokenSegment segment = true
    · obtain ⟨hsegment, hlow⟩ := hreplace
      have hparent : parentStep (out, none) segment =
          (appendNormalizedSegment out segment true true, some segment) := by
        simp [parentStep, hsegment, hlow]
      have hshape : shapeStep out segment = appendNormalizedSegment out segment true false := by
        simp [shapeStep, hsegment]
      rw [hparent, foldl_parentStep_some] at h
      obtain ⟨hparent', htoken⟩ := Prod.mk.inj h
      obtain rfl := Option.some.inj htoken
      rw [appendNormalizedSegment_eq, if_pos rfl] at hparent'
      rw [hshape, appendNormalizedSegment_eq, if_neg Bool.false_ne_true,
        segmentText_lowConfidence hlow]
      -- both go on after a letter
      have hplaceholder : (out ++ slashAfter out ++ utf8 ":short-token").getLast? ≠
          some 0x2F := by
        rw [List.getLast?_append_of_ne_nil _ (by decide)]
        decide
      obtain ⟨back, hback, hback'⟩ := foldl_shapeStep_append rest
        (iff_of_false (getLast?_lowConfidence hlow (out ++ slashAfter out)) hplaceholder)
      refine ⟨hlow, out ++ slashAfter out, back, ?_, hback, hparent'.symm.trans hback'⟩
      unfold slashAfter
      split
      · simpa using ‹_›
      · simp
    · -- the segment is treated alike, and the search goes on
      have hsame : parentStep (out, none) segment = (shapeStep out segment, none) := by
        unfold parentStep shapeStep
        split
        · rfl
        · rename_i hsegment
          have hlow : isLowConfidenceShortTokenSegment segment = false := by
            rw [Bool.eq_false_iff]
            exact fun hlow => hreplace ⟨Bool.eq_false_iff.mpr hsegment, hlow⟩
          simp [hlow]
      rw [hsame] at h
      exact ih h

/-- **A shape and its parent.** -/
theorem parentOf_shortTokenParentShape {path parent token : Str}
    (h : shortTokenParentShape path = some (parent, token)) :
    ParentOf (requestPathShape path) parent token := by
  obtain ⟨token', htoken, heq⟩ := Option.map_eq_some_iff.mp h
  obtain ⟨hparent, rfl⟩ := Prod.mk.inj heq
  have hfold : (path.splitOn 0x2F).foldl parentStep ([], none) =
    (((path.splitOn 0x2F).foldl parentStep ([], none)).1, some token') := Prod.ext rfl htoken
  have hparts := foldl_parentStep_none hfold
  obtain ⟨front, back, hfront, hshape, hparent'⟩ := hparts.parts
  -- neither is empty, so the root is not put in their place
  have hroot : ∀ x : Str, orRoot (front ++ x ++ back) = front ++ x ++ back := by
    intro x
    have hne : front ≠ [] := by
      rintro rfl
      cases hfront
    exact if_neg (by simp [hne])
  refine ⟨hparts.lowConfidence, front, back, hfront, ?_, ?_⟩
  · have hrequest : requestPathShape path = orRoot ((path.splitOn 0x2F).foldl shapeStep []) := rfl
    rw [hrequest, hshape, hroot]
  · have hparentEq : parent = orRoot ((path.splitOn 0x2F).foldl parentStep ([], none)).1 :=
      hparent.symm
    rw [hparentEq, hparent', hroot]

example : requestPathShape (utf8 "/api/ab/42/Xy7/9f86d081884c7d65") =
    utf8 "/api/ab/:num/:short-token/:hex" := by decide +kernel

example : shortTokenParentShape (utf8 "/api/ab/42") =
    some (utf8 "/api/:short-token/:num", utf8 "ab") := by decide +kernel

end AlturaProt.Filter
