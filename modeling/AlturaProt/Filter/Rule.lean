import AlturaProt.Foundation.Checks
import AlturaProt.Foundation.Text

/-!
# Filter rules

The rules of `src/filter.rs` and the checks they must pass before the engine
publishes them. A rule names what it matches in its condition and answers with
its action; an adaptive rule sleeps until an activation wakes it.

`validateFilterRules` returns the first complaint, with the path of the field.
`validateFilterRules_eq_ok` says what it lets through: `RuleOk` lists it field
by field and does not depend on where the rule came from.
-/

namespace AlturaProt.Filter

open Foundation

/-! ## Constants -/

def DEFAULT_RUNTIME_FILTER_MAX_BYTES : ℕ := 1024 * 1024
def DEFAULT_RUNTIME_FILTER_MAX_RULES : ℕ := 1024
def DEFAULT_FILTER_MAX_RULE_ID_BYTES : ℕ := 128
def DEFAULT_FILTER_MAX_METHODS : ℕ := 16
def DEFAULT_FILTER_MAX_METHOD_BYTES : ℕ := 32
def DEFAULT_FILTER_MAX_HEADERS : ℕ := 16
def DEFAULT_FILTER_MAX_MATCH_VALUE_BYTES : ℕ := 1024
def DEFAULT_FILTER_MAX_ACTION_BODY_BYTES : ℕ := 1024
def FILTER_TTL_MAX_SECONDS : ℕ := 24 * 60 * 60
def REQUEST_SIGNATURE_HASH_BYTES : ℕ := 16
def CURRENT_SIGNATURE_HEX_CHARS : ℕ := REQUEST_SIGNATURE_HASH_BYTES * 2
def LEGACY_SIGNATURE_HEX_CHARS : ℕ := 16

/-! ## Rules -/

structure HeaderContains where
  name : Str
  contains : Str
deriving DecidableEq

structure FilterCondition where
  methods : List Str := []
  pathExact : Option Str := none
  pathPrefix : Option Str := none
  pathContains : Option Str := none
  queryContains : Option Str := none
  pathShape : Option Str := none
  userAgentContains : Option Str := none
  headers : List HeaderContains := []
  signature : Option Str := none
deriving DecidableEq

structure FilterAction where
  kind : Str := utf8 "block"
  status : ℕ := 403
  body : Str := utf8 "blocked\n"
deriving DecidableEq

structure FilterRule where
  id : Str
  enabled : Bool := true
  adaptive : Bool := false
  priority : ℕ := 0
  ttlSeconds : Option ℕ := none
  expiresAtUnixMs : Option ℕ := none
  condition : FilterCondition := {}
  action : FilterAction := {}
deriving DecidableEq

structure FilterFile where
  filters : List FilterRule := []
deriving DecidableEq

/-! ## Header names and values -/

/-- A byte of an HTTP token. -/
def isTokenByte (b : UInt8) : Bool :=
  isAsciiAlphanumeric b || b ∈ utf8 "!#$%&'*+-.^_\x60|~"

/-- `HeaderName::from_bytes` as it is documented: a token of at most `65535` bytes, kept in lower
case. -/
def headerNameFromBytes (name : Str) : Option Str :=
  if name.isEmpty || 65535 < name.length || !name.all isTokenByte then none
  else some (name.map toAsciiLowercase)

/-- The bytes of a value that `HeaderValue::to_str` shows as text, as it is documented. -/
def isVisibleAscii (b : UInt8) : Bool := (0x20 ≤ b && b < 0x7F) || b == 0x09

/-! ## Validation -/

abbrev Check : Type := Except String Unit

def validateNonEmptyBoundedString (path : String) (value : Str) (maxBytes : ℕ) : Check := do
  rejectIf value.isEmpty (path ++ " must not be empty")
  rejectIf (maxBytes < value.length)
    (path ++ s!" is {value.length} bytes, above configured cap {maxBytes}")

def validateFilterRuleId (path : String) (value : Str) : Check := do
  validateNonEmptyBoundedString path value DEFAULT_FILTER_MAX_RULE_ID_BYTES
  rejectIf (value.any fun byte => !isAsciiGraphic byte || byte == 0x2C)
    (path ++ " must contain only visible ASCII identifier bytes without commas")
  rejectIf (!value.all isVisibleAscii)
    (path ++ " must be safe to emit in x-altura-filter: failed to parse header value")

def validateFilterTtl (path : String) (ttlSeconds : ℕ) : Check := do
  rejectIf (ttlSeconds == 0) (path ++ " must be greater than zero")
  rejectIf (FILTER_TTL_MAX_SECONDS < ttlSeconds)
    (path ++ s!" must be no higher than {FILTER_TTL_MAX_SECONDS}")

def validateMethodToken (path : String) (value : Str) : Check := do
  validateNonEmptyBoundedString path value DEFAULT_FILTER_MAX_METHOD_BYTES
  rejectIf (value.any fun byte => isAsciiControl byte || isAsciiWhitespace byte)
    (path ++ " must not contain whitespace or control characters")

def validateSignatureMatcher (path : String) (value : Str) : Check := do
  validateNonEmptyBoundedString path value CURRENT_SIGNATURE_HEX_CHARS
  rejectIf (value.length != CURRENT_SIGNATURE_HEX_CHARS &&
      value.length != LEGACY_SIGNATURE_HEX_CHARS)
    (path ++ s!" must be a {CURRENT_SIGNATURE_HEX_CHARS}-hex current signature or " ++
      s!"{LEGACY_SIGNATURE_HEX_CHARS}-hex legacy signature")
  rejectIf (!value.all fun byte => isAsciiHexdigit byte && !isAsciiUppercase byte)
    (path ++ " must contain only lowercase hexadecimal characters")

/-- A matcher that is plain text: non-empty and bounded. -/
def validateMatchValue (conditionPath field : String) (value : Option Str) : Check :=
  checkSome (fun value => validateNonEmptyBoundedString (conditionPath ++ "." ++ field) value
    DEFAULT_FILTER_MAX_MATCH_VALUE_BYTES) value

def validateHeader (headerPath : String) (header : HeaderContains) : Check := do
  rejectIf (headerNameFromBytes header.name).isNone
    (headerPath ++ ".name is not a valid HTTP header name: invalid HTTP header name")
  validateNonEmptyBoundedString (headerPath ++ ".contains") header.contains
    DEFAULT_FILTER_MAX_MATCH_VALUE_BYTES

/-- No matcher is given at all. -/
def FilterCondition.isVacuous (c : FilterCondition) : Bool :=
  c.methods.isEmpty && c.pathExact.isNone && c.pathPrefix.isNone && c.pathContains.isNone &&
    c.queryContains.isNone && c.pathShape.isNone && c.userAgentContains.isNone &&
    c.headers.isEmpty && c.signature.isNone

def validateFilterCondition (path : String) (condition : FilterCondition) : Check := do
  let conditionPath := path ++ ".condition"
  rejectIf condition.isVacuous (conditionPath ++ " must include at least one matcher")
  rejectIf (DEFAULT_FILTER_MAX_METHODS < condition.methods.length)
    (conditionPath ++ s!".methods contains {condition.methods.length} methods, " ++
      s!"above configured cap {DEFAULT_FILTER_MAX_METHODS}")
  checkEach (fun idx method =>
    validateMethodToken (conditionPath ++ s!".methods[{idx}]") method) 0 condition.methods
  validateMatchValue conditionPath "path_exact" condition.pathExact
  validateMatchValue conditionPath "path_prefix" condition.pathPrefix
  validateMatchValue conditionPath "path_contains" condition.pathContains
  validateMatchValue conditionPath "query_contains" condition.queryContains
  validateMatchValue conditionPath "path_shape" condition.pathShape
  validateMatchValue conditionPath "user_agent_contains" condition.userAgentContains
  checkSome (validateSignatureMatcher (conditionPath ++ ".signature")) condition.signature
  rejectIf (condition.pathPrefix == some (utf8 "/"))
    (conditionPath ++ ".path_prefix must be narrower than /")
  rejectIf (DEFAULT_FILTER_MAX_HEADERS < condition.headers.length)
    (conditionPath ++ s!".headers contains {condition.headers.length} matchers, " ++
      s!"above configured cap {DEFAULT_FILTER_MAX_HEADERS}")
  checkEach (fun idx header =>
    validateHeader (conditionPath ++ s!".headers[{idx}]") header) 0 condition.headers

def validateFilterAction (path : String) (action : FilterAction) : Check := do
  let actionPath := path ++ ".action"
  rejectIf (action.kind != utf8 "block") (actionPath ++ ".kind must be \"block\"")
  rejectIf (action.status < 400 || 599 < action.status)
    (actionPath ++ ".status must be an HTTP 4xx or 5xx status")
  rejectIf (DEFAULT_FILTER_MAX_ACTION_BODY_BYTES < action.body.length)
    (actionPath ++ s!".body is {action.body.length} bytes, " ++
      s!"above configured cap {DEFAULT_FILTER_MAX_ACTION_BODY_BYTES}")

def validateFilterRule (path : String) (rule : FilterRule) : Check := do
  validateFilterRuleId (path ++ ".id") rule.id
  checkSome (validateFilterTtl (path ++ ".ttl_seconds")) rule.ttlSeconds
  validateFilterCondition path rule.condition
  validateFilterAction path rule.action

/-- The ids not seen yet must be new; `debug` is the quoted form of a string. -/
def validateNewIds (debug : Str → String) (source : String) :
    ℕ → List Str → List FilterRule → Check
  | _, _, [] => .ok ()
  | idx, seenIds, rule :: rest => do
      rejectIf (decide (rule.id ∈ seenIds))
        (source ++ s!"[{idx}].id duplicates rule id " ++ debug rule.id)
      validateNewIds debug source (idx + 1) (rule.id :: seenIds) rest

def validateUniqueFilterRuleIds (debug : Str → String) (source : String)
    (rules : List FilterRule) : Check :=
  validateNewIds debug source 0 [] rules

def validateFilterRules (debug : Str → String) (source : String) (rules : List FilterRule)
    (maxRules : ℕ) : Check := do
  rejectIf (maxRules == 0) (source ++ " rule cap must be greater than zero")
  rejectIf (maxRules < rules.length)
    (source ++ s!" contains {rules.length} filters, above configured cap {maxRules}")
  validateUniqueFilterRuleIds debug source rules
  checkEach (fun idx rule => validateFilterRule (source ++ s!"[{idx}]") rule) 0 rules

/-! ## What validation lets through -/

/-- Text of one to `maxBytes` bytes. -/
def Bounded (maxBytes : ℕ) (value : Str) : Prop := value ≠ [] ∧ value.length ≤ maxBytes

variable {path source : String} {value : Str} {debug : Str → String} {rules : List FilterRule}

theorem validateNonEmptyBoundedString_eq_ok {maxBytes : ℕ} :
    validateNonEmptyBoundedString path value maxBytes = .ok () ↔ Bounded maxBytes value := by
  simp [validateNonEmptyBoundedString, Bounded]

structure IdOk (id : Str) : Prop where
  bounded : Bounded DEFAULT_FILTER_MAX_RULE_ID_BYTES id
  graphic : ∀ b ∈ id, isAsciiGraphic b = true ∧ b ≠ 0x2C

structure SignatureOk (signature : Str) : Prop where
  size : signature.length = CURRENT_SIGNATURE_HEX_CHARS ∨
    signature.length = LEGACY_SIGNATURE_HEX_CHARS
  hex : ∀ b ∈ signature, isAsciiHexdigit b = true ∧ isAsciiUppercase b = false

structure MethodOk (method : Str) : Prop where
  bounded : Bounded DEFAULT_FILTER_MAX_METHOD_BYTES method
  plain : ∀ b ∈ method, isAsciiControl b = false ∧ isAsciiWhitespace b = false

structure HeaderOk (header : HeaderContains) : Prop where
  name : (headerNameFromBytes header.name).isSome = true
  contains : Bounded DEFAULT_FILTER_MAX_MATCH_VALUE_BYTES header.contains

structure ConditionOk (c : FilterCondition) : Prop where
  matcher : c.isVacuous = false
  methods_length : c.methods.length ≤ DEFAULT_FILTER_MAX_METHODS
  methods : ∀ m ∈ c.methods, MethodOk m
  values : ∀ o ∈ [c.pathExact, c.pathPrefix, c.pathContains, c.queryContains, c.pathShape,
    c.userAgentContains], ∀ v ∈ o, Bounded DEFAULT_FILTER_MAX_MATCH_VALUE_BYTES v
  signature : ∀ s ∈ c.signature, SignatureOk s
  narrow : c.pathPrefix ≠ some (utf8 "/")
  headers_length : c.headers.length ≤ DEFAULT_FILTER_MAX_HEADERS
  headers : ∀ h ∈ c.headers, HeaderOk h

structure ActionOk (a : FilterAction) : Prop where
  kind : a.kind = utf8 "block"
  status : 400 ≤ a.status ∧ a.status ≤ 599
  body : a.body.length ≤ DEFAULT_FILTER_MAX_ACTION_BODY_BYTES

structure RuleOk (rule : FilterRule) : Prop where
  id : IdOk rule.id
  ttl : ∀ t ∈ rule.ttlSeconds, 1 ≤ t ∧ t ≤ FILTER_TTL_MAX_SECONDS
  condition : ConditionOk rule.condition
  action : ActionOk rule.action

theorem isVisibleAscii_of_isAsciiGraphic {b : UInt8} (h : isAsciiGraphic b = true) :
    isVisibleAscii b = true := by
  simp only [isAsciiGraphic, isVisibleAscii, Bool.and_eq_true, decide_eq_true_eq,
    Bool.or_eq_true, beq_iff_eq, UInt8.le_iff_toNat_le, UInt8.lt_iff_toNat_lt] at h ⊢
  left
  have h1 : (0x21 : UInt8).toNat = 33 := rfl
  have h2 : (0x7E : UInt8).toNat = 126 := rfl
  have h3 : (0x20 : UInt8).toNat = 32 := rfl
  have h4 : (0x7F : UInt8).toNat = 127 := rfl
  omega

/-- The header-value check adds nothing to the check of the bytes. -/
theorem validateFilterRuleId_eq_ok : validateFilterRuleId path value = .ok () ↔ IdOk value := by
  simp only [validateFilterRuleId, bind_eq_ok, validateNonEmptyBoundedString_eq_ok,
    rejectIf_eq_ok, List.any_eq_false, Bool.not_eq_eq_eq_not, Bool.not_false, List.all_eq_true,
    Bool.or_eq_true, Bool.not_true, beq_iff_eq, not_or, Bool.not_eq_false]
  constructor
  · rintro ⟨hb, hg, -⟩
    exact ⟨hb, hg⟩
  · rintro ⟨hb, hg⟩
    exact ⟨hb, hg, fun b h => isVisibleAscii_of_isAsciiGraphic (hg b h).1⟩

theorem validateFilterTtl_eq_ok {ttl : ℕ} :
    validateFilterTtl path ttl = .ok () ↔ 1 ≤ ttl ∧ ttl ≤ FILTER_TTL_MAX_SECONDS := by
  simp [validateFilterTtl, Nat.one_le_iff_ne_zero]

theorem validateMethodToken_eq_ok : validateMethodToken path value = .ok () ↔ MethodOk value := by
  simp only [validateMethodToken, bind_eq_ok, validateNonEmptyBoundedString_eq_ok,
    rejectIf_eq_ok, List.any_eq_false, Bool.or_eq_true, not_or, Bool.not_eq_true]
  exact ⟨fun h => ⟨h.1, h.2⟩, fun h => ⟨h.bounded, h.plain⟩⟩

/-- The two lengths a signature may have are non-zero and bounded. -/
theorem validateSignatureMatcher_eq_ok :
    validateSignatureMatcher path value = .ok () ↔ SignatureOk value := by
  have hsize : (value.length != CURRENT_SIGNATURE_HEX_CHARS &&
      value.length != LEGACY_SIGNATURE_HEX_CHARS) = false ↔
      (value.length = CURRENT_SIGNATURE_HEX_CHARS ∨ value.length = LEGACY_SIGNATURE_HEX_CHARS) := by
    rw [Bool.and_eq_false_iff, bne_eq_false_iff_eq, bne_eq_false_iff_eq]
  simp only [validateSignatureMatcher, bind_eq_ok, validateNonEmptyBoundedString_eq_ok,
    rejectIf_eq_ok, hsize, Bool.not_eq_eq_eq_not, Bool.not_false, List.all_eq_true,
    Bool.and_eq_true, Bool.not_true]
  constructor
  · rintro ⟨-, hlen, hhex⟩
    exact ⟨hlen, hhex⟩
  · rintro ⟨hlen, hhex⟩
    have hpos : 0 < value.length ∧ value.length ≤ CURRENT_SIGNATURE_HEX_CHARS := by
      unfold CURRENT_SIGNATURE_HEX_CHARS LEGACY_SIGNATURE_HEX_CHARS
        REQUEST_SIGNATURE_HASH_BYTES at *
      omega
    exact ⟨⟨List.length_pos_iff.mp hpos.1, hpos.2⟩, hlen, hhex⟩

theorem validateHeader_eq_ok {header : HeaderContains} :
    validateHeader path header = .ok () ↔ HeaderOk header := by
  simp only [validateHeader, bind_eq_ok, rejectIf_eq_ok, validateNonEmptyBoundedString_eq_ok,
    Option.isNone_eq_false_iff]
  exact ⟨fun h => ⟨h.1, h.2⟩, fun h => ⟨h.name, h.contains⟩⟩

theorem validateFilterCondition_eq_ok {c : FilterCondition} :
    validateFilterCondition path c = .ok () ↔ ConditionOk c := by
  have hmethods := checkEach_eq_ok (fun idx method =>
    validateMethodToken (path ++ ".condition" ++ s!".methods[{idx}]") method)
    (fun _ _ => validateMethodToken_eq_ok) 0 c.methods
  have hheaders := checkEach_eq_ok (fun idx header =>
    validateHeader (path ++ ".condition" ++ s!".headers[{idx}]") header)
    (fun _ _ => validateHeader_eq_ok) 0 c.headers
  simp only [validateFilterCondition, bind_eq_ok, rejectIf_eq_ok, hmethods, hheaders,
    validateMatchValue, checkSome_eq_ok, validateNonEmptyBoundedString_eq_ok,
    validateSignatureMatcher_eq_ok, decide_eq_false_iff_not, not_lt, beq_eq_false_iff_ne]
  constructor
  · rintro ⟨hm, hml, hms, h1, h2, h3, h4, h5, h6, hs, hn, hhl, hh⟩
    exact ⟨hm, hml, hms, by simp only [List.forall_mem_cons, List.not_mem_nil]; tauto,
      hs, hn, hhl, hh⟩
  · rintro ⟨hm, hml, hms, hv, hs, hn, hhl, hh⟩
    simp only [List.forall_mem_cons, List.not_mem_nil] at hv
    tauto

theorem validateFilterAction_eq_ok {a : FilterAction} :
    validateFilterAction path a = .ok () ↔ ActionOk a := by
  simp only [validateFilterAction, bind_eq_ok, rejectIf_eq_ok, bne_eq_false_iff_eq,
    Bool.or_eq_false_iff, decide_eq_false_iff_not, not_lt]
  exact ⟨fun h => ⟨h.1, h.2.1, h.2.2⟩, fun h => ⟨h.kind, h.status, h.body⟩⟩

theorem validateFilterRule_eq_ok {rule : FilterRule} :
    validateFilterRule path rule = .ok () ↔ RuleOk rule := by
  simp only [validateFilterRule, bind_eq_ok, validateFilterRuleId_eq_ok, checkSome_eq_ok,
    validateFilterTtl_eq_ok, validateFilterCondition_eq_ok, validateFilterAction_eq_ok]
  exact ⟨fun h => ⟨h.1, h.2.1, h.2.2.1, h.2.2.2⟩, fun h => ⟨h.id, h.ttl, h.condition, h.action⟩⟩

theorem validateNewIds_eq_ok {idx : ℕ} {seen : List Str} :
    validateNewIds debug source idx seen rules = .ok () ↔
      (rules.map FilterRule.id).Nodup ∧ ∀ r ∈ rules, r.id ∉ seen := by
  induction rules generalizing idx seen with
  | nil => simp [validateNewIds]
  | cons rule rest ih =>
    simp only [validateNewIds, bind_eq_ok, rejectIf_eq_ok, decide_eq_false_iff_not, ih,
      List.map_cons, List.nodup_cons, List.mem_map, List.mem_cons, not_or, not_exists,
      not_and, forall_eq_or_imp]
    constructor
    · rintro ⟨hnew, hnodup, hrest⟩
      exact ⟨⟨fun r hr => (hrest r hr).1, hnodup⟩, hnew, fun r hr => (hrest r hr).2⟩
    · rintro ⟨⟨hne, hnodup⟩, hnew, hrest⟩
      exact ⟨hnew, hnodup, fun r hr => ⟨hne r hr, hrest r hr⟩⟩

theorem validateUniqueFilterRuleIds_eq_ok :
    validateUniqueFilterRuleIds debug source rules = .ok () ↔ (rules.map FilterRule.id).Nodup := by
  rw [validateUniqueFilterRuleIds, validateNewIds_eq_ok]
  simp

/-- **What the proxy accepts as a list of filters.** -/
theorem validateFilterRules_eq_ok {maxRules : ℕ} :
    validateFilterRules debug source rules maxRules = .ok () ↔
      0 < maxRules ∧ rules.length ≤ maxRules ∧ (rules.map FilterRule.id).Nodup ∧
        ∀ r ∈ rules, RuleOk r := by
  have heach := checkEach_eq_ok (fun idx rule =>
    validateFilterRule (source ++ s!"[{idx}]") rule) (fun _ _ => validateFilterRule_eq_ok)
    0 rules
  simp only [validateFilterRules, bind_eq_ok, rejectIf_eq_ok, heach,
    validateUniqueFilterRuleIds_eq_ok, beq_eq_false_iff_ne, decide_eq_false_iff_not, not_lt,
    Nat.pos_iff_ne_zero]

end AlturaProt.Filter
