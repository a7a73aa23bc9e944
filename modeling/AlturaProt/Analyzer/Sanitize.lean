import AlturaProt.Foundation.Checks
import AlturaProt.Foundation.Python

/-!
# Sanitizing learned filters

`sanitize_filter` of `tools/codex_analyzer.py`. Whatever a provider has put into
a filter, the result has exactly seven fields: the id is reduced to safe
characters, the time to live is clamped, and of the condition only matchers of
known kinds survive that are strings of bounded length. The priority is
whatever `int` makes of it.

The result is written as a record, `CleanFilter`, together with the dictionary
it stands for. `sanitize_clean` says what holds of every record that sanitizing
returns.
-/

namespace AlturaProt.Analyzer

open Foundation Python

/-! ## Constants and character classes -/

def FILTER_TTL_MAX_SECONDS : ℤ := 24 * 60 * 60
def FILTER_RULE_ID_MAX_BYTES : ℕ := 96
def FILTER_MATCH_VALUE_MAX_BYTES : ℕ := 512
def FILTER_HEADER_NAME_MAX_BYTES : ℕ := 64
def FILTER_HEADER_CONTAINS_MAX_BYTES : ℕ := 256

def isDigitPoint (c : ℕ) : Bool := 0x30 ≤ c && c ≤ 0x39

def isLetterPoint (c : ℕ) : Bool := (0x41 ≤ c && c ≤ 0x5A) || (0x61 ≤ c && c ≤ 0x7A)

/-- The characters that `SAFE_ID` keeps. -/
def isSafePoint (c : ℕ) : Bool :=
  isLetterPoint c || isDigitPoint c || decide (c ∈ py "_.:-")

/-- The characters of `HTTP_TOKEN`. -/
def isTokenPoint (c : ℕ) : Bool :=
  isLetterPoint c || isDigitPoint c || decide (c ∈ py "-!#$%&'*+.^_\x60|~")

/-- The characters of `SUPPORTED_SIGNATURE`. -/
def isHexPoint (c : ℕ) : Bool := isDigitPoint c || (0x61 ≤ c && c ≤ 0x66)

def dash : ℕ := 0x2D

/-! ## Texts -/

/-- `SAFE_ID.sub("-", value)`: every run of unsafe characters becomes one dash;
`inRun` tells whether the character before was part of one. -/
def subUnsafe : Bool → PyStr → PyStr
  | _, [] => []
  | inRun, c :: rest =>
    if isSafePoint c then c :: subUnsafe false rest
    else if inRun then subUnsafe true rest
    else dash :: subUnsafe true rest

def safeId (value : PyStr) : PyStr :=
  let cut := strip dash ((subUnsafe false value).take FILTER_RULE_ID_MAX_BYTES)
  if cut.isEmpty then py "codex-learned-filter" else cut

def isHttpHeaderName (value : PyStr) : Bool :=
  0 < value.length && value.length ≤ FILTER_HEADER_NAME_MAX_BYTES && value.all isTokenPoint

def isSupportedSignature (value : PyStr) : Bool :=
  (value.length == 16 || value.length == 32) && value.all isHexPoint

/-- Raises on a string that cannot be encoded. -/
def boundedUtf8 (value : PyStr) (maxBytes : ℕ) : Except PyError Bool :=
  match encode value with
  | none => .error .unicodeEncodeError
  | some bytes => .ok (decide (0 < bytes.length) && decide (bytes.length ≤ maxBytes))

section Sanitize

variable {F : Type} (rt : Runtime F)

/-- `int(value)`, where only `TypeError` and `ValueError` are caught. -/
def intOr (value : PyValue F) (fallback : ℤ) : Except PyError ℤ :=
  match rt.toInt value with
  | .ok ttl => .ok ttl
  | .error .typeError => .ok fallback
  | .error .valueError => .ok fallback
  | .error err => .error err

def boundedTtlSeconds (value : PyValue F) (fallback : ℤ) : Except PyError ℤ := do
  let ttl ← intOr rt value fallback
  let ttl := if ttl ≤ 0 then fallback else ttl
  let ttl := if ttl ≤ 0 then 60 else ttl
  return max 1 (min ttl FILTER_TTL_MAX_SECONDS)

/-! ## Conditions -/

structure CleanCondition where
  signature : Option PyStr
  pathExact : Option PyStr
  pathPrefix : Option PyStr
  pathContains : Option PyStr
  pathShape : Option PyStr
  queryContains : Option PyStr
  userAgentContains : Option PyStr
  methods : List PyStr
  headers : List (PyStr × PyStr)

/-- The items of a condition, in the order in which they are set. -/
def CleanCondition.toDict (c : CleanCondition) : PyDict F :=
  PyDict.entry "signature" (c.signature.map .str) ++
  PyDict.entry "path_exact" (c.pathExact.map .str) ++
  PyDict.entry "path_prefix" (c.pathPrefix.map .str) ++
  PyDict.entry "path_contains" (c.pathContains.map .str) ++
  PyDict.entry "path_shape" (c.pathShape.map .str) ++
  PyDict.entry "query_contains" (c.queryContains.map .str) ++
  PyDict.entry "user_agent_contains" (c.userAgentContains.map .str) ++
  PyDict.entry "methods" (PyDict.nonEmptyList .str c.methods) ++
  PyDict.entry "headers" (PyDict.nonEmptyList (fun header =>
    .dict [(py "name", .str header.1), (py "contains", .str header.2)]) c.headers)

/-- One matcher of the condition: a string of bounded length that `accept` lets
through. -/
def cleanMatcher (condition : PyDict F) (key : String) (accept : PyStr → Bool) :
    Except PyError (Option PyStr) :=
  match condition.lookup (py key) with
  | some (.str value) => do
      let bounded ← boundedUtf8 value FILTER_MATCH_VALUE_MAX_BYTES
      return if bounded && accept value then some value else none
  | _ => .ok none

def METHODS : List PyStr :=
  ["GET", "POST", "PUT", "PATCH", "DELETE", "HEAD", "OPTIONS"].map py

/-- The values whose upper-case text is a known method. -/
def knownMethods : List (PyValue F) → Except PyError (List PyStr)
  | [] => .ok []
  | method :: rest => do
      let text ← rt.toStr method
      let known ← knownMethods rest
      return if rt.upper text ∈ METHODS then rt.upper text :: known else known

def cleanMethods (condition : PyDict F) : Except PyError (List PyStr) :=
  match condition.lookup (py "methods") with
  | some (.list methods) => do
      let known ← knownMethods rt methods
      return known.take 8
  | _ => .ok []

def cleanHeader (header : PyValue F) : Except PyError (Option (PyStr × PyStr)) :=
  match header with
  | .dict header =>
    match header.lookup (py "name"), header.lookup (py "contains") with
    | some (.str name), some (.str contains) =>
      if isHttpHeaderName name then do
        let bounded ← boundedUtf8 contains FILTER_HEADER_CONTAINS_MAX_BYTES
        return if bounded then
          some (name.take FILTER_HEADER_NAME_MAX_BYTES, contains) else none
      else .ok none
    | _, _ => .ok none
  | _ => .ok none

def cleanHeaderList : List (PyValue F) → Except PyError (List (PyStr × PyStr))
  | [] => .ok []
  | header :: rest => do
      let clean ← cleanHeader header
      let others ← cleanHeaderList rest
      return clean.toList ++ others

def cleanHeaders (condition : PyDict F) : Except PyError (List (PyStr × PyStr)) :=
  match condition.lookup (py "headers") with
  | some (.list headers) => cleanHeaderList (headers.take 8)
  | _ => .ok []

def cleanCondition (condition : PyDict F) : Except PyError CleanCondition := do
  let signature ← cleanMatcher condition "signature" isSupportedSignature
  let pathExact ← cleanMatcher condition "path_exact" fun _ => true
  let pathPrefix ← cleanMatcher condition "path_prefix" fun value =>
    !(value == [] || value == py "/")
  let pathContains ← cleanMatcher condition "path_contains" fun _ => true
  let pathShape ← cleanMatcher condition "path_shape" fun _ => true
  let queryContains ← cleanMatcher condition "query_contains" fun _ => true
  let userAgentContains ← cleanMatcher condition "user_agent_contains" fun _ => true
  let methods ← cleanMethods rt condition
  let headers ← cleanHeaders condition
  return ⟨signature, pathExact, pathPrefix, pathContains, pathShape, queryContains,
    userAgentContains, methods, headers⟩

/-! ## Filters -/

structure CleanFilter where
  id : PyStr
  enabled : Bool
  priority : ℤ
  ttlSeconds : ℤ
  condition : CleanCondition

def CleanFilter.toDict (c : CleanFilter) : PyDict F :=
  [(py "id", .str c.id),
   (py "enabled", .bool c.enabled),
   (py "adaptive", .bool true),
   (py "priority", .int c.priority),
   (py "ttl_seconds", .int c.ttlSeconds),
   (py "condition", .dict c.condition.toDict),
   (py "action", .dict [(py "kind", .str (py "block")), (py "status", .int 403),
     (py "body", .str (py "blocked by adaptive filter\n"))])]

/-- The condition of an item, if it is a dictionary. -/
def conditionOf (item : PyDict F) : PyDict F :=
  match item.lookup (py "condition") with
  | some (.dict condition) => condition
  | _ => []

/-- The id of an item, or one made from its signature. -/
def idText (item : PyDict F) (signature : Option PyStr) : Except PyError PyStr :=
  let id := item.getD "id" .none
  if rt.truth id then rt.toStr id
  else .ok (py "codex-learned-" ++ signature.getD (py "custom"))

def sanitize (item : PyDict F) (ttlSeconds : ℤ) : Except PyError CleanFilter := do
  let ttl ← boundedTtlSeconds rt (item.getD "ttl_seconds" .none) ttlSeconds
  let condition ← cleanCondition rt (conditionOf item)
  let id ← idText rt item condition.signature
  let priority ← rt.toInt (item.getD "priority" (.int 100))
  return ⟨safeId id, rt.truth (item.getD "enabled" (.bool true)), priority, ttl, condition⟩

def sanitizeFilter (item : PyDict F) (ttlSeconds : ℤ) : Except PyError (PyDict F) := do
  let clean ← sanitize rt item ttlSeconds
  return clean.toDict

/-! ## What sanitizing returns -/

/-- A non-empty id of safe characters within the bound. -/
structure SafeId (id : PyStr) : Prop where
  nonempty : id ≠ []
  length_le : id.length ≤ FILTER_RULE_ID_MAX_BYTES
  safe : ∀ c ∈ id, isSafePoint c = true

/-- A string of one to `maxBytes` bytes. -/
def BoundedText (maxBytes : ℕ) (value : PyStr) : Prop :=
  ∃ bytes, encode value = some bytes ∧ 0 < bytes.length ∧ bytes.length ≤ maxBytes

structure CleanCondition.Ok (c : CleanCondition) : Prop where
  values : ∀ o ∈ [c.pathExact, c.pathPrefix, c.pathContains, c.queryContains, c.pathShape,
    c.userAgentContains], ∀ v ∈ o, BoundedText FILTER_MATCH_VALUE_MAX_BYTES v
  signature : ∀ s ∈ c.signature, isSupportedSignature s = true
  narrow : c.pathPrefix ≠ some (py "/")
  methods_length : c.methods.length ≤ 8
  methods : ∀ m ∈ c.methods, m ∈ METHODS
  headers_length : c.headers.length ≤ 8
  headers : ∀ h ∈ c.headers, isHttpHeaderName h.1 = true ∧
    BoundedText FILTER_HEADER_CONTAINS_MAX_BYTES h.2

structure CleanFilter.Ok (c : CleanFilter) : Prop where
  id : SafeId c.id
  ttl : 1 ≤ c.ttlSeconds ∧ c.ttlSeconds ≤ FILTER_TTL_MAX_SECONDS
  condition : c.condition.Ok

theorem safe_subUnsafe (inRun : Bool) (value : PyStr) :
    ∀ c ∈ subUnsafe inRun value, isSafePoint c = true := by
  induction value generalizing inRun with
  | nil => intro c hc; cases hc
  | cons x rest ih =>
    intro c hc
    unfold subUnsafe at hc
    split at hc
    · rename_i hx
      rcases List.mem_cons.mp hc with rfl | hc
      · exact hx
      · exact ih false c hc
    · split at hc
      · exact ih true c hc
      · rcases List.mem_cons.mp hc with rfl | hc
        · decide
        · exact ih true c hc

theorem safeId_safe (value : PyStr) : SafeId (safeId value) := by
  unfold safeId
  dsimp only
  split
  · exact ⟨by decide, by decide, by decide +kernel⟩
  · rename_i hcut
    refine ⟨by simpa using hcut, ?_, fun c hc => ?_⟩
    · exact (length_strip_le _ _).trans (List.length_take_le _ _)
    · exact safe_subUnsafe false value c (List.mem_of_mem_take (mem_of_mem_strip hc))

theorem subUnsafe_of_safe {value : PyStr} (h : ∀ c ∈ value, isSafePoint c = true)
    (inRun : Bool) : subUnsafe inRun value = value := by
  induction value generalizing inRun with
  | nil => rfl
  | cons c rest ih =>
    rw [subUnsafe, if_pos (h c List.mem_cons_self), ih fun x hx => h x (List.mem_cons_of_mem _ hx)]

/-- A safe id without dashes at its ends is left as it is. -/
theorem SafeId.safeId_eq {id : PyStr} (h : SafeId id) (hstrip : strip dash id = id) :
    safeId id = id := by
  unfold safeId
  rw [subUnsafe_of_safe h.safe, List.take_of_length_le h.length_le, hstrip]
  exact if_neg (by simpa using h.nonempty)

theorem safeId_safeId (value : PyStr) : safeId (safeId value) = safeId value := by
  apply (safeId_safe value).safeId_eq
  unfold safeId
  dsimp only
  split
  · decide +kernel
  · exact strip_strip _ _

theorem boundedUtf8_true {value : PyStr} {maxBytes : ℕ}
    (h : boundedUtf8 value maxBytes = .ok true) : BoundedText maxBytes value := by
  unfold boundedUtf8 at h
  split at h
  · cases h
  · rename_i bytes henc
    have hb := Except.ok.inj h
    rw [Bool.and_eq_true, decide_eq_true_eq, decide_eq_true_eq] at hb
    exact ⟨bytes, henc, hb⟩

theorem cleanMatcher_spec {condition : PyDict F} {key : String} {accept : PyStr → Bool}
    {o : Option PyStr} (h : cleanMatcher condition key accept = .ok o) :
    ∀ v ∈ o, BoundedText FILTER_MATCH_VALUE_MAX_BYTES v ∧ accept v = true := by
  unfold cleanMatcher at h
  split at h
  · obtain ⟨bounded, hb, ho⟩ := bind_eq_ok_iff.mp h
    obtain rfl := Except.ok.inj ho
    intro v hv
    split at hv
    · rename_i hkeep
      obtain rfl := Option.some.inj hv
      rw [Bool.and_eq_true] at hkeep
      rw [hkeep.1] at hb
      exact ⟨boundedUtf8_true hb, hkeep.2⟩
    · cases hv
  · obtain rfl := Except.ok.inj h
    intro v hv
    cases hv

theorem knownMethods_spec {methods : List (PyValue F)} {known : List PyStr}
    (h : knownMethods rt methods = .ok known) : ∀ m ∈ known, m ∈ METHODS := by
  induction methods generalizing known with
  | nil =>
    obtain rfl := Except.ok.inj h
    simp
  | cons method rest ih =>
    simp only [knownMethods, bind_eq_ok_iff] at h
    obtain ⟨text, -, others, hothers, hknown⟩ := h
    obtain rfl := Except.ok.inj hknown
    split
    · rename_i hm
      intro m hmem
      rcases List.mem_cons.mp hmem with rfl | hmem
      · exact hm
      · exact ih hothers m hmem
    · exact ih hothers

theorem cleanMethods_spec {condition : PyDict F} {methods : List PyStr}
    (h : cleanMethods rt condition = .ok methods) :
    methods.length ≤ 8 ∧ ∀ m ∈ methods, m ∈ METHODS := by
  unfold cleanMethods at h
  split at h
  · obtain ⟨known, hknown, hm⟩ := bind_eq_ok_iff.mp h
    obtain rfl := Except.ok.inj hm
    exact ⟨List.length_take_le _ _, fun m hm =>
      knownMethods_spec rt hknown m (List.mem_of_mem_take hm)⟩
  · obtain rfl := Except.ok.inj h
    simp

theorem cleanHeader_spec {header : PyValue F} {o : Option (PyStr × PyStr)}
    (h : cleanHeader header = .ok o) : ∀ x ∈ o, isHttpHeaderName x.1 = true ∧
      BoundedText FILTER_HEADER_CONTAINS_MAX_BYTES x.2 := by
  unfold cleanHeader at h
  split at h
  · split at h
    · split at h
      · rename_i name contains _ _ hname
        obtain ⟨bounded, hb, ho⟩ := bind_eq_ok_iff.mp h
        obtain rfl := Except.ok.inj ho
        intro x hx
        split at hx
        · rename_i hkeep
          obtain rfl := Option.some.inj hx
          rw [hkeep] at hb
          -- the name is within its bound already
          have hlen : name.length ≤ FILTER_HEADER_NAME_MAX_BYTES := by
            simp only [isHttpHeaderName, Bool.and_eq_true, decide_eq_true_eq] at hname
            exact hname.1.2
          rw [List.take_of_length_le hlen]
          exact ⟨hname, boundedUtf8_true hb⟩
        · cases hx
      · obtain rfl := Except.ok.inj h
        intro x hx
        cases hx
    · obtain rfl := Except.ok.inj h
      intro x hx
      cases hx
  · obtain rfl := Except.ok.inj h
    intro x hx
    cases hx

theorem cleanHeaderList_spec {headers : List (PyValue F)} {clean : List (PyStr × PyStr)}
    (h : cleanHeaderList headers = .ok clean) :
    clean.length ≤ headers.length ∧ ∀ x ∈ clean, isHttpHeaderName x.1 = true ∧
      BoundedText FILTER_HEADER_CONTAINS_MAX_BYTES x.2 := by
  induction headers generalizing clean with
  | nil =>
    obtain rfl := Except.ok.inj h
    simp
  | cons header rest ih =>
    simp only [cleanHeaderList, bind_eq_ok_iff] at h
    obtain ⟨o, ho, others, hothers, hclean⟩ := h
    obtain rfl := Except.ok.inj hclean
    obtain ⟨hlen, hall⟩ := ih hothers
    constructor
    · rw [List.length_append, List.length_cons]
      have : o.toList.length ≤ 1 := by cases o <;> simp
      omega
    · intro x hx
      rcases List.mem_append.mp hx with hx | hx
      · exact cleanHeader_spec ho x (Option.mem_toList.mp hx)
      · exact hall x hx

theorem cleanHeaders_spec {condition : PyDict F} {headers : List (PyStr × PyStr)}
    (h : cleanHeaders condition = .ok headers) :
    headers.length ≤ 8 ∧ ∀ x ∈ headers, isHttpHeaderName x.1 = true ∧
      BoundedText FILTER_HEADER_CONTAINS_MAX_BYTES x.2 := by
  unfold cleanHeaders at h
  split at h
  · obtain ⟨hlen, hall⟩ := cleanHeaderList_spec h
    exact ⟨hlen.trans (List.length_take_le _ _), hall⟩
  · obtain rfl := Except.ok.inj h
    simp

theorem cleanCondition_ok {condition : PyDict F} {c : CleanCondition}
    (h : cleanCondition rt condition = .ok c) : c.Ok := by
  simp only [cleanCondition, bind_eq_ok_iff] at h
  obtain ⟨signature, hs, pathExact, he, pathPrefix, hp, pathContains, hc, pathShape, hsh,
    queryContains, hq, userAgentContains, hu, methods, hm, headers, hh, hall⟩ := h
  obtain rfl := Except.ok.inj hall
  obtain ⟨hml, hms⟩ := cleanMethods_spec rt hm
  obtain ⟨hhl, hhs⟩ := cleanHeaders_spec hh
  refine ⟨?_, fun s hmem => (cleanMatcher_spec hs s hmem).2, ?_, hml, hms, hhl, hhs⟩
  · intro o ho v hv
    simp only [List.mem_cons, List.not_mem_nil, or_false] at ho
    rcases ho with rfl | rfl | rfl | rfl | rfl | rfl
    · exact (cleanMatcher_spec he v hv).1
    · exact (cleanMatcher_spec hp v hv).1
    · exact (cleanMatcher_spec hc v hv).1
    · exact (cleanMatcher_spec hq v hv).1
    · exact (cleanMatcher_spec hsh v hv).1
    · exact (cleanMatcher_spec hu v hv).1
  · intro hroot
    have haccept := (cleanMatcher_spec hp (py "/") hroot).2
    revert haccept
    decide

theorem boundedTtlSeconds_spec {value : PyValue F} {fallback ttl : ℤ}
    (h : boundedTtlSeconds rt value fallback = .ok ttl) :
    1 ≤ ttl ∧ ttl ≤ FILTER_TTL_MAX_SECONDS := by
  simp only [boundedTtlSeconds, bind_eq_ok_iff] at h
  obtain ⟨raw, -, httl⟩ := h
  obtain rfl := Except.ok.inj httl
  exact ⟨le_max_left _ _, max_le (by decide) (min_le_right _ _)⟩

/-- **What sanitizing returns.** Nothing is said of the priority: there is
nothing to say. -/
theorem sanitize_clean {item : PyDict F} {ttlSeconds : ℤ} {c : CleanFilter}
    (h : sanitize rt item ttlSeconds = .ok c) : c.Ok := by
  simp only [sanitize, bind_eq_ok_iff] at h
  obtain ⟨ttl, httl, condition, hcondition, id, -, priority, -, hc⟩ := h
  obtain rfl := Except.ok.inj hc
  exact ⟨safeId_safe id, boundedTtlSeconds_spec rt httl, cleanCondition_ok rt hcondition⟩

/-- The priority is the item's, or `100`. -/
theorem sanitize_priority {item : PyDict F} {ttlSeconds : ℤ} {c : CleanFilter}
    (h : sanitize rt item ttlSeconds = .ok c) :
    rt.toInt (item.getD "priority" (.int 100)) = .ok c.priority := by
  simp only [sanitize, bind_eq_ok_iff] at h
  obtain ⟨ttl, -, condition, -, id, -, priority, hpriority, hc⟩ := h
  obtain rfl := Except.ok.inj hc
  exact hpriority

end Sanitize

end AlturaProt.Analyzer
