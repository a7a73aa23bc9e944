import AlturaProt.Filter.Signature
import Mathlib.Algebra.Order.Field.Rat

/-!
# The filter engine

`FilterEngine` publishes a snapshot of rules and remembers, apart from it, until
when each activated rule stays awake. Three operations touch that state, each
in one section of the deadline lock: a reload builds a new snapshot and carries
the deadlines over by rule id, and the two activations wake the adaptive rules
with a given signature or path shape. `evaluate` reads a snapshot.

The clock is read where the source reads it: by a reload before it takes the
lock, by an activation before the lock and again for every rule it wakes.
-/

namespace AlturaProt.Filter

open Foundation

/-! ## Matching -/

structure RequestContext where
  method : Str
  path : Str
  query : Option Str
  headers : HeaderMap
  signature : Str

structure CompiledHeaderContains where
  name : Str
  contains : Str

structure CompiledCondition where
  valid : Bool
  userAgentContains : Option Str
  headers : List CompiledHeaderContains

namespace CompiledCondition

/-- Compile the header matchers; a name that is no header name spoils them. -/
def compileHeaders : List HeaderContains → Option (List CompiledHeaderContains)
  | [] => some []
  | header :: rest =>
    match headerNameFromBytes header.name with
    | none => none
    | some name => (compileHeaders rest).map (⟨name, header.contains⟩ :: ·)

def fromFilter (condition : FilterCondition) : CompiledCondition :=
  match compileHeaders condition.headers with
  | none => ⟨false, none, []⟩
  | some headers => ⟨true, condition.userAgentContains, headers⟩

end CompiledCondition

structure RuntimeRule where
  rule : FilterRule
  condition : CompiledCondition
  activeUntilMs : ℕ

def RuntimeRule.new (rule : FilterRule) (activeUntilMs : ℕ) : RuntimeRule where
  rule := rule
  condition := CompiledCondition.fromFilter rule.condition
  activeUntilMs := activeUntilMs

/-- Values derived from the request, computed at most once in an evaluation. -/
structure FilterEvalScratch where
  pathShape : Option Str := none
  shortTokenParentShape : Option (Option Str) := none
  legacySignature : Option Str := none

namespace FilterEvalScratch

def readPathShape (s : FilterEvalScratch) (path : Str) : Str × FilterEvalScratch :=
  match s.pathShape with
  | some shape => (shape, s)
  | none => (requestPathShape path, { s with pathShape := some (requestPathShape path) })

def readParentShape (s : FilterEvalScratch) (path : Str) : Option Str × FilterEvalScratch :=
  match s.shortTokenParentShape with
  | some parent => (parent, s)
  | none =>
    let parent := (Filter.shortTokenParentShape path).map Prod.fst
    (parent, { s with shortTokenParentShape := some parent })

def readLegacySignature (s : FilterEvalScratch) (ctx : RequestContext) :
    Str × FilterEvalScratch :=
  match s.legacySignature with
  | some legacy => (legacy, s)
  | none =>
    let legacy := legacyRequestSignature ctx.method ctx.path ctx.query ctx.headers
    (legacy, { s with legacySignature := some legacy })

def matchesPathShape (s : FilterEvalScratch) (path expected : Str) :
    Bool × FilterEvalScratch :=
  let shape := s.readPathShape path
  if shape.1 == expected then (true, shape.2)
  else
    let parent := shape.2.readParentShape path
    (parent.1 == some expected, parent.2)

/-- The current signature, or else the legacy one. -/
def matchesSignature (s : FilterEvalScratch) (ctx : RequestContext) (expected : Str) :
    Bool × FilterEvalScratch :=
  if expected == ctx.signature then (true, s)
  else
    let legacy := s.readLegacySignature ctx
    (expected == legacy.1, legacy.2)

/-- A matcher that is not given matches. -/
def given (s : FilterEvalScratch) (matcher : Option Str)
    (test : Str → Bool × FilterEvalScratch) : Bool × FilterEvalScratch :=
  match matcher with
  | none => (true, s)
  | some expected => test expected

end FilterEvalScratch

def ruleMatches (runtime : RuntimeRule) (ctx : RequestContext) (scratch : FilterEvalScratch) :
    Bool × FilterEvalScratch :=
  let condition := runtime.rule.condition
  if !runtime.condition.valid then (false, scratch)
  else if !condition.methods.isEmpty &&
      !condition.methods.any (fun method => eqIgnoreAsciiCase method ctx.method) then
    (false, scratch)
  else
    let signed := scratch.given condition.signature (scratch.matchesSignature ctx)
    if !signed.1 then (false, signed.2)
    else if condition.pathExact.any (fun path => ctx.path != path) then (false, signed.2)
    else if condition.pathPrefix.any (fun start => !start.isPrefixOf ctx.path) then
      (false, signed.2)
    else if condition.pathContains.any (fun part => !containsStr ctx.path part) then
      (false, signed.2)
    else
      let shaped := signed.2.given condition.pathShape (signed.2.matchesPathShape ctx.path)
      if !shaped.1 then (false, shaped.2)
      else if condition.queryContains.any
          (fun part => !containsStr (ctx.query.getD []) part) then
        (false, shaped.2)
      else if runtime.condition.userAgentContains.any (fun needle =>
          !headerValuesContainIgnoreCase ctx.headers (utf8 "user-agent") needle) then
        (false, shaped.2)
      else (runtime.condition.headers.all fun header =>
        headerValuesContainIgnoreCase ctx.headers header.name header.contains, shaped.2)

/-! ## The engine -/

/-- A `Duration`, in nanoseconds. -/
abbrev Duration : Type := ℕ

def Duration.asSecs (d : Duration) : ℕ := d / 1000000000

/-- What the engine is configured with. -/
structure FilterEngine where
  staticRules : List FilterRule
  runtimeFile : String
  defaultActivationTtl : Duration
  maxRuntimeFileBytes : ℕ
  maxRuntimeFilters : ℕ

def FilterEngine.newWithLimits (staticRules : List FilterRule) (runtimeFile : String)
    (defaultActivationTtl : Duration) (maxRuntimeFileBytes maxRuntimeFilters : ℕ) :
    FilterEngine where
  staticRules := staticRules
  runtimeFile := runtimeFile
  defaultActivationTtl := defaultActivationTtl
  maxRuntimeFileBytes := max maxRuntimeFileBytes 1
  maxRuntimeFilters := max maxRuntimeFilters 1

def FilterEngine.new (staticRules : List FilterRule) (runtimeFile : String)
    (defaultActivationTtl : Duration) : FilterEngine :=
  FilterEngine.newWithLimits staticRules runtimeFile defaultActivationTtl
    DEFAULT_RUNTIME_FILTER_MAX_BYTES DEFAULT_RUNTIME_FILTER_MAX_RULES

/-- The deadline of each activated rule id. -/
abbrev Deadlines : Type := Str → Option ℕ

/-- What the two locks of the engine guard. -/
structure EngineState where
  rules : List RuntimeRule
  activationDeadlines : Deadlines

/-- The engine before its first reload. -/
def EngineState.empty : EngineState := ⟨[], fun _ => none⟩

/-- What the engine calls that is not its own code. -/
structure Platform where
  /-- a string in quotes, as `{:?}` prints it -/
  debug : Str → String
  /-- `read_to_string` on these bytes: the error if they are no UTF-8 -/
  decode : Str → Except String Unit
  /-- nothing but white space -/
  blank : Str → Bool
  /-- `serde_json::from_str` -/
  parse : Str → Except String FilterFile

/-- The runtime filter file as the file system shows it to a reload. -/
inductive RuntimeFile where
  | notFound
  | unopened (err : String)
  | unreadable (err : String)
  | opened (isFile : Bool) (len : ℕ) (contents : Str)

def U64_MAX : ℕ := 2 ^ 64 - 1

/-! ## Deadlines -/

def isExpired (rule : FilterRule) (unixMs : ℕ) : Bool :=
  rule.expiresAtUnixMs.any fun expiresAt => decide (expiresAt ≤ unixMs)

structure FilterDecision where
  ruleId : Str
  status : ℕ
  body : Str
deriving DecidableEq

/-- Whole seconds, at least one and at most a day. -/
def boundedActivationTtl (ruleTtlSeconds : Option ℕ) (requestedTtl : Option Duration)
    (defaultTtl : Duration) : ℕ :=
  let ttlSeconds := match ruleTtlSeconds with
    | some seconds => seconds
    | none => Duration.asSecs (requestedTtl.getD defaultTtl)
  max 1 (min ttlSeconds FILTER_TTL_MAX_SECONDS)

def activeUntilMsFromTtl (unixMs ttlSeconds : ℕ) : ℕ :=
  min (unixMs + min (ttlSeconds * 1000) U64_MAX) U64_MAX

/-- What an activation asks for. -/
inductive Evidence where
  | signature (signature : Str)
  | pathShape (pathShape : Str)
deriving DecidableEq

/-- The condition carries the matcher the evidence is about. -/
def Evidence.carriedBy : Evidence → FilterCondition → Bool
  | .signature x, condition => condition.signature == some x
  | .pathShape x, condition => condition.pathShape == some x

/-- A call of an activation: what it asks for, the time to live it requests, the
clock before the lock, and the clock for the rule at each position. -/
structure ActivationCall where
  evidence : Evidence
  ttl : Option Duration
  unixMs : ℕ
  clock : ℕ → ℕ

/-- A rule that an activation wakes: the evidence, the clock read for it, and
the bounded time it stays awake. -/
structure Activation where
  ruleId : Str
  evidence : Evidence
  readAtMs : ℕ
  ttlSeconds : ℕ

def Activation.activeUntilMs (a : Activation) : ℕ :=
  activeUntilMsFromTtl a.readAtMs a.ttlSeconds

/-- Enter a deadline in the map. -/
def Deadlines.insert (deadlines : Deadlines) (a : Activation) : Deadlines :=
  Function.update deadlines a.ruleId (some a.activeUntilMs)

namespace FilterEngine

/-! ## Reload -/

variable (e : FilterEngine) (P : Platform)

def loadRuntimeFilterFile : RuntimeFile → Except String (Option FilterFile)
  | .notFound => .ok none
  | .unopened err => .error err
  | .unreadable err => .error err
  | .opened isFile len contents => do
      rejectIf (!isFile) ("runtime filter path is not a regular file: " ++ e.runtimeFile)
      rejectIf (e.maxRuntimeFileBytes < len)
        ("runtime filter file " ++ e.runtimeFile ++ s!" is {len} bytes, " ++
          s!"above configured cap {e.maxRuntimeFileBytes}")
      -- the file may have grown since its length was read
      let raw := contents.take (min (e.maxRuntimeFileBytes + 1) U64_MAX)
      P.decode raw
      rejectIf (e.maxRuntimeFileBytes < raw.length)
        ("runtime filter file " ++ e.runtimeFile ++
          s!" exceeded configured read cap {e.maxRuntimeFileBytes}")
      if P.blank raw then return none
      let file ← P.parse raw
      rejectIf (e.maxRuntimeFilters < file.filters.length)
        ("runtime filter file " ++ e.runtimeFile ++
          s!" contains {file.filters.length} filters, " ++
          s!"above configured cap {e.maxRuntimeFilters}")
      validateFilterRules P.debug ("runtime filter file " ++ e.runtimeFile) file.filters
        e.maxRuntimeFilters
      return some file

/-- Higher priority first, then the smaller id in byte order. -/
def comesBefore (a b : FilterRule) : Bool :=
  b.priority < a.priority || (a.priority == b.priority && decide (a.id ≤ b.id))

/-- The static rules, and after them those of the file. -/
def merge (runtime : Option FilterFile) : List FilterRule :=
  e.staticRules ++ (runtime.map FilterFile.filters).getD []

/-- The part of a reload before the lock: load, merge, validate and sort. -/
def prepare (file : RuntimeFile) : Except String (List FilterRule) := do
  let runtime ← e.loadRuntimeFilterFile P file
  let loaded := e.merge runtime
  validateUniqueFilterRuleIds P.debug "merged filters" loaded
  checkEach (fun idx rule => validateFilterRule s!"merged filters[{idx}]" rule) 0 loaded
  return loaded.insertionSort (fun a b => comesBefore a b = true)

/-- The locked part of a reload: keep the deadlines that are still ahead and
whose rule is still there, and publish the new snapshot with them. -/
def publish (s : EngineState) (loaded : List FilterRule) (nowMs : ℕ) : EngineState :=
  let kept : Deadlines := fun id => (s.activationDeadlines id).filter fun activeUntilMs =>
    decide (nowMs < activeUntilMs) && decide (id ∈ loaded.map FilterRule.id)
  { rules := loaded.map fun rule => RuntimeRule.new rule
      (((kept rule.id).filter fun activeUntilMs => decide (nowMs < activeUntilMs)).getD 0)
    activationDeadlines := kept }

/-- `nowMs` is read before the lock is taken. -/
def reload (s : EngineState) (file : RuntimeFile) (nowMs : ℕ) :
    EngineState × Except String Unit :=
  match e.prepare P file with
  | .error err => (s, .error err)
  | .ok loaded => (publish s loaded nowMs, .ok ())

section GetsThrough

variable {e P}

/-- The file the reload finds is a regular one within the bounds, of text. -/
structure Readable (e : FilterEngine) (P : Platform) (contents : Str) : Prop where
  cap : e.maxRuntimeFileBytes ≤ U64_MAX
  size : contents.length ≤ e.maxRuntimeFileBytes
  decodes : P.decode contents = .ok ()
  notBlank : P.blank contents = false

/-- A file within the bounds loads if it parses and its rules are valid. -/
theorem loadRuntimeFilterFile_eq_ok {contents : Str} (h : Readable e P contents)
    {runtime : Option FilterFile} :
    e.loadRuntimeFilterFile P (.opened true contents.length contents) = .ok runtime ↔
      ∃ file, runtime = some file ∧ P.parse contents = .ok file ∧
        validateFilterRules P.debug ("runtime filter file " ++ e.runtimeFile) file.filters
          e.maxRuntimeFilters = .ok () := by
  have htake : contents.take (min (e.maxRuntimeFileBytes + 1) U64_MAX) = contents := by
    have hcap := h.cap
    have hsize := h.size
    exact List.take_of_length_le (by omega)
  have hle : decide (e.maxRuntimeFileBytes < contents.length) = false :=
    decide_eq_false (not_lt.mpr h.size)
  have hreject : ∀ complaint : String, rejectIf false complaint = .ok () := fun _ => rfl
  simp only [loadRuntimeFilterFile, htake, hle, h.decodes, h.notBlank, Bool.not_true, hreject,
    bind_eq_ok_iff, Bool.false_eq_true, if_false, true_and, exists_const]
  constructor
  · rintro ⟨file, hparse, _, -, _, hvalid, hruntime⟩
    exact ⟨file, (Except.ok.inj hruntime).symm, hparse, hvalid⟩
  · rintro ⟨file, rfl, hparse, hvalid⟩
    have hlen := (validateFilterRules_eq_ok.mp hvalid).2.1
    exact ⟨file, hparse, (), rejectIf_eq_ok.mpr (decide_eq_false (not_lt.mpr hlen)), (), hvalid,
      rfl⟩

theorem prepare_eq_ok {file : RuntimeFile} {loaded : List FilterRule} :
    e.prepare P file = .ok loaded ↔ ∃ runtime, e.loadRuntimeFilterFile P file = .ok runtime ∧
      ((e.merge runtime).map FilterRule.id).Nodup ∧ (∀ r ∈ e.merge runtime, RuleOk r) ∧
      (e.merge runtime).insertionSort (fun a b => comesBefore a b = true) = loaded := by
  have heach := fun l => checkEach_eq_ok (fun idx rule =>
    validateFilterRule s!"merged filters[{idx}]" rule) (fun _ _ => validateFilterRule_eq_ok) 0 l
  simp only [prepare, bind_eq_ok_iff, heach]
  constructor
  · rintro ⟨runtime, hload, _, hunique, _, hrules, hsorted⟩
    exact ⟨runtime, hload, validateUniqueFilterRuleIds_eq_ok.mp hunique, hrules,
      Except.ok.inj hsorted⟩
  · rintro ⟨runtime, hload, hunique, hrules, rfl⟩
    exact ⟨runtime, hload, (), validateUniqueFilterRuleIds_eq_ok.mpr hunique, (), hrules, rfl⟩

/-- A reload succeeds when its part before the lock does. -/
theorem reload_ok_iff {s : EngineState} {file : RuntimeFile} {nowMs : ℕ} :
    (e.reload P s file nowMs).2 = .ok () ↔ ∃ loaded, e.prepare P file = .ok loaded := by
  unfold reload
  cases e.prepare P file with
  | error err => simp
  | ok loaded => simp

end GetsThrough

/-! ## Evaluation -/

/-- The rules in order; the first that is on, awake and matches decides. -/
def evaluateRules (ctx : RequestContext) (unixMs : ℕ) :
    List RuntimeRule → FilterEvalScratch → Option FilterDecision
  | [], _ => none
  | runtime :: rest, scratch =>
    if !runtime.rule.enabled || isExpired runtime.rule unixMs then
      evaluateRules ctx unixMs rest scratch
    else if runtime.rule.adaptive && decide (runtime.activeUntilMs ≤ unixMs) then
      evaluateRules ctx unixMs rest scratch
    else
      match ruleMatches runtime ctx scratch with
      | (true, _) => some ⟨runtime.rule.id, runtime.rule.action.status,
          runtime.rule.action.body⟩
      | (false, scratch) => evaluateRules ctx unixMs rest scratch

def evaluate (s : EngineState) (ctx : RequestContext) (unixMs : ℕ) : Option FilterDecision :=
  evaluateRules ctx unixMs s.rules {}

def ruleIsActive (runtime : RuntimeRule) (unixMs : ℕ) : Bool :=
  runtime.rule.enabled && !isExpired runtime.rule unixMs &&
    (!runtime.rule.adaptive || decide (unixMs < runtime.activeUntilMs))

def activeRuleCount (s : EngineState) (nowMs : ℕ) : ℕ :=
  s.rules.countP fun runtime => ruleIsActive runtime nowMs

/-! ## Activation -/

/-- Whether and how an activation wakes the rule at position `i`. -/
def activation (call : ActivationCall) (i : ℕ) (runtime : RuntimeRule) : Option Activation :=
  if runtime.rule.enabled && runtime.rule.adaptive && !isExpired runtime.rule call.unixMs &&
      call.evidence.carriedBy runtime.rule.condition then
    some ⟨runtime.rule.id, call.evidence, call.clock i,
      boundedActivationTtl runtime.rule.ttlSeconds call.ttl e.defaultActivationTtl⟩
  else none

/-- The loop of an activation over the snapshot, from position `i` on. -/
def activateRules (call : ActivationCall) :
    ℕ → List RuntimeRule → Deadlines → List RuntimeRule × Deadlines × Bool
  | _, [], deadlines => ([], deadlines, false)
  | i, runtime :: rest, deadlines =>
    match e.activation call i runtime with
    | some a =>
      let out := activateRules call (i + 1) rest (deadlines.insert a)
      ({ runtime with activeUntilMs := a.activeUntilMs } :: out.1, out.2.1, true)
    | none =>
      let out := activateRules call (i + 1) rest deadlines
      (runtime :: out.1, out.2)

/-- The two activations differ in the matcher they look at. -/
def activate (s : EngineState) (call : ActivationCall) : EngineState × Bool :=
  let out := e.activateRules call 0 s.rules s.activationDeadlines
  (⟨out.1, out.2.1⟩, out.2.2)

def activateSignature (s : EngineState) (signature : Str) (ttl : Option Duration)
    (unixMs : ℕ) (clock : ℕ → ℕ) : EngineState × Bool :=
  e.activate s ⟨.signature signature, ttl, unixMs, clock⟩

def activatePathShape (s : EngineState) (pathShape : Str) (ttl : Option Duration)
    (unixMs : ℕ) (clock : ℕ → ℕ) : EngineState × Bool :=
  e.activate s ⟨.pathShape pathShape, ttl, unixMs, clock⟩

end FilterEngine

end AlturaProt.Filter
