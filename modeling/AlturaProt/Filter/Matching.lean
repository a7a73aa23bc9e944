import AlturaProt.Filter.Activation

/-!
# Which rule decides

`evaluate` scans the snapshot with values that are derived from the request at most
once. Here a rule is matched on its own, without anything shared between rules
(`conditionMatches`); the scan then returns the decision of the best rule that is
eligible, in every state a run of reloads and activations leads to
(`first_match_is_best`).

The header matchers look only at the field lines that are text, so a needle can be
hidden in a line that is not (`header_needles_found_iff`).
-/

namespace AlturaProt.Filter

open Foundation

/-! ## One rule on its own -/

def headerMatches (ctx : RequestContext) (header : HeaderContains) : Bool :=
  (headerNameFromBytes header.name).any fun name =>
    headerValuesContainIgnoreCase ctx.headers name header.contains

/-- All matchers of a condition, each computed from the request. -/
def conditionMatches (condition : FilterCondition) (ctx : RequestContext) : Bool :=
  (condition.methods.isEmpty ||
      condition.methods.any fun method => eqIgnoreAsciiCase method ctx.method) &&
    condition.signature.all (fun signature => signature == ctx.signature ||
      signature == legacyRequestSignature ctx.method ctx.path ctx.query ctx.headers) &&
    condition.pathExact.all (fun path => ctx.path == path) &&
    condition.pathPrefix.all (fun start => start.isPrefixOf ctx.path) &&
    condition.pathContains.all (fun part => containsStr ctx.path part) &&
    condition.pathShape.all (fun shape => requestPathShape ctx.path == shape ||
      (shortTokenParentShape ctx.path).map Prod.fst == some shape) &&
    condition.queryContains.all (fun part => containsStr (ctx.query.getD []) part) &&
    condition.userAgentContains.all (fun needle =>
      headerValuesContainIgnoreCase ctx.headers (utf8 "user-agent") needle) &&
    condition.headers.all (headerMatches ctx)

/-! ## The scratch shows what it would compute -/

namespace FilterEvalScratch

/-- What is kept is what the request gives. -/
structure Shows (s : FilterEvalScratch) (ctx : RequestContext) : Prop where
  shape : ∀ x ∈ s.pathShape, x = requestPathShape ctx.path
  parent : ∀ x ∈ s.shortTokenParentShape,
    x = (Filter.shortTokenParentShape ctx.path).map Prod.fst
  legacy : ∀ x ∈ s.legacySignature,
    x = legacyRequestSignature ctx.method ctx.path ctx.query ctx.headers

variable {s : FilterEvalScratch} {ctx : RequestContext}

theorem shows_empty (ctx : RequestContext) : Shows {} ctx := ⟨by simp, by simp, by simp⟩

theorem Shows.readPathShape (h : s.Shows ctx) :
    (s.readPathShape ctx.path).1 = requestPathShape ctx.path ∧
      (s.readPathShape ctx.path).2.Shows ctx := by
  unfold FilterEvalScratch.readPathShape
  cases hs : s.pathShape with
  | none => exact ⟨rfl, ⟨by simp, h.parent, h.legacy⟩⟩
  | some shape => exact ⟨h.shape shape hs, h⟩

theorem Shows.readParentShape (h : s.Shows ctx) :
    (s.readParentShape ctx.path).1 = (Filter.shortTokenParentShape ctx.path).map Prod.fst ∧
      (s.readParentShape ctx.path).2.Shows ctx := by
  unfold FilterEvalScratch.readParentShape
  cases hs : s.shortTokenParentShape with
  | none => exact ⟨rfl, ⟨h.shape, by simp, h.legacy⟩⟩
  | some parent => exact ⟨h.parent parent hs, h⟩

theorem Shows.readLegacySignature (h : s.Shows ctx) :
    (s.readLegacySignature ctx).1 =
        legacyRequestSignature ctx.method ctx.path ctx.query ctx.headers ∧
      (s.readLegacySignature ctx).2.Shows ctx := by
  unfold FilterEvalScratch.readLegacySignature
  cases hs : s.legacySignature with
  | none => exact ⟨rfl, ⟨h.shape, h.parent, by simp⟩⟩
  | some legacy => exact ⟨h.legacy legacy hs, h⟩

theorem Shows.matchesPathShape (h : s.Shows ctx) (expected : Str) :
    (s.matchesPathShape ctx.path expected).1 = (requestPathShape ctx.path == expected ||
        (Filter.shortTokenParentShape ctx.path).map Prod.fst == some expected) ∧
      (s.matchesPathShape ctx.path expected).2.Shows ctx := by
  obtain ⟨hshape, hkept⟩ := h.readPathShape
  obtain ⟨hparent, hkept'⟩ := hkept.readParentShape
  unfold FilterEvalScratch.matchesPathShape
  dsimp only
  rw [hshape]
  split
  · rename_i heq
    exact ⟨by rw [heq]; rfl, hkept⟩
  · rename_i hne
    exact ⟨by rw [hparent, Bool.eq_false_iff.mpr hne]; rfl, hkept'⟩

theorem Shows.matchesSignature (h : s.Shows ctx) (expected : Str) :
    (s.matchesSignature ctx expected).1 = (expected == ctx.signature ||
        expected == legacyRequestSignature ctx.method ctx.path ctx.query ctx.headers) ∧
      (s.matchesSignature ctx expected).2.Shows ctx := by
  obtain ⟨hlegacy, hkept⟩ := h.readLegacySignature
  unfold FilterEvalScratch.matchesSignature
  dsimp only
  split
  · rename_i heq
    exact ⟨by rw [heq]; rfl, h⟩
  · rename_i hne
    exact ⟨by rw [hlegacy, Bool.eq_false_iff.mpr hne]; rfl, hkept⟩

theorem Shows.given (h : s.Shows ctx) (matcher : Option Str)
    {test : Str → Bool × FilterEvalScratch} {alone : Str → Bool}
    (htest : ∀ expected, (test expected).1 = alone expected ∧ (test expected).2.Shows ctx) :
    (s.given matcher test).1 = matcher.all alone ∧ (s.given matcher test).2.Shows ctx := by
  cases matcher with
  | none => exact ⟨rfl, h⟩
  | some expected => exact htest expected

/-- A matcher in front of the others. -/
theorem Shows.guard {b v : Bool} {rest : Bool × FilterEvalScratch} (h : s.Shows ctx)
    (hrest : rest.1 = v ∧ rest.2.Shows ctx) :
    (if !b then (false, s) else rest).1 = (b && v) ∧
      (if !b then (false, s) else rest).2.Shows ctx := by
  cases b with
  | false => exact ⟨rfl, h⟩
  | true => exact hrest

end FilterEvalScratch

open FilterEvalScratch

/-- The compiled header matchers, if the names are header names. -/
theorem compileHeaders_spec (ctx : RequestContext) (headers : List HeaderContains) :
    (match CompiledCondition.compileHeaders headers with
      | none => false
      | some compiled => compiled.all fun header =>
        headerValuesContainIgnoreCase ctx.headers header.name header.contains) =
      headers.all (headerMatches ctx) := by
  induction headers with
  | nil => rfl
  | cons header rest ih =>
    rw [List.all_cons, ← ih, CompiledCondition.compileHeaders, headerMatches]
    cases headerNameFromBytes header.name with
    | none => rfl
    | some name =>
      cases CompiledCondition.compileHeaders rest with
      | none => simp
      | some compiled => rfl

theorem any_not_eq (matcher : Option Str) (f : Str → Bool) :
    (matcher.any fun x => !f x) = !matcher.all f := by
  cases matcher <;> rfl

/-- **The scratch makes no difference.** -/
theorem ruleMatches_eq {runtime : RuntimeRule} {ctx : RequestContext} {s : FilterEvalScratch}
    (hcompiled : runtime.condition = CompiledCondition.fromFilter runtime.rule.condition)
    (h : s.Shows ctx) :
    (ruleMatches runtime ctx s).1 = conditionMatches runtime.rule.condition ctx ∧
      (ruleMatches runtime ctx s).2.Shows ctx := by
  obtain ⟨hsigned, hkept⟩ := h.given runtime.rule.condition.signature h.matchesSignature
  obtain ⟨hshaped, hkept'⟩ := hkept.given runtime.rule.condition.pathShape hkept.matchesPathShape
  have hspec := compileHeaders_spec ctx runtime.rule.condition.headers
  unfold ruleMatches
  rw [hcompiled, CompiledCondition.fromFilter]
  dsimp only
  revert hsigned hkept hshaped hkept'
  generalize s.given runtime.rule.condition.signature (s.matchesSignature ctx) = signed
  generalize signed.2.given runtime.rule.condition.pathShape
    (signed.2.matchesPathShape ctx.path) = shaped
  intro hsigned hkept hshaped hkept'
  cases hc : CompiledCondition.compileHeaders runtime.rule.condition.headers with
  | none =>
    rw [hc] at hspec
    exact ⟨by simp [conditionMatches, ← hspec], h⟩
  | some compiled =>
    rw [hc] at hspec
    -- from the last matcher back to the first
    have hheaders : (compiled.all fun header => headerValuesContainIgnoreCase ctx.headers
        header.name header.contains, shaped.2).1 =
          runtime.rule.condition.headers.all (headerMatches ctx) ∧ shaped.2.Shows ctx :=
      ⟨hspec, hkept'⟩
    have hagent := hkept'.guard (b := runtime.rule.condition.userAgentContains.all
      (headerValuesContainIgnoreCase ctx.headers (utf8 "user-agent"))) hheaders
    have hquery := hkept'.guard (b := runtime.rule.condition.queryContains.all
      (containsStr (ctx.query.getD []))) hagent
    have hshape := hkept'.guard (b := shaped.1) hquery
    have hcontains := hkept.guard (b := runtime.rule.condition.pathContains.all
      (containsStr ctx.path)) hshape
    have hstart := hkept.guard (b := runtime.rule.condition.pathPrefix.all
      fun start => start.isPrefixOf ctx.path) hcontains
    have hexact := hkept.guard (b := runtime.rule.condition.pathExact.all
      fun path => ctx.path == path) hstart
    have hsignature := hkept.guard (b := signed.1) hexact
    have hmethods := h.guard (b := runtime.rule.condition.methods.isEmpty ||
      runtime.rule.condition.methods.any fun method => eqIgnoreAsciiCase method ctx.method)
      hsignature
    simp only [Bool.not_or, ← any_not_eq] at hmethods
    simp only [conditionMatches, ← hsigned, ← hshaped, Bool.and_assoc, Bool.not_true,
      Bool.false_eq_true, if_false]
    exact hmethods

/-! ## The scan -/

namespace FilterEngine

variable {e : FilterEngine} {P : Platform} {s : EngineState} {ctx : RequestContext} {unixMs : ℕ}

/-- A rule that may decide: enabled, not expired, active if adaptive, and its condition
matches. -/
def Eligible (ctx : RequestContext) (unixMs : ℕ) (runtime : RuntimeRule) : Prop :=
  ruleIsActive runtime unixMs = true ∧ conditionMatches runtime.rule.condition ctx = true

instance (ctx : RequestContext) (unixMs : ℕ) : DecidablePred (Eligible ctx unixMs) :=
  fun _ => inferInstanceAs (Decidable (_ ∧ _))

def decision (rule : FilterRule) : FilterDecision :=
  ⟨rule.id, rule.action.status, rule.action.body⟩

/-- Higher priority, or the same and the smaller id in byte order. -/
def Outranks (a b : FilterRule) : Prop :=
  b.priority < a.priority ∨ (a.priority = b.priority ∧ a.id < b.id)

/-- The rule outranks all others that may decide. -/
structure IsBest (s : EngineState) (ctx : RequestContext) (unixMs : ℕ)
    (runtime : RuntimeRule) : Prop where
  mem : runtime ∈ s.rules
  eligible : Eligible ctx unixMs runtime
  best : ∀ other ∈ s.rules, Eligible ctx unixMs other → other ≠ runtime →
    Outranks runtime.rule other.rule

theorem Outranks.asymm {a b : FilterRule} (h : Outranks a b) : ¬ Outranks b a := by
  rintro (hlt | ⟨heq, hid⟩)
  · rcases h with h | ⟨h, -⟩ <;> omega
  · rcases h with h | ⟨-, hid'⟩
    · omega
    · exact List.lt_asymm hid hid'

theorem IsBest.unique {a b : RuntimeRule} (ha : IsBest s ctx unixMs a)
    (hb : IsBest s ctx unixMs b) : a = b := by
  by_contra hne
  exact (ha.best b hb.mem hb.eligible (Ne.symm hne)).asymm (hb.best a ha.mem ha.eligible hne)

/-- The header matchers of every rule are the ones its condition compiles to. -/
def Compiled (rules : List RuntimeRule) : Prop :=
  ∀ r ∈ rules, r.condition = CompiledCondition.fromFilter r.rule.condition

theorem evaluateRules_cons (runtime : RuntimeRule) (rest : List RuntimeRule)
    (scratch : FilterEvalScratch) :
    evaluateRules ctx unixMs (runtime :: rest) scratch =
      if ruleIsActive runtime unixMs then
        if (ruleMatches runtime ctx scratch).1 then some (decision runtime.rule)
        else evaluateRules ctx unixMs rest (ruleMatches runtime ctx scratch).2
      else evaluateRules ctx unixMs rest scratch := by
  rcases hmatches : ruleMatches runtime ctx scratch with ⟨matched, kept⟩
  rw [evaluateRules, hmatches, ruleIsActive]
  cases runtime.rule.enabled with
  | false => rfl
  | true =>
    cases isExpired runtime.rule unixMs with
    | true => rfl
    | false =>
      cases runtime.rule.adaptive with
      | false => cases matched <;> rfl
      | true =>
        by_cases hawake : unixMs < runtime.activeUntilMs
        · have hnot : ¬ runtime.activeUntilMs ≤ unixMs := not_le.mpr hawake
          rw [decide_eq_true hawake, decide_eq_false hnot]
          cases matched <;> rfl
        · rw [decide_eq_false hawake, decide_eq_true (not_lt.mp hawake)]
          rfl

/-- The scan returns the decision of the first rule that may decide. -/
theorem evaluateRules_eq {rules : List RuntimeRule} {scratch : FilterEvalScratch}
    (hcompiled : Compiled rules) (h : scratch.Shows ctx) :
    evaluateRules ctx unixMs rules scratch =
      (rules.find? fun r => decide (Eligible ctx unixMs r)).map fun r => decision r.rule := by
  induction rules generalizing scratch with
  | nil => rfl
  | cons r rest ih =>
    have hrest : Compiled rest := fun r hr => hcompiled r (List.mem_cons_of_mem _ hr)
    obtain ⟨hmatches, hkept⟩ := ruleMatches_eq (hcompiled r List.mem_cons_self) h
    rw [evaluateRules_cons, hmatches]
    by_cases hactive : ruleIsActive r unixMs = true
    · by_cases hmatch : conditionMatches r.rule.condition ctx = true
      · have hmay : Eligible ctx unixMs r := ⟨hactive, hmatch⟩
        rw [if_pos hactive, if_pos hmatch, List.find?_cons_of_pos (by simpa using hmay)]
        rfl
      · have hnot : ¬ Eligible ctx unixMs r := fun heligible => hmatch heligible.2
        rw [if_pos hactive, if_neg hmatch, ih hrest hkept,
          List.find?_cons_of_neg (by simpa using hnot)]
    · have hnot : ¬ Eligible ctx unixMs r := fun heligible => hactive heligible.1
      rw [if_neg hactive, ih hrest h, List.find?_cons_of_neg (by simpa using hnot)]

/-! ## The snapshot is in order -/

theorem comesBefore_total (a b : FilterRule) :
    comesBefore a b = true ∨ comesBefore b a = true := by
  simp only [comesBefore, Bool.or_eq_true, decide_eq_true_eq, Bool.and_eq_true, beq_iff_eq]
  rcases lt_trichotomy a.priority b.priority with hlt | heq | hlt
  · exact Or.inr (Or.inl hlt)
  · exact (List.le_total a.id b.id).imp (fun hid => Or.inr ⟨heq, hid⟩)
      fun hid => Or.inr ⟨heq.symm, hid⟩
  · exact Or.inl (Or.inl hlt)

theorem comesBefore_trans {a b c : FilterRule} (hab : comesBefore a b = true)
    (hbc : comesBefore b c = true) : comesBefore a c = true := by
  simp only [comesBefore, Bool.or_eq_true, decide_eq_true_eq, Bool.and_eq_true, beq_iff_eq]
    at hab hbc ⊢
  rcases hab with hab | ⟨hab, hid⟩
  · left
    omega
  · rcases hbc with hbc | ⟨hbc, hid'⟩
    · left
      omega
    · exact Or.inr ⟨hab.trans hbc, List.le_trans hid hid'⟩

/-- What every reachable snapshot is like. -/
structure Ordered (s : EngineState) : Prop where
  compiled : Compiled s.rules
  sorted : (s.rules.map RuntimeRule.rule).Pairwise fun a b => comesBefore a b = true

theorem Ordered.activate (h : Ordered s) (call : ActivationCall) :
    Ordered (e.activate s call).1 := by
  have hrules := activateRules_rules e call 0 s.rules s.activationDeadlines
  refine ⟨fun r hr => ?_, hrules ▸ h.sorted⟩
  -- neither half of the equation is touched
  have hpairs : ((e.activate s call).1.rules.map fun r => (r.rule, r.condition)) =
      s.rules.map fun r => (r.rule, r.condition) :=
    activateRules_map (fun _ _ => rfl) s.activationDeadlines
  have hmem : (r.rule, r.condition) ∈ s.rules.map fun r => (r.rule, r.condition) :=
    hpairs ▸ List.mem_map.mpr ⟨r, hr, rfl⟩
  obtain ⟨old, hold, heq⟩ := List.mem_map.mp hmem
  obtain ⟨hrule, hcondition⟩ := Prod.mk.inj heq
  rw [← hrule, ← hcondition]
  exact h.compiled old hold

theorem rules_publish (s : EngineState) (loaded : List FilterRule) (nowMs : ℕ) :
    (publish s loaded nowMs).rules.map RuntimeRule.rule = loaded := by
  simp [publish, RuntimeRule.new, Function.comp_def]

theorem sorted_of_prepare {file : RuntimeFile} {loaded : List FilterRule}
    (h : e.prepare P file = .ok loaded) :
    loaded.Pairwise fun a b => comesBefore a b = true := by
  obtain ⟨runtime, -, -, -, rfl⟩ := prepare_eq_ok.mp h
  have : Std.Total fun a b : FilterRule => comesBefore a b = true := ⟨comesBefore_total⟩
  have : IsTrans FilterRule fun a b => comesBefore a b = true := ⟨fun _ _ _ => comesBefore_trans⟩
  exact List.pairwise_insertionSort _ _

theorem Ordered.step (h : Ordered s) (op : EngineOp) : Ordered (e.step P s op) := by
  cases op with
  | reload file nowMs =>
    show Ordered (e.reload P s file nowMs).1
    rcases reload_cases (e := e) (P := P) s file nowMs with ⟨_, hr⟩ | ⟨loaded, hloaded, hr⟩
    · rw [hr]
      exact h
    · rw [hr]
      refine ⟨fun r hr => ?_, by rw [rules_publish]; exact sorted_of_prepare hloaded⟩
      obtain ⟨rule, -, rfl⟩ := List.mem_map.mp hr
      rfl
  | activate call => exact h.activate call

theorem ordered_run (ops : List EngineOp) : Ordered (e.run P .empty ops) :=
  List.foldlRecOn ops (e.step P) ⟨by simp [Compiled, EngineState.empty], List.Pairwise.nil⟩
    fun _ hs op _ => hs.step op

/-- In a snapshot in order with distinct ids, the first rule that may decide is the best. -/
theorem isBest_of_find? (hordered : Ordered s)
    (hnodup : (s.rules.map fun r => r.rule.id).Nodup) {r : RuntimeRule}
    (h : s.rules.find? (fun r => decide (Eligible ctx unixMs r)) = some r) :
    IsBest s ctx unixMs r := by
  obtain ⟨heligible, front, back, hrules, hfront⟩ := List.find?_eq_some_iff_append.mp h
  refine ⟨List.mem_of_find?_eq_some h, of_decide_eq_true heligible, ?_⟩
  intro other hother hmay hne
  have hback : other ∈ back := by
    rw [hrules] at hother
    rcases List.mem_append.mp hother with hmem | hmem
    · exact absurd hmay (by simpa using hfront other hmem)
    · exact (List.mem_cons.mp hmem).resolve_left hne
  have hbefore := hordered.sorted
  rw [hrules, List.map_append, List.map_cons] at hbefore
  rw [hrules, List.map_append, List.map_cons] at hnodup
  have hfirst := List.rel_of_pairwise_cons (List.pairwise_append.mp hbefore).2.1
    (List.mem_map.mpr ⟨other, hback, rfl⟩)
  have hid := List.rel_of_pairwise_cons (List.pairwise_append.mp hnodup).2.1
    (List.mem_map.mpr ⟨other, hback, rfl⟩)
  simp only [comesBefore, Bool.or_eq_true, decide_eq_true_eq, Bool.and_eq_true, beq_iff_eq]
    at hfirst
  exact hfirst.imp_right fun hsame => ⟨hsame.1, Std.lt_of_le_of_ne hsame.2 hid⟩

theorem rules_run_of_rejected {ops : List EngineOp}
    (hops : ∀ file nowMs, EngineOp.reload file nowMs ∈ ops →
      ∀ s, (e.reload P s file nowMs).2 ≠ .ok ()) :
    (e.run P s ops).rules.map RuntimeRule.rule = s.rules.map RuntimeRule.rule := by
  induction ops generalizing s with
  | nil => rfl
  | cons op rest ih =>
    have hrest := ih (s := e.step P s op)
      fun file nowMs hmem => hops file nowMs (List.mem_cons_of_mem _ hmem)
    refine hrest.trans ?_
    cases op with
    | reload file nowMs =>
      show (e.reload P s file nowMs).1.rules.map RuntimeRule.rule = _
      have hno := hops file nowMs List.mem_cons_self s
      rcases reload_cases (e := e) (P := P) s file nowMs with ⟨_, hr⟩ | ⟨_, -, hr⟩
      · rw [hr]
      · exact absurd (by rw [hr]) hno
    | activate call => exact activateRules_rules e call 0 s.rules s.activationDeadlines

/-- **The first match is the best match.** After an accepted reload, and whatever is
activated or rejected since, the snapshot holds the rules of that reload, and `evaluate`
returns the decision of the eligible rule that outranks all others. -/
theorem first_match_is_best (e : FilterEngine) (P : Platform) (before after : List EngineOp)
    (file : RuntimeFile) (nowMs : ℕ) (runtime : Option FilterFile)
    (hload : e.loadRuntimeFilterFile P file = .ok runtime)
    (haccepted : (e.reload P (e.run P .empty before) file nowMs).2 = .ok ())
    (hafter : ∀ file nowMs, EngineOp.reload file nowMs ∈ after →
      ∀ s, (e.reload P s file nowMs).2 ≠ .ok ())
    (ctx : RequestContext) (unixMs : ℕ) :
    let s := e.run P .empty (before ++ .reload file nowMs :: after)
    (s.rules.map RuntimeRule.rule).Perm (e.merge runtime) ∧
      (∀ d, evaluate s ctx unixMs = some d ↔
        ∃ r, IsBest s ctx unixMs r ∧ d = decision r.rule) ∧
      (evaluate s ctx unixMs = none ↔ ∀ r ∈ s.rules, ¬ Eligible ctx unixMs r) := by
  intro s
  have hordered : Ordered s := ordered_run _
  have hnodup : (s.rules.map fun r => r.rule.id).Nodup := (agrees_run _).nodup
  have heval : evaluate s ctx unixMs =
      (s.rules.find? fun r => decide (Eligible ctx unixMs r)).map fun r => decision r.rule :=
    evaluateRules_eq hordered.compiled (shows_empty ctx)
  refine ⟨?_, fun d => ?_, ?_⟩
  · obtain ⟨loaded, hloaded⟩ := reload_ok_iff.mp haccepted
    obtain ⟨runtime', hload', -, -, rfl⟩ := prepare_eq_ok.mp hloaded
    obtain rfl : runtime' = runtime := Except.ok.inj (hload'.symm.trans hload)
    have hpublished : (e.step P (e.run P .empty before) (.reload file nowMs)).rules.map
        RuntimeRule.rule = (e.merge runtime').insertionSort fun a b => comesBefore a b = true := by
      rw [step, reload, hloaded]
      exact rules_publish _ _ _
    have hrun : s = e.run P (e.step P (e.run P .empty before) (.reload file nowMs)) after :=
      List.foldl_append
    rw [hrun, rules_run_of_rejected hafter, hpublished]
    exact List.perm_insertionSort _ _
  · rw [heval, Option.map_eq_some_iff]
    constructor
    · rintro ⟨r, hfound, rfl⟩
      exact ⟨r, isBest_of_find? hordered hnodup hfound, rfl⟩
    · rintro ⟨r, hbest, rfl⟩
      -- something is found, and there is only one best rule
      have hsome : (s.rules.find? fun r => decide (Eligible ctx unixMs r)).isSome = true :=
        List.find?_isSome.mpr ⟨r, hbest.mem, by simpa using hbest.eligible⟩
      obtain ⟨found, hfound⟩ := Option.isSome_iff_exists.mp hsome
      obtain rfl := (isBest_of_find? hordered hnodup hfound).unique hbest
      exact ⟨found, hfound, rfl⟩
  · rw [heval, Option.map_eq_none_iff, List.find?_eq_none]
    simp only [decide_eq_true_eq]

/-- Two rules for the root path, not in the order of their ids. -/
def twoRootRules : FilterEngine :=
  FilterEngine.new [{ id := utf8 "b", condition := { pathExact := some (utf8 "/") } },
    { id := utf8 "a", condition := { pathExact := some (utf8 "/") } }] "filters.json" 0

theorem first_match_is_best_two_root_rules :
    evaluate (twoRootRules.run signatureFiles .empty [.reload .notFound 0]) (requestFor "") 0 =
      some ⟨utf8 "a", 403, utf8 "blocked\n"⟩ ∧
    ∃ r, IsBest (twoRootRules.run signatureFiles .empty [.reload .notFound 0])
      (requestFor "") 0 r ∧ r.rule.id = utf8 "a" := by
  have hfacts : (twoRootRules.reload signatureFiles .empty .notFound 0).2 = .ok () ∧
      evaluate (twoRootRules.run signatureFiles .empty [.reload .notFound 0])
        (requestFor "") 0 = some ⟨utf8 "a", 403, utf8 "blocked\n"⟩ := by decide +kernel
  obtain ⟨r, hbest, hd⟩ := ((first_match_is_best twoRootRules signatureFiles [] [] .notFound 0 none
    rfl hfacts.1 (by simp) (requestFor "") 0).2.1 _).mp hfacts.2
  exact ⟨hfacts.2, r, hbest, (congrArg FilterDecision.ruleId hd).symm⟩

end FilterEngine

/-! ## Needles in field lines -/

/-- The needle stands somewhere in the value, up to the case of ASCII letters. -/
def ContainsIgnoringCase (value needle : Str) : Prop :=
  ∃ front part back, value = front ++ part ++ back ∧
    part.map toAsciiLowercase = needle.map toAsciiLowercase

/-- What a field value is made of. -/
def isFieldByte (b : UInt8) : Bool := (0x20 ≤ b && b != 0x7F) || b == 0x09

theorem asciiContainsIgnoreCase_iff {haystack needle : Str} :
    asciiContainsIgnoreCase haystack needle = true ↔ ContainsIgnoringCase haystack needle := by
  constructor
  · intro h
    cases needle with
    | nil => exact ⟨[], [], haystack, rfl, rfl⟩
    | cons b rest =>
      simp only [asciiContainsIgnoreCase, List.isEmpty_cons, Bool.false_eq_true, if_false] at h
      split at h
      · cases h
      · obtain ⟨i, -, hwindow⟩ := List.any_eq_true.mp h
        refine ⟨haystack.take i, _, (haystack.drop i).drop (b :: rest).length, ?_,
          eq_of_beq hwindow⟩
        rw [List.append_assoc, List.take_append_drop, List.take_append_drop]
  · rintro ⟨front, part, back, rfl, hsame⟩
    have hlen : part.length = needle.length := by
      simpa using congrArg List.length hsame
    unfold asciiContainsIgnoreCase
    split
    · rfl
    · rw [if_neg (by simp; omega), List.any_eq_true]
      refine ⟨front.length, List.mem_range.mpr (by simp; omega), ?_⟩
      rw [List.append_assoc, List.drop_left, ← hlen, List.take_left]
      exact beq_iff_eq.mpr hsame

instance (value needle : Str) : Decidable (ContainsIgnoringCase value needle) :=
  decidable_of_iff _ asciiContainsIgnoreCase_iff

theorem isVisibleAscii_iff {b : UInt8} (h : isFieldByte b = true) :
    isVisibleAscii b = true ↔ b < 0x80 := by
  simp only [isFieldByte, isVisibleAscii, Bool.or_eq_true, Bool.and_eq_true, decide_eq_true_eq,
    beq_iff_eq, bne_iff_ne, ne_eq, UInt8.le_iff_toNat_le, UInt8.lt_iff_toNat_lt,
    ← UInt8.toNat_inj] at h ⊢
  have h2 : (0x7F : UInt8).toNat = 127 := rfl
  have h3 : (0x80 : UInt8).toNat = 128 := rfl
  have h4 : (0x09 : UInt8).toNat = 9 := rfl
  omega

/-- A line with the needle that is not text is joined by one that is. -/
def NotHidden (lines : List Str) (needle : Str) : Prop :=
  ∀ value ∈ lines, ContainsIgnoringCase value needle → (∃ b ∈ value, 0x80 ≤ b) →
    ∃ text ∈ lines, ContainsIgnoringCase text needle ∧ ∀ b ∈ text, b < 0x80

theorem mem_textValues {headers : HeaderMap} {name value : Str}
    (hbytes : ∀ line ∈ headers, ∀ b ∈ line.2, isFieldByte b = true) :
    value ∈ headers.textValues name ↔ value ∈ headers.getAll name ∧ ∀ b ∈ value, b < 0x80 := by
  rw [HeaderMap.textValues, List.mem_filter, List.all_eq_true]
  refine and_congr_right fun hvalue => forall₂_congr fun b hb => ?_
  obtain ⟨line, hline, rfl⟩ := List.mem_map.mp hvalue
  exact isVisibleAscii_iff (hbytes line (List.mem_of_mem_filter hline) b hb)

/-- The lookup finds what stands in a line that is text. -/
theorem headerValuesContainIgnoreCase_iff {headers : HeaderMap} {name needle : Str}
    (hbytes : ∀ line ∈ headers, ∀ b ∈ line.2, isFieldByte b = true) :
    headerValuesContainIgnoreCase headers name needle = true ↔
      ∃ text ∈ headers.getAll name, ContainsIgnoringCase text needle ∧ ∀ b ∈ text, b < 0x80 := by
  simp only [headerValuesContainIgnoreCase, List.any_eq_true, mem_textValues hbytes,
    asciiContainsIgnoreCase_iff]
  exact ⟨fun ⟨text, ⟨hmem, htext⟩, hfound⟩ => ⟨text, hmem, hfound, htext⟩,
    fun ⟨text, hmem, hfound, htext⟩ => ⟨text, ⟨hmem, htext⟩, hfound⟩⟩

theorem found_iff_notHidden {headers : HeaderMap} {name needle : Str}
    (hbytes : ∀ line ∈ headers, ∀ b ∈ line.2, isFieldByte b = true) :
    (headerValuesContainIgnoreCase headers name needle = true ↔
        ∃ value ∈ headers.getAll name, ContainsIgnoringCase value needle) ↔
      NotHidden (headers.getAll name) needle := by
  rw [headerValuesContainIgnoreCase_iff hbytes]
  constructor
  · intro h value hmem hfound _
    exact h.mpr ⟨value, hmem, hfound⟩
  · intro h
    refine ⟨fun ⟨text, hmem, hfound, _⟩ => ⟨text, hmem, hfound⟩, ?_⟩
    rintro ⟨value, hmem, hfound⟩
    by_cases htext : ∀ b ∈ value, b < 0x80
    · exact ⟨value, hmem, hfound, htext⟩
    · push Not at htext
      obtain ⟨b, hb, hge⟩ := htext
      exact h value hmem hfound ⟨b, hb, UInt8.not_lt.mp hge⟩

/-- A rule with a single header matcher, and one with the user agent matcher alone. -/
def headerRule (rule : FilterRule) (name needle : Str) : FilterRule :=
  { rule with condition := { headers := [⟨name, needle⟩] } }

def userAgentRule (rule : FilterRule) (needle : Str) : FilterRule :=
  { rule with condition := { userAgentContains := some needle } }

theorem ruleMatches_headerRule {rule : FilterRule} {name field needle : Str}
    (hname : headerNameFromBytes name = some field) (activeUntilMs : ℕ) (ctx : RequestContext)
    (scratch : FilterEvalScratch) :
    (ruleMatches (RuntimeRule.new (headerRule rule name needle) activeUntilMs) ctx scratch).1 =
      headerValuesContainIgnoreCase ctx.headers field needle := by
  simp [ruleMatches, RuntimeRule.new, headerRule, CompiledCondition.fromFilter,
    CompiledCondition.compileHeaders, hname, FilterEvalScratch.given]

theorem ruleMatches_userAgentRule (rule : FilterRule) (needle : Str) (activeUntilMs : ℕ)
    (ctx : RequestContext) (scratch : FilterEvalScratch) :
    (ruleMatches (RuntimeRule.new (userAgentRule rule needle) activeUntilMs) ctx scratch).1 =
      headerValuesContainIgnoreCase ctx.headers (utf8 "user-agent") needle := by
  cases h : headerValuesContainIgnoreCase ctx.headers (utf8 "user-agent") needle <;>
    simp [ruleMatches, RuntimeRule.new, userAgentRule, CompiledCondition.fromFilter,
      CompiledCondition.compileHeaders, FilterEvalScratch.given, h]

/-- **When needles are found.** The two matchers accept exactly the requests with the needle
in some line of the field, unless it is hidden: every line with the needle has a byte that is
not ASCII. -/
theorem header_needles_found_iff (rule : FilterRule) (name field needle : Str)
    (hname : headerNameFromBytes name = some field) (activeUntilMs : ℕ) (ctx : RequestContext)
    (scratch : FilterEvalScratch)
    (hbytes : ∀ line ∈ ctx.headers, ∀ b ∈ line.2, isFieldByte b = true) :
    (((ruleMatches (RuntimeRule.new (headerRule rule name needle) activeUntilMs) ctx
          scratch).1 = true ↔
        ∃ value ∈ ctx.headers.getAll field, ContainsIgnoringCase value needle) ↔
      NotHidden (ctx.headers.getAll field) needle) ∧
    (((ruleMatches (RuntimeRule.new (userAgentRule rule needle) activeUntilMs) ctx
          scratch).1 = true ↔
        ∃ value ∈ ctx.headers.getAll (utf8 "user-agent"), ContainsIgnoringCase value needle) ↔
      NotHidden (ctx.headers.getAll (utf8 "user-agent")) needle) := by
  rw [ruleMatches_headerRule hname, ruleMatches_userAgentRule]
  exact ⟨found_iff_notHidden hbytes, found_iff_notHidden hbytes⟩

/-- A request with one user agent line. -/
def requestFrom (agent : Str) : RequestContext where
  method := utf8 "GET"
  path := utf8 "/"
  query := none
  headers := [(utf8 "user-agent", agent)]
  signature := []

/-- A rule to give a matcher to. -/
def agentRule : FilterRule := { id := utf8 "agent" }

theorem header_needles_found_mixedbot :
    (ruleMatches (RuntimeRule.new (headerRule agentRule (utf8 "User-Agent") (utf8 "MIXEDBOT")) 0)
      (requestFrom (utf8 "legit mixedbot/1.0")) {}).1 = true ∧
    (ruleMatches (RuntimeRule.new (userAgentRule agentRule (utf8 "MIXEDBOT")) 0)
      (requestFrom (utf8 "legit mixedbot/1.0")) {}).1 = true := by
  have hfacts : headerNameFromBytes (utf8 "User-Agent") = some (utf8 "user-agent") ∧
      (∀ line ∈ (requestFrom (utf8 "legit mixedbot/1.0")).headers,
        ∀ b ∈ line.2, isFieldByte b = true) ∧
      (requestFrom (utf8 "legit mixedbot/1.0")).headers.getAll (utf8 "user-agent") =
        [utf8 "legit mixedbot/1.0"] ∧
      (∀ b ∈ utf8 "legit mixedbot/1.0", b < 0x80) ∧
      ContainsIgnoringCase (utf8 "legit mixedbot/1.0") (utf8 "MIXEDBOT") := by
    decide +kernel
  obtain ⟨hname, hbytes, hlines, hascii, hfound⟩ := hfacts
  obtain ⟨hheader, hagent⟩ := header_needles_found_iff agentRule (utf8 "User-Agent")
    (utf8 "user-agent") (utf8 "MIXEDBOT") hname 0 (requestFrom (utf8 "legit mixedbot/1.0")) {}
    hbytes
  have hshown : NotHidden [utf8 "legit mixedbot/1.0"] (utf8 "MIXEDBOT") :=
    fun _ _ _ _ => ⟨_, List.mem_singleton_self _, hfound, hascii⟩
  exact ⟨(hheader.mpr hshown).mpr ⟨_, List.mem_singleton_self _, hfound⟩,
    (hagent.mpr hshown).mpr ⟨_, List.mem_singleton_self _, hfound⟩⟩

/-- A line with a needle and one byte that is not ASCII. -/
def disguised : RequestContext := requestFrom (utf8 "evilbot" ++ [0x80])

theorem non_ascii_line_hides_needle :
    (∀ line ∈ disguised.headers, ∀ b ∈ line.2, isFieldByte b = true) ∧
    (∃ value ∈ disguised.headers.getAll (utf8 "user-agent"),
      ContainsIgnoringCase value (utf8 "evilbot")) ∧
    (ruleMatches (RuntimeRule.new (headerRule agentRule (utf8 "User-Agent") (utf8 "evilbot")) 0)
      disguised {}).1 = false ∧
    (ruleMatches (RuntimeRule.new (userAgentRule agentRule (utf8 "evilbot")) 0)
      disguised {}).1 = false := by
  decide +kernel

end AlturaProt.Filter
