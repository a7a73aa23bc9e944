import AlturaProt.Analyzer.Stable
import AlturaProt.Filter.Matching

/-!
# When a learned rule takes effect

Every filter that the analyzer writes is adaptive, so the proxy skips it until
an activation wakes it. Activations look rules up by their signature and by
their path shape and by nothing else. A rule that matches a request is therefore
woken by the activations for that request exactly if it carries one of the two
(`learned_rule_takes_effect_iff`); a rule on, say, a path alone sleeps on.
-/

namespace AlturaProt.Filter

open Foundation

/-! ## Evidence of a request -/

/-- What the detector activates for a request: its signature and its legacy
signature, the shape of its path and the short-token parent of that shape. -/
def activationEvidence (ctx : RequestContext) : List Evidence :=
  let legacy := legacyRequestSignature ctx.method ctx.path ctx.query ctx.headers
  [.signature ctx.signature] ++
  (if legacy ≠ ctx.signature then [.signature legacy] else []) ++
  [.pathShape (requestPathShape ctx.path)] ++
  ((shortTokenParentShape ctx.path).map fun parent => Evidence.pathShape parent.1).toList

theorem mem_activationEvidence_signature {ctx : RequestContext} {x : Str} :
    Evidence.signature x ∈ activationEvidence ctx ↔
      x = ctx.signature ∨ x = legacyRequestSignature ctx.method ctx.path ctx.query ctx.headers := by
  unfold activationEvidence
  by_cases h : legacyRequestSignature ctx.method ctx.path ctx.query ctx.headers = ctx.signature
  · simp [h]
  · simp [h]

theorem mem_activationEvidence_pathShape {ctx : RequestContext} {x : Str} :
    Evidence.pathShape x ∈ activationEvidence ctx ↔
      x = requestPathShape ctx.path ∨ (shortTokenParentShape ctx.path).map Prod.fst = some x := by
  unfold activationEvidence
  by_cases h : legacyRequestSignature ctx.method ctx.path ctx.query ctx.headers = ctx.signature
  · cases shortTokenParentShape ctx.path <;> simp [h, eq_comm]
  · cases shortTokenParentShape ctx.path <;> simp [h, eq_comm]

namespace FilterEvalScratch

/-- The scratch has not looked at the path yet. -/
def PathUnread (s : FilterEvalScratch) : Prop :=
  s.pathShape = none ∧ s.shortTokenParentShape = none

theorem pathUnread_matchesSignature {s : FilterEvalScratch} (h : s.PathUnread)
    (ctx : RequestContext) (expected : Str) : (s.matchesSignature ctx expected).2.PathUnread := by
  unfold matchesSignature readLegacySignature
  split
  · exact h
  · split <;> exact h

theorem matchesPathShape_iff {s : FilterEvalScratch} (h : s.PathUnread) (path expected : Str) :
    (s.matchesPathShape path expected).1 = true ↔
      requestPathShape path = expected ∨
        (Filter.shortTokenParentShape path).map Prod.fst = some expected := by
  unfold matchesPathShape readPathShape readParentShape
  rw [h.1]
  dsimp only
  split
  · rename_i heq
    simp [beq_iff_eq.mp heq]
  · rename_i hne
    have hne' : requestPathShape path ≠ expected := fun heq => hne (beq_iff_eq.mpr heq)
    rw [h.2]
    simp [hne']

theorem matchesSignature_evidence {ctx : RequestContext} {expected : Str}
    (h : (matchesSignature {} ctx expected).1 = true) :
    Evidence.signature expected ∈ activationEvidence ctx := by
  unfold matchesSignature readLegacySignature at h
  rw [mem_activationEvidence_signature]
  split at h
  · rename_i heq
    exact Or.inl (beq_iff_eq.mp heq)
  · exact Or.inr (beq_iff_eq.mp h)

end FilterEvalScratch

open FilterEvalScratch

/-- A check that ends the matching has not failed where there is a match. -/
theorem passed_of_match {c : Prop} [Decidable c] {scratch : FilterEvalScratch}
    {rest : Bool × FilterEvalScratch} (h : (if c then (false, scratch) else rest).1 = true) :
    ¬c ∧ rest.1 = true := by
  by_cases hc : c
  · rw [if_pos hc] at h
    cases h
  · rw [if_neg hc] at h
    exact ⟨hc, h⟩

/-- A rule that matches a request carries no other signature or path shape than
those of the request. -/
theorem evidence_of_ruleMatches {runtime : RuntimeRule} {ctx : RequestContext}
    (h : (ruleMatches runtime ctx {}).1 = true) :
    (∀ x ∈ runtime.rule.condition.signature, Evidence.signature x ∈ activationEvidence ctx) ∧
      ∀ x ∈ runtime.rule.condition.pathShape, Evidence.pathShape x ∈ activationEvidence ctx := by
  unfold ruleMatches at h
  -- of the ten outcomes only the last is a match
  obtain ⟨-, h⟩ := passed_of_match h
  obtain ⟨-, h⟩ := passed_of_match h
  obtain ⟨hsigned, h⟩ := passed_of_match h
  obtain ⟨-, h⟩ := passed_of_match h
  obtain ⟨-, h⟩ := passed_of_match h
  obtain ⟨-, h⟩ := passed_of_match h
  obtain ⟨hshaped, -⟩ := passed_of_match h
  rw [Bool.not_eq_true, Bool.not_eq_false'] at hsigned hshaped
  cases hsignature : runtime.rule.condition.signature with
  | none =>
    refine ⟨by simp, fun x hx => ?_⟩
    rw [hsignature, hx] at hshaped
    rw [mem_activationEvidence_pathShape, eq_comm]
    exact (matchesPathShape_iff ⟨rfl, rfl⟩ _ _).mp hshaped
  | some signature =>
    rw [hsignature] at hsigned hshaped
    constructor
    · rintro x hx
      obtain rfl := Option.some.inj hx
      exact matchesSignature_evidence hsigned
    · intro x hx
      rw [hx] at hshaped
      rw [mem_activationEvidence_pathShape, eq_comm]
      exact (matchesPathShape_iff (pathUnread_matchesSignature ⟨rfl, rfl⟩ _ _) _ _).mp hshaped

namespace FilterEngine

/-! ## An engine with one rule -/

/-- Activations one after the other. -/
def activateAll (e : FilterEngine) (s : EngineState) (calls : List ActivationCall) :
    EngineState :=
  calls.foldl (fun s call => (e.activate s call).1) s

/-- The calls by which the detector activates everything there is to a request,
with the time to live it is configured with. -/
structure FullActivation (ctx : RequestContext) (ttl : Duration)
    (calls : List ActivationCall) : Prop where
  evidence : calls.map ActivationCall.evidence = activationEvidence ctx
  ttl_eq : ∀ call ∈ calls, call.ttl = some ttl

variable {e : FilterEngine} {s : EngineState} {r : RuntimeRule}

/-- Until when a rule is awake after an activation. -/
def awakeAfter (e : FilterEngine) (call : ActivationCall) (r : RuntimeRule) : ℕ :=
  if call.evidence.carriedBy r.rule.condition then
    activeUntilMsFromTtl (call.clock 0)
      (boundedActivationTtl r.rule.ttlSeconds call.ttl e.defaultActivationTtl)
  else r.activeUntilMs

/-- One activation of an engine with one rule that can be woken. -/
theorem activate_single (hs : s.rules = [r]) (henabled : r.rule.enabled = true)
    (hadaptive : r.rule.adaptive = true) (hexpires : r.rule.expiresAtUnixMs = none)
    (call : ActivationCall) :
    (e.activate s call).1.rules = [{ r with activeUntilMs := e.awakeAfter call r }] := by
  show (e.activateRules call 0 s.rules s.activationDeadlines).1 = _
  rw [hs]
  unfold activateRules activation awakeAfter
  simp only [henabled, hadaptive, isExpired, hexpires, Option.any_none, Bool.not_false,
    Bool.and_self, Bool.true_and]
  split
  · rename_i hcarried
    split at hcarried
    · rename_i hc
      cases hcarried
      simp [hc, activateRules, Activation.activeUntilMs]
    · cases hcarried
  · rename_i hcarried
    split at hcarried
    · cases hcarried
    · rename_i hc
      simp [hc, activateRules]

theorem activeUntilMsFromTtl_mono {a b ttlSeconds : ℕ} (h : a ≤ b) :
    activeUntilMsFromTtl a ttlSeconds ≤ activeUntilMsFromTtl b ttlSeconds := by
  unfold activeUntilMsFromTtl
  omega

/-- After activations from `nowMs` on the rule is awake for its time to live if
one of them was for evidence it carries; otherwise nothing has changed. -/
theorem activateAll_single {nowMs : ℕ} {ttl : Option Duration} {calls : List ActivationCall}
    (hs : s.rules = [r]) (henabled : r.rule.enabled = true) (hadaptive : r.rule.adaptive = true)
    (hexpires : r.rule.expiresAtUnixMs = none) (httl : ∀ call ∈ calls, call.ttl = ttl)
    (hclock : ∀ call ∈ calls, ∀ i, nowMs ≤ call.clock i) :
    ∃ u, (e.activateAll s calls).rules = [{ r with activeUntilMs := u }] ∧
      ((∃ call ∈ calls, call.evidence.carriedBy r.rule.condition = true) →
        activeUntilMsFromTtl nowMs
          (boundedActivationTtl r.rule.ttlSeconds ttl e.defaultActivationTtl) ≤ u) ∧
      ((¬ ∃ call ∈ calls, call.evidence.carriedBy r.rule.condition = true) →
        u = r.activeUntilMs) := by
  -- induction from the last call, which decides if it carries evidence
  induction calls using List.reverseRecOn with
  | nil => exact ⟨r.activeUntilMs, hs, by simp, by simp⟩
  | append_singleton calls call ih =>
    obtain ⟨u, hrules, hawake, hasleep⟩ := ih
      (fun c hc => httl c (List.mem_append_left _ hc))
      (fun c hc => hclock c (List.mem_append_left _ hc))
    have hcall : call ∈ calls ++ [call] := List.mem_append_right _ (List.mem_singleton_self _)
    have hstep := activate_single (e := e) hrules henabled hadaptive hexpires call
    rw [activateAll, List.foldl_append]
    by_cases hc : call.evidence.carriedBy r.rule.condition = true
    · refine ⟨_, hstep, fun _ => ?_, fun hnone => absurd ⟨call, hcall, hc⟩ hnone⟩
      rw [awakeAfter, if_pos hc, httl call hcall]
      exact activeUntilMsFromTtl_mono (hclock call hcall 0)
    · refine ⟨_, hstep, ?_, ?_⟩
      · rintro ⟨c, hmem, hcarried⟩
        rw [awakeAfter, if_neg hc]
        apply hawake
        rcases List.mem_append.mp hmem with hmem | hmem
        · exact ⟨c, hmem, hcarried⟩
        · rw [List.mem_singleton.mp hmem] at hcarried
          exact absurd hcarried hc
      · intro hnone
        rw [awakeAfter, if_neg hc]
        apply hasleep
        rintro ⟨c, hmem, hcarried⟩
        exact hnone ⟨c, List.mem_append_left _ hmem, hcarried⟩

theorem evaluate_single (hs : s.rules = [r]) (henabled : r.rule.enabled = true)
    (hadaptive : r.rule.adaptive = true) (hexpires : r.rule.expiresAtUnixMs = none)
    {ctx : RequestContext} (hmatch : (ruleMatches r ctx {}).1 = true) (t : ℕ) :
    evaluate s ctx t = some ⟨r.rule.id, r.rule.action.status, r.rule.action.body⟩ ↔
      t < r.activeUntilMs := by
  rw [evaluate, hs, evaluateRules_cons, hmatch, if_pos rfl]
  simp [ruleIsActive, henabled, hadaptive, isExpired, hexpires, evaluateRules, decision]

end FilterEngine

end AlturaProt.Filter

namespace AlturaProt.Analyzer

open Foundation Python AlturaProt.Filter AlturaProt.Filter.FilterEngine

/-! ## Learned rules -/

/-- The rules that the proxy reads from sanitized filters are adaptive and do
not expire. -/
theorem adaptive_of_sanitized {F : Type} {rt : Runtime F} {item filter : PyDict F}
    {ttlSeconds : ℤ} {rule : FilterRule}
    (hclean : sanitizeFilter rt item ttlSeconds = .ok filter)
    (hrule : FilterRule.ofJson (.dict filter) = some rule) :
    rule.adaptive = true ∧ rule.expiresAtUnixMs = none := by
  obtain ⟨c, hc, hfilter⟩ := bind_eq_ok_iff.mp hclean
  obtain rfl := Except.ok.inj hfilter
  rw [ofJson_clean (sanitize_clean rt hc)] at hrule
  split at hrule
  · obtain rfl := Option.some.inj hrule
    exact ⟨rfl, rfl⟩
  · cases hrule

/-- The full activation for a request that a rule matches is about the rule if
the rule has a signature or a path shape. -/
theorem exists_carried_iff {runtime : RuntimeRule} {ctx : RequestContext} {ttl : Duration}
    {calls : List ActivationCall} (hmatch : (ruleMatches runtime ctx {}).1 = true)
    (hcalls : FullActivation ctx ttl calls) :
    (∃ call ∈ calls, call.evidence.carriedBy runtime.rule.condition = true) ↔
      runtime.rule.condition.signature.isSome ∨ runtime.rule.condition.pathShape.isSome := by
  have hcall : ∀ {evidence}, evidence ∈ activationEvidence ctx →
      ∃ call ∈ calls, call.evidence = evidence := by
    intro evidence h
    rw [← hcalls.evidence] at h
    exact List.mem_map.mp h
  obtain ⟨hsignature, hshape⟩ := evidence_of_ruleMatches hmatch
  constructor
  · rintro ⟨call, -, hcarried⟩
    cases hevidence : call.evidence with
    | signature x =>
      rw [hevidence] at hcarried
      left
      rw [beq_iff_eq.mp hcarried]
      rfl
    | pathShape x =>
      rw [hevidence] at hcarried
      right
      rw [beq_iff_eq.mp hcarried]
      rfl
  · rintro (h | h)
    · obtain ⟨x, hx⟩ := Option.isSome_iff_exists.mp h
      obtain ⟨call, hmem, hevidence⟩ := hcall (hsignature x hx)
      refine ⟨call, hmem, ?_⟩
      rw [hevidence]
      exact beq_iff_eq.mpr hx
    · obtain ⟨x, hx⟩ := Option.isSome_iff_exists.mp h
      obtain ⟨call, hmem, hevidence⟩ := hcall (hshape x hx)
      refine ⟨call, hmem, ?_⟩
      rw [hevidence]
      exact beq_iff_eq.mpr hx

/-- **When a learned rule takes effect.** A rule from a sanitized filter, the
only one of the engine, matches a request; everything about the request is
activated from `nowMs` on. Until the time to live ends the rule blocks the
request if it has a signature or a path shape; and if it was dormant, only
then. -/
theorem learned_rule_takes_effect_iff {F : Type} (rt : Runtime F) {item filter : PyDict F}
    {ttlSeconds : ℤ} {rule : FilterRule}
    (hclean : sanitizeFilter rt item ttlSeconds = .ok filter)
    (hrule : FilterRule.ofJson (.dict filter) = some rule) (henabled : rule.enabled = true)
    (e : FilterEngine) {s : EngineState} {untilMs : ℕ}
    (hs : s.rules = [RuntimeRule.new rule untilMs]) {ctx : RequestContext}
    (hmatch : (ruleMatches (RuntimeRule.new rule untilMs) ctx {}).1 = true) {ttl : Duration}
    {calls : List ActivationCall} (hcalls : FullActivation ctx ttl calls) {nowMs t : ℕ}
    (hclock : ∀ call ∈ calls, ∀ i, nowMs ≤ call.clock i)
    (ht : t < activeUntilMsFromTtl nowMs
      (boundedActivationTtl rule.ttlSeconds (some ttl) e.defaultActivationTtl)) :
    (rule.condition.signature.isSome ∨ rule.condition.pathShape.isSome →
      evaluate (e.activateAll s calls) ctx t =
        some ⟨rule.id, rule.action.status, rule.action.body⟩) ∧
    (untilMs ≤ t →
      evaluate (e.activateAll s calls) ctx t =
        some ⟨rule.id, rule.action.status, rule.action.body⟩ →
      rule.condition.signature.isSome ∨ rule.condition.pathShape.isSome) := by
  obtain ⟨hadaptive, hexpires⟩ := adaptive_of_sanitized hclean hrule
  obtain ⟨u, hrules, hawake, hasleep⟩ := activateAll_single (e := e) hs henabled hadaptive
    hexpires hcalls.ttl_eq hclock
  have hevaluate := evaluate_single hrules henabled hadaptive hexpires hmatch t
  have hcarried := exists_carried_iff hmatch hcalls
  constructor
  · intro hcondition
    exact hevaluate.mpr (lt_of_lt_of_le ht (hawake (hcarried.mpr hcondition)))
  · intro hdormant hblocked
    apply hcarried.mp
    by_contra hnone
    have hu : u = untilMs := hasleep hnone
    have hlt : t < u := hevaluate.mp hblocked
    omega

/-! ## A rule that never takes effect -/

/-- A request for a path. -/
def requestOf (path : String) : RequestContext where
  method := utf8 "GET"
  path := utf8 path
  query := none
  headers := []
  signature := utf8 "0123456789abcdef0123456789abcdef"

/-- The full activation for a request at one instant. -/
def activateAt (ctx : RequestContext) (ttl : Duration) (nowMs : ℕ) : List ActivationCall :=
  (activationEvidence ctx).map fun evidence => ⟨evidence, some ttl, nowMs, fun _ => nowMs⟩

theorem fullActivation_activateAt (ctx : RequestContext) (ttl : Duration) (nowMs : ℕ) :
    FullActivation ctx ttl (activateAt ctx ttl nowMs) := by
  constructor
  · rw [activateAt, List.map_map]
    exact List.map_id _
  · intro call hcall
    obtain ⟨evidence, -, rfl⟩ := List.mem_map.mp hcall
    rfl

/-- What a merge makes of `pathFilter`. -/
def pathRule (id path : String) (priority : ℤ) : CleanFilter :=
  ⟨py id, true, priority, 60, ⟨none, some (py path), none, none, none, none, none, [], []⟩⟩

/-- An engine with a single rule that was never activated. -/
def onlyRule (rule : FilterRule) : EngineState := ⟨[RuntimeRule.new rule 0], fun _ => none⟩

/-- A rule on a path shape blocks the request whose activation woke it. -/
theorem shape_rule_takes_effect :
    evaluate (oneMinute.activateAll (onlyRule (shapeRule "scan" "/:num").rule)
        (activateAt (requestOf "/42") 60000000000 1000)) (requestOf "/42") 60999 =
      some ⟨utf8 "scan", 403, utf8 "blocked by adaptive filter\n"⟩ := by
  have hclean : sanitizeFilter asciiRuntime (shapeFilter "scan" "/:num") 60 =
    .ok (shapeRule "scan" "/:num").toDict := rfl
  have hrule : FilterRule.ofJson (.dict (shapeRule "scan" "/:num").toDict : PyValue Empty) =
    some (shapeRule "scan" "/:num").rule := rfl
  have hclock : ∀ call ∈ activateAt (requestOf "/42") 60000000000 1000, ∀ i,
      1000 ≤ call.clock i := by
    intro call hcall i
    obtain ⟨evidence, -, rfl⟩ := List.mem_map.mp hcall
    exact le_rfl
  exact (learned_rule_takes_effect_iff asciiRuntime hclean hrule rfl oneMinute rfl
    (by decide +kernel) (fullActivation_activateAt _ _ _) hclock (by decide)).1 (Or.inr rfl)

/-- A rule on a path alone matches its request and sleeps through every
activation. -/
theorem path_rule_never_wakes :
    sanitizeFilter bareRuntime (pathFilter "login" "/login" 100) 60 =
        .ok (pathRule "login" "/login" 100).toDict ∧
      filterHasMatcher (F := Empty) (pathRule "login" "/login" 100).toDict = true ∧
      FilterRule.ofJson (.dict (pathRule "login" "/login" 100).toDict : PyValue Empty) =
        some (pathRule "login" "/login" 100).rule ∧
      (pathRule "login" "/login" 100).rule.enabled = true ∧
      (ruleMatches (RuntimeRule.new (pathRule "login" "/login" 100).rule 0)
        (requestOf "/login") {}).1 = true ∧
      evaluate (oneMinute.activateAll (onlyRule (pathRule "login" "/login" 100).rule)
        (activateAt (requestOf "/login") 60000000000 1000)) (requestOf "/login") 2000 = none := by
  refine ⟨rfl, rfl, rfl, rfl, by decide +kernel, by decide +kernel⟩

end AlturaProt.Analyzer
