import AlturaProt.Analyzer.Coverage
import AlturaProt.Analyzer.Repeat

/-!
# One analysis

`analyze_once` of `tools/codex_analyzer.py`: the events and the filter file are read, filters come
from a provider or, without one, from the deterministic generator, and what is merged with the
filters of the file replaces it. The log, the configuration of the provider and its answer are
outside (`Visit`).

A signature with enough strong events gets a filter from the generator. When the proxy has loaded
the file, a request with that signature is blocked as soon as the detector has told of it
(`flood_is_blocked`).
-/

namespace AlturaProt.Filter.FilterEngine

open Foundation

/-! ## Rules that are awake -/

variable {e : FilterEngine} {P : Platform} {s : EngineState} {rule : FilterRule}
  {call : ActivationCall} {calls : List ActivationCall} {nowMs untilMs : ℕ}

/-- The rule is in the snapshot, and awake until then at least. -/
def AwakeUntil (s : EngineState) (rule : FilterRule) (untilMs : ℕ) : Prop :=
  ∃ r ∈ s.rules, r.rule = rule ∧ untilMs ≤ r.activeUntilMs

/-- What an activation makes of one of the rules. -/
theorem exists_activated (e : FilterEngine) (call : ActivationCall) {r : RuntimeRule}
    {rules : List RuntimeRule} (hr : r ∈ rules) (i : ℕ) (deadlines : Deadlines) :
    ∃ j, { r with activeUntilMs :=
        (e.activation call j r).elim r.activeUntilMs Activation.activeUntilMs } ∈
      (e.activateRules call i rules deadlines).1 := by
  induction rules generalizing i deadlines with
  | nil => cases hr
  | cons runtime rest ih =>
    rcases List.mem_cons.mp hr with rfl | hr
    · refine ⟨i, ?_⟩
      unfold activateRules
      cases e.activation call i r with
      | none => exact List.mem_cons_self
      | some a => exact List.mem_cons_self
    · unfold activateRules
      cases e.activation call i runtime with
      | none =>
        obtain ⟨j, hj⟩ := ih hr (i + 1) deadlines
        exact ⟨j, List.mem_cons_of_mem _ hj⟩
      | some a =>
        obtain ⟨j, hj⟩ := ih hr (i + 1) (deadlines.insert a)
        exact ⟨j, List.mem_cons_of_mem _ hj⟩

/-- Until when a rule is awake that is woken at `nowMs`. -/
def wakesUntil (e : FilterEngine) (call : ActivationCall) (rule : FilterRule) (nowMs : ℕ) : ℕ :=
  activeUntilMsFromTtl nowMs
    (boundedActivationTtl rule.ttlSeconds call.ttl e.defaultActivationTtl)

theorem wakesUntil_le_of_activation {r : RuntimeRule} {j : ℕ} {a : Activation}
    (h : e.activation call j r = some a) (hclock : ∀ i, nowMs ≤ call.clock i) :
    e.wakesUntil call r.rule nowMs ≤ a.activeUntilMs := by
  unfold activation at h
  split at h
  · cases h
    exact activeUntilMsFromTtl_mono (hclock j)
  · cases h

/-- An activation does not put a rule to sleep before its time. -/
theorem AwakeUntil.activate (h : AwakeUntil s rule untilMs)
    (hclock : ∀ i, nowMs ≤ call.clock i) (huntil : untilMs ≤ e.wakesUntil call rule nowMs) :
    AwakeUntil (e.activate s call).1 rule untilMs := by
  obtain ⟨r, hr, rfl, hawake⟩ := h
  obtain ⟨j, hj⟩ := exists_activated e call hr 0 s.activationDeadlines
  refine ⟨_, hj, rfl, ?_⟩
  cases hactivation : e.activation call j r with
  | none => exact hawake
  | some a => exact huntil.trans (wakesUntil_le_of_activation hactivation hclock)

/-- A rule is woken by an activation for what it carries. -/
theorem awakeUntil_activate (hrule : rule ∈ s.rules.map RuntimeRule.rule)
    (henabled : rule.enabled = true) (hadaptive : rule.adaptive = true)
    (hexpires : rule.expiresAtUnixMs = none)
    (hcarried : call.evidence.carriedBy rule.condition = true)
    (hclock : ∀ i, nowMs ≤ call.clock i) :
    AwakeUntil (e.activate s call).1 rule (e.wakesUntil call rule nowMs) := by
  obtain ⟨r, hr, rfl⟩ := List.mem_map.mp hrule
  obtain ⟨j, hj⟩ := exists_activated e call hr 0 s.activationDeadlines
  refine ⟨_, hj, rfl, ?_⟩
  cases hactivation : e.activation call j r with
  | none =>
    unfold activation at hactivation
    simp [henabled, hadaptive, isExpired, hexpires, hcarried] at hactivation
  | some a => exact wakesUntil_le_of_activation hactivation hclock

theorem activateAll_rules (e : FilterEngine) (s : EngineState) (calls : List ActivationCall) :
    (e.activateAll s calls).rules.map RuntimeRule.rule = s.rules.map RuntimeRule.rule := by
  induction calls generalizing s with
  | nil => rfl
  | cons call rest ih =>
    exact (ih (e.activate s call).1).trans (activateRules_rules e call 0 s.rules _)

theorem Ordered.activateAll (h : Ordered s) (calls : List ActivationCall) :
    Ordered (e.activateAll s calls) := by
  induction calls generalizing s with
  | nil => exact h
  | cons call rest ih => exact ih (h.activate call)

theorem ordered_publish {file : RuntimeFile} {loaded : List FilterRule}
    (h : e.prepare P file = .ok loaded) (s : EngineState) (nowMs : ℕ) :
    Ordered (publish s loaded nowMs) := by
  refine ⟨fun r hr => ?_, ?_⟩
  · obtain ⟨_, -, rfl⟩ := List.mem_map.mp hr
    rfl
  · rw [rules_publish]
    exact sorted_of_prepare h

theorem AwakeUntil.activateAll (h : AwakeUntil s rule untilMs)
    (hclock : ∀ call ∈ calls, ∀ i, nowMs ≤ call.clock i)
    (huntil : ∀ call ∈ calls, untilMs ≤ e.wakesUntil call rule nowMs) :
    AwakeUntil (e.activateAll s calls) rule untilMs := by
  induction calls generalizing s with
  | nil => exact h
  | cons call rest ih =>
    obtain ⟨hfirst, hrest⟩ := List.forall_mem_cons.mp hclock
    obtain ⟨huntilFirst, huntilRest⟩ := List.forall_mem_cons.mp huntil
    exact ih (h.activate hfirst huntilFirst) hrest huntilRest

/-- **Woken among many.** A rule with a time to live of its own is told of once; whatever is
activated before that, and with whatever clocks after it that have reached `nowMs`, the rule is
awake for its time to live. -/
theorem awakeUntil_activateAll (before : List ActivationCall) {after : List ActivationCall}
    {ttl : ℕ}
    (hrule : rule ∈ s.rules.map RuntimeRule.rule) (henabled : rule.enabled = true)
    (hadaptive : rule.adaptive = true) (hexpires : rule.expiresAtUnixMs = none)
    (httl : ∀ told : ActivationCall, boundedActivationTtl rule.ttlSeconds told.ttl
      e.defaultActivationTtl = ttl)
    (hcarried : call.evidence.carriedBy rule.condition = true)
    (hclock : ∀ told ∈ call :: after, ∀ i, nowMs ≤ told.clock i) :
    AwakeUntil (e.activateAll s (before ++ call :: after)) rule
      (activeUntilMsFromTtl nowMs ttl) := by
  have huntil : ∀ told : ActivationCall,
      activeUntilMsFromTtl nowMs ttl = e.wakesUntil told rule nowMs := by
    intro told
    rw [wakesUntil, httl told]
  obtain ⟨hfirst, hrest⟩ := List.forall_mem_cons.mp hclock
  have hstill : rule ∈ (e.activateAll s before).rules.map RuntimeRule.rule := by
    rw [activateAll_rules]
    exact hrule
  have hwoken := awakeUntil_activate (e := e) hstill henabled hadaptive hexpires hcarried hfirst
  rw [← huntil call] at hwoken
  have hsplit : e.activateAll s (before ++ call :: after) =
      e.activateAll (e.activate (e.activateAll s before) call).1 after := by
    rw [FilterEngine.activateAll, List.foldl_append]
    rfl
  rw [hsplit]
  exact hwoken.activateAll hrest fun told _ => (huntil told).le

/-- A request that a rule matches is blocked while the rule is awake. -/
theorem isSome_evaluate {ctx : RequestContext} {t : ℕ} (hordered : Ordered s)
    (hawake : AwakeUntil s rule untilMs) (ht : t < untilMs) (henabled : rule.enabled = true)
    (hexpires : rule.expiresAtUnixMs = none)
    (hmatches : conditionMatches rule.condition ctx = true) : (evaluate s ctx t).isSome = true := by
  obtain ⟨r, hr, rfl, huntil⟩ := hawake
  have hactive : ruleIsActive r t = true := by
    have hlt : t < r.activeUntilMs := ht.trans_le huntil
    simp [ruleIsActive, henabled, isExpired, hexpires, hlt]
  rw [evaluate, evaluateRules_eq hordered.compiled (FilterEvalScratch.shows_empty ctx),
    Option.isSome_map, List.find?_isSome]
  exact ⟨r, hr, decide_eq_true ⟨hactive, hmatches⟩⟩

end AlturaProt.Filter.FilterEngine

namespace AlturaProt.Analyzer

open Foundation Python AlturaProt.Filter AlturaProt.Filter.FilterEngine

/-! ## The model -/

/-- The arguments that an analysis reads; no list is as long as the bound of `max_filters`. -/
structure AnalyzerArgs where
  ttlSeconds : ℤ
  maxFilters : ℤ
  minCount : ℤ
  noCodex : Bool
  learnObserved : Bool
  disableStrongCoverage : Bool
  minAttackEvents : ℤ
  bounded : maxFilters < 2 ^ 64

/-- JSON in files. -/
structure JsonText (F : Type) where
  /-- `json.loads(path.read_text(encoding="utf-8"))` -/
  loads : Str → Except PyError (PyValue F)
  /-- `json.dump(payload, tmp, indent=2, sort_keys=True)`, and a newline -/
  dumps : PyValue F → Str

/-- What an analysis meets outside. -/
structure Visit (F : Type) where
  /-- `read_events` -/
  events : Except PyError (List (SignedEvent F))
  /-- `load_provider_config`, `resolve_provider` and `provider_config` -/
  configured : Except PyError Unit
  /-- `run_provider` -/
  provider : Except PyError (List (PyValue F))

section Analysis

variable {F : Type} (rt : Runtime F) (json : JsonText F)

/-- The filters of the file; `none` is no file. -/
def readFilterFile : Option Str → Except PyError (List (PyDict F))
  | none => .ok []
  | some contents =>
    match json.loads contents with
    | .error _ => .ok []
    | .ok (.dict data) =>
      match PyDict.getD data "filters" (.list []) with
      | .list items => .ok (dicts items)
      -- strings come out of both
      | .str _ => .ok []
      | .dict _ => .ok []
      | _ => .error .typeError
    | .ok _ => .ok []

def countAttackEvidence (events : List (SignedEvent F)) : Except PyError ℕ :=
  countStrong (events.map SignedEvent.fields)

/-- The filters of the generator, as the provider's. -/
def generated (args : AnalyzerArgs) (ttl : ℤ) (events : List (SignedEvent F)) :
    Except PyError (List (PyValue F)) :=
  (deterministicFilters rt events args.minCount ttl args.learnObserved).map (List.map .dict)

/-- Whether the provider is asked. -/
def asksProvider (args : AnalyzerArgs) (evidence : ℕ) : Bool :=
  !args.noCodex &&
    !(decide (max 0 args.minAttackEvents ≠ 0) && decide (evidence < max 0 args.minAttackEvents))

/-- The filters of one batch of events. -/
def proposed (args : AnalyzerArgs) (ttl : ℤ) (events : List (SignedEvent F)) (visit : Visit F) :
    Except PyError (List (PyValue F)) := do
  let evidence ← countAttackEvidence events
  if asksProvider args evidence then
    match visit.provider with
    | .ok filters => return filters
    | .error _ => generated rt args ttl events
  else generated rt args ttl events

/-- The filters that are merged with those of the file. -/
def sentFilters (args : AnalyzerArgs) (ttl : ℤ) (events : List (SignedEvent F))
    (visit : Visit F) : Except PyError (List (PyDict F)) := do
  let filters ← proposed rt args ttl events visit
  if !args.noCodex && !args.disableStrongCoverage then
    mergeStrongCoverage rt filters events args.minCount ttl args.learnObserved
  else sanitizedFilterList rt filters ttl

/-- `analyze_once` up to the write. -/
def analyzeOnce (args : AnalyzerArgs) (visit : Visit F) (contents : Option Str) :
    Except PyError (List (PyDict F)) := do
  let ttl ← boundedTtlSeconds rt (.int args.ttlSeconds) 60
  let events ← visit.events
  let existing ← readFilterFile json contents
  if events.isEmpty then mergeExistingFilters rt existing [] ttl args.maxFilters
  else do
    visit.configured
    let filters ← sentFilters rt args ttl events visit
    mergeExistingFilters rt existing filters ttl args.maxFilters

/-- `write_filters`: what the file holds after it was replaced. -/
def writeFilters (filters : List (PyDict F)) : Str := json.dumps (payload filters)

/-! ## What is written -/

variable {rt json} {args : AnalyzerArgs} {visit : Visit F} {contents : Option Str}
  {out : List (PyDict F)}

/-- Whatever comes of the batch, the file is replaced by a merge. -/
theorem analyzeOnce_merges (h : analyzeOnce rt json args visit contents = .ok out) :
    ∃ existing sent ttl, mergeExistingFilters rt existing sent ttl args.maxFilters = .ok out := by
  simp only [analyzeOnce, bind_eq_ok_iff] at h
  obtain ⟨ttl, -, events, -, existing, -, hmerge⟩ := h
  split at hmerge
  · exact ⟨existing, [], ttl, hmerge⟩
  · simp only [bind_eq_ok_iff] at hmerge
    obtain ⟨_, -, sent, -, hmerge⟩ := hmerge
    exact ⟨existing, sent, ttl, hmerge⟩

variable (rt) in
theorem kept_lt (ttl : ℤ) (args : AnalyzerArgs) (items : List (PyDict F)) :
    (kept rt ttl args.maxFilters items).length + 2 < 10 ^ 95 := by
  have hlength := length_kept_le rt ttl args.maxFilters items
  have hbounded := args.bounded
  have hmax : (max 1 args.maxFilters).toNat < 2 ^ 64 := by omega
  calc (kept rt ttl args.maxFilters items).length + 2
      ≤ (max 1 args.maxFilters).toNat + 2 := Nat.add_le_add_right hlength 2
    _ < 2 ^ 64 + 2 := Nat.add_lt_add_right hmax 2
    _ < 10 ^ 95 := by norm_num

/-- **The file holds clean filters**, whatever the provider answered and whatever was in the file
before. -/
theorem written_analysis (h : analyzeOnce rt json args visit contents = .ok out) :
    ∃ cs, Written (F := F) cs ∧ out = cs.map CleanFilter.toDict := by
  obtain ⟨existing, sent, ttl, hmerge⟩ := analyzeOnce_merges h
  obtain ⟨ids, hids, rfl⟩ := mergeExistingFilters_spec rt hmerge
  exact ⟨_, written_renamed hids (kept_lt rt ttl args _), rfl⟩

/-! ## The filter for a flood -/

section Flood

variable {events : List (SignedEvent F)} {ttl : ℤ} {signature : PyStr}

variable {minCount : ℤ} {learnObserved : Bool} {filters : List (PyValue F)} {sent : List (PyDict F)}

/-- The generator gives its filters the time to live it was called with. -/
theorem ttl_of_deterministicFilters {filters : List (PyDict F)}
    (hbounds : 1 ≤ ttl ∧ ttl ≤ FILTER_TTL_MAX_SECONDS)
    (h : deterministicFilters rt events minCount ttl learnObserved = .ok filters) :
    ∀ f ∈ filters, f.lookup (py "ttl_seconds") = some (.int ttl) := by
  have hagain := boundedTtlSeconds_again rt hbounds 60
  obtain ⟨first, shapes, signatures, merged, hfirst, hshapes, hsignatures, hmerged, rfl⟩ :=
    deterministicFilters_eq_ok rt h
  obtain rfl := Except.ok.inj (hagain.symm.trans hfirst)
  have hitems : ∀ item ∈ shapes ++ signatures, item.lookup (py "ttl_seconds") =
      some (.int ttl) := by
    intro item hitem
    rcases List.mem_append.mp hitem with hshape | hsignature
    · obtain ⟨again, hbounded, hgroups⟩ := bind_eq_ok_iff.mp hshapes
      obtain rfl := Except.ok.inj (hagain.symm.trans hbounded)
      obtain ⟨group, -, -, metadata, rfl⟩ := (mem_filtersOfGroups hgroups).1 item hshape
      rfl
    · obtain ⟨again, hbounded, hall, -⟩ := deterministicSignatureFilters_ok rt hsignatures
      obtain rfl := Except.ok.inj (hagain.symm.trans hbounded)
      obtain ⟨group, -, -, metadata, rfl⟩ := hall item hsignature
      rfl
  intro f hf
  obtain ⟨entry, hentry, rfl⟩ := List.mem_map.mp hf
  rcases (foldlM_assignFilter rt hmerged).1 entry hentry with hnone | ⟨hitem, -⟩
  · cases hnone
  · exact hitems _ hitem

/-- What the generator makes for a signature: what has its key is its filter, and with enough
strong events there is one. -/
structure Generates (rt : Runtime F) (ttl : ℤ) (signature : PyStr) (filters : List (PyDict F)) :
    Prop where
  own : ∀ f ∈ filters, ∀ c, sanitize rt f ttl = .ok c → c.key = py "signature:" ++ signature →
    c = cleanSignatureFilter signature ttl
  present : ∃ f ∈ filters, sanitize rt f ttl = .ok (cleanSignatureFilter signature ttl)

theorem generates_of_deterministicFilters {filters : List (PyDict F)}
    (hbounds : 1 ≤ ttl ∧ ttl ≤ FILTER_TTL_MAX_SECONDS)
    (h : deterministicFilters rt events minCount ttl learnObserved = .ok filters)
    (hsupported : isSupportedSignature signature = true) (hmin : 1 ≤ minCount)
    (hstrong : minCount ≤ ((eventsOf signature events).countP hasStrongReason : ℤ)) :
    Generates rt ttl signature filters := by
  have httl := ttl_of_deterministicFilters hbounds h
  obtain ⟨hfallback, hpresent⟩ := deterministicFilters_ok rt h
  have hsame : ∀ ttl' metadata, signatureFilter signature ttl' metadata ∈ filters → ttl' = ttl := by
    intro ttl' metadata hmem
    have hint : (PyValue.int ttl' : PyValue F) = .int ttl := Option.some.inj (httl _ hmem)
    exact PyValue.int.inj hint
  constructor
  · intro f hf c hc hkey
    obtain ⟨⟨ttl', metadata, rfl, hbounds'⟩, -⟩ := (hfallback f hf).of_key rt hc hkey
    obtain rfl := hsame ttl' metadata hf
    rw [sanitize_signatureFilter rt hsupported hbounds] at hc
    exact (Except.ok.inj hc).symm
  · obtain ⟨ttl', metadata, hmem, -⟩ := hpresent signature hsupported hmin hstrong
    obtain rfl := hsame ttl' metadata hmem
    exact ⟨_, hmem, sanitize_signatureFilter rt hsupported hbounds metadata ttl'⟩

/-- The proposed filters have nothing else under the key of the signature; and unless strong
coverage is added to them, they have its filter. -/
structure Proposes (rt : Runtime F) (ttl : ℤ) (signature : PyStr) (covered : Bool)
    (filters : List (PyValue F)) : Prop where
  own : ∀ item, .dict item ∈ filters → ∀ c, sanitize rt item ttl = .ok c →
    c.key = py "signature:" ++ signature → c = cleanSignatureFilter signature ttl
  present : covered = false → ∃ item, .dict item ∈ filters ∧
    sanitize rt item ttl = .ok (cleanSignatureFilter signature ttl)

/-- The provider leaves the signature to strong coverage, if it is asked and answers. -/
def LeavesSignature (rt : Runtime F) (args : AnalyzerArgs) (ttl : ℤ)
    (events : List (SignedEvent F)) (visit : Visit F) (signature : PyStr) : Prop :=
  ∀ evidence filters, countAttackEvidence events = .ok evidence →
    asksProvider args evidence = true → visit.provider = .ok filters →
    args.disableStrongCoverage = false ∧ ∀ item, .dict item ∈ filters →
      ∀ c, sanitize rt item ttl = .ok c → c.key ≠ py "signature:" ++ signature

theorem Generates.proposes {filters : List (PyDict F)} (h : Generates rt ttl signature filters)
    (covered : Bool) : Proposes rt ttl signature covered (filters.map .dict) := by
  constructor
  · intro item hitem c hc hkey
    obtain ⟨f, hf, heq⟩ := List.mem_map.mp hitem
    obtain rfl := PyValue.dict.inj heq
    exact h.own f hf c hc hkey
  · intro _
    obtain ⟨f, hf, hc⟩ := h.present
    exact ⟨f, List.mem_map.mpr ⟨f, hf, rfl⟩, hc⟩

theorem proposes_of_proposed (hbounds : 1 ≤ ttl ∧ ttl ≤ FILTER_TTL_MAX_SECONDS)
    (h : proposed rt args ttl events visit = .ok filters)
    (hsupported : isSupportedSignature signature = true) (hmin : 1 ≤ args.minCount)
    (hstrong : args.minCount ≤ ((eventsOf signature events).countP hasStrongReason : ℤ))
    (hleaves : LeavesSignature rt args ttl events visit signature) :
    Proposes rt ttl signature (!args.noCodex && !args.disableStrongCoverage) filters := by
  have hgenerated : generated rt args ttl events = .ok filters →
      Proposes rt ttl signature (!args.noCodex && !args.disableStrongCoverage) filters := by
    intro hgen
    obtain ⟨fs, hfs, rfl⟩ := map_eq_ok_iff.mp hgen
    exact (generates_of_deterministicFilters hbounds hfs hsupported hmin hstrong).proposes _
  obtain ⟨evidence, hevidence, hbranch⟩ := bind_eq_ok_iff.mp h
  split at hbranch
  · rename_i hasks
    split at hbranch
    · rename_i answer hprovider
      obtain rfl := Except.ok.inj hbranch
      obtain ⟨hcoverage, hsilent⟩ := hleaves evidence answer hevidence hasks hprovider
      refine ⟨fun item hitem c hc hkey => absurd hkey (hsilent item hitem c hc), fun hoff => ?_⟩
      have hcodex : args.noCodex = false := by
        have hboth : (!args.noCodex) = true := (Bool.and_eq_true_iff.mp hasks).1
        simpa using hboth
      rw [hcodex, hcoverage] at hoff
      cases hoff
    · exact hgenerated hbranch
  · exact hgenerated hbranch

/-- Sanitizing again changes nothing. -/
theorem sanitize_again (hupper : rt.UpperAscii) {item : PyDict F} {c : CleanFilter}
    (h : sanitize rt item ttl = .ok c) (ttl' : ℤ) :
    sanitize rt (c.toDict : PyDict F) ttl' = .ok c := by
  have hok := sanitize_clean rt h
  exact sanitize_toDict rt (fun m hm => upper_method rt hupper m (hok.condition.methods m hm)) hok
    (sanitize_settled h) ttl'

/-- What is sent has the filter for the signature, and nothing else under its key. -/
structure Sends (rt : Runtime F) (ttl : ℤ) (signature : PyStr) (sent : List (PyDict F)) :
    Prop where
  own : ∀ d ∈ sent, ∀ c, sanitize rt d ttl = .ok c → c.key = py "signature:" ++ signature →
    c = cleanSignatureFilter signature ttl
  present : (cleanSignatureFilter signature ttl).toDict ∈ sent

theorem Proposes.sends (hupper : rt.UpperAscii) (h : Proposes rt ttl signature false filters)
    (hsent : sanitizedFilterList rt filters ttl = .ok sent) : Sends rt ttl signature sent := by
  constructor
  · intro d hd c hc hkey
    obtain ⟨⟨item, hitem, hclean⟩, -⟩ := (mem_sanitizedFilterList rt hsent).mp hd
    obtain ⟨c', hc', rfl⟩ := sanitizeFilter_ok rt hclean
    rw [sanitize_again hupper hc'] at hc
    obtain rfl := Except.ok.inj hc
    exact h.own item hitem c' hc' hkey
  · obtain ⟨item, hitem, hclean⟩ := h.present rfl
    refine (mem_sanitizedFilterList rt hsent).mpr ⟨⟨item, hitem, ?_⟩, hasMatcher_of_key rfl⟩
    rw [sanitizeFilter, hclean]
    rfl

/-- Strong coverage adds the filter for the signature where it is missing. -/
theorem Proposes.sends_covered {covered : Bool} (hupper : rt.UpperAscii)
    (h : Proposes rt ttl signature covered filters)
    (hgenerates : ∀ fallbacks, deterministicFilters rt events minCount ttl learnObserved =
      .ok fallbacks → Generates rt ttl signature fallbacks)
    (hsent : mergeStrongCoverage rt filters events minCount ttl learnObserved = .ok sent) :
    Sends rt ttl signature sent := by
  simp only [mergeStrongCoverage, bind_eq_ok_iff] at hsent
  obtain ⟨merged, hmerged, keys, hkeys, fallbacks, hfallbacks, ⟨final, coveredKeys⟩, hfold,
    hfinal⟩ := hsent
  have hgenerates := hgenerates fallbacks hfallbacks
  obtain rfl : final = sent := Except.ok.inj hfinal
  obtain ⟨added, hstate, hadded, hall⟩ := foldlM_cover rt hfold
  obtain ⟨rfl, rfl⟩ := Prod.mk.inj hstate
  constructor
  · intro d hd c hc hkey
    rcases List.mem_append.mp hd with hprovided | hnew
    · obtain ⟨⟨item, hitem, hclean⟩, -⟩ := (mem_sanitizedFilterList rt hmerged).mp hprovided
      obtain ⟨c', hc', rfl⟩ := sanitizeFilter_ok rt hclean
      rw [sanitize_again hupper hc'] at hc
      obtain rfl := Except.ok.inj hc
      exact h.own item hitem c' hc' hkey
    · obtain ⟨c', hc', rfl⟩ := List.mem_map.mp hnew
      obtain ⟨-, f, hf, hsanitized⟩ := hadded c' hc'
      rw [sanitize_again hupper hsanitized] at hc
      obtain rfl := Except.ok.inj hc
      exact hgenerates.own f hf c' hsanitized hkey
  · obtain ⟨f, hf, hclean⟩ := hgenerates.present
    have hcovered := hall f hf _ hclean (hasMatcher_of_key rfl) (signatureKey_ne_idOnly _ _)
    rcases List.mem_append.mp hcovered with hold | hnew
    · obtain ⟨d, hd, hdkey⟩ := (mem_of_mapM_ok hkeys).1 _ hold
      obtain ⟨⟨item, hitem, hitemClean⟩, -⟩ := (mem_sanitizedFilterList rt hmerged).mp hd
      obtain ⟨c', hc', rfl⟩ := sanitizeFilter_ok rt hitemClean
      rw [filterKey_toDict] at hdkey
      have hsame := h.own item hitem c' hc' (Except.ok.inj hdkey)
      rw [hsame] at hd
      exact List.mem_append_left _ hd
    · obtain ⟨c', hc', hkey⟩ := List.mem_map.mp hnew
      obtain ⟨-, f', hf', hsanitized⟩ := hadded c' hc'
      have hsame := hgenerates.own f' hf' c' hsanitized hkey
      rw [hsame] at hc'
      exact List.mem_append_right _ (List.mem_map_of_mem hc')

variable (rt) in
theorem mem_entered_cleanSignature (hsupported : isSupportedSignature signature = true)
    (hbounds : 1 ≤ ttl ∧ ttl ≤ FILTER_TTL_MAX_SECONDS)
    (h : (cleanSignatureFilter signature ttl).toDict ∈ sent) :
    py "signature:" ++ signature ∈ (entered rt ttl sent).map Prod.fst := by
  have hsanitize : sanitize rt ((cleanSignatureFilter signature ttl).toDict : PyDict F) ttl =
      .ok (cleanSignatureFilter signature ttl) :=
    sanitize_signatureFilter rt hsupported hbounds [] ttl
  have hmatcher : filterHasMatcher (F := F) (cleanSignatureFilter signature ttl).toDict = true :=
    hasMatcher_of_key rfl
  have hentry : entryOf rt ttl ((cleanSignatureFilter signature ttl).toDict : PyDict F) =
      some (py "signature:" ++ signature, cleanSignatureFilter signature ttl) := by
    unfold entryOf
    rw [hsanitize]
    simp only [hmatcher, if_true, filterKey_toDict]
    rfl
  refine List.mem_map.mpr ⟨(py "signature:" ++ signature,
    (cleanSignatureFilter signature ttl).toDict, cleanSignatureFilter signature ttl), ?_, rfl⟩
  refine List.mem_filterMap.mpr ⟨_, h, ?_⟩
  rw [hentry]
  rfl

/-- The last items reach back over a part that is short enough. -/
theorem mem_lastItems_append {α : Type*} {n : ℕ} (before : List α) {after : List α} {x : α}
    (hroom : after.length ≤ n) (h : x ∈ after) : x ∈ lastItems n (before ++ after) := by
  rw [lastItems, List.drop_append_of_le_length (by rw [List.length_append]; omega)]
  exact List.mem_append_right _ h

/-- Filters that are sent are kept if there is room for them. -/
theorem Sends.kept {maxFilters : ℤ} (h : Sends rt ttl signature sent) (existing : List (PyDict F))
    (hsupported : isSupportedSignature signature = true)
    (hbounds : 1 ≤ ttl ∧ ttl ≤ FILTER_TTL_MAX_SECONDS)
    (hroom : sent.length ≤ (max 1 maxFilters).toNat) :
    ∃ item, (item, cleanSignatureFilter signature ttl) ∈
      Analyzer.kept rt ttl maxFilters (existing ++ sent) := by
  have hkey := mem_entered_cleanSignature rt hsupported hbounds h.present
  obtain ⟨entry, hentry, hfst⟩ := List.mem_map.mp (mem_keys_lastPerKey.mpr hkey)
  have hmem := PyDict.lastPerKey_subset _ hentry
  have hclean := (entryOf_eq_some rt (entryOf_of_mem_entered rt hmem)).1
  have hitem : entry.2.1 ∈ sent := by
    obtain ⟨item, hsent, hq⟩ := List.mem_filterMap.mp hmem
    obtain ⟨q, -, rfl⟩ := Option.map_eq_some_iff.mp hq
    exact hsent
  have hown := h.own _ hitem _ hclean ((key_of_mem_entered hmem).trans hfst)
  refine ⟨entry.2.1, List.mem_map.mpr ⟨entry, ?_, ?_⟩⟩
  · have hfew : (PyDict.lastPerKey (entered rt ttl sent)).length ≤ (max 1 maxFilters).toNat :=
      ((PyDict.lastPerKey_sublist _).length_le.trans (List.length_filterMap_le _ _)).trans hroom
    have hsplit : entered rt ttl (existing ++ sent) =
        entered rt ttl existing ++ entered rt ttl sent := List.filterMap_append
    rw [hsplit, PyDict.lastPerKey_append]
    exact mem_lastItems_append _ hfew hentry
  · rw [← hown]

theorem exists_mem_renamed {items : List (PyDict F × CleanFilter)} {ids : List PyStr}
    (h : ids.length = items.length) {p : PyDict F × CleanFilter} (hp : p ∈ items) :
    ∃ id, p.2.rename id ∈ renamed items ids := by
  obtain ⟨i, hi, rfl⟩ := List.mem_iff_getElem.mp hp
  have hzip : i < (items.zip ids).length := by
    rw [List.length_zip]
    omega
  refine ⟨(items.zip ids)[i].2, List.mem_map.mpr ⟨(items.zip ids)[i], List.getElem_mem hzip, ?_⟩⟩
  rw [List.getElem_zip]

/-- What has to hold for a signature to be learned from a batch: it is a signature of the proxy,
it has enough strong events, and there is room for what is sent. -/
structure Learnable (rt : Runtime F) (args : AnalyzerArgs) (ttl : ℤ)
    (events : List (SignedEvent F)) (visit : Visit F) (signature : PyStr) : Prop where
  supported : isSupportedSignature signature = true
  min : 1 ≤ args.minCount
  strong : args.minCount ≤ ((eventsOf signature events).countP hasStrongReason : ℤ)
  leaves : LeavesSignature rt args ttl events visit signature
  room : ∀ sent, sentFilters rt args ttl events visit = .ok sent →
    sent.length ≤ (max 1 args.maxFilters).toNat

theorem Learnable.sends (hupper : rt.UpperAscii) (hbounds : 1 ≤ ttl ∧ ttl ≤ FILTER_TTL_MAX_SECONDS)
    (h : Learnable rt args ttl events visit signature)
    (hsent : sentFilters rt args ttl events visit = .ok sent) : Sends rt ttl signature sent := by
  obtain ⟨filters, hfilters, hbranch⟩ := bind_eq_ok_iff.mp hsent
  have hproposes := proposes_of_proposed hbounds hfilters h.supported h.min h.strong h.leaves
  split at hbranch
  · exact hproposes.sends_covered hupper (fun _ hfallbacks =>
      generates_of_deterministicFilters hbounds hfallbacks h.supported h.min h.strong) hbranch
  · rename_i hoff
    rw [Bool.not_eq_true] at hoff
    rw [hoff] at hproposes
    exact hproposes.sends hupper hbranch

theorem Learnable.events_ne (h : Learnable rt args ttl events visit signature) :
    events.isEmpty = false := by
  cases events with
  | nil =>
    have hmin := h.min
    have hnone : args.minCount ≤ 0 := h.strong
    omega
  | cons event rest => rfl

/-- **A flood is learned.** The file that the analysis writes has a filter for the signature. -/
theorem Learnable.written (hupper : rt.UpperAscii)
    (h : Learnable rt args ttl events visit signature) (hevents : visit.events = .ok events)
    (httl : boundedTtlSeconds rt (.int args.ttlSeconds) 60 = .ok ttl)
    (hanalysis : analyzeOnce rt json args visit contents = .ok out) :
    ∃ cs id, Written (F := F) cs ∧ out = cs.map CleanFilter.toDict ∧
      (cleanSignatureFilter signature ttl).rename id ∈ cs := by
  have hbounds := boundedTtlSeconds_spec rt httl
  simp only [analyzeOnce, bind_eq_ok_iff] at hanalysis
  obtain ⟨ttl', httl', events', hevents', existing, -, hmerge⟩ := hanalysis
  obtain rfl := Except.ok.inj (httl.symm.trans httl')
  obtain rfl := Except.ok.inj (hevents.symm.trans hevents')
  rw [h.events_ne, if_neg Bool.false_ne_true] at hmerge
  simp only [bind_eq_ok_iff] at hmerge
  obtain ⟨_, -, sent, hsent, hmerge⟩ := hmerge
  obtain ⟨item, hkept⟩ := (h.sends hupper hbounds hsent).kept existing h.supported
    hbounds (h.room sent hsent)
  obtain ⟨ids, hids, rfl⟩ := mergeExistingFilters_spec rt hmerge
  obtain ⟨id, hmem⟩ := exists_mem_renamed hids.length_eq hkept
  exact ⟨_, id, written_renamed hids (kept_lt rt ttl args _), rfl, hmem⟩

/-! ## The flood is blocked -/

/-- The proxy has a rule for each filter of a file that it loads. -/
theorem rule_mem_loaded {e : FilterEngine} {P : Platform} {written : Str}
    {loaded : List FilterRule} {cs : List CleanFilter} (hcs : Written (F := F) cs)
    (hholds : Holds (F := F) e P written (cs.map CleanFilter.toDict))
    (hloaded : e.prepare P (.opened true written.length written) = .ok loaded) {c : CleanFilter}
    (hc : c ∈ cs) : c.rule ∈ loaded := by
  obtain ⟨runtime, hload, -, -, rfl⟩ := prepare_eq_ok.mp hloaded
  obtain ⟨file, rfl, hparse, -⟩ := (loadRuntimeFilterFile_eq_ok hholds.readable).mp hload
  have hrules := ((ofJson_payload_clean hcs.clean).mp ((hholds.parses file).mp hparse)).2
  refine (List.perm_insertionSort _ _).mem_iff.mpr (List.mem_append_right _ ?_)
  show c.rule ∈ file.filters
  rw [← hrules]
  exact List.mem_map_of_mem hc

/-- **From the log to the block.** A batch of the log has enough strong events for a signature,
and there is room for what is learned from it. An analysis runs, its filters are loaded by the
proxy, whatever was loaded before, and the detector tells of a request with that signature, among
whatever else is activated before and after. From then on the request is blocked, for the time to
live that the analyzer was given; and the provider, unless it has an answer for the signature
itself, has no say in it. Of the two programs' JSON it is used that what the proxy parses is what
was written (`Holds`). -/
theorem flood_is_blocked (hupper : rt.UpperAscii)
    (h : Learnable rt args ttl events visit signature) (hevents : visit.events = .ok events)
    (httl : boundedTtlSeconds rt (.int args.ttlSeconds) 60 = .ok ttl)
    (hanalysis : analyzeOnce rt json args visit contents = .ok out) {e : FilterEngine}
    {P : Platform} (hholds : Holds e P (writeFilters json out) out) {loaded : List FilterRule}
    (hloaded : e.prepare P (.opened true (writeFilters json out).length (writeFilters json out)) =
      .ok loaded)
    (s : EngineState) (publishedMs : ℕ) {ctx : RequestContext}
    (hctx : ctx.signature = text signature) (before : List ActivationCall) {told : ActivationCall}
    (htold : told.evidence = .signature ctx.signature) {after : List ActivationCall}
    {nowMs t : ℕ} (hclock : ∀ call ∈ told :: after, ∀ i, nowMs ≤ call.clock i)
    (ht : t < activeUntilMsFromTtl nowMs ttl.toNat) :
    (FilterEngine.evaluate (e.activateAll (FilterEngine.publish s loaded publishedMs)
      (before ++ told :: after)) ctx t).isSome = true := by
  have hbounds := boundedTtlSeconds_spec rt httl
  obtain ⟨cs, id, hcs, rfl, hmem⟩ := h.written hupper hevents httl hanalysis
  have hrule : ((cleanSignatureFilter signature ttl).rename id).rule ∈
      (publish s loaded publishedMs).rules.map RuntimeRule.rule := by
    rw [rules_publish]
    exact rule_mem_loaded hcs hholds hloaded hmem
  have hcarried : told.evidence.carriedBy
      ((cleanSignatureFilter signature ttl).rename id).rule.condition = true := by
    rw [htold, hctx]
    exact beq_self_eq_true _
  -- the rule has a time to live, so that the one of the call is not read
  have hlive : ∀ call : ActivationCall, boundedActivationTtl
      ((cleanSignatureFilter signature ttl).rename id).rule.ttlSeconds call.ttl
        e.defaultActivationTtl = ttl.toNat := by
    intro call
    have hmax : ttl ≤ 24 * 60 * 60 := hbounds.2
    show max 1 (min ttl.toNat (24 * 60 * 60)) = ttl.toNat
    omega
  have hawake := awakeUntil_activateAll (e := e) before hrule rfl rfl rfl hlive hcarried
    hclock
  have hordered := (ordered_publish hloaded s publishedMs).activateAll (e := e)
    (before ++ told :: after)
  refine isSome_evaluate hordered hawake ht rfl rfl ?_
  simp [conditionMatches, CleanFilter.rule, CleanFilter.rename, cleanSignatureFilter,
    CleanCondition.rule, hctx]

end Flood

end Analysis

/-- One denied request, no provider and no file. -/
def floodArgs : AnalyzerArgs := ⟨60, 512, 1, true, false, false, 20, by decide⟩

def floodVisit : Visit Empty := ⟨.ok [floodEvent], .ok (), .error .other⟩

def floodRule : CleanFilter := cleanSignatureFilter floodSignature 60

/-- What is written after the flood. -/
def floodContents : Str :=
  ["\x7b\n  \"filters\": [\n    \x7b\n      \"action\": \x7b\n",
    "        \"body\": \"blocked by adaptive filter\\n\",\n",
    "        \"kind\": \"block\",\n        \"status\": 403\n      \x7d,\n",
    "      \"adaptive\": true,\n      \"condition\": \x7b\n",
    "        \"signature\": \"0123456789abcdef\"\n      \x7d,\n      \"enabled\": true,\n",
    "      \"id\": \"codex-learned-0123456789abcdef\",\n      \"priority\": 100,\n",
    "      \"ttl_seconds\": 60\n    \x7d\n  ]\n\x7d\n"].flatMap utf8

/-- The filter for the flood is written and read; other texts are not needed. -/
def floodJson : JsonText Empty where
  loads contents :=
    if contents = floodContents then .ok (payload [floodRule.toDict]) else .error .valueError
  dumps value :=
    if FilterFile.ofJson value = some ⟨[floodRule.rule]⟩ then floodContents else utf8 "null\n"

def floodPlatform : Platform where
  debug _ := ""
  decode _ := .ok ()
  blank contents := contents.all (· ∈ utf8 " \t\n\r")
  parse contents :=
    if contents = floodContents then .ok ⟨[floodRule.rule]⟩ else .error "missing field filters"

theorem oneMinute_capped : oneMinute.maxRuntimeFileBytes ≤ U64_MAX := by decide

theorem writeFilters_flood :
    writeFilters floodJson [(floodRule.toDict : PyDict Empty)] = floodContents := by
  have hread : FilterFile.ofJson (payload [(floodRule.toDict : PyDict Empty)]) =
      some ⟨[floodRule.rule]⟩ := by decide +kernel
  simp only [writeFilters, floodJson, hread, if_true]

/-- The detector tells of an observed request: its signatures are over the threshold, and no
shape is. -/
def floodCalls : List ActivationCall :=
  (Adaptive.activatedEvidence (requestFor "0123456789abcdef") ⟨1, true, true⟩ none).map
    fun evidence => ⟨evidence, some 60000000000, 2000, fun _ => 2000⟩

theorem flood_is_blocked_by_signature : ∃ out loaded,
    analyzeOnce asciiRuntime floodJson floodArgs floodVisit none = .ok out ∧
    FilterEngine.oneMinute.prepare floodPlatform
      (.opened true floodContents.length floodContents) = .ok loaded ∧
    (FilterEngine.evaluate (FilterEngine.oneMinute.activateAll
      (FilterEngine.publish .empty loaded 1000) floodCalls)
      (FilterEngine.requestFor "0123456789abcdef") 61000).isSome = true := by
  have hupper : asciiRuntime.UpperAscii := fun _ _ => rfl
  have hanalysis : analyzeOnce asciiRuntime floodJson floodArgs floodVisit none =
      .ok [floodRule.toDict] := rfl
  have hlearnable : Learnable asciiRuntime floodArgs 60 [floodEvent] floodVisit
      floodSignature := by
    refine ⟨strong_flood.1, le_refl 1, ?_, fun _ _ _ _ hprovider => ?_, fun sent hsent => ?_⟩
    · rw [strong_flood.2]
      rfl
    · cases hprovider
    · have hone : sentFilters asciiRuntime floodArgs 60 [floodEvent] floodVisit =
          .ok [floodRule.toDict] := rfl
      obtain rfl := Except.ok.inj (hone.symm.trans hsent)
      exact (by decide : 1 ≤ 512)
  have hholds : Holds oneMinute floodPlatform floodContents
      [(floodRule.toDict : PyDict Empty)] := by
    have hok : ∀ c ∈ [floodRule], c.Ok := by
      intro c hc
      rw [List.mem_singleton.mp hc]
      exact sanitize_clean asciiRuntime
        (sanitize_signatureFilter asciiRuntime strong_flood.1 (by decide) [] 60)
    refine ⟨⟨oneMinute_capped, by decide +kernel, rfl, by decide +kernel⟩, fun file => ?_⟩
    have hparse : floodPlatform.parse floodContents = .ok ⟨[floodRule.rule]⟩ := by
      simp only [floodPlatform, if_true]
    refine Iff.trans ?_ (ofJson_payload_clean hok).symm
    rw [hparse]
    constructor
    · intro hfile
      cases hfile
      exact ⟨by decide, rfl⟩
    · rintro ⟨-, hrules⟩
      obtain ⟨filters⟩ := file
      exact congrArg (fun rules => Except.ok (FilterFile.mk rules)) hrules
  obtain ⟨loaded, hloaded⟩ : ∃ loaded, oneMinute.prepare floodPlatform
      (.opened true floodContents.length floodContents) = .ok loaded := by
    have hok : (oneMinute.prepare floodPlatform
      (.opened true floodContents.length floodContents)).toOption.isSome = true := by decide +kernel
    cases hprepare : oneMinute.prepare floodPlatform
        (.opened true floodContents.length floodContents) with
    | ok loaded => exact ⟨loaded, rfl⟩
    | error err =>
      rw [hprepare] at hok
      cases hok
  have hclock : ∀ call ∈ floodCalls, ∀ i, 2000 ≤ call.clock i := by
    intro call hcall i
    obtain ⟨evidence, -, rfl⟩ := List.mem_map.mp hcall
    exact le_refl 2000
  rw [← writeFilters_flood] at hholds hloaded
  refine ⟨_, loaded, hanalysis, ?_, ?_⟩
  · rw [← writeFilters_flood]
    exact hloaded
  · exact flood_is_blocked hupper hlearnable rfl rfl hanalysis hholds hloaded .empty 1000
      (by decide +kernel) [] rfl hclock (by decide)

end AlturaProt.Analyzer
