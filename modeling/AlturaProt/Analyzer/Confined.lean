import AlturaProt.Analyzer.Loop

/-!
# What the analyzers can do to the proxy

Analyzers replace the runtime filter file, the proxy reloads it, and the detector wakes rules, in
any order; an analysis or a reload may go by a text that has been replaced since it was read. The
proxy still blocks by its static rules, or by rules of one kind only (`learned_rules_confined`).
-/

namespace AlturaProt.Analyzer

open Foundation Python AlturaProt.Filter AlturaProt.Filter.FilterEngine

/-- The proxy's engine, the interpreter of the analyzers, and the text that both read. -/
structure LearningLoop (F : Type) where
  rt : Runtime F
  json : JsonText F
  engine : FilterEngine
  platform : Platform
  /-- the cap is a `u64` -/
  cap : engine.maxRuntimeFileBytes ≤ U64_MAX
  /-- what `serde_json` reads is what `json.dump` has written -/
  parses : ∀ (filters : List (PyDict F)) (file : FilterFile),
    platform.parse (writeFilters json filters) = .ok file →
    FilterFile.ofJson (payload filters) = some file

structure LoopState where
  /-- all that the file has held, the last first -/
  written : List Str
  engine : EngineState

inductive LoopStep (F : Type) where
  /-- an analysis that has read `contents` replaces the file -/
  | analysis (args : AnalyzerArgs) (visit : Visit F) (contents : Option Str)
  /-- a reload publishes what the file held `age` texts ago -/
  | reload (age nowMs : ℕ)
  | activate (call : ActivationCall)

namespace LearningLoop

variable {F : Type} (L : LearningLoop F)

def found : Option Str → RuntimeFile
  | none => .notFound
  | some contents => .opened true contents.length contents

def step (s : LoopState) : LoopStep F → LoopState
  | .analysis args visit contents =>
    match analyzeOnce L.rt L.json args visit contents with
    | .ok filters => { s with written := writeFilters L.json filters :: s.written }
    | .error _ => s
  | .reload age nowMs =>
    { s with engine := (L.engine.reload L.platform s.engine (found s.written[age]?) nowMs).1 }
  | .activate call => { s with engine := (L.engine.activate s.engine call).1 }

def run (steps : List (LoopStep F)) : LoopState := steps.foldl L.step ⟨[], .empty⟩

/-- A valid rule that is static or of the one kind that analyzers write. -/
def Confined (rule : FilterRule) : Prop :=
  RuleOk rule ∧
    (rule ∈ L.engine.staticRules ∨ rule.adaptive = true ∧ rule.action = learnedAction)

/-- The states that are reached. -/
structure Sound (s : LoopState) : Prop where
  written : ∀ contents ∈ s.written, ∃ cs, Written (F := F) cs ∧
    contents = writeFilters L.json (cs.map CleanFilter.toDict)
  ordered : Ordered s.engine
  rules : ∀ rule ∈ s.engine.rules.map RuntimeRule.rule, L.Confined rule

variable {L} {s : LoopState}

/-- What is loaded has been parsed as a whole. -/
theorem parsed_of_load {contents : Option Str} {file : FilterFile}
    (h : L.engine.loadRuntimeFilterFile L.platform (found contents) = .ok (some file)) :
    ∃ text ∈ contents, L.platform.parse text = .ok file := by
  cases contents with
  | none => cases h
  | some text =>
    simp only [found, loadRuntimeFilterFile, bind_eq_ok_iff] at h
    obtain ⟨_, -, _, hsize, _, -, _, -, h⟩ := h
    have hlength := of_decide_eq_false (rejectIf_eq_ok.mp hsize)
    have hcap := L.cap
    rw [List.take_of_length_le (by omega)] at h
    split at h
    · cases h
    · simp only [bind_eq_ok_iff] at h
      obtain ⟨_, hparse, _, -, _, -, ⟨⟩⟩ := h
      exact ⟨text, rfl, hparse⟩

/-- What is loaded are static rules and rules of clean filters. -/
theorem Sound.confined_of_prepare (h : L.Sound s) {age : ℕ} {loaded : List FilterRule}
    (hprepare : L.engine.prepare L.platform (found s.written[age]?) = .ok loaded) :
    ∀ rule ∈ loaded, L.Confined rule := by
  obtain ⟨runtime, hload, -, hvalid, rfl⟩ := prepare_eq_ok.mp hprepare
  intro rule hrule
  have hmerged := (List.mem_insertionSort _).mp hrule
  refine ⟨hvalid rule hmerged, (List.mem_append.mp hmerged).imp_right fun hlearned => ?_⟩
  cases runtime with
  | none => cases hlearned
  | some file =>
    obtain ⟨contents, hfile, hparse⟩ := parsed_of_load hload
    obtain ⟨cs, hcs, rfl⟩ := h.written contents (List.mem_of_getElem? hfile)
    have hrules := ((ofJson_payload_clean hcs.clean).mp (L.parses _ _ hparse)).2
    have hmem : rule ∈ file.filters := hlearned
    rw [← hrules] at hmem
    obtain ⟨c, -, rfl⟩ := List.mem_map.mp hmem
    exact ⟨rfl, rfl⟩

/-- **One step.** -/
theorem Sound.step (h : L.Sound s) (step : LoopStep F) : L.Sound (L.step s step) := by
  cases step with
  | analysis args visit contents =>
    simp only [LearningLoop.step]
    split
    · rename_i filters hanalysis
      obtain ⟨cs, hcs, rfl⟩ := written_analysis hanalysis
      exact { h with written := List.forall_mem_cons.mpr ⟨⟨cs, hcs, rfl⟩, h.written⟩ }
    · exact h
  | reload age nowMs =>
    refine ⟨h.written, h.ordered.step (.reload (found s.written[age]?) nowMs), ?_⟩
    simp only [LearningLoop.step]
    rcases reload_cases (e := L.engine) (P := L.platform) s.engine (found s.written[age]?) nowMs
      with ⟨_, hrefused⟩ | ⟨loaded, hprepare, hpublished⟩
    · rw [hrefused]
      exact h.rules
    · rw [hpublished, rules_publish]
      exact h.confined_of_prepare hprepare
  | activate call =>
    refine ⟨h.written, h.ordered.activate call, ?_⟩
    have hsame : (L.engine.activate s.engine call).1.rules.map RuntimeRule.rule =
        s.engine.rules.map RuntimeRule.rule := activateRules_rules _ _ _ _ _
    simp only [LearningLoop.step, hsame]
    exact h.rules

theorem sound_run (steps : List (LoopStep F)) : L.Sound (L.run steps) := by
  refine List.foldlRecOn steps L.step ⟨by simp, ?_, by simp [EngineState.empty]⟩
    fun _ hs step _ => hs.step step
  exact ordered_run (e := L.engine) (P := L.platform) []

/-- **The provider is confined.** Whatever the logs hold and the provider answers, and however
analyses, reloads and activations take turns, what blocks a request is a valid rule that the
request matches: a static one, or one that answers `403` with a fixed text and is awake. -/
theorem learned_rules_confined (steps : List (LoopStep F)) {ctx : RequestContext} {t : ℕ}
    {d : FilterDecision} (h : evaluate (L.run steps).engine ctx t = some d) :
    ∃ r ∈ (L.run steps).engine.rules, d = decision r.rule ∧ RuleOk r.rule ∧
      conditionMatches r.rule.condition ctx = true ∧
      (r.rule ∈ L.engine.staticRules ∨ r.rule.action = learnedAction ∧ t < r.activeUntilMs) := by
  have hsound := sound_run (L := L) steps
  rw [evaluate, evaluateRules_eq hsound.ordered.compiled (FilterEvalScratch.shows_empty ctx)] at h
  obtain ⟨r, hfind, rfl⟩ := Option.map_eq_some_iff.mp h
  have hr := List.mem_of_find?_eq_some hfind
  obtain ⟨hactive, hmatches⟩ : Eligible ctx t r := by simpa using List.find?_some hfind
  obtain ⟨hvalid, hkind⟩ := hsound.rules r.rule (List.mem_map_of_mem hr)
  refine ⟨r, hr, rfl, hvalid, hmatches, hkind.imp_right fun hlearned => ⟨hlearned.2, ?_⟩⟩
  simp only [ruleIsActive, hlearned.1, Bool.and_eq_true] at hactive
  simpa using hactive.2

theorem flood_parses (filters : List (PyDict Empty)) (file : FilterFile)
    (h : floodPlatform.parse (writeFilters floodJson filters) = .ok file) :
    FilterFile.ofJson (payload filters) = some file := by
  simp only [writeFilters, floodJson, floodPlatform] at h
  split_ifs at h with hread _ hother
  · rw [← Except.ok.inj h]
    exact hread
  · exact absurd hother (by decide +kernel)

/-- Both programs at the text of the flood. -/
def floodLoop : LearningLoop Empty where
  rt := asciiRuntime
  json := floodJson
  engine := oneMinute
  platform := floodPlatform
  cap := oneMinute_capped
  parses := flood_parses

/-- The flood is learned, and told of. -/
def floodSteps : List (LoopStep Empty) :=
  [.analysis floodArgs floodVisit none, .reload 0 1000,
    .activate ⟨.signature (utf8 "0123456789abcdef"), none, 2000, fun _ => 2000⟩]

theorem learned_rules_confined_flood :
    ∃ r ∈ (floodLoop.run floodSteps).engine.rules, r.rule.action = learnedAction := by
  have hblocked : (evaluate (floodLoop.run floodSteps).engine (requestFor "0123456789abcdef")
      3000).isSome = true := by decide +kernel
  obtain ⟨d, hd⟩ := Option.isSome_iff_exists.mp hblocked
  obtain ⟨r, hr, -, -, -, hstatic | ⟨haction, -⟩⟩ := learned_rules_confined floodSteps hd
  · cases hstatic
  · exact ⟨r, hr, haction⟩

end LearningLoop

end AlturaProt.Analyzer
