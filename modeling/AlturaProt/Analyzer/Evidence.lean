import AlturaProt.Adaptive.Events
import AlturaProt.Analyzer.Effect

/-!
# Filters for path shapes

`deterministic_path_shape_filters` of `tools/codex_analyzer.py`: the logged
events are grouped by their path shape, and a group with enough distinct
signatures and enough evidence becomes a filter on that shape.

The shape in an event is the shape the proxy observed, cut to 512 bytes. A
filter made from a shape that was cut carries the cut text, which no shape of
the request equals any more: `path_shape_filter_matches_evidence_iff`.
-/

namespace AlturaProt.Analyzer

open Foundation Python AlturaProt.Filter Adaptive

/-! ## Learnable shapes -/

def slash : ℕ := 0x2F

/-- `needle in haystack`. -/
def containsPy (haystack needle : PyStr) : Bool := decide (needle <:+: haystack)

def isLearnableAttackShape (shape : PyStr) : Bool :=
  if containsPy shape (py ":token") || containsPy shape (py ":short-token") ||
      containsPy shape (py ":hex") then true
  else
    match (shape.splitOn slash).filter (fun part => !part.isEmpty) with
    | first :: segment :: rest =>
      3 ≤ (first :: segment :: rest).length && first == py "api" &&
        rest.getLast? == some (py ":num") &&
        !decide (segment ∈ [":num", ":token", ":hex", ":uuid"].map py)
    | _ => false

def STRONG_ATTACK_REASONS : List PyStr :=
  ["rate_limited", "global_rate_limited", "per_ip_rate_limited", "signature_rate_limited",
   "path_shape_rate_limited", "trusted_proxy_rate_limited", "filter_block",
   "body_too_large"].map py

section Evidence

variable {F : Type} (rt : Runtime F)

/-! ## Groups of events -/

/-- The shape an event is grouped under. -/
def shapeOf (event : PyDict F) : Option PyStr :=
  match event.getD "path_shape" .none with
  | .str shape => if !shape.isEmpty && isLearnableAttackShape shape then some shape else none
  | _ => none

/-- `grouped[shape].append(event)`. -/
def addToGroup (grouped : List (PyStr × List (PyDict F))) (shape : PyStr) (event : PyDict F) :
    List (PyStr × List (PyDict F)) :=
  if shape ∈ grouped.map Prod.fst then
    grouped.map fun group => if group.1 = shape then (shape, group.2 ++ [event]) else group
  else grouped ++ [(shape, [event])]

/-- A group after an event has been added: another one as it was, or that of the key. -/
theorem mem_addToGroup {grouped : List (PyStr × List (PyDict F))} {key : PyStr}
    {event : PyDict F} {group : PyStr × List (PyDict F)} (h : group ∈ addToGroup grouped key event) :
    group ∈ grouped ∧ group.1 ≠ key ∨ ∃ old, group = (key, old ++ [event]) ∧
      ((key, old) ∈ grouped ∨ key ∉ grouped.map Prod.fst ∧ old = []) := by
  unfold addToGroup at h
  split at h
  · obtain ⟨⟨key', old⟩, hold, rfl⟩ := List.mem_map.mp h
    by_cases hsame : key' = key
    · subst hsame
      exact .inr ⟨old, if_pos rfl, .inl hold⟩
    · rw [if_neg hsame]
      exact .inl ⟨hold, hsame⟩
  · rename_i hnew
    rcases List.mem_append.mp h with h | h
    · exact .inl ⟨h, fun hkey => hnew (hkey ▸ List.mem_map_of_mem h)⟩
    · exact .inr ⟨[], List.mem_singleton.mp h, .inr ⟨hnew, rfl⟩⟩

/-- Replacing what is under a key keeps the keys. -/
theorem keys_replace {V : Type} (d : List (PyStr × V)) (key : PyStr) (v : PyStr × V → V) :
    (d.map fun item => if item.1 = key then (key, v item) else item).map Prod.fst =
      d.map Prod.fst := by
  rw [List.map_map]
  refine List.map_congr_left fun item _ => ?_
  by_cases h : item.1 = key
  · simp [h]
  · simp [h]

def groupByShape (events : List (PyDict F)) : List (PyStr × List (PyDict F)) :=
  events.foldl (fun grouped event =>
    match shapeOf event with
    | some shape => addToGroup grouped shape event
    | none => grouped) []

/-- `reason in STRONG_ATTACK_REASONS`; a list or a dictionary cannot be looked up
in a set. -/
def isStrongReason (event : PyDict F) : Except PyError Bool :=
  match event.getD "reason" .none with
  | .str reason => .ok (decide (reason ∈ STRONG_ATTACK_REASONS))
  | .list _ => .error .typeError
  | .dict _ => .error .typeError
  | _ => .ok false

def isGlobalObserved (event : PyDict F) : Bool :=
  match event.getD "reason" .none with
  | .str reason => reason == py "global_observed"
  | _ => false

/-- The distinct signatures of a group. -/
def signaturesOf (group : List (PyDict F)) : List PyStr :=
  (group.filterMap fun event =>
    match event.getD "signature" .none with
    | .str signature => some signature
    | _ => none).dedup

def countStrong : List (PyDict F) → Except PyError ℕ
  | [] => .ok 0
  | event :: rest => do
      let strong ← isStrongReason event
      let count ← countStrong rest
      return if strong then count + 1 else count

/-- The reason of an event is one of the strong ones. -/
def hasStrongReason (event : PyDict F) : Bool :=
  match event.getD "reason" .none with
  | .str reason => decide (reason ∈ STRONG_ATTACK_REASONS)
  | _ => false

theorem isStrongReason_ok {event : PyDict F} {strong : Bool}
    (h : isStrongReason event = .ok strong) : strong = hasStrongReason event := by
  unfold isStrongReason at h
  unfold hasStrongReason
  split at h
  · rename_i hreason
    rw [hreason]
    exact (Except.ok.inj h).symm
  · cases h
  · cases h
  · rename_i hstr _ _
    split
    · rename_i hreason
      exact absurd hreason (hstr _)
    · exact (Except.ok.inj h).symm

theorem countStrong_ok {group : List (PyDict F)} {count : ℕ} (h : countStrong group = .ok count) :
    count = group.countP hasStrongReason := by
  induction group generalizing count with
  | nil => exact (Except.ok.inj h).symm
  | cons event rest ih =>
    obtain ⟨strong, hstrong, htail⟩ := bind_eq_ok_iff.mp h
    obtain ⟨others, hothers, hcount⟩ := bind_eq_ok_iff.mp htail
    obtain rfl := Except.ok.inj hcount
    rw [List.countP_cons, ← ih hothers, ← isStrongReason_ok hstrong]
    split <;> rfl

/-- A value that can be looked up in a set. -/
def isHashable : PyValue F → Bool
  | .list _ => false
  | .dict _ => false
  | _ => true

theorem isStrongReason_returns_iff {event : PyDict F} :
    (∃ strong, isStrongReason event = .ok strong) ↔
      isHashable (event.getD "reason" .none) = true := by
  unfold isStrongReason
  cases event.getD "reason" .none <;> simp [isHashable]

theorem countStrong_returns_iff {group : List (PyDict F)} :
    (∃ count, countStrong group = .ok count) ↔
      ∀ event ∈ group, isHashable (event.getD "reason" .none) = true := by
  induction group with
  | nil => exact ⟨by simp, fun _ => ⟨0, rfl⟩⟩
  | cons event rest ih =>
    rw [List.forall_mem_cons, ← ih, ← isStrongReason_returns_iff]
    constructor
    · rintro ⟨count, h⟩
      obtain ⟨strong, hstrong, htail⟩ := bind_eq_ok_iff.mp h
      obtain ⟨others, hothers, -⟩ := bind_eq_ok_iff.mp htail
      exact ⟨⟨strong, hstrong⟩, ⟨others, hothers⟩⟩
    · rintro ⟨⟨strong, hstrong⟩, ⟨others, hothers⟩⟩
      refine ⟨if strong then others + 1 else others, ?_⟩
      rw [countStrong, hstrong, hothers]
      rfl

/-! ## The filter of a group -/

/-- The filter for a path shape, with what `metadata` records of its group. -/
def pathShapeFilter (shape : PyStr) (ttl : ℤ) (metadata : PyDict F) : PyDict F :=
  [(py "id", .str (safeId (py "codex-learned-shape-" ++ shape))),
   (py "enabled", .bool true),
   (py "adaptive", .bool true),
   (py "priority", .int 90),
   (py "ttl_seconds", .int ttl),
   (py "condition", .dict [(py "path_shape", .str shape)]),
   (py "action", .dict [(py "kind", .str (py "block")), (py "status", .int 403),
     (py "body", .str (py "blocked by adaptive filter\n"))]),
   (py "metadata", .dict metadata)]

def groupMetadata (group : List (PyDict F)) (strongCount globalCount : ℕ) : PyDict F :=
  let sample := group.getLast?.getD []
  [(py "source", .str (py "deterministic-path-shape")),
   (py "sample_path", sample.getD "path" .none),
   (py "sample_user_agent", sample.getD "user_agent" .none),
   (py "event_count", .int group.length),
   (py "unique_signatures", .int (signaturesOf group).length),
   (py "strong_event_count", .int strongCount),
   (py "global_observed_count", .int globalCount)]

/-- What the loop does with one group: nothing, or a filter. -/
def filterOfGroup (minCount ttl : ℤ) (learnObserved : Bool)
    (group : PyStr × List (PyDict F)) : Except PyError (Option (PyDict F)) :=
  if ((signaturesOf group.2).length : ℤ) < minCount then .ok none
  else do
    let strongCount ← countStrong group.2
    let globalCount := group.2.countP isGlobalObserved
    if (strongCount : ℤ) < minCount ∧ (globalCount : ℤ) < minCount ∧
        ¬ (learnObserved = true ∧ minCount ≤ (group.2.length : ℤ)) then
      return none
    return some (pathShapeFilter group.1 ttl (groupMetadata group.2 strongCount globalCount))

def filtersOfGroups (minCount ttl : ℤ) (learnObserved : Bool) :
    List (PyStr × List (PyDict F)) → Except PyError (List (PyDict F))
  | [] => .ok []
  | group :: rest => do
      let filter ← filterOfGroup minCount ttl learnObserved group
      let filters ← filtersOfGroups minCount ttl learnObserved rest
      return filter.toList ++ filters

/-- The largest group first; groups of one size in order of their first event. -/
def deterministicPathShapeFilters (events : List (PyDict F)) (minCount ttlSeconds : ℤ)
    (learnObserved : Bool) : Except PyError (List (PyDict F)) := do
  let ttl ← boundedTtlSeconds rt (.int ttlSeconds) 60
  filtersOfGroups minCount ttl learnObserved
    ((groupByShape events).insertionSort fun a b => b.2.length ≤ a.2.length)

/-! ## What the filters are -/

/-- A group of a shape with enough signatures and enough evidence. -/
def ShapeLearned (minCount : ℤ) (learnObserved : Bool) (group : List (PyDict F)) : Prop :=
  minCount ≤ ((signaturesOf group).length : ℤ) ∧
    (minCount ≤ (group.countP hasStrongReason : ℤ) ∨
      minCount ≤ (group.countP isGlobalObserved : ℤ) ∨
      learnObserved = true ∧ minCount ≤ (group.length : ℤ))

variable {minCount ttl : ℤ} {learnObserved : Bool} {group : PyStr × List (PyDict F)}
  {groups : List (PyStr × List (PyDict F))}

theorem filterOfGroup_ok {o : Option (PyDict F)}
    (h : filterOfGroup minCount ttl learnObserved group = .ok o) :
    (∀ f ∈ o, ∃ metadata, f = pathShapeFilter group.1 ttl metadata) ∧
      (o.isSome = true ↔ ShapeLearned minCount learnObserved group.2) := by
  unfold filterOfGroup at h
  split at h
  · rename_i hfew
    obtain rfl := Except.ok.inj h
    refine ⟨by simp, iff_of_false nofun fun hlearned => ?_⟩
    exact absurd hlearned.1 (not_le.mpr hfew)
  · rename_i hmany
    obtain ⟨count, hcount, ho⟩ := bind_eq_ok_iff.mp h
    obtain rfl := countStrong_ok hcount
    dsimp only at ho
    split at ho
    · rename_i hweak
      obtain rfl := Except.ok.inj ho
      refine ⟨by simp, iff_of_false nofun fun hlearned => ?_⟩
      rcases hlearned.2 with hstrong | hglobal | hobserved
      · exact absurd hweak.1 (not_lt.mpr hstrong)
      · exact absurd hweak.2.1 (not_lt.mpr hglobal)
      · exact hweak.2.2 hobserved
    · rename_i hweak
      obtain rfl := Except.ok.inj ho
      refine ⟨by simp, iff_of_true rfl ⟨not_lt.mp hmany, ?_⟩⟩
      by_contra hnone
      rw [not_or, not_or, not_le, not_le] at hnone
      exact hweak hnone

/-- A group without an unhashable reason raises nothing. -/
theorem filterOfGroup_returns
    (h : ∀ event ∈ group.2, isHashable (event.getD "reason" .none) = true) :
    ∃ o, filterOfGroup minCount ttl learnObserved group = .ok o := by
  obtain ⟨count, hcount⟩ := countStrong_returns_iff.mpr h
  unfold filterOfGroup
  split
  · exact ⟨none, rfl⟩
  · rw [hcount]
    simp only [bind, Except.bind]
    split
    · exact ⟨none, rfl⟩
    · exact ⟨_, rfl⟩

/-- The loop over the groups keeps the filters there are. -/
theorem filtersOfGroups_eq : filtersOfGroups minCount ttl learnObserved groups =
    (groups.mapM (filterOfGroup minCount ttl learnObserved)).map (List.filterMap id) := by
  induction groups with
  | nil => rfl
  | cons group rest ih =>
    rw [filtersOfGroups, List.mapM_cons, ih]
    cases filterOfGroup minCount ttl learnObserved group with
    | error e => rfl
    | ok o =>
      cases rest.mapM (filterOfGroup minCount ttl learnObserved) with
      | error e => rfl
      | ok others => cases o <;> rfl

/-- The filters are those of the groups that are learned from. -/
theorem mem_filtersOfGroups {filters : List (PyDict F)}
    (h : filtersOfGroups minCount ttl learnObserved groups = .ok filters) :
    (∀ f ∈ filters, ∃ group ∈ groups, ShapeLearned minCount learnObserved group.2 ∧
      ∃ metadata, f = pathShapeFilter group.1 ttl metadata) ∧
    ∀ group ∈ groups, ShapeLearned minCount learnObserved group.2 →
      ∃ f ∈ filters, ∃ metadata, f = pathShapeFilter group.1 ttl metadata := by
  rw [filtersOfGroups_eq] at h
  obtain ⟨found, hfound, rfl⟩ := map_eq_ok_iff.mp h
  exact mem_of_mapM_option (fun _ _ => filterOfGroup_ok) hfound

theorem filtersOfGroups_returns
    (h : ∀ group ∈ groups, ∀ event ∈ group.2, isHashable (event.getD "reason" .none) = true) :
    ∃ filters, filtersOfGroups minCount ttl learnObserved groups = .ok filters := by
  obtain ⟨found, hfound⟩ : ∃ found, groups.mapM (filterOfGroup minCount ttl learnObserved) =
      .ok found := mapM_returns_iff.mpr fun group hgroup => filterOfGroup_returns (h group hgroup)
  rw [filtersOfGroups_eq]
  exact ⟨_, map_eq_ok_iff.mpr ⟨found, hfound, rfl⟩⟩

theorem conditionOf_pathShapeFilter (shape : PyStr) (ttl : ℤ) (metadata : PyDict F) :
    (conditionOf (pathShapeFilter shape ttl metadata)).getD "path_shape" .none = .str shape := rfl

/-- The sanitized form of a filter for a path shape. -/
def cleanShapeFilter (shape : PyStr) (ttl : ℤ) : CleanFilter :=
  ⟨safeId (py "codex-learned-shape-" ++ shape), true, 90, ttl,
    ⟨none, none, none, none, some shape, none, none, [], []⟩⟩

theorem cleanShapeFilter_ok {shape : PyStr} {ttl : ℤ}
    (hshape : BoundedText FILTER_MATCH_VALUE_MAX_BYTES shape)
    (httl : 1 ≤ ttl ∧ ttl ≤ FILTER_TTL_MAX_SECONDS) : (cleanShapeFilter shape ttl).Ok := by
  refine ⟨safeId_safe _, httl, ⟨?_, ?_, ?_, ?_, ?_, ?_, ?_⟩⟩
  · simpa [cleanShapeFilter] using hshape
  all_goals simp [cleanShapeFilter]

theorem sanitize_pathShapeFilter {shape : PyStr} {ttl : ℤ}
    (hshape : BoundedText FILTER_MATCH_VALUE_MAX_BYTES shape)
    (httl : 1 ≤ ttl ∧ ttl ≤ FILTER_TTL_MAX_SECONDS) (metadata : PyDict F) (ttlSeconds : ℤ) :
    sanitize rt (pathShapeFilter shape ttl metadata) ttlSeconds =
      .ok (cleanShapeFilter shape ttl) := by
  -- sanitizing looks at nothing that the two dictionaries do not share
  have hsame : sanitize rt (pathShapeFilter shape ttl metadata) ttlSeconds =
      sanitize rt (cleanShapeFilter shape ttl).toDict ttlSeconds := rfl
  rw [hsame]
  exact sanitize_toDict rt (by simp [cleanShapeFilter]) (cleanShapeFilter_ok hshape httl)
    (safeId_safeId _) ttlSeconds

/-- **When a path-shape filter matches its own evidence.** The proxy observes a
shape of a request and logs an event; the analyzer reads the event, emits a
filter for its path shape and sanitizes it; the proxy reads the rule. Its
matcher accepts the request if the shape was logged uncut, and only then. -/
theorem path_shape_filter_matches_evidence_iff (d : AdaptiveDetector) {hash : Str → ℕ}
    {s : AdaptiveDetector.State} {ctx : RequestContext} {reason : String} {pathShape : Str}
    (hshape : ObservedShape ctx.path pathShape) {now now' : Limiter.Instant} {logged : AttackEvent}
    (hlogged : logged ∈ (d.observeWithPathShape hash s ctx reason pathShape now now').2.logged)
    {event : PyDict F} (hread : readStr (event.getD "path_shape" .none) = some logged.pathShape)
    {events filters : List (PyDict F)} {minCount ttlSeconds : ℤ} {learnObserved : Bool}
    (hfilters : deterministicPathShapeFilters rt events minCount ttlSeconds learnObserved =
      .ok filters) {f : PyDict F} (hf : f ∈ filters)
    (hfor : (conditionOf f).getD "path_shape" .none = event.getD "path_shape" .none) :
    ∃ clean rule expected, sanitizeFilter rt f ttlSeconds = .ok clean ∧
      FilterRule.ofJson (.dict clean) = some rule ∧ rule.condition.pathShape = some expected ∧
      ((FilterEvalScratch.matchesPathShape {} ctx.path expected).1 = true ↔
        pathShape.length ≤ MAX_EVENT_PATH_SHAPE_BYTES) := by
  obtain ⟨ttl, httl, hgroups⟩ := bind_eq_ok_iff.mp hfilters
  obtain ⟨⟨shape, group⟩, -, -, metadata, rfl⟩ := (mem_filtersOfGroups hgroups).1 f hf
  -- the filter's shape is the text that was logged
  have hevent : event.getD "path_shape" .none = .str shape := hfor.symm
  rw [hevent, d.logged_path_shape hlogged] at hread
  have hmarker : TRUNCATED_MARKER.length < MAX_EVENT_PATH_SHAPE_BYTES := by decide
  have hbounded : BoundedText FILTER_MATCH_VALUE_MAX_BYTES shape :=
    ⟨_, hread, List.length_pos_iff.mpr (boundedEventString_ne_nil hshape.ne_nil hmarker),
      length_boundedEventString_le pathShape hmarker⟩
  have hok := cleanShapeFilter_ok hbounded (boundedTtlSeconds_spec rt httl)
  refine ⟨(cleanShapeFilter shape ttl).toDict, (cleanShapeFilter shape ttl).rule, text shape,
    ?_, ?_, rfl, ?_⟩
  · rw [sanitizeFilter, sanitize_pathShapeFilter rt hbounded (boundedTtlSeconds_spec rt httl)]
    rfl
  · rw [ofJson_clean hok]
    rfl
  · rw [FilterEvalScratch.matchesPathShape_iff ⟨rfl, rfl⟩, text_eq hread, eq_comm]
    constructor
    · intro hmatch
      by_contra hlong
      exact bounded_ne_shape hshape hmatch (not_le.mp hlong) hmarker rfl
    · intro hle
      rw [boundedEventString_of_le hle]
      exact hshape

end Evidence

/-! ## A shape that is cut -/

/-- A detector for which every request is over the threshold. -/
def everyRequest : AdaptiveDetector := ⟨true, 1, 0, 1, 1⟩

/-- A logged event as the analyzer reads it. -/
def readEvent (shape : PyStr) : PyDict Empty :=
  [(py "path_shape", .str shape), (py "signature", .str (py "0123456789abcdef0123456789abcdef")),
   (py "reason", .str (py "path_shape_rate_limited"))]

theorem readStr_readEvent (shape : PyStr) :
    readStr ((readEvent shape).getD "path_shape" .none) = encode shape := rfl

/-- One strong event is enough at a minimum of one. -/
theorem filters_readEvent {shape : PyStr} (hne : shape ≠ [])
    (hlearnable : isLearnableAttackShape shape = true) :
    deterministicPathShapeFilters asciiRuntime [readEvent shape] 1 60 false =
      .ok [pathShapeFilter shape 60 (groupMetadata [readEvent shape] 1 0)] := by
  have hshape : shapeOf (readEvent shape) = some shape := by
    have hfield : (readEvent shape).getD "path_shape" .none = .str shape := rfl
    simp [shapeOf, hfield, hne, hlearnable]
  have hgroups : groupByShape [readEvent shape] = [(shape, [readEvent shape])] := by
    simp [groupByShape, hshape, addToGroup]
  rw [deterministicPathShapeFilters, hgroups]
  rfl

/-- A short shape is logged as it is, and its filter matches. -/
theorem short_shape_filter_matches_evidence :
    ∃ clean rule expected,
      sanitizeFilter asciiRuntime (pathShapeFilter (py "/:short-token") 60
        (groupMetadata [readEvent (py "/:short-token")] 1 0)) 60 = .ok clean ∧
      FilterRule.ofJson (.dict clean) = some rule ∧ rule.condition.pathShape = some expected ∧
      (FilterEvalScratch.matchesPathShape {} (utf8 "/x7") expected).1 = true := by
  have hlogged : logEvent (requestOf "/x7") "path_shape_rate_limited" 1
      (requestPathShape (utf8 "/x7")) ∈ (everyRequest.observeWithPathShape (fun _ => 0) .new
        (requestOf "/x7") "path_shape_rate_limited" (requestPathShape (utf8 "/x7"))
        0 0).2.logged := by
    decide +kernel
  have hread : readStr ((readEvent (py "/:short-token")).getD "path_shape" .none) =
      some (logEvent (requestOf "/x7") "path_shape_rate_limited" 1
        (requestPathShape (utf8 "/x7"))).pathShape := by decide +kernel
  obtain ⟨clean, rule, expected, hclean, hrule, hexpected, hmatch⟩ :=
    path_shape_filter_matches_evidence_iff asciiRuntime everyRequest (Or.inl rfl) hlogged hread
      (filters_readEvent (by decide) (by decide +kernel)) (List.mem_singleton_self _)
      (conditionOf_pathShapeFilter _ _ _)
  exact ⟨clean, rule, expected, hclean, hrule, hexpected, hmatch.mpr (by decide +kernel)⟩

/-- A request whose path shape has more than 512 bytes. -/
def longRequest : RequestContext :=
  { requestOf "/" with path := utf8 "/x7/" ++ List.replicate 600 0x2D }

def longEvent : AttackEvent :=
  logEvent longRequest "path_shape_rate_limited" 1 (requestPathShape longRequest.path)

/-- What is logged of that shape. -/
def cutShape : PyStr :=
  py "/:short-token/" ++ List.replicate 484 0x2D ++ py "...[truncated]"

/-- A filter is emitted for a shape that was cut, and does not match the request
it was learned from. -/
theorem cut_shape_filter_misses_evidence :
    ∃ logged, logged ∈ (everyRequest.observeWithPathShape (fun _ => 0) .new longRequest
        "path_shape_rate_limited" (requestPathShape longRequest.path) 0 0).2.logged ∧
      readStr ((readEvent cutShape).getD "path_shape" .none) = some logged.pathShape ∧
      ∃ filters f, deterministicPathShapeFilters asciiRuntime [readEvent cutShape] 1 60 false =
          .ok filters ∧ f ∈ filters ∧
        (conditionOf f).getD "path_shape" .none = .str cutShape ∧
        ∃ clean rule expected, sanitizeFilter asciiRuntime f 60 = .ok clean ∧
          FilterRule.ofJson (.dict clean) = some rule ∧
          rule.condition.pathShape = some expected ∧
          (FilterEvalScratch.matchesPathShape {} longRequest.path expected).1 = false := by
  have hlogged : (everyRequest.observeWithPathShape (fun _ => 0) .new longRequest
      "path_shape_rate_limited" (requestPathShape longRequest.path) 0 0).2.logged =
      [longEvent] := by
    decide +kernel
  have hread : encode cutShape = some longEvent.pathShape := by decide +kernel
  have hbounded : BoundedText FILTER_MATCH_VALUE_MAX_BYTES cutShape :=
    ⟨_, hread, by decide +kernel, by decide +kernel⟩
  have hfilters := filters_readEvent (by decide : cutShape ≠ []) (by decide +kernel)
  refine ⟨longEvent, ?_, (readStr_readEvent cutShape).trans hread, _, _, hfilters,
    List.mem_singleton_self _, conditionOf_pathShapeFilter _ _ _,
    (cleanShapeFilter cutShape 60).toDict, (cleanShapeFilter cutShape 60).rule, text cutShape,
    ?_, ?_, rfl, ?_⟩
  · rw [hlogged]
    exact List.mem_singleton_self _
  · rw [sanitizeFilter, sanitize_pathShapeFilter asciiRuntime hbounded (by decide)]
    rfl
  · rw [ofJson_clean (cleanShapeFilter_ok hbounded (by decide))]
    rfl
  · rw [text_eq hread]
    decide +kernel

end AlturaProt.Analyzer
