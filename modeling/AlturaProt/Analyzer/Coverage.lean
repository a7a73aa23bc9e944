import AlturaProt.Analyzer.Evidence

/-!
# Strong coverage

`merge_strong_coverage` of `tools/codex_analyzer.py`. A provider has proposed
filters; every signature with enough strong evidence that none of them covers
gets a filter of its own. Whether a signature is covered is decided by comparing
keys, and the key of a filter says nothing about its other matchers or about
whether it is enabled: `strong_coverage_iff`.
-/

namespace AlturaProt.Analyzer

open Foundation Python AlturaProt.Filter

section Coverage

variable {F : Type} (rt : Runtime F)

/-! ## Filters for signatures -/

/-- An event as `read_events` returns it: it has a text for a signature. -/
structure SignedEvent (F : Type) where
  fields : PyDict F
  signature : PyStr
  signed : fields.getD "signature" .none = .str signature

/-- The events of a batch by signature. -/
def groupBySignature (events : List (SignedEvent F)) : List (PyStr × List (PyDict F)) :=
  events.foldl (fun grouped event => addToGroup grouped event.signature event.fields) []

def signatureFilter (signature : PyStr) (ttl : ℤ) (metadata : PyDict F) : PyDict F :=
  [(py "id", .str (safeId (py "codex-learned-" ++ signature))),
   (py "enabled", .bool true),
   (py "adaptive", .bool true),
   (py "priority", .int 100),
   (py "ttl_seconds", .int ttl),
   (py "condition", .dict [(py "signature", .str signature)]),
   (py "action", .dict [(py "kind", .str (py "block")), (py "status", .int 403),
     (py "body", .str (py "blocked by adaptive filter\n"))]),
   (py "metadata", .dict metadata)]

def signatureMetadata (group : List (PyDict F)) (strongCount : ℕ) : PyDict F :=
  let sample := group.getLast?.getD []
  [(py "source", .str (py "deterministic-fallback")),
   (py "sample_path", sample.getD "path" .none),
   (py "sample_user_agent", sample.getD "user_agent" .none),
   (py "event_count", .int group.length),
   (py "strong_event_count", .int strongCount)]

/-- What the loop does with one group. -/
def filterOfSignature (minCount ttl : ℤ) (learnObserved : Bool)
    (group : PyStr × List (PyDict F)) : Except PyError (Option (PyDict F)) := do
  let strongCount ← countStrong group.2
  if (strongCount : ℤ) < minCount ∧
      ¬(learnObserved = true ∧ minCount ≤ (group.2.length : ℤ)) then
    return none
  return some (signatureFilter group.1 ttl (signatureMetadata group.2 strongCount))

/-- The largest group first; groups of one size in order of their first event. -/
def deterministicSignatureFilters (events : List (SignedEvent F)) (minCount ttlSeconds : ℤ)
    (learnObserved : Bool) : Except PyError (List (PyDict F)) := do
  let ttl ← boundedTtlSeconds rt (.int ttlSeconds) 60
  let filters ← ((groupBySignature events).insertionSort fun a b =>
    b.2.length ≤ a.2.length).mapM (filterOfSignature minCount ttl learnObserved)
  return filters.filterMap id

/-! ## All filters of a batch -/

/-- `d[key] = v`, on the items of any dictionary. -/
def assign {V : Type} (d : List (PyStr × V)) (key : PyStr) (v : V) : List (PyStr × V) :=
  if key ∈ d.map Prod.fst then d.map fun item => if item.1 = key then (key, v) else item
  else d ++ [(key, v)]

def assignFilter (ttl : ℤ) (merged : Merged F) (item : PyDict F) : Except PyError (Merged F) := do
  let clean ← sanitizeFilter rt item ttl
  let key ← filterKey rt clean
  return if key = py "id:" then merged else assign merged key item

def deterministicFilters (events : List (SignedEvent F)) (minCount ttlSeconds : ℤ)
    (learnObserved : Bool) : Except PyError (List (PyDict F)) := do
  let ttl ← boundedTtlSeconds rt (.int ttlSeconds) 60
  let shapeFilters ← deterministicPathShapeFilters rt (events.map SignedEvent.fields) minCount ttl
    learnObserved
  let signatureFilters ← deterministicSignatureFilters rt events minCount ttl learnObserved
  let merged ← (shapeFilters ++ signatureFilters).foldlM (assignFilter rt ttl) []
  return merged.map Prod.snd

/-! ## The merge with the provider's filters -/

/-- The items that are dictionaries. -/
def dicts (items : List (PyValue F)) : List (PyDict F) :=
  items.filterMap fun
    | .dict item => some item
    | _ => none

def sanitizedFilterList (filters : List (PyValue F)) (ttlSeconds : ℤ) :
    Except PyError (List (PyDict F)) := do
  let cleaned ← (dicts filters).mapM (sanitizeFilter rt · ttlSeconds)
  return cleaned.filter filterHasMatcher

/-- One deterministic filter: it is added unless its key is covered. -/
def cover (ttlSeconds : ℤ) (state : List (PyDict F) × List PyStr) (fallback : PyDict F) :
    Except PyError (List (PyDict F) × List PyStr) := do
  let clean ← sanitizeFilter rt fallback ttlSeconds
  let key ← filterKey rt clean
  return if filterHasMatcher clean = true ∧ key ≠ py "id:" ∧ key ∉ state.2 then
    (state.1 ++ [clean], state.2 ++ [key])
  else state

def mergeStrongCoverage (providerFilters : List (PyValue F)) (events : List (SignedEvent F))
    (minCount ttlSeconds : ℤ) (learnObserved : Bool) : Except PyError (List (PyDict F)) := do
  let merged ← sanitizedFilterList rt providerFilters ttlSeconds
  let coveredKeys ← merged.mapM (filterKey rt)
  let fallbacks ← deterministicFilters rt events minCount ttlSeconds learnObserved
  let (merged, _) ← fallbacks.foldlM (cover rt ttlSeconds) (merged, coveredKeys)
  return merged

/-! ## Groups -/

/-- The events with a signature. -/
def eventsOf (signature : PyStr) (events : List (SignedEvent F)) : List (PyDict F) :=
  (events.filter fun event => event.signature == signature).map SignedEvent.fields

theorem eventsOf_snoc (signature : PyStr) (events : List (SignedEvent F)) (event : SignedEvent F) :
    eventsOf signature (events ++ [event]) =
      eventsOf signature events ++ if event.signature = signature then [event.fields] else [] := by
  unfold eventsOf
  by_cases h : event.signature = signature
  · simp [h]
  · simp [h]

variable {events : List (SignedEvent F)} {minCount ttl ttlSeconds : ℤ} {learnObserved : Bool}
  {signature : PyStr} {item d : PyDict F} {c : CleanFilter} {filters : List (PyDict F)}
  {providerFilters : List (PyValue F)}

/-- A group holds all events of its signature, and every signature has one. -/
theorem groupBySignature_spec (events : List (SignedEvent F)) :
    (∀ group ∈ groupBySignature events, group.2 = eventsOf group.1 events) ∧
      ∀ event ∈ events, event.signature ∈ (groupBySignature events).map Prod.fst := by
  induction events using List.reverseRecOn with
  | nil => simp [groupBySignature]
  | append_singleton events event ih =>
    obtain ⟨hgroups, hkeys⟩ := ih
    have hsnoc : groupBySignature (events ++ [event]) =
        addToGroup (groupBySignature events) event.signature event.fields := by
      simp [groupBySignature]
    rw [hsnoc]
    constructor
    · intro group hgroup
      rw [eventsOf_snoc]
      rcases mem_addToGroup hgroup with ⟨hold, hne⟩ | ⟨old, rfl, hold | ⟨hnew, rfl⟩⟩
      · rw [if_neg (Ne.symm hne), List.append_nil, hgroups group hold]
      · rw [if_pos rfl, ← hgroups _ hold]
      · -- no event before this one has its signature
        have hnone : eventsOf event.signature events = [] := by
          rw [eventsOf, List.map_eq_nil_iff, List.filter_eq_nil_iff]
          intro event' hevent' hsame
          exact hnew (beq_iff_eq.mp hsame ▸ hkeys event' hevent')
        rw [if_pos rfl, hnone]
    · intro event' hevent'
      unfold addToGroup
      split
      · rename_i hmem
        rw [keys_replace]
        rcases List.mem_append.mp hevent' with hevent' | hevent'
        · exact hkeys event' hevent'
        · rw [List.mem_singleton.mp hevent']
          exact hmem
      · rw [List.map_append]
        rcases List.mem_append.mp hevent' with hevent' | hevent'
        · exact List.mem_append_left _ (hkeys event' hevent')
        · rw [List.mem_singleton.mp hevent']
          exact List.mem_append_right _ (List.mem_singleton_self _)

/-! ## The deterministic filters -/

/-- A group of a signature with enough evidence. -/
def SignatureLearned (minCount : ℤ) (learnObserved : Bool) (group : List (PyDict F)) : Prop :=
  minCount ≤ (group.countP hasStrongReason : ℤ) ∨
    learnObserved = true ∧ minCount ≤ (group.length : ℤ)

theorem filterOfSignature_ok {group : PyStr × List (PyDict F)} {o : Option (PyDict F)}
    (h : filterOfSignature minCount ttl learnObserved group = .ok o) :
    (∀ f ∈ o, ∃ metadata, f = signatureFilter group.1 ttl metadata) ∧
      (o.isSome = true ↔ SignatureLearned minCount learnObserved group.2) := by
  obtain ⟨count, hcount, ho⟩ := bind_eq_ok_iff.mp h
  obtain rfl := countStrong_ok hcount
  split at ho
  · rename_i hfew
    obtain rfl := Except.ok.inj ho
    refine ⟨by simp, iff_of_false nofun ?_⟩
    rintro (hmany | hobserved)
    · exact absurd hfew.1 (not_lt.mpr hmany)
    · exact hfew.2 hobserved
  · rename_i hfew
    obtain rfl := Except.ok.inj ho
    refine ⟨by simp, iff_of_true rfl ?_⟩
    by_contra hnone
    rw [SignatureLearned, not_or, not_le] at hnone
    exact hfew hnone

theorem filterOfSignature_returns_iff {group : PyStr × List (PyDict F)} :
    (∃ o, filterOfSignature minCount ttl learnObserved group = .ok o) ↔
      ∀ event ∈ group.2, isHashable (event.getD "reason" .none) = true := by
  rw [← countStrong_returns_iff]
  constructor
  · rintro ⟨o, ho⟩
    obtain ⟨count, hcount, -⟩ := bind_eq_ok_iff.mp ho
    exact ⟨count, hcount⟩
  · rintro ⟨count, hcount⟩
    unfold filterOfSignature
    rw [hcount]
    simp only [bind, Except.bind]
    split
    · exact ⟨none, rfl⟩
    · exact ⟨_, rfl⟩

/-- A time to live that is a number is never refused. -/
theorem boundedTtlSeconds_int (ttlSeconds fallback : ℤ) :
    ∃ bounded, boundedTtlSeconds rt (.int ttlSeconds) fallback = .ok bounded := ⟨_, rfl⟩

/-- The filters are those of the groups that are learned from. -/
theorem deterministicSignatureFilters_ok
    (h : deterministicSignatureFilters rt events minCount ttl learnObserved = .ok filters) :
    ∃ bounded, boundedTtlSeconds rt (.int ttl) 60 = .ok bounded ∧
      (∀ f ∈ filters, ∃ group ∈ groupBySignature events,
        SignatureLearned minCount learnObserved group.2 ∧
          ∃ metadata, f = signatureFilter group.1 bounded metadata) ∧
      ∀ group ∈ groupBySignature events, SignatureLearned minCount learnObserved group.2 →
        ∃ f ∈ filters, ∃ metadata, f = signatureFilter group.1 bounded metadata := by
  obtain ⟨bounded, hbounded, htail⟩ := bind_eq_ok_iff.mp h
  obtain ⟨found, hfound, hfilters⟩ := bind_eq_ok_iff.mp htail
  obtain rfl := Except.ok.inj hfilters
  have hmem := mem_of_mapM_option (fun _ _ => filterOfSignature_ok) hfound
  simp only [(List.perm_insertionSort _ _).mem_iff] at hmem
  exact ⟨bounded, hbounded, hmem⟩

/-- A signature with enough strong events has a group that is learned from. -/
theorem exists_group_of_strong (hmin : 1 ≤ minCount)
    (hstrong : minCount ≤ ((eventsOf signature events).countP hasStrongReason : ℤ))
    (learnObserved : Bool) :
    ∃ group ∈ groupBySignature events, group.1 = signature ∧
      SignatureLearned minCount learnObserved group.2 := by
  have hpos : 0 < (eventsOf signature events).countP hasStrongReason := by omega
  obtain ⟨fields, hfields, -⟩ := List.countP_pos_iff.mp hpos
  obtain ⟨event, hevent, -⟩ := List.mem_map.mp hfields
  obtain ⟨hmem, hsame⟩ := List.mem_filter.mp hevent
  obtain ⟨hall, hkeys⟩ := groupBySignature_spec events
  obtain ⟨group, hgroup, hkey⟩ := List.mem_map.mp (hkeys event hmem)
  rw [beq_iff_eq.mp hsame] at hkey
  refine ⟨group, hgroup, hkey, .inl ?_⟩
  rw [hall group hgroup, hkey]
  exact hstrong

/-! ## What a filter is keyed by -/

theorem sanitizeFilter_ok (h : sanitizeFilter rt item ttlSeconds = .ok d) :
    ∃ c, sanitize rt item ttlSeconds = .ok c ∧ d = c.toDict := by
  obtain ⟨c, hc, hd⟩ := bind_eq_ok_iff.mp h
  exact ⟨c, hc, (Except.ok.inj hd).symm⟩

/-- What is done with a sanitized filter and its key. -/
theorem keyed_ok {β : Type} {use : PyDict F → PyStr → β} {out : β}
    (h : (do
      let clean ← sanitizeFilter rt item ttlSeconds
      let key ← filterKey rt clean
      return use clean key) = Except.ok out) :
    ∃ c, sanitize rt item ttlSeconds = .ok c ∧ out = use c.toDict c.key := by
  obtain ⟨d, hd, htail⟩ := bind_eq_ok_iff.mp h
  obtain ⟨c, hc, rfl⟩ := sanitizeFilter_ok rt hd
  obtain ⟨key, hkey, hout⟩ := bind_eq_ok_iff.mp htail
  rw [filterKey_toDict] at hkey
  obtain rfl := Except.ok.inj hkey
  exact ⟨c, hc, (Except.ok.inj hout).symm⟩

/-- The key of a sanitized filter raises nothing. -/
theorem keyed_returns_iff {β : Type} {use : PyDict F → PyStr → β} :
    (∃ out, (do
      let clean ← sanitizeFilter rt item ttlSeconds
      let key ← filterKey rt clean
      return use clean key) = Except.ok out) ↔ ∃ d, sanitizeFilter rt item ttlSeconds = .ok d := by
  constructor
  · rintro ⟨out, h⟩
    obtain ⟨d, hd, -⟩ := bind_eq_ok_iff.mp h
    exact ⟨d, hd⟩
  · rintro ⟨d, hd⟩
    obtain ⟨c, -, rfl⟩ := sanitizeFilter_ok rt hd
    exact ⟨_, bind_eq_ok_iff.mpr ⟨_, hd, bind_eq_ok_iff.mpr ⟨_, filterKey_toDict rt c, rfl⟩⟩⟩

/-- The key of a signature is nothing else's key. -/
theorem signature_of_key (h : c.key = py "signature:" ++ signature) :
    c.condition.signature = some signature := by
  unfold CleanFilter.key at h
  split at h
  · rename_i hsignature
    rw [hsignature, List.append_cancel_left h]
  · exact absurd (congrArg List.head? h) (by simp [py])
  · exact absurd (congrArg List.head? h) (by simp [py])

/-- A sanitized filter has the signature of the item it comes from. -/
theorem signature_of_sanitize (h : sanitize rt item ttlSeconds = .ok c)
    (hsignature : c.condition.signature = some signature) :
    (conditionOf item).lookup (py "signature") = some (.str signature) := by
  simp only [sanitize, cleanCondition, bind_eq_ok_iff] at h
  obtain ⟨_, -, condition, ⟨matcher, hmatcher, _, -, _, -, _, -, _, -, _, -, _, -, _, -, _, -,
    hcond⟩, _, -, _, -, hc⟩ := h
  obtain rfl := Except.ok.inj hc
  obtain rfl := Except.ok.inj hcond
  obtain rfl : matcher = some signature := hsignature
  unfold cleanMatcher at hmatcher
  split at hmatcher
  · rename_i value hvalue
    obtain ⟨bounded, -, hkept⟩ := bind_eq_ok_iff.mp hmatcher
    have hkept := Except.ok.inj hkept
    split at hkept
    · rw [hvalue, Option.some.inj hkept]
    · cases hkept
  · cases hmatcher

/-- The sanitized form of a filter for a signature. -/
def cleanSignatureFilter (signature : PyStr) (ttl : ℤ) : CleanFilter :=
  ⟨safeId (py "codex-learned-" ++ signature), true, 100, ttl,
    ⟨some signature, none, none, none, none, none, none, [], []⟩⟩

theorem sanitize_signatureFilter (hsupported : isSupportedSignature signature = true)
    (httl : 1 ≤ ttl ∧ ttl ≤ FILTER_TTL_MAX_SECONDS) (metadata : PyDict F) (ttlSeconds : ℤ) :
    sanitize rt (signatureFilter signature ttl metadata) ttlSeconds =
      .ok (cleanSignatureFilter signature ttl) := by
  have hok : (cleanSignatureFilter signature ttl).Ok := by
    refine ⟨safeId_safe _, httl, ⟨?_, ?_, ?_, ?_, ?_, ?_, ?_⟩⟩
    all_goals simp [cleanSignatureFilter, hsupported]
  have hsame : sanitize rt (signatureFilter signature ttl metadata) ttlSeconds =
      sanitize rt (cleanSignatureFilter signature ttl).toDict ttlSeconds := rfl
  rw [hsame]
  exact sanitize_toDict rt (by simp [cleanSignatureFilter]) hok (safeId_safeId _) ttlSeconds

theorem signatureKey_ne_idOnly (signature : PyStr) (ttl : ℤ) :
    (cleanSignatureFilter signature ttl).key ≠ py "id:" :=
  fun h => absurd (congrArg List.head? h) (by simp [cleanSignatureFilter, CleanFilter.key, py])

/-! ## Coverage -/

/-- An enabled rule whose condition has nothing but the signature. -/
structure Covers (d : PyDict F) (signature : PyStr) : Prop where
  enabled : d.lookup (py "enabled") = some (.bool true)
  condition : d.lookup (py "condition") = some (.dict [(py "signature", .str signature)])

/-- The deterministic filters are those for shapes and those for signatures. -/
inductive IsFallback : PyDict F → Prop where
  | shape (shape : PyStr) (ttl : ℤ) (metadata : PyDict F) :
      IsFallback (pathShapeFilter shape ttl metadata)
  | signature (signature : PyStr) {ttl : ℤ} (httl : 1 ≤ ttl ∧ ttl ≤ FILTER_TTL_MAX_SECONDS)
      (metadata : PyDict F) : IsFallback (signatureFilter signature ttl metadata)

/-- A deterministic filter with the key of a signature is the one for it, and covers
it. -/
theorem IsFallback.of_key {f : PyDict F} (hf : IsFallback f) (hc : sanitize rt f ttlSeconds = .ok c)
    (hkey : c.key = py "signature:" ++ signature) :
    (∃ ttl metadata, f = signatureFilter signature ttl metadata ∧
      1 ≤ ttl ∧ ttl ≤ FILTER_TTL_MAX_SECONDS) ∧ Covers (c.toDict : PyDict F) signature := by
  have hsignature := signature_of_key hkey
  have hlookup := signature_of_sanitize rt hc hsignature
  cases hf with
  | shape shape ttl metadata => cases hlookup
  | signature signature' httl metadata =>
    obtain rfl : signature' = signature := by
      have hsame : (PyValue.str signature' : PyValue F) = .str signature := Option.some.inj hlookup
      exact PyValue.str.inj hsame
    have hsupported := (sanitize_clean rt hc).condition.signature _ hsignature
    rw [sanitize_signatureFilter rt hsupported httl] at hc
    obtain rfl := Except.ok.inj hc
    exact ⟨⟨_, metadata, rfl, httl⟩, rfl, rfl⟩

/-! ### The dictionary of deterministic filters -/

theorem mem_assign {V : Type} {d : List (PyStr × V)} {key : PyStr} {v : V} {item : PyStr × V}
    (h : item ∈ assign d key v) : item = (key, v) ∨ item ∈ d := by
  unfold assign at h
  split at h
  · obtain ⟨old, hold, rfl⟩ := List.mem_map.mp h
    split
    · exact .inl rfl
    · exact .inr hold
  · rcases List.mem_append.mp h with h | h
    · exact .inr h
    · exact .inl (List.mem_singleton.mp h)

theorem keys_assign {V : Type} (d : List (PyStr × V)) (key : PyStr) (v : V) (k : PyStr) :
    k ∈ (assign d key v).map Prod.fst ↔ k ∈ d.map Prod.fst ∨ k = key := by
  unfold assign
  split
  · rename_i hmem
    rw [keys_replace]
    exact ⟨.inl, fun h => h.elim id fun h => h ▸ hmem⟩
  · simp

/-- Every entry is an item under its own key, and every key but the empty one is
entered. -/
theorem foldlM_assignFilter {items : List (PyDict F)} {merged merged' : Merged F}
    (h : items.foldlM (assignFilter rt ttl) merged = .ok merged') :
    (∀ entry ∈ merged', entry ∈ merged ∨ entry.2 ∈ items ∧
      ∃ c, sanitize rt entry.2 ttl = .ok c ∧ entry.1 = c.key) ∧
    (∀ key ∈ merged.map Prod.fst, key ∈ merged'.map Prod.fst) ∧
    ∀ item ∈ items, ∀ c, sanitize rt item ttl = .ok c → c.key ≠ py "id:" →
      c.key ∈ merged'.map Prod.fst := by
  induction items generalizing merged with
  | nil =>
    cases h
    exact ⟨fun entry h => .inl h, fun key h => h, by simp⟩
  | cons item items ih =>
    obtain ⟨next, hnext, hrest⟩ := bind_eq_ok_iff.mp h
    obtain ⟨c, hc, hassign⟩ := keyed_ok rt hnext
    obtain ⟨hentries, hkeys, hitems⟩ := ih hrest
    have hentry : ∀ entry ∈ next, entry = (c.key, item) ∨ entry ∈ merged := by
      intro entry hentry
      rw [hassign] at hentry
      split at hentry
      · exact .inr hentry
      · exact mem_assign hentry
    have hold : ∀ key ∈ merged.map Prod.fst, key ∈ next.map Prod.fst := by
      intro key hkey
      rw [hassign]
      split
      · exact hkey
      · exact (keys_assign _ _ _ _).mpr (.inl hkey)
    have hnew : c.key ≠ py "id:" → c.key ∈ next.map Prod.fst := by
      intro hne
      rw [hassign, if_neg hne]
      exact (keys_assign _ _ _ _).mpr (.inr rfl)
    refine ⟨fun entry he => ?_, fun key hkey => hkeys key (hold key hkey), ?_⟩
    · rcases hentries entry he with he | ⟨hmem, hs⟩
      · rcases hentry entry he with rfl | he
        · exact .inr ⟨List.mem_cons_self, c, hc, rfl⟩
        · exact .inl he
      · exact .inr ⟨List.mem_cons_of_mem _ hmem, hs⟩
    · intro item' hitem' c' hc' hne
      rcases List.mem_cons.mp hitem' with rfl | hitem'
      · obtain rfl := Except.ok.inj (hc.symm.trans hc')
        exact hkeys _ (hnew hne)
      · exact hitems item' hitem' c' hc' hne

theorem deterministicFilters_eq_ok
    (h : deterministicFilters rt events minCount ttlSeconds learnObserved = .ok filters) :
    ∃ ttl shapes signatures merged, boundedTtlSeconds rt (.int ttlSeconds) 60 = .ok ttl ∧
      deterministicPathShapeFilters rt (events.map SignedEvent.fields) minCount ttl
        learnObserved = .ok shapes ∧
      deterministicSignatureFilters rt events minCount ttl learnObserved = .ok signatures ∧
      (shapes ++ signatures).foldlM (assignFilter rt ttl) [] = .ok merged ∧
      filters = merged.map Prod.snd := by
  obtain ⟨ttl, httl, htail⟩ := bind_eq_ok_iff.mp h
  obtain ⟨shapes, hshapes, htail⟩ := bind_eq_ok_iff.mp htail
  obtain ⟨signatures, hsignatures, htail⟩ := bind_eq_ok_iff.mp htail
  obtain ⟨merged, hmerged, hfilters⟩ := bind_eq_ok_iff.mp htail
  exact ⟨ttl, shapes, signatures, merged, httl, hshapes, hsignatures, hmerged,
    (Except.ok.inj hfilters).symm⟩

/-- **The deterministic filters** have one for every signature with enough strong
evidence. -/
theorem deterministicFilters_ok
    (h : deterministicFilters rt events minCount ttlSeconds learnObserved = .ok filters) :
    (∀ f ∈ filters, IsFallback f) ∧
      ∀ signature, isSupportedSignature signature = true → 1 ≤ minCount →
        minCount ≤ ((eventsOf signature events).countP hasStrongReason : ℤ) →
        ∃ ttl metadata, signatureFilter signature ttl metadata ∈ filters ∧
          1 ≤ ttl ∧ ttl ≤ FILTER_TTL_MAX_SECONDS := by
  obtain ⟨ttl, shapes, signatures, merged, -, hshapes, hsignatures, hmerged, rfl⟩ :=
    deterministicFilters_eq_ok rt h
  obtain ⟨bounded, hbounded, hall, hpresent⟩ := deterministicSignatureFilters_ok rt hsignatures
  obtain ⟨hpos, hmax⟩ := boundedTtlSeconds_spec rt hbounded
  have hitems : ∀ item ∈ shapes ++ signatures, IsFallback item := by
    intro item hitem
    rcases List.mem_append.mp hitem with hitem | hitem
    · obtain ⟨shapeTtl, -, hgroups⟩ := bind_eq_ok_iff.mp hshapes
      obtain ⟨group, -, -, metadata, rfl⟩ := (mem_filtersOfGroups hgroups).1 item hitem
      exact .shape _ _ _
    · obtain ⟨group, -, -, metadata, rfl⟩ := hall item hitem
      exact .signature _ ⟨hpos, hmax⟩ _
  obtain ⟨hentries, -, hkeys⟩ := foldlM_assignFilter rt hmerged
  have hentries : ∀ entry ∈ merged, entry.2 ∈ shapes ++ signatures ∧
      ∃ c, sanitize rt entry.2 ttl = .ok c ∧ entry.1 = c.key := by
    intro entry hentry
    rcases hentries entry hentry with hentry | hentry
    · cases hentry
    · exact hentry
  constructor
  · intro f hf
    obtain ⟨entry, hentry, rfl⟩ := List.mem_map.mp hf
    exact hitems _ (hentries entry hentry).1
  · intro signature hsupported hmin hmany
    obtain ⟨group, hgroup, rfl, hlearned⟩ := exists_group_of_strong hmin hmany learnObserved
    obtain ⟨_, hmem, metadata, rfl⟩ := hpresent group hgroup hlearned
    have hc := sanitize_signatureFilter rt hsupported ⟨hpos, hmax⟩ metadata ttl
    have hkey := hkeys _ (List.mem_append_right _ hmem) _ hc
      (signatureKey_ne_idOnly group.1 bounded)
    -- what the dictionary holds under the key is the filter for the signature
    obtain ⟨entry, hentry, hentryKey⟩ := List.mem_map.mp hkey
    obtain ⟨hitem, c, hsanitized, hckey⟩ := hentries entry hentry
    obtain ⟨⟨ttl', metadata', heq, hbounds⟩, -⟩ :=
      (hitems _ hitem).of_key rt hsanitized (hckey.symm.trans hentryKey)
    exact ⟨ttl', metadata', List.mem_map.mpr ⟨entry, hentry, heq⟩, hbounds⟩

/-! ### The provider's filters -/

/-- The provider has sent a filter with this sanitized form. -/
def Sent (ttlSeconds : ℤ) (providerFilters : List (PyValue F)) (d : PyDict F) : Prop :=
  ∃ item, .dict item ∈ providerFilters ∧ sanitizeFilter rt item ttlSeconds = .ok d

theorem mem_dicts {items : List (PyValue F)} :
    item ∈ dicts items ↔ .dict item ∈ items := by
  unfold dicts
  rw [List.mem_filterMap]
  constructor
  · rintro ⟨value, hvalue, hitem⟩
    cases value with
    | dict items => exact Option.some.inj hitem ▸ hvalue
    | _ => cases hitem
  · intro h
    exact ⟨_, h, rfl⟩

theorem mem_sanitizedFilterList {merged : List (PyDict F)}
    (h : sanitizedFilterList rt providerFilters ttlSeconds = .ok merged) :
    d ∈ merged ↔ Sent rt ttlSeconds providerFilters d ∧ filterHasMatcher d = true := by
  obtain ⟨cleaned, hcleaned, hmerged⟩ := bind_eq_ok_iff.mp h
  obtain rfl := Except.ok.inj hmerged
  obtain ⟨hresults, hall⟩ := mem_of_mapM_ok hcleaned
  have hsent : d ∈ cleaned ↔ Sent rt ttlSeconds providerFilters d := by
    constructor
    · intro hd
      obtain ⟨item, hitem, hclean⟩ := hresults d hd
      exact ⟨item, mem_dicts.mp hitem, hclean⟩
    · rintro ⟨item, hitem, hclean⟩
      obtain ⟨d', hd', hclean'⟩ := hall item (mem_dicts.mpr hitem)
      exact Except.ok.inj (hclean.symm.trans hclean') ▸ hd'
  rw [List.mem_filter, hsent]

/-- The loop adds filters under keys that were not covered before it, and covers the
keys of all. -/
theorem foldlM_cover {fallbacks : List (PyDict F)} {state state' : List (PyDict F) × List PyStr}
    (h : fallbacks.foldlM (cover rt ttlSeconds) state = .ok state') :
    ∃ added : List CleanFilter,
      state' = (state.1 ++ added.map CleanFilter.toDict, state.2 ++ added.map CleanFilter.key) ∧
      (∀ c ∈ added, c.key ∉ state.2 ∧ ∃ f ∈ fallbacks, sanitize rt f ttlSeconds = .ok c) ∧
      ∀ f ∈ fallbacks, ∀ c, sanitize rt f ttlSeconds = .ok c →
        filterHasMatcher (c.toDict : PyDict F) = true → c.key ≠ py "id:" → c.key ∈ state'.2 := by
  induction fallbacks generalizing state with
  | nil =>
    cases h
    exact ⟨[], by simp, by simp, by simp⟩
  | cons fallback fallbacks ih =>
    obtain ⟨next, hnext, hrest⟩ := bind_eq_ok_iff.mp h
    obtain ⟨c, hc, hstep⟩ := keyed_ok rt hnext
    obtain ⟨added, hstate, hadded, hall⟩ := ih hrest
    have hwider : ∀ key ∈ next.2, key ∈ state'.2 := by
      intro key hkey
      rw [hstate]
      exact List.mem_append_left _ hkey
    by_cases hnew : filterHasMatcher (c.toDict : PyDict F) = true ∧ c.key ≠ py "id:" ∧
        c.key ∉ state.2
    · rw [if_pos hnew] at hstep
      rw [hstep] at hstate hadded hwider
      refine ⟨c :: added, ?_, ?_, ?_⟩
      · rw [hstate]
        simp
      · intro c' hc'
        rcases List.mem_cons.mp hc' with rfl | hc'
        · exact ⟨hnew.2.2, fallback, List.mem_cons_self, hc⟩
        · obtain ⟨hkey, f, hf, hsanitized⟩ := hadded c' hc'
          exact ⟨fun h => hkey (List.mem_append_left _ h), f, List.mem_cons_of_mem _ hf, hsanitized⟩
      · intro f hf c' hc' hmatcher hne
        rcases List.mem_cons.mp hf with rfl | hf
        · obtain rfl := Except.ok.inj (hc.symm.trans hc')
          exact hwider _ (List.mem_append_right _ (List.mem_singleton_self _))
        · exact hall f hf c' hc' hmatcher hne
    · rw [if_neg hnew] at hstep
      rw [hstep] at hstate hadded hwider
      refine ⟨added, hstate, ?_, ?_⟩
      · intro c' hc'
        obtain ⟨hkey, f, hf, hsanitized⟩ := hadded c' hc'
        exact ⟨hkey, f, List.mem_cons_of_mem _ hf, hsanitized⟩
      · intro f hf c' hc' hmatcher hne
        rcases List.mem_cons.mp hf with rfl | hf
        · obtain rfl := Except.ok.inj (hc.symm.trans hc')
          exact hwider _ (by_contra fun h => hnew ⟨hmatcher, hne, h⟩)
        · exact hall f hf c' hc' hmatcher hne

/-! ## When the merge returns -/

/-- A text without lone surrogates. -/
def Encodes (s : PyStr) : Prop := (encode s).isSome = true

theorem boundedUtf8_returns_iff {value : PyStr} {maxBytes : ℕ} :
    (∃ bounded, boundedUtf8 value maxBytes = .ok bounded) ↔ Encodes value := by
  unfold boundedUtf8 Encodes
  cases encode value <;> simp

/-- A condition with one matcher is sanitized iff its text can be encoded. -/
theorem cleanMatcher_returns_iff {condition : PyDict F} {key : String} {accept : PyStr → Bool}
    {value : PyStr} (hvalue : condition.lookup (py key) = some (.str value)) :
    (∃ o, cleanMatcher condition key accept = .ok o) ↔ Encodes value := by
  have hunfold : cleanMatcher condition key accept =
      boundedUtf8 value FILTER_MATCH_VALUE_MAX_BYTES >>= fun bounded =>
        .ok (if bounded && accept value then some value else none) := by
    unfold cleanMatcher
    rw [hvalue]
    rfl
  rw [hunfold, ← boundedUtf8_returns_iff]
  constructor
  · rintro ⟨o, ho⟩
    obtain ⟨bounded, hbounded, -⟩ := bind_eq_ok_iff.mp ho
    exact ⟨bounded, hbounded⟩
  · rintro ⟨bounded, hbounded⟩
    exact ⟨_, bind_eq_ok_iff.mpr ⟨bounded, hbounded, rfl⟩⟩

theorem idText_returns {id : PyStr} (h : item.getD "id" .none = .str id)
    (signature : Option PyStr) : ∃ text, idText rt item signature = .ok text := by
  unfold idText
  rw [h]
  dsimp only
  split
  · exact ⟨id, rfl⟩
  · exact ⟨_, rfl⟩

/-- Of a deterministic filter only the text of its matcher can be refused. -/
theorem sanitize_signatureFilter_returns_iff (signature : PyStr) (ttl : ℤ) (metadata : PyDict F)
    (ttlSeconds : ℤ) :
    (∃ d, sanitizeFilter rt (signatureFilter signature ttl metadata) ttlSeconds = .ok d) ↔
      Encodes signature := by
  have hlookup : (conditionOf (signatureFilter signature ttl metadata)).lookup (py "signature") =
      some (.str signature) := rfl
  rw [← cleanMatcher_returns_iff hlookup]
  constructor
  · rintro ⟨d, hd⟩
    obtain ⟨c, hc, -⟩ := sanitizeFilter_ok rt hd
    simp only [sanitize, cleanCondition, bind_eq_ok_iff] at hc
    obtain ⟨_, -, _, ⟨matcher, hmatcher, -⟩, -⟩ := hc
    exact ⟨matcher, hmatcher⟩
  · rintro ⟨matcher, hmatcher⟩
    obtain ⟨id, hid⟩ := idText_returns rt
      (show (signatureFilter signature ttl metadata).getD "id" .none = .str _ from rfl) matcher
    simp only [sanitizeFilter, sanitize, cleanCondition, bind_eq_ok_iff]
    exact ⟨_, _, ⟨_, rfl, _, ⟨matcher, hmatcher, _, rfl, _, rfl, _, rfl, _, rfl, _, rfl, _, rfl,
      _, rfl, _, rfl, rfl⟩, id, hid, _, rfl, rfl⟩, rfl⟩

theorem sanitize_pathShapeFilter_returns_iff (shape : PyStr) (ttl : ℤ) (metadata : PyDict F)
    (ttlSeconds : ℤ) :
    (∃ d, sanitizeFilter rt (pathShapeFilter shape ttl metadata) ttlSeconds = .ok d) ↔
      Encodes shape := by
  have hlookup : (conditionOf (pathShapeFilter shape ttl metadata)).lookup (py "path_shape") =
      some (.str shape) := rfl
  rw [← cleanMatcher_returns_iff hlookup]
  constructor
  · rintro ⟨d, hd⟩
    obtain ⟨c, hc, -⟩ := sanitizeFilter_ok rt hd
    simp only [sanitize, cleanCondition, bind_eq_ok_iff] at hc
    obtain ⟨_, -, _, ⟨_, -, _, -, _, -, _, -, matcher, hmatcher, -⟩, -⟩ := hc
    exact ⟨matcher, hmatcher⟩
  · rintro ⟨matcher, hmatcher⟩
    obtain ⟨id, hid⟩ := idText_returns rt
      (show (pathShapeFilter shape ttl metadata).getD "id" .none = .str _ from rfl) none
    simp only [sanitizeFilter, sanitize, cleanCondition, bind_eq_ok_iff]
    exact ⟨_, _, ⟨_, rfl, _, ⟨_, rfl, _, rfl, _, rfl, _, rfl, matcher, hmatcher, _, rfl, _, rfl,
      _, rfl, _, rfl, rfl⟩, id, hid, _, rfl, rfl⟩, rfl⟩

theorem assignFilter_returns_iff (ttl : ℤ) (merged : Merged F) (item : PyDict F) :
    (∃ merged', assignFilter rt ttl merged item = .ok merged') ↔
      ∃ d, sanitizeFilter rt item ttl = .ok d :=
  keyed_returns_iff rt

theorem cover_returns_iff (ttlSeconds : ℤ) (state : List (PyDict F) × List PyStr)
    (fallback : PyDict F) :
    (∃ state', cover rt ttlSeconds state fallback = .ok state') ↔
      ∃ d, sanitizeFilter rt fallback ttlSeconds = .ok d :=
  keyed_returns_iff rt

/-- The events of a group are events of the batch. -/
theorem mem_groupByShape {events : List (PyDict F)} {group : PyStr × List (PyDict F)}
    (hgroup : group ∈ groupByShape events) : ∀ event ∈ group.2, event ∈ events := by
  induction events using List.reverseRecOn generalizing group with
  | nil => cases hgroup
  | append_singleton events last ih =>
    have hwider : ∀ g ∈ groupByShape events, ∀ event ∈ g.2, event ∈ events ++ [last] :=
      fun g hg event hevent => List.mem_append_left _ (ih hg event hevent)
    have hlast : last ∈ events ++ [last] := List.mem_append_right _ (List.mem_singleton_self _)
    rw [groupByShape, List.foldl_append, ← groupByShape] at hgroup
    simp only [List.foldl_cons, List.foldl_nil] at hgroup
    split at hgroup
    · intro event hevent
      rcases mem_addToGroup hgroup with ⟨hold, -⟩ | ⟨old, rfl, hold⟩
      · exact hwider group hold event hevent
      · rcases List.mem_append.mp hevent with hevent | hevent
        · rcases hold with hold | ⟨-, rfl⟩
          · exact hwider _ hold event hevent
          · cases hevent
        · rw [List.mem_singleton.mp hevent]
          exact hlast
    · exact hwider group hgroup

/-- What the filters of a batch are made from: reasons that can be looked up, and texts that
can be encoded where a group becomes a filter. -/
structure ReadableBatch (events : List (SignedEvent F)) (minCount : ℤ) (learnObserved : Bool) :
    Prop where
  reasons : ∀ event ∈ events, isHashable (event.fields.getD "reason" .none) = true
  signatures : ∀ group ∈ groupBySignature events,
    SignatureLearned minCount learnObserved group.2 → Encodes group.1
  shapes : ∀ group ∈ groupByShape (events.map SignedEvent.fields),
    ShapeLearned minCount learnObserved group.2 → Encodes group.1

/-- Every event is in the group of its signature, so that every reason is looked up. -/
theorem deterministicSignatureFilters_returns_iff :
    (∃ filters, deterministicSignatureFilters rt events minCount ttl learnObserved =
      .ok filters) ↔
      ∀ event ∈ events, isHashable (event.fields.getD "reason" .none) = true := by
  obtain ⟨bounded, hbounded⟩ := boundedTtlSeconds_int rt ttl 60
  obtain ⟨hall, hkeys⟩ := groupBySignature_spec events
  have hsorted : ∀ group, group ∈ (groupBySignature events).insertionSort
      (fun a b => b.2.length ≤ a.2.length) ↔ group ∈ groupBySignature events :=
    fun group => (List.perm_insertionSort _ _).mem_iff
  constructor
  · rintro ⟨filters, h⟩ event hevent
    obtain ⟨bounded', -, htail⟩ := bind_eq_ok_iff.mp h
    obtain ⟨found, hfound, -⟩ := bind_eq_ok_iff.mp htail
    obtain ⟨group, hgroup, hkey⟩ := List.mem_map.mp (hkeys event hevent)
    have hreturns := mapM_returns_iff.mp ⟨found, hfound⟩ group ((hsorted group).mpr hgroup)
    refine filterOfSignature_returns_iff.mp hreturns event.fields ?_
    rw [hall group hgroup, hkey]
    exact List.mem_map_of_mem (List.mem_filter.mpr ⟨hevent, beq_self_eq_true _⟩)
  · intro hreasons
    have hgroups : ∀ group ∈ (groupBySignature events).insertionSort
        (fun a b => b.2.length ≤ a.2.length),
        ∃ o, filterOfSignature minCount bounded learnObserved group = .ok o := by
      intro group hgroup
      rw [filterOfSignature_returns_iff, hall group ((hsorted group).mp hgroup)]
      intro fields hfields
      obtain ⟨event, hevent, rfl⟩ := List.mem_map.mp hfields
      exact hreasons event (List.mem_filter.mp hevent).1
    obtain ⟨found, hfound⟩ := mapM_returns_iff.mpr hgroups
    exact ⟨_, bind_eq_ok_iff.mpr ⟨_, hbounded, bind_eq_ok_iff.mpr ⟨_, hfound, rfl⟩⟩⟩

theorem deterministicPathShapeFilters_returns {events : List (PyDict F)}
    (hreasons : ∀ event ∈ events, isHashable (event.getD "reason" .none) = true) :
    ∃ filters, deterministicPathShapeFilters rt events minCount ttl learnObserved =
      .ok filters := by
  obtain ⟨bounded, hbounded⟩ := boundedTtlSeconds_int rt ttl 60
  obtain ⟨filters, hfilters⟩ : ∃ filters, filtersOfGroups minCount bounded learnObserved
      ((groupByShape events).insertionSort fun a b => b.2.length ≤ a.2.length) = .ok filters := by
    apply filtersOfGroups_returns
    intro group hgroup event hevent
    rw [(List.perm_insertionSort _ _).mem_iff] at hgroup
    exact hreasons event (mem_groupByShape hgroup event hevent)
  exact ⟨filters, bind_eq_ok_iff.mpr ⟨_, hbounded, hfilters⟩⟩

/-- The shape filters of a batch are those of its groups. -/
theorem deterministicPathShapeFilters_ok {events : List (PyDict F)}
    (h : deterministicPathShapeFilters rt events minCount ttl learnObserved = .ok filters) :
    ∃ bounded,
      (∀ f ∈ filters, ∃ group ∈ groupByShape events, ShapeLearned minCount learnObserved group.2 ∧
        ∃ metadata, f = pathShapeFilter group.1 bounded metadata) ∧
      ∀ group ∈ groupByShape events, ShapeLearned minCount learnObserved group.2 →
        ∃ f ∈ filters, ∃ metadata, f = pathShapeFilter group.1 bounded metadata := by
  obtain ⟨bounded, -, hgroups⟩ := bind_eq_ok_iff.mp h
  have hmem := mem_filtersOfGroups hgroups
  simp only [(List.perm_insertionSort _ _).mem_iff] at hmem
  exact ⟨bounded, hmem⟩

/-- All deterministic filters can be sanitized iff the texts they are made of can be
encoded. -/
theorem fallbacks_sanitize_iff {shapes signatures : List (PyDict F)}
    (hshapes : deterministicPathShapeFilters rt (events.map SignedEvent.fields) minCount ttl
      learnObserved = .ok shapes)
    (hsignatures : deterministicSignatureFilters rt events minCount ttl learnObserved =
      .ok signatures) (ttlSeconds : ℤ) :
    (∀ f ∈ shapes ++ signatures, ∃ d, sanitizeFilter rt f ttlSeconds = .ok d) ↔
      (∀ group ∈ groupBySignature events,
        SignatureLearned minCount learnObserved group.2 → Encodes group.1) ∧
      ∀ group ∈ groupByShape (events.map SignedEvent.fields),
        ShapeLearned minCount learnObserved group.2 → Encodes group.1 := by
  obtain ⟨bounded, hshape, hshape'⟩ := deterministicPathShapeFilters_ok rt hshapes
  obtain ⟨bounded', -, hsignature, hsignature'⟩ := deterministicSignatureFilters_ok rt hsignatures
  constructor
  · intro hall
    constructor
    · intro group hgroup hlearned
      obtain ⟨_, hmem, metadata, rfl⟩ := hsignature' group hgroup hlearned
      exact (sanitize_signatureFilter_returns_iff rt _ _ _ _).mp
        (hall _ (List.mem_append_right _ hmem))
    · intro group hgroup hlearned
      obtain ⟨_, hmem, metadata, rfl⟩ := hshape' group hgroup hlearned
      exact (sanitize_pathShapeFilter_returns_iff rt _ _ _ _).mp
        (hall _ (List.mem_append_left _ hmem))
  · rintro ⟨hsigns, hshapes⟩ f hf
    rcases List.mem_append.mp hf with hf | hf
    · obtain ⟨group, hgroup, hlearned, metadata, rfl⟩ := hshape f hf
      exact (sanitize_pathShapeFilter_returns_iff rt _ _ _ _).mpr (hshapes group hgroup hlearned)
    · obtain ⟨group, hgroup, hlearned, metadata, rfl⟩ := hsignature f hf
      exact (sanitize_signatureFilter_returns_iff rt _ _ _ _).mpr (hsigns group hgroup hlearned)

theorem deterministicFilters_returns_iff :
    (∃ filters, deterministicFilters rt events minCount ttlSeconds learnObserved =
      .ok filters) ↔ ReadableBatch events minCount learnObserved := by
  constructor
  · rintro ⟨filters, h⟩
    obtain ⟨ttl, shapes, signatures, merged, -, hshapes, hsignatures, hmerged, -⟩ :=
      deterministicFilters_eq_ok rt h
    have hreasons := (deterministicSignatureFilters_returns_iff rt).mp ⟨signatures, hsignatures⟩
    have hsanitized := (foldlM_returns_iff (assignFilter_returns_iff rt ttl) _ _).mp
      ⟨merged, hmerged⟩
    obtain ⟨hencode, hencode'⟩ := (fallbacks_sanitize_iff rt hshapes hsignatures ttl).mp hsanitized
    exact ⟨hreasons, hencode, hencode'⟩
  · rintro ⟨hreasons, hencode, hencode'⟩
    obtain ⟨ttl, httl⟩ := boundedTtlSeconds_int rt ttlSeconds 60
    obtain ⟨shapes, hshapes⟩ : ∃ filters, deterministicPathShapeFilters rt
        (events.map SignedEvent.fields) minCount ttl learnObserved = .ok filters := by
      apply deterministicPathShapeFilters_returns
      intro fields hfields
      obtain ⟨event, hevent, rfl⟩ := List.mem_map.mp hfields
      exact hreasons event hevent
    obtain ⟨signatures, hsignatures⟩ : ∃ filters,
        deterministicSignatureFilters rt events minCount ttl learnObserved = .ok filters :=
      (deterministicSignatureFilters_returns_iff rt).mpr hreasons
    obtain ⟨merged, hmerged⟩ := (foldlM_returns_iff (assignFilter_returns_iff rt ttl)
      (shapes ++ signatures) []).mpr
        ((fallbacks_sanitize_iff rt hshapes hsignatures ttl).mpr ⟨hencode, hencode'⟩)
    exact ⟨_, bind_eq_ok_iff.mpr ⟨_, httl, bind_eq_ok_iff.mpr ⟨_, hshapes,
      bind_eq_ok_iff.mpr ⟨_, hsignatures, bind_eq_ok_iff.mpr ⟨_, hmerged, rfl⟩⟩⟩⟩⟩

/-- A deterministic filter that was sanitized once is sanitized with any time to live. -/
theorem IsFallback.returns {f : PyDict F} (hf : IsFallback f)
    (h : ∃ d, sanitizeFilter rt f ttl = .ok d) (ttlSeconds : ℤ) :
    ∃ d, sanitizeFilter rt f ttlSeconds = .ok d := by
  cases hf with
  | shape shape ttl metadata =>
    rw [sanitize_pathShapeFilter_returns_iff] at h ⊢
    exact h
  | signature signature httl metadata =>
    rw [sanitize_signatureFilter_returns_iff] at h ⊢
    exact h

/-- Every filter of a batch has been sanitized once. -/
theorem sanitized_of_deterministicFilters
    (h : deterministicFilters rt events minCount ttlSeconds learnObserved = .ok filters) :
    ∀ f ∈ filters, ∃ ttl d, sanitizeFilter rt f ttl = .ok d := by
  obtain ⟨ttl, _, _, merged, -, -, -, hmerged, rfl⟩ := deterministicFilters_eq_ok rt h
  obtain ⟨hentries, -, -⟩ := foldlM_assignFilter rt hmerged
  intro f hf
  obtain ⟨entry, hentry, rfl⟩ := List.mem_map.mp hf
  rcases hentries entry hentry with hentry | ⟨-, c, hc, -⟩
  · cases hentry
  · exact ⟨ttl, c.toDict, bind_eq_ok_iff.mpr ⟨c, hc, rfl⟩⟩

/-- **When the merge returns**: every dictionary that the provider has sent can be
sanitized, and so can the filters of the batch. -/
theorem mergeStrongCoverage_returns_iff :
    (∃ out, mergeStrongCoverage rt providerFilters events minCount ttlSeconds learnObserved =
      .ok out) ↔
      (∀ item, .dict item ∈ providerFilters → ∃ d, sanitizeFilter rt item ttlSeconds = .ok d) ∧
      ReadableBatch events minCount learnObserved := by
  constructor
  · rintro ⟨out, h⟩
    obtain ⟨merged, hmerged, htail⟩ := bind_eq_ok_iff.mp h
    obtain ⟨keys, -, htail⟩ := bind_eq_ok_iff.mp htail
    obtain ⟨fallbacks, hfallbacks, -⟩ := bind_eq_ok_iff.mp htail
    obtain ⟨cleaned, hcleaned, -⟩ := bind_eq_ok_iff.mp hmerged
    refine ⟨fun item hitem => ?_, (deterministicFilters_returns_iff rt).mp ⟨_, hfallbacks⟩⟩
    exact mapM_returns_iff.mp ⟨cleaned, hcleaned⟩ item (mem_dicts.mpr hitem)
  · rintro ⟨hsanitize, hreadable⟩
    obtain ⟨cleaned, hcleaned⟩ : ∃ cleaned,
        (dicts providerFilters).mapM (sanitizeFilter rt · ttlSeconds) = .ok cleaned :=
      mapM_returns_iff.mpr fun item hitem => hsanitize item (mem_dicts.mp hitem)
    have hmerged : sanitizedFilterList rt providerFilters ttlSeconds =
        .ok (cleaned.filter filterHasMatcher) := bind_eq_ok_iff.mpr ⟨_, hcleaned, rfl⟩
    obtain ⟨keys, hkeys⟩ : ∃ keys, (cleaned.filter filterHasMatcher).mapM (filterKey rt) =
        .ok keys := by
      refine mapM_returns_iff.mpr fun d hd => ?_
      obtain ⟨item, -, hclean⟩ := (mem_of_mapM_ok hcleaned).1 d (List.mem_filter.mp hd).1
      obtain ⟨c, -, rfl⟩ := sanitizeFilter_ok rt hclean
      exact ⟨_, filterKey_toDict rt c⟩
    obtain ⟨fallbacks, hfallbacks⟩ : ∃ filters,
        deterministicFilters rt events minCount ttlSeconds learnObserved = .ok filters :=
      (deterministicFilters_returns_iff rt).mpr hreadable
    obtain ⟨state, hstate⟩ := (foldlM_returns_iff (cover_returns_iff rt ttlSeconds) fallbacks
      (cleaned.filter filterHasMatcher, keys)).mpr (by
        intro f hf
        obtain ⟨ttl, hsanitized⟩ := sanitized_of_deterministicFilters rt hfallbacks f hf
        exact ((deterministicFilters_ok rt hfallbacks).1 f hf).returns rt hsanitized ttlSeconds)
    exact ⟨state.1, bind_eq_ok_iff.mpr ⟨_, hmerged, bind_eq_ok_iff.mpr ⟨_, hkeys,
      bind_eq_ok_iff.mpr ⟨_, hfallbacks, bind_eq_ok_iff.mpr ⟨_, hstate, rfl⟩⟩⟩⟩⟩

/-! ## What a covering rule does -/

theorem Covers.hasMatcher (h : Covers d signature) :
    filterHasMatcher d = true := by
  rw [filterHasMatcher, h.condition]
  rfl

theorem Covers.key (h : Covers d signature) :
    filterKey rt d = .ok (py "signature:" ++ signature) := by
  have hcondition : d.getD "condition" (.dict []) =
      .dict [(py "signature", .str signature)] := by
    rw [PyDict.getD, h.condition]
    rfl
  rw [filterKey, hcondition]
  simp

/-- A sanitized filter with the key of a signature has a matcher. -/
theorem hasMatcher_of_key (h : c.key = py "signature:" ++ signature) :
    filterHasMatcher (c.toDict : PyDict F) = true := by
  show (!(c.condition.toDict : PyDict F).isEmpty) = true
  simp [CleanCondition.toDict, signature_of_key h, PyDict.entry]

theorem ofJson_signatureOnly (signature : PyStr) :
    FilterCondition.ofJson (.dict [(py "signature", .str signature)] : PyValue F) =
      (encode signature).map fun s => { signature := some s } := by
  have hread : readOption readStr (.str signature : PyValue F) = (encode signature).map some := rfl
  simp only [FilterCondition.ofJson, recordFields, Option.bind_eq_bind, Option.bind_some,
    PyDict.lookup_cons_py, String.reduceEq, reduceIte, List.lookup_nil, withDefault_some,
    withDefault_none, hread]
  cases encode signature <;> rfl

/-- The rule that the proxy reads matches every request with the signature. -/
theorem Covers.matches (h : Covers d signature) {rule : FilterRule} (hrule : FilterRule.ofJson (.dict d) = some rule) :
    rule.enabled = true ∧ ∀ ctx : RequestContext, ctx.signature = text signature →
      ∀ activeUntilMs, (ruleMatches (RuntimeRule.new rule activeUntilMs) ctx {}).1 = true := by
  simp only [FilterRule.ofJson, recordFields, Option.bind_eq_bind, Option.bind_some,
    Option.bind_eq_some_iff, h.enabled, h.condition, withDefault_some] at hrule
  obtain ⟨id, -, enabled, henabled, adaptive, -, priority, -, ttl, -, expires, -, condition,
    hcondition, action, -, hrule⟩ := hrule
  obtain rfl := Option.some.inj hrule
  rw [ofJson_signatureOnly] at hcondition
  obtain ⟨s, hs, rfl⟩ := Option.map_eq_some_iff.mp hcondition
  refine ⟨(Option.some.inj henabled).symm, fun ctx hctx activeUntilMs => ?_⟩
  rw [text_eq hs] at hctx
  simp [ruleMatches, RuntimeRule.new, CompiledCondition.fromFilter,
    CompiledCondition.compileHeaders, FilterEvalScratch.given,
    FilterEvalScratch.matchesSignature, hctx]

/-- What a run that returns covers. -/
theorem covered_iff (hmin : 1 ≤ minCount) {out : List (PyDict F)}
    (hmerge : mergeStrongCoverage rt providerFilters events minCount ttlSeconds learnObserved =
      .ok out) (hsupported : isSupportedSignature signature = true)
    (hstrong : minCount ≤ ((eventsOf signature events).countP hasStrongReason : ℤ)) :
    (∃ d ∈ out, Covers d signature) ↔
      (∀ d, Sent rt ttlSeconds providerFilters d →
        filterKey rt d ≠ .ok (py "signature:" ++ signature)) ∨
      ∃ d, Sent rt ttlSeconds providerFilters d ∧ Covers d signature := by
  obtain ⟨merged, hmerged, htail⟩ := bind_eq_ok_iff.mp hmerge
  obtain ⟨keys, hkeys, htail⟩ := bind_eq_ok_iff.mp htail
  obtain ⟨fallbacks, hfallbacks, htail⟩ := bind_eq_ok_iff.mp htail
  obtain ⟨state, hstate, hout⟩ := bind_eq_ok_iff.mp htail
  obtain rfl := Except.ok.inj hout
  obtain ⟨hkind, hpresent⟩ := deterministicFilters_ok rt hfallbacks
  obtain ⟨added, hadded, hnew, hcovered⟩ := foldlM_cover rt hstate
  obtain ⟨hkeyOf, hkeyOfAll⟩ := mem_of_mapM_ok hkeys
  have hsent : ∀ d, d ∈ merged ↔
      Sent rt ttlSeconds providerFilters d ∧ filterHasMatcher d = true :=
    fun d => mem_sanitizedFilterList rt hmerged
  rw [hadded]
  constructor
  · rintro ⟨d, hd, hcovers⟩
    rcases List.mem_append.mp hd with hd | hd
    · exact .inr ⟨d, ((hsent d).mp hd).1, hcovers⟩
    · -- a filter that was added had a key that none of the provider's has
      left
      obtain ⟨c, hc, rfl⟩ := List.mem_map.mp hd
      have hckey : c.key = py "signature:" ++ signature := by
        have := hcovers.key rt
        rw [filterKey_toDict] at this
        exact Except.ok.inj this
      intro d' hd' hkey'
      obtain ⟨item, hitem, hclean⟩ := hd'
      obtain ⟨c', -, rfl⟩ := sanitizeFilter_ok rt hclean
      have hkeyc' : c'.key = py "signature:" ++ signature := by
        rw [filterKey_toDict] at hkey'
        exact Except.ok.inj hkey'
      have hmem := (hsent _).mpr ⟨⟨item, hitem, hclean⟩, hasMatcher_of_key hkeyc'⟩
      obtain ⟨key, hkey, hfilterKey⟩ := hkeyOfAll _ hmem
      rw [hkey'] at hfilterKey
      refine (hnew c hc).1 ?_
      rw [hckey, Except.ok.inj hfilterKey]
      exact hkey
  · rintro (hnone | ⟨d, hd, hcovers⟩)
    · obtain ⟨ttl, metadata, hmem, httl⟩ := hpresent signature hsupported hmin hstrong
      have hsanitized := sanitize_signatureFilter rt hsupported httl metadata ttlSeconds
      have hkey := hcovered _ hmem _ hsanitized rfl (signatureKey_ne_idOnly signature ttl)
      rw [hadded] at hkey
      rcases List.mem_append.mp hkey with hkey | hkey
      · -- a key of the provider's
        obtain ⟨d, hd, hdkey⟩ := hkeyOf _ hkey
        exact absurd hdkey (hnone d ((hsent d).mp hd).1)
      · obtain ⟨c, hc, hckey⟩ := List.mem_map.mp hkey
        obtain ⟨-, f, hf, hfc⟩ := hnew c hc
        exact ⟨c.toDict, List.mem_append_right _ (List.mem_map_of_mem hc),
          ((hkind f hf).of_key rt hfc hckey).2⟩
    · exact ⟨d, List.mem_append_left _ ((hsent d).mpr ⟨hd, hcovers.hasMatcher⟩), hcovers⟩

/-- **Strong coverage.** A signature with enough strong evidence is covered iff the merge
returns (every dictionary that the provider has sent can be sanitized, every reason can be
looked up, and every text that becomes a filter can be encoded), and the provider has sent no
filter with the signature, or one that covers it. A covering rule matches every request with
the signature. -/
theorem strong_coverage_iff (providerFilters : List (PyValue F)) (events : List (SignedEvent F))
    {minCount : ℤ} (hmin : 1 ≤ minCount) (ttlSeconds : ℤ) (learnObserved : Bool)
    {signature : PyStr} (hsupported : isSupportedSignature signature = true)
    (hstrong : minCount ≤ ((eventsOf signature events).countP hasStrongReason : ℤ)) :
    ((∃ out, mergeStrongCoverage rt providerFilters events minCount ttlSeconds learnObserved =
        .ok out ∧ ∃ d ∈ out, Covers d signature) ↔
      (∀ item, .dict item ∈ providerFilters → ∃ d, sanitizeFilter rt item ttlSeconds = .ok d) ∧
      ReadableBatch events minCount learnObserved ∧
      ((∀ d, Sent rt ttlSeconds providerFilters d →
          filterKey rt d ≠ .ok (py "signature:" ++ signature)) ∨
        ∃ d, Sent rt ttlSeconds providerFilters d ∧ Covers d signature)) ∧
    ∀ out, mergeStrongCoverage rt providerFilters events minCount ttlSeconds learnObserved =
      .ok out → ∀ d ∈ out, Covers d signature → ∀ rule, FilterRule.ofJson (.dict d) = some rule →
      rule.enabled = true ∧ ∀ ctx : RequestContext, ctx.signature = text signature →
        ∀ activeUntilMs, (ruleMatches (RuntimeRule.new rule activeUntilMs) ctx {}).1 = true := by
  refine ⟨?_, fun out _ d _ hcovers rule hrule => hcovers.matches hrule⟩
  constructor
  · rintro ⟨out, hmerge, hcovered⟩
    obtain ⟨hsanitize, hreadable⟩ := (mergeStrongCoverage_returns_iff rt).mp ⟨out, hmerge⟩
    exact ⟨hsanitize, hreadable, (covered_iff rt hmin hmerge hsupported hstrong).mp hcovered⟩
  · rintro ⟨hsanitize, hreadable, hkeys⟩
    obtain ⟨out, hmerge⟩ : ∃ out, mergeStrongCoverage rt providerFilters events minCount ttlSeconds
        learnObserved = .ok out := (mergeStrongCoverage_returns_iff rt).mpr ⟨hsanitize, hreadable⟩
    exact ⟨out, hmerge, (covered_iff rt hmin hmerge hsupported hstrong).mpr hkeys⟩

end Coverage

/-! ## A provider that disables a signature -/

def floodSignature : PyStr := py "0123456789abcdef"

/-- A denied request. -/
def floodEvent : SignedEvent Empty where
  fields := [(py "signature", .str floodSignature),
    (py "reason", .str (py "signature_rate_limited"))]
  signature := floodSignature
  signed := rfl

/-- What the provider may answer: a filter for the signature. -/
def floodFilter (enabled : Bool) : PyValue Empty :=
  .dict [(py "enabled", .bool enabled),
    (py "condition", .dict [(py "signature", .str floodSignature)])]

theorem strong_flood : isSupportedSignature floodSignature = true ∧
    (eventsOf floodSignature [floodEvent]).countP hasStrongReason = 1 := by decide +kernel

theorem readable_flood : ReadableBatch [floodEvent] 1 false where
  reasons := by
    intro event hevent
    rw [List.mem_singleton.mp hevent]
    rfl
  signatures := by
    intro group hgroup _
    rw [List.mem_singleton.mp hgroup]
    show (encode floodSignature).isSome = true
    decide +kernel
  shapes := by
    intro group hgroup
    cases hgroup

/-- A provider without an answer leaves the signature to the deterministic filter. -/
theorem flood_covered_without_answer :
    ∃ out, mergeStrongCoverage bareRuntime [] [floodEvent] 1 60 false = .ok out ∧
      ∃ d ∈ out, Covers d floodSignature := by
  have hstrong : (1 : ℤ) ≤
      ((eventsOf floodSignature [floodEvent]).countP hasStrongReason : ℤ) := by
    rw [strong_flood.2]
    rfl
  refine (strong_coverage_iff bareRuntime [] [floodEvent] (le_refl 1) 60 false strong_flood.1
    hstrong).1.mpr ⟨?_, readable_flood, .inl ?_⟩
  · intro item hitem
    cases hitem
  · rintro d ⟨item, hitem, -⟩
    cases hitem

/-- A disabled filter of the provider's keeps the deterministic one out. -/
theorem disabled_filter_prevents_coverage :
    isSupportedSignature floodSignature = true ∧
    (eventsOf floodSignature [floodEvent]).countP hasStrongReason = 1 ∧
    ∃ out, mergeStrongCoverage bareRuntime [floodFilter false] [floodEvent] 1 60 false = .ok out ∧
      ¬∃ d ∈ out, Covers d floodSignature := by
  refine ⟨strong_flood.1, strong_flood.2, _, rfl, ?_⟩
  rintro ⟨d, hd, hcovers⟩
  rw [List.mem_singleton.mp hd] at hcovers
  cases hcovers.enabled

end AlturaProt.Analyzer
