import AlturaProt.Analyzer.Merge
import AlturaProt.Filter.Engine
import AlturaProt.Filter.Json

/-!
# Can the proxy load what the analyzer writes?

The analyzer writes the merged filters as JSON; the proxy reads the file into
`FilterRule`s and validates them, and rejects the file as a whole if a single
rule fails. `merged_filters_load_iff` says when it loads: sanitizing takes care
of everything but the priority, which Python leaves unbounded and the proxy
reads as a `u32`.
-/

namespace AlturaProt.Analyzer

open Foundation Python AlturaProt.Filter

section Loadable

variable {F : Type} (rt : Runtime F)

/-- What `write_filters` prints. -/
def payload (filters : List (PyDict F)) : PyValue F :=
  .dict [(py "filters", .list (filters.map .dict))]

/-- The proxy reads and accepts the file. -/
def Loads (debug : Str → String) (source : String) (filters : List (PyDict F))
    (maxRuntimeFilters : ℕ) : Prop :=
  ∃ file, FilterFile.ofJson (payload filters) = some file ∧
    validateFilterRules debug source file.filters maxRuntimeFilters = .ok ()

/-- The priority of an item, as Python's `int` takes it, is a `u32`. -/
def PriorityFits (item : PyDict F) : Prop :=
  ∃ z, rt.toInt (item.getD "priority" (.int 100)) = .ok z ∧ 0 ≤ z ∧ z < 2 ^ 32

/-! ## The rule of a sanitized filter -/

def CleanCondition.rule (c : CleanCondition) : FilterCondition where
  methods := c.methods.map text
  pathExact := c.pathExact.map text
  pathPrefix := c.pathPrefix.map text
  pathContains := c.pathContains.map text
  queryContains := c.queryContains.map text
  pathShape := c.pathShape.map text
  userAgentContains := c.userAgentContains.map text
  headers := c.headers.map fun h => ⟨text h.1, text h.2⟩
  signature := c.signature.map text

def learnedAction : FilterAction := ⟨utf8 "block", 403, utf8 "blocked by adaptive filter\n"⟩

def CleanFilter.rule (c : CleanFilter) : FilterRule where
  id := text c.id
  enabled := c.enabled
  adaptive := true
  priority := c.priority.toNat
  ttlSeconds := some c.ttlSeconds.toNat
  expiresAtUnixMs := none
  condition := c.condition.rule
  action := learnedAction

/-! ## Sanitized texts pass the proxy's checks -/

theorem lt_of_isSafePoint {c : ℕ} (h : isSafePoint c = true) : c < 128 := by
  simp [isSafePoint, isLetterPoint, isDigitPoint, py] at h
  omega

theorem lt_of_isTokenPoint {c : ℕ} (h : isTokenPoint c = true) : c < 128 := by
  simp [isTokenPoint, isLetterPoint, isDigitPoint, py] at h
  omega

theorem lt_of_isHexPoint {c : ℕ} (h : isHexPoint c = true) : c < 128 := by
  simp [isHexPoint, isDigitPoint] at h
  omega

theorem SafeId.encodable {id : PyStr} (h : SafeId id) : (encode id).isSome = true :=
  encodable_ascii fun c hc => lt_of_isSafePoint (h.safe c hc)

theorem SafeId.idOk {id : PyStr} (h : SafeId id) : IdOk (text id) := by
  have hbyte : ∀ c < 128, isSafePoint c = true →
      isAsciiGraphic c.toUInt8 = true ∧ c.toUInt8 ≠ 0x2C := by decide +kernel
  have hascii : ∀ c ∈ id, c < 128 := fun c hc => lt_of_isSafePoint (h.safe c hc)
  rw [text_ascii hascii]
  refine ⟨⟨by simpa using h.nonempty, ?_⟩, fun b hb => ?_⟩
  · rw [List.length_map]
    exact h.length_le.trans (by decide)
  · obtain ⟨c, hc, rfl⟩ := List.mem_map.mp hb
    exact hbyte c (hascii c hc) (h.safe c hc)

theorem supportedSignature_ascii {s : PyStr} (h : isSupportedSignature s = true) :
    ∀ c ∈ s, isHexPoint c = true := by
  rw [isSupportedSignature, Bool.and_eq_true] at h
  exact List.all_eq_true.mp h.2

theorem supportedSignature_ok {s : PyStr} (h : isSupportedSignature s = true) :
    SignatureOk (text s) := by
  have hbyte : ∀ c < 128, isHexPoint c = true →
      isAsciiHexdigit c.toUInt8 = true ∧ isAsciiUppercase c.toUInt8 = false := by
    decide +kernel
  have hhex := supportedSignature_ascii h
  rw [text_ascii fun c hc => lt_of_isHexPoint (hhex c hc)]
  rw [isSupportedSignature, Bool.and_eq_true, Bool.or_eq_true, beq_iff_eq, beq_iff_eq] at h
  refine ⟨?_, fun b hb => ?_⟩
  · rw [List.length_map]
    exact h.1.symm
  · obtain ⟨c, hc, rfl⟩ := List.mem_map.mp hb
    exact hbyte c (lt_of_isHexPoint (hhex c hc)) (hhex c hc)

theorem method_ok : ∀ m ∈ METHODS, (encode m).isSome = true ∧ MethodOk (text m) := by
  have hcheck : ∀ m ∈ METHODS, (encode m).isSome = true ∧
      validateMethodToken "" (text m) = .ok () := by decide +kernel
  intro m hm
  exact ⟨(hcheck m hm).1, validateMethodToken_eq_ok.mp (hcheck m hm).2⟩

theorem BoundedText.encodable {n : ℕ} {v : PyStr} (h : BoundedText n v) :
    (encode v).isSome = true := by
  obtain ⟨bytes, hb, -⟩ := h
  rw [hb]
  rfl

theorem BoundedText.bounded {n m : ℕ} {v : PyStr} (h : BoundedText n v) (hnm : n ≤ m) :
    Bounded m (text v) := by
  obtain ⟨bytes, hb, hpos, hle⟩ := h
  rw [text_eq hb]
  exact ⟨List.length_pos_iff.mp hpos, hle.trans hnm⟩

theorem headerName_ok {name : PyStr} (h : isHttpHeaderName name = true) :
    (encode name).isSome = true ∧ (headerNameFromBytes (text name)).isSome = true := by
  have hbyte : ∀ c < 128, isTokenPoint c = true → isTokenByte c.toUInt8 = true := by
    decide +kernel
  simp only [isHttpHeaderName, Bool.and_eq_true, decide_eq_true_eq, List.all_eq_true] at h
  obtain ⟨⟨hpos, hle⟩, htoken⟩ := h
  have hascii : ∀ c ∈ name, c < 128 := fun c hc => lt_of_isTokenPoint (htoken c hc)
  refine ⟨encodable_ascii hascii, ?_⟩
  have hall : (name.map Nat.toUInt8).all isTokenByte = true := by
    rw [List.all_map, List.all_eq_true]
    exact fun c hc => hbyte c (hascii c hc) (htoken c hc)
  have hlen : ¬ 65535 < name.length := by
    unfold FILTER_HEADER_NAME_MAX_BYTES at hle
    omega
  rw [text_ascii hascii, headerNameFromBytes, hall]
  simp [List.length_pos_iff.mp hpos, hlen]

/-! ## Sanitized filters pass the proxy's checks -/

theorem CleanCondition.Ok.conditionOk {c : CleanCondition} (h : c.Ok)
    (hmatcher : (c.toDict : PyDict F) ≠ []) : ConditionOk c.rule := by
  refine ⟨?_, ?_, ?_, ?_, ?_, ?_, ?_, ?_⟩
  · -- without a matcher the dictionary would be empty
    by_contra hvacuous
    simp only [FilterCondition.isVacuous, CleanCondition.rule, Bool.not_eq_false,
      Bool.and_eq_true, List.isEmpty_iff, List.map_eq_nil_iff, Option.isNone_iff_eq_none,
      Option.map_eq_none_iff] at hvacuous
    apply hmatcher
    simp [CleanCondition.toDict, PyDict.entry, PyDict.nonEmptyList, hvacuous]
  · rw [CleanCondition.rule, List.length_map]
    exact h.methods_length.trans (by decide)
  · intro m hm
    obtain ⟨method, hmethod, rfl⟩ := List.mem_map.mp hm
    exact (method_ok method (h.methods method hmethod)).2
  · have hvalue : ∀ o : Option PyStr,
        (∀ v ∈ o, BoundedText FILTER_MATCH_VALUE_MAX_BYTES v) →
        ∀ v ∈ o.map text, Bounded DEFAULT_FILTER_MAX_MATCH_VALUE_BYTES v := by
      intro o ho v hv
      obtain ⟨s, hs, rfl⟩ := Option.mem_map.mp hv
      exact (ho s hs).bounded (by decide)
    have hvalues := h.values
    simp only [List.forall_mem_cons, List.not_mem_nil, false_implies, implies_true,
      and_true] at hvalues ⊢
    obtain ⟨h1, h2, h3, h4, h5, h6⟩ := hvalues
    exact ⟨hvalue _ h1, hvalue _ h2, hvalue _ h3, hvalue _ h4, hvalue _ h5, hvalue _ h6⟩
  · intro s hs
    obtain ⟨signature, hsignature, rfl⟩ := Option.mem_map.mp hs
    exact supportedSignature_ok (h.signature signature hsignature)
  · intro hroot
    obtain ⟨v, hv, hroot⟩ := Option.map_eq_some_iff.mp hroot
    have hbounded := h.values c.pathPrefix (by simp) v hv
    have hslash := text_inj hbounded.encodable (by decide : (encode (py "/")).isSome = true) hroot
    exact h.narrow (hslash ▸ hv)
  · rw [CleanCondition.rule, List.length_map]
    exact h.headers_length.trans (by decide)
  · intro x hx
    obtain ⟨header, hheader, rfl⟩ := List.mem_map.mp hx
    obtain ⟨hname, hcontains⟩ := h.headers header hheader
    exact ⟨(headerName_ok hname).2, hcontains.bounded (by decide)⟩

theorem learnedAction_ok : ActionOk learnedAction := ⟨rfl, by decide, by decide⟩

/-- **A sanitized filter with a matcher is a valid rule.** -/
theorem CleanFilter.Ok.ruleOk {c : CleanFilter} (h : c.Ok)
    (hmatcher : (c.condition.toDict : PyDict F) ≠ []) : RuleOk c.rule := by
  refine ⟨h.id.idOk, ?_, h.condition.conditionOk hmatcher, learnedAction_ok⟩
  intro t ht
  obtain rfl := Option.some.inj ht
  have httl := h.ttl
  unfold FILTER_TTL_MAX_SECONDS at httl
  unfold Filter.FILTER_TTL_MAX_SECONDS
  omega

/-! ## Reading sanitized filters -/

theorem ofJson_header {header : PyStr × PyStr} (hname : isHttpHeaderName header.1 = true)
    (hcontains : BoundedText FILTER_HEADER_CONTAINS_MAX_BYTES header.2) :
    HeaderContains.ofJson (.dict [(py "name", .str header.1), (py "contains", .str header.2)] :
      PyValue F) = some ⟨text header.1, text header.2⟩ := by
  have h1 := readStr_text (F := F) (headerName_ok hname).1
  have h2 := readStr_text (F := F) hcontains.encodable
  simp [HeaderContains.ofJson, recordFields, required, h1, h2]

theorem ofJson_condition {c : CleanCondition} (h : c.Ok) :
    FilterCondition.ofJson (.dict c.toDict : PyValue F) = some c.rule := by
  have hvalues := h.values
  simp only [List.forall_mem_cons, List.not_mem_nil, false_implies, implies_true,
    and_true] at hvalues
  obtain ⟨hexact, hprefix, hcontains, hquery, hshape, hagent⟩ := hvalues
  have htext : ∀ {o : Option PyStr}, (∀ v ∈ o, BoundedText FILTER_MATCH_VALUE_MAX_BYTES v) →
      withDefault none (readOption readStr) (o.map .str : Option (PyValue F)) =
        some (o.map text) := fun ho => withDefault_text fun s hs => (ho s hs).encodable
  have hsignature : withDefault none (readOption readStr) (c.signature.map .str :
      Option (PyValue F)) = some (c.signature.map text) := withDefault_text fun s hs =>
    encodable_ascii fun x hx => lt_of_isHexPoint (supportedSignature_ascii (h.signature s hs) x hx)
  have hmethods := withDefault_list (F := F) .str text
    fun m hm => readStr_text (method_ok m (h.methods m hm)).1
  have hheaders := withDefault_list _ _ fun header hheader =>
    ofJson_header (F := F) (h.headers header hheader).1 (h.headers header hheader).2
  simp [FilterCondition.ofJson, recordFields, CleanCondition.toDict, List.lookup_append,
    hmethods, hheaders, hsignature, htext hexact, htext hprefix, htext hcontains,
    htext hquery, htext hshape, htext hagent, CleanCondition.rule]

/-- **When a sanitized filter can be read.** All that can fail is the priority. -/
theorem ofJson_clean {c : CleanFilter} (h : c.Ok) :
    FilterRule.ofJson (.dict c.toDict : PyValue F) =
      if 0 ≤ c.priority ∧ c.priority < 2 ^ 32 then some c.rule else none := by
  have hid := readStr_text (F := F) h.id.encodable
  have hcondition := ofJson_condition (F := F) h.condition
  have httl : readUnsigned 64 (.int c.ttlSeconds : PyValue F) = some c.ttlSeconds.toNat := by
    have := h.ttl
    unfold FILTER_TTL_MAX_SECONDS at this
    exact readUnsigned_eq_some.mpr ⟨by omega, rfl⟩
  have haction : FilterAction.ofJson (.dict [(py "kind", .str (py "block")),
      (py "status", .int 403), (py "body", .str (py "blocked by adaptive filter\n"))] :
      PyValue F) = some learnedAction := by rfl
  simp only [FilterRule.ofJson, recordFields, CleanFilter.toDict, Option.bind_eq_bind,
    Option.bind_some, PyDict.lookup_cons_py, String.reduceEq, reduceIte, List.lookup_nil,
    required_some, withDefault_some, withDefault_none, hid, readBool, readOption, httl,
    Option.map_some, hcondition, haction]
  split
  · rename_i hfits
    rw [readUnsigned_eq_some.mpr ⟨hfits, rfl⟩]
    rfl
  · rename_i hfits
    rw [readUnsigned, if_neg hfits]
    rfl

/-! ## Loading the merged filters -/

/-- The file is read if all rules are. -/
theorem ofJson_payload {filters : List (PyDict F)} {file : FilterFile} :
    FilterFile.ofJson (payload filters) = some file ↔
      filters.mapM (fun d => FilterRule.ofJson (.dict d)) = some file.filters := by
  have heq : FilterFile.ofJson (payload filters) =
      (filters.mapM fun d => FilterRule.ofJson (.dict d)).bind (fun rules => some ⟨rules⟩) := by
    simp [FilterFile.ofJson, payload, recordFields, readList]
    rfl
  rw [heq, Option.bind_eq_some_iff]
  constructor
  · rintro ⟨rules, hrules, hfile⟩
    obtain rfl := Option.some.inj hfile
    exact hrules
  · intro hrules
    exact ⟨file.filters, hrules, rfl⟩

theorem ofJson_payload_clean {cs : List CleanFilter} (hcs : ∀ c ∈ cs, c.Ok) {file : FilterFile} :
    FilterFile.ofJson (payload (cs.map CleanFilter.toDict) : PyValue F) = some file ↔
      (∀ c ∈ cs, 0 ≤ c.priority ∧ c.priority < 2 ^ 32) ∧
        cs.map CleanFilter.rule = file.filters := by
  rw [ofJson_payload, List.mapM_map]
  exact mapM_eq_some_iff fun c hc => ofJson_clean (hcs c hc)

/-- The ids stay distinct when they are read. -/
theorem nodup_rule_ids {cs : List CleanFilter} (hsafe : ∀ c ∈ cs, SafeId c.id)
    (hnodup : (cs.map CleanFilter.id).Nodup) :
    ((cs.map CleanFilter.rule).map FilterRule.id).Nodup := by
  have hids : (cs.map CleanFilter.rule).map FilterRule.id = (cs.map CleanFilter.id).map text := by
    rw [List.map_map, List.map_map]
    rfl
  rw [hids]
  refine hnodup.map_on fun a ha b hb h => ?_
  obtain ⟨c, hc, rfl⟩ := List.mem_map.mp ha
  obtain ⟨d, hd, rfl⟩ := List.mem_map.mp hb
  exact text_inj (hsafe c hc).encodable (hsafe d hd).encodable h

/-- What a merge returns, as far as the proxy looks at it. -/
structure Publishable (maxRuntimeFilters : ℕ) (cs : List CleanFilter) : Prop where
  pos : 0 < maxRuntimeFilters
  length_le : cs.length ≤ maxRuntimeFilters
  nodup : (cs.map CleanFilter.id).Nodup
  clean : ∀ c ∈ cs, c.Ok
  matcher : ∀ c ∈ cs, (c.condition.toDict : PyDict F) ≠ []

section Publishable

variable {rt} {maxRuntimeFilters : ℕ} {cs : List CleanFilter}

theorem Publishable.ruleOk (h : Publishable (F := F) maxRuntimeFilters cs) :
    ∀ r ∈ cs.map CleanFilter.rule, RuleOk r := by
  intro r hr
  obtain ⟨c, hc, rfl⟩ := List.mem_map.mp hr
  exact (h.clean c hc).ruleOk (h.matcher c hc)

theorem Publishable.valid (h : Publishable (F := F) maxRuntimeFilters cs)
    (debug : Str → String) (source : String) :
    validateFilterRules debug source (cs.map CleanFilter.rule) maxRuntimeFilters = .ok () := by
  refine validateFilterRules_eq_ok.mpr ⟨h.pos, ?_, ?_, h.ruleOk⟩
  · rw [List.length_map]
    exact h.length_le
  · exact nodup_rule_ids (fun c hc => (h.clean c hc).id) h.nodup

theorem Publishable.loads_iff (h : Publishable (F := F) maxRuntimeFilters cs)
    (debug : Str → String) (source : String) :
    Loads (F := F) debug source (cs.map CleanFilter.toDict) maxRuntimeFilters ↔
      ∀ z ∈ cs.map CleanFilter.priority, 0 ≤ z ∧ z < 2 ^ 32 := by
  rw [List.forall_mem_map]
  constructor
  · rintro ⟨file, hfile, -⟩
    exact ((ofJson_payload_clean h.clean).mp hfile).1
  · intro hfits
    exact ⟨⟨cs.map CleanFilter.rule⟩, (ofJson_payload_clean h.clean).mpr ⟨hfits, rfl⟩,
      h.valid debug source⟩

end Publishable

/-! ## Reloading the merged filters -/

/-- The runtime file holds what the analyzer has written. -/
structure Holds (e : FilterEngine) (P : Platform) (contents : Str)
    (filters : List (PyDict F)) : Prop where
  readable : e.Readable P contents
  parses : ∀ file, P.parse contents = .ok file ↔ FilterFile.ofJson (payload filters) = some file

/-! ## The analyzer's output -/

section Output

variable {rt} {existing newFilters out : List (PyDict F)} {ttlSeconds maxFilters : ℤ}
  {maxRuntimeFilters : ℕ}

/-- A merge within the proxy's bound is publishable, with the priorities of the
items it keeps. -/
theorem merge_publishable
    (hmerge : mergeExistingFilters rt existing newFilters ttlSeconds maxFilters = .ok out)
    (hpos : 1 ≤ maxFilters) (hmax : maxFilters ≤ maxRuntimeFilters)
    (husize : maxRuntimeFilters < 2 ^ 64) :
    ∃ cs, out = cs.map CleanFilter.toDict ∧ Publishable (F := F) maxRuntimeFilters cs ∧
      ((∀ z ∈ cs.map CleanFilter.priority, 0 ≤ z ∧ z < 2 ^ 32) ↔
        ∀ item ∈ survivors rt ttlSeconds maxFilters (existing ++ newFilters),
          PriorityFits rt item) := by
  obtain ⟨ids, hids, rfl⟩ := mergeExistingFilters_spec rt hmerge
  have hlen := length_kept_le rt ttlSeconds maxFilters (existing ++ newFilters)
  refine ⟨_, rfl, ⟨by omega, ?_, ?_, ?_, ?_⟩, ?_⟩
  · rw [← List.length_map CleanFilter.id, renamed_ids hids.length_eq, hids.length_eq]
    omega
  · rw [renamed_ids hids.length_eq]
    exact hids.nodup
  · intro c hc
    obtain ⟨p, hp, id, hid, rfl⟩ := mem_renamed hc
    have hok := sanitize_clean rt (sanitize_of_mem_kept rt hp).1
    exact ⟨hids.safe (by omega) id hid, hok.ttl, hok.condition⟩
  · intro c hc
    obtain ⟨p, hp, id, -, rfl⟩ := mem_renamed hc
    have hmatcher : (!(p.2.condition.toDict : PyDict F).isEmpty) = true :=
      (sanitize_of_mem_kept rt hp).2
    rw [Bool.not_eq_true', List.isEmpty_eq_false_iff] at hmatcher
    exact hmatcher
  · rw [renamed_priorities hids.length_eq, survivors, List.forall_mem_map, List.forall_mem_map]
    refine forall₂_congr fun p hp => ?_
    rw [PriorityFits, sanitize_priority rt (sanitize_of_mem_kept rt hp).1]
    simp

/-- **When the proxy loads what the analyzer writes.** A merged list passes the
proxy's checks once it can be read, and it can be read exactly if the priorities
of the items that the merge keeps are `u32`s. -/
theorem merged_filters_load_iff (debug : Str → String) (source : String)
    (hmerge : mergeExistingFilters rt existing newFilters ttlSeconds maxFilters = .ok out)
    (hpos : 1 ≤ maxFilters) (hmax : maxFilters ≤ maxRuntimeFilters)
    (husize : maxRuntimeFilters < 2 ^ 64) :
    Loads debug source out maxRuntimeFilters ↔
      ∀ item ∈ survivors rt ttlSeconds maxFilters (existing ++ newFilters),
        PriorityFits rt item := by
  obtain ⟨cs, rfl, hcs, hfits⟩ := merge_publishable hmerge hpos hmax husize
  rw [hcs.loads_iff debug source, hfits]

end Output

end Loadable

/-! ## A priority that does not fit -/

/-- An interpreter without floats; only integers and strings are converted. -/
def bareRuntime : Runtime Empty where
  floatToInt := Empty.elim
  floatTruth := Empty.elim
  strToInt := fun _ => none
  str := fun _ => .error .other
  upper := id

/-- A learned filter for one path. -/
def pathFilter (id path : String) (priority : ℤ) : PyDict Empty :=
  [(py "id", .str (py id)), (py "priority", .int priority),
   (py "condition", .dict [(py "path_exact", .str (py path))])]

/-- One filter with a negative priority, and the proxy rejects the file with the
filters learned before. -/
theorem negative_priority_rejects_file :
    ∃ out, mergeExistingFilters bareRuntime [pathFilter "login" "/login" 100]
        [pathFilter "scan" "/.env" (-1)] 60 1024 = .ok out ∧
      ¬ Loads (fun _ => "") "runtime filter file" out 1024 := by
  refine ⟨_, rfl, ?_⟩
  rintro ⟨file, hfile, -⟩
  cases hfile

/-- A priority that does not fit is harmless in an item that a later one
displaces. -/
theorem merged_filters_load_displaced :
    ∃ out, mergeExistingFilters bareRuntime [pathFilter "scan" "/.env" (-1)]
        [pathFilter "login" "/login" 100, pathFilter "scan" "/.env" 7] 60 1024 = .ok out ∧
      Loads (fun _ => "") "runtime filter file" out 1024 := by
  have hmerge : mergeExistingFilters bareRuntime [pathFilter "scan" "/.env" (-1)]
    [pathFilter "login" "/login" 100, pathFilter "scan" "/.env" 7] 60 1024 = .ok [_, _] := rfl
  refine ⟨_, hmerge, (merged_filters_load_iff _ _ hmerge (by decide)
    (by decide : (1024 : ℤ) ≤ (1024 : ℕ)) (by decide)).mpr ?_⟩
  show ∀ item ∈ [pathFilter "login" "/login" 100, pathFilter "scan" "/.env" 7],
    PriorityFits bareRuntime item
  exact List.forall_mem_cons.mpr ⟨⟨100, rfl, by decide, by decide⟩,
    List.forall_mem_singleton.mpr ⟨7, rfl, by decide, by decide⟩⟩

end AlturaProt.Analyzer
