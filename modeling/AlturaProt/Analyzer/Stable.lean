import AlturaProt.Analyzer.Loadable

/-!
# Ids across merges

The file that one merge writes is the `existing` list of the next. Sanitizing
leaves what a merge has written as it is (`sanitize_toDict`), its keys are
pairwise distinct, and its ids are given out first, so a rule that the next
merge keeps also keeps its id.

An id is free again once its rule is gone: displaced by a new filter under the
same key, or pushed out at the cap. Nothing remembers the ids of earlier files,
and a new filter may then take one of them.
-/

namespace AlturaProt.Analyzer

open Foundation Python

section Stable

variable {F : Type} (rt : Runtime F)

/-! ## Sanitizing a sanitized filter -/

theorem boundedUtf8_of_bounded {value : PyStr} {maxBytes : ℕ} (h : BoundedText maxBytes value) :
    boundedUtf8 value maxBytes = .ok true := by
  obtain ⟨bytes, henc, hpos, hle⟩ := h
  simp [boundedUtf8, henc, hpos, hle]

variable {condition : PyDict F} {c : CleanFilter} {ttlSeconds maxFilters : ℤ} {ids : List PyStr}

/-- A matcher that has passed its checks passes them again. -/
theorem cleanMatcher_again {key : String} {accept : PyStr → Bool} {o : Option PyStr}
    (hlookup : condition.lookup (py key) = o.map .str)
    (ho : ∀ v ∈ o, BoundedText FILTER_MATCH_VALUE_MAX_BYTES v ∧ accept v = true) :
    cleanMatcher condition key accept = .ok o := by
  unfold cleanMatcher
  cases o with
  | none =>
    rw [hlookup]
    rfl
  | some v =>
    obtain ⟨hbounded, haccept⟩ := ho v rfl
    rw [hlookup]
    simp only [Option.map_some, boundedUtf8_of_bounded hbounded, haccept]
    rfl

theorem upper_method (hupper : rt.UpperAscii) : ∀ m ∈ METHODS, rt.upper m = m := by
  intro m hm
  have hascii : ∀ m ∈ METHODS, (∀ c ∈ m, c < 128) ∧ m.map asciiUpper = m := by decide +kernel
  rw [hupper m (hascii m hm).1, (hascii m hm).2]

theorem knownMethods_again {methods : List PyStr} (hupper : ∀ m ∈ methods, rt.upper m = m)
    (h : ∀ m ∈ methods, m ∈ METHODS) :
    knownMethods rt (methods.map .str) = .ok methods := by
  induction methods with
  | nil => rfl
  | cons m rest ih =>
    have hm := h m List.mem_cons_self
    have hrest := ih (fun x hx => hupper x (List.mem_cons_of_mem _ hx))
      fun x hx => h x (List.mem_cons_of_mem _ hx)
    rw [List.map_cons, knownMethods, hrest]
    show Except.ok (if rt.upper m ∈ METHODS then rt.upper m :: rest else rest) = .ok (m :: rest)
    rw [hupper m List.mem_cons_self, if_pos hm]

theorem cleanHeaderList_again {headers : List (PyStr × PyStr)}
    (h : ∀ x ∈ headers, isHttpHeaderName x.1 = true ∧
      BoundedText FILTER_HEADER_CONTAINS_MAX_BYTES x.2) :
    cleanHeaderList (F := F) (headers.map fun header =>
      .dict [(py "name", .str header.1), (py "contains", .str header.2)]) = .ok headers := by
  induction headers with
  | nil => rfl
  | cons header rest ih =>
    obtain ⟨hname, hcontains⟩ := h header List.mem_cons_self
    have hlen : header.1.length ≤ FILTER_HEADER_NAME_MAX_BYTES := by
      simp only [isHttpHeaderName, Bool.and_eq_true, decide_eq_true_eq] at hname
      exact hname.1.2
    have hheader : cleanHeader (F := F)
        (.dict [(py "name", .str header.1), (py "contains", .str header.2)]) =
          .ok (some header) := by
      simp only [cleanHeader, PyDict.lookup_cons_py, String.reduceEq, reduceIte, hname,
        boundedUtf8_of_bounded hcontains, List.take_of_length_le hlen]
      rfl
    rw [List.map_cons, cleanHeaderList, hheader, ih fun x hx => h x (List.mem_cons_of_mem _ hx)]
    rfl

theorem cleanMethods_again {methods : List PyStr} (hupper : ∀ m ∈ methods, rt.upper m = m)
    (hlookup : condition.lookup (py "methods") = PyDict.nonEmptyList .str methods)
    (hlen : methods.length ≤ 8) (h : ∀ m ∈ methods, m ∈ METHODS) :
    cleanMethods rt condition = .ok methods := by
  unfold cleanMethods
  rw [hlookup]
  cases methods with
  | nil => rfl
  | cons m rest =>
    show (knownMethods rt ((m :: rest).map .str) >>= fun known => .ok (known.take 8)) = _
    rw [knownMethods_again rt hupper h]
    show Except.ok ((m :: rest).take 8) = _
    rw [List.take_of_length_le hlen]

theorem cleanHeaders_again {headers : List (PyStr × PyStr)}
    (hlookup : condition.lookup (py "headers") = PyDict.nonEmptyList (fun header =>
      .dict [(py "name", .str header.1), (py "contains", .str header.2)]) headers)
    (hlen : headers.length ≤ 8)
    (h : ∀ x ∈ headers, isHttpHeaderName x.1 = true ∧
      BoundedText FILTER_HEADER_CONTAINS_MAX_BYTES x.2) : cleanHeaders condition = .ok headers := by
  unfold cleanHeaders
  rw [hlookup]
  cases headers with
  | nil => rfl
  | cons header rest =>
    show cleanHeaderList (((header :: rest).map _).take 8) = _
    rw [List.take_of_length_le (by simpa using hlen)]
    exact cleanHeaderList_again h

theorem bounded_signature {s : PyStr} (h : isSupportedSignature s = true) :
    BoundedText FILTER_MATCH_VALUE_MAX_BYTES s := by
  have hascii := encode_ascii fun c hc => lt_of_isHexPoint (supportedSignature_ascii h c hc)
  simp only [isSupportedSignature, Bool.and_eq_true, Bool.or_eq_true, beq_iff_eq] at h
  refine ⟨_, hascii, ?_⟩
  rw [List.length_map]
  unfold FILTER_MATCH_VALUE_MAX_BYTES
  omega

theorem narrow_prefix {c : CleanCondition} (h : c.Ok) :
    ∀ v ∈ c.pathPrefix, (!(v == [] || v == py "/")) = true := by
  intro v hv
  obtain ⟨bytes, henc, hpos, -⟩ := h.values _ (by simp) v hv
  have hne : v ≠ [] := by
    rintro rfl
    obtain rfl := Option.some.inj henc
    exact absurd hpos (by decide)
  have hroot : v ≠ py "/" := by
    rintro rfl
    exact h.narrow hv
  simp [hne, hroot]

theorem cleanCondition_again {c : CleanCondition} (hupper : ∀ m ∈ c.methods, rt.upper m = m)
    (h : c.Ok) :
    cleanCondition rt c.toDict = .ok c := by
  have hvalues := h.values
  simp only [List.forall_mem_cons, List.not_mem_nil, false_implies, implies_true,
    and_true] at hvalues
  obtain ⟨hexact, hfront, hcontains, hquery, hshape, hagent⟩ := hvalues
  -- every lookup finds what was written under its key
  have hsignature : cleanMatcher (c.toDict : PyDict F) "signature" isSupportedSignature =
      .ok c.signature := by
    refine cleanMatcher_again (by simp [CleanCondition.toDict, List.lookup_append]) fun v hv => ?_
    exact ⟨bounded_signature (h.signature v hv), h.signature v hv⟩
  have hpathPrefix : cleanMatcher (c.toDict : PyDict F) "path_prefix"
      (fun value => !(value == [] || value == py "/")) = .ok c.pathPrefix := by
    refine cleanMatcher_again (by simp [CleanCondition.toDict, List.lookup_append]) fun v hv => ?_
    exact ⟨hfront v hv, narrow_prefix h v hv⟩
  have htext : ∀ {key : String} {o : Option PyStr},
      (c.toDict : PyDict F).lookup (py key) = o.map .str →
      (∀ v ∈ o, BoundedText FILTER_MATCH_VALUE_MAX_BYTES v) →
      cleanMatcher (c.toDict : PyDict F) key (fun _ => true) = .ok o :=
    fun hlookup ho => cleanMatcher_again hlookup fun v hv => ⟨ho v hv, rfl⟩
  have hmethods : cleanMethods rt (c.toDict : PyDict F) = .ok c.methods :=
    cleanMethods_again rt hupper (by simp [CleanCondition.toDict, List.lookup_append])
      h.methods_length h.methods
  have hheaders : cleanHeaders (c.toDict : PyDict F) = .ok c.headers :=
    cleanHeaders_again (by simp [CleanCondition.toDict, List.lookup_append])
      h.headers_length h.headers
  rw [cleanCondition, hsignature, hpathPrefix, hmethods, hheaders,
    htext (by simp [CleanCondition.toDict, List.lookup_append]) hexact,
    htext (by simp [CleanCondition.toDict, List.lookup_append]) hcontains,
    htext (by simp [CleanCondition.toDict, List.lookup_append]) hshape,
    htext (by simp [CleanCondition.toDict, List.lookup_append]) hquery,
    htext (by simp [CleanCondition.toDict, List.lookup_append]) hagent]
  rfl

theorem boundedTtlSeconds_again {ttl : ℤ} (h : 1 ≤ ttl ∧ ttl ≤ FILTER_TTL_MAX_SECONDS)
    (fallback : ℤ) : boundedTtlSeconds rt (.int ttl) fallback = .ok ttl := by
  show Except.ok (max 1 (min _ FILTER_TTL_MAX_SECONDS)) = _
  have hpos : ¬ ttl ≤ 0 := by omega
  rw [if_neg hpos, if_neg hpos, min_eq_left h.2, max_eq_right h.1]

/-- **Sanitizing is the identity on what a merge writes.** -/
theorem sanitize_toDict (hupper : ∀ m ∈ c.condition.methods, rt.upper m = m) (h : c.Ok)
    (hid : safeId c.id = c.id) (ttlSeconds : ℤ) :
    sanitize rt (c.toDict : PyDict F) ttlSeconds = .ok c := by
  have hcondition := cleanCondition_again rt hupper h.condition
  have httl := boundedTtlSeconds_again rt h.ttl ttlSeconds
  have hidText : idText rt (c.toDict : PyDict F) c.condition.signature = .ok c.id := by
    have htruth : rt.truth (.str c.id) = true := by
      show (!c.id.isEmpty) = true
      simpa using h.id.nonempty
    exact if_pos htruth
  show (do
    let ttl ← boundedTtlSeconds rt (.int c.ttlSeconds) ttlSeconds
    let condition ← cleanCondition rt (c.condition.toDict : PyDict F)
    let id ← idText rt (c.toDict : PyDict F) condition.signature
    let priority ← Except.ok c.priority
    return (⟨safeId id, c.enabled, priority, ttl, condition⟩ : CleanFilter)) = _
  rw [httl, hcondition]
  show (idText rt (c.toDict : PyDict F) c.condition.signature >>= _) = _
  rw [hidText]
  show Except.ok (⟨safeId c.id, c.enabled, c.priority, c.ttlSeconds, c.condition⟩ : CleanFilter) = _
  rw [hid]

/-! ## Keys -/

/-- The key of a sanitized filter. -/
def CleanFilter.key (c : CleanFilter) : PyStr :=
  match c.condition.signature, c.condition.pathShape with
  | some signature, _ => py "signature:" ++ signature
  | none, some pathShape => py "path_shape:" ++ pathShape
  | none, none => py "id:" ++ c.id

theorem filterKey_toDict (c : CleanFilter) : filterKey rt (c.toDict : PyDict F) = .ok c.key := by
  have hsignature : (c.condition.toDict : PyDict F).lookup (py "signature") =
      c.condition.signature.map .str := by
    simp [CleanCondition.toDict, List.lookup_append]
  have hshape : (c.condition.toDict : PyDict F).lookup (py "path_shape") =
      c.condition.pathShape.map .str := by
    simp [CleanCondition.toDict, List.lookup_append]
  have hcondition : (c.toDict : PyDict F).getD "condition" (.dict []) =
      .dict c.condition.toDict := rfl
  rw [filterKey, hcondition]
  dsimp only
  rw [hsignature, hshape, CleanFilter.key]
  cases c.condition.signature <;> cases c.condition.pathShape <;> rfl

/-- A key either has nothing to do with the id or is the id, behind an `i`. -/
theorem key_cases (c : CleanFilter) :
    ((∀ id, (c.rename id).key = c.key) ∧ c.key.head? ≠ some 0x69) ∨
      ∀ id, (c.rename id).key = py "id:" ++ id := by
  dsimp only [CleanFilter.key, CleanFilter.rename]
  cases c.condition.signature with
  | some signature =>
    left
    exact ⟨fun _ => rfl, by simp [py]⟩
  | none =>
    cases c.condition.pathShape with
    | some pathShape =>
      left
      exact ⟨fun _ => rfl, by simp [py]⟩
    | none =>
      right
      exact fun _ => rfl

theorem head_idKey (id : PyStr) : (py "id:" ++ id).head? = some 0x69 := rfl

/-- Two filters with different keys have different keys under different ids. -/
theorem key_rename_ne {d : CleanFilter} {i j : PyStr} (hkey : c.key ≠ d.key) (hid : i ≠ j) :
    (c.rename i).key ≠ (d.rename j).key := by
  rcases key_cases c with ⟨hc, hchead⟩ | hc <;> rcases key_cases d with ⟨hd, hdhead⟩ | hd
  · rw [hc, hd]
    exact hkey
  · rw [hc, hd]
    intro h
    exact hchead (h ▸ head_idKey j)
  · rw [hc, hd]
    intro h
    exact hdhead (h ▸ head_idKey i)
  · rw [hc, hd]
    intro h
    exact hid (List.append_cancel_left h)

theorem key_ne_idOnly (hid : c.id ≠ []) : c.key ≠ py "id:" := by
  intro h
  rcases key_cases c with ⟨-, hhead⟩ | hc
  · exact hhead (h ▸ rfl)
  · -- the filter under its own id is the filter
    have hkey : c.key = py "id:" ++ c.id := hc c.id
    exact hid (List.append_cancel_left ((hkey.symm.trans h).trans (List.append_nil _).symm))

/-! ## The next merge -/

/-- What a merge has written: clean filters with a matcher, under ids that
sanitizing does not change, with pairwise distinct keys. -/
structure Written (cs : List CleanFilter) : Prop where
  clean : ∀ c ∈ cs, c.Ok
  settled : ∀ c ∈ cs, safeId c.id = c.id
  matcher : ∀ c ∈ cs, filterHasMatcher (F := F) c.toDict = true
  ids : (cs.map CleanFilter.id).Nodup
  keys : (cs.map CleanFilter.key).Nodup

variable {rt}

/-- An item is entered under the key of its sanitized form. -/
theorem key_of_mem_entered {items : List (PyDict F)} {x : PyStr × PyDict F × CleanFilter}
    (h : x ∈ entered rt ttlSeconds items) : x.2.2.key = x.1 := by
  obtain ⟨-, -, hkey⟩ := entryOf_eq_some rt (entryOf_of_mem_entered rt h)
  rw [filterKey_toDict] at hkey
  exact Except.ok.inj hkey

theorem nodup_keys_kept (ttlSeconds maxFilters : ℤ) (items : List (PyDict F)) :
    ((kept rt ttlSeconds maxFilters items).map fun p => p.2.key).Nodup := by
  have hlast : lastItems (max 1 maxFilters).toNat
      (PyDict.lastPerKey (entered rt ttlSeconds items)) <:+
        PyDict.lastPerKey (entered rt ttlSeconds items) := List.drop_suffix _ _
  have hkeys : (kept rt ttlSeconds maxFilters items).map (fun p => p.2.key) =
      (lastItems (max 1 maxFilters).toNat
        (PyDict.lastPerKey (entered rt ttlSeconds items))).map Prod.fst := by
    rw [kept, List.map_map]
    apply List.map_congr_left
    intro x hx
    exact key_of_mem_entered (PyDict.lastPerKey_subset _ (hlast.subset hx))
  rw [hkeys]
  exact (PyDict.nodup_lastPerKey _).sublist (hlast.sublist.map _)

theorem nodup_keys_renamed {items : List (PyDict F × CleanFilter)}
    (hlen : ids.length = items.length) (hids : ids.Nodup)
    (hkeys : (items.map fun p => p.2.key).Nodup) :
    ((renamed items ids).map CleanFilter.key).Nodup := by
  have hfst := List.map_fst_zip hlen.ge
  have hsnd := List.map_snd_zip hlen.le
  rw [← hfst, List.map_map, List.nodup_iff_pairwise_ne, List.pairwise_map] at hkeys
  rw [← hsnd, List.nodup_iff_pairwise_ne, List.pairwise_map] at hids
  rw [renamed, List.map_map, List.nodup_iff_pairwise_ne, List.pairwise_map]
  exact (hkeys.and hids).imp fun h => key_rename_ne h.1 h.2

/-- Kept rules under new ids. -/
theorem written_renamed {items : List (PyDict F)}
    (hids : NewIds (kept rt ttlSeconds maxFilters items).length ids)
    (hsize : (kept rt ttlSeconds maxFilters items).length + 2 < 10 ^ 95) :
    Written (F := F) (renamed (kept rt ttlSeconds maxFilters items) ids) := by
  refine ⟨?_, ?_, ?_, ?_, ?_⟩
  · intro c hc
    obtain ⟨p, hp, id, hid, rfl⟩ := mem_renamed hc
    have hok := sanitize_clean rt (sanitize_of_mem_kept rt hp).1
    exact ⟨hids.safe hsize id hid, hok.ttl, hok.condition⟩
  · intro c hc
    obtain ⟨p, -, id, hid, rfl⟩ := mem_renamed hc
    exact hids.settled hsize id hid
  · intro c hc
    obtain ⟨p, hp, id, -, rfl⟩ := mem_renamed hc
    exact (sanitize_of_mem_kept rt hp).2
  · rw [renamed_ids hids.length_eq]
    exact hids.nodup
  · exact nodup_keys_renamed hids.length_eq hids.nodup (nodup_keys_kept _ _ _)

theorem length_renamed {items : List (PyDict F × CleanFilter)} (h : ids.length = items.length) :
    (renamed items ids).length = items.length := by
  rw [← List.length_map CleanFilter.id, renamed_ids h, h]

/-- **What a merge leaves for the next one.** -/
theorem written_merge {existing newFilters out : List (PyDict F)}
    (h : mergeExistingFilters rt existing newFilters ttlSeconds maxFilters = .ok out)
    (hsize : out.length + 2 < 10 ^ 95) :
    ∃ cs, Written (F := F) cs ∧ out = cs.map CleanFilter.toDict := by
  obtain ⟨ids, hids, rfl⟩ := mergeExistingFilters_spec rt h
  rw [List.length_map, length_renamed hids.length_eq] at hsize
  exact ⟨_, written_renamed hids hsize, rfl⟩

/-- What was written is entered again as it is. -/
theorem Written.entered_eq {cs : List CleanFilter} (h : Written (F := F) cs)
    (hupper : rt.UpperAscii) (ttlSeconds : ℤ) {ds : List CleanFilter} (hds : ds ⊆ cs) :
    entered rt ttlSeconds (ds.map CleanFilter.toDict) = ds.map fun c => (c.key, c.toDict, c) := by
  rw [entered, List.filterMap_map, ← List.filterMap_eq_map]
  apply List.filterMap_congr
  intro c hc
  have hclean := h.clean c (hds hc)
  have hsanitize := sanitize_toDict rt
    (fun m hm => upper_method rt hupper m (hclean.condition.methods m hm)) hclean
    (h.settled c (hds hc)) ttlSeconds
  have hentry : entryOf rt ttlSeconds (c.toDict : PyDict F) = some (c.key, c) := by
    simp only [entryOf, hsanitize, h.matcher c (hds hc), filterKey_toDict, if_true,
      if_neg (key_ne_idOnly hclean.id.nonempty)]
  simp only [Function.comp, hentry, Option.map_some]

theorem baseId_toDict (hne : c.id ≠ []) (hid : safeId c.id = c.id) :
    baseId rt (c.toDict : PyDict F) = .ok c.id := by
  have htruth : rt.truth (.str c.id) = true := by
    show (!c.id.isEmpty) = true
    simpa using hne
  have hbase : baseId rt (c.toDict : PyDict F) = .ok (safeId c.id) := if_pos htruth
  rw [hbase, hid]

/-- Filters in front whose ids are distinct and not taken keep them. -/
theorem uniqueFilterIdsFrom_keeps {seen : List PyStr} {front : List CleanFilter}
    {rest out : List (PyDict F)}
    (h : uniqueFilterIdsFrom rt seen (front.map CleanFilter.toDict ++ rest) = .ok out)
    (hne : ∀ c ∈ front, c.id ≠ []) (hsettled : ∀ c ∈ front, safeId c.id = c.id)
    (hnodup : (front.map CleanFilter.id).Nodup) (hfree : ∀ c ∈ front, c.id ∉ seen) :
    ∃ ids, out = front.map CleanFilter.toDict ++ withIds rest ids ∧
      ∀ id ∈ ids, id ∉ seen ∧ id ∉ front.map CleanFilter.id := by
  induction front generalizing seen out with
  | nil =>
    obtain ⟨ids, -, hout, -, hfresh, -⟩ := uniqueFilterIdsFrom_spec rt h
    exact ⟨ids, hout, fun id hid => ⟨hfresh id hid, List.not_mem_nil⟩⟩
  | cons c front ih =>
    have hbase : baseId rt (c.toDict : PyDict F) = .ok c.id :=
      baseId_toDict (hne c List.mem_cons_self) (hsettled c List.mem_cons_self)
    have hown : freeId seen c.id = c.id := if_neg (hfree c List.mem_cons_self)
    rw [List.map_cons, List.nodup_cons] at hnodup
    simp only [List.map_cons, List.cons_append, uniqueFilterIdsFrom, bind_eq_ok_iff] at h
    obtain ⟨base, hbase', unique, hunique, hout⟩ := h
    obtain rfl := Except.ok.inj (hbase.symm.trans hbase')
    rw [hown] at hunique hout
    obtain rfl := Except.ok.inj hout
    obtain ⟨ids, rfl, hids⟩ := ih hunique (fun d hd => hne d (List.mem_cons_of_mem _ hd))
      (fun d hd => hsettled d (List.mem_cons_of_mem _ hd)) hnodup.2 (fun d hd => by
        rw [List.mem_cons, not_or]
        refine ⟨fun heq => hnodup.1 (heq ▸ List.mem_map_of_mem hd), ?_⟩
        exact hfree d (List.mem_cons_of_mem _ hd))
    refine ⟨ids, rfl, fun id hid => ?_⟩
    obtain ⟨hseen, hfront⟩ := hids id hid
    rw [List.mem_cons, not_or] at hseen
    refine ⟨hseen.2, ?_⟩
    rw [List.map_cons, List.mem_cons, not_or]
    exact ⟨hseen.1, hfront⟩

/-- One of `items` is entered under the key of `r`. -/
def Resent (rt : Runtime F) (ttlSeconds : ℤ) (items : List (PyDict F)) (r : PyDict F) : Prop :=
  ∃ key, filterKey rt r = .ok key ∧ key ∈ (entered rt ttlSeconds items).map Prod.fst

/-- The items after a rule fill the file on their own. -/
def PushedOut (rt : Runtime F) (ttlSeconds maxFilters : ℤ) (later : List (PyDict F)) : Prop :=
  (max 1 maxFilters).toNat ≤ (PyDict.lastPerKey (entered rt ttlSeconds later)).length

/-- What the next merge keeps, around a rule that is neither sent again nor
pushed out. -/
theorem Written.kept_eq {before after : List CleanFilter}
    (h : Written (F := F) (before ++ c :: after)) (hupper : rt.UpperAscii)
    {newFilters : List (PyDict F)} (hresent : ¬ Resent rt ttlSeconds newFilters c.toDict)
    (hroom : ¬ PushedOut rt ttlSeconds maxFilters (after.map CleanFilter.toDict ++ newFilters)) :
    ∃ (front : List CleanFilter) (later : List (PyDict F × CleanFilter)),
      front.Sublist before ∧
      kept rt ttlSeconds maxFilters
          ((before ++ c :: after).map CleanFilter.toDict ++ newFilters) =
        (front.map fun d => (d.toDict, d)) ++ (c.toDict, c) :: later := by
  have happend : ∀ a b : List (PyDict F), entered rt ttlSeconds (a ++ b) =
      entered rt ttlSeconds a ++ entered rt ttlSeconds b := fun _ _ => List.filterMap_append
  have hafter := h.entered_eq hupper ttlSeconds fun d (hd : d ∈ after) =>
    List.mem_append_right before (List.mem_cons_of_mem c hd)
  have hall : entered rt ttlSeconds
      ((before ++ c :: after).map CleanFilter.toDict ++ newFilters) =
      before.map (fun d => (d.key, d.toDict, d)) ++ (c.key, c.toDict, c) ::
        entered rt ttlSeconds (after.map CleanFilter.toDict ++ newFilters) := by
    rw [happend, h.entered_eq hupper _ (List.Subset.refl _), happend, hafter, List.map_append,
      List.map_cons, List.append_assoc, List.cons_append]
  -- the key of `c` does not come again
  have hlast : c.key ∉
      (entered rt ttlSeconds (after.map CleanFilter.toDict ++ newFilters)).map Prod.fst := by
    rw [happend, hafter, List.map_append, List.mem_append, not_or]
    constructor
    · have hkeys := h.keys
      rw [List.map_append, List.map_cons] at hkeys
      have hfresh := (List.nodup_cons.mp hkeys.of_append_right).1
      rw [List.map_map]
      exact hfresh
    · exact fun hmem => hresent ⟨c.key, filterKey_toDict rt c, hmem⟩
  obtain ⟨front, hfront, hkept⟩ := lastItems_append_cons
    ((PyDict.lastPerKey (before.map fun d => (d.key, d.toDict, d))).filter
      fun item => decide (item.1 ∉ ((c.key, c.toDict, c) :: entered rt ttlSeconds
        (after.map CleanFilter.toDict ++ newFilters)).map Prod.fst))
    (c.key, c.toDict, c) (not_le.mp hroom)
  -- and what stands before it comes from `before`
  have hsub := (hfront.sublist.trans List.filter_sublist).trans (PyDict.lastPerKey_sublist _)
  obtain ⟨ds, hds, rfl⟩ := List.sublist_map_iff.mp hsub
  refine ⟨ds, (PyDict.lastPerKey (entered rt ttlSeconds
    (after.map CleanFilter.toDict ++ newFilters))).map Prod.snd, hds, ?_⟩
  rw [kept, hall, PyDict.lastPerKey_append, PyDict.lastPerKey, if_neg hlast, hkept,
    List.map_append, List.map_cons, List.map_map]
  rfl

/-- **An id names a rule until the rule is gone.** A rule of the next file with
the id of a rule of this one has its key, unless this file's rule was displaced
by a new filter or pushed out at the cap. -/
theorem ids_name_rules_until_displaced {existing new₁ new₂ file₁ file₂ before after :
      List (PyDict F)} {r₁ r₂ : PyDict F} {ttlSeconds maxFilters : ℤ} (hupper : rt.UpperAscii)
    (h₁ : mergeExistingFilters rt existing new₁ ttlSeconds maxFilters = .ok file₁)
    (h₂ : mergeExistingFilters rt file₁ new₂ ttlSeconds maxFilters = .ok file₂)
    (hsize : file₁.length + 2 < 10 ^ 95) (hr₁ : file₁ = before ++ r₁ :: after)
    (hr₂ : r₂ ∈ file₂) (hid : r₁.getD "id" .none = r₂.getD "id" .none) :
    filterKey rt r₁ = filterKey rt r₂ ∨ Resent rt ttlSeconds new₂ r₁ ∨
      PushedOut rt ttlSeconds maxFilters (after ++ new₂) := by
  by_cases hresent : Resent rt ttlSeconds new₂ r₁
  · exact Or.inr (Or.inl hresent)
  by_cases hroom : PushedOut rt ttlSeconds maxFilters (after ++ new₂)
  · exact Or.inr (Or.inr hroom)
  left
  obtain ⟨cs, hcs, rfl⟩ := written_merge h₁ hsize
  obtain ⟨before, rest, rfl, rfl, hrest⟩ := List.map_eq_append_iff.mp hr₁
  obtain ⟨c, after, rfl, rfl, rfl⟩ := List.map_eq_cons_iff.mp hrest
  obtain ⟨front, later, hfront, hkept⟩ := hcs.kept_eq hupper hresent hroom
  -- the rule stands behind rules of this file only, so it keeps its id
  have hsub : (front ++ [c]).Sublist (before ++ c :: after) :=
    hfront.append (List.Sublist.cons_cons c (List.nil_sublist after))
  have hmem : ∀ d ∈ front ++ [c], d ∈ before ++ c :: after := fun d hd => hsub.subset hd
  simp only [mergeExistingFilters, bind_eq_ok_iff] at h₂
  obtain ⟨merged₀, hm₀, merged, hm, hout⟩ := h₂
  rw [lastItems_merged rt hm₀ hm, hkept] at hout
  have hsplit : (((front.map fun d : CleanFilter => (d.toDict, d)) ++ (c.toDict, c) :: later).map
      fun p : PyDict F × CleanFilter => (p.2.toDict : PyDict F)) =
      (front ++ [c]).map CleanFilter.toDict ++ later.map fun p => p.2.toDict := by
    simp
  rw [hsplit] at hout
  obtain ⟨ids, rfl, hids⟩ := uniqueFilterIdsFrom_keeps hout
    (fun d hd => (hcs.clean d (hmem d hd)).id.nonempty) (fun d hd => hcs.settled d (hmem d hd))
    (hcs.ids.sublist (hsub.map _)) (fun _ _ => List.not_mem_nil)
  rcases List.mem_append.mp hr₂ with hr₂ | hr₂
  · obtain ⟨d, hd, rfl⟩ := List.mem_map.mp hr₂
    have hsame : c.id = d.id := PyValue.str.inj hid
    have hcd : c = d := List.inj_on_of_nodup_map hcs.ids (hmem c (by simp)) (hmem d hd) hsame
    rw [hcd]
  · rw [withIds_clean] at hr₂
    obtain ⟨d, hd, rfl⟩ := List.mem_map.mp hr₂
    obtain ⟨p, -, id, hidmem, rfl⟩ := mem_renamed hd
    have hsame : c.id = id := PyValue.str.inj hid
    exact absurd (by simp [hsame]) (hids id hidmem).2

end Stable

/-! ## An id that changes hands -/

/-- An interpreter without floats, with the upper case of ASCII text. -/
def asciiRuntime : Runtime Empty := { bareRuntime with upper := List.map asciiUpper }

/-- A learned filter for one path shape. -/
def shapeFilter (id shape : String) : PyDict Empty :=
  [(py "id", .str (py id)), (py "condition", .dict [(py "path_shape", .str (py shape))])]

/-- What a merge makes of it. -/
def shapeRule (id shape : String) : CleanFilter :=
  ⟨py id, true, 100, 60, ⟨none, none, none, none, some (py shape), none, none, [], []⟩⟩

/-- A file of one rule: the second filter pushes the first one out and takes its
id. -/
theorem id_reused_after_displacement :
    ∃ file₁ file₂ r₁ r₂,
      mergeExistingFilters asciiRuntime [] [shapeFilter "scan" "/:num"] 60 1 = .ok file₁ ∧
      mergeExistingFilters asciiRuntime file₁ [shapeFilter "scan" "/a/:hex"] 60 1 = .ok file₂ ∧
      r₁ ∈ file₁ ∧ r₂ ∈ file₂ ∧ r₁.getD "id" .none = r₂.getD "id" .none ∧
      filterKey asciiRuntime r₁ ≠ filterKey asciiRuntime r₂ := by
  refine ⟨[(shapeRule "scan" "/:num").toDict], [(shapeRule "scan" "/a/:hex").toDict], _, _,
    rfl, rfl, List.mem_singleton_self _, List.mem_singleton_self _, rfl, ?_⟩
  intro h
  exact absurd (Except.ok.inj h) (by decide)

/-- With room for both, the second filter gets a number and the first keeps its
id. -/
theorem id_kept_with_room :
    ∃ file₁ file₂ r₁ r₂,
      mergeExistingFilters asciiRuntime [] [shapeFilter "scan" "/:num"] 60 2 = .ok file₁ ∧
      mergeExistingFilters asciiRuntime file₁ [shapeFilter "scan" "/a/:hex"] 60 2 = .ok file₂ ∧
      r₁ ∈ file₁ ∧ r₂ ∈ file₂ ∧ r₁.getD "id" .none = r₂.getD "id" .none ∧
      filterKey asciiRuntime r₁ = filterKey asciiRuntime r₂ := by
  have h₁ : mergeExistingFilters asciiRuntime [] [shapeFilter "scan" "/:num"] 60 2 =
    .ok [(shapeRule "scan" "/:num").toDict] := rfl
  have h₂ : mergeExistingFilters asciiRuntime [(shapeRule "scan" "/:num").toDict]
    [shapeFilter "scan" "/a/:hex"] 60 2 =
    .ok [(shapeRule "scan" "/:num").toDict, (shapeRule "scan-2" "/a/:hex").toDict] := rfl
  refine ⟨_, _, (shapeRule "scan" "/:num").toDict, (shapeRule "scan" "/:num").toDict, h₁, h₂,
    List.mem_cons_self, List.mem_cons_self, rfl, ?_⟩
  rcases ids_name_rules_until_displaced (fun _ _ => rfl) h₁ h₂ (by decide)
    (List.nil_append _).symm List.mem_cons_self rfl with hkey | hresent | hroom
  · exact hkey
  · exfalso
    obtain ⟨key, hkey, hmem⟩ := hresent
    obtain rfl := Except.ok.inj hkey
    have hnew : (entered asciiRuntime 60 [shapeFilter "scan" "/a/:hex"]).map Prod.fst =
      [py "path_shape:/a/:hex"] := rfl
    rw [hnew] at hmem
    exact absurd hmem (by decide)
  · exact absurd hroom (by decide : ¬ (2 ≤ 1))

end AlturaProt.Analyzer
