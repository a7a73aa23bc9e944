import AlturaProt.Analyzer.Sanitize
import AlturaProt.Foundation.FreshName

/-!
# Merging learned filters

`merge_existing_filters` of `tools/codex_analyzer.py`: every old and every new
filter is sanitized and entered under its key, where it displaces the entry the
key had and moves to the end. The last `max_filters` entries are kept and get
pairwise distinct ids.

`mergeExistingFilters_spec` says what a merge returns: the sanitized forms of
the items of `kept`, which is the last item of every key and of these the last
`max_filters`, under new ids. The search for a free id ends, since the
candidates of one base are pairwise distinct.
-/

namespace AlturaProt.Analyzer

open Foundation Python

section Merge

variable {F : Type} (rt : Runtime F)

/-! ## Distinct ids -/

/-- The base cut to make room for the number. -/
def numbered (base : PyStr) (suffix : ℕ) : PyStr :=
  let tail := dash :: decimal suffix
  strip dash (sliceTo base ((FILTER_RULE_ID_MAX_BYTES : ℤ) - tail.length) ++ tail)

/-- The base itself if it is free, else the first numbered form that is. -/
def freeId (seen : List PyStr) (base : PyStr) : PyStr :=
  if base ∈ seen then firstFree (numbered base) seen seen.length 2 else base

def baseId (item : PyDict F) : Except PyError PyStr :=
  let id := item.getD "id" .none
  if rt.truth id then do
    let text ← rt.toStr id
    return safeId text
  else .ok (safeId (py "codex-learned-filter"))

/-- The loop of `unique_filter_ids`, with the ids given so far. -/
def uniqueFilterIdsFrom : List PyStr → List (PyDict F) → Except PyError (List (PyDict F))
  | _, [] => .ok []
  | seen, item :: rest => do
      let base ← baseId rt item
      let candidate := freeId seen base
      let unique ← uniqueFilterIdsFrom (candidate :: seen) rest
      return item.set "id" (.str candidate) :: unique

def uniqueFilterIds (filters : List (PyDict F)) : Except PyError (List (PyDict F)) :=
  uniqueFilterIdsFrom rt [] filters

/-- After the last dash of a numbered id stands its number. -/
theorem numbered_eq (base : PyStr) (suffix : ℕ) :
    ∃ front, numbered base suffix = front ++ decimal suffix ∧
      (∀ c ∈ front, c ∈ base ∨ c = dash) ∧ (front = [] ∨ ∃ init, front = init ++ [dash]) := by
  have hdash : dash ∉ decimal suffix := by
    intro h
    have := (mem_decimal h).1
    unfold dash at this
    omega
  have hstrip := strip_append (u := sliceTo base
    ((FILTER_RULE_ID_MAX_BYTES : ℤ) - (dash :: decimal suffix).length) ++ [dash])
    (decimal_ne_nil suffix) hdash
  rw [List.append_assoc, List.singleton_append] at hstrip
  refine ⟨_, hstrip, ?_, ?_⟩
  · intro c hc
    rcases List.mem_append.mp ((List.dropWhile_suffix _).subset hc) with hc | hc
    · exact Or.inl (mem_of_mem_sliceTo hc)
    · exact Or.inr (List.mem_singleton.mp hc)
  · rw [List.dropWhile_append]
    split
    · left
      simp
    · right
      exact ⟨_, rfl⟩

/-- The candidates for one base are pairwise distinct. -/
theorem numbered_injective (base : PyStr) : Function.Injective (numbered base) := by
  -- the number is what stands after the last dash
  have hnumber : ∀ k, ((numbered base k).reverse.takeWhile (· != dash)).reverse =
      decimal k := by
    intro k
    obtain ⟨front, heq, -, hfront⟩ := numbered_eq base k
    have hall : ∀ c ∈ (decimal k).reverse, (c != dash) = true := by
      intro c hc
      have := (mem_decimal (List.mem_reverse.mp hc)).1
      unfold dash
      rw [bne_iff_ne]
      omega
    rw [heq, List.reverse_append, List.takeWhile_append_of_pos hall]
    rcases hfront with rfl | ⟨init, rfl⟩ <;> simp
  intro a b h
  apply decimal_injective
  rw [← hnumber a, h, hnumber b]

/-- The search for a free id succeeds. -/
theorem freeId_notMem (seen : List PyStr) (base : PyStr) : freeId seen base ∉ seen := by
  unfold freeId
  split
  · exact firstFree_notMem (numbered_injective base) seen 2
  · assumption

theorem isSafePoint_decimal {n c : ℕ} (h : c ∈ decimal n) : isSafePoint c = true := by
  have hc := mem_decimal h
  simp [isSafePoint, isDigitPoint, hc]

variable {base : PyStr} {item : PyDict F} {ttlSeconds maxFilters : ℤ}
  {items : List (PyDict F × CleanFilter)} {ids : List PyStr}

theorem numbered_safe (hbase : ∀ c ∈ base, isSafePoint c = true) {k : ℕ} (hk : k < 10 ^ 95) :
    SafeId (numbered base k) := by
  obtain ⟨front, heq, hfront, -⟩ := numbered_eq base k
  refine ⟨?_, ?_, fun c hc => ?_⟩
  · rw [heq]
    simp [decimal_ne_nil]
  · have hlen : (dash :: decimal k).length ≤ FILTER_RULE_ID_MAX_BYTES := by
      have := length_decimal_le (by decide) hk
      rw [List.length_cons]
      unfold FILTER_RULE_ID_MAX_BYTES
      omega
    refine (length_strip_le _ _).trans ?_
    rw [List.length_append, ← Nat.cast_sub hlen]
    have := @length_sliceTo_le base (FILTER_RULE_ID_MAX_BYTES - (dash :: decimal k).length)
    omega
  · rw [heq] at hc
    rcases List.mem_append.mp hc with hc | hc
    · rcases hfront c hc with hc | rfl
      · exact hbase c hc
      · decide
    · exact isSafePoint_decimal hc

/-- The ids given out are those that sanitizing leaves as they are. -/
theorem safeId_freeId {seen : List PyStr} (hbase : safeId base = base)
    (hseen : seen.length + 2 < 10 ^ 95) : safeId (freeId seen base) = freeId seen base := by
  have hsafe := safeId_safe base
  rw [hbase] at hsafe
  unfold freeId
  split
  · obtain ⟨k, -, hk, heq⟩ := firstFree_eq (numbered base) seen seen.length 2
    rw [heq]
    exact (numbered_safe hsafe.safe (by omega)).safeId_eq (strip_strip _ _)
  · exact hbase

theorem safeId_baseId (h : baseId rt item = .ok base) : safeId base = base := by
  unfold baseId at h
  dsimp only at h
  split at h
  · obtain ⟨text, -, htext⟩ := bind_eq_ok_iff.mp h
    obtain rfl := Except.ok.inj htext
    exact safeId_safeId text
  · obtain rfl := Except.ok.inj h
    exact safeId_safeId _

/-- Items with their new ids. -/
def withIds (filters : List (PyDict F)) (ids : List PyStr) : List (PyDict F) :=
  (filters.zip ids).map fun p => p.1.set "id" (.str p.2)

/-- **Distinct ids.** Every filter keeps its place and gets an id of its own.
A list of bounded length leaves room for the largest suffix. -/
theorem uniqueFilterIdsFrom_spec {seen : List PyStr} {filters out : List (PyDict F)}
    (h : uniqueFilterIdsFrom rt seen filters = .ok out) :
    ∃ ids, ids.length = filters.length ∧ out = withIds filters ids ∧ ids.Nodup ∧
      (∀ id ∈ ids, id ∉ seen) ∧
      (seen.length + filters.length + 2 < 10 ^ 95 → ∀ id ∈ ids, safeId id = id) := by
  induction filters generalizing seen out with
  | nil =>
    obtain rfl := Except.ok.inj h
    exact ⟨[], rfl, rfl, List.nodup_nil, by simp, by simp⟩
  | cons item rest ih =>
    simp only [uniqueFilterIdsFrom, bind_eq_ok_iff] at h
    obtain ⟨base, hbase, unique, hunique, hout⟩ := h
    obtain rfl := Except.ok.inj hout
    obtain ⟨ids, hidlen, rfl, hnodup, hfresh, hsettled⟩ := ih hunique
    refine ⟨freeId seen base :: ids, by simp [hidlen], rfl, ?_, ?_, ?_⟩
    · exact List.nodup_cons.mpr ⟨fun hmem => hfresh _ hmem List.mem_cons_self, hnodup⟩
    · intro id hid
      rcases List.mem_cons.mp hid with rfl | hid
      · exact freeId_notMem seen base
      · exact fun hseen => hfresh id hid (List.mem_cons_of_mem _ hseen)
    · intro hlen id hid
      rw [List.length_cons] at hlen
      rcases List.mem_cons.mp hid with rfl | hid
      · exact safeId_freeId (safeId_baseId rt hbase) (by omega)
      · exact hsettled (by rw [List.length_cons]; omega) id hid

/-! ## The merge -/

def filterHasMatcher (item : PyDict F) : Bool :=
  match item.lookup (py "condition") with
  | some (.dict condition) => !condition.isEmpty
  | _ => false

/-- The key of an item that is known by its id only. -/
def idKey (item : PyDict F) : Except PyError PyStr := do
  let id ← rt.toStr (item.getD "id" (.str []))
  return py "id:" ++ id

def filterKey (item : PyDict F) : Except PyError PyStr :=
  match item.getD "condition" (.dict []) with
  | .dict condition =>
    match condition.lookup (py "signature"), condition.lookup (py "path_shape") with
    | some (.str signature), _ => .ok (py "signature:" ++ signature)
    | _, some (.str pathShape) => .ok (py "path_shape:" ++ pathShape)
    | _, _ => idKey rt item
  | _ => idKey rt item

/-- The filters by key, in order of insertion. -/
abbrev Merged (F : Type) : Type := List (PyStr × PyDict F)

def upsert (ttlSeconds : ℤ) (merged : Merged F) (item : PyDict F) :
    Except PyError (Merged F) := do
  let clean ← sanitizeFilter rt item ttlSeconds
  if filterHasMatcher clean then
    let key ← filterKey rt clean
    if key = py "id:" then return merged
    return PyDict.moveToEnd merged key clean
  else return merged

def mergeExistingFilters (existing newFilters : List (PyDict F)) (ttlSeconds maxFilters : ℤ) :
    Except PyError (List (PyDict F)) := do
  let merged ← existing.foldlM (upsert rt ttlSeconds) []
  let merged ← newFilters.foldlM (upsert rt ttlSeconds) merged
  uniqueFilterIds rt (lastItems (max 1 maxFilters).toNat (merged.map Prod.snd))

/-! ## Which items a merge keeps -/

/-- The key an item is entered under and its sanitized form; `none` if it is
left out. -/
def entryOf (ttlSeconds : ℤ) (item : PyDict F) : Option (PyStr × CleanFilter) :=
  match sanitize rt item ttlSeconds with
  | .error _ => none
  | .ok c =>
    if filterHasMatcher (F := F) c.toDict then
      match filterKey (F := F) rt c.toDict with
      | .error _ => none
      | .ok key => if key = py "id:" then none else some (key, c)
    else none

/-- The items that are entered, by key, each with its sanitized form. -/
def entered (ttlSeconds : ℤ) (items : List (PyDict F)) :
    List (PyStr × PyDict F × CleanFilter) :=
  items.filterMap fun item => (entryOf rt ttlSeconds item).map fun p => (p.1, item, p.2)

/-- Of every key the last item, and of these the last `max_filters`. -/
def kept (ttlSeconds maxFilters : ℤ) (items : List (PyDict F)) : List (PyDict F × CleanFilter) :=
  (lastItems (max 1 maxFilters).toNat (PyDict.lastPerKey (entered rt ttlSeconds items))).map
    Prod.snd

/-- The items that a merge keeps. -/
def survivors (ttlSeconds maxFilters : ℤ) (items : List (PyDict F)) : List (PyDict F) :=
  (kept rt ttlSeconds maxFilters items).map Prod.fst

theorem length_kept_le (ttlSeconds maxFilters : ℤ) (items : List (PyDict F)) :
    (kept rt ttlSeconds maxFilters items).length ≤ (max 1 maxFilters).toNat := by
  rw [kept, List.length_map]
  exact length_lastItems_le _ _

theorem entryOf_eq_some {key : PyStr} {c : CleanFilter}
    (h : entryOf rt ttlSeconds item = some (key, c)) :
    sanitize rt item ttlSeconds = .ok c ∧ filterHasMatcher (F := F) c.toDict = true ∧
      filterKey (F := F) rt c.toDict = .ok key := by
  unfold entryOf at h
  split at h
  · cases h
  · rename_i c' hc
    split at h
    · rename_i hmatcher
      split at h
      · cases h
      · rename_i key' hkey
        split at h
        · cases h
        · cases h
          exact ⟨hc, hmatcher, hkey⟩
    · cases h

variable {merged : Merged F}

/-- What one item does to the entries. -/
theorem upsert_eq {merged' : Merged F} (h : upsert rt ttlSeconds merged item = .ok merged') :
    merged' = (entryOf rt ttlSeconds item).elim merged fun p =>
      PyDict.moveToEnd merged p.1 p.2.toDict := by
  simp only [upsert, sanitizeFilter, bind_eq_ok_iff] at h
  obtain ⟨clean, ⟨c, hc, hclean⟩, h⟩ := h
  obtain rfl := Except.ok.inj hclean
  unfold entryOf
  simp only [hc]
  split at h
  · rename_i hmatcher
    obtain ⟨key, hkey, h⟩ := bind_eq_ok_iff.mp h
    simp only [hmatcher, if_true, hkey]
    split at h
    · rename_i hid
      rw [if_pos hid]
      exact (Except.ok.inj h).symm
    · rename_i hid
      rw [if_neg hid]
      exact (Except.ok.inj h).symm
  · rename_i hmatcher
    simp only [hmatcher]
    exact (Except.ok.inj h).symm

/-- The loop over the items enters one after the other. -/
theorem foldlM_upsert_eq {items : List (PyDict F)} {merged' : Merged F}
    (h : items.foldlM (upsert rt ttlSeconds) merged = .ok merged') :
    merged' = ((entered rt ttlSeconds items).map fun p => (p.1, p.2.2.toDict)).foldl
      (fun d p => PyDict.moveToEnd d p.1 p.2) merged := by
  induction items generalizing merged with
  | nil =>
    obtain rfl := Except.ok.inj h
    rfl
  | cons item rest ih =>
    rw [List.foldlM_cons, bind_eq_ok_iff] at h
    obtain ⟨merged₁, hitem, hrest⟩ := h
    rw [ih hrest, upsert_eq rt hitem, entered, entered, List.filterMap_cons]
    cases entryOf rt ttlSeconds item <;> rfl

/-- The entries the merge keeps, as sanitized dictionaries. -/
theorem lastItems_merged {existing newFilters : List (PyDict F)} {merged₀ : Merged F}
    (h₀ : existing.foldlM (upsert rt ttlSeconds) [] = .ok merged₀)
    (h : newFilters.foldlM (upsert rt ttlSeconds) merged₀ = .ok merged) :
    lastItems (max 1 maxFilters).toNat (merged.map Prod.snd) =
      (kept rt ttlSeconds maxFilters (existing ++ newFilters)).map fun p => p.2.toDict := by
  have hall : entered rt ttlSeconds (existing ++ newFilters) =
      entered rt ttlSeconds existing ++ entered rt ttlSeconds newFilters :=
    List.filterMap_append
  have hmerged : merged = (PyDict.lastPerKey (entered rt ttlSeconds (existing ++ newFilters))).map
      fun p => (p.1, p.2.2.toDict) := by
    rw [foldlM_upsert_eq rt h, foldlM_upsert_eq rt h₀, ← List.foldl_append, ← List.map_append,
      ← hall, PyDict.foldl_moveToEnd, List.filter_nil, List.nil_append]
    exact PyDict.lastPerKey_map (fun v : PyDict F × CleanFilter => v.2.toDict) _
  rw [hmerged, List.map_map, lastItems_map, kept, List.map_map]
  rfl

theorem entryOf_of_mem_entered {items : List (PyDict F)} {entry : PyStr × PyDict F × CleanFilter}
    (h : entry ∈ entered rt ttlSeconds items) :
    entryOf rt ttlSeconds entry.2.1 = some (entry.1, entry.2.2) := by
  obtain ⟨item, -, hitem⟩ := List.mem_filterMap.mp h
  obtain ⟨q, hq, rfl⟩ := Option.map_eq_some_iff.mp hitem
  exact hq

/-- A kept item with its sanitized form. -/
theorem sanitize_of_mem_kept {items : List (PyDict F)} {p : PyDict F × CleanFilter}
    (h : p ∈ kept rt ttlSeconds maxFilters items) :
    sanitize rt p.1 ttlSeconds = .ok p.2 ∧ filterHasMatcher (F := F) p.2.toDict = true := by
  obtain ⟨entry, hentry, rfl⟩ := List.mem_map.mp h
  have hmem := PyDict.lastPerKey_subset _ (List.mem_of_mem_drop hentry)
  obtain ⟨hsanitize, hmatcher, -⟩ := entryOf_eq_some rt (entryOf_of_mem_entered rt hmem)
  exact ⟨hsanitize, hmatcher⟩

/-- A sanitized filter under another id. -/
def CleanFilter.rename (c : CleanFilter) (id : PyStr) : CleanFilter := { c with id := id }

/-- The sanitized forms of kept items under new ids. -/
def renamed (items : List (PyDict F × CleanFilter)) (ids : List PyStr) : List CleanFilter :=
  (items.zip ids).map fun p => p.1.2.rename p.2

theorem mem_renamed {c : CleanFilter} (h : c ∈ renamed items ids) :
    ∃ p ∈ items, ∃ id ∈ ids, c = p.2.rename id := by
  obtain ⟨q, hq, rfl⟩ := List.mem_map.mp h
  obtain ⟨hp, hid⟩ := List.of_mem_zip hq
  exact ⟨q.1, hp, q.2, hid, rfl⟩

theorem renamed_ids (h : ids.length = items.length) :
    (renamed items ids).map CleanFilter.id = ids := by
  rw [renamed, List.map_map]
  exact List.map_snd_zip h.le

theorem renamed_priorities (h : ids.length = items.length) :
    (renamed items ids).map CleanFilter.priority = items.map fun p => p.2.priority := by
  have hfst := List.map_fst_zip h.ge
  conv_rhs => rw [← hfst, List.map_map]
  rw [renamed, List.map_map]
  rfl

theorem withIds_clean (items : List (PyDict F × CleanFilter)) (ids : List PyStr) :
    withIds (F := F) (items.map fun p => p.2.toDict) ids =
      (renamed items ids).map CleanFilter.toDict := by
  rw [withIds, renamed, List.zip_map_left, List.map_map, List.map_map]
  rfl

/-- New ids for a list of filters. -/
structure NewIds (n : ℕ) (ids : List PyStr) : Prop where
  length_eq : ids.length = n
  nodup : ids.Nodup
  settled : n + 2 < 10 ^ 95 → ∀ id ∈ ids, safeId id = id

theorem NewIds.safe {n : ℕ} (h : NewIds n ids) (hn : n + 2 < 10 ^ 95) : ∀ id ∈ ids, SafeId id := by
  intro id hid
  have hsafe := safeId_safe id
  rwa [h.settled hn id hid] at hsafe

/-- **What a merge returns.** The sanitized forms of the kept items, in order,
under pairwise distinct ids. -/
theorem mergeExistingFilters_spec {existing newFilters out : List (PyDict F)}
    (h : mergeExistingFilters rt existing newFilters ttlSeconds maxFilters = .ok out) :
    ∃ ids, NewIds (kept rt ttlSeconds maxFilters (existing ++ newFilters)).length ids ∧
      out = (renamed (kept rt ttlSeconds maxFilters (existing ++ newFilters)) ids).map
        CleanFilter.toDict := by
  simp only [mergeExistingFilters, bind_eq_ok_iff] at h
  obtain ⟨merged₀, h₀, merged, h₁, hout⟩ := h
  rw [lastItems_merged rt h₀ h₁] at hout
  obtain ⟨ids, hidlen, rfl, hnodup, -, hsettled⟩ := uniqueFilterIdsFrom_spec rt hout
  rw [List.length_map] at hidlen hsettled
  refine ⟨ids, ⟨hidlen, hnodup, fun hlen => hsettled ?_⟩, withIds_clean _ _⟩
  rwa [List.length_nil, Nat.zero_add]

end Merge

end AlturaProt.Analyzer
