import AlturaProt.Analyzer.Repeat
import AlturaProt.Foundation.PyText

/-!
# Order and ids of a merge

Apart from ids, what `merge_existing_filters` returns is read off its input
(`merge_keeps_most_recent`): the sanitized items that have a matcher, of every key the last,
and of these the last `max_filters`. No sanitized filter is left out for its key, since an
id that sanitizing has returned is not empty.

`unique_filter_ids` goes through its list once and asks `str` for the text of every id
(`unique_filter_ids_distinct`). It raises what `str` raises, which for an integer of too many
digits is a `ValueError`; otherwise it returns, and every loop for a free id ends.
-/

namespace AlturaProt.Analyzer

open Foundation Python

section MergeOrder

variable {F : Type} (rt : Runtime F)

/-! ## Items without their ids -/

/-- An item, ignoring its id. -/
def withoutId (item : PyDict F) : PyDict F := item.filter fun field => field.1 != py "id"

@[simp] theorem withoutId_set (item : PyDict F) (v : PyValue F) :
    withoutId (item.set "id" v) = withoutId item := by
  unfold PyDict.set withoutId
  split
  · rename_i hsome
    clear hsome
    induction item with
    | nil => rfl
    | cons field rest ih =>
      by_cases hid : field.1 = py "id"
      · simpa [hid] using ih
      · simpa [hid] using ih
  · simp

@[simp] theorem lookup_set_id (item : PyDict F) (v : PyValue F) :
    (item.set "id" v).lookup (py "id") = some v := by
  unfold PyDict.set
  split
  · rename_i hsome
    induction item with
    | nil => simp at hsome
    | cons field rest ih =>
      by_cases hid : field.1 = py "id"
      · simp [hid]
      · have hne : (py "id" == field.1) = false := by simpa using Ne.symm hid
        simp only [List.lookup, hne] at hsome
        simpa [List.lookup, hid, hne] using ih hsome
  · rename_i hnone
    simp only [Option.not_isSome_iff_eq_none] at hnone
    simp [List.lookup_append, hnone]

theorem map_withoutId_withIds {filters : List (PyDict F)} {ids : List PyStr}
    (h : ids.length = filters.length) :
    (withIds filters ids).map withoutId = filters.map withoutId := by
  have hfst := List.map_fst_zip h.ge
  conv_rhs => rw [← hfst, List.map_map]
  rw [withIds, List.map_map]
  exact List.map_congr_left fun p _ => withoutId_set p.1 _

theorem lookup_id_withIds {filters : List (PyDict F)} {ids : List PyStr}
    (h : ids.length = filters.length) :
    (withIds filters ids).map (fun item => item.lookup (py "id")) =
      ids.map fun id => some (.str id) := by
  have hsnd := List.map_snd_zip h.le
  conv_rhs => rw [← hsnd, List.map_map]
  rw [withIds, List.map_map]
  exact List.map_congr_left fun p _ => lookup_set_id p.1 _

/-! ## The most recent rule of every key -/

/-- A sanitized filter is never left out for its key. -/
theorem filterKey_ne_idOnly {item clean : PyDict F} {ttlSeconds : ℤ} {key : PyStr}
    (hclean : sanitizeFilter rt item ttlSeconds = .ok clean)
    (hkey : filterKey rt clean = .ok key) : key ≠ py "id:" := by
  obtain ⟨c, hc, hdict⟩ := bind_eq_ok_iff.mp hclean
  obtain rfl := Except.ok.inj hdict
  rw [filterKey_toDict] at hkey
  obtain rfl := Except.ok.inj hkey
  exact key_ne_idOnly (sanitize_clean rt hc).id.nonempty

/-- The sanitized items that have a matcher, each under its key. -/
structure Keyed (ttlSeconds : ℤ) (items : List (PyDict F)) (cleaned : List (PyDict F))
    (keys : List PyStr) : Prop where
  sanitized : items.mapM (sanitizeFilter rt · ttlSeconds) = .ok cleaned
  keyed : (cleaned.filter filterHasMatcher).mapM (filterKey rt) = .ok keys

/-- The loop enters the sanitized items that have a matcher, one after the other. -/
theorem foldlM_upsert_keyed {ttlSeconds : ℤ} {items : List (PyDict F)} {merged merged' : Merged F}
    (h : items.foldlM (upsert rt ttlSeconds) merged = .ok merged') :
    ∃ cleaned keys, Keyed rt ttlSeconds items cleaned keys ∧
      merged' = (keys.zip (cleaned.filter filterHasMatcher)).foldl
        (fun d p => PyDict.moveToEnd d p.1 p.2) merged := by
  induction items generalizing merged with
  | nil =>
    obtain rfl := Except.ok.inj h
    exact ⟨[], [], ⟨rfl, rfl⟩, rfl⟩
  | cons item rest ih =>
    rw [List.foldlM_cons, bind_eq_ok_iff] at h
    obtain ⟨merged₁, hitem, hrest⟩ := h
    obtain ⟨cleaned, keys, hkeyed, rfl⟩ := ih hrest
    simp only [upsert, bind_eq_ok_iff] at hitem
    obtain ⟨clean, hclean, hitem⟩ := hitem
    have hall : (item :: rest).mapM (sanitizeFilter rt · ttlSeconds) =
        .ok (clean :: cleaned) := by
      rw [List.mapM_cons, hclean, hkeyed.sanitized]
      rfl
    split at hitem
    · rename_i hmatcher
      obtain ⟨key, hkey, hitem⟩ := bind_eq_ok_iff.mp hitem
      rw [if_neg (filterKey_ne_idOnly rt hclean hkey)] at hitem
      obtain rfl := Except.ok.inj hitem
      refine ⟨clean :: cleaned, key :: keys, ⟨hall, ?_⟩, ?_⟩
      · rw [List.filter_cons_of_pos hmatcher, List.mapM_cons, hkey, hkeyed.keyed]
        rfl
      · rw [List.filter_cons_of_pos hmatcher]
        rfl
    · rename_i hmatcher
      obtain rfl := Except.ok.inj hitem
      refine ⟨clean :: cleaned, keys, ⟨hall, ?_⟩, ?_⟩
      · rw [List.filter_cons_of_neg hmatcher, hkeyed.keyed]
      · rw [List.filter_cons_of_neg hmatcher]

/-- **A merge keeps the most recent rule of every key.** Ignoring ids, it returns the
sanitized items that have a matcher, of every key the last, in the order of these, and of
them the last `max(1, max_filters)`. -/
theorem merge_keeps_most_recent {existing newFilters out : List (PyDict F)}
    {ttlSeconds maxFilters : ℤ}
    (h : mergeExistingFilters rt existing newFilters ttlSeconds maxFilters = .ok out) :
    ∃ cleaned keys,
      (existing ++ newFilters).mapM (sanitizeFilter rt · ttlSeconds) = .ok cleaned ∧
      (cleaned.filter filterHasMatcher).mapM (filterKey rt) = .ok keys ∧
      out.map withoutId = (lastItems (max 1 maxFilters).toNat
        (PyDict.lastPerKey (keys.zip (cleaned.filter filterHasMatcher)))).map
          fun p => withoutId p.2 := by
  simp only [mergeExistingFilters, bind_eq_ok_iff] at h
  obtain ⟨merged₀, h₀, merged, h₁, hout⟩ := h
  have hall : (existing ++ newFilters).foldlM (upsert rt ttlSeconds) [] = .ok merged := by
    rw [List.foldlM_append, h₀]
    exact h₁
  obtain ⟨cleaned, keys, hkeyed, rfl⟩ := foldlM_upsert_keyed rt hall
  refine ⟨cleaned, keys, hkeyed.sanitized, hkeyed.keyed, ?_⟩
  rw [PyDict.foldl_moveToEnd, List.filter_nil, List.nil_append] at hout
  obtain ⟨ids, hlength, rfl, -⟩ := uniqueFilterIdsFrom_spec rt hout
  rw [map_withoutId_withIds hlength, lastItems_map, List.map_map]
  rfl

/-! ## Every id of its own -/

/-- The ids are given out to the texts that the filters ask for. -/
theorem uniqueFilterIdsFrom_eq (seen : List PyStr) (filters : List (PyDict F)) :
    uniqueFilterIdsFrom rt seen filters =
      (filters.mapM (baseId rt)).map fun bases => withIds filters (allot freeId seen bases) := by
  induction filters generalizing seen with
  | nil => rfl
  | cons item rest ih =>
    rw [uniqueFilterIdsFrom, List.mapM_cons]
    cases baseId rt item with
    | error e => rfl
    | ok base =>
      show (uniqueFilterIdsFrom rt (freeId seen base :: seen) rest >>= _) = _
      rw [ih]
      cases rest.mapM (baseId rt) <;> rfl

/-- The bounded search is the loop of the source, which therefore ends. -/
theorem tries_freeId (seen : List PyStr) (base : PyStr) :
    Tries (numbered base) seen base 2 (freeId seen base) := by
  have hfresh := freeId_notMem seen base
  unfold freeId at hfresh ⊢
  split
  · rename_i hused
    rw [if_pos hused] at hfresh
    exact .taken hused (tries_firstFree hfresh)
  · rename_i hfree
    exact .free hfree

theorem safe_of_mem_allot {bases : List PyStr} (hbases : ∀ base ∈ bases, safeId base = base)
    (hsize : bases.length + 2 < 10 ^ 95) : ∀ id ∈ allot freeId [] bases, SafeId id := by
  intro id hid
  obtain ⟨i, hi⟩ := List.mem_iff_getElem?.mp hid
  rw [getElem?_allot] at hi
  obtain ⟨base, hbase, rfl⟩ := Option.map_eq_some_iff.mp hi
  have hmem := List.mem_of_getElem? hbase
  have hseen : (((allot freeId [] bases).take i).reverse ++ []).length ≤ bases.length := by
    simp
  have hroom : (((allot freeId [] bases).take i).reverse ++ []).length + 2 < 10 ^ 95 := by
    omega
  rw [← safeId_freeId (hbases base hmem) hroom]
  exact safeId_safe _

/-- **Every filter gets an id of its own.** The function raises exactly what `str` raises for
one of the ids. Otherwise every loop for a free id ends, the list keeps its length and order,
the ids are distinct and safe, and a filter whose sanitized id was not given out before keeps
it. No list of the interpreter has `2^63` items. -/
theorem unique_filter_ids_distinct {filters : List (PyDict F)} (hsize : filters.length < 2 ^ 63) :
    (∀ e, uniqueFilterIds rt filters = .error e ↔ filters.mapM (baseId rt) = .error e) ∧
    ∀ bases, filters.mapM (baseId rt) = .ok bases →
      ∃ (out : List (PyDict F)) (ids : List PyStr), uniqueFilterIds rt filters = .ok out ∧
        out.map withoutId = filters.map withoutId ∧
        out.map (fun item => item.lookup (py "id")) = ids.map (fun id => some (.str id)) ∧
        ids.Nodup ∧ (∀ id ∈ ids, SafeId id) ∧
        ∀ i base id, bases[i]? = some base → ids[i]? = some id →
          Tries (numbered base) (ids.take i) base 2 id ∧ (base ∉ ids.take i → id = base) := by
  have heq := uniqueFilterIdsFrom_eq rt [] filters
  refine ⟨fun e => ?_, fun bases hbases => ?_⟩
  · rw [uniqueFilterIds, heq]
    cases filters.mapM (baseId rt) <;> simp [Except.map]
  · rw [hbases] at heq
    have hlength : bases.length = filters.length := length_of_mapM_ok hbases
    have hids : (allot freeId [] bases).length = filters.length := by
      rw [length_allot, hlength]
    have hsettled : ∀ base ∈ bases, safeId base = base := by
      intro base hbase
      obtain ⟨item, -, hitem⟩ := (mem_of_mapM_ok hbases).1 base hbase
      exact safeId_baseId rt hitem
    refine ⟨_, allot freeId [] bases, heq, map_withoutId_withIds hids, lookup_id_withIds hids,
      (nodup_allot freeId_notMem [] bases).1, safe_of_mem_allot hsettled ?_, ?_⟩
    · omega
    · intro i base id hbase hid
      rw [getElem?_allot, hbase, List.append_nil] at hid
      obtain rfl := Option.some.inj hid
      have hsame : ∀ x, x ∈ ((allot freeId [] bases).take i).reverse ↔
          x ∈ (allot freeId [] bases).take i := fun x => List.mem_reverse
      refine ⟨(tries_freeId _ base).congr hsame, fun hfree => ?_⟩
      exact freeId_own _ base ((hsame base).not.mpr hfree)

end MergeOrder

/-! ## Runs -/

/-- A new rule for a shape displaces the old one. -/
theorem most_recent_shape_kept :
    ∃ out, mergeExistingFilters asciiRuntime [shapeFilter "old" "/s"] [shapeFilter "new" "/s"]
        60 1024 = .ok out ∧
      ∃ cleaned keys,
        ([shapeFilter "old" "/s"] ++ [shapeFilter "new" "/s"]).mapM
          (sanitizeFilter asciiRuntime · 60) = .ok cleaned ∧
        (cleaned.filter filterHasMatcher).mapM (filterKey asciiRuntime) = .ok keys ∧
        out.map withoutId = (lastItems (max 1 (1024 : ℤ)).toNat
          (PyDict.lastPerKey (keys.zip (cleaned.filter filterHasMatcher)))).map
            fun p => withoutId p.2 := by
  obtain ⟨out, hout⟩ : ∃ out, mergeExistingFilters asciiRuntime [shapeFilter "old" "/s"]
    [shapeFilter "new" "/s"] 60 1024 = .ok out := ⟨_, rfl⟩
  exact ⟨out, hout, merge_keeps_most_recent asciiRuntime hout⟩

/-- Two filters that ask for one id. -/
def twoScans : List (PyDict Empty) := [pathFilter "scan" "/a" 1, pathFilter "scan" "/b" 1]

theorem two_scans_get_ids :
    twoScans.length < 2 ^ 63 ∧ twoScans.mapM (baseId asciiRuntime) = .ok [py "scan", py "scan"] ∧
      ∃ (out : List (PyDict Empty)) (ids : List PyStr),
        uniqueFilterIds asciiRuntime twoScans = .ok out ∧
        out.map (fun item => item.lookup (py "id")) = ids.map (fun id => some (.str id)) ∧
        ids.Nodup ∧ ids[0]? = some (py "scan") := by
  have hsize : twoScans.length < 2 ^ 63 := by decide
  have hbases : twoScans.mapM (baseId asciiRuntime) = .ok [py "scan", py "scan"] := rfl
  obtain ⟨out, ids, hout, -, hlookup, hnodup, -, hkeeps⟩ :=
    (unique_filter_ids_distinct asciiRuntime hsize).2 _ hbases
  refine ⟨hsize, hbases, out, ids, hout, hlookup, hnodup, ?_⟩
  -- the first filter finds no id taken
  have hlength : ids.length = 2 := by
    have hout' : out.length = 2 := by
      obtain rfl : _ = out := Except.ok.inj (Eq.trans rfl hout)
      rfl
    simpa [hout'] using (congrArg List.length hlookup).symm
  obtain ⟨id, hid⟩ : ∃ id, ids[0]? = some id := ⟨_, List.getElem?_eq_getElem (by omega)⟩
  rw [hid, (hkeeps 0 (py "scan") id rfl hid).2 (by simp)]

/-- `str` of an integer; it refuses more digits. -/
def strOfInt (z : ℤ) : Except PyError PyStr :=
  if 10 ^ PyText.INT_MAX_STR_DIGITS ≤ z.natAbs then .error .valueError
  else .ok ((if z < 0 then [dash] else []) ++ decimal z.natAbs)

def digitLimit : Runtime Empty where
  floatToInt := Empty.elim
  floatTruth := Empty.elim
  strToInt := fun _ => none
  str
    | .none => .ok (py "None")
    | .bool b => .ok (if b then py "True" else py "False")
    | .int z => strOfInt z
    | _ => .error .other
  upper := List.map asciiUpper

theorem baseId_of_long_integer {z : ℤ} (h : 10 ^ PyText.INT_MAX_STR_DIGITS ≤ z.natAbs) :
    baseId digitLimit [(py "id", .int z)] = .error .valueError := by
  have hz : z ≠ 0 := by
    rintro rfl
    exact absurd h (not_le.mpr (Nat.pow_pos (by decide)))
  have htruth : digitLimit.truth (.int z) = true := by simpa [Runtime.truth] using hz
  have hstr : digitLimit.toStr (.int z) = .error .valueError := by
    simp only [Runtime.toStr, digitLimit, strOfInt, if_pos h]
  have hid : PyDict.getD [(py "id", PyValue.int z)] "id" .none = (.int z : PyValue Empty) := by
    simp [PyDict.getD]
  unfold baseId
  simp only [hid, htruth, if_true, hstr]
  rfl

/-- An id that is an integer of 4301 digits has no text. -/
theorem long_integer_id_raises :
    uniqueFilterIds digitLimit [[(py "id", .int (10 ^ PyText.INT_MAX_STR_DIGITS))]] =
      .error .valueError := by
  have hpow : ∀ n : ℕ, (10 ^ n : ℤ).natAbs = 10 ^ n := fun n => Int.natAbs_pow 10 n
  have hbase : baseId digitLimit [(py "id", .int (10 ^ PyText.INT_MAX_STR_DIGITS))] =
      .error .valueError :=
    baseId_of_long_integer (hpow PyText.INT_MAX_STR_DIGITS).ge
  rw [uniqueFilterIds, uniqueFilterIdsFrom, hbase]
  rfl

end AlturaProt.Analyzer
