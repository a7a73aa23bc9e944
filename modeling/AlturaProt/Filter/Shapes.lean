import AlturaProt.Filter.Signature
import AlturaProt.Foundation.Items

/-!
# What shapes forget

The shape of a path is a function of its normalized path: it is the normalized path
with its segments looked at once more (`requestPathShape_eq`). The parent shape
forgets one short segment, the first, so two siblings share it unless their parent
has a short segment itself (`siblings_share_parent_iff`). The query shape forgets
the order and the values of the pairs if there are at most sixteen of them
(`query_shape_ignores_order_iff`).
-/

namespace AlturaProt.Filter

open Foundation

/-! ## Segments of a text -/

/-- Replace what is between the slashes. -/
def mapSegments (f : Str → Str) (s : Str) : Str := [0x2F].intercalate ((s.splitOn 0x2F).map f)

theorem splitOn_append_slash (a b : Str) :
    (a ++ 0x2F :: b).splitOn 0x2F = a.splitOn 0x2F ++ b.splitOn 0x2F :=
  List.splitOnP_append_cons a b (beq_self_eq_true _)

theorem intercalate_append {α : Type} (sep : List α) {xs ys : List (List α)} (hxs : xs ≠ [])
    (hys : ys ≠ []) :
    sep.intercalate (xs ++ ys) = sep.intercalate xs ++ sep ++ sep.intercalate ys := by
  induction xs with
  | nil => exact absurd rfl hxs
  | cons x xs ih =>
    cases xs with
    | nil =>
      obtain ⟨y, ys, rfl⟩ := List.exists_cons_of_ne_nil hys
      simp [List.intercalate]
    | cons x' xs =>
      have hrest := ih (List.cons_ne_nil _ _)
      simp only [List.intercalate, List.cons_append, List.intersperse_cons_cons,
        List.flatten_cons] at hrest ⊢
      rw [hrest]
      simp

theorem mapSegments_append_slash (f : Str → Str) (a b : Str) :
    mapSegments f (a ++ 0x2F :: b) = mapSegments f a ++ 0x2F :: mapSegments f b := by
  have hne : ∀ s : Str, (s.splitOn 0x2F).map f ≠ [] := fun s h =>
    List.splitOnP_ne_nil _ _ (List.map_eq_nil_iff.mp h)
  rw [mapSegments, splitOn_append_slash, List.map_append,
    intercalate_append _ (hne a) (hne b), mapSegments, mapSegments]
  simp

theorem mapSegments_of_notMem (f : Str → Str) {s : Str} (h : 0x2F ∉ s) :
    mapSegments f s = f s := by
  rw [mapSegments, List.splitOn_eq_singleton h]
  simp [List.intercalate]

/-! ## The shape of a normalized path -/

/-- What stands for a segment in a normalized path. -/
def normalizedText (segment : Str) : Str :=
  if segment.all isAsciiDigit then utf8 ":num"
  else if isUuidSegment segment then utf8 ":uuid"
  else if 16 ≤ segment.length && segment.all isAsciiHexdigit then utf8 ":hex"
  else segment

theorem appendNormalizedSegment_plain (out segment : Str) :
    appendNormalizedSegment out segment false false =
      out ++ slashAfter out ++ normalizedText segment := by
  simp only [appendNormalizedSegment, normalizedText, append_slashAfter, Bool.false_and,
    Bool.false_eq_true, if_false, ← apply_ite (out ++ slashAfter out ++ ·)]

/-- The placeholders stand for themselves. -/
theorem segmentText_placeholders :
    segmentText (utf8 ":num") = utf8 ":num" ∧ segmentText (utf8 ":uuid") = utf8 ":uuid" ∧
      segmentText (utf8 ":hex") = utf8 ":hex" ∧
      0x2F ∉ utf8 ":num" ∧ 0x2F ∉ utf8 ":uuid" ∧ 0x2F ∉ utf8 ":hex" := by
  decide +kernel

/-- **A normalized segment keeps its shape.** -/
theorem segmentText_normalizedText (segment : Str) :
    segmentText (normalizedText segment) = segmentText segment := by
  obtain ⟨hnum, huuid, hhex, -⟩ := segmentText_placeholders
  unfold normalizedText
  split_ifs with h1 h2 h3
  · rw [hnum, segmentText, if_pos h1]
  · rw [huuid, segmentText, if_neg h1, if_pos h2]
  · rw [hhex, segmentText, if_neg h1, if_neg h2, if_pos h3]
  · rfl

variable {segment : Str}

theorem normalizedText_ne_nil (h : segment ≠ []) : normalizedText segment ≠ [] := by
  unfold normalizedText
  split_ifs
  · decide
  · decide
  · decide
  · exact h

theorem slash_notMem_normalizedText (h : 0x2F ∉ segment) : 0x2F ∉ normalizedText segment := by
  obtain ⟨-, -, -, hnum, huuid, hhex⟩ := segmentText_placeholders
  unfold normalizedText
  split_ifs <;> assumption

theorem slash_notMem_segmentText (h : 0x2F ∉ segment) : 0x2F ∉ segmentText segment := by
  obtain ⟨-, -, -, hnum, huuid, hhex⟩ := segmentText_placeholders
  have htoken : 0x2F ∉ utf8 ":token" := by decide
  have hshort : 0x2F ∉ utf8 ":short-token" := by decide
  unfold segmentText
  split_ifs <;> assumption

/-- The shape of what stands between two slashes, which may be nothing. -/
def shapeText (segment : Str) : Str := if segment.isEmpty then [] else segmentText segment

theorem shapeText_of_ne_nil (h : segment ≠ []) :
    shapeText segment = segmentText segment := if_neg (by simpa using h)

/-- One segment of the normalized path. -/
def normalizeStep (out segment : Str) : Str :=
  if segment.isEmpty then out ++ [0x2F] else appendNormalizedSegment out segment false false

theorem normalizeStep_of_ne_nil (h : segment ≠ []) (out : Str) :
    normalizeStep out segment = out ++ slashAfter out ++ normalizedText segment := by
  rw [normalizeStep, if_neg (by simpa using h), appendNormalizedSegment_plain]

theorem shapeStep_of_ne_nil (h : segment ≠ []) (out : Str) :
    shapeStep out segment = out ++ slashAfter out ++ segmentText segment := by
  rw [shapeStep, if_neg (by simpa using h), appendNormalizedSegment_eq]
  rfl

theorem mapSegments_nil : mapSegments shapeText [] = [] := by
  rfl

theorem mapSegments_push_slash (out : Str) :
    mapSegments shapeText (out ++ [0x2F]) = mapSegments shapeText out ++ [0x2F] := by
  rw [mapSegments_append_slash, mapSegments_nil]

/-- A text behind the last slash is looked at on its own. -/
theorem mapSegments_push_text {text : Str} (h : 0x2F ∉ text) (out : Str) :
    mapSegments shapeText (out ++ slashAfter out ++ text) =
      mapSegments shapeText out ++ slashAfter out ++ shapeText text := by
  by_cases hlast : out.getLast? = some 0x2F
  · obtain ⟨front, rfl⟩ := List.getLast?_eq_some_iff.mp hlast
    rw [slashAfter, if_pos hlast, List.append_nil, List.append_assoc, List.singleton_append,
      mapSegments_append_slash, mapSegments_of_notMem _ h, mapSegments_push_slash]
    simp
  · rw [slashAfter, if_neg hlast, List.append_assoc, List.singleton_append,
      mapSegments_append_slash, mapSegments_of_notMem _ h]
    simp

theorem getLast?_append_text {text : Str} (h : 0x2F ∉ text) (hne : text ≠ []) (front : Str) :
    (front ++ text).getLast? ≠ some 0x2F := by
  rw [List.getLast?_append_of_ne_nil _ hne]
  exact fun hlast => h (List.mem_of_getLast? hlast)

/-- Normalizing segments and then taking their shapes is taking their shapes. -/
theorem mapSegments_foldl {segments : List Str} (hsegments : ∀ s ∈ segments, 0x2F ∉ s) {out : Str}
    (h : (mapSegments shapeText out).getLast? = some 0x2F ↔ out.getLast? = some 0x2F) :
    mapSegments shapeText (segments.foldl normalizeStep out) =
      segments.foldl shapeStep (mapSegments shapeText out) := by
  induction segments generalizing out with
  | nil => rfl
  | cons segment rest ih =>
    obtain ⟨hsegment, hrest⟩ := List.forall_mem_cons.mp hsegments
    rw [List.foldl_cons, List.foldl_cons]
    by_cases hempty : segment = []
    · subst hempty
      have hstep : mapSegments shapeText (normalizeStep out []) =
          shapeStep (mapSegments shapeText out) [] := mapSegments_push_slash out
      rw [← hstep]
      refine ih hrest ?_
      rw [hstep]
      simp [normalizeStep, shapeStep]
    · have htext := slash_notMem_normalizedText hsegment
      have htextNe := normalizedText_ne_nil hempty
      have hstep : mapSegments shapeText (normalizeStep out segment) =
          shapeStep (mapSegments shapeText out) segment := by
        have hslash : slashAfter (mapSegments shapeText out) = slashAfter out := by
          simp only [slashAfter, h]
        rw [normalizeStep_of_ne_nil hempty, shapeStep_of_ne_nil hempty, hslash,
          mapSegments_push_text htext, shapeText_of_ne_nil htextNe, segmentText_normalizedText]
      rw [← hstep]
      refine ih hrest (iff_of_false ?_ ?_)
      · rw [hstep, shapeStep_of_ne_nil hempty]
        exact getLast?_append_text (slash_notMem_segmentText hsegment)
          (segmentText_ne_nil hempty) _
      · rw [normalizeStep_of_ne_nil hempty]
        exact getLast?_append_text htext htextNe _

theorem normalizeStep_ne_nil (out segment : Str) : normalizeStep out segment ≠ [] := by
  by_cases hempty : segment = []
  · simp [normalizeStep, hempty]
  · rw [normalizeStep_of_ne_nil hempty]
    simp [normalizedText_ne_nil hempty]

theorem shapeStep_ne_nil (out segment : Str) : shapeStep out segment ≠ [] := by
  by_cases hempty : segment = []
  · simp [shapeStep, hempty]
  · rw [shapeStep_of_ne_nil hempty]
    simp [segmentText_ne_nil hempty]

theorem orRoot_of_ne_nil {out : Str} (h : out ≠ []) : orRoot out = out := if_neg (by simpa using h)

/-- A path is not empty, so the root is never put in its place. -/
theorem orRoot_foldl {step : Str → Str → Str} (hstep : ∀ out segment, step out segment ≠ [])
    (path : Str) :
    orRoot ((path.splitOn 0x2F).foldl step []) = (path.splitOn 0x2F).foldl step [] := by
  have hne : (path.splitOn 0x2F).foldl step [] ≠ [] := by
    obtain ⟨front, segment, hsplit⟩ :=
      List.eq_nil_or_concat (path.splitOn 0x2F) |>.resolve_left (List.splitOnP_ne_nil _ _)
    rw [hsplit, List.concat_eq_append, List.foldl_append]
    exact hstep _ _
  exact orRoot_of_ne_nil hne

/-- **The shape of a path is a function of its normalized path.** -/
theorem requestPathShape_eq (path : Str) :
    requestPathShape path = mapSegments shapeText (normalizePath path) := by
  have hnormal : normalizePath path = (path.splitOn 0x2F).foldl normalizeStep [] :=
    orRoot_foldl normalizeStep_ne_nil path
  have hshape : requestPathShape path = (path.splitOn 0x2F).foldl shapeStep [] :=
    orRoot_foldl shapeStep_ne_nil path
  rw [hnormal, hshape, mapSegments_foldl (fun s hs => notMem_of_mem_splitOn hs), mapSegments_nil]
  rw [mapSegments_nil]

/-- **Signatures refine path shapes.** -/
theorem path_shape_of_normalized {p q : Str} (h : normalizePath p = normalizePath q) :
    requestPathShape p = requestPathShape q := by
  rw [requestPathShape_eq, requestPathShape_eq, h]

/-- A number and a literal placeholder, with a slash more and a slash less. -/
theorem path_shape_of_literal_placeholder :
    normalizePath (utf8 "/42//a") = normalizePath (utf8 ":num/a") ∧
      requestPathShape (utf8 "/42//a") = requestPathShape (utf8 ":num/a") := by
  have h : normalizePath (utf8 "/42//a") = normalizePath (utf8 ":num/a") := by decide +kernel
  exact ⟨h, path_shape_of_normalized h⟩

/-! ## Siblings under one parent -/

/-- The search for a short segment ends without one exactly if there is none. -/
theorem foldl_parentStep_isNone_iff (segments : List Str) (out : Str) :
    (segments.foldl parentStep (out, none)).2 = none ↔
      ∀ s ∈ segments, isLowConfidenceShortTokenSegment s = false := by
  induction segments generalizing out with
  | nil => simp
  | cons segment rest ih =>
    rw [List.foldl_cons, List.forall_mem_cons]
    by_cases hempty : segment.isEmpty = true
    · have hstep : parentStep (out, none) segment = (out ++ [0x2F], none) := if_pos hempty
      have hlow : isLowConfidenceShortTokenSegment segment = false := by
        rw [List.isEmpty_iff.mp hempty]
        rfl
      rw [hstep, ih]
      simp [hlow]
    · cases hlow : isLowConfidenceShortTokenSegment segment with
      | true =>
        have hstep : parentStep (out, none) segment =
            (appendNormalizedSegment out segment true true, some segment) := by
          simp [parentStep, hempty, hlow]
        rw [hstep, foldl_parentStep_some]
        simp
      | false =>
        have hstep : parentStep (out, none) segment =
            (appendNormalizedSegment out segment true false, none) := by
          simp [parentStep, hempty, hlow]
        rw [hstep, ih]
        simp

theorem slash_notMem_lowConfidence (h : isLowConfidenceShortTokenSegment segment = true) :
    0x2F ∉ segment := by
  simp only [isLowConfidenceShortTokenSegment, Bool.and_eq_true, List.all_eq_true] at h
  exact fun hmem => absurd (h.1.1.2 _ hmem) (by decide)

theorem lowConfidence_ne_nil (h : isLowConfidenceShortTokenSegment segment = true) :
    segment ≠ [] := by
  rintro rfl
  cases h

/-- The parent of a path whose last segment is short: what is replaced depends on the
segments before it. -/
theorem shortTokenParentShape_append {p x : Str} (hx : isLowConfidenceShortTokenSegment x = true) :
    shortTokenParentShape (p ++ 0x2F :: x) =
      let before := (p.splitOn 0x2F).foldl parentStep ([], none)
      match before.2 with
      | none => some (before.1 ++ slashAfter before.1 ++ utf8 ":short-token", x)
      | some token => some (before.1 ++ slashAfter before.1 ++ x, token) := by
  have hempty : x.isEmpty = false := by simpa using lowConfidence_ne_nil hx
  have hfold : shortTokenParentShape (p ++ 0x2F :: x) =
      let out := parentStep ((p.splitOn 0x2F).foldl parentStep ([], none)) x
      out.2.map fun token => (orRoot out.1, token) := by
    show (let out := ((p ++ 0x2F :: x).splitOn 0x2F).foldl parentStep ([], none)
      out.2.map fun token => (orRoot out.1, token)) = _
    rw [splitOn_append_slash, List.splitOn_eq_singleton (slash_notMem_lowConfidence hx),
      List.foldl_append]
    rfl
  have hroot : ∀ out text token : Str, text ≠ [] →
      ((some token).map fun token => (orRoot (out ++ slashAfter out ++ text), token)) =
        some (out ++ slashAfter out ++ text, token) := by
    intro out text token htext
    rw [orRoot_of_ne_nil (by simp [htext])]
    rfl
  rw [hfold]
  obtain ⟨out, token⟩ := (p.splitOn 0x2F).foldl parentStep ([], none)
  cases token with
  | none =>
    have hstep : parentStep (out, none) x =
        (out ++ slashAfter out ++ utf8 ":short-token", some x) := by
      simp [parentStep, hempty, hx, appendNormalizedSegment_eq]
    rw [hstep]
    exact hroot out _ x (by decide)
  | some token =>
    have hstep : parentStep (out, some token) x = (out ++ slashAfter out ++ x, some token) := by
      simp [parentStep, hempty, appendNormalizedSegment_eq, segmentText_lowConfidence hx]
    rw [hstep]
    exact hroot out x token (lowConfidence_ne_nil hx)

/-- **Two short siblings share a parent exactly if** they are one, or no segment before
them is short. -/
theorem siblings_share_parent_iff {p x y : Str} (hx : isLowConfidenceShortTokenSegment x = true)
    (hy : isLowConfidenceShortTokenSegment y = true) :
    (∃ parent tokenX tokenY,
        shortTokenParentShape (p ++ 0x2F :: x) = some (parent, tokenX) ∧
          shortTokenParentShape (p ++ 0x2F :: y) = some (parent, tokenY)) ↔
      x = y ∨ ∀ s ∈ p.splitOn 0x2F, isLowConfidenceShortTokenSegment s = false := by
  rw [shortTokenParentShape_append hx, shortTokenParentShape_append hy,
    ← foldl_parentStep_isNone_iff (p.splitOn 0x2F) []]
  obtain ⟨out, token⟩ := (p.splitOn 0x2F).foldl parentStep ([], none)
  cases token with
  | none => exact iff_of_true ⟨_, _, _, rfl, rfl⟩ (Or.inr rfl)
  | some token =>
    constructor
    · rintro ⟨parent, tokenX, tokenY, hparentX, hparentY⟩
      obtain ⟨hX, -⟩ := Prod.mk.inj (Option.some.inj hparentX)
      obtain ⟨hY, -⟩ := Prod.mk.inj (Option.some.inj hparentY)
      exact Or.inl (List.append_cancel_left (hX.trans hY.symm))
    · rintro (rfl | hnone)
      · exact ⟨_, _, _, rfl, rfl⟩
      · cases hnone

/-- Siblings under a common segment. -/
theorem siblings_share_api :
    ∃ parent tokenX tokenY,
      shortTokenParentShape (utf8 "/api" ++ 0x2F :: utf8 "ab") = some (parent, tokenX) ∧
        shortTokenParentShape (utf8 "/api" ++ 0x2F :: utf8 "cd") = some (parent, tokenY) := by
  have hfacts : (isLowConfidenceShortTokenSegment (utf8 "ab") = true ∧
      isLowConfidenceShortTokenSegment (utf8 "cd") = true) ∧
      ∀ s ∈ (utf8 "/api").splitOn 0x2F, isLowConfidenceShortTokenSegment s = false := by
    decide +kernel
  exact (siblings_share_parent_iff hfacts.1.1 hfacts.1.2).mpr (Or.inr hfacts.2)

/-- Siblings under a short segment: only that one is replaced. -/
theorem siblings_under_short_segment :
    isLowConfidenceShortTokenSegment (utf8 "ab") = true ∧
      isLowConfidenceShortTokenSegment (utf8 "cd") = true ∧
      shortTokenParentShape (utf8 "/me/ab") = some (utf8 "/:short-token/ab", utf8 "me") ∧
      shortTokenParentShape (utf8 "/me/cd") = some (utf8 "/:short-token/cd", utf8 "me") := by
  decide +kernel

/-! ## Query pairs -/

/-- A pair of a query; without a value there is no equals sign either. -/
structure QueryPair where
  key : Str
  value : Option Str
  key_plain : 0x26 ∉ key ∧ 0x3D ∉ key
  value_plain : ∀ v ∈ value, 0x26 ∉ v

def QueryPair.text (pair : QueryPair) : Str :=
  pair.key ++ pair.value.elim [] fun v => 0x3D :: v

/-- The pairs with ampersands between them. -/
def joinPairs (pairs : List QueryPair) : Str := [0x26].intercalate (pairs.map QueryPair.text)

/-- The key of a pair as `query_shape` finds it. -/
def queryKey (pair : Str) : Str := ((splitOnce 0x3D pair).map Prod.fst).getD pair

theorem QueryPair.queryKey_text (pair : QueryPair) : queryKey pair.text = pair.key := by
  have hkey : ∀ b ∈ pair.key, decide (b ≠ 0x3D) = true := fun b hb =>
    decide_eq_true (ne_of_mem_of_not_mem hb pair.key_plain.2)
  cases hvalue : pair.value with
  | none =>
    have htext : pair.text = pair.key := by simp [QueryPair.text, hvalue]
    rw [htext, queryKey, splitOnce, if_neg pair.key_plain.2]
    rfl
  | some v =>
    have htext : pair.text = pair.key ++ 0x3D :: v := by simp [QueryPair.text, hvalue]
    rw [htext, queryKey, splitOnce, if_pos (by simp), List.takeWhile_append_of_pos hkey]
    simp

theorem QueryPair.ampersand_notMem_text (pair : QueryPair) : 0x26 ∉ pair.text := by
  rw [QueryPair.text, List.mem_append, not_or]
  refine ⟨pair.key_plain.1, ?_⟩
  cases hvalue : pair.value with
  | none => simp
  | some v => simpa using pair.value_plain v hvalue

/-- The keys that are looked at, in order. -/
def shapeOfKeys (keys : List Str) : Str :=
  (utf8 ",").intercalate ((keys.take 16).insertionSort (· ≤ ·))

variable {pairs : List QueryPair}

theorem queryShape_joinPairs (hempty : joinPairs pairs ≠ []) :
    queryShape (joinPairs pairs) = shapeOfKeys (pairs.map QueryPair.key) := by
  have hne : pairs.map QueryPair.text ≠ [] := by
    intro h
    exact hempty (by rw [joinPairs, h]; rfl)
  have hsplit : (joinPairs pairs).splitOn 0x26 = pairs.map QueryPair.text := by
    refine List.splitOn_intercalate _ (fun text htext => ?_) hne
    obtain ⟨pair, -, rfl⟩ := List.mem_map.mp htext
    exact pair.ampersand_notMem_text
  have hkeys : ((joinPairs pairs).splitOn 0x26).map queryKey = pairs.map QueryPair.key := by
    rw [hsplit, List.map_map]
    exact List.map_congr_left fun pair _ => pair.queryKey_text
  rw [queryShape, if_neg (by simpa using hempty), shapeOfKeys, ← hkeys]
  rfl

/-- Only pairs without keys can be joined to nothing. -/
theorem joinPairs_ne_nil (hne : pairs ≠ []) (hkeys : pairs.map QueryPair.key ≠ [[]]) :
    joinPairs pairs ≠ [] := by
  intro hempty
  cases pairs with
  | nil => exact hne rfl
  | cons pair rest =>
    cases rest with
    | nil =>
      have htext : pair.text = [] := by simpa [joinPairs, List.intercalate] using hempty
      have hkey : pair.key = [] := (List.append_eq_nil_iff.mp htext).1
      exact hkeys (by simp [hkey])
    | cons pair' rest => simp [joinPairs, List.intercalate] at hempty

theorem shapeOfKeys_congr {ks ks' : List Str} (h : (ks.take 16).Perm (ks'.take 16)) :
    shapeOfKeys ks = shapeOfKeys ks' := by
  have hsorted := fun l : List Str => List.pairwise_insertionSort (· ≤ ·) l
  have hperm := ((List.perm_insertionSort (· ≤ ·) (ks.take 16)).trans h).trans
    (List.perm_insertionSort (· ≤ ·) (ks'.take 16)).symm
  rw [shapeOfKeys, shapeOfKeys,
    hperm.eq_of_pairwise (fun _ _ _ _ => Std.Antisymm.antisymm _ _) (hsorted _) (hsorted _)]

/-! ## Which keys a shape shows -/

theorem length_intercalate {c : UInt8} {texts : List Str} (h : texts ≠ []) :
    ([c].intercalate texts).length + 1 = texts.flatten.length + texts.length := by
  induction texts with
  | nil => exact absurd rfl h
  | cons text rest ih =>
    cases rest with
    | nil => simp [List.intercalate]
    | cons text' rest =>
      have hrest := ih (List.cons_ne_nil _ _)
      simp only [List.intercalate, List.intersperse_cons_cons, List.flatten_cons,
        List.length_append, List.length_cons, List.length_nil] at hrest ⊢
      omega

/-- Texts of one length are found again in what they are joined to. -/
theorem intercalate_inj {c : UInt8} {n : ℕ} {xs ys : List Str} (hlen : xs.length = ys.length)
    (hxs : ∀ x ∈ xs, x.length = n) (hys : ∀ y ∈ ys, y.length = n)
    (h : [c].intercalate xs = [c].intercalate ys) : xs = ys := by
  induction xs generalizing ys with
  | nil => exact (List.length_eq_zero_iff.mp hlen.symm).symm
  | cons x xs ih =>
    obtain ⟨y, ys, rfl⟩ := List.exists_cons_of_length_eq_add_one hlen.symm
    obtain ⟨hx, hxs⟩ := List.forall_mem_cons.mp hxs
    obtain ⟨hy, hrestYs⟩ := List.forall_mem_cons.mp hys
    have hrestLen : xs.length = ys.length := Nat.succ.inj hlen
    cases xs with
    | nil =>
      obtain rfl := List.length_eq_zero_iff.mp hrestLen.symm
      simpa [List.intercalate] using h
    | cons x' xs =>
      obtain ⟨y', ys, rfl⟩ := List.exists_cons_of_length_eq_add_one hrestLen.symm
      have hparts : x ++ c :: [c].intercalate (x' :: xs) =
          y ++ c :: [c].intercalate (y' :: ys) := by
        simpa [List.intercalate] using h
      obtain ⟨rfl, hrest⟩ := List.append_inj hparts (hx.trans hy.symm)
      rw [ih hrestLen hxs hrestYs (List.cons.inj hrest).2]

section Swap

variable {a b : Str} {ks : List Str}

/-- Two keys that can stand for one another in a shape have one length. -/
theorem length_eq_of_swap (h : [0x2C].intercalate ((a :: ks).insertionSort (· ≤ ·)) =
    [0x2C].intercalate ((b :: ks).insertionSort (· ≤ ·))) : a.length = b.length := by
  have hsum : ∀ k : Str, ([0x2C].intercalate ((k :: ks).insertionSort (· ≤ ·))).length =
      k.length + ks.flatten.length + ks.length := by
    intro k
    have hperm := List.perm_insertionSort (· ≤ ·) (k :: ks)
    have hne : (k :: ks).insertionSort (· ≤ ·) ≠ [] := by
      intro hnil
      rw [hnil] at hperm
      exact List.cons_ne_nil _ _ hperm.nil_eq.symm
    have hlength := length_intercalate (c := 0x2C) hne
    rw [hperm.flatten.length_eq, hperm.length_eq, List.flatten_cons, List.length_append,
      List.length_cons] at hlength
    exact Nat.succ.inj hlength
  have hlength := congrArg List.length h
  rw [hsum, hsum] at hlength
  omega

/-- If all have one length they are one key. -/
theorem eq_of_swap {n : ℕ} (ha : a.length = n) (hb : b.length = n) (hks : ∀ k ∈ ks, k.length = n)
    (h : [0x2C].intercalate ((a :: ks).insertionSort (· ≤ ·)) =
      [0x2C].intercalate ((b :: ks).insertionSort (· ≤ ·))) : a = b := by
  have hperm := fun k : Str => List.perm_insertionSort (· ≤ ·) (k :: ks)
  have hlengths : ∀ k : Str, k.length = n →
      ∀ x ∈ (k :: ks).insertionSort (· ≤ ·), x.length = n := by
    intro k hk x hx
    rcases List.mem_cons.mp ((hperm k).mem_iff.mp hx) with rfl | hx
    · exact hk
    · exact hks x hx
  have hsame := intercalate_inj
    (by rw [(hperm a).length_eq, (hperm b).length_eq, List.length_cons, List.length_cons])
    (hlengths a ha) (hlengths b hb) h
  have hboth : (a :: ks).Perm (b :: ks) := (hperm a).symm.trans (hsame ▸ hperm b)
  by_contra hne
  have hcount := hboth.count_eq a
  rw [List.count_cons_self, List.count_cons_of_ne (Ne.symm hne)] at hcount
  omega

end Swap

/-- The shape and the signature stay the same whatever the order and the values. -/
def IgnoresOrder (pairs : List QueryPair) : Prop :=
  ∀ pairs' : List QueryPair, (pairs'.map QueryPair.key).Perm (pairs.map QueryPair.key) →
    queryShape (joinPairs pairs') = queryShape (joinPairs pairs) ∧
    ∀ (blake3 : Str → Str) (method path : Str) (headers : HeaderMap),
      requestSignature blake3 method path (some (joinPairs pairs')) headers =
        requestSignature blake3 method path (some (joinPairs pairs)) headers

/-- At most sixteen keys, or all alike. -/
def FewKeys (keys : List Str) : Prop := keys.length ≤ 16 ∨ ∀ a ∈ keys, ∀ b ∈ keys, a = b

theorem shapeOfKeys_of_few {ks ks' : List Str} (hperm : ks'.Perm ks) (h : FewKeys ks) :
    shapeOfKeys ks' = shapeOfKeys ks := by
  refine shapeOfKeys_congr ?_
  rcases h with hlength | halike
  · rw [List.take_of_length_le hlength, List.take_of_length_le (hperm.length_eq.trans_le hlength)]
    exact hperm
  · -- a list of one key over and over has no other order
    cases ks with
    | nil => rw [hperm.eq_nil]
    | cons k ks =>
      have hrepeat : k :: ks = List.replicate (ks.length + 1) k :=
        List.eq_replicate_iff.mpr ⟨rfl, fun b hb => halike b hb k List.mem_cons_self⟩
      rw [hrepeat] at hperm ⊢
      rw [List.perm_replicate.mp hperm]

/-- More than sixteen pairs, two of them with different keys: either of the two can be
left out. -/
theorem swap_of_ignoresOrder (hignores : IgnoresOrder pairs) (hmany : 16 < pairs.length)
    {p q : QueryPair} (hp : p ∈ pairs) (hq : q ∈ pairs) (hne : p.key ≠ q.key) :
    ∃ ks : List Str, (∀ k ∈ ks, k ∈ pairs.map QueryPair.key) ∧
      [0x2C].intercalate ((p.key :: ks).insertionSort (· ≤ ·)) =
        [0x2C].intercalate ((q.key :: ks).insertionSort (· ≤ ·)) := by
  have hq' : ∃ rest, pairs.Perm (p :: q :: rest) := by
    obtain ⟨front, back, rfl⟩ := List.append_of_mem hp
    have hperm : (front ++ p :: back).Perm (p :: (front ++ back)) := List.perm_middle
    have hmem : q ∈ front ++ back := by
      rcases List.mem_cons.mp (hperm.mem_iff.mp hq) with rfl | hmem
      · exact absurd rfl hne
      · exact hmem
    obtain ⟨front', back', hsplit⟩ := List.append_of_mem hmem
    exact ⟨front' ++ back', hperm.trans (List.Perm.cons p (hsplit ▸ List.perm_middle))⟩
  obtain ⟨rest, hperm⟩ := hq'
  have hlength : 15 ≤ rest.length := by
    have := hperm.length_eq
    simp only [List.length_cons] at this
    omega
  refine ⟨(rest.take 15).map QueryPair.key, ?_, ?_⟩
  · intro k hk
    obtain ⟨pair, hpair, rfl⟩ := List.mem_map.mp hk
    exact List.mem_map_of_mem (hperm.mem_iff.mpr
      (List.mem_cons_of_mem _ (List.mem_cons_of_mem _ (List.mem_of_mem_take hpair))))
  · -- the first sixteen of two arrangements
    have hshape : ∀ x y : QueryPair, pairs.Perm (x :: y :: rest) →
        queryShape (joinPairs pairs) = [0x2C].intercalate
          ((x.key :: (rest.take 15).map QueryPair.key).insertionSort (· ≤ ·)) := by
      intro x y hxy
      have harranged : pairs.Perm (x :: rest.take 15 ++ y :: rest.drop 15) := by
        refine hxy.trans (List.Perm.cons x ?_)
        refine List.Perm.trans ?_ List.perm_middle.symm
        rw [List.take_append_drop]
      have hjoin : joinPairs (x :: rest.take 15 ++ y :: rest.drop 15) ≠ [] := by
        refine joinPairs_ne_nil (by simp) fun hkeys => ?_
        have := congrArg List.length hkeys
        simp at this
      rw [← (hignores _ (harranged.symm.map _)).1, queryShape_joinPairs hjoin, shapeOfKeys]
      have hfirst : ((x :: rest.take 15 ++ y :: rest.drop 15).map QueryPair.key).take 16 =
          x.key :: (rest.take 15).map QueryPair.key := by
        rw [List.map_append, List.take_left']
        · rfl
        · simp [hlength]
      rw [hfirst]
      rfl
    exact (hshape p q hperm).symm.trans (hshape q p (hperm.trans (List.Perm.swap q p rest)))

/-- **The query shape ignores order and values exactly if** there are at most sixteen
pairs or all have the same key, and the keys are not the one empty key, whose query is
empty without a value. -/
theorem query_shape_ignores_order_iff (pairs : List QueryPair) :
    IgnoresOrder pairs ↔
      pairs.map QueryPair.key ≠ [[]] ∧ FewKeys (pairs.map QueryPair.key) := by
  constructor
  · intro hignores
    refine ⟨?_, ?_⟩
    · intro hkeys
      have hbare := (hignores [⟨[], none, by simp, by simp⟩] (by simp [hkeys])).1
      have hvalue := (hignores [⟨[], some [], by simp, by simp⟩] (by simp [hkeys])).1
      exact absurd (hbare.trans hvalue.symm) (by decide +kernel)
    · by_cases hmany : pairs.length ≤ 16
      · exact Or.inl (by simpa using hmany)
      · have hmany := not_le.mp hmany
        have hlengths : ∀ a ∈ pairs, ∀ b ∈ pairs, a.key.length = b.key.length := by
          intro a ha b hb
          by_cases hne : a.key = b.key
          · rw [hne]
          · obtain ⟨ks, -, hswap⟩ := swap_of_ignoresOrder hignores hmany ha hb hne
            exact length_eq_of_swap hswap
        refine Or.inr fun a ha b hb => ?_
        obtain ⟨p, hp, rfl⟩ := List.mem_map.mp ha
        obtain ⟨q, hq, rfl⟩ := List.mem_map.mp hb
        by_contra hne
        obtain ⟨ks, hks, hswap⟩ := swap_of_ignoresOrder hignores hmany hp hq hne
        refine hne (eq_of_swap rfl (hlengths q hq p hp) (fun k hk => ?_) hswap)
        obtain ⟨r, hr, rfl⟩ := List.mem_map.mp (hks k hk)
        exact hlengths r hr p hp
  · rintro ⟨hkeys, hfew⟩ pairs' hperm
    have hshape : queryShape (joinPairs pairs') = queryShape (joinPairs pairs) := by
      by_cases hnil : pairs = []
      · subst hnil
        rw [List.map_eq_nil_iff.mp (hperm.eq_nil)]
      · have hnil' : pairs' ≠ [] := by
          rintro rfl
          exact hnil (List.map_eq_nil_iff.mp hperm.symm.eq_nil)
        have hkeys' : pairs'.map QueryPair.key ≠ [[]] := by
          intro hk
          rw [hk] at hperm
          exact hkeys (List.perm_singleton.mp hperm.symm)
        rw [queryShape_joinPairs (joinPairs_ne_nil hnil' hkeys'),
          queryShape_joinPairs (joinPairs_ne_nil hnil hkeys), shapeOfKeys_of_few hperm hfew]
    refine ⟨hshape, fun _ _ _ _ => ?_⟩
    simp only [requestSignature, signatureBasis, Option.getD_some, hshape]

/-- `a=1` and so on. -/
def letterPair (i : Fin 17) : QueryPair where
  key := [0x61 + UInt8.ofNat i]
  value := some [0x31]
  key_plain := by revert i; decide
  value_plain := by simp

theorem two_letters_ignore_order : IgnoresOrder [letterPair 0, letterPair 1] :=
  (query_shape_ignores_order_iff [letterPair 0, letterPair 1]).mpr ⟨by decide, Or.inl (by decide)⟩

/-- Of seventeen pairs the last is left out, so the reversed list has another shape. -/
theorem reversed_letters_change_shape :
    ((((List.finRange 17).map letterPair).reverse.map QueryPair.key).Perm
      (((List.finRange 17).map letterPair).map QueryPair.key)) ∧
    queryShape (joinPairs ((List.finRange 17).map letterPair).reverse) ≠
      queryShape (joinPairs ((List.finRange 17).map letterPair)) := by
  refine ⟨(List.reverse_perm _).map _, ?_⟩
  decide +kernel

end AlturaProt.Filter
