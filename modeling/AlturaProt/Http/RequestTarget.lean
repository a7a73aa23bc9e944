import AlturaProt.Http.RawHead
import AlturaProt.Http.UriText

/-!
# Two checks of the request target

A request target is checked twice: `validate_raw_request_target` looks for separators in the
bytes of the request line, before anything is parsed, and `validate_request_target` measures
the parts of the URI that the `http` crate has parsed. Both are in `src/http_proxy.rs`, with
the same limits.

What is documented of the parser is `ReadsTargets`: it splits a target as RFC 3986 does.
Under it the first check never refuses a target that the second one lets through
(`raw_target_guard_never_over_rejects`).
-/

namespace AlturaProt.Http

open Foundation

/-! ## The check of a URI -/

/-- The length of the target that a URI stands for. The parts are parts of one text, so that
the sum does not saturate. -/
def requestTargetLength (uri : Uri) : ℕ :=
  (uri.pathAndQueryText.getD uri.path).length +
    (uri.scheme.elim 0 fun scheme => scheme.length + 1 + if uri.authority.isSome then 2 else 0) +
    uri.authority.elim 0 List.length

/-- Of the configuration only these limits are read. -/
def validateRequestTarget (uri : Uri) (limits : RawRequestTargetLimits) : Except String Unit := do
  rejectIf (exceeds limits.maxUriBytes (requestTargetLength uri)) "request uri too long"
  checkSome (fun query => do
    rejectIf (exceeds limits.maxQueryBytes query.length) "request query too long"
    rejectIf (!query.isEmpty && exceeds limits.maxQueryPairs
      ((query.splitOn 0x26).take (limits.maxQueryPairs + 1)).length)
      "too many query parameters") uri.query
  rejectIf (exceeds limits.maxPathSegments
    ((uri.path.splitOn 0x2F).filter fun segment => !segment.isEmpty).length)
    "too many path segments"

/-! ## What is documented of the parser -/

/-- A path, and maybe a query. -/
def OriginForm (target : Str) : Prop := target.head? = some 0x2F

/-- A scheme, a colon and the rest. -/
def AbsoluteForm (target : Str) : Prop :=
  ∃ scheme rest, scheme ≠ [] ∧ (∀ b ∈ scheme, isSchemeByte b = true) ∧
    target = scheme ++ 0x3A :: rest

/-- How targets without a fragment are split. -/
structure ReadsTargets (uris : UriParser) : Prop where
  origin : ∀ target uri, OriginForm target → 0x23 ∉ target → uris.uri target = .ok uri →
    uri = ⟨none, none, some target⟩
  /-- the authority ends at the first slash or question mark -/
  hierarchical : ∀ scheme authority rest uri, scheme ≠ [] → (∀ b ∈ scheme, isSchemeByte b = true) →
    (∀ b ∈ authority, isAuthorityEnd b = false) → (∀ b ∈ rest.head?, isAuthorityEnd b = true) →
    0x23 ∉ rest → uris.uri (scheme ++ utf8 "://" ++ (authority ++ rest)) = .ok uri →
    ∃ scheme', scheme'.length = scheme.length ∧ uri = ⟨some scheme', some authority, some rest⟩
  /-- without slashes after the colon, a target is an authority or is not parsed -/
  rootless : ∀ scheme rest uri, scheme ≠ [] → (∀ b ∈ scheme, isSchemeByte b = true) →
    ¬ utf8 "//" <+: rest → uris.uri (scheme ++ 0x3A :: rest) = .ok uri →
    uri = ⟨none, some (scheme ++ 0x3A :: rest), none⟩ ∧
      ∀ b ∈ rest, isAuthorityEnd b = false

/-! ## Where the bytes are split -/

theorem rawTargetQuery_eq_query (scheme authority : Option Str) (text : Str) :
    rawTargetQuery text = Uri.query ⟨scheme, authority, some text⟩ := by
  unfold rawTargetQuery Uri.query
  dsimp only [Option.bind_some]
  induction text with
  | nil => rfl
  | cons b rest ih =>
    by_cases hb : b = 0x3F
    · simp [List.idxOf?_cons, hb]
    · have hb' : (b == 0x3F) = false := beq_false_of_ne hb
      rw [List.idxOf?_cons, hb', if_neg nofun, Option.map_map]
      have hmem : (0x3F : UInt8) ∈ b :: rest ↔ 0x3F ∈ rest := by
        simp [Ne.symm hb]
      have hdrop : (b :: rest).dropWhile (· != 0x3F) = rest.dropWhile (· != 0x3F) :=
        List.dropWhile_cons_of_pos (by simp [hb])
      rw [if_congr hmem rfl rfl, hdrop, ← ih]
      rfl

theorem headD_splitOn (sep : UInt8) (text other : Str) :
    (text.splitOn sep).headD other = text.takeWhile (· != sep) := by
  unfold List.splitOn
  induction text with
  | nil => rfl
  | cons b rest ih =>
    rw [List.splitOnP_cons_eq_if_modifyHead]
    by_cases hb : b = sep
    · simp [hb]
    · rw [if_neg (by simp [hb]), List.takeWhile_cons, if_pos (by simp [hb]), ← ih]
      cases hparts : rest.splitOnP (· == sep) with
      | nil => exact absurd hparts (List.splitOnP_ne_nil _ _)
      | cons part parts => rfl

/-- A scheme ends before an authority does. -/
theorem isAuthorityEnd_of_scheme {b : UInt8} (h : isSchemeByte b = true) :
    isAuthorityEnd b = false := by
  cases hend : isAuthorityEnd b with
  | false => rfl
  | true =>
    have hends : b ∈ utf8 "/?#" := of_decide_eq_true hend
    rw [show utf8 "/?#" = [0x2F, 0x3F, 0x23] from by decide] at hends
    simp only [List.mem_cons, List.not_mem_nil, or_false] at hends
    rcases hends with rfl | rfl | rfl <;> exact absurd h (by decide)

theorem isAuthorityEnd_iff {b : UInt8} (h : b ≠ 0x23) :
    isAuthorityEnd b = (b == 0x2F || b == 0x3F) := by
  unfold isAuthorityEnd
  rw [show utf8 "/?#" = [0x2F, 0x3F, 0x23] from by decide, Bool.eq_iff_iff]
  simp [h]

variable {scheme rest s text : Str} {uri : Uri}

/-- The colon that ends the scheme is the first one. -/
theorem position_scheme (h : ∀ b ∈ scheme, isSchemeByte b = true) (rest : Str) :
    position (utf8 "://") (scheme ++ utf8 "://" ++ rest) = some scheme.length := by
  rw [show utf8 "://" = [0x3A, 0x2F, 0x2F] from by decide]
  induction scheme with
  | nil => simp [position]
  | cons b scheme ih =>
    have hb : b ≠ 0x3A := by
      rintro rfl
      exact absurd (h 0x3A List.mem_cons_self) (by decide)
    have hrest := ih fun b hb => h b (List.mem_cons_of_mem _ hb)
    rw [List.append_assoc] at hrest
    rw [List.cons_append, List.cons_append, List.append_assoc, position, if_neg, hrest]
    · rfl
    · rw [List.cons_prefix_cons]
      exact fun heq => hb heq.1.symm

/-- A scheme is neither a path nor a star. -/
theorem head_scheme (hne : scheme ≠ []) (h : ∀ b ∈ scheme, isSchemeByte b = true) (rest : Str) :
    ∃ b, (scheme ++ rest).head? = some b ∧ b ≠ 0x2F ∧ b ≠ 0x3F ∧ b ≠ 0x2A := by
  obtain ⟨b, tail, rfl⟩ := List.exists_cons_of_ne_nil hne
  have hb := h b List.mem_cons_self
  refine ⟨b, rfl, ?_, ?_, ?_⟩
  all_goals
    rintro rfl
    exact absurd hb (by decide)

/-- What the bytes of a target give for a scheme, an authority and the rest. -/
theorem rawTargetPathAndQuery_hierarchical {authority : Str} (hne : scheme ≠ [])
    (hscheme : ∀ b ∈ scheme, isSchemeByte b = true)
    (hauthority : ∀ b ∈ authority, isAuthorityEnd b = false)
    (hrest : ∀ b ∈ rest.head?, isAuthorityEnd b = true) (hfragment : 0x23 ∉ authority ++ rest) :
    rawTargetPathAndQuery (scheme ++ utf8 "://" ++ (authority ++ rest)) = rest := by
  have hform : ¬ ((scheme ++ utf8 "://" ++ (authority ++ rest)).head? = some 0x2F ∨
      (scheme ++ utf8 "://" ++ (authority ++ rest)).head? = some 0x3F ∨
      scheme ++ utf8 "://" ++ (authority ++ rest) = utf8 "*") := by
    rw [List.append_assoc]
    obtain ⟨b, hhead, hslash, hquestion, hstar⟩ := head_scheme hne hscheme _
    rw [hhead]
    rintro (heq | heq | heq)
    · exact hslash (Option.some.inj heq)
    · exact hquestion (Option.some.inj heq)
    · rw [heq] at hhead
      exact hstar (Option.some.inj hhead).symm
  have hdrop : (scheme ++ utf8 "://" ++ (authority ++ rest)).drop (scheme.length + 3) =
      authority ++ rest := by
    have hlength : scheme.length + 3 = (scheme ++ utf8 "://").length := by
      rw [List.length_append]
      rfl
    rw [hlength, List.drop_left]
  rw [rawTargetPathAndQuery, if_neg (by simpa [or_assoc] using hform), position_scheme hscheme]
  show fromFirst _ _ = _
  rw [hdrop, fromFirst, List.dropWhile_append_of_pos]
  · cases rest with
    | nil => rfl
    | cons b tail =>
      have hb : b ≠ 0x23 := fun heq => hfragment (by simp [heq])
      have hend := hrest b rfl
      rw [isAuthorityEnd_iff hb] at hend
      rw [List.dropWhile_cons_of_neg (by simp [hend])]
  · intro b hb
    have hfree : b ≠ 0x23 := fun heq => hfragment (by simp [← heq, hb])
    have hend := hauthority b hb
    rw [isAuthorityEnd_iff hfree] at hend
    simp [hend]

/-- Without separators nothing is taken for a path or a query. -/
theorem rawTargetPathAndQuery_rootless {target : Str} (h : ∀ b ∈ target, isAuthorityEnd b = false)
    (hstar : target ≠ utf8 "*") : rawTargetPathAndQuery target = [] := by
  have hslash : 0x2F ∉ target := fun hmem => absurd (h 0x2F hmem) (by decide)
  have hquestion : 0x3F ∉ target := fun hmem => absurd (h 0x3F hmem) (by decide)
  have hform : ¬ (target.head? = some 0x2F ∨ target.head? = some 0x3F ∨ target = utf8 "*") := by
    rintro (heq | heq | heq)
    · exact hslash (List.mem_of_head? heq)
    · exact hquestion (List.mem_of_head? heq)
    · exact hstar heq
  have hposition : position (utf8 "://") target = none := by
    rw [position_eq_none_iff]
    intro i hat
    exact hslash (List.mem_of_mem_drop (hat.subset (by decide)))
  rw [rawTargetPathAndQuery, if_neg (by simpa [or_assoc] using hform), hposition]

/-! ## The comparison -/

theorem exceeds_eq_false_iff {limit size : ℕ} :
    exceeds limit size = false ↔ limit = 0 ∨ size ≤ limit := by
  simp only [exceeds, decide_eq_false_iff_not]
  omega

theorem exceeds_mono {limit size size' : ℕ} (hle : size' ≤ size)
    (h : exceeds limit size = false) : exceeds limit size' = false := by
  rw [exceeds_eq_false_iff] at h ⊢
  omega

/-- Counting nonempty segments without the stars, and only as far as needed. -/
theorem rawTargetPathSegmentCount_le (pathAndQuery : Str) (maxSegments : ℕ) :
    rawTargetPathSegmentCount pathAndQuery maxSegments ≤
      (((pathAndQuery.takeWhile (· != 0x3F)).splitOn 0x2F).filter
        fun segment => !segment.isEmpty).length := by
  unfold rawTargetPathSegmentCount
  rw [headD_splitOn]
  refine (List.length_take_le' _ _).trans (List.Sublist.length_le ?_)
  exact List.monotone_filter_right _ fun segment h => (Bool.and_eq_true_iff.mp h).1

/-- An empty path is shown as a slash, which has no segments either. -/
theorem segments_path (scheme authority : Option Str) (text : Str) :
    ((text.takeWhile (· != 0x3F)).splitOn 0x2F).filter (fun segment => !segment.isEmpty) =
      ((Uri.path ⟨scheme, authority, some text⟩).splitOn 0x2F).filter
        fun segment => !segment.isEmpty := by
  unfold Uri.path
  dsimp only
  split
  · rename_i hempty
    rw [List.isEmpty_iff.mp hempty]
    decide
  · rfl

/-- A query that the check of the URI lets through passes the raw check: an empty query has
one empty parameter, and no limit is below one. -/
theorem query_check {limits : RawRequestTargetLimits} {query : Str}
    (h : exceeds limits.maxQueryBytes query.length = false ∧
      (!query.isEmpty && exceeds limits.maxQueryPairs
        ((query.splitOn 0x26).take (limits.maxQueryPairs + 1)).length) = false) :
    exceeds limits.maxQueryBytes query.length = false ∧
      exceeds limits.maxQueryPairs
        ((query.splitOn 0x26).take (limits.maxQueryPairs + 1)).length = false := by
  refine ⟨h.1, ?_⟩
  cases query with
  | nil =>
    have hone : ((([] : Str).splitOn 0x26).take (limits.maxQueryPairs + 1)).length ≤ 1 :=
      List.length_take_le' _ _
    rw [exceeds_eq_false_iff]
    omega
  | cons b rest => simpa using h.2

/-- If the bytes give no more of each kind than the URI has, the raw check refuses no more. -/
theorem raw_ok_of_ok {block target : Str} {limits : RawRequestTargetLimits}
    (htarget : rawHttp1RequestTarget block = some target)
    (hlength : target.length ≤ requestTargetLength uri)
    (hquery : ∀ query ∈ rawTargetQuery (rawTargetPathAndQuery target), uri.query = some query)
    (hsegments : rawTargetPathSegmentCount (rawTargetPathAndQuery target) limits.maxPathSegments ≤
      ((uri.path.splitOn 0x2F).filter fun segment => !segment.isEmpty).length)
    (h : validateRequestTarget uri limits = .ok ()) :
    validateRawRequestTarget block limits = .ok () := by
  simp only [validateRequestTarget, bind_eq_ok, rejectIf_eq_ok, checkSome_eq_ok] at h
  obtain ⟨hbytes, hchecks, hcount⟩ := h
  rw [validateRawRequestTarget, htarget]
  simp only [bind_eq_ok, rejectIf_eq_ok, checkSome_eq_ok]
  refine ⟨exceeds_mono hlength hbytes, fun query hmem => ?_, exceeds_mono hsegments hcount⟩
  exact query_check (hchecks query (hquery query hmem))

/-- An authority goes to the first byte that ends it. -/
theorem exists_authority (tail : Str) :
    ∃ authority rest, tail = authority ++ rest ∧ (∀ b ∈ authority, isAuthorityEnd b = false) ∧
      ∀ b ∈ rest.head?, isAuthorityEnd b = true := by
  refine ⟨tail.takeWhile (!isAuthorityEnd ·), tail.dropWhile (!isAuthorityEnd ·),
    List.takeWhile_append_dropWhile.symm, ?_, ?_⟩
  · intro b hb
    simpa using List.mem_takeWhile_imp hb
  · intro b hb
    have hnot := List.head?_dropWhile_not (!isAuthorityEnd ·) tail
    rw [show (tail.dropWhile (!isAuthorityEnd ·)).head? = some b from hb] at hnot
    simpa using hnot

/-- **The raw guard never over-rejects.** -/
theorem raw_target_guard_never_over_rejects (uris : UriParser) (huris : ReadsTargets uris)
    (block target : Str) (uri : Uri) (limits : RawRequestTargetLimits)
    (htarget : rawHttp1RequestTarget block = some target)
    (hform : OriginForm target ∨ AbsoluteForm target) (hfragment : 0x23 ∉ target)
    (hparse : uris.uri target = .ok uri)
    (hrejects : validateRawRequestTarget block limits ≠ .ok ()) :
    validateRequestTarget uri limits ≠ .ok () := by
  refine fun hok => hrejects ?_
  rcases hform with horigin | ⟨scheme, rest, hne, hscheme, rfl⟩
  · -- the whole target is path and query
    obtain rfl := huris.origin target uri horigin hfragment hparse
    have hraw : rawTargetPathAndQuery target = target := by
      rw [rawTargetPathAndQuery, if_pos (by simp [show target.head? = _ from horigin])]
    have hnonempty : target ≠ [] := by
      rintro rfl
      cases horigin
    refine raw_ok_of_ok htarget ?_ ?_ ?_ hok
    · simp [requestTargetLength, Uri.pathAndQueryText, hnonempty]
    · intro query hmem
      rw [hraw, rawTargetQuery_eq_query none none] at hmem
      exact hmem
    · rw [hraw, ← segments_path]
      exact rawTargetPathSegmentCount_le target _
  · by_cases hslashes : utf8 "//" <+: rest
    · -- a scheme, an authority and the rest
      obtain ⟨tail, rfl⟩ := hslashes
      obtain ⟨authority, rest, rfl, hauthority, hrest⟩ := exists_authority tail
      have htext : scheme ++ 0x3A :: (utf8 "//" ++ (authority ++ rest)) =
          scheme ++ utf8 "://" ++ (authority ++ rest) := by
        rw [List.append_assoc]
        rfl
      rw [htext] at htarget hfragment hparse
      obtain ⟨hfirst, hfree⟩ := not_or.mp (mt List.mem_append.mpr hfragment)
      obtain ⟨-, hfree'⟩ := not_or.mp (mt List.mem_append.mpr hfree)
      obtain ⟨scheme', hsame, rfl⟩ := huris.hierarchical scheme authority rest uri hne hscheme
        hauthority hrest hfree' hparse
      have hraw := rawTargetPathAndQuery_hierarchical hne hscheme hauthority hrest hfree
      refine raw_ok_of_ok htarget ?_ ?_ ?_ hok
      · have hmark : (utf8 "://").length = 3 := rfl
        have hshown : rest.length ≤ (if rest.isEmpty then utf8 "/" else rest).length := by
          cases rest with
          | nil => exact Nat.zero_le _
          | cons b tail => exact le_rfl
        simp only [requestTargetLength, Uri.pathAndQueryText, List.length_append, hmark,
          Option.map_some, Option.getD_some, Option.elim_some, hsame, Option.isSome_some, if_true]
        omega
      · intro query hmem
        rw [hraw, rawTargetQuery_eq_query (some scheme') (some authority)] at hmem
        exact hmem
      · rw [hraw, ← segments_path]
        exact rawTargetPathSegmentCount_le rest _
    · -- read as an authority, which is as long
      obtain ⟨rfl, hfree⟩ := huris.rootless scheme rest uri hne hscheme hslashes hparse
      have hends : ∀ b ∈ scheme ++ 0x3A :: rest, isAuthorityEnd b = false := by
        intro b hb
        rcases List.mem_append.mp hb with hb | hb
        · exact isAuthorityEnd_of_scheme (hscheme b hb)
        · rcases List.mem_cons.mp hb with rfl | hb
          · decide
          · exact hfree b hb
      have hstar : scheme ++ 0x3A :: rest ≠ utf8 "*" := by
        obtain ⟨b, hhead, -, -, hb⟩ := head_scheme hne hscheme (0x3A :: rest)
        intro heq
        rw [heq] at hhead
        exact hb (Option.some.inj hhead).symm
      have hraw := rawTargetPathAndQuery_rootless hends hstar
      refine raw_ok_of_ok htarget ?_ ?_ ?_ hok
      · exact Nat.le_add_left _ _
      · rw [hraw]
        exact nofun
      · rw [hraw]
        exact (rawTargetPathSegmentCount_le [] _).trans (Nat.zero_le _)

/-! ## The crate splits targets in this way -/

theorem parsePathAndQuery_eq (hfragment : 0x23 ∉ s) (h : parsePathAndQuery s = .ok text) :
    text = s := by
  unfold parsePathAndQuery at h
  dsimp only at h
  split at h
  · rw [← Except.ok.inj h, List.takeWhile_eq_self_iff]
    intro b hb
    exact bne_iff_ne.mpr fun heq => hfragment (heq ▸ hb)
  · cases h

theorem splitAuthority_eq (h : splitAuthority s = .ok (text, rest)) :
    text = s.takeWhile (fun b => !isAuthorityEnd b) ∧ rest = s.drop text.length := by
  obtain ⟨scan, -, h⟩ := bind_eq_ok_iff.mp h
  obtain ⟨_, -, h⟩ := bind_eq_ok_iff.mp h
  obtain ⟨rfl, rfl⟩ := Prod.mk.inj (Except.ok.inj h)
  exact ⟨rfl, rfl⟩

/-- The authority of a text is its start without separators. -/
theorem splitAuthority_append {authority rest' : Str}
    (hauthority : ∀ b ∈ authority, isAuthorityEnd b = false)
    (hrest : ∀ b ∈ rest.head?, isAuthorityEnd b = true)
    (h : splitAuthority (authority ++ rest) = .ok (text, rest')) :
    text = authority ∧ rest' = rest := by
  obtain ⟨htext, hrest'⟩ := splitAuthority_eq h
  have hself : text = authority := by
    rw [htext, List.takeWhile_append_of_pos fun b hb => by simp [hauthority b hb]]
    cases rest with
    | nil => simp
    | cons b tail => simp [hrest b rfl]
  exact ⟨hself, by rw [hrest', hself, List.drop_left]⟩

/-- A scheme is what comes before the first colon. -/
theorem takeWhile_scheme (h : ∀ b ∈ scheme, isSchemeByte b = true) (rest : Str) :
    (scheme ++ 0x3A :: rest).takeWhile isSchemeByte = scheme := by
  have hcolon : isSchemeByte 0x3A = false := by decide
  rw [List.takeWhile_append_of_pos h, List.takeWhile_cons, hcolon]
  simp

/-- What the crate makes of a text that is no path and no star. -/
theorem parseUri_cases (hstar : s ≠ utf8 "*") (hslash : s.head? ≠ some 0x2F)
    (h : parseUri s = .ok uri) :
    ∃ scheme rest authority rest', splitScheme s = .ok (scheme, rest) ∧
      splitAuthority rest = .ok (authority, rest') ∧
      ((scheme = none ∧ rest' = [] ∧ uri = ⟨none, some authority, none⟩) ∨
        ∃ text, parsePathAndQuery rest' = .ok text ∧ scheme.isSome ∧
          uri = ⟨scheme, some authority, some text⟩) := by
  unfold parseUri at h
  obtain ⟨_, -, h⟩ := bind_eq_ok_iff.mp h
  obtain ⟨_, -, h⟩ := bind_eq_ok_iff.mp h
  rw [if_neg hstar, if_neg hslash] at h
  obtain ⟨⟨scheme, rest⟩, hscheme, h⟩ := bind_eq_ok_iff.mp h
  obtain ⟨⟨authority, rest'⟩, hauthority, h⟩ := bind_eq_ok_iff.mp h
  refine ⟨scheme, rest, authority, rest', hscheme, hauthority, ?_⟩
  cases scheme with
  | none =>
    obtain ⟨_, hrest, h⟩ := bind_eq_ok_iff.mp h
    rw [rejectIf_eq_ok, Bool.not_eq_false', List.isEmpty_iff] at hrest
    exact .inl ⟨rfl, hrest, (Except.ok.inj h).symm⟩
  | some scheme =>
    obtain ⟨_, -, h⟩ := bind_eq_ok_iff.mp h
    obtain ⟨text, htext, h⟩ := bind_eq_ok_iff.mp h
    exact .inr ⟨text, htext, rfl, (Except.ok.inj h).symm⟩

theorem length_canonicalScheme (scheme : Str) :
    (canonicalScheme scheme).length = scheme.length := by
  unfold canonicalScheme
  split
  · exact List.length_map _
  · rfl

/-- A target that starts with a scheme is no path and no star. -/
theorem parseUri_scheme_cases (hne : scheme ≠ []) (hscheme : ∀ b ∈ scheme, isSchemeByte b = true)
    (h : parseUri (scheme ++ 0x3A :: rest) = .ok uri) :
    ∃ read rest' authority rest'', splitScheme (scheme ++ 0x3A :: rest) = .ok (read, rest') ∧
      splitAuthority rest' = .ok (authority, rest'') ∧
      ((read = none ∧ rest'' = [] ∧ uri = ⟨none, some authority, none⟩) ∨
        ∃ text, parsePathAndQuery rest'' = .ok text ∧ read.isSome ∧
          uri = ⟨read, some authority, some text⟩) := by
  obtain ⟨b, hhead, hslash, -, hstar⟩ := head_scheme hne hscheme (0x3A :: rest)
  refine parseUri_cases ?_ ?_ h
  · intro heq
    rw [heq] at hhead
    exact hstar (Option.some.inj hhead).symm
  · rw [hhead]
    exact fun heq => hslash (Option.some.inj heq)

theorem httpCrate_readsTargets : ReadsTargets httpCrate where
  origin target uri horigin hfragment hparse := by
    change parseUri target = .ok uri at hparse
    unfold parseUri at hparse
    obtain ⟨_, -, hparse⟩ := bind_eq_ok_iff.mp hparse
    obtain ⟨_, -, hparse⟩ := bind_eq_ok_iff.mp hparse
    have hstar : target ≠ utf8 "*" := by
      rintro rfl
      cases horigin
    have hslash : target.head? = some 0x2F := horigin
    rw [if_neg hstar, if_pos hslash] at hparse
    obtain ⟨text, htext, hparse⟩ := bind_eq_ok_iff.mp hparse
    rw [← Except.ok.inj hparse, parsePathAndQuery_eq hfragment htext]
  hierarchical scheme authority rest uri hne hscheme hauthority hrest hfragment hparse := by
    have htext : scheme ++ utf8 "://" ++ (authority ++ rest) =
        scheme ++ 0x3A :: 0x2F :: 0x2F :: (authority ++ rest) := by
      rw [List.append_assoc]
      rfl
    rw [htext] at hparse
    obtain ⟨read, rest', authority', rest'', hread, hsplit, hcases⟩ :=
      parseUri_scheme_cases hne hscheme hparse
    have hthree : (0x3A :: 0x2F :: 0x2F :: (authority ++ rest)).take 3 = utf8 "://" := rfl
    rw [splitScheme, takeWhile_scheme hscheme, List.drop_left, if_pos hthree] at hread
    split at hread
    · cases hread
    · obtain ⟨rfl, hrest'⟩ := Prod.mk.inj (Except.ok.inj hread)
      have hdrop : (scheme ++ 0x3A :: 0x2F :: 0x2F :: (authority ++ rest)).drop
          (scheme.length + 3) = authority ++ rest := by
        rw [← List.drop_drop, List.drop_left]
        rfl
      rw [← hrest', hdrop] at hsplit
      obtain ⟨rfl, rfl⟩ := splitAuthority_append hauthority hrest hsplit
      rcases hcases with ⟨hnone, -, -⟩ | ⟨text, htext, -, rfl⟩
      · cases hnone
      · rw [parsePathAndQuery_eq hfragment htext]
        exact ⟨_, length_canonicalScheme scheme, rfl⟩
  rootless scheme rest uri hne hscheme hslashes hparse := by
    obtain ⟨read, rest', authority, rest'', hread, hsplit, hcases⟩ :=
      parseUri_scheme_cases hne hscheme hparse
    have hthree : (0x3A :: rest).take 3 ≠ utf8 "://" := by
      intro heq
      refine hslashes ⟨rest.drop 2, ?_⟩
      have htwo : rest.take 2 = utf8 "//" := (List.cons.inj heq).2
      rw [← htwo, List.take_append_drop]
    rw [splitScheme, takeWhile_scheme hscheme, List.drop_left, if_neg hthree] at hread
    obtain ⟨rfl, rfl⟩ := Prod.mk.inj (Except.ok.inj hread)
    rcases hcases with ⟨-, rfl, rfl⟩ | ⟨text, -, hsome, -⟩
    · obtain ⟨htext, hdrop⟩ := splitAuthority_eq hsplit
      have hwhole : authority = scheme ++ 0x3A :: rest := by
        have hstart : authority <+: scheme ++ 0x3A :: rest := htext ▸ List.takeWhile_prefix _
        rw [List.prefix_append_drop hstart, ← hdrop, List.append_nil]
      refine ⟨by rw [hwhole], fun b hb => ?_⟩
      have hmem : b ∈ authority := by
        rw [hwhole]
        exact List.mem_append_right _ (List.mem_cons_of_mem _ hb)
      rw [htext] at hmem
      simpa using List.mem_takeWhile_imp hmem
    · cases hsome

/-- `GET http://h?a&b&c HTTP/1.1`, with two parameters allowed. -/
theorem raw_target_guard_three_parameters :
    validateRequestTarget ⟨some (utf8 "http"), some (utf8 "h"), some (utf8 "?a&b&c")⟩
      ⟨0, 0, 2, 0⟩ ≠ .ok () := by
  refine raw_target_guard_never_over_rejects httpCrate httpCrate_readsTargets
    (utf8 "GET http://h?a&b&c HTTP/1.1") (utf8 "http://h?a&b&c") _ ⟨0, 0, 2, 0⟩ (by decide +kernel)
    (.inr ⟨utf8 "http", utf8 "//h?a&b&c", by decide, by decide +kernel, by decide⟩) (by decide)
    (by rfl) (by decide +kernel)

end AlturaProt.Http
