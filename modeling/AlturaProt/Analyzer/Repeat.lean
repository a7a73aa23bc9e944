import AlturaProt.Analyzer.Stable

/-!
# Merging the same filters again

An analysis that is run again over the same evidence merges the same filters into
the file that it has written. The rules that it sends are entered under the keys
they had before, and the file stays as it is, except where a key is an id: a rule
with neither signature nor path shape is keyed by its id, and the merge itself has
rewritten the id if another rule had it. Then the rule in the file is not displaced,
and the file grows: `merge_again_iff`.
-/

namespace AlturaProt.Analyzer

open Foundation Python

section Repeat

variable {F : Type} {rt : Runtime F}

/-! ## Ids given out -/

theorem freeId_own (seen : List PyStr) (base : PyStr) (h : base ∉ seen) :
    freeId seen base = base := if_neg h

/-- A wish is granted iff the id is free. -/
theorem freeId_eq_iff {seen : List PyStr} {base : PyStr} :
    freeId seen base = base ↔ base ∉ seen :=
  ⟨fun h => h ▸ freeId_notMem seen base, freeId_own seen base⟩

/-- The id given is the one asked for, or a numbered form of it. -/
theorem freeId_cases (seen : List PyStr) (base : PyStr) :
    freeId seen base = base ∨ ∃ k, 2 ≤ k ∧ freeId seen base = numbered base k := by
  by_cases h : base ∈ seen
  · obtain ⟨k, hk, -, heq⟩ := firstFree_eq (numbered base) seen seen.length 2
    exact .inr ⟨k, hk, (if_pos h).trans heq⟩
  · exact .inl (freeId_own seen base h)

/-- The ids of filters that ask for their own, one after the other. -/
def givenIds (seen : List PyStr) (cs : List CleanFilter) : List PyStr :=
  allot freeId seen (cs.map CleanFilter.id)

/-- The filters under the ids given to them. -/
def giveIds (seen : List PyStr) (cs : List CleanFilter) : List CleanFilter :=
  (cs.zip (givenIds seen cs)).map fun p => p.1.rename p.2

theorem length_givenIds (seen : List PyStr) (cs : List CleanFilter) :
    (givenIds seen cs).length = cs.length := by simp [givenIds]

theorem ids_giveIds (seen : List PyStr) (cs : List CleanFilter) :
    (giveIds seen cs).map CleanFilter.id = givenIds seen cs := by
  rw [giveIds, List.map_map]
  exact List.map_snd_zip (length_givenIds seen cs).le

theorem length_giveIds (seen : List PyStr) (cs : List CleanFilter) :
    (giveIds seen cs).length = cs.length := by
  simp [giveIds, length_givenIds]

theorem giveIds_append (seen : List PyStr) (a b : List CleanFilter) :
    giveIds seen (a ++ b) = giveIds seen a ++ giveIds ((givenIds seen a).reverse ++ seen) b := by
  rw [giveIds, givenIds, List.map_append, allot_append, List.zip_append (by simp), List.map_append]
  rfl

/-- Filters with distinct ids keep them. -/
theorem giveIds_eq_self {cs : List CleanFilter} (h : (cs.map CleanFilter.id).Nodup) :
    giveIds [] cs = cs := by
  have hids : givenIds [] cs = cs.map CleanFilter.id :=
    allot_eq_self freeId_own h fun _ _ => List.not_mem_nil
  have hzip : cs.zip (cs.map CleanFilter.id) = cs.map fun c => (c, c.id) := by
    conv_lhs => rw [← List.map_id cs, List.map_map, List.zip_map']
    rfl
  rw [giveIds, hids, hzip, List.map_map]
  exact List.map_id cs

theorem uniqueFilterIdsFrom_clean {cs : List CleanFilter} (hne : ∀ c ∈ cs, c.id ≠ [])
    (hsettled : ∀ c ∈ cs, safeId c.id = c.id) (seen : List PyStr) :
    uniqueFilterIdsFrom rt seen (cs.map CleanFilter.toDict : List (PyDict F)) =
      .ok ((giveIds seen cs).map CleanFilter.toDict) := by
  induction cs generalizing seen with
  | nil => rfl
  | cons c cs ih =>
    rw [List.map_cons, uniqueFilterIdsFrom,
      baseId_toDict (hne c List.mem_cons_self) (hsettled c List.mem_cons_self)]
    show (uniqueFilterIdsFrom rt (freeId seen c.id :: seen) (cs.map CleanFilter.toDict) >>= _) = _
    rw [ih (fun d hd => hne d (List.mem_cons_of_mem _ hd))
      (fun d hd => hsettled d (List.mem_cons_of_mem _ hd))]
    rfl

/-! ## What a merge returns -/

/-- The sanitized forms of the rules that a merge keeps. -/
def keptRules (rt : Runtime F) (ttlSeconds maxFilters : ℤ) (items : List (PyDict F)) :
    List CleanFilter :=
  (kept rt ttlSeconds maxFilters items).map Prod.snd

variable {ttlSeconds maxFilters : ℤ} {c : CleanFilter} {items newFilters : List (PyDict F)}

theorem sanitize_settled {item : PyDict F} (h : sanitize rt item ttlSeconds = .ok c) :
    safeId c.id = c.id := by
  simp only [sanitize, bind_eq_ok_iff] at h
  obtain ⟨_, -, _, -, id, -, _, -, hc⟩ := h
  obtain rfl := Except.ok.inj hc
  exact safeId_safeId id

/-- An item is entered whenever it can be sanitized. -/
theorem upsert_succeeds_iff {merged : Merged F} {item : PyDict F} :
    (∃ merged', upsert rt ttlSeconds merged item = .ok merged') ↔
      ∃ c, sanitize rt item ttlSeconds = .ok c := by
  constructor
  · rintro ⟨merged', h⟩
    obtain ⟨d, hd, -⟩ := bind_eq_ok_iff.mp h
    obtain ⟨c, hc, -⟩ := bind_eq_ok_iff.mp hd
    exact ⟨c, hc⟩
  · rintro ⟨c, hc⟩
    simp only [upsert, sanitizeFilter, hc]
    show ∃ merged', (if filterHasMatcher (c.toDict : PyDict F) = true then
      filterKey rt (c.toDict : PyDict F) >>= _ else _) = Except.ok merged'
    rw [filterKey_toDict]
    split
    · show ∃ merged', (if c.key = py "id:" then _ else _) = Except.ok merged'
      split <;> exact ⟨_, rfl⟩
    · exact ⟨_, rfl⟩

theorem foldlM_upsert_succeeds_iff {merged : Merged F} :
    (∃ merged', items.foldlM (upsert rt ttlSeconds) merged = .ok merged') ↔
      ∀ item ∈ items, ∃ c, sanitize rt item ttlSeconds = .ok c := by
  induction items generalizing merged with
  | nil => exact ⟨by simp, fun _ => ⟨merged, rfl⟩⟩
  | cons item items ih =>
    simp only [List.foldlM_cons, bind_eq_ok_iff, List.forall_mem_cons]
    constructor
    · rintro ⟨merged', next, hnext, hrest⟩
      exact ⟨upsert_succeeds_iff.mp ⟨next, hnext⟩, ih.mp ⟨merged', hrest⟩⟩
    · rintro ⟨hitem, hitems⟩
      obtain ⟨next, hnext⟩ : ∃ next, upsert rt ttlSeconds merged item = .ok next :=
        upsert_succeeds_iff.mpr hitem
      obtain ⟨merged', hrest⟩ : ∃ merged',
          items.foldlM (upsert rt ttlSeconds) next = .ok merged' := ih.mpr hitems
      exact ⟨merged', next, hnext, hrest⟩

/-- **What a merge returns**, and when: the kept rules under the ids given to them,
if every item can be sanitized. -/
theorem mergeExistingFilters_ok_iff {existing out : List (PyDict F)} :
    mergeExistingFilters rt existing newFilters ttlSeconds maxFilters = .ok out ↔
      (∀ item ∈ existing ++ newFilters, ∃ c, sanitize rt item ttlSeconds = .ok c) ∧
      out = (giveIds [] (keptRules rt ttlSeconds maxFilters (existing ++ newFilters))).map
        CleanFilter.toDict := by
  have hids : ∀ {merged₀ merged : Merged F},
      existing.foldlM (upsert rt ttlSeconds) [] = .ok merged₀ →
      newFilters.foldlM (upsert rt ttlSeconds) merged₀ = .ok merged →
      uniqueFilterIds rt (lastItems (max 1 maxFilters).toNat (merged.map Prod.snd)) =
        .ok ((giveIds [] (keptRules rt ttlSeconds maxFilters (existing ++ newFilters))).map
          CleanFilter.toDict) := by
    intro merged₀ merged h₀ h₁
    have hclean : ∀ c ∈ keptRules rt ttlSeconds maxFilters (existing ++ newFilters),
        ∃ item, sanitize rt item ttlSeconds = .ok c := by
      intro c hc
      obtain ⟨p, hp, rfl⟩ := List.mem_map.mp hc
      exact ⟨p.1, (sanitize_of_mem_kept rt hp).1⟩
    have hne : ∀ c ∈ keptRules rt ttlSeconds maxFilters (existing ++ newFilters), c.id ≠ [] := by
      intro c hc
      obtain ⟨item, hitem⟩ := hclean c hc
      exact (sanitize_clean rt hitem).id.nonempty
    have hsettled : ∀ c ∈ keptRules rt ttlSeconds maxFilters (existing ++ newFilters),
        safeId c.id = c.id := by
      intro c hc
      obtain ⟨item, hitem⟩ := hclean c hc
      exact sanitize_settled hitem
    have hunique : uniqueFilterIdsFrom rt [] ((keptRules rt ttlSeconds maxFilters
        (existing ++ newFilters)).map CleanFilter.toDict) = _ :=
      uniqueFilterIdsFrom_clean hne hsettled []
    rw [lastItems_merged rt h₀ h₁, uniqueFilterIds, ← hunique, keptRules, List.map_map]
    rfl
  simp only [mergeExistingFilters, bind_eq_ok_iff, List.forall_mem_append]
  constructor
  · rintro ⟨merged₀, h₀, merged, h₁, hout⟩
    refine ⟨⟨foldlM_upsert_succeeds_iff.mp ⟨merged₀, h₀⟩,
      foldlM_upsert_succeeds_iff.mp ⟨merged, h₁⟩⟩, ?_⟩
    exact (Except.ok.inj ((hids h₀ h₁).symm.trans hout)).symm
  · rintro ⟨⟨hold, hnew⟩, rfl⟩
    obtain ⟨merged₀, h₀⟩ : ∃ merged₀,
        existing.foldlM (upsert rt ttlSeconds) [] = .ok merged₀ :=
      foldlM_upsert_succeeds_iff.mpr hold
    obtain ⟨merged, h₁⟩ : ∃ merged,
        newFilters.foldlM (upsert rt ttlSeconds) merged₀ = .ok merged :=
      foldlM_upsert_succeeds_iff.mpr hnew
    exact ⟨merged₀, h₀, merged, h₁, hids h₀ h₁⟩

/-! ## Rules that are sent, and rules that were there -/

theorem lastItems_append {α : Type*} (n : ℕ) (a b : List α) :
    lastItems n (a ++ b) =
      if n ≤ b.length then lastItems n b else lastItems (n - b.length) a ++ b := by
  unfold lastItems
  rw [List.length_append]
  split
  · rw [List.drop_append, List.drop_eq_nil_of_le (by omega), List.nil_append]
    congr 1
    omega
  · rw [List.drop_append_of_le_length (by omega)]
    congr 2
    omega

theorem lastPerKey_eq_self {V : Type} {l : List (PyStr × V)} (h : (l.map Prod.fst).Nodup) :
    PyDict.lastPerKey l = l := by
  induction l with
  | nil => rfl
  | cons item rest ih =>
    rw [List.map_cons, List.nodup_cons] at h
    rw [PyDict.lastPerKey, if_neg h.1, ih h.2]

theorem mem_keys_lastPerKey {V : Type} {l : List (PyStr × V)} {key : PyStr} :
    key ∈ (PyDict.lastPerKey l).map Prod.fst ↔ key ∈ l.map Prod.fst := by
  constructor
  · exact fun h => List.map_subset _ (PyDict.lastPerKey_subset l) h
  · intro h
    induction l with
    | nil => exact h
    | cons item rest ih =>
      unfold PyDict.lastPerKey
      split
      · rename_i hmem
        rcases List.mem_cons.mp h with rfl | h
        · exact ih hmem
        · exact ih h
      · rcases List.mem_cons.mp h with rfl | h
        · exact List.mem_cons_self
        · exact List.mem_cons_of_mem _ (ih h)

/-- The keys that the items are entered under. -/
def sentKeys (rt : Runtime F) (ttlSeconds : ℤ) (items : List (PyDict F)) : List PyStr :=
  (entered rt ttlSeconds items).map Prod.fst

/-- The rules that the new items make. -/
def sentRules (rt : Runtime F) (ttlSeconds : ℤ) (items : List (PyDict F)) : List CleanFilter :=
  (PyDict.lastPerKey (entered rt ttlSeconds items)).map fun x => x.2.2

/-- The rules of the file that are kept, where there is room beside the new ones. -/
def oldRules (rt : Runtime F) (ttlSeconds maxFilters : ℤ) (existing newFilters : List (PyDict F)) :
    List CleanFilter :=
  (lastItems ((max 1 maxFilters).toNat - (sentRules rt ttlSeconds newFilters).length)
    ((PyDict.lastPerKey (entered rt ttlSeconds existing)).filter fun x =>
      decide (x.1 ∉ sentKeys rt ttlSeconds newFilters))).map fun x => x.2.2

theorem keptRules_eq (ttlSeconds maxFilters : ℤ) (existing newFilters : List (PyDict F)) :
    keptRules rt ttlSeconds maxFilters (existing ++ newFilters) =
      if (max 1 maxFilters).toNat ≤ (sentRules rt ttlSeconds newFilters).length then
        lastItems (max 1 maxFilters).toNat (sentRules rt ttlSeconds newFilters)
      else oldRules rt ttlSeconds maxFilters existing newFilters ++
        sentRules rt ttlSeconds newFilters := by
  have happend : entered rt ttlSeconds (existing ++ newFilters) =
      entered rt ttlSeconds existing ++ entered rt ttlSeconds newFilters :=
    List.filterMap_append
  rw [keptRules, kept, happend, PyDict.lastPerKey_append, List.map_map, lastItems_append,
    sentRules, List.length_map]
  split
  · rw [lastItems_map]
    rfl
  · rw [List.map_append, oldRules, sentRules, List.length_map]
    rfl

/-- The new rules fill the file on their own. -/
theorem keptRules_of_pushedOut (h : PushedOut rt ttlSeconds maxFilters newFilters)
    (existing : List (PyDict F)) :
    keptRules rt ttlSeconds maxFilters (existing ++ newFilters) =
      lastItems (max 1 maxFilters).toNat (sentRules rt ttlSeconds newFilters) := by
  rw [keptRules_eq, if_pos]
  rwa [sentRules, List.length_map]

theorem keptRules_of_room (h : ¬PushedOut rt ttlSeconds maxFilters newFilters)
    (existing : List (PyDict F)) :
    keptRules rt ttlSeconds maxFilters (existing ++ newFilters) =
      oldRules rt ttlSeconds maxFilters existing newFilters ++
        sentRules rt ttlSeconds newFilters := by
  rw [keptRules_eq, if_neg]
  rwa [sentRules, List.length_map]

theorem keys_sentRules :
    (sentRules rt ttlSeconds items).map CleanFilter.key =
      (PyDict.lastPerKey (entered rt ttlSeconds items)).map Prod.fst := by
  rw [sentRules, List.map_map]
  exact List.map_congr_left fun x hx => key_of_mem_entered (PyDict.lastPerKey_subset _ hx)

theorem mem_sentKeys_iff {key : PyStr} :
    key ∈ sentKeys rt ttlSeconds items ↔ ∃ c ∈ sentRules rt ttlSeconds items, c.key = key := by
  rw [sentKeys, ← mem_keys_lastPerKey, ← keys_sentRules, List.mem_map]

theorem key_oldRules {existing : List (PyDict F)}
    (h : c ∈ oldRules rt ttlSeconds maxFilters existing newFilters) :
    c.key ∉ sentKeys rt ttlSeconds newFilters := by
  obtain ⟨x, hx, rfl⟩ := List.mem_map.mp h
  obtain ⟨hmem, hkey⟩ := List.mem_filter.mp (List.mem_of_mem_drop hx)
  rw [key_of_mem_entered (PyDict.lastPerKey_subset _ hmem)]
  exact of_decide_eq_true hkey

/-! ## The second merge -/

/-- Keyed by its id. -/
def CleanFilter.KeyedById (c : CleanFilter) : Prop :=
  c.condition.signature = none ∧ c.condition.pathShape = none

instance (c : CleanFilter) : Decidable c.KeyedById := inferInstanceAs (Decidable (_ ∧ _))

theorem key_of_keyedById (h : c.KeyedById) : c.key = py "id:" ++ c.id := by
  rw [CleanFilter.key, h.1, h.2]

theorem keyedById_of_key {id : PyStr} (h : c.key = py "id:" ++ id) : c.KeyedById ∧ c.id = id := by
  unfold CleanFilter.key at h
  split at h
  · exact absurd (congrArg List.head? h) (by simp [py])
  · exact absurd (congrArg List.head? h) (by simp [py])
  · rename_i hsignature hshape
    exact ⟨⟨hsignature, hshape⟩, List.append_cancel_left h⟩

/-- Any other key stays the same under a new id. -/
theorem key_rename_of_not_keyedById (h : ¬c.KeyedById) (id : PyStr) :
    (c.rename id).key = c.key := by
  rcases key_cases c with ⟨hc, -⟩ | hc
  · exact hc id
  · exact absurd (keyedById_of_key (hc c.id)).1 h

section Room

variable {ttlSeconds maxFilters : ℤ} {existing newFilters : List (PyDict F)}

/-- The ids that are taken when the new rules ask for theirs. -/
def takenIds (rt : Runtime F) (ttlSeconds maxFilters : ℤ)
    (existing newFilters : List (PyDict F)) : List PyStr :=
  (givenIds [] (oldRules rt ttlSeconds maxFilters existing newFilters)).reverse ++ []

/-- Every new rule that is keyed by its id gets the id it asks for. -/
def SentIdsGranted (rt : Runtime F) (ttlSeconds maxFilters : ℤ)
    (existing newFilters : List (PyDict F)) : Prop :=
  ∀ p ∈ (sentRules rt ttlSeconds newFilters).zip (givenIds
      (takenIds rt ttlSeconds maxFilters existing newFilters)
      (sentRules rt ttlSeconds newFilters)), p.1.KeyedById → p.2 = p.1.id

theorem SentIdsGranted.free (h : SentIdsGranted rt ttlSeconds maxFilters existing newFilters)
    {before after : List CleanFilter} {c : CleanFilter}
    (hsplit : sentRules rt ttlSeconds newFilters = before ++ c :: after) (hid : c.KeyedById) :
    c.id ∉ (givenIds (takenIds rt ttlSeconds maxFilters existing newFilters) before).reverse ++
      takenIds rt ttlSeconds maxFilters existing newFilters :=
  freeId_eq_iff.mp (h (c, _) (mem_zip_allot_iff.mpr ⟨before, after, hsplit, rfl⟩) hid)

/-- The new rules have the keys of the new items again iff their ids are granted. -/
theorem sentIdsGranted_iff :
    SentIdsGranted rt ttlSeconds maxFilters existing newFilters ↔
      ∀ c ∈ giveIds (takenIds rt ttlSeconds maxFilters existing newFilters)
        (sentRules rt ttlSeconds newFilters), c.key ∈ sentKeys rt ttlSeconds newFilters := by
  constructor
  · intro h c hc
    obtain ⟨p, hp, rfl⟩ := List.mem_map.mp hc
    have hrule : p.1 ∈ sentRules rt ttlSeconds newFilters := (List.of_mem_zip hp).1
    have hkey : (p.1.rename p.2).key = p.1.key := by
      by_cases hid : p.1.KeyedById
      · rw [h p hp hid]
        rfl
      · exact key_rename_of_not_keyedById hid p.2
    rw [hkey]
    exact mem_sentKeys_iff.mpr ⟨p.1, hrule, rfl⟩
  · intro h
    refine allot_own_of_shared freeId_notMem freeId_own ?_ ?_
    · -- the ids are the keys, and these are distinct
      have hkeys : ((sentRules rt ttlSeconds newFilters).map CleanFilter.key).Nodup := by
        rw [keys_sentRules]
        exact PyDict.nodup_lastPerKey _
      have hsome := hkeys.sublist ((List.filter_sublist
        (p := fun c => decide c.KeyedById)).map CleanFilter.key)
      refine List.Nodup.of_map (py "id:" ++ ·) ?_
      rw [List.map_map]
      convert hsome using 1
      refine List.map_congr_left fun c hc => ?_
      exact (key_of_keyedById (of_decide_eq_true (List.mem_filter.mp hc).2)).symm
    · intro p hp hid
      have hmem : p.1.rename p.2 ∈ giveIds
          (takenIds rt ttlSeconds maxFilters existing newFilters)
          (sentRules rt ttlSeconds newFilters) := List.mem_map.mpr ⟨p, hp, rfl⟩
      have hkey : (p.1.rename p.2).key = py "id:" ++ p.2 := key_of_keyedById hid
      obtain ⟨c, hc, hckey⟩ := mem_sentKeys_iff.mp (h _ hmem)
      obtain ⟨hcid, heq⟩ := keyedById_of_key (hckey.trans hkey)
      exact ⟨c, hc, hcid, heq⟩

/-- If the ids of the new rules are granted, no rule that stays has got a key of
theirs. -/
theorem key_old_of_granted (h : SentIdsGranted rt ttlSeconds maxFilters existing newFilters)
    {c : CleanFilter}
    (hc : c ∈ giveIds [] (oldRules rt ttlSeconds maxFilters existing newFilters)) :
    c.key ∉ sentKeys rt ttlSeconds newFilters := by
  obtain ⟨p, hp, rfl⟩ := List.mem_map.mp hc
  obtain ⟨hrule, hgiven⟩ := List.of_mem_zip hp
  by_cases hid : p.1.KeyedById
  · intro hkey
    have hown : (p.1.rename p.2).key = py "id:" ++ p.2 := key_of_keyedById hid
    obtain ⟨d, hd, hdkey⟩ := mem_sentKeys_iff.mp hkey
    obtain ⟨hdid, hsame⟩ := keyedById_of_key (hdkey.trans hown)
    -- `d` asks for an id that is given away before
    obtain ⟨before, after, hsplit⟩ := List.append_of_mem hd
    refine h.free hsplit hdid (List.mem_append_right _ ?_)
    rw [hsame, takenIds, List.append_nil, List.mem_reverse]
    exact hgiven
  · rw [key_rename_of_not_keyedById hid]
    exact key_oldRules hrule

/-- The ids of the rules in a file. -/
theorem map_id_of_map_toDict {cs ds : List CleanFilter}
    (h : (cs.map CleanFilter.toDict : List (PyDict F)) = ds.map CleanFilter.toDict) :
    cs.map CleanFilter.id = ds.map CleanFilter.id := by
  have hids := congrArg (List.map fun d : PyDict F => d.getD "id" .none) h
  have hstr : ∀ cs : List CleanFilter,
      (cs.map CleanFilter.toDict).map (fun d : PyDict F => d.getD "id" .none) =
        (cs.map CleanFilter.id).map PyValue.str := by
    intro cs
    rw [List.map_map, List.map_map]
    rfl
  rw [hstr, hstr] at hids
  exact List.map_injective_iff.mpr (fun _ _ h => PyValue.str.inj h) hids

/-- The file of the first merge. -/
theorem written_giveIds {out : List (PyDict F)}
    (h : mergeExistingFilters rt existing newFilters ttlSeconds maxFilters = .ok out)
    (hsize : out.length + 2 < 10 ^ 95) :
    Written (F := F)
      (giveIds [] (keptRules rt ttlSeconds maxFilters (existing ++ newFilters))) := by
  have hout := (mergeExistingFilters_ok_iff.mp h).2
  obtain ⟨ids, hids, hout'⟩ := mergeExistingFilters_spec rt h
  -- the ids that are given are those of the file
  have hsame : ids = givenIds [] (keptRules rt ttlSeconds maxFilters (existing ++ newFilters)) := by
    rw [← ids_giveIds, ← renamed_ids hids.length_eq]
    exact map_id_of_map_toDict (hout'.symm.trans hout)
  have hrenamed : giveIds [] (keptRules rt ttlSeconds maxFilters (existing ++ newFilters)) =
      renamed (kept rt ttlSeconds maxFilters (existing ++ newFilters)) ids := by
    rw [giveIds, ← hsame, keptRules, renamed, List.zip_map_left, List.map_map]
    rfl
  rw [hout', List.length_map, length_renamed hids.length_eq] at hsize
  rw [hrenamed]
  exact written_renamed hids hsize

/-- Everything in the file can be sanitized again, so that the second merge returns. -/
theorem merge_again_ok_iff (hupper : rt.UpperAscii) {out : List (PyDict F)}
    (h : mergeExistingFilters rt existing newFilters ttlSeconds maxFilters = .ok out)
    (hsize : out.length + 2 < 10 ^ 95) :
    mergeExistingFilters rt out newFilters ttlSeconds maxFilters = .ok out ↔
      out = (giveIds [] (keptRules rt ttlSeconds maxFilters (out ++ newFilters))).map
        CleanFilter.toDict := by
  have hwritten := written_giveIds h hsize
  obtain ⟨hsanitize, hout⟩ := mergeExistingFilters_ok_iff.mp h
  refine mergeExistingFilters_ok_iff.trans ⟨And.right, fun heq => ⟨?_, heq⟩⟩
  intro item hitem
  rcases List.mem_append.mp hitem with hitem | hitem
  · rw [hout] at hitem
    obtain ⟨c, hc, rfl⟩ := List.mem_map.mp hitem
    have hclean := hwritten.clean c hc
    exact ⟨c, sanitize_toDict rt
      (fun m hm => upper_method rt hupper m (hclean.condition.methods m hm)) hclean
      (hwritten.settled c hc) ttlSeconds⟩
  · exact hsanitize item (List.mem_append_right _ hitem)

/-- What the second merge keeps of the file. -/
theorem oldRules_written {cs : List CleanFilter} (h : Written (F := F) cs)
    (hupper : rt.UpperAscii) :
    oldRules rt ttlSeconds maxFilters (cs.map CleanFilter.toDict) newFilters =
      lastItems ((max 1 maxFilters).toNat - (sentRules rt ttlSeconds newFilters).length)
        (cs.filter fun c => decide (c.key ∉ sentKeys rt ttlSeconds newFilters)) := by
  have hentered := h.entered_eq hupper ttlSeconds (List.Subset.refl cs)
  have hkeys : ((cs.map fun c => (c.key, (c.toDict : PyDict F), c)).map Prod.fst).Nodup := by
    rw [List.map_map]
    exact h.keys
  rw [oldRules, hentered, lastPerKey_eq_self hkeys, List.filter_map, lastItems_map, List.map_map]
  exact List.map_id _

theorem mem_lastItems_concat {α : Type*} {n : ℕ} (hn : 0 < n) (l : List α) (x : α) :
    x ∈ lastItems n (l ++ [x]) := by
  rw [lastItems, List.drop_append_of_le_length (by simp; omega)]
  exact List.mem_append_right _ (List.mem_singleton_self x)

/-- A file of old rules and of rules sent, merged with the same again: `stays` tells
which rules of the file are not displaced. The file comes out the same iff all the
rules sent before are displaced by those sent now. -/
theorem giveIds_again_iff {front back sent : List CleanFilter} {n : ℕ}
    {stays : CleanFilter → Bool} (hids : ((front ++ back).map CleanFilter.id).Nodup)
    (hback : back = giveIds ((front.map CleanFilter.id).reverse ++ []) sent) (hn : 0 < n)
    (hfront : front.length ≤ n)
    (hold : (∀ c ∈ back, stays c = false) → ∀ c ∈ front, stays c = true) :
    ((front ++ back).map CleanFilter.toDict : List (PyDict F)) =
        (giveIds [] (lastItems n ((front ++ back).filter stays) ++ sent)).map CleanFilter.toDict ↔
      ∀ c ∈ back, stays c = false := by
  have hsub : (lastItems n ((front ++ back).filter stays)).Sublist (front ++ back) :=
    (List.drop_sublist _ _).trans List.filter_sublist
  have hkeep := giveIds_eq_self (hids.sublist (hsub.map CleanFilter.id))
  have hgiven := ids_giveIds [] (lastItems n ((front ++ back).filter stays))
  rw [hkeep] at hgiven
  rw [giveIds_append, hkeep, ← hgiven]
  constructor
  · intro heq
    have hsame := map_id_of_map_toDict heq
    rw [List.map_append, List.map_append] at hsame
    obtain ⟨hsame, -⟩ := List.append_inj' hsame (by
      rw [List.length_map, List.length_map, hback, length_giveIds, length_giveIds])
    by_contra hsome
    push Not at hsome
    obtain ⟨c, hc, hstays⟩ := hsome
    -- the last rule that was sent and stays is among the old ones now
    obtain hnone | ⟨init, last, hinit⟩ := List.eq_nil_or_concat (back.filter stays)
    · exact hstays (by simpa using List.filter_eq_nil_iff.mp hnone c hc)
    rw [List.concat_eq_append] at hinit
    have hlast : last ∈ lastItems n ((front ++ back).filter stays) := by
      rw [List.filter_append, hinit, ← List.append_assoc]
      exact mem_lastItems_concat hn _ last
    have hfrontId : last.id ∈ front.map CleanFilter.id := by
      rw [hsame]
      exact List.mem_map_of_mem hlast
    have hbackMem : last ∈ back := by
      have hmem : last ∈ back.filter stays := by simp [hinit]
      exact (List.mem_filter.mp hmem).1
    rw [List.map_append] at hids
    exact List.disjoint_of_nodup_append hids hfrontId (List.mem_map_of_mem hbackMem)
  · intro hall
    have hkept : lastItems n ((front ++ back).filter stays) = front := by
      rw [List.filter_append, List.filter_eq_self.mpr (hold hall),
        List.filter_eq_nil_iff.mpr (fun c hc => by simp [hall c hc]), List.append_nil, lastItems,
        Nat.sub_eq_zero_of_le hfront, List.drop_zero]
    rw [hkept, ← hback]

/-- **The second merge**, where there is room beside the new rules: it leaves the file
as it is iff their ids were granted. -/
theorem merge_again_of_room (hupper : rt.UpperAscii) {out : List (PyDict F)}
    (h : mergeExistingFilters rt existing newFilters ttlSeconds maxFilters = .ok out)
    (hsize : out.length + 2 < 10 ^ 95) (hroom : ¬PushedOut rt ttlSeconds maxFilters newFilters) :
    mergeExistingFilters rt out newFilters ttlSeconds maxFilters = .ok out ↔
      SentIdsGranted rt ttlSeconds maxFilters existing newFilters := by
  have hwritten := written_giveIds h hsize
  have hout := (mergeExistingFilters_ok_iff.mp h).2
  rw [keptRules_of_room hroom, giveIds_append] at hwritten hout
  have hgranted : SentIdsGranted rt ttlSeconds maxFilters existing newFilters ↔
      ∀ c ∈ giveIds (takenIds rt ttlSeconds maxFilters existing newFilters)
        (sentRules rt ttlSeconds newFilters),
        decide (c.key ∉ sentKeys rt ttlSeconds newFilters) = false := by
    rw [sentIdsGranted_iff]
    simp only [decide_eq_false_iff_not, not_not]
  rw [merge_again_ok_iff hupper h hsize, keptRules_of_room hroom, hout,
    oldRules_written hwritten hupper, hgranted]
  refine giveIds_again_iff hwritten.ids ?_ ?_ ?_ ?_
  · rw [ids_giveIds]
  · rw [PushedOut, not_le] at hroom
    rw [sentRules, List.length_map]
    omega
  · rw [length_giveIds, oldRules, List.length_map]
    exact length_lastItems_le _ _
  · intro hall c hc
    exact decide_eq_true (key_old_of_granted (hgranted.mpr hall) hc)

/-! ## When a second merge changes nothing -/

/-- Every rule that a new item is kept under by its id asks for an id that none of
the rules before it has been given. -/
def SentIdsFree (rt : Runtime F) (ttlSeconds maxFilters : ℤ)
    (existing newFilters : List (PyDict F)) : Prop :=
  ∀ before c after,
    keptRules rt ttlSeconds maxFilters (existing ++ newFilters) = before ++ c :: after →
    c.key ∈ sentKeys rt ttlSeconds newFilters → c.KeyedById → c.id ∉ givenIds [] before

/-- No other item asks for the id of a new item that is keyed by it, and it is no
numbered form of an id that another item asks for. -/
def SentIdsApart (rt : Runtime F) (ttlSeconds : ℤ) (existing newFilters : List (PyDict F)) :
    Prop :=
  ∀ x ∈ entered rt ttlSeconds newFilters, x.2.2.KeyedById →
    ∀ y ∈ entered rt ttlSeconds (existing ++ newFilters), y.1 ≠ x.1 →
      y.2.2.id ≠ x.2.2.id ∧ ∀ k, numbered y.2.2.id k ≠ x.2.2.id

theorem sentIdsFree_iff (hroom : ¬PushedOut rt ttlSeconds maxFilters newFilters) :
    SentIdsFree rt ttlSeconds maxFilters existing newFilters ↔
      SentIdsGranted rt ttlSeconds maxFilters existing newFilters := by
  have hgiven : ∀ before : List CleanFilter, givenIds []
      (oldRules rt ttlSeconds maxFilters existing newFilters ++ before) =
      givenIds [] (oldRules rt ttlSeconds maxFilters existing newFilters) ++
        givenIds (takenIds rt ttlSeconds maxFilters existing newFilters) before := by
    intro before
    rw [givenIds, List.map_append, allot_append]
    rfl
  have hseen : ∀ (before : List CleanFilter) (id : PyStr),
      id ∈ givenIds [] (oldRules rt ttlSeconds maxFilters existing newFilters ++ before) ↔
      id ∈ (givenIds (takenIds rt ttlSeconds maxFilters existing newFilters) before).reverse ++
        takenIds rt ttlSeconds maxFilters existing newFilters := by
    intro before id
    rw [hgiven, takenIds, List.append_nil, List.mem_append, List.mem_append, List.mem_reverse,
      List.mem_reverse, or_comm]
  unfold SentIdsFree
  rw [keptRules_of_room hroom]
  constructor
  · intro h p hp hid
    obtain ⟨before, after, hsplit, hname⟩ := mem_zip_allot_iff.mp hp
    have hmem : p.1 ∈ sentRules rt ttlSeconds newFilters := (List.of_mem_zip hp).1
    have hfree := h (oldRules rt ttlSeconds maxFilters existing newFilters ++ before) p.1 after
      (by rw [hsplit, List.append_assoc]) (mem_sentKeys_iff.mpr ⟨p.1, hmem, rfl⟩) hid
    rw [hname]
    exact freeId_own _ _ (fun htaken => hfree ((hseen before _).mpr htaken))
  · intro h before c after hsplit hkey hid
    -- a rule with a key of the new items is not an old one
    obtain ⟨mid, rfl, hsent⟩ : ∃ mid,
        before = oldRules rt ttlSeconds maxFilters existing newFilters ++ mid ∧
        sentRules rt ttlSeconds newFilters = mid ++ c :: after := by
      rcases List.append_eq_append_iff.mp hsplit with ⟨mid, hbefore, hsent⟩ | ⟨mid, hold, hsent⟩
      · exact ⟨mid, hbefore, hsent⟩
      · cases mid with
        | nil => exact ⟨[], by simpa using hold.symm, by simpa using hsent.symm⟩
        | cons d mid =>
          obtain ⟨rfl, -⟩ := List.cons_eq_cons.mp hsent
          exact absurd hkey (key_oldRules (by rw [hold]; simp))
    rw [hseen]
    exact h.free hsent hid

theorem SentIdsApart.free (h : SentIdsApart rt ttlSeconds existing newFilters) :
    SentIdsFree rt ttlSeconds maxFilters existing newFilters := by
  intro before c after hsplit hkey hid htaken
  have hentry : ∀ d ∈ before ++ c :: after, ∃ y ∈ entered rt ttlSeconds (existing ++ newFilters),
      y.2.2 = d := by
    intro d hd
    rw [← hsplit] at hd
    obtain ⟨p, hp, rfl⟩ := List.mem_map.mp hd
    obtain ⟨y, hy, rfl⟩ := List.mem_map.mp hp
    exact ⟨y, PyDict.lastPerKey_subset _ (List.mem_of_mem_drop hy), rfl⟩
  have hnodup : ((before ++ c :: after).map CleanFilter.key).Nodup := by
    rw [← hsplit, keptRules, List.map_map]
    exact nodup_keys_kept ttlSeconds maxFilters (existing ++ newFilters)
  -- the rule that has got the id asks for it, or for one of which it is a numbered form
  obtain ⟨wish, hwish, seen, hgiven⟩ := mem_allot freeId htaken
  obtain ⟨d, hd, rfl⟩ := List.mem_map.mp hwish
  obtain ⟨y, hy, hyd⟩ := hentry d (List.mem_append_left _ hd)
  obtain ⟨x, hx, hxkey⟩ := List.mem_map.mp hkey
  have hxc : x.2.2.KeyedById ∧ x.2.2.id = c.id :=
    keyedById_of_key ((key_of_mem_entered hx).trans (hxkey.trans (key_of_keyedById hid)))
  have hne : y.1 ≠ x.1 := by
    rw [hxkey, ← key_of_mem_entered hy, hyd]
    intro hsame
    rw [List.map_append, List.map_cons] at hnodup
    exact List.disjoint_of_nodup_append hnodup (List.mem_map_of_mem hd)
      (hsame ▸ List.mem_cons_self)
  obtain ⟨hown, hnumbered⟩ := h x hx hxc.1 y hy hne
  rw [hyd, hxc.2] at hown
  rw [hyd] at hnumbered
  rcases freeId_cases seen d.id with hfree | ⟨k, -, hfree⟩
  · exact hown (hfree ▸ hgiven.symm)
  · exact hnumbered k (by rw [hxc.2, hgiven, hfree])

end Room

/-- **Merging the same filters again.** The file stays as it is iff the new rules fill
it on their own, or every one of them that is keyed by its id asks for an id that is
free. No id that others may ask for or be given is enough for that. (A list of the
interpreter has fewer than `2^63` items.) -/
theorem merge_again_iff (hupper : rt.UpperAscii) {existing newFilters out : List (PyDict F)}
    (hold : existing.length < 2 ^ 63) (hnew : newFilters.length < 2 ^ 63)
    {ttlSeconds maxFilters : ℤ}
    (h : mergeExistingFilters rt existing newFilters ttlSeconds maxFilters = .ok out) :
    (mergeExistingFilters rt out newFilters ttlSeconds maxFilters = .ok out ↔
      PushedOut rt ttlSeconds maxFilters newFilters ∨
        SentIdsFree rt ttlSeconds maxFilters existing newFilters) ∧
    (SentIdsApart rt ttlSeconds existing newFilters →
      mergeExistingFilters rt out newFilters ttlSeconds maxFilters = .ok out) := by
  have hsize : out.length + 2 < 10 ^ 95 := by
    have hkept : out.length ≤ (existing ++ newFilters).length := by
      rw [(mergeExistingFilters_ok_iff.mp h).2, List.length_map, length_giveIds, keptRules, kept,
        List.length_map, List.length_map, lastItems, List.length_drop]
      have hlast := (PyDict.lastPerKey_sublist
        (entered rt ttlSeconds (existing ++ newFilters))).length_le
      have hentered : (entered rt ttlSeconds (existing ++ newFilters)).length ≤
        (existing ++ newFilters).length := List.length_filterMap_le _ _
      omega
    rw [List.length_append] at hkept
    omega
  have hiff : mergeExistingFilters rt out newFilters ttlSeconds maxFilters = .ok out ↔
      PushedOut rt ttlSeconds maxFilters newFilters ∨
        SentIdsFree rt ttlSeconds maxFilters existing newFilters := by
    by_cases hroom : PushedOut rt ttlSeconds maxFilters newFilters
    · have hout := (mergeExistingFilters_ok_iff.mp h).2
      rw [keptRules_of_pushedOut hroom] at hout
      rw [merge_again_ok_iff hupper h hsize, keptRules_of_pushedOut hroom]
      simp [hroom, ← hout]
    · rw [merge_again_of_room hupper h hsize hroom, sentIdsFree_iff hroom]
      simp [hroom]
  exact ⟨hiff, fun hapart => hiff.mpr (.inr hapart.free)⟩

end Repeat

/-! ## A file that grows -/

/-- A rule with the id that the new rule has too: the new one is renamed, and is not
recognised when it is sent again. -/
theorem merge_again_grows :
    ∃ file grown, mergeExistingFilters asciiRuntime [shapeFilter "scan" "/s"]
        [pathFilter "scan" "/.env" 100] 60 1024 = .ok file ∧
      mergeExistingFilters asciiRuntime file [pathFilter "scan" "/.env" 100] 60 1024 = .ok grown ∧
      file.length = 2 ∧ grown.length = 3 ∧ grown ≠ file := by
  refine ⟨_, _, rfl, rfl, rfl, rfl, ?_⟩
  intro h
  cases congrArg List.length h

/-- A new rule with an id of its own is recognised. -/
theorem merge_again_changes_nothing :
    ∃ file, mergeExistingFilters asciiRuntime [shapeFilter "scan" "/s"]
        [pathFilter "env" "/.env" 100] 60 1024 = .ok file ∧
      mergeExistingFilters asciiRuntime file [pathFilter "env" "/.env" 100] 60 1024 = .ok file := by
  obtain ⟨file, hfile⟩ : ∃ file, mergeExistingFilters asciiRuntime [shapeFilter "scan" "/s"]
    [pathFilter "env" "/.env" 100] 60 1024 = .ok file := ⟨_, rfl⟩
  refine ⟨file, hfile, (merge_again_iff (fun _ _ => rfl) (by decide) (by decide) hfile).1.mpr
    (.inr ?_)⟩
  have hkept : keptRules asciiRuntime 60 1024
      ([shapeFilter "scan" "/s"] ++ [pathFilter "env" "/.env" 100]) = [shapeRule "scan" "/s",
        ⟨py "env", true, 100, 60,
          ⟨none, some (py "/.env"), none, none, none, none, none, [], []⟩⟩] := rfl
  intro before c after hsplit _ hid
  rw [hkept] at hsplit
  match before with
  | [] =>
    obtain ⟨rfl, -⟩ := List.cons_eq_cons.mp hsplit
    cases hid.2
  | [d] =>
    obtain ⟨rfl, hrest⟩ := List.cons_eq_cons.mp hsplit
    obtain ⟨rfl, -⟩ := List.cons_eq_cons.mp hrest
    decide
  | _ :: _ :: _ =>
    have hlength := congrArg List.length hsplit
    simp at hlength

end AlturaProt.Analyzer
