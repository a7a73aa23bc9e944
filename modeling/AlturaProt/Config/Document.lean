import AlturaProt.Foundation.Python

/-!
# Key paths of a document

`get_value` and `set_value` of `src/config_store.rs`: a key path names a value in a JSON
document, by the keys on the way from the root. `get_value` walks down shared references
and `set_value` mutable ones; it changes the document in place or returns an error.

`Replaces` says independently of both what it means that one value of a document has been
replaced, and `config_paths_are_lens` that the two functions are the two halves of a lens.
An object is the list of its members; nothing here depends on their order.
-/

namespace AlturaProt.Config

open Foundation Python

variable {F : Type}

/-! ## Members of an object -/

/-- `Value::get` with a key. -/
def member? (key : PyStr) : PyValue F → Option (PyValue F)
  | .dict items => items.lookup key
  | _ => none

/-- `Map::insert`. -/
def insertItem (key : PyStr) (v : PyValue F) : PyDict F → PyDict F
  | [] => [(key, v)]
  | item :: rest => if item.1 = key then (key, v) :: rest else item :: insertItem key v rest

theorem lookup_insertItem (key other : PyStr) (v : PyValue F) (items : PyDict F) :
    (insertItem key v items).lookup other = if other = key then some v else items.lookup other := by
  induction items with
  | nil =>
    by_cases hother : other = key
    · simp [insertItem, hother]
    · simp [insertItem, List.lookup, hother, beq_false_of_ne hother]
  | cons item rest ih =>
    obtain ⟨k, w⟩ := item
    by_cases hk : k = key
    · subst hk
      by_cases hother : other = k
      · simp [insertItem, hother]
      · simp [insertItem, List.lookup, hother, beq_false_of_ne hother]
    · rw [insertItem, if_neg hk]
      by_cases hother : other = k
      · subst hother
        simp [hk]
      · simp only [List.lookup, beq_false_of_ne hother, ih]

theorem insertItem_insertItem (key : PyStr) (v w : PyValue F) (items : PyDict F) :
    insertItem key w (insertItem key v items) = insertItem key w items := by
  induction items with
  | nil => simp [insertItem]
  | cons item rest ih =>
    by_cases hk : item.1 = key
    · simp [insertItem, hk]
    · simp [insertItem, hk, ih]

/-- To write back what is there changes nothing. -/
theorem insertItem_of_lookup {key : PyStr} {v : PyValue F} {items : PyDict F}
    (h : items.lookup key = some v) : insertItem key v items = items := by
  induction items with
  | nil => cases h
  | cons item rest ih =>
    obtain ⟨k, w⟩ := item
    by_cases hk : k = key
    · subst hk
      rw [List.lookup_cons_self, Option.some.injEq] at h
      rw [insertItem, if_pos rfl, h]
    · rw [List.lookup, beq_false_of_ne (Ne.symm hk)] at h
      rw [insertItem, if_neg hk, ih h]

/-! ## Reading and writing -/

/-- `key_path.split('.')`. -/
def segments (keyPath : String) : List PyStr :=
  (keyPath.toList.splitOn '.').map fun segment => segment.map Char.toNat

def invalidKeyPath (keyPath : String) : String := "invalid config key path: " ++ keyPath

def keyNotFound (keyPath : String) : String := "config key not found: " ++ keyPath

def notAnObjectPath (keyPath : String) : String :=
  "config key " ++ keyPath ++ " is not an object path"

/-- The loop of `get_value`. -/
def getAt (keyPath : String) : List PyStr → PyValue F → Except String (PyValue F)
  | [], current => .ok current
  | segment :: rest, current =>
    if segment.isEmpty then .error (invalidKeyPath keyPath)
    else (member? segment current).elim (.error (keyNotFound keyPath)) (getAt keyPath rest)

def getValue (doc : PyValue F) (keyPath : String) : Except String (PyValue F) :=
  if keyPath.toList.isEmpty then .error "config key path must not be empty"
  else getAt keyPath (segments keyPath) doc

/-- The loop of `set_value`, on the value it refers to; what the reference is to afterwards,
and the result. -/
def setAt (keyPath : String) (new : PyValue F) :
    List PyStr → PyValue F → PyValue F × Except String Unit
  | [], current => (current, .error (invalidKeyPath keyPath))
  | [leaf], .dict items => (.dict (insertItem leaf new items), .ok ())
  | [_], current => (current, .error (notAnObjectPath keyPath))
  | segment :: rest, .dict items =>
    match items.lookup segment with
    | none => (.dict items, .error (keyNotFound keyPath))
    | some (.dict inner) =>
      let result := setAt keyPath new rest (.dict inner)
      (.dict (insertItem segment result.1 items), result.2)
    | some _ => (.dict items, .error (notAnObjectPath keyPath))
  | _ :: _, current => (current, .error (keyNotFound keyPath))

def setValue (doc : PyValue F) (keyPath : String) (new : PyValue F) :
    PyValue F × Except String Unit :=
  if (segments keyPath).isEmpty || (segments keyPath).any List.isEmpty then
    (doc, .error (invalidKeyPath keyPath))
  else setAt keyPath new (segments keyPath) doc

/-! ## What it means to replace a value -/

/-- `doc'` is `doc` with `new` at the end of the path, and nothing else is different. -/
inductive Replaces (new : PyValue F) : List PyStr → PyValue F → PyValue F → Prop where
  | leaf {leaf : PyStr} {items items' : PyDict F} (hnew : items'.lookup leaf = some new)
      (hothers : ∀ key, key ≠ leaf → items'.lookup key = items.lookup key) :
      Replaces new [leaf] (.dict items) (.dict items')
  | inner {segment : PyStr} {rest : List PyStr} {items items' : PyDict F}
      {next next' : PyValue F} (hnext : items.lookup segment = some next)
      (hnext' : items'.lookup segment = some next')
      (hothers : ∀ key, key ≠ segment → items'.lookup key = items.lookup key)
      (hrest : Replaces new rest next next') :
      Replaces new (segment :: rest) (.dict items) (.dict items')

variable {keyPath : String} {new doc doc' : PyValue F} {path other : List PyStr}

theorem Replaces.eq_dict (h : Replaces new path doc doc') : ∃ items', doc' = .dict items' := by
  cases h with
  | leaf => exact ⟨_, rfl⟩
  | inner => exact ⟨_, rfl⟩

/-- What has been put at a path is found there. -/
theorem Replaces.getAt_eq (h : Replaces new path doc doc') (hpath : ∀ s ∈ path, s ≠ [])
    (keyPath : String) : getAt keyPath path doc' = .ok new := by
  induction h with
  | leaf hnew hothers =>
    have hleaf := hpath _ List.mem_cons_self
    simp [getAt, hleaf, member?, hnew]
  | inner hnext hnext' hothers hrest ih =>
    have hsegment := hpath _ List.mem_cons_self
    simp only [getAt, List.isEmpty_iff, hsegment, if_false, member?, hnext', Option.elim_some]
    exact ih fun s hs => hpath s (List.mem_cons_of_mem _ hs)

/-- Under a path that is neither longer nor shorter, everything is as before. -/
theorem Replaces.getAt_other (h : Replaces new path doc doc') (hlonger : ¬ path <+: other)
    (hshorter : ¬ other <+: path) (keyPath : String) :
    getAt keyPath other doc' = getAt keyPath other doc := by
  induction h generalizing other with
  | @leaf leaf _ _ hnew hothers =>
    cases other with
    | nil => exact absurd List.nil_prefix hshorter
    | cons key rest =>
      have hkey : key ≠ leaf := fun heq =>
        hlonger (List.cons_prefix_cons.mpr ⟨heq.symm, List.nil_prefix⟩)
      simp only [getAt, member?, hothers key hkey]
  | @inner segment _ _ _ _ _ hnext hnext' hothers hrest ih =>
    cases other with
    | nil => exact absurd List.nil_prefix hshorter
    | cons key rest =>
      rw [List.cons_prefix_cons, not_and] at hlonger hshorter
      by_cases hkey : key = segment
      · subst hkey
        simp only [getAt, member?, hnext, hnext', Option.elim_some]
        rw [ih (hlonger rfl) (hshorter rfl)]
      · simp only [getAt, member?, hothers key hkey]

/-! ## `set_value` replaces a value, or does nothing -/

theorem setAt_cases (keyPath : String) (new : PyValue F) (path : List PyStr) (doc : PyValue F) :
    (∃ error, setAt keyPath new path doc = (doc, .error error)) ∨
      (setAt keyPath new path doc).2 = .ok () ∧
        Replaces new path doc (setAt keyPath new path doc).1 := by
  fun_induction setAt keyPath new path doc with
  | case1 => exact .inl ⟨_, rfl⟩
  | case2 leaf items =>
    refine .inr ⟨rfl, .leaf ?_ ?_⟩
    · rw [lookup_insertItem, if_pos rfl]
    · intro key hkey
      rw [lookup_insertItem, if_neg hkey]
  | case3 => exact .inl ⟨_, rfl⟩
  | case4 => exact .inl ⟨_, rfl⟩
  | case5 segment rest items hrest inner hlookup result ih =>
    rcases ih with ⟨error, herror⟩ | ⟨hok, hreplaces⟩
    · refine .inl ⟨error, ?_⟩
      rw [show result = _ from herror, insertItem_of_lookup hlookup]
    · refine .inr ⟨hok, .inner hlookup ?_ ?_ hreplaces⟩
      · rw [lookup_insertItem, if_pos rfl]
      · intro key hkey
        rw [lookup_insertItem, if_neg hkey]
  | case6 => exact .inl ⟨_, rfl⟩
  | case7 => exact .inl ⟨_, rfl⟩

/-- A second value at the same path takes the place of the first. -/
theorem setAt_setAt (again : PyValue F) (h : (setAt keyPath new path doc).2 = .ok ()) :
    setAt keyPath again path (setAt keyPath new path doc).1 = setAt keyPath again path doc := by
  fun_induction setAt keyPath new path doc with
  | case1 => rfl
  | case2 leaf items => simp only [setAt, insertItem_insertItem]
  | case3 => rfl
  | case4 => rfl
  | case5 segment rest items hrest inner hlookup result ih =>
    -- below an object there is an object again
    obtain ⟨inner', hinner'⟩ : ∃ inner', result.1 = .dict inner' := by
      rcases setAt_cases keyPath new rest (.dict inner) with ⟨error, herror⟩ | ⟨-, hreplaces⟩
      · exact ⟨inner, congrArg Prod.fst herror⟩
      · exact hreplaces.eq_dict
    have hlookup' : (insertItem segment result.1 items).lookup segment =
        some (.dict inner') := by
      rw [lookup_insertItem, if_pos rfl, hinner']
    have ih := ih h
    rw [hinner'] at ih
    rw [setAt, hlookup', setAt, hlookup]
    · dsimp only
      rw [ih, insertItem_insertItem]
    · exact hrest
    · exact hrest
  | case6 => rfl
  | case7 => rfl

/-- Whenever the first check is passed, the path is walked; and it has no empty segment. -/
theorem setValue_cases (doc : PyValue F) (keyPath : String) :
    (∀ new, ∃ error, setValue doc keyPath new = (doc, .error error)) ∨
      (∀ s ∈ segments keyPath, s ≠ []) ∧
        ∀ doc' new : PyValue F,
          setValue doc' keyPath new = setAt keyPath new (segments keyPath) doc' := by
  by_cases hempty : ((segments keyPath).isEmpty || (segments keyPath).any List.isEmpty) = true
  · exact .inl fun new => ⟨invalidKeyPath keyPath, if_pos hempty⟩
  · refine .inr ⟨fun s hs heq => hempty ?_, fun doc' new => ?_⟩
    · rw [Bool.or_eq_true, List.any_eq_true]
      exact .inr ⟨s, hs, by rw [heq]; rfl⟩
    · rw [setValue, if_neg hempty]

/-- **`set_value` replaces the value at its path, or does nothing.** -/
theorem setValue_replaces (doc : PyValue F) (keyPath : String) (new : PyValue F) :
    (∃ error, setValue doc keyPath new = (doc, .error error)) ∨
      (setValue doc keyPath new).2 = .ok () ∧
        Replaces new (segments keyPath) doc (setValue doc keyPath new).1 := by
  rcases setValue_cases doc keyPath with hfail | ⟨-, hwalk⟩
  · exact .inl (hfail new)
  · rw [hwalk]
    exact setAt_cases keyPath new _ doc

/-- A path without empty segments is no empty text. -/
theorem getValue_eq_getAt (h : ∀ s ∈ segments keyPath, s ≠ []) (doc : PyValue F) :
    getValue doc keyPath = getAt keyPath (segments keyPath) doc := by
  refine if_neg fun hempty => ?_
  rw [List.isEmpty_iff] at hempty
  exact h [] (by simp [segments, hempty]) rfl

/-- **Key paths form a lens.** -/
theorem config_paths_are_lens (doc : PyValue F) (keyPath : String) (new : PyValue F) :
    ((setValue doc keyPath new).2 = .ok () →
      getValue (setValue doc keyPath new).1 keyPath = .ok new ∧
      (∀ other, ¬ segments keyPath <+: segments other → ¬ segments other <+: segments keyPath →
        getValue (setValue doc keyPath new).1 other = getValue doc other) ∧
      ∀ again, setValue (setValue doc keyPath new).1 keyPath again =
        setValue doc keyPath again) ∧
    ∀ error, (setValue doc keyPath new).2 = .error error →
      (setValue doc keyPath new).1 = doc := by
  constructor
  · intro hok
    rcases setValue_replaces doc keyPath new with ⟨error, herror⟩ | ⟨-, hreplaces⟩
    · rw [herror] at hok
      cases hok
    rcases setValue_cases doc keyPath with hfail | ⟨hsegments, hwalk⟩
    · obtain ⟨error, herror⟩ := hfail new
      rw [herror] at hok
      cases hok
    refine ⟨?_, fun other hlonger hshorter => ?_, fun again => ?_⟩
    · rw [getValue_eq_getAt hsegments]
      exact hreplaces.getAt_eq hsegments keyPath
    · simp only [getValue, hreplaces.getAt_other hlonger hshorter other]
    · simp only [hwalk] at hok ⊢
      exact setAt_setAt again hok
  · intro error herror
    rcases setValue_replaces doc keyPath new with ⟨error', hfail⟩ | ⟨hok, -⟩
    · rw [hfail]
    · rw [hok] at herror
      cases herror

/-- A limit of the listener. -/
example : getValue (setValue (.dict [(py "http", .dict [(py "listen", .str (py "a")),
      (py "limits", .dict [(py "per_ip_rps", .int 250)])])] : PyValue Unit)
      "http.limits.per_ip_rps" (.int 500)).1 "http.limits.per_ip_rps" = .ok (.int 500) := by
  rfl

end AlturaProt.Config
