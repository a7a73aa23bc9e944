import AlturaProt.Foundation.Python

/-!
# Records from JSON values

How a derived deserializer reads a record from a JSON value: from an object by
the names of the fields, where unknown fields are ignored, or from an array by
their positions. A field with a default may be absent; a number must be an
integer within the bounds of its type.
-/

namespace AlturaProt.Foundation.Python

variable {F α : Type}

def readStr : PyValue F → Option Str
  | .str s => encode s
  | _ => none

def readBool : PyValue F → Option Bool
  | .bool b => some b
  | _ => none

/-- An unsigned integer of `width` bits. -/
def readUnsigned (width : ℕ) : PyValue F → Option ℕ
  | .int z => if 0 ≤ z ∧ z < 2 ^ width then some z.toNat else none
  | _ => none

/-- `null` is no value. -/
def readOption (read : PyValue F → Option α) : PyValue F → Option (Option α)
  | .none => some none
  | v => (read v).map some

def readList (read : PyValue F → Option α) : PyValue F → Option (List α)
  | .list items => items.mapM read
  | _ => none

/-- A field that must be there. -/
def required (read : PyValue F → Option α) (field : Option (PyValue F)) : Option α :=
  field.bind read

/-- A field that may be absent. -/
def withDefault (fallback : α) (read : PyValue F → Option α) :
    Option (PyValue F) → Option α
  | none => some fallback
  | some v => read v

@[simp] theorem required_some (read : PyValue F → Option α) (v : PyValue F) :
    required read (some v) = read v := rfl

@[simp] theorem withDefault_none (fallback : α) (read : PyValue F → Option α) :
    withDefault fallback read none = some fallback := rfl

@[simp] theorem withDefault_some (fallback : α) (read : PyValue F → Option α) (v : PyValue F) :
    withDefault fallback read (some v) = read v := rfl

/-- The fields of a record with these names. -/
def recordFields (names : List String) : PyValue F → Option (String → Option (PyValue F))
  | .dict items => some fun name => items.lookup (py name)
  | .list items =>
    if items.length ≤ names.length then some fun name => items[names.idxOf name]? else none
  | _ => none

/-- The reading of a text, for those that can be encoded. -/
def text (s : PyStr) : Str := (encode s).getD []

theorem readStr_text {s : PyStr} (h : (encode s).isSome = true) :
    readStr (.str s : PyValue F) = some (text s) := by
  obtain ⟨bytes, hb⟩ := Option.isSome_iff_exists.mp h
  simp [readStr, text, hb]

theorem text_eq {s : PyStr} {bytes : Str} (h : encode s = some bytes) : text s = bytes := by
  simp [text, h]

theorem text_ascii {s : PyStr} (h : ∀ c ∈ s, c < 128) : text s = s.map Nat.toUInt8 :=
  text_eq (encode_ascii h)

theorem encodable_ascii {s : PyStr} (h : ∀ c ∈ s, c < 128) : (encode s).isSome = true := by
  rw [encode_ascii h]
  rfl

/-- Different encodable strings are read differently. -/
theorem text_inj {s t : PyStr} (hs : (encode s).isSome = true) (ht : (encode t).isSome = true)
    (h : text s = text t) : s = t := by
  obtain ⟨a, ha⟩ := Option.isSome_iff_exists.mp hs
  obtain ⟨b, hb⟩ := Option.isSome_iff_exists.mp ht
  rw [text_eq ha, text_eq hb] at h
  exact encode_inj ha (h ▸ hb)

theorem readUnsigned_eq_some {width : ℕ} {z : ℤ} {n : ℕ} :
    readUnsigned width (.int z : PyValue F) = some n ↔ (0 ≤ z ∧ z < 2 ^ width) ∧ z.toNat = n := by
  simp [readUnsigned]

/-- An optional text that is left out when there is none. -/
theorem withDefault_text {o : Option PyStr} (h : ∀ s ∈ o, (encode s).isSome = true) :
    withDefault none (readOption readStr) (o.map .str : Option (PyValue F)) =
      some (o.map text) := by
  cases o with
  | none => rfl
  | some s =>
    show (readStr (.str s : PyValue F)).map some = some (some (text s))
    rw [readStr_text (h s rfl)]
    rfl

/-- A list is read if all its items are. -/
theorem mapM_eq_some_iff {β : Type} {read : β → Option α} {p : β → Prop} [DecidablePred p]
    {value : β → α} {l : List β}
    (h : ∀ x ∈ l, read x = if p x then some (value x) else none) {values : List α} :
    l.mapM read = some values ↔ (∀ x ∈ l, p x) ∧ l.map value = values := by
  induction l generalizing values with
  | nil => simp
  | cons x rest ih =>
    have hrest : ∀ y ∈ rest, read y = if p y then some (value y) else none :=
      fun y hy => h y (List.mem_cons_of_mem _ hy)
    rw [List.mapM_cons, h x List.mem_cons_self]
    split
    · rename_i hx
      show (rest.mapM read).bind (fun others => some (value x :: others)) = some values ↔ _
      constructor
      · intro hread
        obtain ⟨others, hothers, heq⟩ := Option.bind_eq_some_iff.mp hread
        obtain ⟨hall, rfl⟩ := (ih hrest).mp hothers
        exact ⟨List.forall_mem_cons.mpr ⟨hx, hall⟩, Option.some.inj heq⟩
      · rintro ⟨hall, rfl⟩
        rw [(ih hrest).mpr ⟨(List.forall_mem_cons.mp hall).2, rfl⟩]
        rfl
    · rename_i hx
      simp [hx]

/-- A list that is left out when it is empty. -/
theorem withDefault_list {β : Type} {read : PyValue F → Option α} (write : β → PyValue F)
    (value : β → α) {l : List β} (h : ∀ x ∈ l, read (write x) = some (value x)) :
    withDefault [] (readList read) (PyDict.nonEmptyList write l) = some (l.map value) := by
  have hmap : (l.map write).mapM read = some (l.map value) := by
    rw [List.mapM_map]
    exact (mapM_eq_some_iff (p := fun _ => True) (by simpa using h)).mpr ⟨by simp, rfl⟩
  cases l with
  | nil => rfl
  | cons x rest => exact hmap

end AlturaProt.Foundation.Python
