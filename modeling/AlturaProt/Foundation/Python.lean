import AlturaProt.Foundation.Text
import Mathlib

/-!
# Values of a Python program

The JSON values a Python program handles, with the conversions between them. A
string is a list of code points, which need not be encodable; a dictionary is
the list of its items in insertion order.

What depends on the interpreter's tables, the float format or its printer is
left open as a `Runtime`. A conversion that raises is an error.
-/

namespace AlturaProt.Foundation.Python

/-! ## Strings -/

/-- Code points. -/
abbrev PyStr : Type := List ℕ

instance lawfulBEqPyStr : LawfulBEq PyStr := inferInstance

/-- The code points of a literal. -/
def py (s : String) : PyStr := s.toList.map Char.toNat

/-- `None` on a surrogate, where encoding raises. -/
def encodePoint (c : ℕ) : Option Str :=
  if c.isValidChar then some (String.utf8EncodeChar (Char.ofNat c)) else none

/-- `s.encode("utf-8")`. -/
def encode : PyStr → Option Str
  | [] => some []
  | c :: rest => (encodePoint c).bind fun bytes => (encode rest).map (bytes ++ ·)

/-- `s.strip(c)` for a single character. -/
def strip (c : ℕ) (s : PyStr) : PyStr :=
  ((s.dropWhile (· == c)).reverse.dropWhile (· == c)).reverse

/-- `s[:k]`; a negative bound counts from the end. -/
def sliceTo (s : PyStr) (k : ℤ) : PyStr :=
  if 0 ≤ k then s.take k.toNat else s.take (s.length - (-k).toNat)

/-- A natural number in decimal. -/
def decimal (n : ℕ) : PyStr :=
  if n = 0 then [0x30] else (Nat.digits 10 n).reverse.map (0x30 + ·)

/-- `l[-n:]` for a positive `n`. -/
def lastItems {α : Type*} (n : ℕ) (l : List α) : List α := l.drop (l.length - n)

variable {α : Type*} {n c : ℕ} {s : PyStr}

theorem lastItems_map {β : Type*} (f : α → β) (n : ℕ) (l : List α) :
    lastItems n (l.map f) = (lastItems n l).map f := by
  simp [lastItems, List.map_drop]

theorem length_lastItems_le (n : ℕ) (l : List α) : (lastItems n l).length ≤ n := by
  rw [lastItems, List.length_drop]
  omega

/-- The last items reach back to an element that few enough come after. -/
theorem lastItems_append_cons (before : List α) (x : α) {after : List α} (h : after.length < n) :
    ∃ front, front <:+ before ∧ lastItems n (before ++ x :: after) = front ++ x :: after := by
  refine ⟨_, List.drop_suffix ((before ++ x :: after).length - n) before, ?_⟩
  rw [lastItems, List.drop_append_of_le_length]
  rw [List.length_append, List.length_cons]
  omega

theorem encode_ascii (h : ∀ c ∈ s, c < 128) : encode s = some (s.map Nat.toUInt8) := by
  have hpoint : ∀ c < 128, encodePoint c = some [c.toUInt8] := by decide +kernel
  induction s with
  | nil => rfl
  | cons c rest ih =>
    have hc := h c List.mem_cons_self
    rw [encode, hpoint c hc, ih fun x hx => h x (List.mem_cons_of_mem _ hx)]
    rfl

theorem encode_eq_some {bytes : Str} (h : encode s = some bytes) :
    (∀ c ∈ s, c.isValidChar) ∧ bytes = (s.map Char.ofNat).flatMap String.utf8EncodeChar := by
  induction s generalizing bytes with
  | nil =>
    obtain rfl := Option.some.inj h
    simp
  | cons c rest ih =>
    obtain ⟨first, hfirst, hrest⟩ := Option.bind_eq_some_iff.mp h
    obtain ⟨others, hothers, rfl⟩ := Option.map_eq_some_iff.mp hrest
    obtain ⟨hvalid, rfl⟩ := ih hothers
    unfold encodePoint at hfirst
    split at hfirst
    · rename_i hc
      obtain rfl := Option.some.inj hfirst
      exact ⟨List.forall_mem_cons.mpr ⟨hc, hvalid⟩, by simp⟩
    · cases hfirst

theorem flatMap_utf8EncodeChar_injective :
    Function.Injective (List.flatMap String.utf8EncodeChar) := by
  intro a b h
  have hbytes : (String.ofList a).toByteArray = (String.ofList b).toByteArray := by
    simp [List.utf8Encode, h]
  exact String.ofList_injective (String.toByteArray_inj.mp hbytes)

theorem map_toNat_ofNat (h : ∀ c ∈ s, c.isValidChar) : (s.map Char.ofNat).map Char.toNat = s := by
  rw [List.map_map, List.map_congr_left (g := id), List.map_id]
  intro c hc
  simp [Char.ofNat, h c hc, Char.ofNatAux, Char.toNat]

/-- Encoding loses nothing. -/
theorem encode_inj {t : PyStr} {bytes : Str} (hs : encode s = some bytes)
    (ht : encode t = some bytes) : s = t := by
  obtain ⟨hvs, hs⟩ := encode_eq_some hs
  obtain ⟨hvt, ht⟩ := encode_eq_some ht
  have hchars := flatMap_utf8EncodeChar_injective (hs.symm.trans ht)
  rw [← map_toNat_ofNat hvs, hchars, map_toNat_ofNat hvt]

theorem mem_of_mem_strip {x : ℕ} (h : x ∈ strip c s) : x ∈ s := by
  have h1 := (List.dropWhile_suffix _).subset (List.mem_reverse.mp h)
  exact (List.dropWhile_suffix _).subset (List.mem_reverse.mp h1)

theorem length_strip_le (c : ℕ) (s : PyStr) : (strip c s).length ≤ s.length := by
  unfold strip
  rw [List.length_reverse]
  refine (List.dropWhile_suffix _).length_le.trans ?_
  rw [List.length_reverse]
  exact (List.dropWhile_suffix _).length_le

/-- Stripping twice is stripping once. -/
theorem strip_strip (c : ℕ) (s : PyStr) : strip c (strip c s) = strip c s := by
  -- what is stripped on the right is the front of a list that `c` does not begin
  have hfront : (strip c s).dropWhile (· == c) = strip c s := by
    have hinit : strip c s <+: s.dropWhile (· == c) := List.rdropWhile_prefix _ _
    cases hs : strip c s with
    | nil => rfl
    | cons x rest =>
      rw [hs] at hinit
      obtain ⟨tail, htail⟩ := hinit
      have hx := List.dropWhile_idempotent (p := (· == c)) s
      rw [← htail, List.cons_append] at hx
      rw [List.dropWhile_cons]
      split
      · rename_i hdrop
        rw [List.dropWhile_cons, if_pos hdrop] at hx
        have hlen := congrArg List.length hx
        have hle := (List.dropWhile_suffix (· == c) (l := rest ++ tail)).length_le
        rw [List.length_cons] at hlen
        omega
      · rfl
  have hback : (strip c s).rdropWhile (· == c) = strip c s := List.rdropWhile_idempotent _ _
  calc strip c (strip c s) = ((strip c s).dropWhile (· == c)).rdropWhile (· == c) := rfl
    _ = strip c s := by rw [hfront, hback]

/-- A last part without `c` is safe from stripping. -/
theorem strip_append {u d : PyStr} (hd : d ≠ []) (hc : c ∉ d) :
    strip c (u ++ d) = u.dropWhile (· == c) ++ d := by
  have hkeep : ∀ (x v : PyStr), x ≠ [] → c ∉ x → (x ++ v).dropWhile (· == c) = x ++ v := by
    intro x v hx hcx
    cases x with
    | nil => exact absurd rfl hx
    | cons y rest =>
      have hy : y ≠ c := fun h => hcx (h ▸ List.mem_cons_self)
      simp [hy]
  have hfront : (u ++ d).dropWhile (· == c) = u.dropWhile (· == c) ++ d := by
    rw [List.dropWhile_append]
    split
    · rename_i hempty
      rw [List.isEmpty_iff.mp hempty, List.nil_append]
      simpa using hkeep d [] hd hc
    · rfl
  unfold strip
  rw [hfront, List.reverse_append, hkeep _ _ (by simpa using hd) (by simpa using hc),
    List.reverse_append, List.reverse_reverse, List.reverse_reverse]

theorem decimal_ne_nil (n : ℕ) : decimal n ≠ [] := by
  unfold decimal
  split
  · simp
  · rename_i hn
    simpa [Nat.digits_eq_nil_iff_eq_zero] using hn

theorem mem_decimal (h : c ∈ decimal n) : 0x30 ≤ c ∧ c ≤ 0x39 := by
  unfold decimal at h
  split at h
  · simp at h
    omega
  · obtain ⟨d, hd, rfl⟩ := List.mem_map.mp h
    have := Nat.digits_lt_base (by decide : 1 < 10) (List.mem_reverse.mp hd)
    omega

/-- The digits give the number back. -/
theorem ofDigits_decimal (n : ℕ) : Nat.ofDigits 10 ((decimal n).reverse.map (· - 0x30)) = n := by
  unfold decimal
  split
  · rename_i hn
    rw [hn]
    rfl
  · rw [← List.map_reverse, List.reverse_reverse, List.map_map]
    have hid : ((· - 0x30) ∘ (0x30 + ·) : ℕ → ℕ) = id := by
      funext d
      exact Nat.add_sub_cancel_left 0x30 d
    rw [hid, List.map_id, Nat.ofDigits_digits]

theorem decimal_injective : Function.Injective decimal := by
  intro a b h
  rw [← ofDigits_decimal a, h, ofDigits_decimal]

theorem length_decimal_le {k : ℕ} (hk : k ≠ 0) (h : n < 10 ^ k) : (decimal n).length ≤ k := by
  unfold decimal
  split
  · simpa [Nat.one_le_iff_ne_zero] using hk
  · rw [List.length_map, List.length_reverse]
    exact (Nat.digits_length_le_iff (by decide) n).mpr h

theorem mem_of_mem_sliceTo {k : ℤ} (h : c ∈ sliceTo s k) : c ∈ s := by
  unfold sliceTo at h
  split at h <;> exact List.mem_of_mem_take h

theorem length_sliceTo_le {k : ℕ} : (sliceTo s k).length ≤ k := by
  simp [sliceTo]

theorem py_injective : Function.Injective py := by
  intro a b h
  have hchars : Function.Injective Char.toNat := fun a b h => Char.toNat_inj.mp h
  exact String.toList_injective (List.map_injective_iff.mpr hchars h)

@[simp] theorem py_inj {a b : String} : py a = py b ↔ a = b := py_injective.eq_iff

/-! ## Values -/

inductive PyError where
  | typeError
  | valueError
  | overflowError
  | unicodeEncodeError
  | other
deriving DecidableEq

/-- A JSON value; `F` are the floats. -/
inductive PyValue (F : Type) where
  | none
  | bool (b : Bool)
  | int (z : ℤ)
  | float (f : F)
  | str (s : PyStr)
  | list (items : List (PyValue F))
  | dict (items : List (PyStr × PyValue F))

/-- The items of a dictionary, in order. -/
abbrev PyDict (F : Type) : Type := List (PyStr × PyValue F)

/-- What depends on the interpreter. -/
structure Runtime (F : Type) where
  /-- `int(f)`: raises on infinities and not-a-number -/
  floatToInt : F → Except PyError ℤ
  floatTruth : F → Bool
  /-- `int(s)`; `none` raises `ValueError` -/
  strToInt : PyStr → Option ℤ
  /-- `str(v)` of a value that is no string -/
  str : PyValue F → Except PyError PyStr
  upper : PyStr → PyStr

/-- `str.upper` on an ASCII character. -/
def asciiUpper (c : ℕ) : ℕ := if 0x61 ≤ c ∧ c ≤ 0x7A then c - 0x20 else c

namespace Runtime

variable {F : Type} (rt : Runtime F)

/-- What is documented of `str.upper` and used here: ASCII text is mapped
character by character. -/
def UpperAscii : Prop := ∀ s : PyStr, (∀ c ∈ s, c < 128) → rt.upper s = s.map asciiUpper

/-- `int(v)`. -/
def toInt : PyValue F → Except PyError ℤ
  | .int z => .ok z
  | .bool b => .ok b.toInt
  | .float f => rt.floatToInt f
  | .str s =>
    match rt.strToInt s with
    | some z => .ok z
    | none => .error .valueError
  | _ => .error .typeError

/-- `str(v)`. -/
def toStr : PyValue F → Except PyError PyStr
  | .str s => .ok s
  | v => rt.str v

/-- `bool(v)`. -/
def truth : PyValue F → Bool
  | .none => false
  | .bool b => b
  | .int z => z != 0
  | .float f => rt.floatTruth f
  | .str s => !s.isEmpty
  | .list items => !items.isEmpty
  | .dict items => !items.isEmpty

end Runtime

/-! ## Dictionaries -/

namespace PyDict

variable {F V : Type}

/-- `d.get(key, fallback)`. -/
def getD (d : PyDict F) (key : String) (fallback : PyValue F) : PyValue F :=
  (d.lookup (py key)).getD fallback

/-- `d[key] = v`: in place if the key is there, else at the end. -/
def set (d : PyDict F) (key : String) (v : PyValue F) : PyDict F :=
  if (d.lookup (py key)).isSome then
    d.map fun item => if item.1 = py key then (item.1, v) else item
  else d ++ [(py key, v)]

/-- `d.pop(key, None); d[key] = v`, on the items of any dictionary. -/
def moveToEnd (d : List (PyStr × V)) (key : PyStr) (v : V) : List (PyStr × V) :=
  d.filter (fun item => item.1 != key) ++ [(key, v)]

/-- Of every key the last item. -/
def lastPerKey : List (PyStr × V) → List (PyStr × V)
  | [] => []
  | item :: rest =>
    if item.1 ∈ rest.map Prod.fst then lastPerKey rest else item :: lastPerKey rest

/-- An item that is there only if it has a value. -/
def entry (key : String) (o : Option V) : List (PyStr × V) := o.toList.map (py key, ·)

/-- A list, unless it is empty. -/
def nonEmptyList {α : Type} (write : α → PyValue F) : List α → Option (PyValue F)
  | [] => none
  | l => some (.list (l.map write))

/-- Items entered one after the other: an item stays if its key does not come
again. -/
theorem foldl_moveToEnd (d l : List (PyStr × V)) :
    l.foldl (fun d item => moveToEnd d item.1 item.2) d =
      d.filter (fun item => decide (item.1 ∉ l.map Prod.fst)) ++ lastPerKey l := by
  induction l generalizing d with
  | nil => simp [lastPerKey]
  | cons item rest ih =>
    have hfilter : (d.filter fun x => x.1 != item.1).filter
        (fun x => decide (x.1 ∉ rest.map Prod.fst)) =
        d.filter fun x => decide (x.1 ∉ (item :: rest).map Prod.fst) := by
      rw [List.filter_filter]
      refine List.filter_congr fun x _ => ?_
      rw [Bool.eq_iff_iff]
      simp only [Bool.and_eq_true, decide_eq_true_eq, bne_iff_ne, List.map_cons,
        List.mem_cons, not_or]
      exact and_comm
    rw [List.foldl_cons, ih, moveToEnd, List.filter_append, hfilter, List.append_assoc]
    congr 1
    by_cases hmem : item.1 ∈ rest.map Prod.fst
    · rw [List.filter_singleton, decide_eq_false (not_not.mpr hmem), lastPerKey, if_pos hmem]
      rfl
    · rw [List.filter_singleton, decide_eq_true hmem, lastPerKey, if_neg hmem]
      rfl

theorem lastPerKey_map {W : Type} (f : V → W) (l : List (PyStr × V)) :
    lastPerKey (l.map fun item => (item.1, f item.2)) =
      (lastPerKey l).map fun item => (item.1, f item.2) := by
  induction l with
  | nil => rfl
  | cons item rest ih =>
    have hkeys : (rest.map fun item => (item.1, f item.2)).map Prod.fst = rest.map Prod.fst := by
      rw [List.map_map]
      rfl
    rw [List.map_cons, lastPerKey, lastPerKey, hkeys, ih]
    split <;> rfl

theorem lastPerKey_sublist (l : List (PyStr × V)) : (lastPerKey l).Sublist l := by
  induction l with
  | nil => exact List.Sublist.refl _
  | cons item rest ih =>
    unfold lastPerKey
    split
    · exact ih.cons item
    · exact ih.cons_cons item

theorem lastPerKey_subset (l : List (PyStr × V)) : lastPerKey l ⊆ l := (lastPerKey_sublist l).subset

/-- A key of the first part that comes again in the second is displaced. -/
theorem lastPerKey_append (a b : List (PyStr × V)) :
    lastPerKey (a ++ b) =
      (lastPerKey a).filter (fun item => decide (item.1 ∉ b.map Prod.fst)) ++ lastPerKey b := by
  induction a with
  | nil => rfl
  | cons item rest ih =>
    rw [List.cons_append, lastPerKey, lastPerKey, ih, List.map_append]
    by_cases hrest : item.1 ∈ rest.map Prod.fst
    · rw [if_pos (List.mem_append_left _ hrest), if_pos hrest]
    · rw [if_neg hrest, List.filter_cons]
      by_cases hb : item.1 ∈ b.map Prod.fst
      · rw [if_pos (List.mem_append_right _ hb), if_neg (by simpa using hb)]
      · rw [if_neg (by simp only [List.mem_append, hrest, hb, or_self, not_false_iff]),
          if_pos (decide_eq_true hb), List.cons_append]

theorem nodup_lastPerKey (l : List (PyStr × V)) : ((lastPerKey l).map Prod.fst).Nodup := by
  induction l with
  | nil => exact List.nodup_nil
  | cons item rest ih =>
    unfold lastPerKey
    split
    · exact ih
    · rename_i hfresh
      exact List.nodup_cons.mpr
        ⟨fun h => hfresh (List.map_subset _ (lastPerKey_subset rest) h), ih⟩

@[simp] theorem lookup_cons_py (key k : String) (v : V) (d : List (PyStr × V)) :
    ((py key, v) :: d).lookup (py k) = if k = key then some v else d.lookup (py k) := by
  by_cases h : k = key
  · simp [h]
  · have hne : (py k == py key) = false := by simpa using h
    simp [List.lookup, hne, h]

@[simp] theorem lookup_entry (key k : String) (o : Option V) :
    (entry key o).lookup (py k) = if k = key then o else none := by
  cases o with
  | none => simp [entry]
  | some v => simp [entry]

end PyDict

end AlturaProt.Foundation.Python
