import Mathlib.Algebra.BigOperators.Group.List.Basic
import Mathlib.Algebra.GroupWithZero.Nat
import Mathlib.Data.List.Infix

/-!
# Rotated files

A file that is written item by item and set aside when the next item would make
it too large; of the files set aside only a number is kept. What is left of the
items is always the end of their sequence (`suffix_run`), in files that are
small enough or hold a single item (`file_le`).
-/

namespace AlturaProt.Foundation

/-- A file and those set aside, the newest first. -/
structure Rotation (α : Type*) where
  current : List α
  backups : List (List α)
deriving DecidableEq

namespace Rotation

variable {α : Type*} (size : α → ℕ) (limit count : ℕ)

def weight (file : List α) : ℕ := (file.map size).sum

def full (r : Rotation α) (x : α) : Prop :=
  r.current ≠ [] ∧ limit < weight size r.current + size x

instance (r : Rotation α) (x : α) : Decidable (r.full size limit x) :=
  inferInstanceAs (Decidable (_ ∧ _))

/-- Set the current file aside. -/
def rotate (r : Rotation α) : Rotation α := ⟨[], (r.current :: r.backups).take count⟩

def append (r : Rotation α) (x : α) : Rotation α := { r with current := r.current ++ [x] }

def write (r : Rotation α) (x : α) : Rotation α :=
  if r.full size limit x then (r.rotate count).append x else r.append x

def run (xs : List α) : Rotation α := xs.foldl (write size limit count) ⟨[], []⟩

/-- All items that are left, the oldest first. -/
def items (r : Rotation α) : List α := r.backups.reverse.flatten ++ r.current

theorem run_concat (xs : List α) (x : α) :
    run size limit count (xs ++ [x]) = write size limit count (run size limit count xs) x := by
  rw [run, List.foldl_append]
  rfl

theorem items_rotate (r : Rotation α) : (r.rotate count).items <:+ r.items := by
  have hkept : ((r.current :: r.backups).take count).reverse <:+
      (r.current :: r.backups).reverse :=
    List.reverse_suffix.mpr (List.take_prefix _ _)
  obtain ⟨front, hfront⟩ := hkept
  refine ⟨front.flatten, ?_⟩
  have hitems : r.items = (r.current :: r.backups).reverse.flatten := by
    simp [items]
  rw [hitems, ← hfront, List.flatten_append]
  simp [items, rotate]

theorem items_append (r : Rotation α) (x : α) : (r.append x).items = r.items ++ [x] := by
  simp [items, append]

theorem items_write (r : Rotation α) (x : α) :
    (write size limit count r x).items <:+ r.items ++ [x] := by
  unfold write
  split
  · rw [items_append]
    exact (List.suffix_append_inj_of_length_eq rfl).mpr ⟨items_rotate count r, rfl⟩
  · exact (items_append r x).symm ▸ List.suffix_refl _

/-- What is left is the end of what was written. -/
theorem suffix_run (xs : List α) : (run size limit count xs).items <:+ xs := by
  induction xs using List.reverseRecOn with
  | nil => exact List.suffix_refl _
  | append_singleton xs x ih =>
    rw [run_concat]
    refine (items_write size limit count _ x).trans ?_
    exact (List.suffix_append_inj_of_length_eq rfl).mpr ⟨ih, rfl⟩

theorem length_backups_run (xs : List α) :
    (run size limit count xs).backups.length ≤ count := by
  induction xs using List.reverseRecOn with
  | nil => exact Nat.zero_le _
  | append_singleton xs x ih =>
    rw [run_concat, write]
    split
    · exact List.length_take_le _ _
    · exact ih

/-- Small enough, or a single item. -/
def Bounded (file : List α) : Prop := weight size file ≤ limit ∨ ∃ x, file = [x]

/-- Every file is bounded. -/
theorem file_le (xs : List α) : ∀ file ∈ (run size limit count xs).current ::
    (run size limit count xs).backups, Bounded size limit file := by
  induction xs using List.reverseRecOn with
  | nil =>
    intro file hfile
    obtain rfl : file = [] := by simpa [run] using hfile
    exact Or.inl (Nat.zero_le _)
  | append_singleton xs x ih =>
    rw [run_concat, write]
    split
    · intro file hfile
      rcases List.mem_cons.mp hfile with rfl | hold
      · exact Or.inr ⟨x, rfl⟩
      · exact ih file (List.mem_of_mem_take hold)
    · rename_i hroom
      intro file hfile
      rcases List.mem_cons.mp hfile with rfl | hold
      · by_cases hempty : (run size limit count xs).current = []
        · exact Or.inr ⟨x, by rw [append, hempty]; rfl⟩
        · refine Or.inl ?_
          have hfits := not_lt.mp (fun hlt => hroom ⟨hempty, hlt⟩)
          simpa [append, weight] using hfits
      · exact ih file (List.mem_cons_of_mem _ hold)

/-- The same rotation of other items. -/
def map {β : Type*} (f : α → β) (r : Rotation α) : Rotation β :=
  ⟨r.current.map f, r.backups.map (List.map f)⟩

theorem items_map {β : Type*} (f : α → β) (r : Rotation α) : (r.map f).items = r.items.map f := by
  simp [items, map, List.map_flatten]

theorem write_map {β : Type*} {f : α → β} {size' : β → ℕ} (hsize : ∀ x, size' (f x) = size x)
    (r : Rotation α) (x : α) :
    write size' limit count (r.map f) (f x) = (write size limit count r x).map f := by
  have hweight : weight size' (r.current.map f) = weight size r.current := by
    simp [weight, hsize, Function.comp_def]
  have hfull : (r.map f).full size' limit (f x) ↔ r.full size limit x := by
    rw [full, full, hsize, map, hweight]
    simp
  unfold write
  by_cases h : r.full size limit x
  · rw [if_pos h, if_pos (hfull.mpr h)]
    simp [map, append, rotate, List.map_take]
  · rw [if_neg h, if_neg (fun h' => h (hfull.mp h'))]
    simp [map, append]

theorem run_map {β : Type*} {f : α → β} {size' : β → ℕ} (hsize : ∀ x, size' (f x) = size x)
    (xs : List α) : run size' limit count (xs.map f) = (run size limit count xs).map f := by
  induction xs using List.reverseRecOn with
  | nil => rfl
  | append_singleton xs x ih =>
    rw [List.map_append, List.map_singleton, run_concat, ih, run_concat,
      write_map size limit count hsize]

end Rotation

end AlturaProt.Foundation
