import Mathlib.Data.List.Basic
import Mathlib.Data.List.Infix
import Mathlib.Data.Nat.Find

/-!
# The first place of a pattern in a text

`position` finds the first place at which a pattern stands. A text that comes
in pieces need not be searched from its start each time: what stands at a place
of the text so far stands there for good, and what stands at a place of the
longer text but not of the shorter one reaches into the new piece
(`occursAt_append_left_iff`).
-/

namespace AlturaProt.Foundation

variable {α : Type} {pat l m : List α} {i : ℕ}

/-- The pattern stands at a place of the text. -/
def OccursAt (pat l : List α) (i : ℕ) : Prop := pat <+: l.drop i

/-- The first place at which a pattern stands. -/
def position [DecidableEq α] (pat : List α) : List α → Option ℕ
  | [] => if pat = [] then some 0 else none
  | x :: rest => if pat <+: x :: rest then some 0 else (position pat rest).map (· + 1)

theorem occursAt_drop {start : ℕ} : OccursAt pat (l.drop start) i ↔ OccursAt pat l (start + i) := by
  rw [OccursAt, List.drop_drop, OccursAt]

/-- A pattern that is not empty stands within the text. -/
theorem OccursAt.add_length_le (h : OccursAt pat l i) (hpat : pat ≠ []) :
    i + pat.length ≤ l.length := by
  have hlen := h.length_le
  have hpos := List.length_pos_iff.mpr hpat
  rw [List.length_drop] at hlen
  omega

/-- Up to the end of the first part, both texts have the same patterns. -/
theorem occursAt_append_left_iff (h : i + pat.length ≤ l.length) :
    OccursAt pat (l ++ m) i ↔ OccursAt pat l i := by
  unfold OccursAt
  rw [List.drop_append_of_le_length (by omega)]
  constructor
  · intro hpre
    exact List.prefix_of_prefix_length_le hpre (List.prefix_append _ _)
      (by rw [List.length_drop]; omega)
  · intro hpre
    exact hpre.trans (List.prefix_append _ _)

section Position

variable [DecidableEq α]

theorem position_eq_some_iff :
    position pat l = some i ↔ OccursAt pat l i ∧ ∀ j < i, ¬ OccursAt pat l j := by
  -- a place where the pattern stands at once is the first one
  have hhead : ∀ {l : List α} {i : ℕ}, pat <+: l →
      (some 0 = some i ↔ OccursAt pat l i ∧ ∀ j < i, ¬ OccursAt pat l j) := by
    intro l i hpre
    constructor
    · rintro ⟨⟩
      exact ⟨hpre, fun j hj => absurd hj (Nat.not_lt_zero j)⟩
    · rintro ⟨-, hfirst⟩
      cases i with
      | zero => rfl
      | succ i => exact absurd hpre (hfirst 0 (Nat.succ_pos i))
  induction l generalizing i with
  | nil =>
    unfold position
    split
    · rename_i hpat
      exact hhead (hpat ▸ List.nil_prefix)
    · rename_i hpat
      refine iff_of_false (by simp) fun h => hpat ?_
      simpa [OccursAt] using h.1
  | cons x rest ih =>
    unfold position
    split
    · rename_i hpre
      exact hhead hpre
    · rename_i hpre
      cases i with
      | zero => exact iff_of_false (by simp) fun h => hpre h.1
      | succ i =>
        rw [Option.map_eq_some_iff]
        constructor
        · rintro ⟨k, hk, heq⟩
          obtain rfl : k = i := by omega
          obtain ⟨hat, hfirst⟩ := ih.mp hk
          refine ⟨hat, fun j hj => ?_⟩
          cases j with
          | zero => exact hpre
          | succ j => exact hfirst j (by omega)
        · rintro ⟨hat, hfirst⟩
          exact ⟨i, ih.mpr ⟨hat, fun j hj => hfirst (j + 1) (by omega)⟩, rfl⟩

theorem position_eq_none_iff : position pat l = none ↔ ∀ i, ¬ OccursAt pat l i := by
  constructor
  · intro hnone i hat
    classical
    have hfirst := Nat.find_spec (⟨i, hat⟩ : ∃ i, OccursAt pat l i)
    have hsome := position_eq_some_iff.mpr
      ⟨hfirst, fun j hj => Nat.find_min (⟨i, hat⟩ : ∃ i, OccursAt pat l i) hj⟩
    rw [hnone] at hsome
    cases hsome
  · intro hnowhere
    cases hpos : position pat l with
    | none => rfl
    | some i => exact absurd (position_eq_some_iff.mp hpos).1 (hnowhere i)

/-- The search may leave out places where the pattern is known not to stand. -/
theorem position_drop {start : ℕ} (h : ∀ j < start, ¬ OccursAt pat l j) :
    (position pat (l.drop start)).map (start + ·) = position pat l := by
  cases hpos : position pat l with
  | none =>
    rw [position_eq_none_iff] at hpos
    have hnone : position pat (l.drop start) = none :=
      position_eq_none_iff.mpr fun i hat => hpos _ (occursAt_drop.mp hat)
    rw [hnone]
    rfl
  | some i =>
    obtain ⟨hat, hfirst⟩ := position_eq_some_iff.mp hpos
    have hle : start ≤ i := not_lt.mp fun hlt => h i hlt hat
    obtain ⟨k, rfl⟩ := Nat.exists_eq_add_of_le hle
    have hsome : position pat (l.drop start) = some k := position_eq_some_iff.mpr
      ⟨occursAt_drop.mpr hat, fun j hj hat' => hfirst _ (by omega) (occursAt_drop.mp hat')⟩
    rw [hsome]
    rfl

end Position

end AlturaProt.Foundation
