import AlturaProt.Foundation.Text
import Mathlib.Data.List.TakeWhile

/-!
# Lists written in one line

A list written in one line has a separator between its items and blanks around
them, which do not count. `items` reads such a line; blanks at the ends of the
line, and lines put after one another with a separator, read as expected.
-/

namespace AlturaProt.Foundation

variable {α : Type} {p : α → Bool} {sep : α}

/-- A text without the blanks at its ends. -/
def trimBy (p : α → Bool) (s : List α) : List α :=
  ((s.dropWhile p).reverse.dropWhile p).reverse

/-- The items of a line. -/
def items [BEq α] (sep : α) (p : α → Bool) (s : List α) : List (List α) :=
  (s.splitOn sep).map (trimBy p)

/-! ## Blanks at the ends -/

variable {blanks s : List α}

theorem trimBy_append_left (h : ∀ b ∈ blanks, p b = true) (s : List α) :
    trimBy p (blanks ++ s) = trimBy p s := by
  rw [trimBy, List.dropWhile_append_of_pos h, trimBy]

theorem trimBy_append_right (h : ∀ b ∈ blanks, p b = true) (s : List α) :
    trimBy p (s ++ blanks) = trimBy p s := by
  have hrev : ∀ b ∈ blanks.reverse, p b = true := fun b hb => h b (List.mem_reverse.mp hb)
  unfold trimBy
  rw [List.dropWhile_append]
  split
  · rename_i hempty
    -- the text is blank as a whole
    rw [List.isEmpty_iff.mp hempty, List.dropWhile_eq_nil_iff.mpr h]
  · rw [List.reverse_append, List.dropWhile_append_of_pos hrev]

/-- Nothing is cut off if there are no blanks at the ends. -/
theorem trimBy_of_ends (hhead : ∀ b ∈ s.head?, p b = false) (hlast : ∀ b ∈ s.getLast?, p b = false) :
    trimBy p s = s := by
  have hkeep : ∀ t : List α, (∀ b ∈ t.head?, p b = false) → t.dropWhile p = t := by
    intro t ht
    cases t with
    | nil => rfl
    | cons b t => rw [List.dropWhile_cons_of_neg (by simp [ht b rfl])]
  rw [trimBy, hkeep s hhead, hkeep s.reverse (by rwa [List.head?_reverse]), List.reverse_reverse]

theorem trimBy_eq_self (h : ∀ b ∈ s, p b = false) : trimBy p s = s :=
  trimBy_of_ends (fun b hb => h b (List.mem_of_head? hb)) fun b hb =>
    h b (List.mem_of_getLast? hb)

/-- A text is what is left of it, with blanks before and after. -/
theorem eq_blanks_trimBy (p : α → Bool) (s : List α) :
    ∃ front back, s = front ++ trimBy p s ++ back ∧ (∀ b ∈ front, p b = true) ∧
      ∀ b ∈ back, p b = true := by
  refine ⟨s.takeWhile p, ((s.dropWhile p).reverse.takeWhile p).reverse, ?_, ?_, ?_⟩
  · rw [trimBy, List.append_assoc, ← List.reverse_append, List.takeWhile_append_dropWhile,
      List.reverse_reverse, List.takeWhile_append_dropWhile]
  · exact fun b hb => List.mem_takeWhile_imp hb
  · exact fun b hb => List.mem_takeWhile_imp (List.mem_reverse.mp hb)

theorem notMem_of_blank (hsep : p sep = false) (h : ∀ b ∈ blanks, p b = true) : sep ∉ blanks := by
  intro hmem
  simp_all

/-! ## Reading a line -/

variable [BEq α] [LawfulBEq α]

/-- Two lines with a separator between them. -/
theorem items_append_cons (a b : List α) :
    items sep p (a ++ sep :: b) = items sep p a ++ items sep p b := by
  have hsplit : (a ++ sep :: b).splitOn sep = a.splitOn sep ++ b.splitOn sep :=
    List.splitOnP_append_cons a b (beq_self_eq_true sep)
  rw [items, hsplit, List.map_append]
  rfl

theorem items_of_notMem (h : sep ∉ s) : items sep p s = [trimBy p s] := by
  rw [items, List.splitOn_eq_singleton h]
  rfl

/-- The separator is in none of the parts. -/
theorem notMem_of_mem_splitOn {part : List α} (h : part ∈ s.splitOn sep) : sep ∉ part := by
  induction hn : s.length using Nat.strong_induction_on generalizing s with
  | _ n ih =>
    by_cases hs : sep ∈ s
    · obtain ⟨a, t, rfl, ha⟩ := List.eq_append_cons_of_mem hs
      have hsplit : (a ++ sep :: t).splitOn sep = a.splitOn sep ++ t.splitOn sep :=
        List.splitOnP_append_cons a t (beq_self_eq_true sep)
      have hlen : t.length < n := by
        rw [← hn, List.length_append, List.length_cons]
        omega
      rw [hsplit, List.splitOn_eq_singleton ha, List.singleton_append] at h
      rcases List.mem_cons.mp h with rfl | h
      · exact ha
      · exact ih t.length hlen h rfl
    · rw [List.splitOn_eq_singleton hs] at h
      rwa [List.mem_singleton.mp h]

theorem items_append_left (hsep : p sep = false) (h : ∀ b ∈ blanks, p b = true) (s : List α) :
    items sep p (blanks ++ s) = items sep p s := by
  have hblanks := notMem_of_blank hsep h
  by_cases hs : sep ∈ s
  · obtain ⟨a, t, rfl, ha⟩ := List.eq_append_cons_of_mem hs
    have hboth : sep ∉ blanks ++ a := by simp [hblanks, ha]
    rw [← List.append_assoc, items_append_cons, items_append_cons, items_of_notMem hboth,
      items_of_notMem ha, trimBy_append_left h]
  · have hboth : sep ∉ blanks ++ s := by simp [hblanks, hs]
    rw [items_of_notMem hboth, items_of_notMem hs, trimBy_append_left h]

theorem items_append_right (hsep : p sep = false) (h : ∀ b ∈ blanks, p b = true) (s : List α) :
    items sep p (s ++ blanks) = items sep p s := by
  have hblanks := notMem_of_blank hsep h
  -- the blanks belong to what follows the last separator
  induction hn : s.length using Nat.strong_induction_on generalizing s with
  | _ n ih =>
    by_cases hs : sep ∈ s
    · obtain ⟨a, t, rfl, ha⟩ := List.eq_append_cons_of_mem hs
      have hlen : t.length < n := by
        rw [← hn, List.length_append, List.length_cons]
        omega
      rw [List.append_assoc, List.cons_append, items_append_cons, items_append_cons,
        ih t.length hlen t rfl]
    · have hboth : sep ∉ s ++ blanks := by simp [hblanks, hs]
      rw [items_of_notMem hboth, items_of_notMem hs, trimBy_append_right h]

/-- **Trimming a line changes none of its items.** -/
theorem items_trimBy (hsep : p sep = false) (s : List α) :
    items sep p (trimBy p s) = items sep p s := by
  obtain ⟨front, back, hs, hfront, hback⟩ := eq_blanks_trimBy p s
  conv_rhs => rw [hs, items_append_right hsep hback, items_append_left hsep hfront]

/-! ## The first separator -/

theorem splitOnce_append {sep : UInt8} {front : Str} (back : Str) (h : sep ∉ front) :
    splitOnce sep (front ++ sep :: back) = some (front, back) := by
  have hfront : ∀ b ∈ front, decide (b ≠ sep) = true := by
    intro b hb
    apply decide_eq_true
    rintro rfl
    exact h hb
  rw [splitOnce, if_pos (List.mem_append_right _ List.mem_cons_self),
    List.takeWhile_append_of_pos hfront, List.dropWhile_append_of_pos hfront]
  simp

theorem splitOnce_eq_some_iff {sep : UInt8} {s front back : Str} :
    splitOnce sep s = some (front, back) ↔ s = front ++ sep :: back ∧ sep ∉ front := by
  constructor
  · intro h
    by_cases hmem : sep ∈ s
    · obtain ⟨a, t, rfl, ha⟩ := List.eq_append_cons_of_mem hmem
      rw [splitOnce_append t ha] at h
      cases h
      exact ⟨rfl, ha⟩
    · rw [splitOnce, if_neg hmem] at h
      cases h
  · rintro ⟨rfl, hfront⟩
    exact splitOnce_append back hfront

/-- Blanks around a text go to the outer ends of its parts. -/
theorem splitOnce_trimBy {sep : UInt8} {p : UInt8 → Bool} (hsep : p sep = false) (s : Str) :
    ∃ front back, (∀ b ∈ front, p b = true) ∧ (∀ b ∈ back, p b = true) ∧
      splitOnce sep s =
        (splitOnce sep (trimBy p s)).map fun parts => (front ++ parts.1, parts.2 ++ back) := by
  obtain ⟨front, back, hs, hfront, hback⟩ := eq_blanks_trimBy p s
  refine ⟨front, back, hfront, hback, ?_⟩
  have hfree := notMem_of_blank hsep hfront
  by_cases hmem : sep ∈ trimBy p s
  · obtain ⟨a, t, htrim, ha⟩ := List.eq_append_cons_of_mem hmem
    rw [htrim] at hs
    have hwhole : s = (front ++ a) ++ sep :: (t ++ back) := by
      rw [hs]
      simp
    rw [htrim, splitOnce_append t ha, hwhole, splitOnce_append _ (by simp [hfree, ha])]
    rfl
  · have hnone : sep ∉ s := by
      rw [hs]
      simp [hfree, hmem, notMem_of_blank hsep hback]
    rw [splitOnce, if_neg hnone, splitOnce, if_neg hmem]
    rfl

end AlturaProt.Foundation
