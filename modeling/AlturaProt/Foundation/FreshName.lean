import Mathlib.Data.Finset.Card
import Mathlib.Data.Fintype.Card
import Mathlib.Order.Interval.Finset.Nat

/-!
# Fresh names

A numbered supply of pairwise distinct names and a list of names already used:
trying the numbers one after the other finds an unused name after at most as
many failures as there are used names.

Where names are asked for one after the other, everyone gets the name asked for if
it is free and another one if it is not (`allot`).
-/

namespace AlturaProt.Foundation

section FirstFree

variable {α : Type*} [DecidableEq α]

/-- The first name of the supply, from number `k` on, that is not used; `fuel`
bounds the number of failures. -/
def firstFree (supply : ℕ → α) (used : List α) : ℕ → ℕ → α
  | 0, k => supply k
  | fuel + 1, k => if supply k ∈ used then firstFree supply used fuel (k + 1) else supply k

/-- The name found is one of the numbers tried. -/
theorem firstFree_eq (supply : ℕ → α) (used : List α) (fuel k : ℕ) :
    ∃ j, k ≤ j ∧ j ≤ k + fuel ∧ firstFree supply used fuel k = supply j := by
  induction fuel generalizing k with
  | zero => exact ⟨k, le_rfl, le_rfl, rfl⟩
  | succ fuel ih =>
    unfold firstFree
    split
    · obtain ⟨j, hkj, hj, heq⟩ := ih (k + 1)
      exact ⟨j, by omega, by omega, heq⟩
    · exact ⟨k, le_rfl, by omega, rfl⟩

/-- A search that ends on a used name has found every number used. -/
theorem mem_of_firstFree_mem {supply : ℕ → α} {used : List α} {fuel k : ℕ}
    (h : firstFree supply used fuel k ∈ used) :
    ∀ j, k ≤ j → j ≤ k + fuel → supply j ∈ used := by
  induction fuel generalizing k with
  | zero =>
    intro j hkj hj
    obtain rfl : j = k := by omega
    exact h
  | succ fuel ih =>
    unfold firstFree at h
    split at h
    · rename_i hk
      intro j hkj hj
      rcases Nat.lt_or_ge k j with hlt | hge
      · exact ih h j hlt (by omega)
      · obtain rfl : j = k := by omega
        exact hk
    · contradiction

/-- **The search finds a fresh name.** -/
theorem firstFree_notMem {supply : ℕ → α} (hinj : Function.Injective supply)
    (used : List α) (k : ℕ) : firstFree supply used used.length k ∉ used := by
  intro h
  have hall := mem_of_firstFree_mem h
  -- one number more than there are used names
  have hsub : (Finset.Icc k (k + used.length)).image supply ⊆ used.toFinset := by
    intro x hx
    obtain ⟨j, hj, rfl⟩ := Finset.mem_image.mp hx
    rw [Finset.mem_Icc] at hj
    exact List.mem_toFinset.mpr (hall j hj.1 hj.2)
  have hcard := Finset.card_le_card hsub
  rw [Finset.card_image_of_injective _ hinj, Nat.card_Icc] at hcard
  have hle := List.toFinset_card_le used
  omega

/-- A loop that tries the next number as long as its candidate is used, and the candidate
it ends with. -/
inductive Tries (supply : ℕ → α) (used : List α) : α → ℕ → α → Prop
  | free {candidate : α} {k : ℕ} (h : candidate ∉ used) : Tries supply used candidate k candidate
  | taken {candidate result : α} {k : ℕ} (h : candidate ∈ used)
      (hnext : Tries supply used (supply k) (k + 1) result) :
      Tries supply used candidate k result

omit [DecidableEq α] in
theorem Tries.congr {supply : ℕ → α} {used used' : List α} (hused : ∀ x, x ∈ used ↔ x ∈ used')
    {candidate result : α} {k : ℕ} (h : Tries supply used candidate k result) :
    Tries supply used' candidate k result := by
  induction h with
  | free h => exact .free ((hused _).not.mp h)
  | taken h _ ih => exact .taken ((hused _).mp h) ih

/-- A bounded search that ends on a fresh name is the loop. -/
theorem tries_firstFree {supply : ℕ → α} {used : List α} {fuel k : ℕ}
    (h : firstFree supply used fuel k ∉ used) :
    Tries supply used (supply k) (k + 1) (firstFree supply used fuel k) := by
  induction fuel generalizing k with
  | zero => exact .free h
  | succ fuel ih =>
    unfold firstFree at h ⊢
    split at h
    · rename_i hk
      rw [if_pos hk]
      exact .taken hk (ih h)
    · rename_i hk
      rw [if_neg hk]
      exact .free hk

end FirstFree

/-! ## Names asked for one after the other -/

section Allot

variable {α : Type*} (pick : List α → α → α)

/-- The names given to those who ask for `wishes`, when `seen` are taken. -/
def allot : List α → List α → List α
  | _, [] => []
  | seen, wish :: wishes => pick seen wish :: allot (pick seen wish :: seen) wishes

@[simp] theorem length_allot (seen wishes : List α) :
    (allot pick seen wishes).length = wishes.length := by
  induction wishes generalizing seen with
  | nil => rfl
  | cons wish wishes ih => simp [allot, ih]

theorem allot_append (seen a b : List α) :
    allot pick seen (a ++ b) =
      allot pick seen a ++ allot pick ((allot pick seen a).reverse ++ seen) b := by
  induction a generalizing seen with
  | nil => rfl
  | cons wish a ih => simp [allot, ih]

/-- What is given at one place depends on what was given before it. -/
theorem getElem?_allot (seen wishes : List α) (i : ℕ) :
    (allot pick seen wishes)[i]? =
      wishes[i]?.map (pick (((allot pick seen wishes).take i).reverse ++ seen)) := by
  induction wishes generalizing seen i with
  | nil => simp [allot]
  | cons wish wishes ih =>
    cases i with
    | zero => simp [allot]
    | succ i => simp [allot, ih]

theorem mem_allot {seen wishes : List α} {name : α} (h : name ∈ allot pick seen wishes) :
    ∃ wish ∈ wishes, ∃ seen', name = pick seen' wish := by
  induction wishes generalizing seen with
  | nil => cases h
  | cons wish wishes ih =>
    rcases List.mem_cons.mp h with rfl | h
    · exact ⟨wish, List.mem_cons_self, seen, rfl⟩
    · obtain ⟨wish', hmem, seen', heq⟩ := ih h
      exact ⟨wish', List.mem_cons_of_mem _ hmem, seen', heq⟩

variable {pick} (hfresh : ∀ seen wish, pick seen wish ∉ seen)
  (hown : ∀ seen wish, wish ∉ seen → pick seen wish = wish)

include hfresh in
theorem nodup_allot (seen wishes : List α) :
    (allot pick seen wishes).Nodup ∧ ∀ name ∈ allot pick seen wishes, name ∉ seen := by
  induction wishes generalizing seen with
  | nil => simp [allot]
  | cons wish wishes ih =>
    obtain ⟨hnodup, hnew⟩ := ih (pick seen wish :: seen)
    refine ⟨List.nodup_cons.mpr ⟨fun h => hnew _ h List.mem_cons_self, hnodup⟩, ?_⟩
    intro name hname
    rcases List.mem_cons.mp hname with rfl | hname
    · exact hfresh seen wish
    · exact fun h => hnew name hname (List.mem_cons_of_mem _ h)

include hown in
/-- Wishes that are distinct and free are granted. -/
theorem allot_eq_self {seen wishes : List α} (hnodup : wishes.Nodup)
    (hfree : ∀ wish ∈ wishes, wish ∉ seen) : allot pick seen wishes = wishes := by
  induction wishes generalizing seen with
  | nil => rfl
  | cons wish wishes ih =>
    rw [List.nodup_cons] at hnodup
    rw [allot, hown seen wish (hfree wish List.mem_cons_self), ih hnodup.2]
    intro wish' hwish' hseen
    rcases List.mem_cons.mp hseen with rfl | hseen
    · exact hnodup.1 hwish'
    · exact hfree wish' (List.mem_cons_of_mem _ hwish') hseen

variable {β : Type*} {wish : β → α} {askers : List β} {seen : List α}

/-- What one asker gets depends on the names given before. -/
theorem allot_split {before after : List (β × α)} {p : β × α}
    (h : askers.zip (allot pick seen (askers.map wish)) = before ++ p :: after) :
    p.2 = pick ((before.map Prod.snd).reverse ++ seen) (wish p.1) := by
  induction before generalizing askers seen with
  | nil =>
    cases askers with
    | nil => cases h
    | cons asker askers =>
      obtain ⟨rfl, -⟩ := List.cons_eq_cons.mp h
      rfl
  | cons q before ih =>
    cases askers with
    | nil => cases h
    | cons asker askers =>
      obtain ⟨rfl, hrest⟩ := List.cons_eq_cons.mp h
      rw [ih hrest]
      simp

/-- An asker and its name, by those who ask before. -/
theorem mem_zip_allot_iff {p : β × α} :
    p ∈ askers.zip (allot pick seen (askers.map wish)) ↔
      ∃ before after, askers = before ++ p.1 :: after ∧
        p.2 = pick ((allot pick seen (before.map wish)).reverse ++ seen) (wish p.1) := by
  constructor
  · induction askers generalizing seen with
    | nil => simp
    | cons asker askers ih =>
      intro h
      rcases List.mem_cons.mp h with rfl | h
      · exact ⟨[], askers, rfl, rfl⟩
      · obtain ⟨before, after, heq, hname⟩ := ih h
        refine ⟨asker :: before, after, by rw [heq, List.cons_append], ?_⟩
        rw [hname]
        simp [allot]
  · rintro ⟨before, after, heq, hname⟩
    rw [heq, List.map_append, allot_append, List.zip_append (by simp)]
    refine List.mem_append_right _ ?_
    rw [List.map_cons, allot, List.zip_cons_cons, ← hname]
    exact List.mem_cons_self

include hfresh hown in
/-- **Askers who share their wishes out among themselves get their own.** If some of
those who ask wish for pairwise distinct names, and each of them gets a name that
one of them wishes for, then each of them gets the name it wishes for. -/
theorem allot_own_of_shared {marked : β → Prop} [DecidablePred marked]
    (hdistinct : ((askers.filter marked).map wish).Nodup)
    (hshared : ∀ p ∈ askers.zip (allot pick seen (askers.map wish)), marked p.1 →
      ∃ asker ∈ askers, marked asker ∧ wish asker = p.2) :
    ∀ p ∈ askers.zip (allot pick seen (askers.map wish)), marked p.1 → p.2 = wish p.1 := by
  obtain ⟨hnodup, hnew⟩ := nodup_allot hfresh seen (askers.map wish)
  have hlen : (allot pick seen (askers.map wish)).length = askers.length := by simp
  have hfst := List.map_fst_zip hlen.ge
  have hsnd := List.map_snd_zip hlen.le
  generalize hzs : askers.zip (allot pick seen (askers.map wish)) = zs at hshared hfst hsnd ⊢
  -- the marked pairs, by their wishes and by what they get
  have hwishes : (zs.filter fun p => decide (marked p.1)).map (fun p => wish p.1) =
      (askers.filter fun asker => decide (marked asker)).map wish := by
    rw [← hfst, List.filter_map, List.map_map]
    rfl
  have hnames : ((zs.filter fun p => decide (marked p.1)).map Prod.snd).Nodup := by
    rw [← hsnd] at hnodup
    exact hnodup.sublist (List.filter_sublist.map _)
  have hsub : (zs.filter fun p => decide (marked p.1)).map Prod.snd ⊆
      (zs.filter fun p => decide (marked p.1)).map (fun p => wish p.1) := by
    intro name hname
    obtain ⟨p, hp, rfl⟩ := List.mem_map.mp hname
    obtain ⟨hmem, hmarked⟩ := List.mem_filter.mp hp
    obtain ⟨asker, hasker, hmark, heq⟩ := hshared p hmem (of_decide_eq_true hmarked)
    rw [hwishes, ← heq]
    exact List.mem_map_of_mem (List.mem_filter.mpr ⟨hasker, decide_eq_true hmark⟩)
  -- as many names as wishes: every wish is granted to one of them
  have hperm := (List.subperm_of_subset hnames hsub).perm_of_length_le (by simp)
  rw [← hwishes] at hdistinct
  have hgranted : ∀ n, ∀ before p after, before.length = n → zs = before ++ p :: after →
      marked p.1 → p.2 = wish p.1 := by
    intro n
    induction n using Nat.strong_induction_on with
    | _ n ih =>
      intro before p after hn hsplit hmarked
      have hp : p ∈ zs.filter fun p => decide (marked p.1) :=
        List.mem_filter.mpr ⟨by simp [hsplit], decide_eq_true hmarked⟩
      have hpick := allot_split (hzs.trans hsplit)
      by_cases htaken : wish p.1 ∈ (before.map Prod.snd).reverse ++ seen
      · -- the one who has got the name comes before, and wishes for it too
        obtain ⟨q, hq, hqname⟩ := List.mem_map.mp (hperm.mem_iff.mpr
          (List.mem_map_of_mem (f := fun p : β × α => wish p.1) hp))
        have hqzs := (List.mem_filter.mp hq).1
        rcases List.mem_append.mp htaken with htaken | htaken
        · obtain ⟨r, hr, hrname⟩ := List.mem_map.mp (List.mem_reverse.mp htaken)
          have hrzs : r ∈ zs := by
            rw [hsplit]
            exact List.mem_append_left _ hr
          have hqr : q = r := List.inj_on_of_nodup_map (hsnd ▸ hnodup) hqzs hrzs
            (hqname.trans hrname.symm)
          rw [hqr] at hq
          obtain ⟨b₁, b₂, rfl⟩ := List.append_of_mem hr
          have hown' : r.2 = wish r.1 := by
            refine ih b₁.length ?_ b₁ r (b₂ ++ p :: after) rfl ?_ ?_
            · rw [← hn, List.length_append, List.length_cons]
              omega
            · rw [hsplit, List.append_assoc, List.cons_append]
            · simpa using (List.mem_filter.mp hq).2
          have hrp : r = p := List.inj_on_of_nodup_map hdistinct hq hp
            (hown'.symm.trans hrname)
          rw [← hrp, hown']
        · have hqnew : q.2 ∈ allot pick seen (askers.map wish) := by
            rw [← hsnd]
            exact List.mem_map_of_mem hqzs
          exact absurd (hqname ▸ htaken) (hnew _ hqnew)
      · rw [hpick, hown _ _ htaken]
  intro p hp hmarked
  obtain ⟨before, after, hsplit⟩ := List.append_of_mem hp
  exact hgranted before.length before p after rfl hsplit hmarked

end Allot

end AlturaProt.Foundation
