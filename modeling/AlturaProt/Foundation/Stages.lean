import Mathlib.Data.List.Nodup
import Mathlib.Data.List.TakeWhile
import Mathlib.Logic.Function.Basic

/-!
# Stages in sequence

A request that must pass several stages in order, each with a state of its own:
the first refusal ends the sequence, and nothing an earlier stage did is taken
back. `runStages_refused` says what such a sequence leaves behind, and
`keeps_iff_before` what that means for a property of single stages: it holds of
every stage but the refusing one exactly when it holds of the admissions that
came before the refusal.
-/

namespace AlturaProt.Foundation

variable {D : Type*} [DecidableEq D] {P : D → Type*} {R : Type*}

/-- Consult the stages in order until one refuses. -/
def runStages (act : ∀ d, P d → P d × Option R) :
    List D → (∀ d, P d) → (∀ d, P d) × Option (D × R)
  | [], s => (s, none)
  | d :: rest, s =>
    match act d (s d) with
    | (p, some r) => (Function.update s d p, some (d, r))
    | (p, none) => runStages act rest (Function.update s d p)

/-- The stages consulted before `d`. -/
def stagesBefore (order : List D) (d : D) : List D :=
  order.takeWhile (fun e => decide (e ≠ d))

@[simp] theorem stagesBefore_cons_self (d : D) (rest : List D) :
    stagesBefore (d :: rest) d = [] := by
  simp [stagesBefore]

theorem stagesBefore_cons_of_ne {a d : D} (h : a ≠ d) (rest : List D) :
    stagesBefore (a :: rest) d = a :: stagesBefore rest d := by
  simp [stagesBefore, h]

theorem mem_of_mem_stagesBefore {order : List D} {d e : D} (h : e ∈ stagesBefore order d) :
    e ∈ order :=
  (List.takeWhile_sublist _).subset h

/-- What a refused sequence leaves behind: the stages before the refusing one
have admitted and stay as their admission left them, the stages after it have
not been consulted. -/
structure Refused (act : ∀ d, P d → P d × Option R) (order : List D) (s s' : ∀ d, P d)
    (d : D) : Prop where
  mem : d ∈ order
  admitted : ∀ e ∈ stagesBefore order d, (act e (s e)).2 = none
  before : ∀ e ∈ stagesBefore order d, s' e = (act e (s e)).1
  untouched : ∀ e ∉ stagesBefore order d, e ≠ d → s' e = s e

variable {act : ∀ d, P d → P d × Option R}

theorem runStages_refused {order : List D} (hnodup : order.Nodup) {s : ∀ d, P d} {d : D}
    {r : R} (h : (runStages act order s).2 = some (d, r)) :
    Refused act order s (runStages act order s).1 d := by
  induction order generalizing s with
  | nil => cases h
  | cons a rest ih =>
    obtain ⟨hnew, hrest⟩ := List.nodup_cons.mp hnodup
    rcases hact : act a (s a) with ⟨p, _ | r'⟩
    · have hrun : runStages act (a :: rest) s =
          runStages act rest (Function.update s a p) := by
        simp only [runStages, hact]
      rw [hrun] at h ⊢
      have href := ih hrest h
      have hne : a ≠ d := by
        rintro rfl
        exact hnew href.mem
      -- a later stage is not the one just consulted
      have hother : ∀ e ∈ stagesBefore rest d, Function.update s a p e = s e := by
        intro e he
        refine Function.update_of_ne ?_ p s
        rintro rfl
        exact hnew (mem_of_mem_stagesBefore he)
      have hself : (runStages act rest (Function.update s a p)).1 a = p := by
        rw [href.untouched a (fun hm => hnew (mem_of_mem_stagesBefore hm)) hne,
          Function.update_self]
      refine ⟨List.mem_cons_of_mem a href.mem, ?_, ?_, ?_⟩
      · rw [stagesBefore_cons_of_ne hne]
        rintro e he
        rcases List.mem_cons.mp he with rfl | he
        · rw [hact]
        · rw [← hother e he]
          exact href.admitted e he
      · rw [stagesBefore_cons_of_ne hne]
        intro e he
        rcases List.mem_cons.mp he with rfl | he
        · rw [hself, hact]
        · rw [href.before e he, hother e he]
      · rw [stagesBefore_cons_of_ne hne]
        intro e he hed
        obtain ⟨hea, he⟩ := not_or.mp (fun hm => he (List.mem_cons.mpr hm))
        rw [href.untouched e he hed, Function.update_of_ne hea]
    · have hrun : runStages act (a :: rest) s =
          (Function.update s a p, some (a, r')) := by
        simp only [runStages, hact]
      rw [hrun] at h ⊢
      obtain ⟨rfl, -⟩ := Prod.mk.inj (Option.some.inj h)
      refine ⟨List.mem_cons_self, ?_, ?_, ?_⟩
      · simp
      · simp
      · intro e _ hed
        exact Function.update_of_ne hed p s

/-- **Who refuses.** A stage refuses the request if it would from its own state
and all before it would admit: what other stages do does not matter to it. -/
theorem runStages_eq_some_iff {order : List D} (hnodup : order.Nodup) {s : ∀ d, P d} {d : D}
    {r : R} :
    (runStages act order s).2 = some (d, r) ↔
      d ∈ order ∧ (∀ e ∈ stagesBefore order d, (act e (s e)).2 = none) ∧
        (act d (s d)).2 = some r := by
  induction order generalizing s with
  | nil => simp [runStages]
  | cons a rest ih =>
    obtain ⟨hnew, hrest⟩ := List.nodup_cons.mp hnodup
    rcases hact : act a (s a) with ⟨p, _ | r'⟩
    · have hrun : runStages act (a :: rest) s =
          runStages act rest (Function.update s a p) := by
        simp only [runStages, hact]
      rw [hrun, ih hrest]
      have hother : ∀ e ∈ rest, Function.update s a p e = s e := by
        intro e he
        refine Function.update_of_ne ?_ p s
        rintro rfl
        exact hnew he
      constructor
      · rintro ⟨hd, hpass, href⟩
        have hne : a ≠ d := fun h => hnew (h ▸ hd)
        rw [hother d hd] at href
        rw [stagesBefore_cons_of_ne hne]
        refine ⟨List.mem_cons_of_mem a hd, List.forall_mem_cons.mpr ⟨by rw [hact], ?_⟩, href⟩
        intro e he
        rw [← hother e (mem_of_mem_stagesBefore he)]
        exact hpass e he
      · rintro ⟨hd, hpass, href⟩
        -- the first stage admits, so the refusing one comes later
        have hne : a ≠ d := by
          rintro rfl
          rw [hact] at href
          cases href
        have hd : d ∈ rest := (List.mem_cons.mp hd).resolve_left hne.symm
        rw [stagesBefore_cons_of_ne hne] at hpass
        refine ⟨hd, fun e he => ?_, by rw [hother d hd]; exact href⟩
        rw [hother e (mem_of_mem_stagesBefore he)]
        exact hpass e (List.mem_cons_of_mem a he)
    · have hrun : (runStages act (a :: rest) s).2 = some (a, r') := by
        simp only [runStages, hact]
      rw [hrun]
      constructor
      · intro heq
        obtain ⟨rfl, rfl⟩ := Prod.mk.inj (Option.some.inj heq)
        exact ⟨List.mem_cons_self, by simp, by rw [hact]⟩
      · rintro ⟨-, hpass, href⟩
        have heq : a = d := by
          by_contra hne
          rw [stagesBefore_cons_of_ne hne] at hpass
          have hnone := hpass a List.mem_cons_self
          rw [hact] at hnone
          cases hnone
        subst heq
        rw [hact] at href
        rw [Option.some.inj href]

/-- **No effect but the refusal.** A reflexive relation between a stage's state
before and after holds of every stage but the refusing one exactly when it
holds of every admission before the refusal. -/
theorem keeps_iff_before {order : List D} (hnodup : order.Nodup) (s : ∀ d, P d)
    {Keeps : ∀ d, P d → P d → Prop} (hrefl : ∀ d p, Keeps d p p) {d : D} {r : R}
    (h : (runStages act order s).2 = some (d, r)) :
    (∀ e, e ≠ d → Keeps e (s e) ((runStages act order s).1 e)) ↔
      ∀ e ∈ stagesBefore order d, Keeps e (s e) (act e (s e)).1 := by
  have href := runStages_refused hnodup h
  constructor
  · intro hkeeps e he
    have hed : e ≠ d := by
      rintro rfl
      simpa using List.mem_takeWhile_imp he
    rw [← href.before e he]
    exact hkeeps e hed
  · intro hbefore e hed
    by_cases he : e ∈ stagesBefore order d
    · rw [href.before e he]
      exact hbefore e he
    · rw [href.untouched e he hed]
      exact hrefl e (s e)

end AlturaProt.Foundation
