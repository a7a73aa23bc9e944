import Mathlib.Algebra.Order.Field.Rat
import Mathlib.Data.List.Pairwise
import Mathlib.Tactic.Linarith
import Mathlib.Tactic.Positivity
import Mathlib.Tactic.Ring

/-!
# Metered accounts

A machine that hands out grants against an account: the balance never exceeds
`cap`, grows by at most `rate` per second, and every grant costs one unit. A
*forgiving* step is one after which the account may hold up to `slack` more
than it should; a machine that forgets accounts forgives.

`Meter.grants_le` is the classical bound over any window of a timed run: the
grants inside are at most one full account, plus what accrued, plus the slack
of each forgiving step inside. `Meter` carries the laws its proof needs as
fields, so an instance only has to be built once per machine.
-/

namespace AlturaProt.Foundation

variable {σ α : Type*}

/-! ## Counting along a run -/

/-- How many events of the run from `s` satisfy `p` in the state they meet. -/
def countRun (step : σ → α → σ) (p : σ → α → Bool) : σ → List α → ℕ
  | _, [] => 0
  | s, e :: es => (p s e).toNat + countRun step p (step s e) es

/-- Restrict a predicate on events to a closed time window. -/
def within (time : α → ℚ) (a b : ℚ) (p : σ → α → Bool) (s : σ) (e : α) : Bool :=
  decide (a ≤ time e ∧ time e ≤ b) && p s e

/-- The event makes something that was there disappear. -/
def lost (step : σ → α → σ) (has : σ → Bool) (s : σ) (e : α) : Bool :=
  has s && !has (step s e)

theorem within_eq_of_mem {time : α → ℚ} {a b : ℚ} {e : α} (p : σ → α → Bool)
    (s : σ) (ha : a ≤ time e) (hb : time e ≤ b) :
    within time a b p s e = p s e := by
  simp [within, ha, hb]

theorem within_eq_false_of_lt {time : α → ℚ} {a b : ℚ} {e : α}
    (p : σ → α → Bool) (s : σ) (h : time e < a) :
    within time a b p s e = false := by
  simp [within, not_le.mpr h]

theorem within_eq_false_of_gt {time : α → ℚ} {a b : ℚ} {e : α}
    (p : σ → α → Bool) (s : σ) (h : b < time e) :
    within time a b p s e = false := by
  simp [within, not_le.mpr h]

theorem countRun_eq_zero (step : σ → α → σ) {p : σ → α → Bool} :
    ∀ (es : List α) (s : σ), (∀ e ∈ es, ∀ s, p s e = false) → countRun step p s es = 0 := by
  intro es
  induction es with
  | nil => exact fun _ _ => rfl
  | cons e rest ih =>
    intro s h
    rw [countRun, h e List.mem_cons_self s, ih _ (fun e' he' => h e' (List.mem_cons_of_mem e he'))]
    rfl

/-! ## Meters -/

/-- A machine with an account, and the laws of that account. -/
structure Meter (σ α : Type*) where
  step : σ → α → σ
  time : α → ℚ
  grant : σ → α → Bool
  forgive : σ → α → Bool
  balance : σ → ℚ → ℚ
  cap : ℚ
  rate : ℚ
  slack : ℚ
  Inv : σ → Prop
  inv_step : ∀ s e, Inv s → Inv (step s e)
  rate_nonneg : 0 ≤ rate
  slack_nonneg : 0 ≤ slack
  balance_nonneg : ∀ s t, Inv s → 0 ≤ balance s t
  balance_le : ∀ s t, Inv s → balance s t ≤ cap
  balance_grow : ∀ s t t', Inv s → t ≤ t' →
    balance s t' ≤ balance s t + rate * (t' - t)
  balance_step : ∀ s e, Inv s →
    balance (step s e) (time e) + (grant s e).toNat ≤
      balance s (time e) + slack * (forgive s e).toNat

namespace Meter

variable (M : Meter σ α)

/-- Grants of a run inside the window `[a, b]`. -/
def grantsIn (a b : ℚ) (s : σ) (es : List α) : ℕ :=
  countRun M.step (within M.time a b M.grant) s es

/-- Forgiving steps of a run inside the window `[a, b]`. -/
def forgivenIn (a b : ℚ) (s : σ) (es : List α) : ℕ :=
  countRun M.step (within M.time a b M.forgive) s es

theorem cap_nonneg {s : σ} (hs : M.Inv s) : 0 ≤ M.cap :=
  le_trans (M.balance_nonneg s 0 hs) (M.balance_le s 0 hs)

/-- Past the end of the window nothing counts any more. -/
theorem grantsIn_eq_zero {a b : ℚ} {es : List α}
    (h : ∀ e ∈ es, b < M.time e) (s : σ) : M.grantsIn a b s es = 0 :=
  countRun_eq_zero M.step es s
    (fun e he s => within_eq_false_of_gt M.grant s (h e he))

/-- The bound once the window has begun: the balance at its start pays for
the first grants. The induction moves the start of the window to the time of
the event just processed. -/
theorem grantsIn_le_balance {b : ℚ} : ∀ (es : List α) (s : σ) (a lo : ℚ),
    M.Inv s → lo ≤ a → a ≤ b → (∀ e ∈ es, a ≤ M.time e) →
    es.Pairwise (fun x y => M.time x ≤ M.time y) →
    (M.grantsIn lo b s es : ℚ) ≤
      M.balance s a + M.rate * (b - a) + M.slack * M.forgivenIn lo b s es := by
  intro es
  induction es with
  | nil =>
    intro s a lo hs _ hab _ _
    have hbal := M.balance_nonneg s a hs
    have hacc := mul_nonneg M.rate_nonneg (sub_nonneg.mpr hab)
    simp only [grantsIn, forgivenIn, countRun, Nat.cast_zero, mul_zero, add_zero]
    exact add_nonneg hbal hacc
  | cons e rest ih =>
    intro s a lo hs hlo hab hall hsorted
    have hcons := List.pairwise_cons.mp hsorted
    have hae : a ≤ M.time e := hall e List.mem_cons_self
    by_cases heb : M.time e ≤ b
    · -- the event is inside: pay for it, then restart the window there
      have hrest := ih (M.step s e) (M.time e) lo (M.inv_step s e hs)
        (le_trans hlo hae) heb hcons.1 hcons.2
      have hstep := M.balance_step s e hs
      have hgrow := M.balance_grow s a (M.time e) hs hae
      have hg : M.grantsIn lo b s (e :: rest) =
          (M.grant s e).toNat + M.grantsIn lo b (M.step s e) rest := by
        rw [grantsIn, countRun, within_eq_of_mem M.grant s (hlo.trans hae) heb]
        rfl
      have hf : M.forgivenIn lo b s (e :: rest) =
          (M.forgive s e).toNat + M.forgivenIn lo b (M.step s e) rest := by
        rw [forgivenIn, countRun, within_eq_of_mem M.forgive s (hlo.trans hae) heb]
        rfl
      rw [hg, hf, Nat.cast_add, Nat.cast_add, mul_add]
      linarith
    · -- the run has left the window
      have hlate : ∀ e' ∈ e :: rest, b < M.time e' := by
        intro e' he'
        rcases List.mem_cons.mp he' with rfl | he'
        · exact not_le.mp heb
        · exact lt_of_lt_of_le (not_le.mp heb) (hcons.1 e' he')
      rw [M.grantsIn_eq_zero hlate]
      have hbal := M.balance_nonneg s a hs
      have hacc := mul_nonneg M.rate_nonneg (sub_nonneg.mpr hab)
      have hforg := mul_nonneg M.slack_nonneg
        (Nat.cast_nonneg (α := ℚ) (M.forgivenIn lo b s (e :: rest)))
      rw [Nat.cast_zero]
      linarith

/-- **Grants in a window.** Whatever happened before it, a window of a timed
run contains at most one full account of grants, plus what accrued inside,
plus the slack of the forgiving steps inside. -/
theorem grants_le {a b : ℚ} (hab : a ≤ b) : ∀ (es : List α) (s : σ),
    M.Inv s → es.Pairwise (fun x y => M.time x ≤ M.time y) →
    (M.grantsIn a b s es : ℚ) ≤ M.cap + M.rate * (b - a) + M.slack * M.forgivenIn a b s es := by
  intro es
  induction es with
  | nil =>
    intro s hs _
    have hacc := mul_nonneg M.rate_nonneg (sub_nonneg.mpr hab)
    have hcap := M.cap_nonneg hs
    simp only [grantsIn, forgivenIn, countRun, Nat.cast_zero, mul_zero, add_zero]
    exact add_nonneg hcap hacc
  | cons e rest ih =>
    intro s hs hsorted
    have hcons := List.pairwise_cons.mp hsorted
    by_cases hae : a ≤ M.time e
    · have hall : ∀ e' ∈ e :: rest, a ≤ M.time e' := by
        intro e' he'
        rcases List.mem_cons.mp he' with rfl | he'
        · exact hae
        · exact le_trans hae (hcons.1 e' he')
      have hbound := M.grantsIn_le_balance (e :: rest) s a a hs le_rfl hab
        hall hsorted
      have hbal := M.balance_le s a hs
      linarith
    · -- before the window: the event counts on neither side
      have hlt : M.time e < a := not_le.mp hae
      have hg : M.grantsIn a b s (e :: rest) =
          M.grantsIn a b (M.step s e) rest := by
        rw [grantsIn, countRun, within_eq_false_of_lt M.grant s hlt]
        exact Nat.zero_add _
      have hf : M.forgivenIn a b s (e :: rest) =
          M.forgivenIn a b (M.step s e) rest := by
        rw [forgivenIn, countRun, within_eq_false_of_lt M.forgive s hlt]
        exact Nat.zero_add _
      rw [hg, hf]
      exact ih (M.step s e) (M.inv_step s e hs) hcons.2

end Meter

end AlturaProt.Foundation
