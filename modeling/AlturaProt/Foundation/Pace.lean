import Mathlib.Algebra.Order.Ring.Nat
import Mathlib.Data.List.Basic
import Mathlib.Tactic.Ring

/-!
# A minimum pace

A guard of a minimum pace is shown observations, each an amount at a time. It starts
with the first one, lets everything pass in a grace period, and then asks of every
observation for the amount that is required for the time since the last one.

What such a guard guarantees over a whole run is what it guarantees in one step: if a
step can lose something, so does every repetition of it, and the losses add up
(`keepsFloor_iff`, `run_floor_le`).
-/

namespace AlturaProt.Foundation.Pace

structure Observation where
  time : ℕ
  amount : ℕ
deriving DecidableEq

/-- What all observations together amount to. -/
def total : List Observation → ℕ
  | [] => 0
  | o :: rest => o.amount + total rest

theorem length_le_total {obs : List Observation} (h : ∀ o ∈ obs, 0 < o.amount) :
    obs.length ≤ total obs := by
  induction obs with
  | nil => exact le_refl _
  | cons o rest ih =>
    have hfirst := h o List.mem_cons_self
    have hrest := ih fun x hx => h x (List.mem_cons_of_mem _ hx)
    rw [List.length_cons, total]
    omega

/-- The observations come one after another, from a given time on. -/
def InOrder (start : ℕ) (obs : List Observation) : Prop :=
  (start :: obs.map Observation.time).Pairwise (· ≤ ·)

/-- When the last observation was made. -/
def lastTime (start : ℕ) (obs : List Observation) : ℕ := (obs.map Observation.time).getLastD start

/-- The observations after a time. -/
def after (time : ℕ) (obs : List Observation) : List Observation :=
  obs.filter fun o => decide (time < o.time)

/-- From the end of the grace period to the last observation the floor is met, up to less
than one; the floor is an amount for each `unit` of time. -/
def FloorMet (unit floor graceEnd : ℕ) (obs : List Observation) : Prop :=
  floor * (lastTime 0 obs - graceEnd) < (total (after graceEnd obs) + 1) * unit

instance (unit floor graceEnd : ℕ) (obs : List Observation) :
    Decidable (FloorMet unit floor graceEnd obs) := inferInstanceAs (Decidable (_ < _))

/-! ## The guard -/

inductive Phase where
  | fresh
  | grace (startedAt : ℕ)
  | window (startedAt last : ℕ)
deriving DecidableEq

namespace Phase

variable (required : ℕ → ℕ) (grace : ℕ)

/-- The phase after an observation, or none if it is refused. -/
def next : Phase → Observation → Option Phase
  | .fresh, o => some (.grace o.time)
  | .grace startedAt, o =>
    if o.time - startedAt ≤ grace then some (.grace startedAt)
    else if required (o.time - (startedAt + grace)) ≤ o.amount then
      some (.window startedAt o.time)
    else none
  | .window startedAt last, o =>
    if required (o.time - last) ≤ o.amount then some (.window startedAt o.time) else none

def run : Phase → List Observation → Option Phase
  | phase, [] => some phase
  | phase, o :: rest => (phase.next required grace o).bind fun phase => run phase rest

end Phase

/-! ## Orders of times -/

section Times

variable {start time : ℕ} {o : Observation} {obs : List Observation}

theorem inOrder_cons :
    InOrder start (o :: obs) ↔ start ≤ o.time ∧ (∀ x ∈ obs, start ≤ x.time) ∧
      InOrder o.time obs := by
  simp [InOrder, List.pairwise_cons, and_assoc]

theorem InOrder.drop_head (h : InOrder start (o :: obs)) : InOrder start obs := by
  obtain ⟨-, hstart, hrest⟩ := inOrder_cons.mp h
  exact List.pairwise_cons.mpr ⟨by simpa using hstart, (List.pairwise_cons.mp hrest).2⟩

@[simp] theorem lastTime_nil : lastTime start [] = start := rfl

@[simp] theorem lastTime_cons : lastTime start (o :: obs) = lastTime o.time obs := by
  rw [lastTime, List.map_cons, List.getLastD_cons, lastTime]

theorem InOrder.le_lastTime (h : InOrder start obs) : start ≤ lastTime start obs := by
  induction obs generalizing start with
  | nil => exact le_refl start
  | cons o rest ih =>
    obtain ⟨hle, -, hrest⟩ := inOrder_cons.mp h
    rw [lastTime_cons]
    exact hle.trans (ih hrest)

theorem InOrder.after_eq (h : InOrder start obs) (hlt : time < start) : after time obs = obs := by
  refine List.filter_eq_self.mpr fun o ho => ?_
  have hle := (List.pairwise_cons.mp h).1 o.time (List.mem_map_of_mem ho)
  exact decide_eq_true (hlt.trans_le hle)

end Times

/-! ## What a run guarantees -/

section Floor

variable {required : ℕ → ℕ} {grace floor unit loss startedAt last : ℕ} {obs : List Observation}

theorem window_floor_le
    (hstep : ∀ o ∈ obs, ∀ elapsed, required elapsed ≤ o.amount →
      floor * elapsed ≤ o.amount * unit + loss)
    (horder : InOrder last obs)
    (hrun : ((Phase.window startedAt last).run required grace obs).isSome = true) :
    floor * (lastTime last obs - last) ≤ total obs * unit + obs.length * loss := by
  induction obs generalizing last with
  | nil => simp
  | cons o rest ih =>
    obtain ⟨hle, -, hrest⟩ := inOrder_cons.mp horder
    rw [Phase.run, Phase.next] at hrun
    split at hrun
    · rename_i hpaid
      have hfirst := hstep o List.mem_cons_self _ hpaid
      have hlater := ih (fun x hx => hstep x (List.mem_cons_of_mem _ hx)) hrest hrun
      have hlast := hrest.le_lastTime
      have hsplit : lastTime o.time rest - last =
          (lastTime o.time rest - o.time) + (o.time - last) := by omega
      rw [lastTime_cons, hsplit, Nat.mul_add, total, List.length_cons, Nat.add_mul,
        Nat.add_mul, one_mul]
      omega
    · cases hrun

/-- **The losses add up, and no more.** -/
theorem run_floor_le
    (hstep : ∀ o ∈ obs, ∀ elapsed, required elapsed ≤ o.amount →
      floor * elapsed ≤ o.amount * unit + loss)
    (horder : InOrder startedAt obs)
    (hrun : ((Phase.grace startedAt).run required grace obs).isSome = true) :
    floor * (lastTime 0 obs - (startedAt + grace)) ≤
      total (after (startedAt + grace) obs) * unit +
        (after (startedAt + grace) obs).length * loss := by
  -- without an observation, the last time is some time in the grace period
  suffices h : ∀ default ≤ startedAt + grace,
      floor * (lastTime default obs - (startedAt + grace)) ≤
        total (after (startedAt + grace) obs) * unit +
          (after (startedAt + grace) obs).length * loss from h 0 (Nat.zero_le _)
  induction obs with
  | nil =>
    intro default hdefault
    rw [lastTime_nil, Nat.sub_eq_zero_of_le hdefault]
    simp
  | cons o rest ih =>
    intro default hdefault
    obtain ⟨hle, -, hrest⟩ := inOrder_cons.mp horder
    rw [lastTime_cons]
    rw [Phase.run, Phase.next] at hrun
    split at hrun
    · have hinside : o.time ≤ startedAt + grace := by omega
      have hafter : after (startedAt + grace) (o :: rest) = after (startedAt + grace) rest :=
        List.filter_cons_of_neg (by simpa using hinside)
      rw [hafter]
      exact ih (fun x hx => hstep x (List.mem_cons_of_mem _ hx)) horder.drop_head hrun
        o.time hinside
    · have hbeyond : startedAt + grace < o.time := by omega
      have hafter : after (startedAt + grace) (o :: rest) = o :: rest :=
        (List.filter_cons_of_pos (by simpa using hbeyond)).trans
          (congrArg (o :: ·) (hrest.after_eq hbeyond))
      rw [hafter]
      -- the first window starts where the grace period ends
      have hwindow : ((Phase.window startedAt (startedAt + grace)).run required grace
          (o :: rest)).isSome = true := by
        exact hrun
      have hfrom : InOrder (startedAt + grace) (o :: rest) :=
        inOrder_cons.mpr ⟨hbeyond.le, fun x hx => hbeyond.le.trans
          ((List.pairwise_cons.mp hrest).1 x.time (List.mem_map_of_mem hx)), hrest⟩
      have hfloor := window_floor_le hstep hfrom hwindow
      rwa [lastTime_cons] at hfloor

end Floor

/-! ## A step over and over -/

/-- An amount again and again, at equal distances. -/
def steady (elapsed amount : ℕ) : ℕ → ℕ → List Observation
  | 0, _ => []
  | n + 1, last => ⟨last + elapsed, amount⟩ :: steady elapsed amount n (last + elapsed)

section Steady

variable {required : ℕ → ℕ} {grace elapsed amount startedAt : ℕ} (n last : ℕ)

theorem amount_of_mem_steady {o : Observation} (h : o ∈ steady elapsed amount n last) :
    o.amount = amount := by
  induction n generalizing last with
  | zero => cases h
  | succ n ih =>
    rcases List.mem_cons.mp h with rfl | h
    · rfl
    · exact ih _ h

theorem le_time_of_mem_steady {o : Observation} (h : o ∈ steady elapsed amount n last) :
    last + elapsed ≤ o.time := by
  induction n generalizing last with
  | zero => cases h
  | succ n ih =>
    rcases List.mem_cons.mp h with rfl | h
    · exact le_refl _
    · exact (Nat.le_add_right _ _).trans (ih _ h)

theorem inOrder_steady : InOrder last (steady elapsed amount n last) := by
  induction n generalizing last with
  | zero => exact List.pairwise_singleton _ _
  | succ n ih =>
    refine inOrder_cons.mpr ⟨Nat.le_add_right _ _, fun o ho => ?_, ih _⟩
    have := le_time_of_mem_steady _ _ ho
    omega

theorem total_steady : total (steady elapsed amount n last) = n * amount := by
  induction n generalizing last with
  | zero => simp [steady, total]
  | succ n ih => rw [steady, total, ih, Nat.succ_mul, Nat.add_comm]

theorem lastTime_steady (start : ℕ) (hn : 0 < n) :
    lastTime start (steady elapsed amount n last) = last + n * elapsed := by
  induction n generalizing last start with
  | zero => cases hn
  | succ n ih =>
    rw [steady, lastTime_cons]
    cases n with
    | zero => simp [steady]
    | succ n =>
      rw [ih _ _ (Nat.succ_pos n)]
      ring

theorem run_steady (h : required elapsed ≤ amount) :
    ((Phase.window startedAt last).run required grace
      (steady elapsed amount n last)).isSome = true := by
  induction n generalizing last with
  | zero => rfl
  | succ n ih =>
    rw [steady, Phase.run, Phase.next, if_pos (by simpa using h)]
    exact ih _

end Steady

/-! ## When the floor is kept -/

section Keeps

variable (required : ℕ → ℕ) (grace floor unit : ℕ) (data : ℕ → Prop)

/-- Every run that passes meets the floor. -/
def KeepsFloor : Prop :=
  ∀ startedAt obs, (∀ o ∈ obs, data o.amount) → InOrder startedAt obs →
    ((Phase.grace startedAt).run required grace obs).isSome = true →
    FloorMet unit floor (startedAt + grace) obs

/-- **A floor is kept exactly if no step falls short of it.** -/
theorem keepsFloor_iff (hunit : 0 < unit) :
    KeepsFloor required grace floor unit data ↔
      ∀ elapsed amount, data amount → required elapsed ≤ amount →
        floor * elapsed ≤ amount * unit := by
  constructor
  · intro hkeeps elapsed amount hdata hpaid
    by_contra hshort
    have hshort := not_le.mp hshort
    have hpos : 0 < elapsed := Nat.pos_of_ne_zero fun h => by simp [h] at hshort
    -- as many times as it takes to lose one
    have hin : InOrder 0 (steady elapsed amount unit grace) :=
      List.pairwise_cons.mpr ⟨fun _ _ => Nat.zero_le _,
        (List.pairwise_cons.mp (inOrder_steady unit grace)).2⟩
    have hbeyond : after (0 + grace) (steady elapsed amount unit grace) =
        steady elapsed amount unit grace := by
      refine List.filter_eq_self.mpr fun o ho => decide_eq_true ?_
      have := le_time_of_mem_steady _ _ ho
      omega
    have hrun : ((Phase.grace 0).run required grace
        (steady elapsed amount unit grace)).isSome = true := by
      obtain ⟨n, rfl⟩ := Nat.exists_eq_succ_of_ne_zero hunit.ne'
      have hlate : ¬ grace + elapsed - 0 ≤ grace := by omega
      rw [steady, Phase.run, Phase.next, if_neg hlate, if_pos (by simpa using hpaid)]
      exact run_steady _ _ hpaid
    have hmet := hkeeps 0 _ (fun o ho => (amount_of_mem_steady _ _ ho).symm ▸ hdata) hin hrun
    rw [FloorMet, hbeyond, total_steady, lastTime_steady _ _ _ hunit, zero_add,
      Nat.add_sub_cancel_left] at hmet
    have hmany : unit * (amount * unit + 1) ≤ unit * (floor * elapsed) :=
      Nat.mul_le_mul_left _ hshort
    have hleft : floor * (unit * elapsed) = unit * (floor * elapsed) := by ring
    have hright : (unit * amount + 1) * unit = unit * (amount * unit + 1) := by ring
    omega
  · intro hstep startedAt obs hdata horder hrun
    have hsteps : ∀ o ∈ obs, ∀ elapsed, required elapsed ≤ o.amount →
        floor * elapsed ≤ o.amount * unit + 0 :=
      fun o ho elapsed hpaid => hstep elapsed o.amount (hdata o ho) hpaid
    have hfloor := run_floor_le hsteps horder hrun
    rw [FloorMet, Nat.add_mul]
    omega

end Keeps

/-! ## Code that keeps the pace -/

section Implements

variable {G : Type} (step : G → ℕ → ℕ → G × Bool)

/-- Every observation is accepted. -/
def passes : G → List Observation → Bool
  | _, [] => true
  | guard, o :: rest =>
    (step guard o.time o.amount).2 && passes (step guard o.time o.amount).1 rest

/-- The code goes from phase to phase as the guard does, and refuses what it refuses. -/
def Implements (required : ℕ → ℕ) (grace : ℕ) (data : ℕ → Prop) (ofPhase : Phase → G) : Prop :=
  ∀ (phase : Phase) (o : Observation), data o.amount →
    (phase.next required grace o).elim ((step (ofPhase phase) o.time o.amount).2 = false)
      fun phase' => step (ofPhase phase) o.time o.amount = (ofPhase phase', true)

variable {step} {required : ℕ → ℕ} {grace : ℕ} {data : ℕ → Prop} {ofPhase : Phase → G}

theorem Implements.passes_eq (h : Implements step required grace data ofPhase) (phase : Phase)
    {obs : List Observation} (hdata : ∀ o ∈ obs, data o.amount) :
    passes step (ofPhase phase) obs = (phase.run required grace obs).isSome := by
  induction obs generalizing phase with
  | nil => rfl
  | cons o rest ih =>
    have hstep := h phase o (hdata o List.mem_cons_self)
    rw [passes, Phase.run]
    cases hnext : phase.next required grace o with
    | none =>
      rw [hnext] at hstep
      rw [show (step (ofPhase phase) o.time o.amount).2 = false from hstep]
      rfl
    | some phase' =>
      rw [hnext] at hstep
      rw [show step (ofPhase phase) o.time o.amount = (ofPhase phase', true) from hstep]
      exact ih phase' fun x hx => hdata x (List.mem_cons_of_mem _ hx)

/-- The first observation starts the grace period and is inside of it. -/
theorem run_fresh (first : Observation) (rest : List Observation) :
    Phase.fresh.run required grace (first :: rest) =
      (Phase.grace first.time).run required grace (first :: rest) := by
  simp [Phase.run, Phase.next]

end Implements

end AlturaProt.Foundation.Pace
