import AlturaProt.Foundation.Pace
import AlturaProt.Http.BodyGuard

/-!
# Minimum data rates over a whole transfer

`TcpRateGuard` of `src/tcp_proxy.rs` measures a direction of a relay, as `BodyRateGuard`
of `src/http_proxy.rs` measures a body. Both are guards of a minimum pace; what they
require for a time differs in the rounding. The window starts again with every
observation, so what the rounding gives away is given away every time: a floor is kept
over a whole transfer only if nothing is ever rounded (`min_rate_kept_iff`).

Times are nanoseconds.
-/

namespace AlturaProt.Tcp

open Foundation Pace Http

/-! ## The guard of a relay -/

structure TcpRateLimit where
  minBytesPerSecond : ℕ
  grace : ℕ
deriving DecidableEq

structure TcpRateGuard where
  limit : TcpRateLimit
  startedAt : Option ℕ
  windowStartedAt : Option ℕ
  windowBytes : ℕ
  graceComplete : Bool
deriving DecidableEq

namespace TcpRateGuard

def new (limit : TcpRateLimit) : TcpRateGuard where
  limit := limit
  startedAt := none
  windowStartedAt := none
  windowBytes := 0
  graceComplete := false

/-- What the floor asks for in a time: whole milliseconds, as `u64`, and a product that
saturates. -/
def required (minBytesPerSecond elapsed : ℕ) : ℕ :=
  min (minBytesPerSecond * (elapsed / 1000000 % 2 ^ 64)) (2 ^ 64 - 1) / 1000

/-- Add the bytes to the window and compare; a window that is full enough starts again. -/
def measure (guard : TcpRateGuard) (now bytes : ℕ) : TcpRateGuard × Bool :=
  let windowBytes := min (guard.windowBytes + bytes) (2 ^ 64 - 1)
  let windowStartedAt := guard.windowStartedAt.getD now
  if required guard.limit.minBytesPerSecond (now - windowStartedAt) ≤ windowBytes then
    ({ guard with windowStartedAt := some now, windowBytes := 0 }, true)
  else
    ({ guard with windowStartedAt := some windowStartedAt, windowBytes := windowBytes }, false)

def observe (guard : TcpRateGuard) (now bytes : ℕ) : TcpRateGuard × Bool :=
  if guard.limit.minBytesPerSecond = 0 ∨ bytes = 0 then (guard, true)
  else
    let startedAt := guard.startedAt.getD now
    let guard := { guard with startedAt := some startedAt }
    if guard.graceComplete then guard.measure now bytes
    else if now - startedAt ≤ guard.limit.grace then (guard, true)
    else
      -- the first window starts where the grace period ended
      { guard with
        graceComplete := true
        windowStartedAt := some (startedAt + guard.limit.grace) }.measure now bytes

/-- The guard in a phase. -/
def ofPhase (limit : TcpRateLimit) : Phase → TcpRateGuard
  | .fresh => new limit
  | .grace startedAt => { new limit with startedAt := some startedAt }
  | .window startedAt last =>
    { new limit with
      startedAt := some startedAt
      windowStartedAt := some last
      graceComplete := true }

end TcpRateGuard

/-- An observation of data: at least a byte, and no more than its counter holds. -/
def IsData (bytes : ℕ) : Prop := 0 < bytes ∧ bytes < 2 ^ 64

instance (bytes : ℕ) : Decidable (IsData bytes) := inferInstanceAs (Decidable (_ ∧ _))

variable {bytes floor grace : ℕ}

theorem IsData.window (h : IsData bytes) : min (0 + bytes) (2 ^ 64 - 1) = bytes := by
  have := h.2
  omega

/-- A window is compared with the bytes of one observation. -/
theorem TcpRateGuard.measure_window {limit : TcpRateLimit} {startedAt last now : ℕ}
    (hdata : IsData bytes) :
    (ofPhase limit (.window startedAt last)).measure now bytes =
      if required limit.minBytesPerSecond (now - last) ≤ bytes then
        (ofPhase limit (.window startedAt now), true)
      else ({ ofPhase limit (.window startedAt last) with windowBytes := bytes }, false) := by
  simp only [measure, ofPhase, new, hdata.window, Option.getD_some]

/-- The relay's guard keeps the pace. -/
theorem TcpRateGuard.implements {limit : TcpRateLimit} (hfloor : 0 < limit.minBytesPerSecond) :
    Implements observe (required limit.minBytesPerSecond) limit.grace IsData (ofPhase limit) := by
  intro phase o hdata
  have hon : ¬ (limit.minBytesPerSecond = 0 ∨ o.amount = 0) := by
    have := hdata.1
    omega
  cases phase with
  | fresh => simp [Phase.next, observe, ofPhase, new, hon]
  | grace startedAt =>
    by_cases hgrace : o.time - startedAt ≤ limit.grace
    · simp [Phase.next, observe, ofPhase, new, hon, hgrace]
    · have hobserve : observe (ofPhase limit (.grace startedAt)) o.time o.amount =
          (ofPhase limit (.window startedAt (startedAt + limit.grace))).measure o.time
            o.amount := by
        simp [observe, ofPhase, new, hon, hgrace]
      rw [Phase.next, if_neg hgrace, hobserve, measure_window hdata]
      split <;> rfl
  | window startedAt last =>
    have hobserve : observe (ofPhase limit (.window startedAt last)) o.time o.amount =
        (ofPhase limit (.window startedAt last)).measure o.time o.amount := by
      simp [observe, ofPhase, new, hon]
    rw [Phase.next, hobserve, measure_window hdata]
    split <;> rfl

/-! ## The guard of a body -/

/-- What the floor asks for in a time: nanoseconds, and a product that saturates. -/
def bodyRequired (minBytesPerSecond elapsed : ℕ) : ℕ :=
  min (minBytesPerSecond * elapsed) (2 ^ 128 - 1) / 1000000000

/-- A body guard in a phase. -/
def bodyOfPhase (floor grace : ℕ) : Phase → BodyRateGuard
  | .fresh => .new floor grace
  | .grace startedAt =>
    { BodyRateGuard.new floor grace with
      startedAt := some startedAt
      windowStartedAt := some startedAt }
  | .window startedAt last =>
    { BodyRateGuard.new floor grace with
      startedAt := some startedAt
      windowStartedAt := some last
      graceComplete := true }

theorem body_measure_window {startedAt last now : ℕ} (hdata : IsData bytes) :
    (bodyOfPhase floor grace (.window startedAt last)).measure now bytes =
      if bodyRequired floor (now - last) ≤ bytes then
        (bodyOfPhase floor grace (.window startedAt now), true)
      else ({ bodyOfPhase floor grace (.window startedAt last) with windowBytes := bytes },
        false) := by
  simp only [BodyRateGuard.measure, bodyOfPhase, BodyRateGuard.new, hdata.window, Option.getD_some]
  rfl

/-- The body's guard keeps the pace. -/
theorem body_implements (hfloor : 0 < floor) (grace : ℕ) :
    Implements BodyRateGuard.record (bodyRequired floor) grace IsData
      (bodyOfPhase floor grace) := by
  intro phase o hdata
  have hon : floor ≠ 0 := hfloor.ne'
  cases phase with
  | fresh =>
    simp [Phase.next, BodyRateGuard.record, BodyRateGuard.start, bodyOfPhase,
      BodyRateGuard.new, hon, hfloor]
  | grace startedAt =>
    by_cases hgrace : o.time - startedAt ≤ grace
    · simp [Phase.next, BodyRateGuard.record, BodyRateGuard.start, bodyOfPhase,
        BodyRateGuard.new, hon, hgrace]
    · have hrecord : (bodyOfPhase floor grace (.grace startedAt)).record o.time o.amount =
          (bodyOfPhase floor grace (.window startedAt (startedAt + grace))).measure o.time
            o.amount := by
        simp [BodyRateGuard.record, BodyRateGuard.start, bodyOfPhase, BodyRateGuard.new, hon,
          hgrace]
      rw [Phase.next, if_neg hgrace, hrecord, body_measure_window hdata]
      split <;> rfl
  | window startedAt last =>
    have hrecord : (bodyOfPhase floor grace (.window startedAt last)).record o.time o.amount =
        (bodyOfPhase floor grace (.window startedAt last)).measure o.time o.amount := by
      simp [BodyRateGuard.record, BodyRateGuard.start, bodyOfPhase, BodyRateGuard.new, hon]
    rw [Phase.next, hrecord, body_measure_window hdata]
    split <;> rfl

/-! ## One step -/

/-- The product never saturates below what a counter holds. -/
theorem bodyRequired_le_iff {elapsed : ℕ} (hdata : IsData bytes) :
    bodyRequired floor elapsed ≤ bytes ↔ floor * elapsed < (bytes + 1) * 1000000000 := by
  have hfits := hdata.2
  unfold bodyRequired
  omega

/-- A body falls short of no floor in a step only if the floor is a whole number of bytes in
a nanosecond. -/
theorem body_step_iff (hfloor : 0 < floor) (hfits : floor < 2 ^ 64) :
    (∀ elapsed bytes, IsData bytes → bodyRequired floor elapsed ≤ bytes →
        floor * elapsed ≤ bytes * 1000000000) ↔
      1000000000 ∣ floor := by
  constructor
  · intro hstep
    by_cases hsmall : floor < 1000000000
    · -- one byte, just before two are required
      have hone : IsData 1 := by decide
      have hdiv := Nat.div_add_mod 1999999999 floor
      have hmod := Nat.mod_lt 1999999999 hfloor
      have hle := hstep (1999999999 / floor) 1 hone ((bodyRequired_le_iff hone).mpr (by omega))
      omega
    · have hdata : IsData (floor / 1000000000) := ⟨by omega, by omega⟩
      have hle := hstep 1 (floor / 1000000000) hdata
        ((bodyRequired_le_iff hdata).mpr (by omega))
      omega
  · rintro ⟨k, rfl⟩ elapsed bytes hdata hpaid
    have hlt := (bodyRequired_le_iff hdata).mp hpaid
    rw [Nat.mul_assoc, Nat.mul_comm] at hlt ⊢
    omega

/-- Less than a millisecond is nothing to a relay's guard. -/
theorem tcp_step_short (hfloor : 0 < floor) :
    ∃ elapsed, TcpRateGuard.required floor elapsed ≤ 1 ∧ 1 * 1000000000 < floor * elapsed := by
  -- just before the millisecond in which two bytes are required
  have hdiv := Nat.div_add_mod 1999 floor
  have hmod := Nat.mod_lt 1999 hfloor
  have hquot : 1999 / floor ≤ 1999 := Nat.div_le_self _ _
  refine ⟨1999 / floor * 1000000 + 999999, ?_, ?_⟩
  · have hmillis : (1999 / floor * 1000000 + 999999) / 1000000 = 1999 / floor := by omega
    rw [TcpRateGuard.required, hmillis, Nat.mod_eq_of_lt (by omega)]
    omega
  · calc 1 * 1000000000 < 2000 * 999999 := by decide
      _ ≤ (floor * (1999 / floor) + floor) * 999999 := Nat.mul_le_mul_right _ (by omega)
      _ = floor * ((1999 / floor + 1) * 999999) := by ring
      _ ≤ floor * (1999 / floor * 1000000 + 999999) := Nat.mul_le_mul_left _ (by omega)

/-! ## Whole transfers -/

/-- A body guard that was started by a poll before there was any data, or not yet. -/
def begun (floor grace : ℕ) : Option ℕ → BodyRateGuard
  | none => .new floor grace
  | some startedAt => (BodyRateGuard.new floor grace).start startedAt

/-- Every body that passes meets the floor from the end of the grace period on. -/
def BodyFloorKept (floor grace : ℕ) : Prop :=
  ∀ (started : Option ℕ) (first : Observation) (rest : List Observation),
    (∀ o ∈ first :: rest, IsData o.amount) →
    InOrder (started.getD first.time) (first :: rest) →
    passes BodyRateGuard.record (begun floor grace started) (first :: rest) = true →
    FloorMet 1000000000 floor (started.getD first.time + grace) (first :: rest)

/-- Every direction of a relay that passes meets the floor. -/
def TcpFloorKept (floor grace : ℕ) : Prop :=
  ∀ (first : Observation) (rest : List Observation), (∀ o ∈ first :: rest, IsData o.amount) →
    InOrder first.time (first :: rest) →
    passes TcpRateGuard.observe (.new ⟨floor, grace⟩) (first :: rest) = true →
    FloorMet 1000000000 floor (first.time + grace) (first :: rest)

theorem passes_begun (hfloor : 0 < floor) (started : Option ℕ) {first : Observation}
    {rest : List Observation} (hdata : ∀ o ∈ first :: rest, IsData o.amount) :
    passes BodyRateGuard.record (begun floor grace started) (first :: rest) =
      ((Phase.grace (started.getD first.time)).run (bodyRequired floor) grace
        (first :: rest)).isSome := by
  cases started with
  | none =>
    rw [Option.getD_none, ← run_fresh]
    exact (body_implements hfloor grace).passes_eq .fresh hdata
  | some startedAt =>
    have hbegun : begun floor grace (some startedAt) =
        bodyOfPhase floor grace (.grace startedAt) := by
      simp [begun, BodyRateGuard.start, BodyRateGuard.new, bodyOfPhase, hfloor]
    rw [hbegun]
    exact (body_implements hfloor grace).passes_eq _ hdata

theorem bodyFloorKept_iff (hfloor : 0 < floor) (grace : ℕ) :
    BodyFloorKept floor grace ↔ KeepsFloor (bodyRequired floor) grace floor 1000000000 IsData := by
  constructor
  · intro hkept startedAt obs hdata horder hrun
    cases obs with
    | nil => simp [FloorMet, total, after]
    | cons first rest =>
      exact hkept (some startedAt) first rest hdata horder
        ((passes_begun hfloor (some startedAt) hdata).trans hrun)
  · intro hkeeps started first rest hdata horder hpasses
    rw [passes_begun hfloor started hdata] at hpasses
    exact hkeeps _ _ hdata horder hpasses

theorem keepsFloor_of_tcpFloorKept (hfloor : 0 < floor) (hkept : TcpFloorKept floor grace) :
    KeepsFloor (TcpRateGuard.required floor) grace floor 1000000000 IsData := by
  intro startedAt obs hdata horder hrun
  cases obs with
  | nil => simp [FloorMet, total, after]
  | cons o rest =>
    -- a byte at the start, which the grace period covers
    have hall : ∀ x ∈ (⟨startedAt, 1⟩ : Observation) :: o :: rest, IsData x.amount :=
      List.forall_mem_cons.mpr ⟨(by decide : IsData 1), hdata⟩
    have horder' : InOrder startedAt (⟨startedAt, 1⟩ :: o :: rest) :=
      inOrder_cons.mpr ⟨le_refl _, fun x hx =>
        (List.pairwise_cons.mp horder).1 x.time (List.mem_map_of_mem hx), horder⟩
    have himplements := @TcpRateGuard.implements ⟨floor, grace⟩ hfloor
    have hpasses : passes TcpRateGuard.observe (.new ⟨floor, grace⟩)
        (⟨startedAt, 1⟩ :: o :: rest) = true :=
      (himplements.passes_eq .fresh hall).trans hrun
    have hmet := hkept ⟨startedAt, 1⟩ (o :: rest) hall horder' hpasses
    have hafter : after (startedAt + grace) (⟨startedAt, 1⟩ :: o :: rest) =
        after (startedAt + grace) (o :: rest) :=
      List.filter_cons_of_neg (by simp)
    rw [FloorMet, lastTime_cons, lastTime_cons, hafter] at hmet
    rwa [FloorMet, lastTime_cons]

/-- **When a floor is kept over a whole transfer.** A body guard keeps it exactly if it is a
multiple of a byte in a nanosecond, and a relay's guard never does. -/
theorem min_rate_kept_iff (floor grace : ℕ) (hfloor : 0 < floor) (hfits : floor < 2 ^ 64) :
    (BodyFloorKept floor grace ↔ 1000000000 ∣ floor) ∧ ¬ TcpFloorKept floor grace := by
  refine ⟨?_, fun hkept => ?_⟩
  · rw [bodyFloorKept_iff hfloor, keepsFloor_iff _ _ _ _ _ (by decide)]
    exact body_step_iff hfloor hfits
  · have hstep := (keepsFloor_iff _ _ _ _ _ (by decide)).mp
      (keepsFloor_of_tcpFloorKept hfloor hkept)
    obtain ⟨elapsed, hpaid, hshort⟩ := tcp_step_short hfloor
    exact absurd (hstep elapsed 1 (by decide) hpaid) (not_le.mpr hshort)

/-- A gigabyte in a second, without a grace period. -/
theorem min_rate_kept_gigabyte : BodyFloorKept 1000000000 0 ∧ ¬ TcpFloorKept 1000000000 0 := by
  have h := min_rate_kept_iff 1000000000 0 (by decide) (by decide)
  exact ⟨h.1.mpr ⟨1, rfl⟩, h.2⟩

/-- One byte every 3.9 milliseconds: half of 512 bytes in a second. -/
def halfSpeed : List Observation := [⟨0, 1⟩, ⟨3900000, 1⟩, ⟨7800000, 1⟩, ⟨11700000, 1⟩]

theorem half_speed_passes :
    (∀ o ∈ halfSpeed, IsData o.amount) ∧ InOrder 0 halfSpeed ∧
      passes BodyRateGuard.record (.new 512 0) halfSpeed = true ∧
      passes TcpRateGuard.observe (.new ⟨512, 0⟩) halfSpeed = true ∧
      ¬ FloorMet 1000000000 512 0 halfSpeed := by
  unfold InOrder
  decide

/-- **At least half of the floor.** What the rounding gives away is less than a byte each
time, and every observation has a byte. -/
theorem body_meets_half (hfloor : 0 < floor) (started : Option ℕ) {first : Observation}
    {rest : List Observation} (hdata : ∀ o ∈ first :: rest, IsData o.amount)
    (horder : InOrder (started.getD first.time) (first :: rest))
    (hpasses : passes BodyRateGuard.record (begun floor grace started) (first :: rest) = true) :
    floor * (lastTime 0 (first :: rest) - (started.getD first.time + grace)) ≤
      2 * total (after (started.getD first.time + grace) (first :: rest)) * 1000000000 := by
  rw [passes_begun hfloor started hdata] at hpasses
  have hstep : ∀ o ∈ first :: rest, ∀ elapsed, bodyRequired floor elapsed ≤ o.amount →
      floor * elapsed ≤ o.amount * 1000000000 + 1000000000 := by
    intro o ho elapsed hpaid
    have hlt := (bodyRequired_le_iff (hdata o ho)).mp hpaid
    omega
  have hcount : (after (started.getD first.time + grace) (first :: rest)).length ≤
      total (after (started.getD first.time + grace) (first :: rest)) :=
    length_le_total fun o ho => (hdata o (List.mem_of_mem_filter ho)).1
  refine (run_floor_le hstep horder hpasses).trans ?_
  rw [Nat.two_mul, Nat.add_mul]
  exact Nat.add_le_add_left (Nat.mul_le_mul_right _ hcount) _

end AlturaProt.Tcp
