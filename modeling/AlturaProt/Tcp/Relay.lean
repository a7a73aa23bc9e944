import AlturaProt.Tcp.RateGuard
import Mathlib.Logic.Function.Basic

/-!
# The relay of a connection

`relay_bidirectional_with_idle` of `src/tcp_proxy.rs` runs two loops in one task, one for
each direction: read a chunk, show it to the rate guard, write it, and report activity.
A timer shared by both is set again whenever a report is received; besides, each chunk
has a time limit of its own to be written in.

The relay is a step function over timed events. The sockets decide which reads and writes
happen and when, and `select!` picks any branch that is ready, so every order of events is
a run.

A connection that ends as idle need not be idle: the limit of a chunk ends the relay while
the other direction is moving, and neither the limit nor the timer notices a part of a
chunk (`blocked_write_ends_moving_relay`). Without such writes, idle means idle
(`idle_means_idle`).
-/

namespace AlturaProt.Tcp

open Foundation

/-! ## The state -/

inductive TcpRelayOutcome where
  | completed
  | idleTimeout
  | downstreamTooSlow
  | upstreamTooSlow
deriving DecidableEq

/-- A direction. -/
inductive Way where
  | downstreamToUpstream
  | upstreamToDownstream
deriving DecidableEq

def Way.opposite : Way → Way
  | .downstreamToUpstream => .upstreamToDownstream
  | .upstreamToDownstream => .downstreamToUpstream

/-- The outcome where the sender of a direction is too slow. -/
def Way.tooSlow : Way → TcpRelayOutcome
  | .downstreamToUpstream => .downstreamTooSlow
  | .upstreamToDownstream => .upstreamTooSlow

/-- What `relay_bidirectional_with_idle` returns; an error is some `io::Error`. -/
inductive RelayEnd where
  | ok (outcome : TcpRelayOutcome)
  | error
deriving DecidableEq

/-- Where the loop of a direction waits. -/
inductive Stage where
  | reading
  /-- bytes of the chunk that are left, and when its time is up -/
  | writing (remaining : ℕ) (deadline : Option ℕ)
  | closing
  | done
deriving DecidableEq

/-- When the chunk has to be written. -/
def Stage.deadline : Stage → Option ℕ
  | .writing _ deadline => deadline
  | _ => none

/-- What is left of the chunk. -/
def Stage.remaining : Stage → ℕ
  | .writing remaining _ => remaining
  | _ => 0

structure Direction where
  stage : Stage
  rate : TcpRateGuard
deriving DecidableEq

structure RelayConfig where
  idleTimeout : ℕ
  downstreamRateLimit : TcpRateLimit
  upstreamRateLimit : TcpRateLimit
deriving DecidableEq

def RelayConfig.idleEnabled (cfg : RelayConfig) : Bool := decide (cfg.idleTimeout ≠ 0)

/-- When a chunk that is read at `now` has to be written. -/
def RelayConfig.writeDeadline (cfg : RelayConfig) (now : ℕ) : Option ℕ :=
  if cfg.idleEnabled then some (now + cfg.idleTimeout) else none

structure Relay where
  now : ℕ
  /-- the deadline of the shared timer -/
  idleSleep : ℕ
  /-- a report in the channel, which holds at most one -/
  activity : Bool
  direction : Way → Direction
  ended : Option RelayEnd

namespace Relay

def start (cfg : RelayConfig) (now : ℕ) : Relay where
  now := now
  idleSleep := now + cfg.idleTimeout
  activity := false
  direction
    | .downstreamToUpstream => ⟨.reading, .new cfg.downstreamRateLimit⟩
    | .upstreamToDownstream => ⟨.reading, .new cfg.upstreamRateLimit⟩
  ended := none

def set (s : Relay) (way : Way) (direction : Direction) : Relay :=
  { s with direction := Function.update s.direction way direction }

def enter (s : Relay) (way : Way) (stage : Stage) : Relay :=
  s.set way { s.direction way with stage := stage }

def finish (s : Relay) (outcome : RelayEnd) : Relay := { s with ended := some outcome }

end Relay

/-! ## Events -/

inductive RelayEvent where
  | read (way : Way) (bytes : ℕ)
  | readError (way : Way)
  /-- a part of the chunk is taken, or what is left of it -/
  | wrote (way : Way) (bytes : ℕ)
  | writeError (way : Way)
  | writeTimeout (way : Way)
  | shutdown (way : Way)
  /-- a report is received -/
  | activity
  | idle
deriving DecidableEq

/-- The size of a read buffer. -/
def RELAY_BUFFER : ℕ := 16 * 1024

namespace Relay

/-- What an event does at the time of the state, if it can happen. -/
def react (cfg : RelayConfig) (s : Relay) : RelayEvent → Option Relay
  | .read way bytes =>
    match (s.direction way).stage with
    | .reading =>
      if RELAY_BUFFER < bytes then none
      else if bytes = 0 then some (s.enter way .closing)
      else
        let observed := (s.direction way).rate.observe s.now bytes
        if observed.2 then
          some (s.set way ⟨.writing bytes (cfg.writeDeadline s.now), observed.1⟩)
        else some (s.finish (.ok way.tooSlow))
    | _ => none
  | .readError way =>
    match (s.direction way).stage with
    | .reading => some (s.finish .error)
    | _ => none
  | .wrote way bytes =>
    match (s.direction way).stage with
    | .writing remaining deadline =>
      if bytes = 0 ∨ remaining < bytes then none
      else if bytes = remaining then
        -- `try_send` leaves a report that is already there
        some { s.enter way .reading with activity := s.activity || cfg.idleEnabled }
      else some (s.enter way (.writing (remaining - bytes) deadline))
    | _ => none
  | .writeError way =>
    match (s.direction way).stage with
    | .writing _ _ => some (s.finish .error)
    | _ => none
  | .writeTimeout way =>
    match (s.direction way).stage with
    | .writing _ (some deadline) =>
      if deadline ≤ s.now then some (s.finish (.ok .idleTimeout)) else none
    | _ => none
  | .shutdown way =>
    match (s.direction way).stage with
    | .closing =>
      if (s.direction way.opposite).stage = .done then some (s.finish (.ok .completed))
      else some (s.enter way .done)
    | _ => none
  | .activity =>
    if cfg.idleEnabled && s.activity then
      some { s with activity := false, idleSleep := s.now + cfg.idleTimeout }
    else none
  | .idle =>
    if cfg.idleEnabled && decide (s.idleSleep ≤ s.now) then
      some (s.finish (.ok .idleTimeout))
    else none

/-- An event at a time; nothing happens after the end, or in the past. -/
def step (cfg : RelayConfig) (s : Relay) (now : ℕ) (event : RelayEvent) : Option Relay :=
  if s.ended.isSome || decide (now < s.now) then none
  else react cfg { s with now := now } event

def run (cfg : RelayConfig) : Relay → List (ℕ × RelayEvent) → Option Relay
  | s, [] => some s
  | s, (now, event) :: rest => (s.step cfg now event).bind fun s => run cfg s rest

/-! ## What a step can do -/

/-- The alarm of a direction, if it is blocked on a write. -/
def blockedUntil (s : Relay) (way : Way) : Option ℕ := (s.direction way).stage.deadline

/-- Everything that a step can do. -/
inductive Reacts (cfg : RelayConfig) (s : Relay) : RelayEvent → Relay → Prop where
  | chunk (way : Way) (bytes : ℕ) (rate : TcpRateGuard) :
      Reacts cfg s (.read way bytes) (s.set way ⟨.writing bytes (cfg.writeDeadline s.now), rate⟩)
  | eof (way : Way) : Reacts cfg s (.read way 0) (s.enter way .closing)
  | part (way : Way) (bytes remaining : ℕ) (deadline : Option ℕ)
      (hstage : (s.direction way).stage = .writing remaining deadline)
      (hpart : 0 < bytes ∧ bytes < remaining) :
      Reacts cfg s (.wrote way bytes) (s.enter way (.writing (remaining - bytes) deadline))
  | rest (way : Way) (remaining : ℕ) (deadline : Option ℕ)
      (hstage : (s.direction way).stage = .writing remaining deadline) :
      Reacts cfg s (.wrote way remaining)
        { s.enter way .reading with activity := s.activity || cfg.idleEnabled }
  | late (way : Way) (deadline : ℕ) (hblocked : s.blockedUntil way = some deadline)
      (hle : deadline ≤ s.now) : Reacts cfg s (.writeTimeout way) (s.finish (.ok .idleTimeout))
  | closed (way : Way) : Reacts cfg s (.shutdown way) (s.enter way .done)
  | report :
      Reacts cfg s .activity
        { s with activity := false, idleSleep := s.now + cfg.idleTimeout }
  | idle (hle : s.idleSleep ≤ s.now) : Reacts cfg s .idle (s.finish (.ok .idleTimeout))
  | other (event : RelayEvent) (outcome : RelayEnd) (hother : outcome ≠ .ok .idleTimeout)
      (hevent : ∀ way bytes, event ≠ .wrote way bytes) : Reacts cfg s event (s.finish outcome)

variable {cfg : RelayConfig} {s s' : Relay} {event : RelayEvent} {way : Way} {now w : ℕ}

theorem Way.tooSlow_ne (way : Way) : RelayEnd.ok way.tooSlow ≠ .ok .idleTimeout := by
  cases way <;> decide

theorem reacts_of_react (h : s.react cfg event = some s') : Reacts cfg s event s' := by
  cases event with
  | read way bytes =>
    cases hstage : (s.direction way).stage with
    | reading =>
      simp only [react, hstage] at h
      split at h
      · cases h
      · split at h
        · rename_i hzero
          cases h
          rw [hzero]
          exact .eof way
        · split at h
          · cases h
            exact .chunk way bytes _
          · cases h
            exact .other _ _ (Way.tooSlow_ne way) (by simp)
    | _ => simp [react, hstage] at h
  | readError way =>
    cases hstage : (s.direction way).stage with
    | reading =>
      simp only [react, hstage, Option.some.injEq] at h
      exact h ▸ .other _ _ (by decide) (by simp)
    | _ => simp [react, hstage] at h
  | wrote way bytes =>
    cases hstage : (s.direction way).stage with
    | writing remaining deadline =>
      simp only [react, hstage] at h
      split at h
      · cases h
      · split at h
        · rename_i hall
          cases h
          rw [hall]
          exact .rest way remaining deadline hstage
        · cases h
          exact .part way bytes remaining deadline hstage (by omega)
    | _ => simp [react, hstage] at h
  | writeError way =>
    cases hstage : (s.direction way).stage with
    | writing remaining deadline =>
      simp only [react, hstage, Option.some.injEq] at h
      exact h ▸ .other _ _ (by decide) (by simp)
    | _ => simp [react, hstage] at h
  | writeTimeout way =>
    cases hstage : (s.direction way).stage with
    | writing remaining deadline =>
      cases deadline with
      | none => simp [react, hstage] at h
      | some deadline =>
        simp only [react, hstage] at h
        split at h
        · rename_i hle
          cases h
          exact .late way deadline (by rw [blockedUntil, hstage]; rfl) hle
        · cases h
    | _ => simp [react, hstage] at h
  | shutdown way =>
    cases hstage : (s.direction way).stage with
    | closing =>
      simp only [react, hstage] at h
      split at h
      · cases h
        exact .other _ _ (by decide) (by simp)
      · cases h
        exact .closed way
    | _ => simp [react, hstage] at h
  | activity =>
    simp only [react] at h
    split at h
    · cases h
      exact .report
    · cases h
  | idle =>
    simp only [react] at h
    split at h
    · rename_i hidle
      cases h
      exact .idle (of_decide_eq_true (Bool.and_eq_true_iff.mp hidle).2)
    · cases h

theorem step_cases (h : s.step cfg now event = some s') :
    s.ended = none ∧ s.now ≤ now ∧ Reacts cfg { s with now := now } event s' := by
  unfold step at h
  split at h
  · cases h
  · rename_i hrunning
    rw [Bool.or_eq_true, not_or, Bool.not_eq_true, Option.isSome_eq_false_iff,
      Option.isNone_iff_eq_none, decide_eq_true_eq, not_lt] at hrunning
    exact ⟨hrunning.1, hrunning.2, reacts_of_react h⟩

theorem now_of_step (h : s.step cfg now event = some s') : s'.now = now := by
  obtain ⟨-, -, hreacts⟩ := step_cases h
  cases hreacts <;> rfl

/-! ## The alarms -/

theorem blockedUntil_set (s : Relay) (way way' : Way) (direction : Direction) :
    (s.set way direction).blockedUntil way' =
      if way' = way then direction.stage.deadline else s.blockedUntil way' := by
  simp only [blockedUntil, set, Function.update_apply]
  split <;> rfl

/-- No alarm can go off within the timeout after `w`, unless the timer is about to be set
again. -/
structure Clear (cfg : RelayConfig) (w : ℕ) (s : Relay) : Prop where
  idle : s.activity = true ∨ w + cfg.idleTimeout ≤ s.idleSleep
  blocked : ∀ way, ∀ deadline ∈ s.blockedUntil way, w + cfg.idleTimeout ≤ deadline

theorem Clear.set (h : Clear cfg w s) {direction : Direction}
    (hdirection : ∀ deadline ∈ direction.stage.deadline, w + cfg.idleTimeout ≤ deadline) :
    Clear cfg w (s.set way direction) := by
  refine ⟨h.idle, fun way' deadline hdeadline => ?_⟩
  rw [blockedUntil_set] at hdeadline
  split at hdeadline
  · exact hdirection deadline hdeadline
  · exact h.blocked way' deadline hdeadline

/-- A step keeps the alarms clear: a new alarm is a timeout ahead. -/
theorem Clear.reacts (h : Clear cfg w s) (hw : w ≤ s.now) (hreacts : Reacts cfg s event s') :
    Clear cfg w s' := by
  cases hreacts with
  | chunk way bytes rate =>
    refine h.set fun deadline hdeadline => ?_
    simp only [Stage.deadline, RelayConfig.writeDeadline] at hdeadline
    split at hdeadline
    · cases hdeadline
      exact Nat.add_le_add_right hw _
    · cases hdeadline
  | eof way => exact h.set (by simp [Stage.deadline])
  | part way bytes remaining deadline hstage hpart =>
    refine h.set fun x hx => h.blocked way x ?_
    rw [blockedUntil, hstage]
    exact hx
  | rest way remaining deadline hstage =>
    have hset : Clear cfg w (s.enter way .reading) := h.set (by simp [Stage.deadline])
    exact ⟨h.idle.imp_left fun hactivity => by rw [hactivity]; rfl, hset.blocked⟩
  | late => exact ⟨h.idle, h.blocked⟩
  | closed way => exact h.set (by simp [Stage.deadline])
  | report => exact ⟨.inr (Nat.add_le_add_right hw _), h.blocked⟩
  | idle => exact ⟨h.idle, h.blocked⟩
  | other => exact ⟨h.idle, h.blocked⟩

/-! ## Quiet steps -/

/-- A write that leaves no alarm within the timeout: it completes its chunk, or else the
chunk was read just now and the timer is set again or about to be; and if the other
direction is blocked, then on a chunk that was read just now. The timer ends the relay only
if no report is waiting. -/
def Quiet (cfg : RelayConfig) (s : Relay) (now : ℕ) : RelayEvent → Prop
  | .wrote way bytes =>
    ((s.direction way).stage.remaining = bytes ∨
      (∀ deadline ∈ s.blockedUntil way, now + cfg.idleTimeout ≤ deadline) ∧
        (s.activity = true ∨ now + cfg.idleTimeout ≤ s.idleSleep)) ∧
      ∀ deadline ∈ s.blockedUntil way.opposite, now + cfg.idleTimeout ≤ deadline
  | .idle => s.activity = false
  | _ => True

theorem eq_or_eq_opposite (way way' : Way) : way' = way ∨ way' = way.opposite := by
  cases way <;> cases way' <;> decide

theorem Way.opposite_ne (way : Way) : way.opposite ≠ way := by
  cases way <;> decide

variable {bytes : ℕ} {events : List (ℕ × RelayEvent)}

theorem clear_of_wrote (hon : 0 < cfg.idleTimeout) (hreacts : Reacts cfg s (.wrote way bytes) s')
    (hquiet : Quiet cfg s s.now (.wrote way bytes)) : Clear cfg s.now s' := by
  obtain ⟨hown, hopposite⟩ := hquiet
  have henabled : cfg.idleEnabled = true := decide_eq_true hon.ne'
  -- only the alarms of the two directions matter
  have hblocked : ∀ direction : Direction,
      (∀ deadline ∈ direction.stage.deadline, s.now + cfg.idleTimeout ≤ deadline) →
      ∀ way', ∀ deadline ∈ (s.set way direction).blockedUntil way',
        s.now + cfg.idleTimeout ≤ deadline := by
    intro direction hdirection way' deadline hdeadline
    rw [blockedUntil_set] at hdeadline
    rcases eq_or_eq_opposite way way' with rfl | rfl
    · rw [if_pos rfl] at hdeadline
      exact hdirection deadline hdeadline
    · rw [if_neg (Way.opposite_ne way)] at hdeadline
      exact hopposite deadline hdeadline
  cases hreacts with
  | part _ _ remaining deadline hstage hpart =>
    rcases hown with hall | ⟨hdeadline, hidle⟩
    · rw [hstage, Stage.remaining] at hall
      omega
    · refine ⟨hidle, hblocked _ fun x hx => hdeadline x ?_⟩
      rw [blockedUntil, hstage]
      exact hx
  | rest _ _ deadline hstage =>
    refine ⟨.inl ?_, hblocked _ (by simp [Stage.deadline])⟩
    show (s.activity || cfg.idleEnabled) = true
    rw [henabled, Bool.or_true]
  | other _ _ _ hevent => exact absurd rfl (hevent way bytes)

/-- Whatever ends the relay as idle, a clear write is a timeout ago. -/
theorem Clear.le_of_idle (h : Clear cfg w s) (hrunning : s.ended = none)
    (hreacts : Reacts cfg s event s') (hquiet : Quiet cfg s s.now event)
    (hended : s'.ended = some (.ok .idleTimeout)) : w + cfg.idleTimeout ≤ s.now := by
  have hnot : s.ended ≠ some (.ok .idleTimeout) := by
    rw [hrunning]
    exact nofun
  cases hreacts with
  | late way deadline hblocked hle => exact (h.blocked way deadline hblocked).trans hle
  | idle hle =>
    refine (h.idle.resolve_left fun hactivity => ?_).trans hle
    rw [show s.activity = false from hquiet] at hactivity
    cases hactivity
  | other event outcome hother hevent => exact absurd (Option.some.inj hended) hother
  | chunk => exact absurd hended hnot
  | eof => exact absurd hended hnot
  | part => exact absurd hended hnot
  | rest => exact absurd hended hnot
  | closed => exact absurd hended hnot
  | report => exact absurd hended hnot

/-! ## Runs -/

/-- All steps of a run are quiet. -/
def QuietRun (cfg : RelayConfig) : Relay → List (ℕ × RelayEvent) → Prop
  | _, [] => True
  | s, (now, event) :: rest =>
    Quiet cfg s now event ∧ ∀ s' ∈ s.step cfg now event, QuietRun cfg s' rest

theorem run_cons {rest : List (ℕ × RelayEvent)} :
    s.run cfg ((now, event) :: rest) = some s' ↔
      ∃ next, s.step cfg now event = some next ∧ next.run cfg rest = some s' :=
  Option.bind_eq_some_iff

theorem run_of_ended {outcome : RelayEnd} (hended : s.ended = some outcome)
    (h : s.run cfg events = some s') : s' = s := by
  cases events with
  | nil => exact (Option.some.inj h).symm
  | cons first rest =>
    obtain ⟨next, hstep, -⟩ := run_cons.mp h
    rw [(step_cases hstep).1] at hended
    cases hended

/-- From a write that leaves the alarms clear to an end as idle, a timeout goes by. -/
theorem Clear.le_of_run (h : Clear cfg w s) (hw : w ≤ s.now) (hrun : s.run cfg events = some s')
    (hquiet : QuietRun cfg s events) (hrunning : s.ended = none)
    (hended : s'.ended = some (.ok .idleTimeout)) : w + cfg.idleTimeout ≤ s'.now := by
  induction events generalizing s with
  | nil =>
    cases hrun
    rw [hrunning] at hended
    cases hended
  | cons first rest ih =>
    obtain ⟨now, event⟩ := first
    obtain ⟨next, hstep, hrest⟩ := run_cons.mp hrun
    obtain ⟨-, hle, hreacts⟩ := step_cases hstep
    have hnow := now_of_step hstep
    have hclear : Clear cfg w { s with now := now } := ⟨h.idle, h.blocked⟩
    cases hnext : next.ended with
    | none =>
      refine ih (hclear.reacts (hw.trans hle) hreacts) ?_ hrest (hquiet.2 next hstep) hnext
      rw [hnow]
      exact hw.trans hle
    | some outcome =>
      obtain rfl := run_of_ended hnext hrest
      rw [hnow]
      exact hclear.le_of_idle hrunning hreacts hquiet.1 hended

theorem le_of_mem_run (hon : 0 < cfg.idleTimeout) (hrun : s.run cfg events = some s')
    (hquiet : QuietRun cfg s events) (hended : s'.ended = some (.ok .idleTimeout))
    (hmem : (w, .wrote way bytes) ∈ events) : w + cfg.idleTimeout ≤ s'.now := by
  induction events generalizing s with
  | nil => cases hmem
  | cons first rest ih =>
    obtain ⟨next, hstep, hrest⟩ := run_cons.mp hrun
    rcases List.mem_cons.mp hmem with hfirst | hlater
    · cases hfirst
      obtain ⟨hrunning, -, hreacts⟩ := step_cases hstep
      have hclear : Clear cfg w next := clear_of_wrote hon hreacts hquiet.1
      have hnext : next.ended = none := by
        cases hreacts with
        | part => exact hrunning
        | rest => exact hrunning
        | other _ _ _ hevent => exact absurd rfl (hevent way bytes)
      exact hclear.le_of_run (now_of_step hstep).ge hrest (hquiet.2 next hstep) hnext hended
    · exact ih hrest (hquiet.2 next hstep) hlater

/-! ## Writes that are not quiet -/

theorem step_late {deadline : ℕ} (hrunning : s.ended = none)
    (hblocked : s.blockedUntil way = some deadline) (hle : deadline ≤ now) (hnow : s.now ≤ now) :
    s.step cfg now (.writeTimeout way) =
      some ({ s with now := now }.finish (.ok .idleTimeout)) := by
  unfold blockedUntil at hblocked
  cases hstage : (s.direction way).stage with
  | writing remaining deadline' =>
    rw [hstage, Stage.deadline] at hblocked
    simp [step, react, hrunning, not_lt.mpr hnow, hstage, hblocked, hle]
  | _ =>
    rw [hstage] at hblocked
    cases hblocked

theorem step_idle (hon : 0 < cfg.idleTimeout) (hrunning : s.ended = none)
    (hle : s.idleSleep ≤ now) (hnow : s.now ≤ now) :
    s.step cfg now .idle = some ({ s with now := now }.finish (.ok .idleTimeout)) := by
  simp [step, react, RelayConfig.idleEnabled, hrunning, not_lt.mpr hnow, hle, hon.ne']

/-- After a write that is not quiet, the relay can end as idle within the timeout. -/
theorem ends_soon_of_not_quiet (hon : 0 < cfg.idleTimeout)
    (hstep : s.step cfg now (.wrote way bytes) = some s')
    (hloud : ¬ Quiet cfg s now (.wrote way bytes)) :
    ∃ later event ended, s'.step cfg later event = some ended ∧
      ended.ended = some (.ok .idleTimeout) ∧ ended.now < now + cfg.idleTimeout := by
  obtain ⟨hrunning, -, hreacts⟩ := step_cases hstep
  have hnow := now_of_step hstep
  have hrunning' : s'.ended = none := by
    cases hreacts with
    | part => exact hrunning
    | rest => exact hrunning
    | other _ _ _ hevent => exact absurd rfl (hevent way bytes)
  have hidleSleep : s'.idleSleep = s.idleSleep := by cases hreacts <;> rfl
  -- an alarm that is left goes off at once or in time
  have hlate : ∀ way' deadline, s'.blockedUntil way' = some deadline →
      deadline < now + cfg.idleTimeout → ∃ later event ended,
        s'.step cfg later event = some ended ∧ ended.ended = some (.ok .idleTimeout) ∧
          ended.now < now + cfg.idleTimeout := fun way' deadline hblocked hlt =>
    ⟨max deadline now, .writeTimeout way', _,
      step_late hrunning' hblocked (le_max_left _ _) (hnow.le.trans (le_max_right _ _)), rfl,
      max_lt hlt (by omega)⟩
  by_cases hopposite : ∀ deadline ∈ s.blockedUntil way.opposite, now + cfg.idleTimeout ≤ deadline
  · obtain ⟨hpart, hown⟩ := not_or.mp fun hown => hloud ⟨hown, hopposite⟩
    by_cases hdeadline : ∀ deadline ∈ s.blockedUntil way, now + cfg.idleTimeout ≤ deadline
    · have hsleep : s.idleSleep < now + cfg.idleTimeout :=
        not_le.mp fun hle => hown ⟨hdeadline, .inr hle⟩
      exact ⟨max s.idleSleep now, .idle, _,
        step_idle hon hrunning' (hidleSleep.le.trans (le_max_left _ _))
          (hnow.le.trans (le_max_right _ _)), rfl, max_lt hsleep (by omega)⟩
    · push Not at hdeadline
      obtain ⟨deadline, hblocked, hlt⟩ := hdeadline
      refine hlate way deadline ?_ hlt
      cases hreacts with
      | part _ _ remaining _ hstage _ =>
        rw [enter, blockedUntil_set, if_pos rfl, ← hblocked]
        show _ = (s.direction way).stage.deadline
        rw [show (s.direction way).stage = _ from hstage]
        rfl
      | rest _ _ _ hstage =>
        rw [show (s.direction way).stage = _ from hstage] at hpart
        exact absurd rfl hpart
      | other _ _ _ hevent => exact absurd rfl (hevent way bytes)
  · push Not at hopposite
    obtain ⟨deadline, hblocked, hlt⟩ := hopposite
    refine hlate way.opposite deadline (Eq.trans ?_ hblocked) hlt
    cases hreacts with
    | part => exact (blockedUntil_set _ _ _ _).trans (if_neg (Way.opposite_ne way))
    | rest => exact (blockedUntil_set _ _ _ _).trans (if_neg (Way.opposite_ne way))
    | other _ _ _ hevent => exact absurd rfl (hevent way bytes)

/-- **When idle means idle.** A run of quiet steps that ends as idle has written nothing in
the timeout before its end; and after a write that is not quiet the relay can end as idle
within the timeout. -/
theorem idle_means_idle (cfg : RelayConfig) (hon : 0 < cfg.idleTimeout) (started : ℕ)
    (events : List (ℕ × RelayEvent)) (s : Relay)
    (hrun : (Relay.start cfg started).run cfg events = some s) :
    (QuietRun cfg (Relay.start cfg started) events →
      s.ended = some (.ok .idleTimeout) →
      ∀ w way bytes, (w, RelayEvent.wrote way bytes) ∈ events →
        ¬ (s.now < w + cfg.idleTimeout ∧ w ≤ s.now)) ∧
    ∀ now way bytes s', s.step cfg now (.wrote way bytes) = some s' →
      ¬ Quiet cfg s now (.wrote way bytes) →
      ∃ later event ended, s'.step cfg later event = some ended ∧
        ended.ended = some (.ok .idleTimeout) ∧
        ended.now < now + cfg.idleTimeout ∧ now ≤ ended.now := by
  refine ⟨fun hquiet hended w way bytes hmem hrecent => ?_, fun now way bytes s' hstep hloud => ?_⟩
  · exact absurd (le_of_mem_run hon hrun hquiet hended hmem) (not_le.mpr hrecent.1)
  · obtain ⟨later, event, ended, hlater, hidle, hsoon⟩ := ends_soon_of_not_quiet hon hstep hloud
    refine ⟨later, event, ended, hlater, hidle, hsoon, ?_⟩
    rw [now_of_step hlater, ← now_of_step hstep]
    exact (step_cases hlater).2.1

/-- Ten units of idle time, and no minimum rates. -/
def tenUnits : RelayConfig := ⟨10, ⟨0, 0⟩, ⟨0, 0⟩⟩

/-- A chunk is relayed at once, and nothing follows. -/
def oneChunk : List (ℕ × RelayEvent) :=
  [(1, .read .downstreamToUpstream 4), (1, .wrote .downstreamToUpstream 4), (1, .activity),
    (11, .idle)]

theorem idle_means_idle_one_chunk :
    ∃ s, (Relay.start tenUnits 0).run tenUnits oneChunk = some s ∧
      s.ended = some (.ok .idleTimeout) ∧ s.now = 11 ∧
      ∀ w way bytes, (w, RelayEvent.wrote way bytes) ∈ oneChunk →
        ¬ (s.now < w + 10 ∧ w ≤ s.now) := by
  have hquiet : QuietRun tenUnits (Relay.start tenUnits 0) oneChunk := by
    refine ⟨trivial, ?_⟩
    rintro _ ⟨⟩
    refine ⟨⟨.inl rfl, nofun⟩, ?_⟩
    rintro _ ⟨⟩
    refine ⟨trivial, ?_⟩
    rintro _ ⟨⟩
    exact ⟨rfl, fun _ _ => trivial⟩
  exact ⟨_, rfl, rfl, rfl,
    (idle_means_idle tenUnits (by decide) 0 oneChunk _ rfl).1 hquiet rfl⟩

/-- The relay ends as idle although something was written at 9. -/
def EndsWhileMoving (events : List (ℕ × RelayEvent)) : Prop :=
  ∃ way bytes, (9, RelayEvent.wrote way bytes) ∈ events ∧
    ∃ s, (Relay.start tenUnits 0).run tenUnits events = some s ∧
      s.ended = some (.ok .idleTimeout) ∧ s.now < 9 + 10 ∧ 9 ≤ s.now

/-- A direction is blocked on a write while the other one moves. -/
def blockedWrite : List (ℕ × RelayEvent) :=
  [(1, .read .downstreamToUpstream 4), (9, .read .upstreamToDownstream 1),
    (9, .wrote .upstreamToDownstream 1), (9, .activity),
    (11, .writeTimeout .downstreamToUpstream)]

/-- A chunk is written in parts. -/
def partialWrite : List (ℕ × RelayEvent) :=
  [(1, .read .downstreamToUpstream 4), (9, .wrote .downstreamToUpstream 1), (10, .idle)]

/-- A report is not received in time. -/
def lateReport : List (ℕ × RelayEvent) :=
  [(9, .read .downstreamToUpstream 4), (9, .wrote .downstreamToUpstream 4), (10, .idle)]

theorem blocked_write_ends_moving_relay :
    EndsWhileMoving blockedWrite ∧ EndsWhileMoving partialWrite ∧ EndsWhileMoving lateReport :=
  ⟨⟨.upstreamToDownstream, 1, by decide, _, rfl, rfl, by decide, by decide⟩,
    ⟨.downstreamToUpstream, 1, by decide, _, rfl, rfl, by decide, by decide⟩,
    ⟨.downstreamToUpstream, 4, by decide, _, rfl, rfl, by decide, by decide⟩⟩

end Relay

end AlturaProt.Tcp
