import AlturaProt.Filter.Signature
import Mathlib.Algebra.GroupWithZero.Nat

/-!
# Body guards

`GuardedBody` and `ResponseGuardBody` of `src/http_proxy.rs` wrap the body of a
request and of a response. Both hand on the frames of the body they wrap, and
raise an error of their own when it grows too large, stays idle, falls below the
minimum data rate or ends in trailers that are too large. The two are the same
code over errors and counters of their own: `ResponseGuardBody` is a `GuardedBody`
whose errors and counters are renamed.

The wrapped body and the clock are not part of the state: a poll is given what
they answer. Times are nanoseconds.
-/

namespace AlturaProt.Http

open Foundation Filter

/-! ## The minimum data rate -/

structure BodyRateGuard where
  minBytesPerSecond : ℕ
  grace : ℕ
  startedAt : Option ℕ
  windowStartedAt : Option ℕ
  windowBytes : ℕ
  graceComplete : Bool
deriving DecidableEq

namespace BodyRateGuard

def new (minBytesPerSecond grace : ℕ) : BodyRateGuard where
  minBytesPerSecond := minBytesPerSecond
  grace := grace
  startedAt := none
  windowStartedAt := none
  windowBytes := 0
  graceComplete := false

def start (guard : BodyRateGuard) (now : ℕ) : BodyRateGuard :=
  if 0 < guard.minBytesPerSecond ∧ guard.startedAt = none then
    { guard with startedAt := some now, windowStartedAt := some now }
  else guard

/-- Add the bytes to the window, and compare it with what the rate asks for since
the window started; a window that is full enough starts again. -/
def measure (guard : BodyRateGuard) (now bytes : ℕ) : BodyRateGuard × Bool :=
  let windowBytes := min (guard.windowBytes + bytes) (2 ^ 64 - 1)
  let windowStartedAt := guard.windowStartedAt.getD now
  let required :=
    min (guard.minBytesPerSecond * (now - windowStartedAt)) (2 ^ 128 - 1) / 1000000000
  if required ≤ windowBytes then
    ({ guard with windowStartedAt := some now, windowBytes := 0 }, true)
  else
    ({ guard with windowStartedAt := some windowStartedAt, windowBytes := windowBytes }, false)

def record (guard : BodyRateGuard) (now bytes : ℕ) : BodyRateGuard × Bool :=
  if guard.minBytesPerSecond = 0 then (guard, true)
  else
    let guard := guard.start now
    match guard.startedAt with
    | none => (guard, true)
    | some startedAt =>
      if guard.graceComplete then guard.measure now bytes
      else if now - startedAt ≤ guard.grace then (guard, true)
      else
        -- the first window starts where the grace period ended
        { guard with
          graceComplete := true
          windowStartedAt := some (startedAt + guard.grace) }.measure now bytes

end BodyRateGuard

/-! ## Trailers -/

structure TrailerPolicy where
  forward : Bool
  maxHeaders : ℕ
  maxBytes : ℕ
deriving DecidableEq

def trailerHeaderBytes (trailers : HeaderMap) : ℕ :=
  (trailers.map fun field => field.1.length + field.2.length).sum

def validateTrailers (trailers : HeaderMap) (policy : TrailerPolicy) : Except String Unit := do
  rejectIf (decide (0 < policy.maxHeaders ∧ policy.maxHeaders < trailers.length))
    "too many trailers"
  rejectIf (decide (0 < policy.maxBytes ∧ policy.maxBytes < trailerHeaderBytes trailers))
    "trailers too large"

/-! ## Polling -/

inductive BodyGuardError where
  | tooLarge
  | idleTimeout
  | tooSlow
  | trailersTooLarge
deriving DecidableEq

def BodyGuardError.text : BodyGuardError → String
  | .tooLarge => "request body length limit exceeded"
  | .idleTimeout => "request body idle timeout"
  | .tooSlow => "request body minimum data rate not met"
  | .trailersTooLarge => "request trailers too large"

inductive Frame where
  | data (bytes : Str)
  | trailers (headers : HeaderMap)
deriving DecidableEq

inductive Poll (α : Type) where
  | pending
  | ready (answer : α)
deriving DecidableEq

/-- An error of a guarded body: raised by the guard, or passed through from the body
that it wraps. -/
inductive GuardedError (E : Type) where
  | guard (error : BodyGuardError)
  | inner (error : E)
deriving DecidableEq

/-- The counters of a guard: one for each error, and `http_request_trailers_dropped`. -/
inductive GuardStat where
  | failed (error : BodyGuardError)
  | trailersDropped
deriving DecidableEq

def GuardStat.isFailure : GuardStat → Bool
  | .failed _ => true
  | .trailersDropped => false

/-- One poll: what the clock reads when it starts and when the wrapped body has
answered, and that answer. -/
structure PollEvent (E : Type) where
  now : ℕ
  answeredAt : ℕ
  inner : Poll (Option (Except E Frame))

structure GuardedBody where
  remaining : Option ℕ
  idleTimeout : Option ℕ
  /-- the deadline of the timer -/
  idleSleep : Option ℕ
  rateGuard : BodyRateGuard
  trailerPolicy : TrailerPolicy
  /-- the counters are given up with the first failure -/
  stats : Bool
deriving DecidableEq

namespace GuardedBody

def new (maxBytes idleTimeout minRateBytesPerSecond minRateGrace : ℕ)
    (trailerPolicy : TrailerPolicy) : GuardedBody where
  remaining := if 0 < maxBytes then some maxBytes else none
  idleTimeout := if idleTimeout ≠ 0 then some idleTimeout else none
  idleSleep := none
  rateGuard := BodyRateGuard.new minRateBytesPerSecond minRateGrace
  trailerPolicy := trailerPolicy
  stats := true

/-- What a poll leaves and answers, and the counters it increments. -/
structure Polled (E : Type) where
  body : GuardedBody
  answer : Poll (Option (Except (GuardedError E) Frame))
  stats : List GuardStat

variable {E : Type}

def recordFailure (body : GuardedBody) (error : BodyGuardError) : Polled E where
  body := { body with stats := false }
  answer := .ready (some (.error (.guard error)))
  stats := if body.stats then [.failed error] else []

/-- A data frame: first the length limit, then the data rate. -/
def pollData (body : GuardedBody) (answeredAt : ℕ) (bytes : Str) : Polled E :=
  if ∃ remaining ∈ body.remaining, remaining < bytes.length then
    { body with remaining := some 0 }.recordFailure .tooLarge
  else
    let checked := body.rateGuard.record answeredAt bytes.length
    let body := { body with
      remaining := body.remaining.map (· - bytes.length)
      rateGuard := checked.1 }
    if checked.2 then ⟨body, .ready (some (.ok (.data bytes))), []⟩
    else body.recordFailure .tooSlow

/-- Trailers end the body where they are not forwarded. -/
def pollTrailers (body : GuardedBody) (trailers : HeaderMap) : Polled E :=
  if body.trailerPolicy.forward = false then
    ⟨body, .ready none, if body.stats then [.trailersDropped] else []⟩
  else
    match validateTrailers trailers body.trailerPolicy with
    | .error _ => body.recordFailure .trailersTooLarge
    | .ok () => ⟨body, .ready (some (.ok (.trailers trailers))), []⟩

def pollFrame (body : GuardedBody) (event : PollEvent E) : Polled E :=
  let body := { body with
    idleSleep := body.idleSleep.or (body.idleTimeout.map (event.now + ·))
    rateGuard := body.rateGuard.start event.now }
  match event.inner with
  | .ready (some (.ok frame)) =>
    let body := { body with idleSleep := none }
    match frame with
    | .data bytes => body.pollData event.answeredAt bytes
    | .trailers trailers => body.pollTrailers trailers
  | .ready (some (.error err)) => ⟨body, .ready (some (.error (.inner err))), []⟩
  | .ready none => ⟨body, .ready none, []⟩
  | .pending =>
    if ∃ deadline ∈ body.idleSleep, deadline ≤ event.answeredAt then
      { body with idleSleep := none }.recordFailure .idleTimeout
    else ⟨body, .pending, []⟩

/-- The body after polls that have neither ended it nor failed. -/
def pollOpen (body : GuardedBody) : List (PollEvent E) → Option GuardedBody
  | [] => some body
  | event :: events =>
    match (body.pollFrame event).answer with
    | .pending => (body.pollFrame event).body.pollOpen events
    | .ready (some (.ok _)) => (body.pollFrame event).body.pollOpen events
    | .ready (some (.error _)) => none
    | .ready none => none

/-! ## Whose error it is -/

theorem recordFailure_error {body : GuardedBody} {error : BodyGuardError} {e : GuardedError E}
    (h : (body.recordFailure error : Polled E).answer = .ready (some (.error e))) :
    ∃ error, e = .guard error := by
  cases h
  exact ⟨error, rfl⟩

theorem pollData_error {body : GuardedBody} {answeredAt : ℕ} {bytes : Str} {e : GuardedError E}
    (h : (body.pollData answeredAt bytes).answer = .ready (some (.error e))) :
    ∃ error, e = .guard error := by
  unfold pollData at h
  split at h
  · exact recordFailure_error h
  · dsimp only at h
    split at h
    · simp at h
    · exact recordFailure_error h

theorem pollTrailers_error {body : GuardedBody} {trailers : HeaderMap} {e : GuardedError E}
    (h : (body.pollTrailers trailers).answer = .ready (some (.error e))) :
    ∃ error, e = .guard error := by
  unfold pollTrailers at h
  split at h
  · simp at h
  · split at h
    · exact recordFailure_error h
    · simp at h

/-- **Whose error it is.** A poll passes an error through exactly when the wrapped
body answers with it; every other error is the guard's. -/
theorem pollFrame_error {body : GuardedBody} {event : PollEvent E} {e : GuardedError E}
    (h : (body.pollFrame event).answer = .ready (some (.error e))) :
    (∃ err, event.inner = .ready (some (.error err)) ∧ e = .inner err) ∨
      (∀ err, event.inner ≠ .ready (some (.error err))) ∧ ∃ error, e = .guard error := by
  unfold pollFrame at h
  dsimp only at h
  split at h
  · rename_i frame hinner
    refine .inr ⟨by simp [hinner], ?_⟩
    cases frame with
    | data bytes => exact pollData_error h
    | trailers trailers => exact pollTrailers_error h
  · rename_i err hinner
    simp only [Poll.ready.injEq, Option.some.injEq, Except.error.injEq] at h
    exact .inl ⟨err, hinner, h.symm⟩
  · simp at h
  · rename_i hinner
    refine .inr ⟨by simp [hinner], ?_⟩
    split at h
    · exact recordFailure_error h
    · simp at h

/-- While a guarded body is open, the wrapped body has not failed. -/
theorem inner_ok_of_pollOpen {body body' : GuardedBody} {events : List (PollEvent E)}
    (h : body.pollOpen events = some body') :
    ∀ event ∈ events, ∀ err, event.inner ≠ .ready (some (.error err)) := by
  induction events generalizing body with
  | nil => simp
  | cons event events ih =>
    have hfirst : ∀ err, event.inner ≠ .ready (some (.error err)) := by
      intro err hinner
      simp [pollOpen, pollFrame, hinner] at h
    have hrest : ∀ event' ∈ events, ∀ err, event'.inner ≠ .ready (some (.error err)) := by
      rw [pollOpen] at h
      split at h
      · exact ih h
      · exact ih h
      · cases h
      · cases h
    exact List.forall_mem_cons.mpr ⟨hfirst, hrest⟩

/-! ## How often a guard counts -/

theorem failures_recordFailure (body : GuardedBody) (error : BodyGuardError) :
    (body.recordFailure error : Polled E).stats.countP GuardStat.isFailure +
      (body.recordFailure error : Polled E).body.stats.toNat = body.stats.toNat := by
  cases hstats : body.stats <;> simp [recordFailure, hstats, GuardStat.isFailure]

/-- A guard that still has its counters gives them up when it counts a failure. -/
theorem failures_pollFrame (body : GuardedBody) (event : PollEvent E) :
    (body.pollFrame event).stats.countP GuardStat.isFailure +
      (body.pollFrame event).body.stats.toNat = body.stats.toNat := by
  unfold pollFrame
  dsimp only
  split
  · rename_i frame hinner
    cases frame with
    | data bytes =>
      simp only [pollData]
      split
      · exact failures_recordFailure _ _
      · split
        · simp
        · exact failures_recordFailure _ _
    | trailers trailers =>
      simp only [pollTrailers]
      split
      · cases hstats : body.stats <;> simp [GuardStat.isFailure]
      · split
        · exact failures_recordFailure _ _
        · simp
  · simp
  · simp
  · split
    · exact failures_recordFailure _ _
    · simp

end GuardedBody

/-! ## The guard of a response -/

inductive ResponseBodyGuardError where
  | tooLarge
  | idleTimeout
  | tooSlow
  | trailersTooLarge
deriving DecidableEq

def ResponseBodyGuardError.text : ResponseBodyGuardError → String
  | .tooLarge => "upstream response body length limit exceeded"
  | .idleTimeout => "upstream response body idle timeout"
  | .tooSlow => "upstream response body minimum data rate not met"
  | .trailersTooLarge => "upstream response trailers too large"

/-- The error that a `ResponseGuardBody` raises where a `GuardedBody` raises this one. -/
def ResponseBodyGuardError.inPlaceOf : BodyGuardError → ResponseBodyGuardError
  | .tooLarge => .tooLarge
  | .idleTimeout => .idleTimeout
  | .tooSlow => .tooSlow
  | .trailersTooLarge => .trailersTooLarge

inductive ResponseGuardedError (E : Type) where
  | guard (error : ResponseBodyGuardError)
  | inner (error : E)
deriving DecidableEq

def ResponseGuardedError.inPlaceOf {E : Type} : GuardedError E → ResponseGuardedError E
  | .guard error => .guard (.inPlaceOf error)
  | .inner error => .inner error

/-- One counter for each error, and `http_upstream_trailers_dropped`. -/
inductive ResponseGuardStat where
  | failed (error : ResponseBodyGuardError)
  | trailersDropped
deriving DecidableEq

def ResponseGuardStat.inPlaceOf : GuardStat → ResponseGuardStat
  | .failed error => .failed (.inPlaceOf error)
  | .trailersDropped => .trailersDropped

structure ResponseGuardBody where
  guard : GuardedBody
deriving DecidableEq

namespace ResponseGuardBody

def new (maxBytes idleTimeout minRateBytesPerSecond minRateGrace : ℕ)
    (trailerPolicy : TrailerPolicy) : ResponseGuardBody :=
  ⟨GuardedBody.new maxBytes idleTimeout minRateBytesPerSecond minRateGrace trailerPolicy⟩

structure Polled (E : Type) where
  body : ResponseGuardBody
  answer : Poll (Option (Except (ResponseGuardedError E) Frame))
  stats : List ResponseGuardStat

variable {E : Type}

/-- The answer of a poll with the errors renamed. -/
def rename :
    Poll (Option (Except (GuardedError E) Frame)) →
      Poll (Option (Except (ResponseGuardedError E) Frame))
  | .pending => .pending
  | .ready answer => .ready (answer.map (·.mapError .inPlaceOf))

def pollFrame (body : ResponseGuardBody) (event : PollEvent E) : Polled E :=
  let polled := body.guard.pollFrame event
  ⟨⟨polled.body⟩, rename polled.answer, polled.stats.map .inPlaceOf⟩

/-- The body after polls that have neither ended it nor failed. -/
def pollOpen (body : ResponseGuardBody) : List (PollEvent E) → Option ResponseGuardBody
  | [] => some body
  | event :: events =>
    match (body.pollFrame event).answer with
    | .pending => (body.pollFrame event).body.pollOpen events
    | .ready (some (.ok _)) => (body.pollFrame event).body.pollOpen events
    | .ready (some (.error _)) => none
    | .ready none => none

end ResponseGuardBody

end AlturaProt.Http
