import AlturaProt.Http.BodyGuard

/-!
# What a body guard hands on

A guard with a length limit hands on a prefix of the body it wraps: all of its data up to
the first error or the end, and never more than the limit. `Answers` says once what a poll
can answer, and everything here follows from it.

`size_hint` of both guards narrows the hint of the wrapped body to what is left of the
limit. The hint is right for every body that ends with its trailers. If data followed
trailers, a guard that drops trailers would end before that data, and a hint that counts it
would be too large (`data_after_dropped_trailers`).
-/

namespace AlturaProt.Http

open Foundation Filter

/-! ## Size hints -/

/-- What is documented of `http_body::SizeHint`: a hint has bounds, which are in order, and they can
be set; the upper one only to a value that is not below the lower one, or it panics. -/
structure SizeHints (H : Type) where
  lower : H → ℕ
  upper : H → Option ℕ
  setExact : H → ℕ → H
  setUpper (hint : H) (value : ℕ) : lower hint ≤ value → H
  ordered : ∀ hint, ∀ u ∈ upper hint, lower hint ≤ u
  exact_lower : ∀ hint value, lower (setExact hint value) = value
  exact_upper : ∀ hint value, upper (setExact hint value) = some value
  upper_lower : ∀ hint value h, lower (setUpper hint value h) = lower hint
  upper_upper : ∀ hint value h, upper (setUpper hint value h) = some value

/-- The hint is right about a number of bytes. -/
def SizeHints.Contains {H : Type} (hints : SizeHints H) (hint : H) (n : ℕ) : Prop :=
  hints.lower hint ≤ n ∧ ∀ u ∈ hints.upper hint, n ≤ u

namespace GuardedBody

variable {E H : Type}

/-- The hint, given that of the wrapped body. -/
def sizeHint (body : GuardedBody) (hints : SizeHints H) (hint : H) : H :=
  match body.remaining with
  | none => hint
  | some remaining =>
    if h : remaining ≤ hints.lower hint then hints.setExact hint remaining
    else
      match hupper : hints.upper hint with
      | some upper =>
        hints.setUpper hint (min upper remaining)
          (le_min (hints.ordered hint upper hupper) (not_le.mp h).le)
      | none => hints.setUpper hint remaining (not_le.mp h).le

variable {body last : GuardedBody} {event : PollEvent E}

/-- What is within the hint of the wrapped body and within the limit is within the hint. -/
theorem contains_sizeHint {hints : SizeHints H} {hint : H} {n : ℕ} (h : hints.Contains hint n)
    (hlimit : ∀ remaining ∈ body.remaining, n ≤ remaining) :
    hints.Contains (body.sizeHint hints hint) n := by
  unfold sizeHint
  split
  · exact h
  · rename_i remaining hremaining
    have hle : n ≤ remaining := hlimit remaining hremaining
    split
    · rename_i hlower
      have heq : n = remaining := hle.antisymm (hlower.trans h.1)
      refine ⟨(hints.exact_lower hint remaining).trans_le heq.ge, fun u hu => ?_⟩
      rw [hints.exact_upper] at hu
      exact (Option.some.inj hu) ▸ heq.le
    · split
      · rename_i upper hupper
        refine ⟨(hints.upper_lower hint _ _).trans_le h.1, fun u hu => ?_⟩
        rw [hints.upper_upper] at hu
        rw [← Option.some.inj hu]
        exact le_min (h.2 upper hupper) hle
      · refine ⟨(hints.upper_lower hint _ _).trans_le h.1, fun u hu => ?_⟩
        rw [hints.upper_upper] at hu
        exact (Option.some.inj hu) ▸ hle

/-! ## What is handed on -/

/-- The data that a poll of the wrapped body answers with. -/
def eventData (event : PollEvent E) : Str :=
  match event.inner with
  | .ready (some (.ok (.data bytes))) => bytes
  | _ => []

def innerData (events : List (PollEvent E)) : Str := events.flatMap eventData

/-- All data of the wrapped body that is still to come, up to its end. -/
def bodyData : List (PollEvent E) → Str
  | [] => []
  | event :: rest =>
    match event.inner with
    | .ready none => []
    | .ready (some (.error _)) => []
    | _ => eventData event ++ bodyData rest

/-- The data that is handed on, up to the first error or the end. -/
def forwarded (body : GuardedBody) : List (PollEvent E) → Str
  | [] => []
  | event :: rest =>
    match (body.pollFrame event).answer with
    | .pending => (body.pollFrame event).body.forwarded rest
    | .ready (some (.ok (.data bytes))) => bytes ++ (body.pollFrame event).body.forwarded rest
    | .ready (some (.ok (.trailers _))) => (body.pollFrame event).body.forwarded rest
    | .ready (some (.error _)) => []
    | .ready none => []

/-- No data follows the trailers of the wrapped body. -/
def TrailersLast : List (PollEvent E) → Prop
  | [] => True
  | event :: rest =>
    match event.inner with
    | .ready (some (.ok (.trailers _))) => bodyData rest = []
    | .ready (some (.ok (.data _))) => TrailersLast rest
    | .ready (some (.error _)) => True
    | .ready none => True
    | .pending => TrailersLast rest

/-- An error, or the end. -/
def Closes : Poll (Option (Except (GuardedError E) Frame)) → Prop
  | .ready none => True
  | .ready (some (.error _)) => True
  | _ => False

/-- What a poll that does not close the body can answer. -/
inductive Passes (body : GuardedBody) (event : PollEvent E) (next : GuardedBody) :
    Poll (Option (Except (GuardedError E) Frame)) → Prop where
  | waits (hinner : event.inner = .pending) (hremaining : next.remaining = body.remaining) :
      Passes body event next .pending
  | data (bytes : Str) (hinner : event.inner = .ready (some (.ok (.data bytes))))
      (hfits : ∀ remaining ∈ body.remaining, bytes.length ≤ remaining)
      (hremaining : next.remaining = body.remaining.map (· - bytes.length)) :
      Passes body event next (.ready (some (.ok (.data bytes))))
  | trailers (headers : HeaderMap) (hinner : event.inner = .ready (some (.ok (.trailers headers))))
      (hforward : body.trailerPolicy.forward = true)
      (hremaining : next.remaining = body.remaining) :
      Passes body event next (.ready (some (.ok (.trailers headers))))

/-- Everything that a poll can answer. -/
inductive Answers (body : GuardedBody) (event : PollEvent E) (next : GuardedBody) :
    Poll (Option (Except (GuardedError E) Frame)) → Prop where
  | passes {answer : Poll (Option (Except (GuardedError E) Frame))}
      (h : Passes body event next answer) : Answers body event next answer
  | ends (hinner : event.inner = .ready none) : Answers body event next (.ready none)
  | drops (headers : HeaderMap) (hinner : event.inner = .ready (some (.ok (.trailers headers))))
      (hforward : body.trailerPolicy.forward = false) : Answers body event next (.ready none)
  | tooLarge (bytes : Str) (hinner : event.inner = .ready (some (.ok (.data bytes))))
      (hexceeds : ∃ remaining ∈ body.remaining, remaining < bytes.length) :
      Answers body event next (.ready (some (.error (.guard .tooLarge))))
  | fails (error : GuardedError E) (hother : error ≠ .guard .tooLarge)
      (hfits : ∀ bytes, event.inner = .ready (some (.ok (.data bytes))) →
        ∀ remaining ∈ body.remaining, bytes.length ≤ remaining) :
      Answers body event next (.ready (some (.error error)))

theorem answers_pollFrame (body : GuardedBody) (event : PollEvent E) :
    Answers body event (body.pollFrame event).body (body.pollFrame event).answer := by
  unfold pollFrame
  cases hinner : event.inner with
  | pending =>
    dsimp only
    split
    · exact .fails _ (by simp) (by simp [hinner])
    · exact .passes (.waits hinner rfl)
  | ready answer =>
    cases answer with
    | none => exact .ends hinner
    | some result =>
      cases result with
      | error err => exact .fails _ (by simp) (by simp [hinner])
      | ok frame =>
        cases frame with
        | data bytes =>
          dsimp only [pollData]
          split
          · rename_i hexceeds
            exact .tooLarge bytes hinner hexceeds
          · rename_i hfits
            have hfits' : ∀ remaining ∈ body.remaining, bytes.length ≤ remaining := by
              intro remaining hmem
              exact not_lt.mp fun hlt => hfits ⟨remaining, hmem, hlt⟩
            split
            · exact .passes (.data bytes hinner hfits' rfl)
            · refine .fails _ (by simp) fun bytes' hbytes' => ?_
              rw [hinner] at hbytes'
              cases hbytes'
              exact hfits'
        | trailers headers =>
          dsimp only [pollTrailers]
          split
          · rename_i hforward
            exact .drops headers hinner hforward
          · rename_i hforward
            split
            · exact .fails _ (by simp) (by simp [hinner])
            · exact .passes (.trailers headers hinner (Bool.not_eq_false _ ▸ hforward) rfl)

theorem trailerPolicy_pollFrame (body : GuardedBody) (event : PollEvent E) :
    (body.pollFrame event).body.trailerPolicy = body.trailerPolicy := by
  unfold pollFrame pollData pollTrailers recordFailure
  dsimp only
  split
  · split
    · split
      · rfl
      · split <;> rfl
    · split
      · rfl
      · split <;> rfl
  · rfl
  · rfl
  · split <;> rfl

/-! ## One poll -/

section Passing

variable {body next : GuardedBody} {event : PollEvent E}
  {answer : Poll (Option (Except (GuardedError E) Frame))}

theorem Answers.of_open (h : Answers body event next answer) (hopen : ¬ Closes answer) :
    Passes body event next answer := by
  cases h with
  | passes h => exact h
  | ends => exact absurd trivial hopen
  | drops => exact absurd trivial hopen
  | tooLarge => exact absurd trivial hopen
  | fails => exact absurd trivial hopen

theorem Passes.bodyData_cons (h : Passes body event next answer) (rest : List (PollEvent E)) :
    bodyData (event :: rest) = eventData event ++ bodyData rest := by
  cases h with
  | waits hinner => simp [bodyData, hinner]
  | data bytes hinner => simp [bodyData, hinner]
  | trailers headers hinner => simp [bodyData, hinner]

/-- The limit goes down by the data that is handed on. -/
theorem Passes.limit (h : Passes body event next answer) {remaining : ℕ}
    (hremaining : body.remaining = some remaining) :
    (eventData event).length ≤ remaining ∧
      next.remaining = some (remaining - (eventData event).length) := by
  cases h with
  | waits hinner hnext => simp [eventData, hinner, hnext, hremaining]
  | data bytes hinner hfits hnext =>
    have hle : bytes.length ≤ remaining := hfits remaining hremaining
    simp [eventData, hinner, hnext, hremaining, hle]
  | trailers headers hinner _ hnext => simp [eventData, hinner, hnext, hremaining]

/-- Where trailers are dropped, the poll has not met them. -/
theorem Passes.trailersLast (h : Passes body event next answer)
    (hforward : body.trailerPolicy.forward = false) {rest : List (PollEvent E)}
    (hlast : TrailersLast (event :: rest)) : TrailersLast rest := by
  cases h with
  | waits hinner => simpa [TrailersLast, hinner] using hlast
  | data bytes hinner => simpa [TrailersLast, hinner] using hlast
  | trailers headers _ hforwards => simp [hforward] at hforwards

/-- The length limit is raised exactly at a data frame that does not fit. -/
theorem Answers.tooLarge_iff (h : Answers body event next answer) :
    answer = .ready (some (.error (.guard .tooLarge))) ↔
      ∃ bytes, event.inner = .ready (some (.ok (.data bytes))) ∧
        ∃ remaining ∈ body.remaining, remaining < bytes.length := by
  cases h with
  | passes h =>
    cases h with
    | waits hinner => simp [hinner]
    | data bytes hinner hfits => simpa [hinner] using hfits
    | trailers headers hinner => simp [hinner]
  | ends hinner => simp [hinner]
  | drops headers hinner => simp [hinner]
  | tooLarge bytes hinner hexceeds => simpa [hinner] using hexceeds
  | fails error hother hfits =>
    constructor
    · rintro heq
      cases heq
      exact absurd rfl hother
    · rintro ⟨bytes, hinner, remaining, hmem, hlt⟩
      exact absurd (hfits bytes hinner remaining hmem) (not_le.mpr hlt)

end Passing

theorem passes_pollFrame (hopen : ¬ Closes (body.pollFrame event).answer) :
    Passes body event (body.pollFrame event).body (body.pollFrame event).answer :=
  (answers_pollFrame body event).of_open hopen

/-! ## Runs -/

theorem forwarded_cons_of_open (hopen : ¬ Closes (body.pollFrame event).answer)
    (rest : List (PollEvent E)) :
    body.forwarded (event :: rest) =
      eventData event ++ (body.pollFrame event).body.forwarded rest := by
  have hpasses := passes_pollFrame hopen
  rw [forwarded]
  generalize (body.pollFrame event).answer = answer at *
  cases hpasses with
  | waits hinner => simp [eventData, hinner]
  | data bytes hinner => simp [eventData, hinner]
  | trailers headers hinner => simp [eventData, hinner]

theorem forwarded_cons_of_closes (hcloses : Closes (body.pollFrame event).answer)
    (rest : List (PollEvent E)) : body.forwarded (event :: rest) = [] := by
  rw [forwarded]
  revert hcloses
  rcases (body.pollFrame event).answer with _ | (_ | (_ | (_ | _))) <;> simp [Closes]

theorem pollOpen_cons_of_open (hopen : ¬ Closes (body.pollFrame event).answer)
    (rest : List (PollEvent E)) :
    body.pollOpen (event :: rest) = (body.pollFrame event).body.pollOpen rest := by
  rw [pollOpen]
  revert hopen
  rcases (body.pollFrame event).answer with _ | (_ | (_ | (_ | _))) <;> simp [Closes]

theorem pollOpen_cons_of_closes (hcloses : Closes (body.pollFrame event).answer)
    (rest : List (PollEvent E)) : body.pollOpen (event :: rest) = none := by
  rw [pollOpen]
  revert hcloses
  rcases (body.pollFrame event).answer with _ | (_ | (_ | (_ | _))) <;> simp [Closes]

/-- A first poll that leaves a run open did not close it. -/
theorem open_of_pollOpen_cons {rest : List (PollEvent E)}
    (h : body.pollOpen (event :: rest) = some last) :
    ¬ Closes (body.pollFrame event).answer ∧
      (body.pollFrame event).body.pollOpen rest = some last := by
  have hopen : ¬ Closes (body.pollFrame event).answer := by
    intro hcloses
    rw [pollOpen_cons_of_closes hcloses] at h
    cases h
  exact ⟨hopen, by rwa [pollOpen_cons_of_open hopen] at h⟩

/-- **Exact prefix.** Until it closes, a guard hands on all data of the body it wraps. -/
theorem exists_open_part (body : GuardedBody) (events : List (PollEvent E)) :
    ∃ prior rest last, events = prior ++ rest ∧ body.pollOpen prior = some last ∧
      (∀ event ∈ rest.head?, Closes (last.pollFrame event).answer) ∧
      body.forwarded events = innerData prior := by
  induction events generalizing body with
  | nil => exact ⟨[], [], body, rfl, rfl, by simp, rfl⟩
  | cons event events ih =>
    by_cases hcloses : Closes (body.pollFrame event).answer
    · refine ⟨[], event :: events, body, rfl, rfl, ?_, forwarded_cons_of_closes hcloses events⟩
      rintro _ ⟨⟩
      exact hcloses
    · obtain ⟨prior, rest, last, rfl, hlast, hhead, hdata⟩ := ih (body.pollFrame event).body
      refine ⟨event :: prior, rest, last, rfl, ?_, hhead, ?_⟩
      · rw [pollOpen_cons_of_open hcloses, hlast]
      · rw [forwarded_cons_of_open hcloses, hdata]
        rfl

/-- **The limit bounds what is handed on.** -/
theorem length_forwarded_le {remaining : ℕ} (hremaining : body.remaining = some remaining)
    (events : List (PollEvent E)) : (body.forwarded events).length ≤ remaining := by
  induction events generalizing body remaining with
  | nil => exact Nat.zero_le _
  | cons event events ih =>
    by_cases hcloses : Closes (body.pollFrame event).answer
    · simp [forwarded_cons_of_closes hcloses]
    · obtain ⟨hle, hnext⟩ := (passes_pollFrame hcloses).limit hremaining
      have hrest := ih hnext
      rw [forwarded_cons_of_open hcloses, List.length_append]
      omega

/-- What is left of the limit while the body is open. -/
theorem remaining_of_pollOpen {remaining : ℕ} {prior : List (PollEvent E)}
    (hremaining : body.remaining = some remaining) (h : body.pollOpen prior = some last) :
    (innerData prior).length ≤ remaining ∧
      last.remaining = some (remaining - (innerData prior).length) := by
  induction prior generalizing body remaining with
  | nil =>
    cases h
    exact ⟨Nat.zero_le _, by simpa [innerData] using hremaining⟩
  | cons event prior ih =>
    obtain ⟨hopen, hrest⟩ := open_of_pollOpen_cons h
    obtain ⟨hle, hnext⟩ := (passes_pollFrame hopen).limit hremaining
    obtain ⟨hle', hlast⟩ := ih hnext hrest
    have hlength : (innerData (event :: prior)).length =
        (eventData event).length + (innerData prior).length := List.length_append
    rw [hlength]
    exact ⟨by omega, by rw [hlast, Nat.sub_sub]⟩

theorem trailerPolicy_of_pollOpen {prior : List (PollEvent E)} (h : body.pollOpen prior = some last) :
    last.trailerPolicy = body.trailerPolicy := by
  induction prior generalizing body with
  | nil =>
    cases h
    rfl
  | cons event prior ih =>
    rw [ih (open_of_pollOpen_cons h).2, trailerPolicy_pollFrame]

/-- The polls end the body, and none of them fails. -/
def EndsWell (body : GuardedBody) (events : List (PollEvent E)) : Prop :=
  ∃ prior event rest last, events = prior ++ event :: rest ∧
    body.pollOpen prior = some last ∧ (last.pollFrame event).answer = .ready none

/-- A body that ends well hands on all data there is, unless data follows trailers that
are dropped. -/
theorem EndsWell.forwarded_eq {events : List (PollEvent E)} (h : body.EndsWell events)
    (htrailers : body.trailerPolicy.forward = true ∨ TrailersLast events) :
    body.forwarded events = bodyData events := by
  obtain ⟨prior, event, rest, last, rfl, hopen, hend⟩ := h
  induction prior generalizing body with
  | nil =>
    obtain rfl : body = last := Option.some.inj hopen
    have hcloses : Closes (body.pollFrame event).answer := hend ▸ trivial
    rw [List.nil_append] at htrailers ⊢
    rw [forwarded_cons_of_closes hcloses]
    have hanswers := answers_pollFrame body event
    rw [hend] at hanswers
    cases hanswers with
    | passes h => cases h
    | ends hinner => simp [bodyData, hinner]
    | drops headers hinner hforward =>
      rcases htrailers with hforwards | hlast
      · simp [hforward] at hforwards
      · have hrest : bodyData rest = [] := by simpa [TrailersLast, hinner] using hlast
        simp [bodyData, eventData, hinner, hrest]
  | cons first prior ih =>
    obtain ⟨hpass, hopen'⟩ := open_of_pollOpen_cons hopen
    have hpasses := passes_pollFrame hpass
    rw [List.cons_append] at htrailers ⊢
    rw [forwarded_cons_of_open hpass, hpasses.bodyData_cons]
    congr 1
    refine ih ?_ hopen'
    rw [trailerPolicy_pollFrame]
    cases hforward : body.trailerPolicy.forward with
    | true => exact .inl rfl
    | false =>
      have hlast := htrailers.resolve_left (by simp [hforward])
      exact .inr (hpasses.trailersLast hforward hlast)

theorem remaining_new {max : ℕ} (hmax : 0 < max) (idleTimeout minRate grace : ℕ)
    (policy : TrailerPolicy) :
    (new max idleTimeout minRate grace policy).remaining = some max := if_pos hmax

end GuardedBody

/-! ## The guard of a response -/

namespace ResponseGuardBody

variable {E H : Type}

def sizeHint (body : ResponseGuardBody) (hints : SizeHints H) (hint : H) : H :=
  body.guard.sizeHint hints hint

/-- The data that is handed on, up to the first error or the end. -/
def forwarded (body : ResponseGuardBody) : List (PollEvent E) → Str
  | [] => []
  | event :: rest =>
    match (body.pollFrame event).answer with
    | .pending => (body.pollFrame event).body.forwarded rest
    | .ready (some (.ok (.data bytes))) => bytes ++ (body.pollFrame event).body.forwarded rest
    | .ready (some (.ok (.trailers _))) => (body.pollFrame event).body.forwarded rest
    | .ready (some (.error _)) => []
    | .ready none => []

/-- Polls that a guard of requests would let through are those that this one lets through. -/
theorem pollOpen_eq (body : ResponseGuardBody) (events : List (PollEvent E)) :
    body.pollOpen events = (body.guard.pollOpen events).map .mk := by
  induction events generalizing body with
  | nil => rfl
  | cons event rest ih =>
    have hrest := ih ⟨(body.guard.pollFrame event).body⟩
    rw [pollOpen, GuardedBody.pollOpen]
    rcases hanswer : (body.guard.pollFrame event).answer with _ | _ | err | frame
    · simpa [pollFrame, hanswer, rename] using hrest
    · simp [pollFrame, hanswer, rename]
    · simp [pollFrame, hanswer, rename, Except.mapError]
    · simpa [pollFrame, hanswer, rename, Except.mapError] using hrest

theorem forwarded_eq (body : ResponseGuardBody) (events : List (PollEvent E)) :
    body.forwarded events = body.guard.forwarded events := by
  induction events generalizing body with
  | nil => rfl
  | cons event rest ih =>
    have hrest := ih ⟨(body.guard.pollFrame event).body⟩
    rw [forwarded, GuardedBody.forwarded]
    rcases hanswer : (body.guard.pollFrame event).answer with _ | _ | err | bytes | headers
    · simpa [pollFrame, hanswer, rename] using hrest
    · simp [pollFrame, hanswer, rename]
    · simp [pollFrame, hanswer, rename, Except.mapError]
    · simpa [pollFrame, hanswer, rename, Except.mapError] using hrest
    · simpa [pollFrame, hanswer, rename, Except.mapError] using hrest

theorem tooLarge_iff (body : ResponseGuardBody) (event : PollEvent E) :
    (body.pollFrame event).answer = .ready (some (.error (.guard .tooLarge))) ↔
      (body.guard.pollFrame event).answer = .ready (some (.error (.guard .tooLarge))) := by
  rcases hanswer : (body.guard.pollFrame event).answer with _ | _ | (error | err) | frame
  · simp [pollFrame, hanswer, rename]
  · simp [pollFrame, hanswer, rename]
  · cases error <;> simp [pollFrame, hanswer, rename, Except.mapError,
      ResponseGuardedError.inPlaceOf, ResponseBodyGuardError.inPlaceOf]
  · simp [pollFrame, hanswer, rename, Except.mapError, ResponseGuardedError.inPlaceOf]
  · simp [pollFrame, hanswer, rename, Except.mapError]

end ResponseGuardBody

namespace GuardedBody

variable {E H : Type}

/-- **Body guards hand on a bounded exact prefix.** Up to the first error or the end, the
data handed on is that of the wrapped body and no more than the limit. The limit is
raised exactly at the first frame that passes it. At every moment the size hint contains
what a continuation that ends well still hands on, if the hint of the wrapped body is
right and no data follows trailers that are dropped. The guard of a response hands on the
same data, raises the limit at the same frame and gives the same hint. -/
theorem body_guard_bounds_forwarding {max : ℕ} (hmax : 0 < max) (idleTimeout minRate grace : ℕ)
    (policy : TrailerPolicy) (hints : SizeHints H) :
    (∀ events : List (PollEvent E), ∃ prior rest last, events = prior ++ rest ∧
      (new max idleTimeout minRate grace policy).pollOpen prior = some last ∧
      (∀ event ∈ rest.head?, Closes (last.pollFrame event).answer) ∧
      (new max idleTimeout minRate grace policy).forwarded events = innerData prior ∧
      (innerData prior).length ≤ max) ∧
    (∀ (prior : List (PollEvent E)) (body : GuardedBody),
      (new max idleTimeout minRate grace policy).pollOpen prior = some body →
      (∀ event : PollEvent E,
        (body.pollFrame event).answer = .ready (some (.error (.guard .tooLarge))) ↔
          ∃ bytes, event.inner = .ready (some (.ok (.data bytes))) ∧
            max < (innerData prior).length + bytes.length) ∧
      ∀ (hint : H) (events : List (PollEvent E)),
        hints.Contains hint (bodyData events).length → body.EndsWell events →
        policy.forward = true ∨ TrailersLast events →
        hints.Contains (body.sizeHint hints hint) (body.forwarded events).length) ∧
    ∀ body : ResponseGuardBody,
      (∀ events : List (PollEvent E),
        body.pollOpen events = (body.guard.pollOpen events).map .mk ∧
        body.forwarded events = body.guard.forwarded events) ∧
      (∀ event : PollEvent E,
        (body.pollFrame event).answer = .ready (some (.error (.guard .tooLarge))) ↔
          (body.guard.pollFrame event).answer = .ready (some (.error (.guard .tooLarge)))) ∧
      ∀ hint, body.sizeHint hints hint = body.guard.sizeHint hints hint := by
  have hnew := remaining_new hmax idleTimeout minRate grace policy
  refine ⟨fun events => ?_, fun prior body hopen => ⟨fun event => ?_, ?_⟩, fun body => ?_⟩
  · obtain ⟨prior, rest, last, hsplit, hopen, hhead, hdata⟩ :=
      exists_open_part (new max idleTimeout minRate grace policy) events
    have hle := length_forwarded_le hnew events
    exact ⟨prior, rest, last, hsplit, hopen, hhead, hdata, hdata ▸ hle⟩
  · obtain ⟨hle, hremaining⟩ := remaining_of_pollOpen hnew hopen
    rw [(answers_pollFrame body event).tooLarge_iff]
    simp only [hremaining, Option.mem_some_iff, exists_eq_left']
    refine exists_congr fun bytes => and_congr_right fun _ => ?_
    omega
  · intro hint events hhint hends htrailers
    have hpolicy : body.trailerPolicy = policy := trailerPolicy_of_pollOpen hopen
    have hdata := hends.forwarded_eq (hpolicy.symm ▸ htrailers)
    refine contains_sizeHint (hdata.symm ▸ hhint) fun remaining hmem => ?_
    exact length_forwarded_le hmem events
  · exact ⟨fun events => ⟨body.pollOpen_eq events, body.forwarded_eq events⟩, body.tooLarge_iff,
      fun _ => rfl⟩

/-! ## A guard that drops trailers -/

/-- Bounds in order. -/
abbrev Bounds : Type := { bounds : ℕ × Option ℕ // ∀ u ∈ bounds.2, bounds.1 ≤ u }

/-- Hints that are their bounds. -/
def boundHints : SizeHints Bounds where
  lower hint := hint.1.1
  upper hint := hint.1.2
  setExact _ value := ⟨(value, some value), fun _ hu => (Option.some.inj hu).le⟩
  setUpper hint value h := ⟨(hint.1.1, some value), fun _ hu => h.trans (Option.some.inj hu).le⟩
  ordered hint := hint.2
  exact_lower _ _ := rfl
  exact_upper _ _ := rfl
  upper_lower _ _ _ := rfl
  upper_upper _ _ _ := rfl

instance (hint : Bounds) (n : ℕ) : Decidable (boundHints.Contains hint n) :=
  inferInstanceAs (Decidable (_ ∧ _))

/-- The hint of a body whose length is known. -/
def exactly (n : ℕ) : Bounds :=
  ⟨(n, some n), fun _ hu => (Option.some.inj hu).le⟩

/-- Polls that are all answered at once with the frames, and then with the end. -/
def atOnce (frames : List Frame) : List (PollEvent Unit) :=
  frames.map (fun frame => ⟨0, 0, .ready (some (.ok frame))⟩) ++ [⟨0, 0, .ready none⟩]

/-- A guard of a hundred bytes that drops trailers. -/
def dropping : GuardedBody := new 100 0 0 0 ⟨false, 0, 0⟩

/-- Five bytes, and seven more behind trailers. -/
def dataAfterTrailers : List (PollEvent Unit) :=
  atOnce [.data (List.replicate 5 97), .trailers [], .data (List.replicate 7 98)]

theorem body_guard_hundred_bytes :
    0 < 100 ∧ dropping.EndsWell (atOnce [.data (List.replicate 5 97), .trailers []]) ∧
      boundHints.Contains (dropping.sizeHint boundHints (exactly 5))
        (dropping.forwarded (atOnce [.data (List.replicate 5 97), .trailers []])).length := by
  have hends : dropping.EndsWell (atOnce [.data (List.replicate 5 97), .trailers []]) :=
    ⟨[⟨0, 0, .ready (some (.ok (.data (List.replicate 5 97))))⟩],
      ⟨0, 0, .ready (some (.ok (.trailers [])))⟩, [⟨0, 0, .ready none⟩], _, rfl, rfl, rfl⟩
  have hguard := (body_guard_bounds_forwarding (E := Unit) (by decide : 0 < 100) 0 0 0
    ⟨false, 0, 0⟩ boundHints).2.1 [] dropping rfl
  exact ⟨by decide, hends, hguard.2 (exactly 5) _ (by decide) hends (.inr rfl)⟩

/-- Data behind trailers that are dropped is not handed on, but a hint counts it. -/
theorem data_after_dropped_trailers :
    boundHints.Contains (exactly 12) (bodyData dataAfterTrailers).length ∧
      dropping.EndsWell dataAfterTrailers ∧
      (dropping.forwarded dataAfterTrailers).length = 5 ∧
      ¬ boundHints.Contains (dropping.sizeHint boundHints (exactly 12))
        (dropping.forwarded dataAfterTrailers).length := by
  refine ⟨by decide, ?_, by decide, by decide⟩
  exact ⟨[⟨0, 0, .ready (some (.ok (.data (List.replicate 5 97))))⟩],
    ⟨0, 0, .ready (some (.ok (.trailers [])))⟩,
    [⟨0, 0, .ready (some (.ok (.data (List.replicate 7 98))))⟩, ⟨0, 0, .ready none⟩],
    _, rfl, rfl, rfl⟩

end GuardedBody

end AlturaProt.Http
