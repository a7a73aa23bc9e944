import AlturaProt.Edge.Capacity
import AlturaProt.Tcp.Relay

/-!
# Additions to the clock

An `Instant` counts its seconds in an `i64`, and `Instant + Duration` panics when the sum
does not fit. A connection task makes four such additions with durations of the
configuration: `reset_idle` and `TcpRateGuard::observe` of `src/tcp_proxy.rs`, and
`BodyRateGuard::record` and the header deadline of `prevalidate_initial_http1_request` of
`src/http_proxy.rs`. Here each is a function that may panic; where it does not, it is the
function that the relay and the bodies are modelled with.

The end of a grace period is computed only once it has passed, and the header deadline is
bounded by validation. The idle timeout of a TCP service is not (`clock_safe_iff`).

The timers of the runtime (`sleep`, `timeout`) take a sum that does not fit as a far one,
and never panic. Times are nanoseconds.
-/

namespace AlturaProt.Clock

open Foundation Python Config Tcp Http

/-! ## Instants and durations -/

def fromSecs (secs : ℕ) : ℕ := secs * 1000000000

def fromMillis (millis : ℕ) : ℕ := millis * 1000000

/-- `Instant + Duration`. -/
def addDuration (instant duration : ℕ) : Except String ℕ :=
  if (instant + duration) / 1000000000 < 2 ^ 63 then .ok (instant + duration)
  else .error "overflow when adding duration to instant"

theorem addDuration_of_lt {instant duration : ℕ} (h : instant + duration < fromSecs (2 ^ 63)) :
    addDuration instant duration = .ok (instant + duration) :=
  if_pos ((Nat.div_lt_iff_lt_mul (by decide)).mpr h)

theorem addDuration_of_le {instant duration : ℕ} (h : fromSecs (2 ^ 63) ≤ instant + duration) :
    addDuration instant duration = .error "overflow when adding duration to instant" :=
  if_neg fun hlt => absurd ((Nat.div_lt_iff_lt_mul (by decide)).mp hlt) (not_lt.mpr h)

/-! ## The rate guards -/

/-- `TcpRateGuard::observe`. -/
def observe (guard : TcpRateGuard) (now bytes : ℕ) : Except String (TcpRateGuard × Bool) :=
  if guard.limit.minBytesPerSecond = 0 ∨ bytes = 0 then .ok (guard, true)
  else
    let startedAt := guard.startedAt.getD now
    let guard := { guard with startedAt := some startedAt }
    if guard.graceComplete then .ok (guard.measure now bytes)
    else if now - startedAt ≤ guard.limit.grace then .ok (guard, true)
    else do
      let windowStartedAt ← addDuration startedAt guard.limit.grace
      .ok ({ guard with
        graceComplete := true
        windowStartedAt := some windowStartedAt }.measure now bytes)

/-- `BodyRateGuard::record`. -/
def record (guard : BodyRateGuard) (now bytes : ℕ) : Except String (BodyRateGuard × Bool) :=
  if guard.minBytesPerSecond = 0 then .ok (guard, true)
  else
    let guard := guard.start now
    match guard.startedAt with
    | none => .ok (guard, true)
    | some startedAt =>
      if guard.graceComplete then .ok (guard.measure now bytes)
      else if now - startedAt ≤ guard.grace then .ok (guard, true)
      else do
        let windowStartedAt ← addDuration startedAt guard.grace
        .ok ({ guard with
          graceComplete := true
          windowStartedAt := some windowStartedAt }.measure now bytes)

variable {now : ℕ} {cfg : RelayConfig}

/-- A grace period that is over ended before now. -/
theorem addDuration_grace {startedAt grace : ℕ} (hover : ¬ now - startedAt ≤ grace)
    (hnow : now < fromSecs (2 ^ 63)) : addDuration startedAt grace = .ok (startedAt + grace) :=
  addDuration_of_lt (by omega)

theorem observe_eq (guard : TcpRateGuard) (bytes : ℕ) (hnow : now < fromSecs (2 ^ 63)) :
    observe guard now bytes = .ok (guard.observe now bytes) := by
  unfold observe TcpRateGuard.observe
  dsimp only
  split
  · rfl
  · split
    · rfl
    · split
      · rfl
      · rename_i hover
        rw [addDuration_grace hover hnow]
        rfl

theorem record_eq (guard : BodyRateGuard) (bytes : ℕ) (hnow : now < fromSecs (2 ^ 63)) :
    record guard now bytes = .ok (guard.record now bytes) := by
  unfold record BodyRateGuard.record
  dsimp only
  split
  · rfl
  · cases (guard.start now).startedAt with
    | none => rfl
    | some startedAt =>
      dsimp only
      split
      · rfl
      · split
        · rfl
        · rename_i hover
          rw [addDuration_grace hover hnow]
          rfl

/-! ## The header deadline -/

/-- When the head of the first request has to be there. -/
def headerDeadline (headerTimeout now : ℕ) : Except String (Option ℕ) :=
  if headerTimeout = 0 then .ok none else some <$> addDuration now headerTimeout

/-! ## The relay -/

/-- `reset_idle`: the new deadline of the timer. -/
def resetIdle (cfg : RelayConfig) (idleSleep now : ℕ) : Except String ℕ :=
  if cfg.idleEnabled then addDuration now cfg.idleTimeout else .ok idleSleep

/-- What an event does, if it can happen; `observe` and `reset_idle` may panic. -/
def react (cfg : RelayConfig) (s : Relay) : RelayEvent → Except String (Option Relay)
  | .read way bytes =>
    match (s.direction way).stage with
    | .reading =>
      if RELAY_BUFFER < bytes then .ok none
      else if bytes = 0 then .ok (some (s.enter way .closing))
      else do
        let observed ← observe (s.direction way).rate s.now bytes
        if observed.2 then
          .ok (some (s.set way ⟨.writing bytes (cfg.writeDeadline s.now), observed.1⟩))
        else .ok (some (s.finish (.ok way.tooSlow)))
    | _ => .ok none
  | .activity =>
    if cfg.idleEnabled && s.activity then do
      let idleSleep ← resetIdle cfg s.idleSleep s.now
      .ok (some { s with activity := false, idleSleep := idleSleep })
    else .ok none
  | event => .ok (s.react cfg event)

def step (cfg : RelayConfig) (s : Relay) (now : ℕ) (event : RelayEvent) :
    Except String (Option Relay) :=
  if s.ended.isSome || decide (now < s.now) then .ok none
  else react cfg { s with now := now } event

/-- A connection task, up to its first panic. -/
def run (cfg : RelayConfig) : Relay → List (ℕ × RelayEvent) → Except String (Option Relay)
  | s, [] => .ok (some s)
  | s, (now, event) :: rest => do
      let next ← step cfg s now event
      next.elim (.ok none) fun s => run cfg s rest

/-- An event panics only if the timer would be set beyond the clock. -/
theorem react_eq {s : Relay} (event : RelayEvent)
    (hfits : s.now + cfg.idleTimeout < fromSecs (2 ^ 63)) :
    react cfg s event = .ok (s.react cfg event) := by
  have hnow : s.now < fromSecs (2 ^ 63) := by omega
  cases event with
  | read way bytes =>
    simp only [react, Relay.react]
    cases (s.direction way).stage with
    | reading =>
      dsimp only
      split
      · rfl
      · split
        · rfl
        · rw [observe_eq _ bytes hnow]
          show (if _ then _ else _) = _
          split <;> rfl
    | _ => rfl
  | activity =>
    simp only [react, Relay.react]
    split
    · rename_i hactive
      rw [resetIdle, if_pos (Bool.and_eq_true_iff.mp hactive).1, addDuration_of_lt hfits]
      rfl
    · rfl
  | _ => rfl

theorem step_eq (s : Relay) (event : RelayEvent) (hfits : now + cfg.idleTimeout < fromSecs (2 ^ 63))
    : step cfg s now event = .ok (s.step cfg now event) := by
  unfold step Relay.step
  split
  · rfl
  · exact react_eq event hfits

theorem run_eq (s : Relay) {events : List (ℕ × RelayEvent)}
    (hfits : ∀ e ∈ events, e.1 + cfg.idleTimeout < fromSecs (2 ^ 63)) :
    run cfg s events = .ok (s.run cfg events) := by
  induction events generalizing s with
  | nil => rfl
  | cons e rest ih =>
    obtain ⟨now, event⟩ := e
    obtain ⟨hfirst, hrest⟩ := List.forall_mem_cons.mp hfits
    rw [run, step_eq s event hfirst, Relay.run]
    cases s.step cfg now event with
    | none => rfl
    | some next => exact ih next hrest

/-- A chunk is relayed at once. -/
def oneChunkAt (now : ℕ) : List (ℕ × RelayEvent) :=
  [(now, .read .downstreamToUpstream 1), (now, .wrote .downstreamToUpstream 1), (now, .activity)]

/-- The report of a chunk sets the timer beyond the clock. -/
theorem run_panics (hon : 0 < cfg.idleTimeout) (hover : fromSecs (2 ^ 63) ≤ now + cfg.idleTimeout) :
    run cfg (.start cfg now) (oneChunkAt now) =
      .error "overflow when adding duration to instant" := by
  have henabled : cfg.idleEnabled = true := decide_eq_true hon.ne'
  -- the first observation of a guard is always inside the grace period
  have hobserve : ∃ guard, observe (.new cfg.downstreamRateLimit) now 1 = .ok (guard, true) := by
    unfold observe
    split
    · exact ⟨_, rfl⟩
    · exact ⟨_, if_pos ((Nat.sub_self now).trans_le (Nat.zero_le _))⟩
  obtain ⟨guard, hguard⟩ := hobserve
  simp [oneChunkAt, run, step, react, Relay.start, hguard, RELAY_BUFFER, Relay.react, Relay.set,
    Relay.enter, henabled, resetIdle, addDuration_of_le hover, bind, Except.bind]

/-! ## A configuration -/

/-- The durations that a service hands to its relays. -/
def relayConfig (tcp : TcpProxyConfig) : RelayConfig where
  idleTimeout := fromSecs tcp.idleTimeoutSeconds
  downstreamRateLimit := ⟨tcp.downstreamMinRateBytesPerSecond, fromMillis tcp.minRateGraceMs⟩
  upstreamRateLimit := ⟨tcp.upstreamMinRateBytesPerSecond, fromMillis tcp.minRateGraceMs⟩

/-- The grace periods of request and response bodies. -/
def bodyGraces (http : Config.HttpConfig) : List ℕ :=
  [fromMillis http.requestBodyMinRateGraceMs, fromMillis http.upstreamBodyMinRateGraceMs]

/-- No addition of a connection task panics at an instant below `2 ^ 62` seconds. -/
structure ClockSafe (cfg : AppConfig) : Prop where
  relay : ∀ tcp ∈ cfg.tcp, ∀ startedAt events, (∀ e ∈ events, e.1 < fromSecs (2 ^ 62)) →
    ∃ s, run (relayConfig tcp) (.start (relayConfig tcp) startedAt) events = .ok s
  body : ∀ http ∈ cfg.http, ∀ guard : BodyRateGuard, guard.grace ∈ bodyGraces http →
    ∀ now bytes, now < fromSecs (2 ^ 62) → ∃ answer, record guard now bytes = .ok answer
  header : ∀ http ∈ cfg.http, ∀ now, now < fromSecs (2 ^ 62) →
    ∃ deadline, headerDeadline (fromMillis http.headerReadTimeoutMs) now = .ok deadline

theorem headerDeadline_ok {headerTimeout : ℕ} (hfits : now + headerTimeout < fromSecs (2 ^ 63)) :
    ∃ deadline, headerDeadline headerTimeout now = .ok deadline := by
  rw [headerDeadline, addDuration_of_lt hfits]
  split
  · exact ⟨_, rfl⟩
  · exact ⟨_, rfl⟩

/-- **When an accepted configuration cannot overflow the clock.** -/
theorem clock_safe_iff (env : CheckEnv) (cfg : AppConfig) (hvalid : cfg.validate env = .ok ()) :
    ClockSafe cfg ↔ ∀ tcp ∈ cfg.tcp, tcp.idleTimeoutSeconds ≤ 2 ^ 62 := by
  obtain ⟨hhttp, htcp⟩ := AppConfig.timeouts_of_valid hvalid
  constructor
  · intro hsafe tcp hmem
    by_contra hlong
    -- the last instant below the bound
    obtain ⟨s, hs⟩ := hsafe.relay tcp hmem (fromSecs (2 ^ 62) - 1)
      (oneChunkAt (fromSecs (2 ^ 62) - 1)) (by simp [oneChunkAt, fromSecs])
    rw [run_panics] at hs
    · cases hs
    · exact Nat.mul_pos (htcp tcp hmem) (by decide)
    · simp only [relayConfig, fromSecs]
      omega
  · intro hshort
    refine ⟨fun tcp hmem startedAt events hevents => ?_, fun http _ guard _ now bytes hnow => ?_,
      fun http hmem now hnow => ?_⟩
    · refine ⟨_, run_eq _ fun e he => ?_⟩
      have hidle := hshort tcp hmem
      have hnow := hevents e he
      simp only [relayConfig, fromSecs] at hnow ⊢
      omega
    · refine ⟨_, record_eq guard bytes ?_⟩
      simp only [fromSecs] at hnow ⊢
      omega
    · refine headerDeadline_ok ?_
      have htimeout := hhttp http hmem
      simp only [fromSecs, fromMillis, HTTP_HEADER_READ_TIMEOUT_MAX_MS] at hnow htimeout ⊢
      omega

/-! ## Two documents -/

open Edge (plainEnv jsonText jsonObject acceptedWith exists_of_acceptedWith)

/-- A listener, and a TCP service with this idle timeout. -/
def idleDocument (idle : ℕ) : PyValue Double :=
  jsonObject
    [("http", jsonObject
      [("listen", jsonText "127.0.0.1:8080"), ("upstream", jsonText "http://127.0.0.1:9000")]),
      ("tcp", .list [jsonObject
        [("name", jsonText "ssh"), ("listen", jsonText "127.0.0.1:2222"),
          ("upstream", jsonText "127.0.0.1:22"), ("idle_timeout_seconds", .int idle)]])]

/-- The idle timeouts of a configuration. -/
def idleTimeouts (cfg : AppConfig) : List ℕ := cfg.tcp.map (·.idleTimeoutSeconds)

theorem idleDocument_facts :
    acceptedWith (idleDocument 300) (fun cfg => idleTimeouts cfg == [300]) = true ∧
      acceptedWith (idleDocument (2 ^ 63)) (fun cfg => idleTimeouts cfg == [2 ^ 63]) = true := by
  decide +kernel

/-- The default timeout of five minutes. -/
theorem clock_safe_five_minutes :
    ∃ cfg, AppConfig.ofJson (idleDocument 300) = some cfg ∧ cfg.validate plainEnv = .ok () ∧
      ClockSafe cfg := by
  obtain ⟨cfg, hread, hvalid, hidle⟩ := exists_of_acceptedWith idleDocument_facts.1
  refine ⟨cfg, hread, hvalid, (clock_safe_iff plainEnv cfg hvalid).mpr fun tcp hmem => ?_⟩
  have hmem : tcp.idleTimeoutSeconds ∈ idleTimeouts cfg := List.mem_map_of_mem hmem
  rw [eq_of_beq hidle, List.mem_singleton] at hmem
  rw [hmem]
  decide

/-- The daemon accepts a timeout of `2 ^ 63` seconds, and the first chunk that is relayed
five seconds after the epoch of the clock panics. -/
theorem endless_idle_timeout_panics :
    ∃ cfg tcp, AppConfig.ofJson (idleDocument (2 ^ 63)) = some cfg ∧
      cfg.validate plainEnv = .ok () ∧ tcp ∈ cfg.tcp ∧
      run (relayConfig tcp) (.start (relayConfig tcp) (fromSecs 5)) (oneChunkAt (fromSecs 5)) =
        .error "overflow when adding duration to instant" := by
  obtain ⟨cfg, hread, hvalid, hidle⟩ := exists_of_acceptedWith idleDocument_facts.2
  have hmem : 2 ^ 63 ∈ idleTimeouts cfg := by
    rw [eq_of_beq hidle]
    exact List.mem_singleton_self _
  obtain ⟨tcp, htcp, hseconds⟩ := List.mem_map.mp hmem
  have hidle : (relayConfig tcp).idleTimeout = fromSecs (2 ^ 63) := by
    rw [relayConfig, hseconds]
  refine ⟨cfg, tcp, hread, hvalid, htcp, run_panics ?_ ?_⟩
  · rw [hidle]
    decide
  · rw [hidle]
    exact Nat.le_add_left _ _

end AlturaProt.Clock
