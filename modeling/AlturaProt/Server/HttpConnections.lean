import AlturaProt.Limiter.Callers

/-!
# Connections and requests of the HTTP proxy

`run_http_accept_loop` of `src/http_proxy.rs` and the part of `handle_http` that takes the
permits of a request. A connection asks the connection limiter for a permit and serves its
requests one after another. A request that is to be forwarded asks for up to two permits more,
one for the proxy it came through and one for its client, keeps them until its response has been
sent, and gives them back in the order in which `RequestConcurrencyPermits` drops its fields. All
connections take turns, and a call of a limiter takes as many turns as `Gate.step` says.

What the other parts of `handle_http` decide is left open here: an `Incoming` request says which
client it is from, and whether it is refused before it gets to the permits. When a response is
done, and when a connection ends, is up to the scheduler.
-/

namespace AlturaProt.Server

open Foundation Foundation.Program Limiter

/-! ## The connection -/

/-- What the proxy is configured with. -/
structure HttpServer where
  limits : HttpLimitConfig
  hash : IpAddr → ℕ
  maxRequestsPerConnection : ℕ

namespace HttpServer

variable (v : HttpServer)

/-- `connection_limiter`. -/
def connections : Gate HttpConnEntry := (HttpConnectionLimiter.new v.limits).gate v.hash

/-- `request_limiter`. -/
def requests : Gate RequestEntry := (RequestConcurrencyLimiter.new v.limits).gate v.hash

/-- `trusted_proxy_request_limiter`. -/
def trustedProxyRequests : Gate RequestEntry :=
  (RequestConcurrencyLimiter.trustedProxyAggregate v.limits).gate v.hash

end HttpServer

/-- Why a connection or a request is refused here. -/
inductive Refusal where
  | connection
  | requestLimit
  | trustedProxyInFlight
  | inFlight
deriving DecidableEq

/-- The counters of refusals. -/
structure HttpStats where
  connectionsRejected : ℕ := 0
  requestLimited : ℕ := 0
  upstreamInFlightRejected : ℕ := 0
  trustedProxyInFlightRejected : ℕ := 0
deriving DecidableEq

/-- `Stats::inc`. -/
def inc (counter : ℕ) : ℕ := (counter + 1) % 2 ^ 64

/-- The counters after a refusal. -/
def HttpStats.count (stats : HttpStats) : Refusal → HttpStats
  | .connection => { stats with connectionsRejected := inc stats.connectionsRejected }
  | .requestLimit => { stats with requestLimited := inc stats.requestLimited }
  | .trustedProxyInFlight =>
    { stats with
      upstreamInFlightRejected := inc stats.upstreamInFlightRejected
      trustedProxyInFlightRejected := inc stats.trustedProxyInFlightRejected }
  | .inFlight => { stats with upstreamInFlightRejected := inc stats.upstreamInFlightRejected }

/-- What the connections share. -/
structure HttpState where
  connections : Shared HttpConnEntry
  requests : Shared RequestEntry
  trustedProxyRequests : Shared RequestEntry
  stats : HttpStats

def HttpState.new (v : HttpServer) (now : Instant) : HttpState where
  connections := HttpConnectionLimiter.init v.limits now
  requests := RequestConcurrencyLimiter.init
  trustedProxyRequests := RequestConcurrencyLimiter.init
  stats := {}

/-- What a connection is doing. `trusted` is whether the request came through a proxy, and so has
a permit of `trusted_proxy_request_limiter`. -/
inductive Phase where
  /-- the accept loop asks for the connection's permit -/
  | admitting
  /-- between two requests -/
  | idle
  /-- `maybe_trusted_proxy_request_permit` -/
  | askTrusted
  /-- `request_limiter.try_acquire` -/
  | ask (trusted : Bool)
  /-- the upstream has the request, or its response is being sent -/
  | exchange (trusted : Bool)
  /-- the permit of the client is dropped -/
  | giveBack (trusted : Bool)
  /-- the permit of the proxy is dropped -/
  | giveBackTrusted
  /-- the task of the connection is over, and its permit is dropped -/
  | closing
  | closed (rejected : Bool)
deriving DecidableEq

structure HttpConnection where
  peerIp : IpAddr
  /-- the client of the latest request that was to be forwarded -/
  clientIp : IpAddr
  requestsSeen : ℕ
  permit : Gate.Proc
  request : Gate.Proc
  trusted : Gate.Proc
  phase : Phase

/-- A request as `handle_http` has resolved and checked it. -/
structure Incoming where
  clientIp : IpAddr
  refused : Bool

/-- What comes next for a connection: how its turn at a limiter goes, and the request it
receives, if it does not end. -/
structure Event where
  choice : Gate.Choice
  request : Option Incoming

namespace HttpConnection

variable (v : HttpServer) (s : HttpState) (c : HttpConnection)

/-- A connection that has just been accepted. -/
def accept (peerIp : IpAddr) (now : Instant) : HttpConnection where
  peerIp := peerIp
  clientIp := peerIp
  requestsSeen := 0
  permit := .start peerIp now
  request := .dropped
  trusted := .dropped
  phase := .admitting

/-- A turn of the accept loop at the connection limiter. -/
def askPermit (choice : Gate.Choice) : Option (HttpState × HttpConnection) :=
  (v.connections.step s.connections c.permit choice).map fun (sh, p) =>
    match Gate.stage p with
    | .holding => ({ s with connections := sh }, { c with permit := p, phase := .idle })
    | .idle =>
      ({ s with connections := sh, stats := s.stats.count .connection },
        { c with permit := p, phase := .closed true })
    | _ => ({ s with connections := sh }, { c with permit := p })

/-- The service is called with a request. -/
def takeRequest (req : Incoming) (now : Instant) : HttpState × HttpConnection :=
  let c := { c with requestsSeen := c.requestsSeen + 1 }
  if 0 < v.maxRequestsPerConnection ∧ v.maxRequestsPerConnection < c.requestsSeen then
    ({ s with stats := s.stats.count .requestLimit }, c)
  else if req.refused then (s, c)
  else if req.clientIp = c.peerIp then
    (s, { c with
            clientIp := req.clientIp
            request := .start req.clientIp now
            phase := .ask false })
  else
    (s, { c with clientIp := req.clientIp, trusted := .start c.peerIp now, phase := .askTrusted })

/-- A turn of `maybe_trusted_proxy_request_permit`. -/
def askTrusted (choice : Gate.Choice) : Option (HttpState × HttpConnection) :=
  (v.trustedProxyRequests.step s.trustedProxyRequests c.trusted choice).map fun (sh, p) =>
    match Gate.stage p with
    | .holding =>
      ({ s with trustedProxyRequests := sh },
        { c with trusted := p, request := .start c.clientIp choice.now, phase := .ask true })
    | .idle =>
      ({ s with trustedProxyRequests := sh, stats := s.stats.count .trustedProxyInFlight },
        { c with trusted := p, phase := .idle })
    | _ => ({ s with trustedProxyRequests := sh }, { c with trusted := p })

/-- A turn of `request_limiter.try_acquire`. -/
def ask (trusted : Bool) (choice : Gate.Choice) : Option (HttpState × HttpConnection) :=
  (v.requests.step s.requests c.request choice).map fun (sh, p) =>
    match Gate.stage p with
    | .holding => ({ s with requests := sh }, { c with request := p, phase := .exchange trusted })
    | .idle =>
      ({ s with requests := sh, stats := s.stats.count .inFlight },
        { c with request := p, phase := if trusted then .giveBackTrusted else .idle })
    | _ => ({ s with requests := sh }, { c with request := p })

/-- A turn of the drop of the client's permit. -/
def giveBack (trusted : Bool) (choice : Gate.Choice) : Option (HttpState × HttpConnection) :=
  (v.requests.step s.requests c.request choice).map fun (sh, p) =>
    ({ s with requests := sh },
      { c with
          request := p
          phase :=
            if Gate.stage p = .idle then if trusted then .giveBackTrusted else .idle
            else .giveBack trusted })

/-- A turn of the drop of the proxy's permit. -/
def giveBackTrusted (choice : Gate.Choice) : Option (HttpState × HttpConnection) :=
  (v.trustedProxyRequests.step s.trustedProxyRequests c.trusted choice).map fun (sh, p) =>
    ({ s with trustedProxyRequests := sh },
      { c with
          trusted := p
          phase := if Gate.stage p = .idle then .idle else .giveBackTrusted })

/-- A turn of the drop of the connection's permit. -/
def close (choice : Gate.Choice) : Option (HttpState × HttpConnection) :=
  (v.connections.step s.connections c.permit choice).map fun (sh, p) =>
    ({ s with connections := sh },
      { c with
          permit := p
          phase := if Gate.stage p = .idle then .closed false else .closing })

/-- One turn of a connection. -/
def step (event : Event) : Option (HttpState × HttpConnection) :=
  match c.phase with
  | .admitting => c.askPermit v s event.choice
  | .idle =>
    some (event.request.elim (s, { c with phase := .closing })
      fun req => c.takeRequest v s req event.choice.now)
  | .askTrusted => c.askTrusted v s event.choice
  | .ask trusted => c.ask v s trusted event.choice
  | .exchange trusted => some (s, { c with phase := .giveBack trusted })
  | .giveBack trusted => c.giveBack v s trusted event.choice
  | .giveBackTrusted => c.giveBackTrusted v s event.choice
  | .closing => c.close v s event.choice
  | .closed _ => none

end HttpConnection

/-- The proxy as a system of connections. -/
def HttpServer.program (v : HttpServer) :
    Program HttpState HttpConnection (IpAddr × Instant) Event where
  start a := .accept a.1 a.2
  step s c event := c.step v s event

/-- The proxy with no connections. -/
def HttpServer.init (v : HttpServer) (now : Instant) : Sys HttpState HttpConnection :=
  ⟨HttpState.new v now, []⟩

/-! ## What one turn does -/

/-- What a connection holds in a phase: the stages of its three calls. -/
def Phase.Holds (phase : Phase) (permit request trusted : Gate.Stage) : Prop :=
  match phase with
  | .admitting => permit = .acquiring ∧ request = .idle ∧ trusted = .idle
  | .idle => permit = .holding ∧ request = .idle ∧ trusted = .idle
  | .askTrusted => permit = .holding ∧ request = .idle ∧ trusted = .acquiring
  | .ask through =>
    permit = .holding ∧ request = .acquiring ∧ trusted = if through then .holding else .idle
  | .exchange through =>
    permit = .holding ∧ request = .holding ∧ trusted = if through then .holding else .idle
  | .giveBack through =>
    permit = .holding ∧ (request = .holding ∨ request = .releasing) ∧
      trusted = if through then .holding else .idle
  | .giveBackTrusted =>
    permit = .holding ∧ request = .idle ∧ (trusted = .holding ∨ trusted = .releasing)
  | .closing =>
    (permit = .holding ∨ permit = .releasing) ∧ request = .idle ∧ trusted = .idle
  | .closed _ => permit = .idle ∧ request = .idle ∧ trusted = .idle

/-- A request with a permit to ask for or to give back came through a proxy if the phase says
so. -/
def Phase.Through (phase : Phase) (proxied : Prop) : Prop :=
  match phase with
  | .askTrusted => proxied
  | .ask through | .exchange through | .giveBack through => through = true ↔ proxied
  | _ => True

/-- The permits of a connection fit what it is doing, and are for the addresses they should be
for. -/
structure HttpConnection.Consistent (v : HttpServer) (c : HttpConnection) : Prop where
  holds : c.phase.Holds (Gate.stage c.permit) (Gate.stage c.request) (Gate.stage c.trusted)
  through : c.phase.Through (c.clientIp ≠ c.peerIp)
  permit : v.connections.For c.peerIp c.permit
  request : v.requests.For c.clientIp c.request
  trusted : v.trustedProxyRequests.For c.peerIp c.trusted

/-- The refusal that a turn ends in. -/
def refusal (v : HttpServer) (d : Turn HttpState HttpConnection) : Option Refusal :=
  match d.proc.phase, d.proc'.phase with
  | .admitting, .closed _ => some .connection
  | .idle, .idle =>
    if 0 < v.maxRequestsPerConnection ∧ v.maxRequestsPerConnection < d.proc'.requestsSeen then
      some .requestLimit
    else none
  | .askTrusted, .idle => some .trustedProxyInFlight
  | .ask _, .idle | .ask _, .giveBackTrusted => some .inFlight
  | _, _ => none

section Turn

variable {v : HttpServer} {s sh : HttpState} {c c' : HttpConnection} {event : Event}

/-- What a turn does to the three limiters and to the counters. -/
structure Turns (v : HttpServer) (s : HttpState) (c : HttpConnection) (sh : HttpState)
    (c' : HttpConnection) : Prop where
  connections : v.connections.Uses s.connections c.permit sh.connections c'.permit
  requests : v.requests.Uses s.requests c.request sh.requests c'.request
  trusted : v.trustedProxyRequests.Uses s.trustedProxyRequests c.trusted
    sh.trustedProxyRequests c'.trusted
  consistent : c'.Consistent v
  stats : ∀ pid, sh.stats = (refusal v ⟨pid, s, c, sh, c'⟩).elim s.stats s.stats.count

theorem HttpConnection.Consistent.holds_of {phase : Phase} (hc : c.Consistent v)
    (hphase : c.phase = phase) :
    phase.Holds (Gate.stage c.permit) (Gate.stage c.request) (Gate.stage c.trusted) :=
  hphase ▸ hc.holds

theorem HttpConnection.Consistent.through_of {phase : Phase} (hc : c.Consistent v)
    (hphase : c.phase = phase) : phase.Through (c.clientIp ≠ c.peerIp) := hphase ▸ hc.through

variable {choice : Gate.Choice}

theorem turns_of_askPermit (hc : c.Consistent v) (hphase : c.phase = .admitting)
    (h : c.askPermit v s choice = some (sh, c')) : Turns v s c sh c' := by
  obtain ⟨sh', p, hmoves, hfor, hresult⟩ := Gate.moved_of_map h hc.permit
  obtain ⟨hpermit, hrequest, htrusted⟩ := hc.holds_of hphase
  rcases hmoves.stage_of_acquiring hpermit with hstage | hstage | hstage
  · simp only [hstage] at hresult
    cases hresult
    refine ⟨.moves hmoves, .same, .same, ⟨?_, hc.through, hfor, hc.request, hc.trusted⟩, ?_⟩
    · simp [hphase, Phase.Holds, hstage, hrequest, htrusted]
    · simp [refusal, hphase]
  · simp only [hstage] at hresult
    cases hresult
    refine ⟨.moves hmoves, .same, .same, ⟨?_, trivial, hfor, hc.request, hc.trusted⟩, ?_⟩
    · exact ⟨hstage, hrequest, htrusted⟩
    · simp [refusal, hphase]
  · simp only [hstage] at hresult
    cases hresult
    refine ⟨.moves hmoves, .same, .same, ⟨?_, trivial, hfor, hc.request, hc.trusted⟩, ?_⟩
    · exact ⟨hstage, hrequest, htrusted⟩
    · simp [refusal, hphase]

theorem turns_of_takeRequest (hc : c.Consistent v) (hphase : c.phase = .idle) (req : Incoming)
    (now : Instant) (h : c.takeRequest v s req now = (sh, c')) : Turns v s c sh c' := by
  obtain ⟨hpermit, hrequest, htrusted⟩ := hc.holds_of hphase
  unfold HttpConnection.takeRequest at h
  dsimp only at h
  split at h
  · rename_i hlimit
    cases h
    refine ⟨.same, .same, .same, ⟨hc.holds, hc.through, hc.permit, hc.request, hc.trusted⟩, ?_⟩
    simp [refusal, hphase, hlimit]
  · rename_i hlimit
    split at h
    · cases h
      refine ⟨.same, .same, .same, ⟨hc.holds, hc.through, hc.permit, hc.request, hc.trusted⟩, ?_⟩
      intro pid
      simp only [refusal, hphase, if_neg hlimit, Option.elim_none]
    · split at h
      · rename_i hdirect
        cases h
        refine ⟨.same, .calls hrequest, .same, ⟨?_, ?_, hc.permit, rfl, hc.trusted⟩, ?_⟩
        · exact ⟨hpermit, rfl, htrusted⟩
        · simp [Phase.Through, hdirect]
        · simp [refusal, hphase]
      · rename_i hproxied
        cases h
        refine ⟨.same, .same, .calls htrusted, ⟨?_, hproxied, hc.permit, ?_, rfl⟩, ?_⟩
        · exact ⟨hpermit, hrequest, rfl⟩
        · -- the call of the request before is over
          show v.requests.For req.clientIp c.request
          cases hproc : c.request <;> simp_all [Gate.stage, Gate.For]
        · simp [refusal, hphase]

theorem turns_of_askTrusted (hc : c.Consistent v) (hphase : c.phase = .askTrusted)
    (h : c.askTrusted v s choice = some (sh, c')) : Turns v s c sh c' := by
  obtain ⟨sh', p, hmoves, hfor, hresult⟩ := Gate.moved_of_map h hc.trusted
  obtain ⟨hpermit, hrequest, htrusted⟩ := hc.holds_of hphase
  have hproxied : c.clientIp ≠ c.peerIp := hc.through_of hphase
  rcases hmoves.stage_of_acquiring htrusted with hstage | hstage | hstage
  · simp only [hstage] at hresult
    cases hresult
    refine ⟨.same, .same, .moves hmoves, ⟨?_, hc.through, hc.permit, hc.request, hfor⟩, ?_⟩
    · simp [hphase, Phase.Holds, hstage, hrequest, hpermit]
    · simp [refusal, hphase]
  · simp only [hstage] at hresult
    cases hresult
    refine ⟨.same, .calls hrequest, .moves hmoves, ⟨?_, ?_, hc.permit, rfl, hfor⟩, ?_⟩
    · exact ⟨hpermit, rfl, hstage⟩
    · simp [Phase.Through, hproxied]
    · simp [refusal, hphase]
  · simp only [hstage] at hresult
    cases hresult
    refine ⟨.same, .same, .moves hmoves, ⟨?_, trivial, hc.permit, hc.request, hfor⟩, ?_⟩
    · exact ⟨hpermit, hrequest, hstage⟩
    · simp [refusal, hphase]

theorem turns_of_ask (hc : c.Consistent v) {through : Bool} (hphase : c.phase = .ask through)
    (h : c.ask v s through choice = some (sh, c')) : Turns v s c sh c' := by
  obtain ⟨sh', p, hmoves, hfor, hresult⟩ := Gate.moved_of_map h hc.request
  have hthrough := hc.through_of hphase
  obtain ⟨hpermit, hrequest, htrusted⟩ := hc.holds_of hphase
  rcases hmoves.stage_of_acquiring hrequest with hstage | hstage | hstage
  · simp only [hstage] at hresult
    cases hresult
    refine ⟨.same, .moves hmoves, .same, ⟨?_, hc.through, hc.permit, hfor, hc.trusted⟩, ?_⟩
    · simp [hphase, Phase.Holds, hstage, hpermit, htrusted]
    · simp [refusal, hphase]
  · simp only [hstage] at hresult
    cases hresult
    refine ⟨.same, .moves hmoves, .same, ⟨?_, hthrough, hc.permit, hfor, hc.trusted⟩, ?_⟩
    · exact ⟨hpermit, hstage, htrusted⟩
    · simp [refusal, hphase]
  · -- a request that is refused gives back the permit of its proxy
    simp only [hstage] at hresult
    cases hresult
    refine ⟨.same, .moves hmoves, .same, ⟨?_, ?_, hc.permit, hfor, hc.trusted⟩, ?_⟩
    · cases through with
      | false => exact ⟨hpermit, hstage, htrusted⟩
      | true => exact ⟨hpermit, hstage, .inl htrusted⟩
    · cases through <;> trivial
    · cases through <;> simp [refusal, hphase]

theorem turns_of_giveBack (hc : c.Consistent v) {through : Bool}
    (hphase : c.phase = .giveBack through) (h : c.giveBack v s through choice = some (sh, c')) :
    Turns v s c sh c' := by
  obtain ⟨sh', p, hmoves, hfor, hresult⟩ := Gate.moved_of_map h hc.request
  have hthrough := hc.through_of hphase
  obtain ⟨hpermit, hrequest, htrusted⟩ := hc.holds_of hphase
  cases hresult
  refine ⟨.same, .moves hmoves, .same, ⟨?_, ?_, hc.permit, hfor, hc.trusted⟩, ?_⟩
  · rcases hmoves.stage_of_dropping hrequest with hstage | hstage
    · simp [Phase.Holds, hstage, hpermit, htrusted]
    · cases through with
      | false => simpa [Phase.Holds, hstage, hpermit] using htrusted
      | true => simpa [Phase.Holds, hstage, hpermit] using Or.inl htrusted
  · split
    · cases through <;> trivial
    · exact hthrough
  · simp [refusal, hphase]

theorem turns_of_giveBackTrusted (hc : c.Consistent v) (hphase : c.phase = .giveBackTrusted)
    (h : c.giveBackTrusted v s choice = some (sh, c')) : Turns v s c sh c' := by
  obtain ⟨sh', p, hmoves, hfor, hresult⟩ := Gate.moved_of_map h hc.trusted
  obtain ⟨hpermit, hrequest, htrusted⟩ := hc.holds_of hphase
  cases hresult
  refine ⟨.same, .same, .moves hmoves, ⟨?_, ?_, hc.permit, hc.request, hfor⟩, ?_⟩
  · rcases hmoves.stage_of_dropping htrusted with hstage | hstage
    · simp [Phase.Holds, hstage, hpermit, hrequest]
    · simp [Phase.Holds, hstage, hpermit, hrequest]
  · split <;> trivial
  · simp [refusal, hphase]

theorem turns_of_close (hc : c.Consistent v) (hphase : c.phase = .closing)
    (h : c.close v s choice = some (sh, c')) : Turns v s c sh c' := by
  obtain ⟨sh', p, hmoves, hfor, hresult⟩ := Gate.moved_of_map h hc.permit
  obtain ⟨hpermit, hrequest, htrusted⟩ := hc.holds_of hphase
  cases hresult
  refine ⟨.moves hmoves, .same, .same, ⟨?_, ?_, hfor, hc.request, hc.trusted⟩, ?_⟩
  · rcases hmoves.stage_of_dropping hpermit with hstage | hstage
    · simp [Phase.Holds, hstage, hrequest, htrusted]
    · simp [Phase.Holds, hstage, hrequest, htrusted]
  · split <;> trivial
  · simp [refusal, hphase]

/-- **One turn** of a connection moves one of its calls on, or starts one after the last is
over; what the connection holds fits its phase again. -/
theorem turns_of_step (hc : c.Consistent v) (h : c.step v s event = some (sh, c')) :
    Turns v s c sh c' := by
  unfold HttpConnection.step at h
  split at h
  · rename_i hphase
    exact turns_of_askPermit hc hphase h
  · rename_i hphase
    cases hreq : event.request with
    | none =>
      rw [hreq] at h
      cases h
      obtain ⟨hpermit, hrequest, htrusted⟩ := hc.holds_of hphase
      refine ⟨.same, .same, .same, ⟨?_, trivial, hc.permit, hc.request, hc.trusted⟩, ?_⟩
      · exact ⟨.inl hpermit, hrequest, htrusted⟩
      · simp [refusal, hphase]
    | some req =>
      rw [hreq] at h
      exact turns_of_takeRequest hc hphase req event.choice.now (Option.some.inj h)
  · rename_i hphase
    exact turns_of_askTrusted hc hphase h
  · rename_i hphase
    exact turns_of_ask hc hphase h
  · rename_i hphase
    cases h
    have hthrough := hc.through_of hphase
    obtain ⟨hpermit, hrequest, htrusted⟩ := hc.holds_of hphase
    refine ⟨.same, .same, .same, ⟨?_, hthrough, hc.permit, hc.request, hc.trusted⟩, ?_⟩
    · exact ⟨hpermit, .inl hrequest, htrusted⟩
    · simp [refusal, hphase]
  · rename_i hphase
    exact turns_of_giveBack hc hphase h
  · rename_i hphase
    exact turns_of_giveBackTrusted hc hphase h
  · rename_i hphase
    exact turns_of_close hc hphase h
  · cases h

end Turn

/-! ## All connections -/

/-- The connection has been admitted, and its socket is open. -/
def Phase.serving : Phase → Bool
  | .admitting | .closing | .closed _ => false
  | _ => true

/-- A request of the connection is at the upstream, or its response is being sent. -/
def Phase.forwarding : Phase → Bool
  | .exchange _ => true
  | _ => false

section Run

variable {v : HttpServer} {now : Instant} {s : Sys HttpState HttpConnection}
  {tr : List (Turn HttpState HttpConnection)}

/-- The accounts of the three limiters, and of the counters. -/
structure Accounts (v : HttpServer) (tr : List (Turn HttpState HttpConnection))
    (s : Sys HttpState HttpConnection) : Prop where
  connections : v.connections.Accounted ⟨s.shared.connections, s.procs.map HttpConnection.permit⟩
  requests : v.requests.Accounted ⟨s.shared.requests, s.procs.map HttpConnection.request⟩
  trusted : v.trustedProxyRequests.Accounted
    ⟨s.shared.trustedProxyRequests, s.procs.map HttpConnection.trusted⟩
  consistent : ∀ c ∈ s.procs, c.Consistent v
  stats : s.shared.stats = (tr.filterMap (refusal v)).foldl HttpStats.count {}

theorem accounts_init (v : HttpServer) (now : Instant) : Accounts v [] (v.init now) where
  connections := Gate.accounted_idle _
  requests := Gate.accounted_idle none
  trusted := Gate.accounted_idle none
  consistent c hc := by cases hc
  stats := rfl

theorem consistent_accept (v : HttpServer) (peerIp : IpAddr) (now : Instant) :
    (HttpConnection.accept peerIp now).Consistent v where
  holds := ⟨rfl, rfl, rfl⟩
  through := trivial
  permit := rfl
  request := trivial
  trusted := trivial

theorem Accounts.spawn (h : Accounts v tr s) (a : IpAddr × Instant) :
    Accounts v tr ⟨s.shared, s.procs ++ [HttpConnection.accept a.1 a.2]⟩ where
  connections := by
    rw [List.map_append]
    exact h.connections.spawn a
  requests := by
    rw [List.map_append]
    exact h.requests.join
  trusted := by
    rw [List.map_append]
    exact h.trusted.join
  consistent := Everywhere.spawn (A := fun _ => HttpConnection.Consistent v) h.consistent
    (consistent_accept v a.1 a.2)
  stats := h.stats

theorem Accounts.turn (h : Accounts v tr s) {pid : ℕ} {c c' : HttpConnection} {sh : HttpState}
    {event : Event} (hc : s.procs[pid]? = some c) (hstep : c.step v s.shared event = some (sh, c')) :
    Accounts v (tr ++ [⟨pid, s.shared, c, sh, c'⟩]) ⟨sh, s.procs.set pid c'⟩ := by
  have hturn := turns_of_step (h.consistent c (List.mem_of_getElem? hc)) hstep
  have hcall : ∀ call : HttpConnection → Gate.Proc, (s.procs.map call)[pid]? = some (call c) := by
    intro call
    rw [List.getElem?_map, hc]
    rfl
  refine ⟨?_, ?_, ?_, ?_, ?_⟩
  · rw [List.map_set]
    exact h.connections.uses (hcall HttpConnection.permit) hturn.connections
  · rw [List.map_set]
    exact h.requests.uses (hcall HttpConnection.request) hturn.requests
  · rw [List.map_set]
    exact h.trusted.uses (hcall HttpConnection.trusted) hturn.trusted
  · exact Everywhere.turn (A := fun _ => HttpConnection.Consistent v) h.consistent hturn.consistent
      fun _ _ _ _ hr => hr
  · show sh.stats = _
    rw [hturn.stats pid, List.filterMap_append, List.foldl_append, ← h.stats]
    cases hrefusal : refusal v ⟨pid, s.shared, c, sh, c'⟩ with
    | none => rw [List.filterMap_cons_none hrefusal]; rfl
    | some r => rw [List.filterMap_cons_some hrefusal]; rfl

/-- **The accounts of every run.** -/
theorem accounts_of_run (h : v.program.Run (v.init now) tr s) : Accounts v tr s :=
  h.history (accounts_init v now) (fun _ _ a h => h.spawn a)
    fun _ _ _ _ _ _ _ h hc hstep => h.turn hc hstep

theorem HttpConnection.Consistent.holding_of_serving {c : HttpConnection} (hc : c.Consistent v)
    (h : c.phase.serving = true) : Gate.stage c.permit = .holding := by
  have hholds := hc.holds
  cases hphase : c.phase with
  | admitting => rw [hphase] at h; cases h
  | closing => rw [hphase] at h; cases h
  | closed rejected => rw [hphase] at h; cases h
  | _ =>
    rw [hphase] at hholds
    exact hholds.1

theorem HttpConnection.Consistent.of_forwarding {c : HttpConnection} (hc : c.Consistent v)
    (h : c.phase.forwarding = true) : Gate.stage c.request = .holding ∧
      (c.clientIp ≠ c.peerIp → Gate.stage c.trusted = .holding) := by
  cases hphase : c.phase with
  | exchange through =>
    obtain ⟨-, hrequest, htrusted⟩ := hc.holds_of hphase
    have hthrough : through = true ↔ c.clientIp ≠ c.peerIp := hc.through_of hphase
    refine ⟨hrequest, ?_⟩
    intro hproxied
    rw [htrusted, if_pos (hthrough.mpr hproxied)]
  | _ => rw [hphase] at h; cases h

/-- Open client connections are within their cap. -/
theorem Accounts.serving_le (h : Accounts v tr s) (hmax : 0 < v.limits.maxConnections) :
    s.procs.countP (·.phase.serving) ≤ v.limits.maxConnections := by
  refine le_trans ?_ (h.connections.holding_le hmax)
  rw [List.countP_map]
  apply List.countP_mono_left
  intro c hc hserving
  simpa using (h.consistent c hc).holding_of_serving hserving

/-- Requests at the upstream are within their cap. -/
theorem Accounts.forwarding_le (h : Accounts v tr s) (hmax : 0 < v.limits.maxInFlightRequests) :
    s.procs.countP (·.phase.forwarding) ≤ v.limits.maxInFlightRequests := by
  refine le_trans ?_ (h.requests.holding_le hmax)
  rw [List.countP_map]
  apply List.countP_mono_left
  intro c hc hforwarding
  simpa using ((h.consistent c hc).of_forwarding hforwarding).1

/-- **The caps hold for connections and requests.** In every interleaving, the open client
connections, and those of one address block, are within their caps, and so are the requests at
the upstream, those of one client block, and those through one proxy. A cap of zero is none. -/
theorem http_caps_hold (h : v.program.Run (v.init now) tr s) :
    (0 < v.limits.maxConnections →
      s.procs.countP (·.phase.serving) ≤ v.limits.maxConnections) ∧
    (0 < v.limits.maxConnectionsPerIp → ∀ k,
      s.procs.countP (fun c => c.phase.serving &&
        decide (normalizeIp c.peerIp v.limits.ipv4PrefixLen v.limits.ipv6PrefixLen = k)) ≤
        v.limits.maxConnectionsPerIp) ∧
    (0 < v.limits.maxInFlightRequests →
      s.procs.countP (·.phase.forwarding) ≤ v.limits.maxInFlightRequests) ∧
    (0 < v.limits.maxInFlightRequestsPerIp → ∀ k,
      s.procs.countP (fun c => c.phase.forwarding &&
        decide (normalizeIp c.clientIp v.limits.ipv4PrefixLen v.limits.ipv6PrefixLen = k)) ≤
        v.limits.maxInFlightRequestsPerIp) ∧
    (0 < v.limits.trustedProxyMaxInFlightRequests → ∀ peerIp,
      s.procs.countP (fun c => c.phase.forwarding &&
        decide (c.clientIp ≠ c.peerIp ∧ c.peerIp = peerIp)) ≤
        v.limits.trustedProxyMaxInFlightRequests) := by
  have hacc := accounts_of_run h
  refine ⟨hacc.serving_le, ?_, hacc.forwarding_le, ?_, ?_⟩
  · intro hcap k
    refine hacc.connections.holding_for_le (k := k) ?_ ?_
    · exact (if_pos hcap : (HttpConnectionLimiter.new v.limits).activeCap = _)
    · intro c hc hcounts
      rw [Bool.and_eq_true, decide_eq_true_iff] at hcounts
      have hconsistent := hacc.consistent c hc
      exact ⟨c.peerIp, hcounts.2, hconsistent.permit, hconsistent.holding_of_serving hcounts.1⟩
  · intro hcap k
    refine hacc.requests.holding_for_le (k := k) ?_ ?_
    · exact (if_pos hcap : (RequestConcurrencyLimiter.new v.limits).activeCap = _)
    · intro c hc hcounts
      rw [Bool.and_eq_true, decide_eq_true_iff] at hcounts
      have hconsistent := hacc.consistent c hc
      exact ⟨c.clientIp, hcounts.2, hconsistent.request, (hconsistent.of_forwarding hcounts.1).1⟩
  · intro hcap peerIp
    refine hacc.trusted.holding_for_le (k := v.trustedProxyRequests.key peerIp) ?_ ?_
    · exact (if_pos hcap :
        (RequestConcurrencyLimiter.trustedProxyAggregate v.limits).activeCap = _)
    · intro c hc hcounts
      rw [Bool.and_eq_true, decide_eq_true_iff] at hcounts
      obtain ⟨hforwarding, hproxied, rfl⟩ := hcounts
      have hconsistent := hacc.consistent c hc
      exact ⟨c.peerIp, rfl, hconsistent.trusted,
        (hconsistent.of_forwarding hforwarding).2 hproxied⟩

/-- A proxy for one connection at a time. -/
def oneConnection : HttpServer where
  limits := { maxConnections := 1, maxInFlightRequests := 1 }
  hash _ := 0
  maxRequestsPerConnection := 0

/-- Turns of a connection in a row. -/
def turns (pid n : ℕ) (request : Option Incoming) : List ((IpAddr × Instant) ⊕ ℕ × Event) :=
  List.replicate n (.inr (pid, ⟨⟨false, 0⟩, request⟩))

/-- Two connections: the first forwards a request that came through a proxy, the second finds no
room. -/
def twoConnections : List ((IpAddr × Instant) ⊕ ℕ × Event) :=
  [.inl (.v4 1, 0), .inl (.v4 2, 0)] ++ turns 0 7 none ++ turns 1 2 none ++
    turns 0 1 (some ⟨.v4 3, false⟩) ++ turns 0 12 none

theorem runs_of_phases (schedule : List ((IpAddr × Instant) ⊕ ℕ × Event)) (phases : List Phase)
    (h : ((oneConnection.program.exec schedule ([], oneConnection.init 0)).map
      fun now => now.2.procs.map (·.phase)) = some phases) :
    ∃ tr s, oneConnection.program.Run (oneConnection.init 0) tr s ∧
      s.procs.map (·.phase) = phases := by
  obtain ⟨⟨tr, s⟩, hexec, hphases⟩ := Option.map_eq_some_iff.mp h
  exact ⟨tr, s, run_of_exec _ .refl hexec, hphases⟩

theorem http_caps_hold_two_connections : ∃ tr s,
    oneConnection.program.Run (oneConnection.init 0) tr s ∧
      s.procs.map (·.phase) = [.exchange true, .closed true] ∧
      s.procs.countP (·.phase.forwarding) ≤ 1 := by
  obtain ⟨tr, s, hrun, hphases⟩ := runs_of_phases twoConnections [.exchange true, .closed true]
    (by decide +kernel)
  exact ⟨tr, s, hrun, hphases, (http_caps_hold hrun).2.2.1 Nat.one_pos⟩

/-- **No permit is lost, and every refusal is counted.** Once all connections have ended, in
whatever order and from whatever point of a request, the limiters count nothing and hold no
lock. The counters are those of the refusals of the run, each counted once. -/
theorem http_permits_return (h : v.program.Run (v.init now) tr s) :
    s.shared.stats = (tr.filterMap (refusal v)).foldl HttpStats.count {} ∧
    ((∀ c ∈ s.procs, ∃ rejected, c.phase = .closed rejected) →
      (0 < v.limits.maxConnections → s.shared.connections.globalActive = 0) ∧
      (0 < v.limits.maxInFlightRequests → s.shared.requests.globalActive = 0) ∧
      (∀ k, v.connections.activeAt s.shared.connections k = 0 ∧
        v.requests.activeAt s.shared.requests k = 0 ∧
        v.trustedProxyRequests.activeAt s.shared.trustedProxyRequests k = 0) ∧
      ∀ i, s.shared.connections.locked i = false ∧ s.shared.requests.locked i = false ∧
        s.shared.trustedProxyRequests.locked i = false) := by
  have hacc := accounts_of_run h
  refine ⟨hacc.stats, ?_⟩
  intro hclosed
  have hidle : ∀ c ∈ s.procs, Gate.stage c.permit = .idle ∧ Gate.stage c.request = .idle ∧
      Gate.stage c.trusted = .idle := by
    intro c hc
    obtain ⟨rejected, hphase⟩ := hclosed c hc
    exact (hacc.consistent c hc).holds_of hphase
  have hcalls : ∀ call : HttpConnection → Gate.Proc,
      (∀ c ∈ s.procs, Gate.stage (call c) = .idle) →
      ∀ p ∈ s.procs.map call, Gate.stage p = .idle := by
    intro call hcall p hp
    obtain ⟨c, hc, rfl⟩ := List.mem_map.mp hp
    exact hcall c hc
  obtain ⟨hactive, hkeys, hlocks⟩ := hacc.connections.settled
    (hcalls HttpConnection.permit fun c hc => (hidle c hc).1)
  obtain ⟨hactive', hkeys', hlocks'⟩ := hacc.requests.settled
    (hcalls HttpConnection.request fun c hc => (hidle c hc).2.1)
  obtain ⟨-, hkeys'', hlocks''⟩ := hacc.trusted.settled
    (hcalls HttpConnection.trusted fun c hc => (hidle c hc).2.2)
  exact ⟨hactive, hactive', fun k => ⟨hkeys k, hkeys' k, hkeys'' k⟩,
    fun i => ⟨hlocks i, hlocks' i, hlocks'' i⟩⟩

/-- Both connections of the run end, and the connection limiter has its slot back. -/
theorem http_permits_return_two_connections : ∃ tr s,
    oneConnection.program.Run (oneConnection.init 0) tr s ∧
      s.procs.map (·.phase) = [.closed false, .closed true] ∧
      s.shared.connections.globalActive = 0 := by
  obtain ⟨tr, s, hrun, hphases⟩ := runs_of_phases (twoConnections ++ turns 0 8 none)
    [.closed false, .closed true] (by decide +kernel)
  refine ⟨tr, s, hrun, hphases, ((http_permits_return hrun).2 ?_).1 Nat.one_pos⟩
  intro c hc
  have hphase : c.phase ∈ s.procs.map (·.phase) := List.mem_map_of_mem hc
  rw [hphases] at hphase
  rcases List.mem_pair.mp hphase with hphase | hphase
  · exact ⟨false, hphase⟩
  · exact ⟨true, hphase⟩

end Run

end AlturaProt.Server
