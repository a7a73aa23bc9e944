import AlturaProt.Limiter.Callers
import AlturaProt.Tcp.Relay

/-!
# Connections of the TCP services

`run_tcp_accept_loop` of `src/tcp_proxy.rs`, for all services of a daemon together. A connection
asks the limiter of its service for a permit, connects to the upstream, is relayed and ends; its
permit is dropped last. All connections take turns, and a call of a limiter takes as many turns
as `Gate.step` says. Whether the upstream answers, and how the relay ends, is what the `Relay`
says and is left open here.

Every service has a limiter of its own, but `run` of `src/daemon.rs` gives all of them the same
counters. Each counter is the number of connections to which the counted thing has happened, and
`TcpPhase.counted` reads that off where a connection stands.
-/

namespace AlturaProt.Server

open Foundation Foundation.Program Limiter Tcp

/-! ## The connection -/

/-- What a service is configured with. -/
structure TcpServer where
  limits : TcpLimitConfig
  hash : IpAddr → ℕ

/-- The limiter of the service. -/
def TcpServer.connections (v : TcpServer) : Gate ConnEntry :=
  (ConnectionLimiter.new v.limits).gate v.hash

inductive TcpCounter where
  | rejected
  | globalConnectRateLimited
  | accepted
  | upstreamErrors
  | idleTimeouts
  | downstreamTooSlow
  | upstreamTooSlow
deriving DecidableEq

/-- How a connection ended. -/
inductive TcpClose where
  | rejected (reason : LimitReason)
  /-- the upstream did not answer, or not in time -/
  | connectFailed
  /-- the relay ended, or the longest time of a connection was over -/
  | relayed (result : Option RelayEnd)
deriving DecidableEq

inductive TcpPhase where
  /-- the accept loop asks for the permit -/
  | admitting
  /-- the task of the connection starts -/
  | starting
  | connecting
  | relaying
  /-- the task is over, and the permit is dropped -/
  | closing (how : TcpClose)
  | closed (how : TcpClose)
deriving DecidableEq

section Services

/-! A service is known by its index. -/

variable {ι : Type}

structure TcpConnection (ι : Type) where
  service : ι
  peerIp : IpAddr
  permit : Gate.Proc
  phase : TcpPhase

/-- What the connections share: with those of the same service its limiter, and with all of them
the counters. -/
structure TcpState (ι : Type) where
  connections : ι → Shared ConnEntry
  stats : TcpCounter → ℕ

def TcpState.new (v : ι → TcpServer) (now : ι → Instant) : TcpState ι where
  connections i := ConnectionLimiter.init (v i).limits (now i)
  stats _ := 0

/-- The limiter of a service has changed. -/
def TcpState.limit [DecidableEq ι] (s : TcpState ι) (i : ι) (limiter : Shared ConnEntry) : TcpState ι :=
  { s with connections := Function.update s.connections i limiter }

/-- `Stats::inc` of some counters. -/
def TcpState.count (s : TcpState ι) (counters : List TcpCounter) : TcpState ι :=
  { s with
    stats := fun counter =>
      if counter ∈ counters then (s.stats counter + 1) % 2 ^ 64 else s.stats counter }

/-- What comes next for a connection: how its turn at the limiter goes, whether the upstream
answers, and how the relay ends. -/
structure TcpEvent where
  choice : Gate.Choice
  connected : Bool
  result : Option RelayEnd

/-- The counters of a refusal. -/
def rejectedCounters (reason : LimitReason) : List TcpCounter :=
  if reason = .globalRate then [.rejected, .globalConnectRateLimited] else [.rejected]

/-- The counter of the end of a relay, if it has one. -/
def endCounters : Option RelayEnd → List TcpCounter
  | some (.ok .idleTimeout) => [.idleTimeouts]
  | some (.ok .downstreamTooSlow) => [.downstreamTooSlow]
  | some (.ok .upstreamTooSlow) => [.upstreamTooSlow]
  | _ => []

namespace TcpConnection

variable [DecidableEq ι] (v : ι → TcpServer) (s : TcpState ι) (c : TcpConnection ι)

/-- A connection that a service has just accepted. -/
def accept (service : ι) (peerIp : IpAddr) (now : Instant) : TcpConnection ι where
  service := service
  peerIp := peerIp
  permit := .start peerIp now
  phase := .admitting

/-- A turn at the limiter of the service. -/
def ask (choice : Gate.Choice) : Option (Shared ConnEntry × Gate.Proc) :=
  (v c.service).connections.step (s.connections c.service) c.permit choice

/-- A turn of the accept loop at the limiter. -/
def askPermit (choice : Gate.Choice) : Option (TcpState ι × TcpConnection ι) :=
  (c.ask v s choice).map fun (sh, p) =>
    match p with
    | .held _ => (s.limit c.service sh, { c with permit := p, phase := .starting })
    | .failed reason =>
      ((s.limit c.service sh).count (rejectedCounters reason),
        { c with permit := p, phase := .closed (.rejected reason) })
    | _ => (s.limit c.service sh, { c with permit := p })

/-- A turn of the drop of the permit. -/
def close (how : TcpClose) (choice : Gate.Choice) : Option (TcpState ι × TcpConnection ι) :=
  (c.ask v s choice).map fun (sh, p) =>
    (s.limit c.service sh,
      { c with
          permit := p
          phase := if Gate.stage p = .idle then .closed how else .closing how })

/-- One turn of a connection. -/
def step (event : TcpEvent) : Option (TcpState ι × TcpConnection ι) :=
  match c.phase with
  | .admitting => c.askPermit v s event.choice
  | .starting => some (s.count [.accepted], { c with phase := .connecting })
  | .connecting =>
    if event.connected then some (s, { c with phase := .relaying })
    else some (s.count [.upstreamErrors], { c with phase := .closing .connectFailed })
  | .relaying =>
    some (s.count (endCounters event.result), { c with phase := .closing (.relayed event.result) })
  | .closing how => c.close v s how event.choice
  | .closed _ => none

end TcpConnection

/-- The services as a system of connections. -/
def tcpProgram [DecidableEq ι] (v : ι → TcpServer) :
    Program (TcpState ι) (TcpConnection ι) (ι × IpAddr × Instant) TcpEvent where
  start a := .accept a.1 a.2.1 a.2.2
  step s c event := c.step v s event

/-- The services with no connections. -/
def tcpInit (v : ι → TcpServer) (now : ι → Instant) : Sys (TcpState ι) (TcpConnection ι) :=
  ⟨TcpState.new v now, []⟩

/-! ## What one turn does -/

/-- What the end of a connection is counted on. -/
def TcpClose.counters : TcpClose → List TcpCounter
  | .rejected reason => rejectedCounters reason
  | .connectFailed => [.accepted, .upstreamErrors]
  | .relayed result => .accepted :: endCounters result

/-- The counters a connection has been counted on. -/
def TcpPhase.counted : TcpPhase → List TcpCounter
  | .admitting | .starting => []
  | .connecting | .relaying => [.accepted]
  | .closing how | .closed how => how.counters

/-- What a connection holds in a phase. -/
def TcpPhase.Holds (phase : TcpPhase) (permit : Gate.Stage) : Prop :=
  match phase with
  | .admitting => permit = .acquiring
  | .starting | .connecting | .relaying => permit = .holding
  | .closing _ => permit = .holding ∨ permit = .releasing
  | .closed _ => permit = .idle

structure TcpConnection.Consistent (v : ι → TcpServer) (c : TcpConnection ι) : Prop where
  holds : c.phase.Holds (Gate.stage c.permit)
  permit : (v c.service).connections.For c.peerIp c.permit
  keyed : Gate.Keyed c.permit

/-- What a turn does to the limiters and to the counters. -/
structure TcpTurns (v : ι → TcpServer) (s : TcpState ι) (c : TcpConnection ι) (sh : TcpState ι)
    (c' : TcpConnection ι) : Prop where
  service : c'.service = c.service
  connections : (v c.service).connections.Uses (s.connections c.service) c.permit
    (sh.connections c.service) c'.permit
  others : ∀ i, i ≠ c.service → sh.connections i = s.connections i
  consistent : c'.Consistent v
  counted : ∀ counter, counter ∈ c.phase.counted → counter ∈ c'.phase.counted
  stats : ∀ counter, sh.stats counter =
    if counter ∈ c'.phase.counted ∧ counter ∉ c.phase.counted then
      (s.stats counter + 1) % 2 ^ 64
    else s.stats counter

section Turn

variable {v : ι → TcpServer} {s sh : TcpState ι} {c c' : TcpConnection ι} {event : TcpEvent}

theorem accepted_notMem_endCounters (result : Option RelayEnd) :
    .accepted ∉ endCounters result := by
  rcases result with _ | ⟨outcome⟩ | _
  · simp [endCounters]
  · cases outcome <;> simp [endCounters]
  · simp [endCounters]

/-- What is counted in a turn had not been counted before. -/
theorem newly_counted {counter : TcpCounter} {counters before after : List TcpCounter}
    (hcounted : counter ∈ after ↔ counter ∈ before ∨ counter ∈ counters)
    (hnew : counter ∈ counters → counter ∉ before) :
    counter ∈ after ∧ counter ∉ before ↔ counter ∈ counters := by
  rw [hcounted]
  constructor
  · rintro ⟨hold | hcounter, hnot⟩
    · exact absurd hold hnot
    · exact hcounter
  · intro hcounter
    exact ⟨.inr hcounter, hnew hcounter⟩

/-- A turn that leaves the limiters alone. -/
theorem tcp_turns_of_phase {phase : TcpPhase} {counters : List TcpCounter} (hc : c.Consistent v)
    (hholds : phase.Holds (Gate.stage c.permit))
    (hcounted : ∀ counter, counter ∈ phase.counted ↔ counter ∈ c.phase.counted ∨ counter ∈ counters)
    (hnew : ∀ counter ∈ counters, counter ∉ c.phase.counted) :
    TcpTurns v s c (s.count counters) { c with phase := phase } where
  service := rfl
  connections := .same
  others _ _ := rfl
  consistent := ⟨hholds, hc.permit, hc.keyed⟩
  counted counter h := (hcounted counter).mpr (.inl h)
  stats counter := by
    simp only [newly_counted (hcounted counter) (hnew counter), TcpState.count]

theorem TcpState.count_nil (s : TcpState ι) : s.count [] = s := by
  simp [TcpState.count]

theorem TcpConnection.Consistent.holds_of {phase : TcpPhase} (hc : c.Consistent v)
    (hphase : c.phase = phase) : phase.Holds (Gate.stage c.permit) := hphase ▸ hc.holds

variable [DecidableEq ι]

/-- A turn at the limiter of the service. -/
theorem tcp_turns_of_limit {limiter : Shared ConnEntry} {p : Gate.Proc} {phase : TcpPhase}
    {counters : List TcpCounter} (hc : c.Consistent v)
    (hmoves : (v c.service).connections.Moves (s.connections c.service) c.permit limiter p)
    (hholds : phase.Holds (Gate.stage p))
    (hcounted : ∀ counter, counter ∈ phase.counted ↔ counter ∈ c.phase.counted ∨ counter ∈ counters)
    (hnew : ∀ counter ∈ counters, counter ∉ c.phase.counted) :
    TcpTurns v s c ((s.limit c.service limiter).count counters)
      { c with permit := p, phase := phase } where
  service := rfl
  connections := by
    have hsame : ((s.limit c.service limiter).count counters).connections c.service = limiter :=
      Function.update_self ..
    rw [hsame]
    exact .moves hmoves
  others _ hother := Function.update_of_ne hother ..
  consistent := ⟨hholds, hmoves.for_ hc.permit, hmoves.keyed rfl rfl hc.keyed⟩
  counted counter h := (hcounted counter).mpr (.inl h)
  stats counter := by
    simp only [newly_counted (hcounted counter) (hnew counter), TcpState.count, TcpState.limit]

theorem turns_of_tcp_askPermit (hc : c.Consistent v) (hphase : c.phase = .admitting)
    {choice : Gate.Choice} (h : c.askPermit v s choice = some (sh, c')) : TcpTurns v s c sh c' := by
  obtain ⟨⟨limiter, p⟩, hstep, hresult⟩ := Option.map_eq_some_iff.mp h
  have hmoves := (v c.service).connections.moves_of_step hstep
  have hkeyed := hmoves.keyed rfl rfl hc.keyed
  have hstages := hmoves.stage_of_acquiring (hc.holds_of hphase)
  cases p with
  | held k =>
    cases hresult
    rw [← TcpState.count_nil (s.limit c.service limiter)]
    exact tcp_turns_of_limit hc hmoves rfl (by simp [hphase, TcpPhase.counted]) (by simp)
  | failed reason =>
    cases hresult
    refine tcp_turns_of_limit hc hmoves rfl ?_ ?_
    · simp [hphase, TcpPhase.counted, TcpClose.counters]
    · simp [hphase, TcpPhase.counted]
  | passed => exact hkeyed.elim
  | dropped =>
    obtain ⟨reason, hreason⟩ := hmoves.failed_of_acquiring (hc.holds_of hphase) hkeyed rfl
    cases hreason
  | releasing k => simp [Gate.stage] at hstages
  | _ =>
    cases hresult
    rw [← TcpState.count_nil (s.limit c.service limiter)]
    refine tcp_turns_of_limit hc hmoves ?_ (by simp) (by simp)
    rw [hphase]
    rfl

theorem turns_of_tcp_close (hc : c.Consistent v) {how : TcpClose} (hphase : c.phase = .closing how)
    {choice : Gate.Choice} (h : c.close v s how choice = some (sh, c')) : TcpTurns v s c sh c' := by
  obtain ⟨⟨limiter, p⟩, hstep, hresult⟩ := Option.map_eq_some_iff.mp h
  have hmoves := (v c.service).connections.moves_of_step hstep
  cases hresult
  rw [← TcpState.count_nil (s.limit c.service limiter)]
  refine tcp_turns_of_limit hc hmoves ?_ ?_ (by simp)
  · rcases hmoves.stage_of_dropping (hc.holds_of hphase) with hstage | hstage
    · simp [TcpPhase.Holds, hstage]
    · simp [TcpPhase.Holds, hstage]
  · intro counter
    rw [hphase]
    split <;> simp [TcpPhase.counted]

/-- **One turn** of a connection moves its call on, and counts it on the counters it has not been
counted on before. -/
theorem turns_of_tcp_step (hc : c.Consistent v) (h : c.step v s event = some (sh, c')) :
    TcpTurns v s c sh c' := by
  unfold TcpConnection.step at h
  split at h
  · rename_i hphase
    exact turns_of_tcp_askPermit hc hphase h
  · rename_i hphase
    have hholding : Gate.stage c.permit = .holding := hc.holds_of hphase
    cases h
    refine tcp_turns_of_phase hc hholding ?_ ?_
    · simp [hphase, TcpPhase.counted]
    · simp [hphase, TcpPhase.counted]
  · rename_i hphase
    have hholding : Gate.stage c.permit = .holding := hc.holds_of hphase
    split at h
    · cases h
      nth_rewrite 2 [← TcpState.count_nil s]
      exact tcp_turns_of_phase hc hholding (by simp [hphase, TcpPhase.counted]) (by simp)
    · cases h
      refine tcp_turns_of_phase hc (.inl hholding) ?_ ?_
      · simp [hphase, TcpPhase.counted, TcpClose.counters]
      · simp [hphase, TcpPhase.counted]
  · rename_i hphase
    have hholding : Gate.stage c.permit = .holding := hc.holds_of hphase
    cases h
    refine tcp_turns_of_phase hc (.inl hholding) ?_ ?_
    · simp [hphase, TcpPhase.counted, TcpClose.counters]
    · intro counter hcounter hbefore
      rw [hphase] at hbefore
      rw [List.mem_singleton.mp hbefore] at hcounter
      exact accepted_notMem_endCounters event.result hcounter
  · rename_i hphase
    exact turns_of_tcp_close hc hphase h
  · cases h

end Turn

/-! ## All connections -/

section Run

variable [DecidableEq ι] {v : ι → TcpServer} {now : ι → Instant}
  {s : Sys (TcpState ι) (TcpConnection ι)} {tr : List (Turn (TcpState ι) (TcpConnection ι))}

/-- The call of a connection as the limiter of a service sees it: the connections of other
services do not call. -/
def TcpConnection.permitAt (i : ι) (c : TcpConnection ι) : Gate.Proc :=
  if c.service = i then c.permit else .dropped

/-- The accounts of the limiters, and of the counters. -/
structure TcpAccounts (v : ι → TcpServer) (s : Sys (TcpState ι) (TcpConnection ι)) : Prop where
  connections : ∀ i, (v i).connections.Accounted
    ⟨s.shared.connections i, s.procs.map (TcpConnection.permitAt i)⟩
  consistent : ∀ c ∈ s.procs, c.Consistent v
  stats : ∀ counter, s.shared.stats counter =
    s.procs.countP (fun c => decide (counter ∈ c.phase.counted)) % 2 ^ 64

theorem tcp_accounts_init (v : ι → TcpServer) (now : ι → Instant) :
    TcpAccounts v (tcpInit v now) where
  connections _ := Gate.accounted_idle _
  consistent c hc := by cases hc
  stats _ := rfl

theorem TcpAccounts.spawn (h : TcpAccounts v s) (a : ι × IpAddr × Instant) :
    TcpAccounts v ⟨s.shared, s.procs ++ [TcpConnection.accept a.1 a.2.1 a.2.2]⟩ where
  connections i := by
    rw [List.map_append, List.map_singleton, TcpConnection.permitAt]
    split
    · exact (h.connections i).spawn a.2
    · exact (h.connections i).join
  consistent := Everywhere.spawn (A := fun _ => TcpConnection.Consistent v) h.consistent
    ⟨rfl, rfl, trivial⟩
  stats counter := by
    rw [List.countP_append]
    exact h.stats counter

/-- A turn uses the limiter of its own service and no other. -/
theorem TcpTurns.uses {sh : TcpState ι} {sh' : TcpState ι} {c c' : TcpConnection ι}
    (h : TcpTurns v sh c sh' c') (i : ι) :
    (v i).connections.Uses (sh.connections i) (c.permitAt i) (sh'.connections i)
      (c'.permitAt i) := by
  unfold TcpConnection.permitAt
  rw [h.service]
  by_cases hi : c.service = i
  · subst hi
    rw [if_pos rfl, if_pos rfl]
    exact h.connections
  · rw [if_neg hi, if_neg hi, h.others i (Ne.symm hi)]
    exact .same

theorem TcpAccounts.turn (h : TcpAccounts v s) {pid : ℕ} {c c' : TcpConnection ι}
    {sh : TcpState ι} {event : TcpEvent} (hc : s.procs[pid]? = some c)
    (hstep : c.step v s.shared event = some (sh, c')) :
    TcpAccounts v ⟨sh, s.procs.set pid c'⟩ := by
  have hturn := turns_of_tcp_step (h.consistent c (List.mem_of_getElem? hc)) hstep
  refine ⟨?_, ?_, ?_⟩
  · intro i
    have hcall : (s.procs.map (TcpConnection.permitAt i))[pid]? = some (c.permitAt i) := by
      rw [List.getElem?_map, hc]
      rfl
    rw [List.map_set]
    exact (h.connections i).uses hcall (hturn.uses i)
  · exact Everywhere.turn (A := fun _ => TcpConnection.Consistent v) h.consistent hturn.consistent
      fun _ _ _ _ hr => hr
  · intro counter
    have hset := countP_set (fun c : TcpConnection ι => decide (counter ∈ c.phase.counted)) hc c'
    have hbefore := h.stats counter
    have hstats := hturn.stats counter
    show sh.stats counter =
      (s.procs.set pid c').countP (fun c => decide (counter ∈ c.phase.counted)) % 2 ^ 64
    by_cases hwas : counter ∈ c.phase.counted
    · have hafter := hturn.counted counter hwas
      simp only [hwas, hafter, not_true, and_false, if_false] at hset hstats
      omega
    · by_cases hafter : counter ∈ c'.phase.counted
      · simp [hwas, hafter] at hset hstats
        omega
      · simp only [hwas, hafter, false_and, if_false] at hset hstats
        omega

/-- **The accounts of every run.** -/
theorem tcp_accounts_of_run (h : (tcpProgram v).Run (tcpInit v now) tr s) : TcpAccounts v s :=
  h.invariant (tcp_accounts_init v now) (fun _ a h => h.spawn a)
    fun _ _ _ _ _ _ h hc hstep => h.turn hc hstep

/-- The connections of a service that hold a permit of its limiter. -/
def tcpPermits (i : ι) (cs : List (TcpConnection ι)) : ℕ :=
  cs.countP fun c => decide (c.service = i ∧ Gate.stage c.permit = .holding)

/-- The permits of a service are within their cap. -/
theorem TcpAccounts.permits_le (h : TcpAccounts v s) {i : ι}
    (hmax : 0 < (v i).limits.maxConnections) :
    tcpPermits i s.procs ≤ (v i).limits.maxConnections := by
  refine le_trans ?_ ((h.connections i).holding_le hmax)
  rw [List.countP_map]
  apply List.countP_mono_left
  intro c _ hcounts
  obtain ⟨hservice, hholding⟩ := of_decide_eq_true hcounts
  simpa [TcpConnection.permitAt, hservice] using hholding

/-- **The accounts of the TCP services.** In every interleaving, the connections that hold a
permit of a service, and those of one address block among them, are within the caps of the
service, and each counter is the number of the connections of all services that it counts. Once
all connections of a service have ended its limiter counts nothing. -/
theorem tcp_services_account (h : (tcpProgram v).Run (tcpInit v now) tr s) :
    (∀ i, 0 < (v i).limits.maxConnections →
      tcpPermits i s.procs ≤ (v i).limits.maxConnections) ∧
    (∀ i k, s.procs.countP (fun c => decide (c.service = i ∧ Gate.stage c.permit = .holding ∧
        normalizeIp c.peerIp (v i).limits.ipv4PrefixLen (v i).limits.ipv6PrefixLen = k)) ≤
        max (v i).limits.maxConnectionsPerIp 1) ∧
    (∀ counter, s.shared.stats counter =
      s.procs.countP (fun c => decide (counter ∈ c.phase.counted)) % 2 ^ 64) ∧
    (∀ i, (∀ c ∈ s.procs, c.service = i → ∃ how, c.phase = .closed how) →
      (0 < (v i).limits.maxConnections → (s.shared.connections i).globalActive = 0) ∧
      ∀ k, (v i).connections.activeAt (s.shared.connections i) k = 0) := by
  have hacc := tcp_accounts_of_run h
  refine ⟨fun i => hacc.permits_le, ?_, hacc.stats, ?_⟩
  · intro i k
    refine (hacc.connections i).holding_for_le (k := k) rfl ?_
    intro c hc hcounts
    obtain ⟨rfl, hholding, hkey⟩ := of_decide_eq_true hcounts
    rw [TcpConnection.permitAt, if_pos rfl]
    exact ⟨c.peerIp, hkey, (hacc.consistent c hc).permit, hholding⟩
  · intro i hclosed
    obtain ⟨hactive, hkeys, -⟩ := (hacc.connections i).settled (by
      intro p hp
      obtain ⟨c, hc, rfl⟩ := List.mem_map.mp hp
      unfold TcpConnection.permitAt
      split
      · rename_i hservice
        obtain ⟨how, hphase⟩ := hclosed c hc hservice
        exact (hacc.consistent c hc).holds_of hphase
      · rfl)
    exact ⟨hactive, hkeys⟩

/-- A service for one connection at a time. -/
def oneTcpConnection : TcpServer where
  limits := { maxConnections := 1 }
  hash _ := 0

/-- The turns of a connection. -/
def tcpTurns (pid n : ℕ) (result : Option RelayEnd) :
    List ((Bool × IpAddr × Instant) ⊕ ℕ × TcpEvent) :=
  List.replicate n (.inr (pid, ⟨⟨false, 0⟩, true, result⟩))

/-- Two services. The first relays a connection until it is idle, and has no room for another;
the second relays one at the same time. -/
def threeTcpConnections : List ((Bool × IpAddr × Instant) ⊕ ℕ × TcpEvent) :=
  [.inl (false, .v4 1, 0), .inl (false, .v4 2, 0), .inl (true, .v4 2, 0)] ++
    tcpTurns 0 7 none ++ tcpTurns 1 2 none ++ tcpTurns 2 9 none ++
    tcpTurns 0 5 (some (.ok .idleTimeout))

theorem tcp_services_account_three_connections : ∃ tr s,
    (tcpProgram fun _ : Bool => oneTcpConnection).Run
        (tcpInit (fun _ => oneTcpConnection) fun _ => 0) tr s ∧
      s.procs.map (·.phase) = [.closed (.relayed (some (.ok .idleTimeout))),
        .closed (.rejected .globalConnections), .relaying] ∧
      s.shared.stats .accepted = 2 ∧ tcpPermits true s.procs ≤ 1 := by
  have hsome : (((tcpProgram fun _ : Bool => oneTcpConnection).exec threeTcpConnections
      ([], tcpInit (fun _ => oneTcpConnection) fun _ => 0)).map
        fun now => now.2.procs.map (·.phase)) =
      some [.closed (.relayed (some (.ok .idleTimeout))),
        .closed (.rejected .globalConnections), .relaying] := by decide +kernel
  obtain ⟨⟨tr, s⟩, hexec, hphases⟩ := Option.map_eq_some_iff.mp hsome
  have hrun := run_of_exec threeTcpConnections .refl hexec
  obtain ⟨hcaps, -, hstats, -⟩ := tcp_services_account hrun
  have hcount : s.procs.countP (fun c => decide (TcpCounter.accepted ∈ c.phase.counted)) =
      (s.procs.map (·.phase)).countP fun phase => decide (.accepted ∈ phase.counted) := by
    rw [List.countP_map]
    rfl
  refine ⟨tr, s, hrun, hphases, ?_, hcaps true Nat.one_pos⟩
  rw [hstats, hcount, hphases]
  decide

end Run

end Services

end AlturaProt.Server
