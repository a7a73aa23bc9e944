import AlturaProt.Config.Validate

/-!
# The descriptor budget

`estimate_nofile_capacity` of `src/resource_limits.rs`: how many file descriptors
the configured limits can use at once, in saturating 64-bit arithmetic. For an
accepted configuration it is the plain sum `AppConfig.descriptors`, cut off at the
largest number (`required_eq`).
-/

namespace AlturaProt.Config

open Foundation

def NOFILE_BASE_RESERVE : ℕ := 256

/-- The largest number of 64 bits. -/
def U64_MAX : ℕ := 2 ^ 64 - 1

/-- `u64::saturating_add`. -/
def saturatingAdd (a b : ℕ) : ℕ := min (a + b) U64_MAX

structure NofileCapacityEstimate where
  required : ℕ
  softLimit : ℕ
  reserve : ℕ
  listeners : ℕ
  httpDownstream : ℕ
  httpUpstreamInFlight : ℕ
  httpUpstreamIdlePool : ℕ
  tcpDownstream : ℕ
  tcpUpstream : ℕ
deriving DecidableEq

def listenerFdCount (acceptShards : ℕ) : ℕ := max acceptShards 1

/-- Add up over the TCP services. -/
def saturatingSum (amount : TcpProxyConfig → ℕ) (tcp : List TcpProxyConfig) : ℕ :=
  tcp.foldl (fun total service => saturatingAdd total (amount service)) 0

def HttpConfig.upstreamInFlight (http : HttpConfig) : ℕ :=
  if http.limits.maxInFlightRequests = 0 then http.limits.maxConnections
  else http.limits.maxInFlightRequests

def estimateNofileCapacity (cfg : AppConfig) (softLimit : ℕ) : NofileCapacityEstimate :=
  let httpListeners := cfg.http.elim 0 fun http => listenerFdCount http.acceptShards
  let tcpListeners := saturatingSum (fun tcp => listenerFdCount tcp.acceptShards) cfg.tcp
  let listeners := saturatingAdd httpListeners tcpListeners
  let httpDownstream := cfg.http.elim 0 fun http => http.limits.maxConnections
  let httpUpstreamInFlight := cfg.http.elim 0 HttpConfig.upstreamInFlight
  let httpUpstreamIdlePool := cfg.http.elim 0 fun http => http.upstreamPoolMaxIdlePerHost
  let tcpDownstream := saturatingSum (fun tcp => tcp.limits.maxConnections) cfg.tcp
  let tcpUpstream := saturatingSum (fun tcp => tcp.limits.maxConnections) cfg.tcp
  let required := saturatingAdd NOFILE_BASE_RESERVE listeners
  let required := saturatingAdd required httpDownstream
  let required := saturatingAdd required httpUpstreamInFlight
  let required := saturatingAdd required httpUpstreamIdlePool
  let required := saturatingAdd required tcpDownstream
  let required := saturatingAdd required tcpUpstream
  { required, softLimit, reserve := NOFILE_BASE_RESERVE, listeners, httpDownstream,
    httpUpstreamInFlight, httpUpstreamIdlePool, tcpDownstream, tcpUpstream }

/-! ## The plain sum -/

/-- Listeners, client connections, requests at the upstream and idle connections. -/
def HttpConfig.descriptors (http : HttpConfig) : ℕ :=
  http.acceptShards + http.limits.maxConnections + http.limits.maxInFlightRequests +
    http.upstreamPoolMaxIdlePerHost

/-- A TCP connection has a descriptor on both sides. -/
def TcpProxyConfig.descriptors (tcp : TcpProxyConfig) : ℕ :=
  tcp.acceptShards + tcp.limits.maxConnections * 2

/-- What the limits add up to. -/
def AppConfig.descriptors (cfg : AppConfig) : ℕ :=
  NOFILE_BASE_RESERVE + cfg.http.elim 0 HttpConfig.descriptors +
    (cfg.tcp.map TcpProxyConfig.descriptors).sum

theorem saturatingAdd_min_left (a b : ℕ) :
    saturatingAdd (min a U64_MAX) b = min (a + b) U64_MAX := by
  unfold saturatingAdd
  omega

theorem saturatingAdd_min_right (a b : ℕ) :
    saturatingAdd a (min b U64_MAX) = saturatingAdd a b := by
  unfold saturatingAdd
  omega

theorem saturatingAdd_left (a b c : ℕ) :
    saturatingAdd (saturatingAdd a b) c = saturatingAdd (a + b) c :=
  saturatingAdd_min_left (a + b) c

theorem saturatingAdd_right (a b c : ℕ) :
    saturatingAdd a (saturatingAdd b c) = saturatingAdd a (b + c) :=
  saturatingAdd_min_right a (b + c)

/-- Adding up in saturating arithmetic saturates at the end. -/
theorem saturatingSum_eq (amount : TcpProxyConfig → ℕ) (tcp : List TcpProxyConfig) :
    saturatingSum amount tcp = min (tcp.map amount).sum U64_MAX := by
  have hrun : ∀ (l : List TcpProxyConfig) (total : ℕ),
      l.foldl (fun total service => saturatingAdd total (amount service)) (min total U64_MAX) =
        min (total + (l.map amount).sum) U64_MAX := by
    intro l
    induction l with
    | nil => simp
    | cons service rest ih =>
      intro total
      rw [List.foldl_cons, saturatingAdd_min_left, ih, List.map_cons, List.sum_cons, Nat.add_assoc]
  simpa [saturatingSum] using hrun tcp 0

theorem sum_descriptors (tcp : List TcpProxyConfig) :
    (tcp.map TcpProxyConfig.descriptors).sum =
      (tcp.map fun service => service.acceptShards).sum +
        (tcp.map fun service => service.limits.maxConnections).sum * 2 := by
  induction tcp with
  | nil => rfl
  | cons service rest ih =>
    simp only [List.map_cons, List.sum_cons, ih, TcpProxyConfig.descriptors]
    ring

/-- **The budget of an accepted configuration is the sum of its limits.** -/
theorem required_eq {env : CheckEnv} {cfg : AppConfig} (hvalid : cfg.validate env = .ok ())
    (softLimit : ℕ) :
    (estimateNofileCapacity cfg softLimit).required = min cfg.descriptors U64_MAX := by
  obtain ⟨hhttp, htcp⟩ := AppConfig.capacities_of_valid hvalid
  have hlisteners : cfg.tcp.map (fun tcp => listenerFdCount tcp.acceptShards) =
      cfg.tcp.map fun tcp => tcp.acceptShards :=
    List.map_congr_left fun tcp hmem => max_eq_left (htcp tcp hmem).1
  simp only [estimateNofileCapacity, saturatingSum_eq, hlisteners, AppConfig.descriptors,
    sum_descriptors]
  -- every sum is cut off at the same number, so only the last cut matters
  simp only [saturatingAdd_min_right, saturatingAdd_right, saturatingAdd_left]
  rw [saturatingAdd]
  cases hcfg : cfg.http with
  | none =>
    simp only [Option.elim_none]
    congr 1
    omega
  | some http =>
    obtain ⟨hshards, -, hflight⟩ := hhttp http hcfg
    simp only [Option.elim_some, HttpConfig.upstreamInFlight, if_neg hflight.ne',
      HttpConfig.descriptors, listenerFdCount, max_eq_left (Nat.succ_le_of_lt hshards)]
    congr 1
    omega

end AlturaProt.Config
