import AlturaProt.Limiter.Accounting

/-!
# The admission limiters

The limiters of `src/limiter.rs` that admit clients by address, as gates:
`RateLimiter` counts requests, `ConnectionLimiter` and `HttpConnectionLimiter`
count connections and their rate, `RequestConcurrencyLimiter` counts requests
in flight. A limiter's record holds the fields its constructor fixes; what its
calls change (the global bucket, `global_active`, the shards) is the gate's
shared state.
-/

namespace AlturaProt.Limiter

open Foundation

/-! ## Configuration -/

/-- The limits section of an HTTP listener, with its defaults. -/
structure HttpLimitConfig where
  perIpRps : ℚ := 200
  perIpBurst : ℕ := 400
  ipv4PrefixLen : ℕ := 32
  ipv6PrefixLen : ℕ := 64
  globalRps : ℚ := 20000
  globalBurst : ℕ := 40000
  trustedProxyRps : ℚ := 5000
  trustedProxyBurst : ℕ := 10000
  trustedProxyMaxInFlightRequests : ℕ := 4096
  signatureRps : ℚ := 5000
  signatureBurst : ℕ := 10000
  maxTrackedSignatures : ℕ := 8192
  pathShapeRps : ℚ := 10000
  pathShapeBurst : ℕ := 20000
  maxTrackedPathShapes : ℕ := 4096
  perIpConnectsPerSecond : ℚ := 200
  perIpConnectBurst : ℕ := 400
  globalConnectsPerSecond : ℚ := 20000
  globalConnectBurst : ℕ := 40000
  maxConnections : ℕ := 10000
  maxConnectionsPerIp : ℕ := 1024
  maxInFlightRequests : ℕ := 8192
  maxInFlightRequestsPerIp : ℕ := 512
  maxTrackedIps : ℕ := 65536

/-- The limits section of a TCP listener, with its defaults. -/
structure TcpLimitConfig where
  perIpConnectsPerSecond : ℚ := 25
  perIpConnectBurst : ℕ := 50
  ipv4PrefixLen : ℕ := 32
  ipv6PrefixLen : ℕ := 64
  globalConnectsPerSecond : ℚ := 20000
  globalConnectBurst : ℕ := 40000
  maxConnections : ℕ := 10000
  maxConnectionsPerIp : ℕ := 128
  maxTrackedIps : ℕ := 65536

/-! ## Requests per second -/

structure RateLimiter where
  perIpRps : ℚ
  perIpBurst : ℕ
  ipv4PrefixLen : ℕ
  ipv6PrefixLen : ℕ
  maxTrackedIps : ℕ

namespace RateLimiter

def new (cfg : HttpLimitConfig) : RateLimiter where
  perIpRps := cfg.perIpRps
  perIpBurst := cfg.perIpBurst
  ipv4PrefixLen := cfg.ipv4PrefixLen
  ipv6PrefixLen := cfg.ipv6PrefixLen
  maxTrackedIps := max cfg.maxTrackedIps 1

/-- The shared state `new` starts from. -/
def init (cfg : HttpLimitConfig) (now : Instant) : Shared IpBucket :=
  Shared.new cfg.globalRps cfg.globalBurst now

def trustedProxyAggregate (cfg : HttpLimitConfig) : RateLimiter where
  perIpRps := cfg.trustedProxyRps
  perIpBurst := cfg.trustedProxyBurst
  ipv4PrefixLen := 32
  ipv6PrefixLen := 128
  maxTrackedIps := max cfg.maxTrackedIps 1

/-- The shared state `trusted_proxy_aggregate` starts from: it has no global
bucket. -/
def initTrustedProxyAggregate : Shared IpBucket := Shared.idle none

def fresh (l : RateLimiter) (now : Instant) : IpBucket where
  bucket := TokenBucket.new l.perIpRps l.perIpBurst now
  lastSeen := now

/-- A check stamps the entry and refills its bucket even when it denies. -/
def seen (now : Instant) (entry : IpBucket) : IpBucket where
  bucket := entry.bucket.refill now
  lastSeen := now

def judge (now : Instant) (entry : IpBucket) : IpBucket × Option LimitReason :=
  (seen now entry, if (entry.bucket.hasTokens now 1).2 then none else some .perIpRate)

def gate (l : RateLimiter) (hash : IpAddr → ℕ) : Gate IpBucket where
  key ip := normalizeIp ip l.ipv4PrefixLen l.ipv6PrefixLen
  shardOf := hashedShard hash
  maxActive := 0
  perKey := decide (0 < l.perIpRps)
  maxTracked := l.maxTrackedIps
  ensure now shard := ensureRateShardCapacity shard l.maxTrackedIps now
  fullReason := .perIpRate
  fresh := l.fresh
  judge := judge
  commit _ entry := { entry with bucket := entry.bucket.consume 1 }
  undoesInsert := true
  leased := false
  release _ entry := entry
  evictable := rateIsStale
  active _ := 0
  activeCap := none
  touched := seen
  bucket entry := some entry.bucket
  ensure_reclaimed _ _ := reclaimed_ensureByStale _ _ _
  ensure_room _ _ := size_lt_of_ensureByStale
  inactive_of_evictable _ _ _ := rfl
  active_fresh _ := rfl
  active_judge _ _ := rfl
  active_commit _ _ := rfl
  active_release _ _ := rfl
  judge_below_cap _ _ _ _ hc := absurd hc (by simp)
  judge_fst _ _ := Or.inr rfl
  bucket_touched _ _ := Or.inr rfl
  inactive_of_undoesInsert _ _ := rfl
  uncapped_of_not_leased _ := rfl

/-- `RateLimiter::check`, with no other call running. -/
def check (l : RateLimiter) (hash : IpAddr → ℕ) (s : Shared IpBucket) (ip : IpAddr)
    (now : Instant) : Shared IpBucket × LimitDecision :=
  match (l.gate hash).call s ip now with
  | (s', .ok _) => (s', .allow)
  | (s', .error reason) => (s', .deny reason)

end RateLimiter

/-! ## Connections -/

/-- The look at a connection bucket, skipped when no connect rate is set. -/
def pollConnects (rate : ℚ) (bucket : TokenBucket) (now : Instant) : TokenBucket × Bool :=
  if 0 < rate then bucket.hasTokens now 1 else (bucket, true)

/-- The withdrawal from a connection bucket, skipped when no connect rate is
set. -/
def takeConnect (rate : ℚ) (bucket : TokenBucket) : TokenBucket :=
  if 0 < rate then bucket.consume 1 else bucket

theorem bucket_pollConnects (rate : ℚ) (b : TokenBucket) (now : Instant) :
    some (pollConnects rate b now).1 = some b ∨
      some (pollConnects rate b now).1 = (some b).map (·.refill now) := by
  unfold pollConnects
  split
  · exact Or.inr rfl
  · exact Or.inl rfl

structure ConnectionLimiter where
  perIpConnectsPerSecond : ℚ
  perIpConnectBurst : ℕ
  ipv4PrefixLen : ℕ
  ipv6PrefixLen : ℕ
  maxConnections : ℕ
  maxConnectionsPerIp : ℕ
  maxTrackedIps : ℕ

namespace ConnectionLimiter

def new (cfg : TcpLimitConfig) : ConnectionLimiter where
  perIpConnectsPerSecond := cfg.perIpConnectsPerSecond
  perIpConnectBurst := cfg.perIpConnectBurst
  ipv4PrefixLen := cfg.ipv4PrefixLen
  ipv6PrefixLen := cfg.ipv6PrefixLen
  maxConnections := cfg.maxConnections
  maxConnectionsPerIp := max cfg.maxConnectionsPerIp 1
  maxTrackedIps := max cfg.maxTrackedIps 1

def init (cfg : TcpLimitConfig) (now : Instant) : Shared ConnEntry :=
  Shared.new cfg.globalConnectsPerSecond cfg.globalConnectBurst now

def fresh (l : ConnectionLimiter) (now : Instant) : ConnEntry where
  bucket := TokenBucket.new l.perIpConnectsPerSecond l.perIpConnectBurst now
  active := 0
  lastSeen := now

def polled (l : ConnectionLimiter) (now : Instant) (entry : ConnEntry) : ConnEntry :=
  { entry with bucket := (pollConnects l.perIpConnectsPerSecond entry.bucket now).1 }

/-- The cap on active connections is checked before the bucket is touched. -/
def judge (l : ConnectionLimiter) (now : Instant) (entry : ConnEntry) :
    ConnEntry × Option LimitReason :=
  if l.maxConnectionsPerIp ≤ entry.active then (entry, some .perIpConnections)
  else
    (l.polled now entry,
      if (pollConnects l.perIpConnectsPerSecond entry.bucket now).2 then none
      else some .perIpRate)

def commit (l : ConnectionLimiter) (now : Instant) (entry : ConnEntry) : ConnEntry where
  bucket := takeConnect l.perIpConnectsPerSecond entry.bucket
  active := entry.active + 1
  lastSeen := now

def release (now : Instant) (entry : ConnEntry) : ConnEntry :=
  { entry with active := entry.active - 1, lastSeen := now }

def gate (l : ConnectionLimiter) (hash : IpAddr → ℕ) : Gate ConnEntry where
  key ip := normalizeIp ip l.ipv4PrefixLen l.ipv6PrefixLen
  shardOf := hashedShard hash
  maxActive := l.maxConnections
  perKey := true
  maxTracked := l.maxTrackedIps
  ensure now shard := ensureConnectionShardCapacity shard l.maxTrackedIps now
  fullReason := .globalConnections
  fresh := l.fresh
  judge := l.judge
  commit := l.commit
  undoesInsert := false
  leased := true
  release := release
  evictable _ entry := entry.active == 0
  active := ConnEntry.active
  activeCap := some l.maxConnectionsPerIp
  touched := l.polled
  bucket entry := some entry.bucket
  ensure_reclaimed now _ := reclaimed_ensureByInactive
    (fun _ h => (Bool.and_eq_true_iff.mp h).1) _ _
  ensure_room _ _ := size_lt_of_ensureByInactive
  inactive_of_evictable _ _ h := eq_of_beq h
  active_fresh _ := rfl
  active_judge now e := by
    unfold judge
    split <;> rfl
  active_commit _ _ := rfl
  active_release _ _ := rfl
  judge_below_cap now e h c hc := by
    obtain rfl := Option.mem_some.mp hc
    unfold judge at h
    split at h
    · cases h
    · exact not_le.mp ‹_›
  judge_fst now e := by
    unfold judge
    split
    · exact Or.inl rfl
    · exact Or.inr rfl
  bucket_touched now e := bucket_pollConnects _ e.bucket now
  inactive_of_undoesInsert h := absurd h (by simp)
  uncapped_of_not_leased h := absurd h (by simp)

/-- `ConnectionLimiter::try_acquire`, with no other call running. -/
def tryAcquire (l : ConnectionLimiter) (hash : IpAddr → ℕ) (s : Shared ConnEntry)
    (ip : IpAddr) (now : Instant) : Shared ConnEntry × Except LimitReason IpAddr :=
  (l.gate hash).call s ip now

end ConnectionLimiter

structure HttpConnectionLimiter where
  perIpConnectsPerSecond : ℚ
  perIpConnectBurst : ℕ
  ipv4PrefixLen : ℕ
  ipv6PrefixLen : ℕ
  maxConnections : ℕ
  maxConnectionsPerIp : ℕ
  maxTrackedIps : ℕ

namespace HttpConnectionLimiter

/-- Unlike the TCP limiter's, the per-address cap may be `0`, which switches it
off. -/
def new (cfg : HttpLimitConfig) : HttpConnectionLimiter where
  perIpConnectsPerSecond := cfg.perIpConnectsPerSecond
  perIpConnectBurst := cfg.perIpConnectBurst
  ipv4PrefixLen := cfg.ipv4PrefixLen
  ipv6PrefixLen := cfg.ipv6PrefixLen
  maxConnections := cfg.maxConnections
  maxConnectionsPerIp := cfg.maxConnectionsPerIp
  maxTrackedIps := max cfg.maxTrackedIps 1

def init (cfg : HttpLimitConfig) (now : Instant) : Shared HttpConnEntry :=
  Shared.new cfg.globalConnectsPerSecond cfg.globalConnectBurst now

def fresh (l : HttpConnectionLimiter) (now : Instant) : HttpConnEntry where
  bucket := TokenBucket.new l.perIpConnectsPerSecond l.perIpConnectBurst now
  active := 0
  lastSeen := now

def polled (l : HttpConnectionLimiter) (now : Instant) (entry : HttpConnEntry) :
    HttpConnEntry :=
  { entry with bucket := (pollConnects l.perIpConnectsPerSecond entry.bucket now).1 }

/-- The bucket is checked first, and the cap only when it is set. -/
def judge (l : HttpConnectionLimiter) (now : Instant) (entry : HttpConnEntry) :
    HttpConnEntry × Option LimitReason :=
  (l.polled now entry,
    if (pollConnects l.perIpConnectsPerSecond entry.bucket now).2 = false then
      some .perIpRate
    else if 0 < l.maxConnectionsPerIp ∧ l.maxConnectionsPerIp ≤ entry.active then
      some .perIpConnections
    else none)

def commit (l : HttpConnectionLimiter) (now : Instant) (entry : HttpConnEntry) :
    HttpConnEntry where
  bucket := takeConnect l.perIpConnectsPerSecond entry.bucket
  active := entry.active + 1
  lastSeen := now

def release (now : Instant) (entry : HttpConnEntry) : HttpConnEntry :=
  { entry with active := entry.active - 1, lastSeen := now }

/-- A cap of `0` is no cap. -/
def activeCap (l : HttpConnectionLimiter) : Option ℕ :=
  if 0 < l.maxConnectionsPerIp then some l.maxConnectionsPerIp else none

def gate (l : HttpConnectionLimiter) (hash : IpAddr → ℕ) : Gate HttpConnEntry where
  key ip := normalizeIp ip l.ipv4PrefixLen l.ipv6PrefixLen
  shardOf := hashedShard hash
  maxActive := l.maxConnections
  perKey := true
  maxTracked := l.maxTrackedIps
  ensure now shard := ensureHttpConnectionShardCapacity shard l.maxTrackedIps now
  fullReason := .globalConnections
  fresh := l.fresh
  judge := l.judge
  commit := l.commit
  undoesInsert := false
  leased := true
  release := release
  evictable _ entry := entry.active == 0
  active := HttpConnEntry.active
  activeCap := l.activeCap
  touched := l.polled
  bucket entry := some entry.bucket
  ensure_reclaimed now _ := reclaimed_ensureByInactive
    (fun _ h => (Bool.and_eq_true_iff.mp h).1) _ _
  ensure_room _ _ := size_lt_of_ensureByInactive
  inactive_of_evictable _ _ h := eq_of_beq h
  active_fresh _ := rfl
  active_judge _ _ := rfl
  active_commit _ _ := rfl
  active_release _ _ := rfl
  judge_below_cap now e h c hc := by
    unfold activeCap at hc
    split at hc
    · rename_i hpos
      obtain rfl := Option.mem_some.mp hc
      by_contra hge
      simp only [judge, hpos, not_lt.mp hge, and_self, if_true] at h
      split at h <;> cases h
    · cases hc
  judge_fst _ _ := Or.inr rfl
  bucket_touched now e := bucket_pollConnects _ e.bucket now
  inactive_of_undoesInsert h := absurd h (by simp)
  uncapped_of_not_leased h := absurd h (by simp)

/-- `HttpConnectionLimiter::try_acquire`, with no other call running. -/
def tryAcquire (l : HttpConnectionLimiter) (hash : IpAddr → ℕ) (s : Shared HttpConnEntry)
    (ip : IpAddr) (now : Instant) : Shared HttpConnEntry × Except LimitReason IpAddr :=
  (l.gate hash).call s ip now

end HttpConnectionLimiter

/-! ## Requests in flight -/

structure RequestConcurrencyLimiter where
  maxInFlight : ℕ
  maxInFlightPerIp : ℕ
  ipv4PrefixLen : ℕ
  ipv6PrefixLen : ℕ
  maxTrackedIps : ℕ

namespace RequestConcurrencyLimiter

def withLimits (maxInFlight maxInFlightPerIp maxTrackedIps ipv4PrefixLen
    ipv6PrefixLen : ℕ) : RequestConcurrencyLimiter where
  maxInFlight := maxInFlight
  maxInFlightPerIp := maxInFlightPerIp
  ipv4PrefixLen := ipv4PrefixLen
  ipv6PrefixLen := ipv6PrefixLen
  maxTrackedIps := max maxTrackedIps 1

def new (cfg : HttpLimitConfig) : RequestConcurrencyLimiter :=
  withLimits cfg.maxInFlightRequests cfg.maxInFlightRequestsPerIp cfg.maxTrackedIps
    cfg.ipv4PrefixLen cfg.ipv6PrefixLen

def trustedProxyAggregate (cfg : HttpLimitConfig) : RequestConcurrencyLimiter :=
  withLimits 0 cfg.trustedProxyMaxInFlightRequests cfg.maxTrackedIps 32 128

/-- There is no global rate: the shared state has no global bucket. -/
def init : Shared RequestEntry := Shared.idle none

def fresh (now : Instant) : RequestEntry where
  active := 0
  lastSeen := now

def judge (l : RequestConcurrencyLimiter) (_ : Instant) (entry : RequestEntry) :
    RequestEntry × Option LimitReason :=
  (entry,
    if 0 < l.maxInFlightPerIp ∧ l.maxInFlightPerIp ≤ entry.active then
      some .perIpConnections
    else none)

def commit (now : Instant) (entry : RequestEntry) : RequestEntry where
  active := entry.active + 1
  lastSeen := now

def release (now : Instant) (entry : RequestEntry) : RequestEntry where
  active := entry.active - 1
  lastSeen := now

/-- A cap of `0` is no cap. -/
def activeCap (l : RequestConcurrencyLimiter) : Option ℕ :=
  if 0 < l.maxInFlightPerIp then some l.maxInFlightPerIp else none

def gate (l : RequestConcurrencyLimiter) (hash : IpAddr → ℕ) : Gate RequestEntry where
  key ip := normalizeIp ip l.ipv4PrefixLen l.ipv6PrefixLen
  shardOf := hashedShard hash
  maxActive := l.maxInFlight
  perKey := true
  maxTracked := l.maxTrackedIps
  ensure now shard := ensureRequestShardCapacity shard l.maxTrackedIps now
  fullReason := .globalConnections
  fresh := fresh
  judge := l.judge
  commit := commit
  undoesInsert := false
  leased := true
  release := release
  evictable _ entry := entry.active == 0
  active := RequestEntry.active
  activeCap := l.activeCap
  touched _ entry := entry
  bucket _ := none
  ensure_reclaimed now _ := reclaimed_ensureByInactive
    (fun _ h => (Bool.and_eq_true_iff.mp h).1) _ _
  ensure_room _ _ := size_lt_of_ensureByInactive
  inactive_of_evictable _ _ h := eq_of_beq h
  active_fresh _ := rfl
  active_judge _ _ := rfl
  active_commit _ _ := rfl
  active_release _ _ := rfl
  judge_below_cap now e h c hc := by
    unfold activeCap at hc
    split at hc
    · rename_i hpos
      obtain rfl := Option.mem_some.mp hc
      by_contra hge
      simp [judge, hpos, not_lt.mp hge] at h
    · cases hc
  judge_fst _ _ := Or.inr rfl
  bucket_touched _ _ := Or.inl rfl
  inactive_of_undoesInsert h := absurd h (by simp)
  uncapped_of_not_leased h := absurd h (by simp)

/-- `RequestConcurrencyLimiter::try_acquire`, with no other call running. -/
def tryAcquire (l : RequestConcurrencyLimiter) (hash : IpAddr → ℕ)
    (s : Shared RequestEntry) (ip : IpAddr) (now : Instant) :
    Shared RequestEntry × Except LimitReason IpAddr :=
  (l.gate hash).call s ip now

end RequestConcurrencyLimiter

/-! ## The limiters that hand out permits -/

/-- A permit limiter as the proxy configures it. -/
inductive PermitLimiter where
  | connection (cfg : TcpLimitConfig)
  | httpConnection (cfg : HttpLimitConfig)
  | requestConcurrency (cfg : HttpLimitConfig)
  | trustedProxyRequests (cfg : HttpLimitConfig)

namespace PermitLimiter

def Entry : PermitLimiter → Type
  | connection _ => ConnEntry
  | httpConnection _ => HttpConnEntry
  | requestConcurrency _ => RequestEntry
  | trustedProxyRequests _ => RequestEntry

def gate (hash : IpAddr → ℕ) : (l : PermitLimiter) → Gate l.Entry
  | connection cfg => (ConnectionLimiter.new cfg).gate hash
  | httpConnection cfg => (HttpConnectionLimiter.new cfg).gate hash
  | requestConcurrency cfg => (RequestConcurrencyLimiter.new cfg).gate hash
  | trustedProxyRequests cfg =>
    (RequestConcurrencyLimiter.trustedProxyAggregate cfg).gate hash

def init (now : Instant) : (l : PermitLimiter) → Shared l.Entry
  | connection cfg => ConnectionLimiter.init cfg now
  | httpConnection cfg => HttpConnectionLimiter.init cfg now
  | requestConcurrency _ => RequestConcurrencyLimiter.init
  | trustedProxyRequests _ => RequestConcurrencyLimiter.init

theorem init_eq_idle (now : Instant) (l : PermitLimiter) :
    ∃ global, l.init now = Shared.idle global := by
  cases l <;> exact ⟨_, rfl⟩

end PermitLimiter

/-- Any limiter that admits by address: the permit limiters, and the request
rate limiters of clients and of trusted proxies. -/
inductive AdmissionLimiter where
  | permits (l : PermitLimiter)
  | requestRate (cfg : HttpLimitConfig)
  | trustedProxyRate (cfg : HttpLimitConfig)

namespace AdmissionLimiter

def Entry : AdmissionLimiter → Type
  | permits l => l.Entry
  | requestRate _ => IpBucket
  | trustedProxyRate _ => IpBucket

def gate (hash : IpAddr → ℕ) : (l : AdmissionLimiter) → Gate l.Entry
  | permits l => l.gate hash
  | requestRate cfg => (RateLimiter.new cfg).gate hash
  | trustedProxyRate cfg => (RateLimiter.trustedProxyAggregate cfg).gate hash

def init (now : Instant) : (l : AdmissionLimiter) → Shared l.Entry
  | permits l => l.init now
  | requestRate cfg => RateLimiter.init cfg now
  | trustedProxyRate _ => RateLimiter.initTrustedProxyAggregate

theorem init_eq_idle (now : Instant) (l : AdmissionLimiter) :
    ∃ global, l.init now = Shared.idle global := by
  cases l with
  | permits l => exact PermitLimiter.init_eq_idle now l
  | requestRate cfg => exact ⟨_, rfl⟩
  | trustedProxyRate cfg => exact ⟨_, rfl⟩

end AdmissionLimiter

end AlturaProt.Limiter
