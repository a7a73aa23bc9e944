import AlturaProt.Foundation.Sharded
import AlturaProt.Foundation.Text
import AlturaProt.Limiter.TokenBucket

/-!
# Limiter shards

The state the limiters of `src/limiter.rs` keep per client, and the functions
that make room for a new one. A `LimiterShard` is a keyed queue. Both eviction
loops of the source, `evict_stale_or_oldest` and `evict_one`, are the limited
scan of the library; they differ in what they may evict.

The rate limiters evict only stale entries. The permit limiters evict a stale
inactive entry if their first scan meets one, and then any inactive entry.
-/

namespace AlturaProt.Limiter

open Foundation

/-! ## Constants -/

def SHARDS : ℕ := 64
def trackedIpIdle : ℚ := 120
def trackedSignatureIdle : ℚ := 120
def EVICTION_SCAN_LIMIT : ℕ := 32
def SHORT_TOKEN_SIBLING_DISTINCT_THRESHOLD : ℕ := 3
def SHORT_TOKEN_SIBLING_DISTINCT_CAP : ℕ := 64

inductive LimitReason where
  | globalRate
  | globalConnections
  | perIpRate
  | perIpConnections
deriving DecidableEq

structure LimitDecision where
  allowed : Bool
  reason : Option LimitReason
deriving DecidableEq

namespace LimitDecision

def allow : LimitDecision := ⟨true, none⟩
def deny (reason : LimitReason) : LimitDecision := ⟨false, some reason⟩

end LimitDecision

/-! ## Client addresses -/

inductive IpAddr where
  | v4 (bits : BitVec 32)
  | v6 (bits : BitVec 128)
deriving DecidableEq

def normalizeIp (ip : IpAddr) (ipv4PrefixLen ipv6PrefixLen : ℕ) : IpAddr :=
  match ip with
  | .v4 v4 =>
    let pre := min ipv4PrefixLen 32
    if pre = 0 then .v4 0
    else if pre = 32 then .v4 v4
    else .v4 (v4 &&& (BitVec.allOnes 32 <<< (32 - pre)))
  | .v6 v6 =>
    let pre := min ipv6PrefixLen 128
    if pre = 0 then .v6 0
    else if pre = 128 then .v6 v6
    else .v6 (v6 &&& (BitVec.allOnes 128 <<< (128 - pre)))

/-- `hashed_shard`. The hash of the standard library's default hasher is left
open: its algorithm is unspecified. -/
def hashedShard {K : Type} (hash : K → ℕ) (k : K) : Fin SHARDS :=
  ⟨hash k % SHARDS, Nat.mod_lt _ (by decide)⟩

/-! ## Entries -/

structure IpBucket where
  bucket : TokenBucket
  lastSeen : Instant
deriving DecidableEq

structure KeyBucket where
  bucket : TokenBucket
  lastSeen : Instant
deriving DecidableEq

structure ShortTokenSiblingEntry where
  bucket : TokenBucket
  distinctTokens : Finset Str
  tokenOrder : List Str
  lastSeen : Instant
deriving DecidableEq

structure ConnEntry where
  bucket : TokenBucket
  active : ℕ
  lastSeen : Instant
deriving DecidableEq

structure HttpConnEntry where
  bucket : TokenBucket
  active : ℕ
  lastSeen : Instant
deriving DecidableEq

structure RequestEntry where
  active : ℕ
  lastSeen : Instant
deriving DecidableEq

/-! ## Capacity and eviction -/

abbrev LimiterShard (K T : Type) : Type := KeyedQueue K T

def shardCapacity (maxTracked : ℕ) : ℕ :=
  max ((max maxTracked 1 + (SHARDS - 1)) / SHARDS) 1

section Eviction

variable {K T : Type} [DecidableEq K]

def evictStaleOrOldest (isStale : T → Bool) (shard : LimiterShard K T) :
    LimiterShard K T × Bool :=
  shard.scanLimited isStale EVICTION_SCAN_LIMIT

def evictOne (canEvict : T → Bool) (shard : LimiterShard K T) :
    LimiterShard K T × Bool :=
  shard.scanLimited canEvict EVICTION_SCAN_LIMIT

/-- Room by evicting a stale entry: the rate limiters. -/
def ensureByStale (isStale : T → Bool) (maxTracked : ℕ) (shard : LimiterShard K T) :
    LimiterShard K T × Bool :=
  shard.reclaim (shardCapacity maxTracked) EVICTION_SCAN_LIMIT isStale

/-- Room by evicting a stale inactive entry, else any inactive one: the permit
limiters. -/
def ensureByInactive (isStale inactive : T → Bool) (maxTracked : ℕ)
    (shard : LimiterShard K T) : LimiterShard K T × Bool :=
  shard.reclaimTwice (shardCapacity maxTracked) EVICTION_SCAN_LIMIT isStale inactive

end Eviction

def keyIsStale (now : Instant) (entry : KeyBucket) : Bool :=
  entry.bucket.stale now trackedSignatureIdle

def ensureKeyShardCapacity (shard : LimiterShard Str KeyBucket)
    (maxTrackedKeys : ℕ) (now : Instant) : LimiterShard Str KeyBucket × Bool :=
  ensureByStale (keyIsStale now) maxTrackedKeys shard

def parentIsStale (now : Instant) (entry : ShortTokenSiblingEntry) : Bool :=
  decide (trackedSignatureIdle ≤ saturatingDurationSince now entry.lastSeen)

def ensureShortTokenParentShardCapacity
    (shard : LimiterShard Str ShortTokenSiblingEntry) (maxTrackedParents : ℕ)
    (now : Instant) : LimiterShard Str ShortTokenSiblingEntry × Bool :=
  ensureByStale (parentIsStale now) maxTrackedParents shard

def rateIsStale (now : Instant) (entry : IpBucket) : Bool :=
  entry.bucket.stale now trackedIpIdle

def ensureRateShardCapacity (shard : LimiterShard IpAddr IpBucket)
    (maxTrackedIps : ℕ) (now : Instant) : LimiterShard IpAddr IpBucket × Bool :=
  ensureByStale (rateIsStale now) maxTrackedIps shard

def connIsStale (now : Instant) (entry : ConnEntry) : Bool :=
  entry.active == 0 && entry.bucket.stale now trackedIpIdle

def ensureConnectionShardCapacity (shard : LimiterShard IpAddr ConnEntry)
    (maxTrackedIps : ℕ) (now : Instant) : LimiterShard IpAddr ConnEntry × Bool :=
  ensureByInactive (connIsStale now) (fun entry => entry.active == 0)
    maxTrackedIps shard

def httpConnIsStale (now : Instant) (entry : HttpConnEntry) : Bool :=
  entry.active == 0 && entry.bucket.stale now trackedIpIdle

def ensureHttpConnectionShardCapacity (shard : LimiterShard IpAddr HttpConnEntry)
    (maxTrackedIps : ℕ) (now : Instant) : LimiterShard IpAddr HttpConnEntry × Bool :=
  ensureByInactive (httpConnIsStale now) (fun entry => entry.active == 0)
    maxTrackedIps shard

/-- Unlike its siblings this test reads `last_seen` and counts the idle time
itself as stale. -/
def requestIsStale (now : Instant) (entry : RequestEntry) : Bool :=
  entry.active == 0 &&
    decide (trackedIpIdle ≤ saturatingDurationSince now entry.lastSeen)

def ensureRequestShardCapacity (shard : LimiterShard IpAddr RequestEntry)
    (maxTrackedIps : ℕ) (now : Instant) : LimiterShard IpAddr RequestEntry × Bool :=
  ensureByInactive (requestIsStale now) (fun entry => entry.active == 0)
    maxTrackedIps shard

/-! ## What making room can do -/

theorem shardCapacity_pos (m : ℕ) : 0 < shardCapacity m :=
  lt_of_lt_of_le Nat.one_pos (le_max_right _ _)

/-- For a positive maximum the capacity is the maximum shared out over the
shards, rounded up. -/
theorem shardCapacity_eq {m : ℕ} (h : 1 ≤ m) :
    shardCapacity m = max 1 ((m + 63) / 64) := by
  rw [shardCapacity, max_eq_left h, max_comm]
  rfl

section Eviction

variable {K T : Type} [DecidableEq K]

theorem reclaimed_ensureByStale (isStale : T → Bool) (m : ℕ) (q : LimiterShard K T) :
    KeyedQueue.Reclaimed isStale q (ensureByStale isStale m q).1 :=
  KeyedQueue.reclaimed_reclaim _ _ _ _

theorem size_lt_of_ensureByStale {isStale : T → Bool} {m : ℕ} {q : LimiterShard K T}
    (h : (ensureByStale isStale m q).2 = true) :
    (ensureByStale isStale m q).1.size < shardCapacity m :=
  KeyedQueue.size_lt_of_reclaim h

theorem reclaimed_ensureByInactive {isStale inactive : T → Bool}
    (h : ∀ e, isStale e = true → inactive e = true) (m : ℕ) (q : LimiterShard K T) :
    KeyedQueue.Reclaimed inactive q (ensureByInactive isStale inactive m q).1 :=
  KeyedQueue.reclaimed_reclaimTwice _ _ h _

theorem size_lt_of_ensureByInactive {isStale inactive : T → Bool} {m : ℕ}
    {q : LimiterShard K T} (h : (ensureByInactive isStale inactive m q).2 = true) :
    (ensureByInactive isStale inactive m q).1.size < shardCapacity m :=
  KeyedQueue.size_lt_of_reclaimTwice h

end Eviction

end AlturaProt.Limiter
