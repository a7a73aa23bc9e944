import AlturaProt.Limiter.Shards

/-!
# The upstream failure circuit breaker

`UpstreamFailureCircuitBreaker` of `src/http_proxy.rs`: per path shape, a run of
failures opens the circuit for a while. Times are milliseconds since the
breaker was built; additions saturate at the largest `u64`. A shape is tracked
from its first failure on, and an entry may go as soon as its circuit is not
open.
-/

namespace AlturaProt.Http

open Foundation Limiter

def UPSTREAM_CIRCUIT_EVICTION_SCAN_LIMIT : ℕ := 32

structure UpstreamFailureCircuitEntry where
  consecutiveFailures : ℕ
  openUntilMs : ℕ
deriving DecidableEq

abbrev CircuitShards : Type := Shards SHARDS Str UpstreamFailureCircuitEntry

structure UpstreamFailureCircuitBreaker where
  threshold : ℕ
  openMs : ℕ
  shardCapacity : ℕ

namespace UpstreamFailureCircuitBreaker

def new (threshold openMs maxPathShapes : ℕ) : UpstreamFailureCircuitBreaker where
  threshold := threshold
  openMs := openMs
  shardCapacity := max ((max maxPathShapes 1 + (SHARDS - 1)) / SHARDS) 1

variable (c : UpstreamFailureCircuitBreaker) (hash : Str → ℕ)

def isOpen (shards : CircuitShards) (pathShape : Str) (nowMs : ℕ) : Bool :=
  if c.threshold = 0 then false
  else (shards.get (hashedShard hash) pathShape).any (fun e => decide (nowMs < e.openUntilMs))

/-- Only an entry that exists is reset; a success never inserts one. -/
def recordSuccess (shards : CircuitShards) (pathShape : Str) : CircuitShards :=
  match shards.get (hashedShard hash) pathShape with
  | some _ =>
    Function.update shards (hashedShard hash pathShape)
      ((shards (hashedShard hash pathShape)).put pathShape
        { consecutiveFailures := 0, openUntilMs := 0 })
  | none => shards

def ensureUpstreamCircuitShardCapacity (capacity nowMs : ℕ)
    (shard : KeyedQueue Str UpstreamFailureCircuitEntry) :
    KeyedQueue Str UpstreamFailureCircuitEntry × Bool :=
  shard.reclaim capacity UPSTREAM_CIRCUIT_EVICTION_SCAN_LIMIT
    (fun entry => decide (entry.openUntilMs ≤ nowMs))

/-- Count a failure; the one that reaches the threshold opens the circuit and
starts the count again. -/
def fail (nowMs : ℕ) (entry : UpstreamFailureCircuitEntry) : UpstreamFailureCircuitEntry :=
  let failures := min (entry.consecutiveFailures + 1) (2 ^ 32 - 1)
  if c.threshold ≤ failures then
    { consecutiveFailures := 0, openUntilMs := min (nowMs + c.openMs) (2 ^ 64 - 1) }
  else { entry with consecutiveFailures := failures }

def recordFailure (shards : CircuitShards) (pathShape : Str) (nowMs : ℕ) :
    CircuitShards :=
  if c.threshold = 0 then shards
  else
    (shards.visit (hashedShard hash) (ensureUpstreamCircuitShardCapacity c.shardCapacity nowMs)
      { consecutiveFailures := 0, openUntilMs := 0 }
      (fun entry => (c.fail nowMs entry, ())) pathShape).1

/-- The operations that can change the breaker. -/
inductive Op where
  | success (pathShape : Str)
  | failure (pathShape : Str) (nowMs : ℕ)

def step (shards : CircuitShards) : Op → CircuitShards
  | .success pathShape => recordSuccess hash shards pathShape
  | .failure pathShape nowMs => c.recordFailure hash shards pathShape nowMs

/-! ## The shape of the map -/

variable {c hash} {shards : CircuitShards}

theorem placed_step (h : shards.Placed (hashedShard hash) c.shardCapacity) (op : Op) :
    (c.step hash shards op).Placed (hashedShard hash) c.shardCapacity := by
  cases op with
  | success pathShape =>
    simp only [step, recordSuccess]
    split
    · rename_i e he
      have hmem : pathShape ∈ (shards (hashedShard hash pathShape)).entries :=
        KeyedQueue.mem_entries_iff.mpr (Option.isSome_iff_exists.mpr ⟨e, he⟩)
      exact h.update ((h _).put _ hmem)
    · exact h
  | failure pathShape nowMs =>
    simp only [step, recordFailure]
    split
    · exact h
    · refine h.visit (fun q => KeyedQueue.reclaimed_reclaim _ _ _ q) ?_ _ _ pathShape
      exact fun q => KeyedQueue.size_lt_of_reclaim

theorem placed_run (c : UpstreamFailureCircuitBreaker) (hash : Str → ℕ) (ops : List Op) :
    (ops.foldl (c.step hash) Shards.empty).Placed (hashedShard hash) c.shardCapacity :=
  List.foldlRecOn ops (c.step hash) (Shards.placed_empty _ _)
    (fun _ h op _ => placed_step h op)

end UpstreamFailureCircuitBreaker

end AlturaProt.Http
