import AlturaProt.Adaptive.Detector
import AlturaProt.Http.Circuit
import AlturaProt.Limiter.Denial
import AlturaProt.Limiter.KeyLimiters

/-!
# The bounded maps keep their shape

Every component that remembers clients, keys or path shapes keeps them in `64`
bounded shards. Each of them inserts through the library's visit, so the
representation invariant of each follows from what its own eviction reports.
-/

namespace AlturaProt

open Foundation Limiter

/-- The bound on one shard for a configured maximum of `m`: its share of the
maximum, rounded up, and at least one. -/
def shardShare (m : ℕ) : ℕ := max 1 ((m + 63) / 64)

theorem shardCapacity_eq_shardShare {m : ℕ} (h : 1 ≤ m) :
    shardCapacity (max m 1) = shardShare m := by
  rw [max_eq_left h]
  exact shardCapacity_eq h

/-! ## The limiters -/

namespace Limiter

namespace Gate

variable {T : Type} {g : Gate T}

theorem shaped_of_run {b : Option TokenBucket} {s : Sys (Shared T) Proc}
    {tr : List (Turn (Shared T) Proc)} (h : g.program.Run ⟨Shared.idle b, []⟩ tr s) :
    g.Shaped s.shared :=
  h.invariant (I := fun s => g.Shaped s.shared) (Shards.placed_empty _ _)
    (fun _ _ hs => hs) (fun _ _ _ _ _ _ hs _ hst => (g.moves_of_step hst).shaped hs)

end Gate

namespace AdmissionLimiter

/-- The configured maximum of tracked addresses. -/
def maxTrackedIps : AdmissionLimiter → ℕ
  | permits (.connection cfg) => cfg.maxTrackedIps
  | permits (.httpConnection cfg) => cfg.maxTrackedIps
  | permits (.requestConcurrency cfg) => cfg.maxTrackedIps
  | permits (.trustedProxyRequests cfg) => cfg.maxTrackedIps
  | requestRate cfg => cfg.maxTrackedIps
  | trustedProxyRate cfg => cfg.maxTrackedIps

theorem gate_maxTracked (hash : IpAddr → ℕ) (l : AdmissionLimiter) :
    (l.gate hash).maxTracked = max l.maxTrackedIps 1 := by
  match l with
  | permits (.connection _) => rfl
  | permits (.httpConnection _) => rfl
  | permits (.requestConcurrency _) => rfl
  | permits (.trustedProxyRequests _) => rfl
  | requestRate _ => rfl
  | trustedProxyRate _ => rfl

theorem gate_shardOf (hash : IpAddr → ℕ) (l : AdmissionLimiter) :
    (l.gate hash).shardOf = hashedShard hash := by
  match l with
  | permits (.connection _) => rfl
  | permits (.httpConnection _) => rfl
  | permits (.requestConcurrency _) => rfl
  | permits (.trustedProxyRequests _) => rfl
  | requestRate _ => rfl
  | trustedProxyRate _ => rfl

end AdmissionLimiter

section Keyed

variable {hash : Str → ℕ}

theorem KeyRateLimiter.placed_check (l : KeyRateLimiter) {shards : KeyShards KeyBucket}
    (h : shards.Placed (hashedShard hash) (shardCapacity l.maxTrackedKeys)) (key : Str)
    (now : Instant) :
    (l.check hash shards key now).1.Placed (hashedShard hash)
      (shardCapacity l.maxTrackedKeys) := by
  unfold check
  split
  · exact h
  · exact h.visit (fun q => reclaimed_ensureByStale _ _ q)
      (fun q => size_lt_of_ensureByStale) _ _ key

theorem ShortTokenSiblingRateLimiter.placed_check (l : ShortTokenSiblingRateLimiter)
    {shards : KeyShards ShortTokenSiblingEntry}
    (h : shards.Placed (hashedShard hash) (shardCapacity l.maxTrackedParents))
    (parentShape token : Str) (now : Instant) :
    (l.check hash shards parentShape token now).1.Placed (hashedShard hash)
      (shardCapacity l.maxTrackedParents) := by
  unfold check
  split
  · exact h
  · exact h.visit (fun q => reclaimed_ensureByStale _ _ q)
      (fun q => size_lt_of_ensureByStale) _ _ parentShape

end Keyed

end Limiter

/-! ## All of them -/

/-- **Representation invariant.** In every reachable state of every component
with a sharded map, each shard's queue lists the keys of its entries exactly
once, the shard holds at most its share of the configured maximum, and every
key is in the shard its hash selects. For the admission limiters this holds at
every point of every interleaving. -/
theorem sharded_maps_placed :
    (∀ (l : AdmissionLimiter) (hash : IpAddr → ℕ) (now : Instant) tr s,
      1 ≤ l.maxTrackedIps → l.Run hash now tr s →
      s.shared.shards.Placed (hashedShard hash) (shardShare l.maxTrackedIps)) ∧
    (∀ (rps : ℚ) (burst m : ℕ) (hash : Str → ℕ) (calls : List (Str × Instant)), 1 ≤ m →
      (calls.foldl (fun s c => ((KeyRateLimiter.new rps burst m).check hash s c.1 c.2).1)
        Shards.empty).Placed (hashedShard hash) (shardShare m)) ∧
    (∀ (cfg : HttpLimitConfig) (hash : Str → ℕ)
      (calls : List (Str × Str × Instant)), 1 ≤ cfg.maxTrackedPathShapes →
      (calls.foldl (fun s c =>
        ((ShortTokenSiblingRateLimiter.new cfg).check hash s c.1 c.2.1 c.2.2).1)
        Shards.empty).Placed (hashedShard hash) (shardShare cfg.maxTrackedPathShapes)) ∧
    (∀ (cfg : Adaptive.AdaptiveDetectorConfig) (hash : Str → ℕ)
      (ops : List Adaptive.AdaptiveDetector.Op), 1 ≤ cfg.maxSignatureWindows →
      1 ≤ cfg.maxPathShapeWindows →
      let s := ops.foldl ((Adaptive.AdaptiveDetector.new cfg).step hash) .new
      s.windows.Placed (hashedShard hash) (shardShare cfg.maxSignatureWindows) ∧
      s.shapeWindows.Placed (hashedShard hash) (shardShare cfg.maxPathShapeWindows)) ∧
    (∀ (threshold openMs m : ℕ) (hash : Str → ℕ)
      (ops : List Http.UpstreamFailureCircuitBreaker.Op), 1 ≤ m →
      (ops.foldl ((Http.UpstreamFailureCircuitBreaker.new threshold openMs m).step hash)
        Shards.empty).Placed (hashedShard hash) (shardShare m)) := by
  refine ⟨?_, ?_, ?_, ?_, ?_⟩
  · intro l hash now tr s hm h
    unfold AdmissionLimiter.Run at h
    obtain ⟨b, hb⟩ := AdmissionLimiter.init_eq_idle now l
    rw [hb] at h
    have hshaped := Gate.shaped_of_run h
    rw [Gate.Shaped, l.gate_shardOf, l.gate_maxTracked, shardCapacity_eq_shardShare hm]
      at hshaped
    exact hshaped
  · intro rps burst m hash calls hm
    rw [← shardCapacity_eq_shardShare hm]
    exact List.foldlRecOn calls _ (Shards.placed_empty _ _)
      (fun _ h c _ => (KeyRateLimiter.new rps burst m).placed_check h c.1 c.2)
  · intro cfg hash calls hm
    rw [← shardCapacity_eq_shardShare hm]
    exact List.foldlRecOn calls _ (Shards.placed_empty _ _)
      (fun _ h c _ => (ShortTokenSiblingRateLimiter.new cfg).placed_check h c.1 c.2.1 c.2.2)
  · intro cfg hash ops hsig hshape
    have hshaped := (Adaptive.AdaptiveDetector.new cfg).shaped_run hash ops
    rw [← shardCapacity_eq_shardShare hsig, ← shardCapacity_eq_shardShare hshape]
    simpa [Adaptive.AdaptiveDetector.Shaped, Adaptive.AdaptiveDetector.new,
      Adaptive.adaptiveShardCapacity, shardCapacity] using hshaped
  · intro threshold openMs m hash ops hm
    have hplaced := (Http.UpstreamFailureCircuitBreaker.new threshold openMs m).placed_run
      hash ops
    rw [← shardCapacity_eq_shardShare hm]
    simpa [Http.UpstreamFailureCircuitBreaker.new, shardCapacity] using hplaced

/-- A limiter just built, a key limiter after two calls, a breaker after a
failure. -/
theorem sharded_maps_placed_small :
    ((AdmissionLimiter.requestRate {}).init 0).shards.Placed (hashedShard (fun _ => 0))
      (shardShare 65536) ∧
    ([(utf8 "a", (0 : Instant)), (utf8 "b", 0)].foldl
      (fun s c => ((KeyRateLimiter.new 1 1 1).check (fun _ => 0) s c.1 c.2).1)
      Shards.empty).Placed (hashedShard (fun _ => 0)) (shardShare 1) ∧
    ([Http.UpstreamFailureCircuitBreaker.Op.failure (utf8 "/") 5].foldl
      ((Http.UpstreamFailureCircuitBreaker.new 1 1000 1).step (fun _ => 0))
      Shards.empty).Placed (hashedShard (fun _ => 0)) (shardShare 1) := by
  refine ⟨?_, ?_, ?_⟩
  · exact sharded_maps_placed.1 (.requestRate {}) (fun _ => 0) 0 [] _ (by decide) .refl
  · exact sharded_maps_placed.2.1 1 1 1 (fun _ => 0) [(utf8 "a", 0), (utf8 "b", 0)] le_rfl
  · exact sharded_maps_placed.2.2.2.2 1 1000 1 (fun _ => 0) [.failure (utf8 "/") 5] le_rfl

end AlturaProt
