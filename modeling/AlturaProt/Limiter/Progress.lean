import AlturaProt.Foundation.ScanProgress
import AlturaProt.Limiter.Shards

/-!
# Progress of the permit limiters' eviction

A permit limiter with a full shard looks at up to `32` keys for a stale entry
and at up to `32` more for an inactive one, and refuses the new key if it finds
neither. The next attempt goes on where this one stopped. Whether the attempts
come to an inactive entry that is not stale yet depends on where it stands: the
second scan of every attempt must pass it, and in a shard whose size is a
multiple of `64` the scans fall into step with the queue.
-/

namespace AlturaProt.Limiter

open Foundation

section Calls

variable {T : Type}

/-- One of the first `n` calls on a shard of `n` entries makes room. -/
def RoomWithinSize (ensure : LimiterShard IpAddr T → LimiterShard IpAddr T × Bool)
    (shard : LimiterShard IpAddr T) : Prop :=
  ∃ j < shard.size, (ensure (afterCalls ensure shard j)).2 = true

/-- The size is no multiple of two scans, or an inactive entry is stale or
stands in the second half of a block of two scans. -/
def ReachableInactive (isStale : T → Bool) (active : T → ℕ)
    (shard : LimiterShard IpAddr T) : Prop :=
  ¬ 64 ∣ shard.size ∨ ∃ i k e, shard.order[i]? = some k ∧ shard.get k = some e ∧
    active e = 0 ∧ (isStale e = true ∨ 32 ≤ i % 64)

variable {isStale : T → Bool} {active : T → ℕ} {shard : LimiterShard IpAddr T} {m : ℕ}

/-- The library's exposed positions, in the limiters' own terms. -/
theorem exposed_iff_reachableInactive (hshard : shard.Sound)
    (hfull : shard.size = shardCapacity m) :
    KeyedQueue.Exposed (shardCapacity m) EVICTION_SCAN_LIMIT isStale
      (fun e => active e == 0) shard ↔ ReachableInactive isStale active shard := by
  unfold KeyedQueue.Exposed ReachableInactive
  rw [← hfull]
  refine or_congr Iff.rfl ?_
  constructor
  · rintro ⟨i, -, ⟨k, e, hk, he, hactive⟩, hreach⟩
    refine ⟨i, k, e, hk, he, by simpa using hactive, ?_⟩
    rcases hreach with ⟨k', e', hk', he', hstale⟩ | hhalf
    · obtain rfl : k = k' := Option.some.inj (hk.symm.trans hk')
      obtain rfl : e = e' := Option.some.inj (he.symm.trans he')
      exact Or.inl hstale
    · exact Or.inr hhalf
  · rintro ⟨i, k, e, hk, he, hactive, hreach⟩
    have hi : i < shard.size := by
      rw [hshard.size_eq_length]
      exact (List.getElem?_eq_some_iff.mp hk).1
    refine ⟨i, hi, ⟨k, e, hk, he, by simpa using hactive⟩, ?_⟩
    rcases hreach with hstale | hhalf
    · exact Or.inl ⟨k, e, hk, he, hstale⟩
    · exact Or.inr hhalf

/-- Both scans of a permit limiter, over any kind of entry. -/
theorem roomWithinSize_iff (hstale : ∀ e, isStale e = true → active e = 0)
    (hshard : shard.Sound) (hfull : shard.size = shardCapacity m)
    (hinactive : ∃ k e, shard.get k = some e ∧ active e = 0) :
    RoomWithinSize (ensureByInactive isStale (fun e => active e == 0) m) shard ↔
      ReachableInactive isStale active shard := by
  rw [← exposed_iff_reachableInactive hshard hfull, RoomWithinSize, hfull]
  obtain ⟨k, e, he, hactive⟩ := hinactive
  exact KeyedQueue.exists_call_iff_exposed hshard hfull (by decide)
    (fun e h => by simpa using hstale e h) ⟨k, e, he, by simpa using hactive⟩

end Calls

/-- The stale test of each permit limiter asks for inactivity first. -/
theorem active_of_stale {active : ℕ} {idle : Bool} (h : (active == 0 && idle) = true) :
    active = 0 := by
  rw [Bool.and_eq_true, beq_iff_eq] at h
  exact h.1

/-- **When a full shard makes room.** For a full shard of a permit limiter with
an inactive entry, one of as many calls as it has entries makes room exactly
when an inactive entry can be reached. -/
theorem eviction_progress_iff (m : ℕ) (now : Instant) :
    (∀ shard : LimiterShard IpAddr ConnEntry, shard.Sound → shard.size = shardCapacity m →
      (∃ k e, shard.get k = some e ∧ e.active = 0) →
      (RoomWithinSize (fun s => ensureConnectionShardCapacity s m now) shard ↔
        ReachableInactive (connIsStale now) ConnEntry.active shard)) ∧
    (∀ shard : LimiterShard IpAddr HttpConnEntry, shard.Sound →
      shard.size = shardCapacity m →
      (∃ k e, shard.get k = some e ∧ e.active = 0) →
      (RoomWithinSize (fun s => ensureHttpConnectionShardCapacity s m now) shard ↔
        ReachableInactive (httpConnIsStale now) HttpConnEntry.active shard)) ∧
    (∀ shard : LimiterShard IpAddr RequestEntry, shard.Sound →
      shard.size = shardCapacity m →
      (∃ k e, shard.get k = some e ∧ e.active = 0) →
      (RoomWithinSize (fun s => ensureRequestShardCapacity s m now) shard ↔
        ReachableInactive (requestIsStale now) RequestEntry.active shard)) := by
  refine ⟨?_, ?_, ?_⟩
  · intro shard hshard hfull hinactive
    exact roomWithinSize_iff (fun _ h => active_of_stale h) hshard hfull hinactive
  · intro shard hshard hfull hinactive
    exact roomWithinSize_iff (fun _ h => active_of_stale h) hshard hfull hinactive
  · intro shard hshard hfull hinactive
    exact roomWithinSize_iff (fun _ h => active_of_stale h) hshard hfull hinactive

/-- A shard of `n` addresses with one connection each, the first of them closed
again, all buckets refilled at time `0`. -/
def firstClosed (n : ℕ) : LimiterShard IpAddr ConnEntry :=
  (List.range n).foldl (fun shard i =>
    shard.push (.v4 (BitVec.ofNat 32 i)) ⟨TokenBucket.new 1 1 0, min i 1, 0⟩) KeyedQueue.empty

/-- Thirty-three entries are no multiple of two scans: the closed connection at
the head goes. -/
theorem eviction_progress_iff_odd_size :
    RoomWithinSize (fun s => ensureConnectionShardCapacity s 2112 0) (firstClosed 33) :=
  ((eviction_progress_iff 2112 0).1 (firstClosed 33) (by decide +kernel) (by decide +kernel)
    ⟨.v4 0, ⟨TokenBucket.new 1 1 0, 0, 0⟩, by decide +kernel, rfl⟩).mpr
    (Or.inl (by decide +kernel))

/-- Sixty-four entries with only the head closed: the stale scan passes it, the
inactive scan never does, and every new address is refused for ever. -/
theorem closed_connection_never_evicted :
    (firstClosed 64).Sound ∧ (firstClosed 64).size = shardCapacity 4096 ∧
    (∃ k e, (firstClosed 64).get k = some e ∧ e.active = 0) ∧
    ∀ j, (ensureConnectionShardCapacity
      (afterCalls (fun s => ensureConnectionShardCapacity s 4096 0) (firstClosed 64) j)
      4096 0).2 = false := by
  have hsound : (firstClosed 64).Sound := by decide +kernel
  have hfull : (firstClosed 64).size = shardCapacity 4096 := by decide +kernel
  refine ⟨hsound, hfull,
    ⟨.v4 0, ⟨TokenBucket.new 1 1 0, 0, 0⟩, by decide +kernel, rfl⟩, fun j => ?_⟩
  apply Bool.eq_false_of_not_eq_true
  intro hcall
  have hexposed : KeyedQueue.Exposed (shardCapacity 4096) EVICTION_SCAN_LIMIT (connIsStale 0)
      (fun e => e.active == 0) (firstClosed 64) :=
    KeyedQueue.exposed_of_call hsound hfull (shardCapacity_pos _)
      (fun e h => by simpa using active_of_stale h) hcall
  exact absurd hexposed (by decide +kernel)

end AlturaProt.Limiter
