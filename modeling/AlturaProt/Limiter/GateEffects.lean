import AlturaProt.Limiter.Gate

/-!
# What one step of a gate changes

For each of the things later results speak about (the shape of the shards, the
entry of one key, its active count) this file says once how a step can change
it. `enter` is a visit to the caller's key, so its effects are those of the
library's visit; `Moves.effect` lists what any step can do to the entry of a
single key.
-/

namespace AlturaProt.Limiter

open Foundation

namespace Gate

variable {T : Type} (g : Gate T)

/-! ## The shard section -/

variable {k : IpAddr} {now : Instant} {q : LimiterShard IpAddr T} {s s' : Shared T} {p : Proc}
  {r : Except LimitReason Bool}

/-- Other keys of the shard keep their entries or lose an evictable one. -/
theorem get_enter_of_ne (now : Instant) {k' : IpAddr} (q : LimiterShard IpAddr T) (hne : k' ≠ k) :
    (g.enter now k q).1.get k' = q.get k' ∨
      ∃ e, q.get k' = some e ∧ g.evictable now e = true ∧ (g.enter now k q).1.get k' = none :=
  KeyedQueue.get_visit_of_ne (g.ensure_reclaimed now q) _ _ hne

/-- The caller's own key: refused for want of room, or its entry was looked
at, and the answer is the entry's. -/
theorem get_enter_self (now : Instant) (k : IpAddr) (q : LimiterShard IpAddr T) :
    (q.get k = none ∧ (g.enter now k q).1.get k = none ∧
      (g.enter now k q).2 = .error g.fullReason) ∨
    (∃ e, (q.get k = some e ∨ (q.get k = none ∧ e = g.fresh now)) ∧
      (g.enter now k q).1.get k = some (g.judge now e).1 ∧
      (g.enter now k q).2 = g.answer (some ((g.judge now e).2, (q.get k).isNone))) := by
  rcases KeyedQueue.get_visit_self (g.ensure_reclaimed now q) (g.fresh now) (g.judge now) k
    with ⟨hk, hget, hr⟩ | ⟨e, hk, hget, hr⟩
  · exact Or.inl ⟨hk, hget, congrArg g.answer hr⟩
  · exact Or.inr ⟨e, hk, hget, congrArg g.answer hr⟩

/-- An admitted caller's entry was below the cap on active permits. -/
theorem enter_ok {q' : LimiterShard IpAddr T} {inserted : Bool}
    (h : g.enter now k q = (q', .ok inserted)) :
    ∃ e, (q.get k = some e ∨ (q.get k = none ∧ e = g.fresh now)) ∧
      q'.get k = some (g.judge now e).1 ∧ (g.judge now e).2 = none ∧
      inserted = (q.get k).isNone := by
  rcases g.get_enter_self now k q with ⟨-, -, hr⟩ | ⟨e, hk, hget, hr⟩
  · rw [h] at hr
    cases hr
  · rw [h] at hget hr
    cases ha : (g.judge now e).2 with
    | some reason =>
      rw [ha] at hr
      cases hr
    | none =>
      rw [ha] at hr
      exact ⟨e, hk, hget, ha, by cases hr; rfl⟩

/-- The shard section keeps its shard in shape. -/
theorem shardOk_enter {i : Fin SHARDS} (hi : g.shardOf k = i)
    (h : ShardOk g.shardOf (shardCapacity g.maxTracked) i q) :
    ShardOk g.shardOf (shardCapacity g.maxTracked) i (g.enter now k q).1 :=
  h.visit (g.ensure_reclaimed now q) (g.ensure_room now q) _ _ hi

/-! ## The shape of the shards -/

/-- Every shard is sound, bounded, and holds only its own keys. -/
def Shaped (s : Shared T) : Prop :=
  s.shards.Placed g.shardOf (shardCapacity g.maxTracked)

variable {g}

theorem shaped_rollback (h : g.Shaped s) (k : IpAddr) (inserted : Bool) :
    g.Shaped (g.rollback s k inserted) := by
  have hs' : g.Shaped (if 0 < g.maxActive then s.setActive (s.globalActive - 1) else s) := by
    split <;> exact h
  unfold rollback
  dsimp only
  split
  · exact Shards.Placed.update hs' ((hs' (g.shardOf k)).remove k)
  · exact hs'

theorem shaped_releaseEntry (h : g.Shaped s) (k : IpAddr) (now : Instant) :
    g.Shaped (g.releaseEntry s k now) := by
  unfold releaseEntry
  split
  · rename_i e he
    exact Shards.Placed.update h
      ((h (g.shardOf k)).put _ (KeyedQueue.mem_entries_iff.mpr (by simp [he])))
  · exact h

theorem shaped_releaseGlobal (h : g.Shaped s) : g.Shaped (g.releaseGlobal s) := by
  unfold releaseGlobal
  split <;> exact h

theorem Moves.shaped {p' : Proc} (h : g.Moves s p s' p') (hs : g.Shaped s) : g.Shaped s' := by
  cases h with
  | rateOk _ => simpa [Shaped] using hs
  | rateEmpty _ => simpa [Shaped] using hs
  | spentOnly _ => simpa [Shaped] using hs
  | emptyOnly _ => simpa [Shaped] using hs
  | spent _ => simpa [Shaped] using hs
  | unspent _ => simpa [Shaped] using hs
  | refused _ he =>
    have hq := congrArg Prod.fst he ▸ g.shardOk_enter rfl (hs _)
    exact Shards.Placed.update hs hq
  | entered _ he =>
    have hq := congrArg Prod.fst he ▸ g.shardOk_enter rfl (hs _)
    exact Shards.Placed.update hs hq
  | undone => exact shaped_rollback hs _ _
  | committed he =>
    exact Shards.Placed.update hs
      ((hs _).put _ (KeyedQueue.mem_entries_iff.mpr (by simp [he])))
  | releasedGlobal => exact shaped_releaseGlobal hs
  | releasedEntry _ => exact shaped_releaseEntry hs _ _
  | full _ => exact hs
  | toShard _ => exact hs
  | toSpend _ => exact hs
  | loaded => exact hs
  | capped _ => exact hs
  | swapped _ => exact hs
  | retried => exact hs
  | missing _ => exact hs

/-! ## The entry of one key -/

/-- The entry of a key in the shard it belongs to. -/
def entry (g : Gate T) (s : Shared T) (k : IpAddr) : Option T :=
  s.shards.get g.shardOf k

@[simp] theorem entry_setLock (s : Shared T) (i : Fin SHARDS) (b : Bool) (k : IpAddr) :
    g.entry (s.setLock i b) k = g.entry s k := rfl

@[simp] theorem entry_setActive (s : Shared T) (n : ℕ) (k : IpAddr) :
    g.entry (s.setActive n) k = g.entry s k := rfl

@[simp] theorem entry_checkRate (s : Shared T) (now : Instant) (k : IpAddr) :
    g.entry (s.checkRate now).1 k = g.entry s k := by
  simp [entry]

@[simp] theorem entry_spendRate (s : Shared T) (now : Instant) (k : IpAddr) :
    g.entry (s.spendRate now).1 k = g.entry s k := by
  simp [entry]

@[simp] theorem entry_releaseGlobal (s : Shared T) (k : IpAddr) :
    g.entry (g.releaseGlobal s) k = g.entry s k := by
  unfold releaseGlobal
  split <;> rfl

theorem entry_setShard (s : Shared T) (i : Fin SHARDS) (q : LimiterShard IpAddr T) (k : IpAddr) :
    g.entry (s.setShard i q) k = if g.shardOf k = i then q.get k else g.entry s k :=
  Shards.get_update _ _ _ _ _

/-- Writing the value of `k` into its own shard changes the entry of `k` and
of no other key. -/
theorem entry_setShard_put (s : Shared T) (k : IpAddr) (v : T) (k' : IpAddr) :
    g.entry (s.setShard (g.shardOf k) ((s.shards (g.shardOf k)).put k v)) k' =
      if k' = k then some v else g.entry s k' := by
  rw [entry_setShard]
  by_cases hk : k' = k
  · subst hk
    simp
  · rw [if_neg hk, KeyedQueue.get_put_of_ne _ _ hk]
    split
    · rename_i hi
      rw [entry, Shards.get, hi]
    · rfl

theorem entry_setShard_remove (s : Shared T) (k k' : IpAddr) :
    g.entry (s.setShard (g.shardOf k) ((s.shards (g.shardOf k)).remove k)) k' =
      if k' = k then none else g.entry s k' := by
  rw [entry_setShard]
  by_cases hk : k' = k
  · subst hk
    simp
  · rw [if_neg hk, KeyedQueue.get_remove_of_ne _ hk]
    split
    · rename_i hi
      rw [entry, Shards.get, hi]
    · rfl

theorem entry_rollback (s : Shared T) (k : IpAddr) (inserted : Bool) (k' : IpAddr) :
    g.entry (g.rollback s k inserted) k' =
      if k' = k ∧ g.undoesInsert = true ∧ inserted = true then none
      else g.entry s k' := by
  have hs' : ∀ k'', g.entry
      (if 0 < g.maxActive then s.setActive (s.globalActive - 1) else s) k'' = g.entry s k'' := by
    intro k''
    split <;> rfl
  unfold rollback
  by_cases hu : (g.undoesInsert && inserted) = true
  · obtain ⟨hu1, hu2⟩ := Bool.and_eq_true_iff.mp hu
    rw [if_pos hu, entry_setShard_remove, hs' k']
    simp [hu1, hu2]
  · rw [if_neg hu, hs' k', if_neg]
    rintro ⟨-, h1, h2⟩
    exact hu (by simp [h1, h2])

theorem entry_releaseEntry (s : Shared T) (k : IpAddr) (now : Instant) (k' : IpAddr) :
    g.entry (g.releaseEntry s k now) k' =
      if k' = k then (g.entry s k).map (g.release now) else g.entry s k' := by
  unfold releaseEntry
  split
  · rename_i e he
    have hentry : g.entry s k = some e := he
    rw [entry_setShard_put, hentry]
    rfl
  · rename_i he
    have hentry : g.entry s k = none := he
    by_cases hk : k' = k
    · subst hk
      rw [if_pos rfl, hentry]
      rfl
    · rw [if_neg hk]

/-- What a step may do to the entry of a key that is not its mover's own: it
may only evict it. -/
theorem entry_enter_of_ne {k' : IpAddr} (hne : k' ≠ k)
    (h : g.enter now k (s.shards (g.shardOf k)) = (q, r)) :
    g.entry (s.setShard (g.shardOf k) q) k' = g.entry s k' ∨
      ∃ e, g.entry s k' = some e ∧ g.evictable now e = true ∧
        g.entry (s.setShard (g.shardOf k) q) k' = none := by
  rw [entry_setShard]
  split
  · rename_i hi
    have hget := g.get_enter_of_ne now (s.shards (g.shardOf k)) hne
    rw [h] at hget
    rw [entry, Shards.get, hi]
    exact hget
  · exact Or.inl rfl

theorem entry_enter_self (h : g.enter now k (s.shards (g.shardOf k)) = (q, r)) :
    (g.entry s k = none ∧ g.entry (s.setShard (g.shardOf k) q) k = none ∧ r = .error g.fullReason) ∨
    (∃ e, (g.entry s k = some e ∨ (g.entry s k = none ∧ e = g.fresh now)) ∧
      g.entry (s.setShard (g.shardOf k) q) k = some (g.judge now e).1 ∧
      r = g.answer (some ((g.judge now e).2, (g.entry s k).isNone))) := by
  have hself := g.get_enter_self now k (s.shards (g.shardOf k))
  rw [h] at hself
  rw [entry_setShard, if_pos rfl]
  exact hself

/-- What one step of a call standing at the given place can do to the entry of
`k`. -/
inductive Effect (g : Gate T) (k : IpAddr) : Proc → Option T → Option T → Prop
  | same {p o} : Effect g k p o o
  | evicted {ip now e} : g.key ip ≠ k → g.evictable now e = true →
      Effect g k (.lock ip now) (some e) none
  | looked {ip now e} : g.key ip = k →
      Effect g k (.lock ip now) (some e) (some (g.judge now e).1)
  | inserted {ip now} : g.key ip = k →
      Effect g k (.lock ip now) none (some (g.judge now (g.fresh now)).1)
  | removed {now o} : g.undoesInsert = true → Effect g k (.undo k now true) o none
  | committed {now e} : Effect g k (.commit k now) (some e) (some (g.commit now e))
  | released {now e} : Effect g k (.releasing k) (some e) (some (g.release now e))

theorem effect_enter {ip : IpAddr} (k : IpAddr)
    (h : g.enter now (g.key ip) (s.shards (g.shardOf (g.key ip))) = (q, r)) :
    g.Effect k (.lock ip now) (g.entry s k)
      (g.entry (s.setShard (g.shardOf (g.key ip)) q) k) := by
  by_cases hk : g.key ip = k
  · subst hk
    rcases entry_enter_self h with ⟨h0, h1, -⟩ | ⟨e, h0 | ⟨h0, rfl⟩, h1, -⟩
    · rw [h0, h1]
      exact .same
    · rw [h0, h1]
      exact .looked rfl
    · rw [h0, h1]
      exact .inserted rfl
  · rcases entry_enter_of_ne (Ne.symm hk) h with heq | ⟨e, h0, hev, h1⟩
    · rw [heq]
      exact .same
    · rw [h0, h1]
      exact .evicted hk hev

/-- Every step has one of the listed effects on every key's entry. -/
theorem Moves.effect {p' : Proc} (h : g.Moves s p s' p') (k : IpAddr) :
    g.Effect k p (g.entry s k) (g.entry s' k) := by
  have hsame : ∀ {s'' : Shared T}, g.entry s'' k = g.entry s k →
      g.Effect k p (g.entry s k) (g.entry s'' k) := by
    intro s'' heq
    rw [heq]
    exact .same
  cases h with
  | refused _ he => exact effect_enter k he
  | entered _ he => exact effect_enter k he
  | @undone k' now inserted =>
    rw [entry_setLock, entry_rollback]
    split
    · rename_i hu
      obtain ⟨rfl, hundo, rfl⟩ := hu
      exact .removed hundo
    · exact .same
  | @committed k' now e he =>
    rw [entry_setLock, entry_setShard_put]
    split
    · rename_i hk
      subst hk
      rw [show g.entry s k = some e from he]
      exact .committed
    · exact .same
  | @releasedEntry k' now _ =>
    rw [entry_releaseEntry]
    split
    · rename_i hk
      subst hk
      cases g.entry s k with
      | none => exact .same
      | some e => exact .released
    · exact .same
  | rateOk _ => exact hsame (entry_checkRate s _ k)
  | rateEmpty _ => exact hsame (entry_checkRate s _ k)
  | spentOnly _ => exact hsame (entry_spendRate s _ k)
  | emptyOnly _ => exact hsame (entry_spendRate s _ k)
  | spent _ => exact hsame (entry_spendRate s _ k)
  | unspent _ => exact hsame (entry_spendRate s _ k)
  | releasedGlobal => exact hsame (entry_releaseGlobal s k)
  | full _ => exact .same
  | toShard _ => exact .same
  | toSpend _ => exact .same
  | loaded => exact .same
  | capped _ => exact .same
  | swapped _ => exact .same
  | retried => exact .same
  | missing _ => exact .same

/-- Only an inactive entry can disappear. -/
theorem Effect.inactive_of_none {e : T} (h : g.Effect k p (some e) none) : g.active e = 0 := by
  cases h with
  | evicted _ hev => exact g.inactive_of_evictable _ e hev
  | removed hundo => exact g.inactive_of_undoesInsert hundo e

/-! ## Active counts -/

/-- The active count of a key, `0` when it has no entry. -/
def activeAt (g : Gate T) (s : Shared T) (k : IpAddr) : ℕ :=
  match g.entry s k with
  | some e => g.active e
  | none => 0

theorem activeAt_eq_of_entry_eq (h : g.entry s' k = g.entry s k) :
    g.activeAt s' k = g.activeAt s k := by
  rw [activeAt, activeAt, h]

/-- The shard section changes nobody's active count. -/
theorem activeAt_enter (h : g.enter now k (s.shards (g.shardOf k)) = (q, r)) (k' : IpAddr) :
    g.activeAt (s.setShard (g.shardOf k) q) k' = g.activeAt s k' := by
  by_cases hk : k' = k
  · subst hk
    rcases entry_enter_self h with ⟨h0, h1, -⟩ | ⟨e, he, h1, -⟩
    · rw [activeAt, activeAt, h0, h1]
    · rcases he with h0 | ⟨h0, rfl⟩
      · simp only [activeAt, h0, h1, g.active_judge]
      · simp only [activeAt, h0, h1, g.active_judge, g.active_fresh]
  · rcases entry_enter_of_ne hk h with heq | ⟨e, h0, hev, h1⟩
    · exact activeAt_eq_of_entry_eq heq
    · simp only [activeAt, h0, h1, g.inactive_of_evictable now e hev]

end Gate

end AlturaProt.Limiter
