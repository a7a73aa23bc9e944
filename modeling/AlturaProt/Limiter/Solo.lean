import AlturaProt.Limiter.GateEffects

/-!
# A call on its own

`Gate.call` runs a call from its first line to its return; `Gate.program` cuts
the same call into atomic steps. `solo_call` says that the steps of a call that
nobody interrupts do what `Gate.call` does, and `exists_run_call` puts them
into a run. The only thing to show is that the shard lock, taken on the way in,
is given back on every way out and disturbs nothing in between.

`call_net` then says what such a call does to the entry of any one key: the
insertion a failed call takes back is not seen from outside.
-/

namespace AlturaProt.Limiter

open Foundation

namespace Shared

variable {T : Type} {s : Shared T} {i : Fin SHARDS}

theorem setLock_setLock (h : s.locked i = false) :
    (s.setLock i true).setLock i false = s := by
  have hlocked : Function.update (Function.update s.locked i true) i false = s.locked := by
    rw [Function.update_idem, ← h, Function.update_eq_self]
  unfold setLock
  rw [hlocked]

theorem spendRate_setLock (b : Bool) (now : Instant) :
    (s.setLock i b).spendRate now = ((s.spendRate now).1.setLock i b, (s.spendRate now).2) := by
  unfold spendRate setLock
  dsimp only
  split <;> rfl

end Shared

namespace Gate

variable {T : Type} {g : Gate T}

/-- Where a call stands after it has returned. -/
def Settles (g : Gate T) : Except LimitReason IpAddr → Proc → Prop
  | .ok k, p => p = g.granted k ∨ (g.perKey = false ∧ p = .passed)
  | .error reason, p => p = .failed reason

theorem rollback_setLock (s : Shared T) (i : Fin SHARDS) (b : Bool) (k : IpAddr) (inserted : Bool) :
    g.rollback (s.setLock i b) k inserted = (g.rollback s k inserted).setLock i b := by
  unfold rollback
  split <;> split <;> rfl

/-- The scheduler interferes with nothing. -/
def quiet (now : Instant) : Choice := ⟨false, now⟩

theorem solo_finish (s : Shared T) (k : IpAddr) (now : Instant) (inserted : Bool)
    (hfree : s.locked (g.shardOf k) = false) :
    ∃ p', g.program.Solo (s.setLock (g.shardOf k) true) (.spend k now inserted)
        (g.finish s k now inserted).1 p' ∧ g.Settles (g.finish s k now inserted).2 p' := by
  have hspent : (s.spendRate now).1.locked (g.shardOf k) = false := by
    rw [Shared.spendRate_locked]
    exact hfree
  have hstep : g.step (s.setLock (g.shardOf k) true) (.spend k now inserted) (quiet now) =
      some ((s.spendRate now).1.setLock (g.shardOf k) true,
        if (s.spendRate now).2 then .commit k now else .undo k now inserted) := by
    simp only [step, Shared.spendRate_setLock]
  cases hr : (s.spendRate now).2 with
  | false =>
    rw [hr] at hstep
    have hundo : g.step ((s.spendRate now).1.setLock (g.shardOf k) true)
        (.undo k now inserted) (quiet now) =
        some (g.rollback (s.spendRate now).1 k inserted, .failed .globalRate) := by
      have hfree' : (g.rollback (s.spendRate now).1 k inserted).locked (g.shardOf k) = false := by
        rw [rollback_locked]
        exact hspent
      simp only [step, rollback_setLock, Shared.setLock_setLock hfree']
    refine ⟨.failed .globalRate, .step (quiet now) hstep (.step (quiet now) hundo ?_), ?_⟩
    · rw [finish, if_pos hr]
      exact .refl
    · rw [finish, if_pos hr]
      rfl
  | true =>
    rw [hr] at hstep
    cases he : (s.shards (g.shardOf k)).get k with
    | none =>
      have hmiss : g.step ((s.spendRate now).1.setLock (g.shardOf k) true)
          (.commit k now) (quiet now) =
          some ((s.spendRate now).1, .failed .perIpRate) := by
        simp only [step, Shared.setLock_shards, Shared.spendRate_shards, he,
          Shared.setLock_setLock hspent]
      have hfin : g.finish s k now inserted =
          ((s.spendRate now).1, .error .perIpRate) := by
        simp [finish, hr, he]
      rw [hfin]
      exact ⟨.failed .perIpRate, .step (quiet now) hstep (.step (quiet now) hmiss .refl), rfl⟩
    | some e =>
      have hcommit : g.step ((s.spendRate now).1.setLock (g.shardOf k) true)
          (.commit k now) (quiet now) =
          some ((s.spendRate now).1.setShard (g.shardOf k)
            ((s.shards (g.shardOf k)).put k (g.commit now e)),
            g.granted k) := by
        have hfree' : ((s.spendRate now).1.setShard (g.shardOf k)
            ((s.shards (g.shardOf k)).put k (g.commit now e))).locked
              (g.shardOf k) = false := hspent
        simp only [step, Shared.setLock_shards, Shared.spendRate_shards, he]
        exact congrArg (fun x => some (x, g.granted k)) (Shared.setLock_setLock hfree')
      have hfin : g.finish s k now inserted =
          ((s.spendRate now).1.setShard (g.shardOf k)
            ((s.shards (g.shardOf k)).put k (g.commit now e)), .ok k) := by
        simp [finish, hr, he]
      rw [hfin]
      exact ⟨g.granted k, .step (quiet now) hstep (.step (quiet now) hcommit .refl), Or.inl rfl⟩

theorem solo_reserve (s : Shared T) (k : IpAddr) (now : Instant) (inserted : Bool)
    (hfree : s.locked (g.shardOf k) = false) :
    ∃ p', g.program.Solo (s.setLock (g.shardOf k) true) (g.afterShard k now inserted)
        (g.reserve s k now inserted).1 p' ∧ g.Settles (g.reserve s k now inserted).2 p' := by
  by_cases hmax : 0 < g.maxActive
  · -- with a global cap: load, then compare and exchange once
    have hload : g.step (s.setLock (g.shardOf k) true) (.reserve k now inserted) (quiet now) =
        some (s.setLock (g.shardOf k) true, .cas k now inserted s.globalActive) := rfl
    rw [afterShard, if_pos hmax]
    by_cases hsat : g.maxActive ≤ s.globalActive
    · have hcas : g.step (s.setLock (g.shardOf k) true) (.cas k now inserted s.globalActive)
          (quiet now) = some (s, .failed .globalConnections) := by
        simp only [step, if_pos hsat, Shared.setLock_setLock hfree]
      rw [reserve, if_pos ⟨hmax, hsat⟩]
      exact ⟨.failed .globalConnections,
        .step (quiet now) hload (.step (quiet now) hcas .refl), rfl⟩
    · have hcas : g.step (s.setLock (g.shardOf k) true) (.cas k now inserted s.globalActive)
          (quiet now) = some ((s.setActive (s.globalActive + 1)).setLock (g.shardOf k) true,
            .spend k now inserted) := by
        have hswap : (s.setLock (g.shardOf k) true).globalActive = s.globalActive ∧
            (quiet now).spurious = false := ⟨rfl, rfl⟩
        simp only [step, if_neg hsat, if_pos hswap]
        rfl
      obtain ⟨p', hsolo, hset⟩ :=
        solo_finish (s.setActive (s.globalActive + 1)) k now inserted hfree
      rw [reserve, if_neg (fun h => hsat h.2), if_pos hmax]
      exact ⟨p', .step (quiet now) hload (.step (quiet now) hcas hsolo), hset⟩
  · rw [afterShard, if_neg hmax, reserve, if_neg (fun h => hmax h.1), if_neg hmax]
    exact solo_finish s k now inserted hfree

/-- **A call nobody interrupts.** Its atomic steps do what `call` does. -/
theorem solo_call {s : Shared T} {ip : IpAddr} {now : Instant}
    (hfree : s.locked (g.shardOf (g.key ip)) = false) :
    ∃ p', g.program.Solo s (.start ip now) (g.call s ip now).1 p' ∧
      g.Settles (g.call s ip now).2 p' := by
  have hstart : g.step s (.start ip now) (quiet now) = some ((s.checkRate now).1,
      if (s.checkRate now).2 then .load ip now else .failed .globalRate) := rfl
  have hload : g.step (s.checkRate now).1 (.load ip now) (quiet now) =
      some ((s.checkRate now).1,
        if g.saturated s.globalActive then .failed .globalConnections
        else if g.perKey then .lock ip now else .spendOnly now) := by
    simp only [step, Shared.checkRate_globalActive]
  unfold call
  dsimp only
  rw [Shared.checkRate_globalActive, Shared.checkRate_shards]
  cases hr : (s.checkRate now).2 with
  | false =>
    rw [hr] at hstart
    exact ⟨.failed .globalRate, .step (quiet now) hstart .refl, rfl⟩
  | true =>
    rw [hr] at hstart
    by_cases hsat : g.saturated s.globalActive
    · rw [if_pos hsat] at hload ⊢
      exact ⟨.failed .globalConnections,
        .step (quiet now) hstart (.step (quiet now) hload .refl), rfl⟩
    · rw [if_neg hsat] at hload ⊢
      cases hkey : g.perKey with
      | false =>
        rw [hkey] at hload
        have hspend : g.step (s.checkRate now).1 (.spendOnly now) (quiet now) =
            some (((s.checkRate now).1.spendRate now).1,
              if ((s.checkRate now).1.spendRate now).2 then .passed
              else .failed .globalRate) := rfl
        refine ⟨_, .step (quiet now) hstart
          (.step (quiet now) hload (.step (quiet now) hspend .refl)), ?_⟩
        cases ((s.checkRate now).1.spendRate now).2 with
        | true => exact Or.inr ⟨hkey, rfl⟩
        | false => rfl
      | true =>
        rw [hkey] at hload
        have hfree' : (s.checkRate now).1.locked (g.shardOf (g.key ip)) = false := by
          rw [Shared.checkRate_locked]
          exact hfree
        rcases he : g.enter now (g.key ip) (s.shards (g.shardOf (g.key ip)))
          with ⟨q, reason | inserted⟩
        · have hlock : g.step (s.checkRate now).1 (.lock ip now) (quiet now) =
              some ((s.checkRate now).1.setShard (g.shardOf (g.key ip)) q, .failed reason) := by
            simp only [step, hfree', Shared.checkRate_shards, he]
            rfl
          exact ⟨.failed reason,
            .step (quiet now) hstart
              (.step (quiet now) hload (.step (quiet now) hlock .refl)), rfl⟩
        · have hlock : g.step (s.checkRate now).1 (.lock ip now) (quiet now) =
              some (((s.checkRate now).1.setShard (g.shardOf (g.key ip)) q).setLock
                (g.shardOf (g.key ip)) true, g.afterShard (g.key ip) now inserted) := by
            simp only [step, hfree', Shared.checkRate_shards, he]
            rfl
          obtain ⟨p', hsolo, hset⟩ := solo_reserve
            ((s.checkRate now).1.setShard (g.shardOf (g.key ip)) q) (g.key ip) now
            inserted hfree'
          exact ⟨p', .step (quiet now) hstart
            (.step (quiet now) hload (.step (quiet now) hlock hsolo)), hset⟩

/-! ## A call gives back its lock -/

theorem finish_locked (s : Shared T) (k : IpAddr) (now : Instant) (inserted : Bool) :
    (g.finish s k now inserted).1.locked = s.locked := by
  unfold finish
  dsimp only
  split
  · rw [rollback_locked, Shared.spendRate_locked]
  · split
    · exact Shared.spendRate_locked s now
    · exact Shared.spendRate_locked s now

theorem reserve_locked (s : Shared T) (k : IpAddr) (now : Instant) (inserted : Bool) :
    (g.reserve s k now inserted).1.locked = s.locked := by
  unfold reserve
  split
  · rfl
  · split
    · exact finish_locked _ k now inserted
    · exact finish_locked s k now inserted

/-- The ways a call on its own can go: a refusal by the global gates, a
withdrawal without entries, a refusal in the shard, or the reservation. -/
theorem call_cases (g : Gate T) (s : Shared T) (ip : IpAddr) (now : Instant) :
    (∃ reason, g.call s ip now = ((s.checkRate now).1, .error reason)) ∨
    (g.perKey = false ∧ g.call s ip now = (((s.checkRate now).1.spendRate now).1,
      if ((s.checkRate now).1.spendRate now).2 then .ok (g.key ip) else .error .globalRate)) ∨
    (∃ q reason, g.perKey = true ∧
      g.enter now (g.key ip) ((s.checkRate now).1.shards (g.shardOf (g.key ip))) =
        (q, .error reason) ∧
      g.call s ip now = ((s.checkRate now).1.setShard (g.shardOf (g.key ip)) q, .error reason)) ∨
    ∃ q inserted, g.perKey = true ∧
      g.enter now (g.key ip) ((s.checkRate now).1.shards (g.shardOf (g.key ip))) =
        (q, .ok inserted) ∧
      g.call s ip now = g.reserve ((s.checkRate now).1.setShard (g.shardOf (g.key ip)) q)
        (g.key ip) now inserted := by
  by_cases hr : (s.checkRate now).2 = false
  · exact Or.inl ⟨.globalRate, by simp only [call, hr, if_true]⟩
  by_cases hsat : g.saturated (s.checkRate now).1.globalActive
  · exact Or.inl ⟨.globalConnections, by simp only [call, if_neg hr, if_pos hsat]⟩
  right
  cases hkey : g.perKey with
  | false => exact Or.inl ⟨rfl, by simp only [call, if_neg hr, if_neg hsat, if_pos hkey]⟩
  | true =>
    right
    rcases he : g.enter now (g.key ip) ((s.checkRate now).1.shards (g.shardOf (g.key ip)))
      with ⟨q, reason | inserted⟩
    · refine Or.inl ⟨q, reason, rfl, rfl, ?_⟩
      simp only [call, hr, hsat, hkey, he, if_false, Bool.true_eq_false]
    · refine Or.inr ⟨q, inserted, rfl, rfl, ?_⟩
      simp only [call, hr, hsat, hkey, he, if_false, Bool.true_eq_false]

theorem call_locked (s : Shared T) (ip : IpAddr) (now : Instant) :
    (g.call s ip now).1.locked = s.locked := by
  have hcheck := Shared.checkRate_locked s now
  rcases g.call_cases s ip now with ⟨_, h⟩ | ⟨-, h⟩ | ⟨_, _, -, -, h⟩ | ⟨_, _, -, -, h⟩
  · rw [h]
    exact hcheck
  · rw [h]
    exact (Shared.spendRate_locked _ now).trans hcheck
  · rw [h]
    exact hcheck
  · rw [h]
    exact (reserve_locked _ _ _ _).trans hcheck

/-- A call on its own, started in any run whose caller's shard is free. -/
theorem exists_run_call {s₀ : Sys (Shared T) Proc} {sh : Shared T} {ps : List Proc}
    {tr : List (Turn (Shared T) Proc)} (h : g.program.Run s₀ tr ⟨sh, ps⟩) (ip : IpAddr)
    (now : Instant) (hfree : sh.locked (g.shardOf (g.key ip)) = false) :
    ∃ tr' p', g.program.Run s₀ tr' ⟨(g.call sh ip now).1, ps ++ [p']⟩ ∧
      g.Settles (g.call sh ip now).2 p' := by
  obtain ⟨p', hsolo, hset⟩ := solo_call hfree
  obtain ⟨tr', hrun⟩ := Program.Run.solo hsolo (Program.Run.spawn (ip, now) h)
  exact ⟨tr', p', hrun, hset⟩

/-! ## The net effect of a call -/

/-- What a call for `ip` at `now` does to the entry of `k`. The flag tells
whether the call was granted against that entry. -/
inductive Net (g : Gate T) (ip : IpAddr) (now : Instant) (k : IpAddr) :
    Option T → Option T → Bool → Prop
  | same {o} : Net g ip now k o o false
  | evicted {e} : g.key ip ≠ k → g.evictable now e = true → Net g ip now k (some e) none false
  | looked {e} : g.key ip = k → Net g ip now k (some e) (some (g.judge now e).1) false
  | inserted : g.key ip = k → Net g ip now k none (some (g.judge now (g.fresh now)).1) false
  | taken {e} : g.key ip = k → (g.judge now e).2 = none →
      Net g ip now k (some e) (some (g.commit now (g.judge now e).1)) true
  | opened : g.key ip = k → (g.judge now (g.fresh now)).2 = none →
      Net g ip now k none (some (g.commit now (g.judge now (g.fresh now)).1)) true

/-- The call is granted against the entry of `k`. -/
def grants (g : Gate T) (s : Shared T) (ip : IpAddr) (now : Instant) (k : IpAddr) : Bool :=
  decide ((g.call s ip now).2 = .ok k)

variable {k k' : IpAddr} {inserted : Bool}

/-- The tail of a call on the entry it relies on: the commit, or nothing, or
the removal of an entry the call had inserted. -/
theorem finish_self {s : Shared T} {e : T} (he : g.entry s k = some e) (now : Instant)
    (inserted : Bool) :
    ((g.finish s k now inserted).2 = .ok k ∧
      g.entry (g.finish s k now inserted).1 k = some (g.commit now e)) ∨
    ((g.finish s k now inserted).2 = .error .globalRate ∧
      (g.entry (g.finish s k now inserted).1 k = some e ∨
        (inserted = true ∧ g.entry (g.finish s k now inserted).1 k = none))) := by
  have hget : ((s.spendRate now).1.shards (g.shardOf k)).get k = some e := by
    rw [Shared.spendRate_shards]
    exact he
  cases hr : (s.spendRate now).2 with
  | false =>
    have hfin : g.finish s k now inserted =
        (g.rollback (s.spendRate now).1 k inserted, .error .globalRate) := by
      simp only [finish, hr, if_true]
    rw [hfin, entry_rollback, entry_spendRate, he]
    refine Or.inr ⟨rfl, ?_⟩
    split
    · rename_i hu
      exact Or.inr ⟨hu.2.2, rfl⟩
    · exact Or.inl rfl
  | true =>
    have hfin : g.finish s k now inserted = ((s.spendRate now).1.setShard (g.shardOf k)
        (((s.spendRate now).1.shards (g.shardOf k)).put k (g.commit now e)), .ok k) := by
      simp only [finish, hr, hget, Bool.true_eq_false, if_false]
    rw [hfin, entry_setShard_put, if_pos rfl]
    exact Or.inl ⟨rfl, rfl⟩

theorem finish_other {s : Shared T} (hne : k' ≠ k) (now : Instant) (inserted : Bool) :
    g.entry (g.finish s k now inserted).1 k' = g.entry s k' := by
  unfold finish
  dsimp only
  split
  · rw [entry_rollback, if_neg (fun h => hne h.1), entry_spendRate]
  · split
    · rw [entry_setShard_put, if_neg hne, entry_spendRate]
    · rw [entry_spendRate]

theorem finish_ok {s : Shared T} {now : Instant} (h : (g.finish s k now inserted).2 = .ok k') :
    k' = k := by
  unfold finish at h
  dsimp only at h
  split at h
  · cases h
  · split at h
    · cases h
      rfl
    · cases h

theorem reserve_ok {s : Shared T} {now : Instant} (h : (g.reserve s k now inserted).2 = .ok k') :
    k' = k := by
  unfold reserve at h
  split at h
  · cases h
  · split at h <;> exact finish_ok h

/-! ## The global bucket -/

/-- The global bucket after one token was taken from it at `now`. -/
def spentAt (now : Instant) (b : TokenBucket) : TokenBucket := (b.refill now).consume 1

theorem finish_ok_global {s : Shared T} {now : Instant} (h : (g.finish s k now inserted).2 = .ok k')
    : (g.finish s k now inserted).1.global = s.global.map (spentAt now) := by
  unfold finish at h ⊢
  split at h
  · cases h
  · rename_i hr
    have hglobal := Shared.spendRate_global_of_true (Bool.eq_true_of_not_eq_false hr)
    rw [if_neg hr]
    split
    · exact hglobal
    · exact hglobal

theorem reserve_ok_global {s : Shared T} {now : Instant}
    (h : (g.reserve s k now inserted).2 = .ok k') :
    (g.reserve s k now inserted).1.global = s.global.map (spentAt now) := by
  unfold reserve at h ⊢
  split at h
  · cases h
  · rename_i hsat
    rw [if_neg hsat]
    split at h
    · rename_i hmax
      rw [if_pos hmax]
      exact finish_ok_global h
    · rename_i hmax
      rw [if_neg hmax]
      exact finish_ok_global h

/-- A granted call takes one token from the global bucket. -/
theorem call_ok_global {s : Shared T} {ip : IpAddr} {now : Instant}
    (h : (g.call s ip now).2 = .ok k) :
    (g.call s ip now).1.global = s.global.map (spentAt now) := by
  have hlook : (s.checkRate now).1.global.map (spentAt now) = s.global.map (spentAt now) := by
    rw [Shared.checkRate_global, Option.map_map]
    congr 1
    funext b
    simp [spentAt]
  rcases g.call_cases s ip now with ⟨_, hc⟩ | ⟨-, hc⟩ | ⟨_, _, -, -, hc⟩ | ⟨_, _, -, -, hc⟩
  · rw [hc] at h
    cases h
  · rw [hc] at h ⊢
    have hspent : ((s.checkRate now).1.spendRate now).2 = true := by
      by_contra hno
      rw [if_neg hno] at h
      cases h
    exact (Shared.spendRate_global_of_true hspent).trans hlook
  · rw [hc] at h
    cases h
  · rw [hc] at h ⊢
    exact (reserve_ok_global h).trans hlook

/-- A gate that consults no entries changes none. -/
theorem entry_call_of_not_perKey (hkey : g.perKey = false) (s : Shared T) (ip : IpAddr)
    (now : Instant) (k : IpAddr) : g.entry (g.call s ip now).1 k = g.entry s k := by
  rcases g.call_cases s ip now with ⟨_, h⟩ | ⟨-, h⟩ | ⟨_, _, hk, -⟩ | ⟨_, _, hk, -⟩
  · rw [h]
    exact entry_checkRate s now k
  · rw [h]
    exact (entry_spendRate _ now k).trans (entry_checkRate s now k)
  · rw [hkey] at hk
    cases hk
  · rw [hkey] at hk
    cases hk

/-- A granted call returns its own key. -/
theorem call_ok_key (g : Gate T) (s : Shared T) (ip : IpAddr) (now : Instant)
    (h : (g.call s ip now).2 = .ok k) : k = g.key ip := by
  rcases g.call_cases s ip now with ⟨_, hc⟩ | ⟨-, hc⟩ | ⟨_, _, -, -, hc⟩ | ⟨_, _, -, -, hc⟩
  · rw [hc] at h
    cases h
  · rw [hc] at h
    split at h
    · cases h
      rfl
    · cases h
  · rw [hc] at h
    cases h
  · rw [hc] at h
    exact reserve_ok h

/-- Reserving the global slot adds one way to fail and touches no entry. -/
theorem reserve_cases (s : Shared T) (k : IpAddr) (now : Instant) (inserted : Bool) :
    (∃ reason, g.reserve s k now inserted = (s, .error reason)) ∨
    ∃ s', g.entry s' = g.entry s ∧ g.reserve s k now inserted = g.finish s' k now inserted := by
  unfold reserve
  split
  · exact Or.inl ⟨_, rfl⟩
  · split
    · exact Or.inr ⟨s.setActive (s.globalActive + 1), rfl, rfl⟩
    · exact Or.inr ⟨s, rfl, rfl⟩

variable {s : Shared T} {ip : IpAddr} {now : Instant} {q : LimiterShard IpAddr T}

/-- A call refused in the shard section. -/
theorem net_refused {reason : LimitReason}
    (he : g.enter now (g.key ip) (s.shards (g.shardOf (g.key ip))) = (q, .error reason))
    (k : IpAddr) :
    g.Net ip now k (g.entry s k)
      (g.entry (s.setShard (g.shardOf (g.key ip)) q) k) false := by
  have heff := effect_enter k he
  generalize g.entry s k = before at heff ⊢
  generalize g.entry (s.setShard (g.shardOf (g.key ip)) q) k = after at heff ⊢
  cases heff with
  | same => exact .same
  | evicted hne hev => exact .evicted hne hev
  | looked hk => exact .looked hk
  | inserted hk => exact .inserted hk

/-- A call let through by its entry, seen from that entry. -/
theorem net_reserve_self
    (he : g.enter now (g.key ip) (s.shards (g.shardOf (g.key ip))) = (q, .ok inserted)) :
    let r := g.reserve (s.setShard (g.shardOf (g.key ip)) q) (g.key ip) now inserted
    g.Net ip now (g.key ip) (g.entry s (g.key ip)) (g.entry r.1 (g.key ip))
      (decide (r.2 = .ok (g.key ip))) := by
  intro r
  obtain ⟨e, hwas, hget, hadm, hins⟩ := g.enter_ok he
  have hself : g.entry (s.setShard (g.shardOf (g.key ip)) q) (g.key ip) =
      some (g.judge now e).1 := by
    rw [entry_setShard, if_pos rfl]
    exact hget
  have hlooked : g.Net ip now (g.key ip) (g.entry s (g.key ip))
      (some (g.judge now e).1) false := by
    rcases hwas with h0 | ⟨h0, rfl⟩
    · rw [show g.entry s (g.key ip) = some e from h0]
      exact .looked rfl
    · rw [show g.entry s (g.key ip) = none from h0]
      exact .inserted rfl
  rcases reserve_cases (g := g) (s.setShard (g.shardOf (g.key ip)) q) (g.key ip) now inserted
    with ⟨reason, hr⟩ | ⟨s', hs', hr⟩
  · simp only [r, hr, hself, reduceCtorEq, decide_false]
    exact hlooked
  · have hfin := finish_self (g := g) (s := s') ((congrFun hs' _).trans hself) now inserted
    simp only [r, hr]
    rcases hfin with ⟨hok, hent⟩ | ⟨herr, hent | ⟨hnew, hent⟩⟩
    · rw [hok, hent, decide_eq_true rfl]
      rcases hwas with h0 | ⟨h0, rfl⟩
      · rw [show g.entry s (g.key ip) = some e from h0]
        exact .taken rfl hadm
      · rw [show g.entry s (g.key ip) = none from h0]
        exact .opened rfl hadm
    · rw [herr, hent]
      simpa using hlooked
    · -- the insertion was taken back
      have hnone : g.entry s (g.key ip) = none := by
        rw [hins] at hnew
        exact Option.isNone_iff_eq_none.mp hnew
      rw [herr, hent, hnone]
      simpa using Net.same

/-- A call let through by its entry, seen from another key. -/
theorem net_reserve_other
    (he : g.enter now (g.key ip) (s.shards (g.shardOf (g.key ip))) = (q, .ok inserted))
    (hne : k ≠ g.key ip) :
    let r := g.reserve (s.setShard (g.shardOf (g.key ip)) q) (g.key ip) now inserted
    g.Net ip now k (g.entry s k) (g.entry r.1 k) (decide (r.2 = .ok k)) := by
  intro r
  have hent : g.entry r.1 k = g.entry (s.setShard (g.shardOf (g.key ip)) q) k ∧
      r.2 ≠ .ok k := by
    rcases reserve_cases (g := g) (s.setShard (g.shardOf (g.key ip)) q) (g.key ip) now inserted
      with ⟨reason, hr⟩ | ⟨s', hs', hr⟩
    · simp [r, hr]
    · simp only [r, hr]
      exact ⟨(finish_other hne now inserted).trans (congrFun hs' k), fun h => hne (finish_ok h)⟩
  rw [hent.1, decide_eq_false hent.2]
  rcases entry_enter_of_ne hne he with heq | ⟨e, h0, hev, h1⟩
  · rw [heq]
    exact .same
  · rw [h0, h1]
    exact .evicted (Ne.symm hne) hev

/-- **The net effect of a call** on the entry of any key. -/
theorem call_net (hkey : g.perKey = true) (s : Shared T) (ip : IpAddr) (now : Instant)
    (k : IpAddr) :
    g.Net ip now k (g.entry s k) (g.entry (g.call s ip now).1 k) (g.grants s ip now k) := by
  have hentry := entry_checkRate (g := g) s now k
  rw [← hentry, grants]
  rcases g.call_cases s ip now with
    ⟨_, hc⟩ | ⟨hno, -⟩ | ⟨_, _, -, he, hc⟩ | ⟨_, _, -, he, hc⟩
  · rw [hc]
    exact .same
  · rw [hkey] at hno
    cases hno
  · rw [hc]
    exact net_refused he k
  · rw [hc]
    by_cases hk : k = g.key ip
    · subst hk
      exact net_reserve_self he
    · exact net_reserve_other he hk

end Gate

end AlturaProt.Limiter
