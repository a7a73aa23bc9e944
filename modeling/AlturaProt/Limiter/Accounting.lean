import AlturaProt.Limiter.GateEffects

/-!
# Permit accounting

Three counters of a gate are shared out among the calls that are running: the
shard locks, the global slots, and the active count of every key. For each of
them a call's own part is a number read off where the call stands (`locksOn`,
`slots`, `permits`), and the counter is always the sum of the parts.

A call that holds its shard's lock also relies on its entry staying where it
is (`Guarded`). `Moves.frame` is why nobody else disturbs it: a step that
changes a shard either found it unlocked or is made by the holder of its lock.
-/

namespace AlturaProt.Limiter

open Foundation

namespace Gate

variable {T : Type}

/-! ## What a call holds -/

/-- The lock of shard `i`. -/
def locksOn (g : Gate T) (i : Fin SHARDS) : Proc → ℕ
  | .reserve k _ _ => if g.shardOf k = i then 1 else 0
  | .cas k _ _ _ => if g.shardOf k = i then 1 else 0
  | .spend k _ _ => if g.shardOf k = i then 1 else 0
  | .undo k _ _ => if g.shardOf k = i then 1 else 0
  | .commit k _ => if g.shardOf k = i then 1 else 0
  | _ => 0

/-- A global slot: taken by the compare-exchange, given back by `fetch_sub`. -/
def slots : Proc → ℕ
  | .spend _ _ _ => 1
  | .undo _ _ _ => 1
  | .commit _ _ => 1
  | .held _ => 1
  | _ => 0

/-- A permit of key `k` whose per-key release has not run yet. -/
def permits (k : IpAddr) : Proc → ℕ
  | .held k' => if k' = k then 1 else 0
  | .releasing k' => if k' = k then 1 else 0
  | _ => 0

/-- The key whose entry a call relies on. -/
def relies : Proc → Option IpAddr
  | .reserve k _ _ => some k
  | .cas k _ _ _ => some k
  | .spend k _ _ => some k
  | .undo k _ _ => some k
  | .commit k _ => some k
  | _ => none

/-- The time of a call that has inserted the entry it relies on. -/
def insertedAt : Proc → Option Instant
  | .reserve _ now true => some now
  | .cas _ now true _ => some now
  | .spend _ now true => some now
  | .undo _ now true => some now
  | _ => none

/-- The entry a call relies on is there, with room for one more permit, and as
new if the call has inserted it. -/
def Guarded (g : Gate T) (s : Shared T) (p : Proc) : Prop :=
  ∀ k ∈ relies p, ∃ e, g.entry s k = some e ∧ (∀ c ∈ g.activeCap, g.active e < c) ∧
    ∀ now ∈ insertedAt p, e = (g.judge now (g.fresh now)).1

variable {g : Gate T} {s s' : Shared T} {p p' : Proc}

theorem locksOn_of_relies {k : IpAddr} (h : relies p = some k) :
    g.locksOn (g.shardOf k) p = 1 := by
  cases p <;> simp_all [relies, locksOn]

@[simp] theorem locksOn_afterShard (i : Fin SHARDS) (k : IpAddr) (now : Instant)
    (b : Bool) : g.locksOn i (g.afterShard k now b) = if g.shardOf k = i then 1 else 0 := by
  unfold afterShard
  split <;> rfl

@[simp] theorem locksOn_granted (i : Fin SHARDS) (k : IpAddr) :
    g.locksOn i (g.granted k) = 0 := by
  unfold granted
  split <;> rfl

@[simp] theorem permits_afterShard (k k' : IpAddr) (now : Instant) (b : Bool) :
    permits k (g.afterShard k' now b) = 0 := by
  unfold afterShard
  split <;> rfl

theorem permits_granted (k k' : IpAddr) :
    permits k (g.granted k') = if k' = k then g.leased.toNat else 0 := by
  unfold granted
  cases g.leased <;> simp [permits]

@[simp] theorem relies_afterShard (k : IpAddr) (now : Instant) (b : Bool) :
    relies (g.afterShard k now b) = some k := by
  unfold afterShard
  split <;> rfl

@[simp] theorem relies_granted (k : IpAddr) : relies (g.granted k) = none := by
  unfold granted
  split <;> rfl

theorem insertedAt_afterShard {k : IpAddr} {now now' : Instant} {b : Bool}
    (h : insertedAt (g.afterShard k now b) = some now') : b = true ∧ now' = now := by
  unfold afterShard at h
  cases b <;> split at h <;> simp_all [insertedAt]

/-! ## Locks -/

theorem toNat_update_true (f : Fin SHARDS → Bool) (i j : Fin SHARDS) (h : f i = false) :
    (Function.update f i true j).toNat = (f j).toNat + if i = j then 1 else 0 := by
  by_cases hij : i = j
  · subst hij
    simp [h]
  · rw [Function.update_of_ne (Ne.symm hij), if_neg hij, Nat.add_zero]

theorem toNat_update_false (f : Fin SHARDS → Bool) (i j : Fin SHARDS)
    (h : (if i = j then 1 else 0) ≤ (f j).toNat) :
    (Function.update f i false j).toNat + (if i = j then 1 else 0) = (f j).toNat := by
  by_cases hij : i = j
  · cases hf : f i <;> simp_all
  · rw [Function.update_of_ne (Ne.symm hij), if_neg hij, Nat.add_zero]

/-- Locks are taken and given back one for one. -/
theorem Moves.locks_conserved (h : g.Moves s p s' p') (i : Fin SHARDS)
    (hp : g.locksOn i p ≤ (s.locked i).toNat) :
    (s'.locked i).toNat + g.locksOn i p = (s.locked i).toNat + g.locksOn i p' := by
  cases h with
  | entered hl _ =>
    rw [locksOn_afterShard]
    exact toNat_update_true _ _ _ hl
  | capped _ => exact toNat_update_false _ _ _ hp
  | @undone k now b =>
    rw [Shared.setLock_locked, rollback_locked]
    exact toNat_update_false _ _ _ hp
  | committed _ =>
    rw [locksOn_granted]
    exact toNat_update_false _ _ _ hp
  | missing _ => exact toNat_update_false _ _ _ hp
  | rateOk _ => simp [locksOn]
  | rateEmpty _ => simp [locksOn]
  | full _ => rfl
  | toShard _ => rfl
  | toSpend _ => rfl
  | spentOnly _ => simp [locksOn]
  | emptyOnly _ => simp [locksOn]
  | refused _ _ => rfl
  | loaded => rfl
  | swapped _ => rfl
  | retried => rfl
  | spent _ => simp [locksOn]
  | unspent _ => simp [locksOn]
  | releasedGlobal => simp [locksOn]
  | releasedEntry _ => simp [locksOn]

/-- The shard a call's next step may write. -/
def writes (g : Gate T) : Proc → Option (Fin SHARDS)
  | .lock ip _ => some (g.shardOf (g.key ip))
  | .undo k _ _ => some (g.shardOf k)
  | .commit k _ => some (g.shardOf k)
  | .releasing k => some (g.shardOf k)
  | _ => none

theorem Moves.shards_eq (h : g.Moves s p s' p') {i : Fin SHARDS}
    (hi : g.writes p ≠ some i) : s'.shards i = s.shards i := by
  have hne : ∀ {j}, some j ≠ some i → i ≠ j := by
    rintro j hj rfl
    exact hj rfl
  cases h with
  | refused _ _ => exact Function.update_of_ne (hne hi) _ _
  | entered _ _ => exact Function.update_of_ne (hne hi) _ _
  | @undone k now b =>
    show (g.rollback s k b).shards i = s.shards i
    unfold rollback
    dsimp only
    split
    · rw [Shared.setShard_shards, Function.update_of_ne (hne hi)]
      split <;> rfl
    · split <;> rfl
  | committed _ => exact Function.update_of_ne (hne hi) _ _
  | releasedGlobal =>
    unfold releaseGlobal
    split <;> rfl
  | releasedEntry _ =>
    unfold releaseEntry
    split
    · exact Function.update_of_ne (hne hi) _ _
    · rfl
  | rateOk _ => simp
  | rateEmpty _ => simp
  | full _ => rfl
  | toShard _ => rfl
  | toSpend _ => rfl
  | spentOnly _ => simp
  | emptyOnly _ => simp
  | loaded => rfl
  | capped _ => rfl
  | swapped _ => rfl
  | retried => rfl
  | spent _ => simp
  | unspent _ => simp
  | missing _ => rfl

/-- A shard is written by the holder of its lock, or when nobody holds it. -/
theorem Moves.free_or_locksOn (h : g.Moves s p s' p') {i : Fin SHARDS}
    (hi : g.writes p = some i) : s.locked i = false ∨ g.locksOn i p = 1 := by
  cases h with
  | refused hfree _ => exact Or.inl (Option.some.inj hi ▸ hfree)
  | entered hfree _ => exact Or.inl (Option.some.inj hi ▸ hfree)
  | releasedEntry hfree => exact Or.inl (Option.some.inj hi ▸ hfree)
  | undone => exact Or.inr (if_pos (Option.some.inj hi))
  | committed _ => exact Or.inr (if_pos (Option.some.inj hi))
  | missing _ => exact Or.inr (if_pos (Option.some.inj hi))
  | _ => cases hi

/-- **Frame.** While shard `i` is locked, a step by a call that does not hold
the lock leaves the shard alone. -/
theorem Moves.frame (h : g.Moves s p s' p') {i : Fin SHARDS} (hl : s.locked i = true)
    (hp : g.locksOn i p = 0) : s'.shards i = s.shards i := by
  apply h.shards_eq
  intro hi
  rcases h.free_or_locksOn hi with hfree | hone
  · rw [hl] at hfree
    cases hfree
  · omega

/-! ## The entry a call relies on -/

/-- The mover's own reliance: `lock` establishes it, and no later step of the
call before the last one loses it. -/
theorem Moves.guarded (h : g.Moves s p s' p') (hp : g.Guarded s p) : g.Guarded s' p' := by
  cases h with
  | @entered ip now q inserted _ he =>
    intro k hk
    rw [relies_afterShard] at hk
    obtain rfl : g.key ip = k := Option.some.inj hk
    obtain ⟨e, hwas, hget, hadm, hins⟩ := g.enter_ok he
    refine ⟨(g.judge now e).1, ?_, fun c hc => ?_, fun now' hnow => ?_⟩
    · rw [entry_setLock, entry_setShard, if_pos rfl]
      exact hget
    · rw [g.active_judge]
      exact g.judge_below_cap now e hadm c hc
    · obtain ⟨hb, rfl⟩ := insertedAt_afterShard hnow
      rw [hins] at hb
      rcases hwas with hwas | ⟨-, rfl⟩
      · simp [hwas] at hb
      · rfl
  | @loaded k now inserted => cases inserted <;> exact hp
  | @swapped k now inserted _ => cases inserted <;> exact hp
  | @retried k now inserted seen => cases inserted <;> exact hp
  | spent _ =>
    intro k hk
    obtain ⟨e, he, hcap, -⟩ := hp k hk
    rw [entry_spendRate]
    exact ⟨e, he, hcap, by simp [insertedAt]⟩
  | @unspent k now inserted _ =>
    intro k' hk
    rw [entry_spendRate]
    cases inserted <;> exact hp k' hk
  | committed _ =>
    intro k hk
    rw [relies_granted] at hk
    cases hk
  | rateOk _ => intro k hk; cases hk
  | rateEmpty _ => intro k hk; cases hk
  | full _ => intro k hk; cases hk
  | toShard _ => intro k hk; cases hk
  | toSpend _ => intro k hk; cases hk
  | spentOnly _ => intro k hk; cases hk
  | emptyOnly _ => intro k hk; cases hk
  | refused _ _ => intro k hk; cases hk
  | capped _ => intro k hk; cases hk
  | undone => intro k hk; cases hk
  | missing _ => intro k hk; cases hk
  | releasedGlobal => intro k hk; cases hk
  | releasedEntry _ => intro k hk; cases hk

/-! ## Slots and permits -/

/-- Global slots are taken and given back one for one, once the entry of a
committing call is known to be there. -/
theorem Moves.slots_conserved (h : g.Moves s p s' p') (hg : g.Guarded s p)
    (hmax : 0 < g.maxActive) (hp : slots p ≤ s.globalActive) :
    s'.globalActive + slots p = s.globalActive + slots p' := by
  cases h with
  | entered _ _ =>
    rw [afterShard, if_pos hmax]
    rfl
  | swapped _ => rfl
  | @undone k now inserted =>
    have hactive : (g.rollback s k inserted).globalActive = s.globalActive - 1 := by
      unfold rollback
      dsimp only
      rw [if_pos hmax]
      split <;> rfl
    simp only [slots] at hp ⊢
    rw [Shared.setLock_globalActive, hactive]
    omega
  | committed _ =>
    have hleased : g.leased = true := by
      cases hl : g.leased with
      | true => rfl
      | false => exact absurd (g.uncapped_of_not_leased hl) (Nat.pos_iff_ne_zero.mp hmax)
    rw [granted, if_pos hleased]
    rfl
  | @missing k now hnone =>
    obtain ⟨e, he, -⟩ := hg k rfl
    rw [show g.entry s k = none from hnone] at he
    cases he
  | releasedGlobal =>
    simp only [slots] at hp ⊢
    rw [releaseGlobal, if_pos hmax, Shared.setActive_globalActive]
    omega
  | releasedEntry _ =>
    unfold releaseEntry
    split <;> rfl
  | rateOk _ => simp [slots]
  | rateEmpty _ => simp [slots]
  | full _ => rfl
  | toShard _ => rfl
  | toSpend _ => rfl
  | spentOnly _ => simp [slots]
  | emptyOnly _ => simp [slots]
  | refused _ _ => rfl
  | loaded => rfl
  | capped _ => rfl
  | retried => rfl
  | spent _ => simp [slots]
  | unspent _ => simp [slots]

/-- The active count of a key moves by exactly the permit that is granted or
released. -/
theorem Moves.permits_conserved (h : g.Moves s p s' p') (k : IpAddr)
    (hp : permits k p ≤ g.activeAt s k) :
    g.activeAt s' k + permits k p = g.activeAt s k + permits k p' := by
  have hsame : ∀ {s'' : Shared T}, g.entry s'' k = g.entry s k → permits k p = 0 →
      permits k p' = 0 → g.activeAt s'' k + permits k p = g.activeAt s k + permits k p' := by
    intro s'' hentry h0 h0'
    rw [activeAt_eq_of_entry_eq hentry, h0, h0']
  cases h with
  | refused _ he => exact congrArg (· + 0) (activeAt_enter he k)
  | entered _ he =>
    rw [permits_afterShard]
    exact congrArg (· + 0) (activeAt_enter he k)
  | @undone k' now inserted =>
    show g.activeAt (g.rollback s k' inserted) k + 0 = g.activeAt s k + 0
    rw [activeAt, activeAt, entry_rollback]
    by_cases hu : k = k' ∧ g.undoesInsert = true ∧ inserted = true
    · -- only an entry of a gate without permits is removed here
      have hzero := g.inactive_of_undoesInsert hu.2.1
      rw [if_pos hu]
      cases g.entry s k <;> simp [hzero]
    · rw [if_neg hu]
  | @committed k' now e he =>
    rw [permits_granted]
    show g.activeAt _ k + 0 = _
    rw [activeAt, entry_setLock, entry_setShard_put]
    by_cases hk : k' = k
    · subst hk
      have hentry : g.entry s k' = some e := he
      rw [if_pos rfl, if_pos rfl, activeAt, hentry]
      simpa using g.active_commit now e
    · rw [if_neg (Ne.symm hk), if_neg hk]
      rfl
  | releasedGlobal =>
    rw [activeAt_eq_of_entry_eq (entry_releaseGlobal s k)]
    rfl
  | @releasedEntry k' now _ =>
    simp only [permits] at hp ⊢
    rw [activeAt, entry_releaseEntry]
    by_cases hk : k' = k
    · subst hk
      rw [if_pos rfl] at hp ⊢
      rw [if_pos rfl]
      unfold activeAt at hp ⊢
      cases he : g.entry s k' with
      | none =>
        rw [he] at hp
        exact absurd hp (by simp)
      | some e =>
        rw [he] at hp
        simp only [Option.map_some, g.active_release]
        dsimp only at hp
        omega
    · rw [if_neg (Ne.symm hk), if_neg hk]
      rfl
  | rateOk _ => exact hsame (entry_checkRate s _ k) rfl rfl
  | rateEmpty _ => exact hsame (entry_checkRate s _ k) rfl rfl
  | spentOnly _ => exact hsame (entry_spendRate s _ k) rfl rfl
  | emptyOnly _ => exact hsame (entry_spendRate s _ k) rfl rfl
  | spent _ => exact hsame (entry_spendRate s _ k) rfl rfl
  | unspent _ => exact hsame (entry_spendRate s _ k) rfl rfl
  | full _ => exact hsame rfl rfl rfl
  | toShard _ => exact hsame rfl rfl rfl
  | toSpend _ => exact hsame rfl rfl rfl
  | loaded => exact hsame rfl rfl rfl
  | capped _ => exact hsame rfl rfl rfl
  | swapped _ => exact hsame rfl rfl rfl
  | retried => exact hsame rfl rfl rfl
  | missing _ => exact hsame rfl rfl rfl

/-! ## Whole runs -/

/-- The caps are never passed: a slot is taken only below the global cap. -/
theorem Moves.globalActive_le (h : g.Moves s p s' p')
    (hs : s.globalActive ≤ g.maxActive) : s'.globalActive ≤ g.maxActive := by
  have hsub : s.globalActive - 1 ≤ g.maxActive := (Nat.sub_le _ _).trans hs
  cases h with
  | swapped hlt => exact hlt
  | undone =>
    unfold rollback
    split <;> split <;> assumption
  | releasedGlobal =>
    unfold releaseGlobal
    split <;> assumption
  | releasedEntry _ =>
    unfold releaseEntry
    split <;> assumption
  | rateOk _ => simpa using hs
  | rateEmpty _ => simpa using hs
  | spentOnly _ => simpa using hs
  | emptyOnly _ => simpa using hs
  | spent _ => simpa using hs
  | unspent _ => simpa using hs
  | full _ => exact hs
  | toShard _ => exact hs
  | toSpend _ => exact hs
  | refused _ _ => exact hs
  | entered _ _ => exact hs
  | loaded => exact hs
  | capped _ => exact hs
  | retried => exact hs
  | committed _ => exact hs
  | missing _ => exact hs

/-- Only a call that relies on the entry of `k` can gain a permit of `k`. -/
theorem Moves.permits_le (h : g.Moves s p s' p') (k : IpAddr) :
    permits k p' ≤ permits k p ∨ (relies p = some k ∧ permits k p' ≤ 1) := by
  cases h with
  | @committed k' now e _ =>
    rw [permits_granted]
    by_cases hk : k' = k
    · subst hk
      refine Or.inr ⟨rfl, ?_⟩
      rw [if_pos rfl]
      exact Bool.toNat_le _
    · rw [if_neg hk]
      exact Or.inl (Nat.zero_le _)
  | releasedGlobal => exact Or.inl le_rfl
  | entered _ _ =>
    rw [permits_afterShard]
    exact Or.inl (Nat.zero_le _)
  | _ => exact Or.inl (Nat.zero_le _)

/-- What holds at every point of every run: the three counters are shared out
exactly, every call's entry is where the call relies on it, and both caps are
kept. -/
structure Accounted (g : Gate T) (s : Sys (Shared T) Proc) : Prop where
  locks_eq : ∀ i, (s.shared.locked i).toNat = (s.procs.map (g.locksOn i)).sum
  guarded : Program.Everywhere g.Guarded s
  slots_eq : 0 < g.maxActive → s.shared.globalActive = (s.procs.map slots).sum
  globalActive_le : s.shared.globalActive ≤ g.maxActive
  permits_eq : ∀ k, g.activeAt s.shared k = (s.procs.map (permits k)).sum
  activeAt_le : ∀ c ∈ g.activeCap, ∀ k, g.activeAt s.shared k ≤ c

@[simp] theorem activeAt_idle (b : Option TokenBucket) (k : IpAddr) :
    g.activeAt (Shared.idle b) k = 0 := by
  have hnone : g.entry (Shared.idle b) k = none := Shards.get_empty _ _
  rw [activeAt, hnone]

theorem accounted_idle (b : Option TokenBucket) : g.Accounted ⟨Shared.idle b, []⟩ where
  locks_eq _ := rfl
  guarded _ h := absurd h (by simp)
  slots_eq _ := rfl
  globalActive_le := Nat.zero_le _
  permits_eq k := activeAt_idle b k
  activeAt_le _ _ k := (activeAt_idle b k).trans_le (Nat.zero_le _)

theorem Accounted.spawn {s : Sys (Shared T) Proc} (h : g.Accounted s) (a : IpAddr × Instant) :
    g.Accounted ⟨s.shared, s.procs ++ [g.program.start a]⟩ where
  locks_eq i :=
    Program.conserved_spawn (q := fun sh : Shared T => (sh.locked i).toNat) (h.locks_eq i) rfl
  guarded := h.guarded.spawn (fun _ hk => absurd hk (by simp [program, relies]))
  slots_eq hmax := Program.conserved_spawn (h.slots_eq hmax) rfl
  globalActive_le := h.globalActive_le
  permits_eq k :=
    Program.conserved_spawn (q := fun sh : Shared T => g.activeAt sh k) (h.permits_eq k) rfl
  activeAt_le := h.activeAt_le

/-- A call that relies on an entry holds its shard's lock, so no other call
holds it, and by the frame rule nobody else's step touches the entry. -/
theorem Accounted.guarded_other {s : Sys (Shared T) Proc} (h : g.Accounted s)
    {pid j : ℕ} {p p' r : Proc} {sh : Shared T} (hmv : g.Moves s.shared p sh p')
    (hne : j ≠ pid) (hp : s.procs[pid]? = some p) (hr : s.procs[j]? = some r)
    (hg : g.Guarded s.shared r) : g.Guarded sh r := by
  intro k hk
  have hone : g.locksOn (g.shardOf k) r = 1 := locksOn_of_relies hk
  have hsum := Program.add_le_sum_map (g.locksOn (g.shardOf k)) hne hr hp .dropped rfl
  have hlocks := h.locks_eq (g.shardOf k)
  have hle := Bool.toNat_le (s.shared.locked (g.shardOf k))
  have hzero : g.locksOn (g.shardOf k) p = 0 := by omega
  have hlocked : s.shared.locked (g.shardOf k) = true := by
    cases hl : s.shared.locked (g.shardOf k) with
    | true => rfl
    | false =>
      rw [hl] at hlocks
      simp only [Bool.toNat_false] at hlocks
      omega
  obtain ⟨e, he, hrest⟩ := hg k hk
  refine ⟨e, ?_, hrest⟩
  rw [entry, Shards.get, hmv.frame hlocked hzero]
  exact he

theorem Accounted.turn {s : Sys (Shared T) Proc} (h : g.Accounted s) {pid : ℕ}
    {p p' : Proc} {sh : Shared T} (hp : s.procs[pid]? = some p)
    (hmv : g.Moves s.shared p sh p') : g.Accounted ⟨sh, s.procs.set pid p'⟩ := by
  have hown : g.Guarded s.shared p := h.guarded p (List.mem_of_getElem? hp)
  have hpermits : ∀ k, permits k p ≤ g.activeAt s.shared k := by
    intro k
    rw [h.permits_eq k]
    exact Program.le_sum_map _ hp
  refine ⟨fun i => ?_, ?_, fun hmax => ?_, hmv.globalActive_le h.globalActive_le,
    fun k => ?_, fun c hc k => ?_⟩
  · exact Program.conserved_turn (q := fun sh : Shared T => (sh.locked i).toNat) (h.locks_eq i) hp
      (hmv.locks_conserved i)
  · exact h.guarded.turn (hmv.guarded hown)
      (fun j r hne hr hg => h.guarded_other hmv hne hp hr hg)
  · exact Program.conserved_turn (h.slots_eq hmax) hp (hmv.slots_conserved hown hmax)
  · exact Program.conserved_turn (q := fun sh : Shared T => g.activeAt sh k) (h.permits_eq k) hp
      (hmv.permits_conserved k)
  · have hmoved := hmv.permits_conserved k (hpermits k)
    have hbefore := h.activeAt_le c hc k
    show g.activeAt sh k ≤ c
    rcases hmv.permits_le k with hle | ⟨hrel, hle⟩
    · omega
    · -- a permit is gained: the entry was below its cap when it was looked at
      obtain ⟨e, he, hcap, -⟩ := hown k hrel
      have hlt := hcap c hc
      have hact : g.activeAt s.shared k = g.active e := by rw [activeAt, he]
      omega

/-- **Accounting over whole runs.** -/
theorem accounted_of_run {s₀ s : Sys (Shared T) Proc} {tr : List (Turn (Shared T) Proc)}
    (h : g.program.Run s₀ tr s) (h0 : g.Accounted s₀) : g.Accounted s :=
  h.invariant h0 (fun _ a hs => hs.spawn a)
    (fun _ _ _ _ _ _ hs hp hst => hs.turn hp (g.moves_of_step hst))

/-- What every turn of a run starts from: a listed move by a call whose entry is
in place and whose holdings are covered by the counters. -/
structure Legal (g : Gate T) (d : Turn (Shared T) Proc) : Prop where
  moves : g.Moves d.before d.proc d.after d.proc'
  guarded : g.Guarded d.before d.proc
  permits_le : ∀ k, permits k d.proc ≤ g.activeAt d.before k
  slots_le : 0 < g.maxActive → slots d.proc ≤ d.before.globalActive
  globalActive_le : d.before.globalActive ≤ g.maxActive

theorem legal_of_run {s₀ s : Sys (Shared T) Proc} {tr : List (Turn (Shared T) Proc)}
    (h : g.program.Run s₀ tr s) (h0 : g.Accounted s₀) : ∀ d ∈ tr, g.Legal d := by
  refine h.forall_turns (I := g.Accounted) (fun hr => accounted_of_run hr h0) ?_
  intro s pid p c sh p' hs hp hst
  refine ⟨g.moves_of_step hst, hs.guarded p (List.mem_of_getElem? hp), ?_, ?_, hs.globalActive_le⟩
  · intro k
    show permits k p ≤ g.activeAt s.shared k
    rw [hs.permits_eq k]
    exact Program.le_sum_map _ hp
  · intro hmax
    show slots p ≤ s.shared.globalActive
    rw [hs.slots_eq hmax]
    exact Program.le_sum_map _ hp

end Gate

end AlturaProt.Limiter
