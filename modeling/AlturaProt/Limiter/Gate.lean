import AlturaProt.Foundation.Interleaving
import AlturaProt.Limiter.Shards

/-!
# The admission gate

`try_acquire` of the three permit limiters and `RateLimiter::check` share one
skeleton: look at the global bucket, look at the global counter, lock the
shard of the client, find or create its entry and let the entry decide, take a
global slot with a compare-exchange loop, take a global token, and commit the
entry, undoing the slot or the insertion when the global token is gone. A
`Gate` holds what differs between the four, with the laws the proofs need.

The gate is modelled twice. `Gate.call` is one call on its own, from the first
line to the return. `Gate.program` is the same call cut into atomic steps (an
atomic operation, or a lock section of the global bucket; the shard lock stays
held from `lock` to the end of the call), for any number of calls and permit
drops taking turns. `Gate.Moves` lists everything one step can do, and
`exists_run_call` shows that a call on its own is one of the interleavings.
-/

namespace AlturaProt.Limiter

open Foundation

/-- What distinguishes one admission limiter from another. -/
structure Gate (T : Type) where
  key : IpAddr → IpAddr
  shardOf : IpAddr → Fin SHARDS
  /-- global cap on active permits; `0` switches it off -/
  maxActive : ℕ
  /-- whether entries are consulted at all -/
  perKey : Bool
  maxTracked : ℕ
  ensure : Instant → LimiterShard IpAddr T → LimiterShard IpAddr T × Bool
  /-- the reason given when no room can be made -/
  fullReason : LimitReason
  fresh : Instant → T
  /-- the entry's own checks; `some` refuses -/
  judge : Instant → T → T × Option LimitReason
  commit : Instant → T → T
  /-- whether a failed call removes the entry it inserted -/
  undoesInsert : Bool
  /-- whether a successful call hands out a permit -/
  leased : Bool
  release : Instant → T → T
  /-- which entries `ensure` may evict -/
  evictable : Instant → T → Bool
  active : T → ℕ
  activeCap : Option ℕ
  /-- the entry as a look at it leaves it -/
  touched : Instant → T → T
  /-- the entry's token bucket, if it has one -/
  bucket : T → Option TokenBucket
  ensure_reclaimed : ∀ now q, KeyedQueue.Reclaimed (evictable now) q (ensure now q).1
  ensure_room : ∀ now q, (ensure now q).2 = true →
    (ensure now q).1.size < shardCapacity maxTracked
  inactive_of_evictable : ∀ now e, evictable now e = true → active e = 0
  active_fresh : ∀ now, active (fresh now) = 0
  active_judge : ∀ now e, active (judge now e).1 = active e
  active_commit : ∀ now e, active (commit now e) = active e + leased.toNat
  active_release : ∀ now e, active (release now e) = active e - 1
  judge_below_cap : ∀ now e, (judge now e).2 = none → ∀ c ∈ activeCap, active e < c
  judge_fst : ∀ now e, (judge now e).1 = e ∨ (judge now e).1 = touched now e
  bucket_touched : ∀ now e, bucket (touched now e) = bucket e ∨
    bucket (touched now e) = (bucket e).map (·.refill now)
  inactive_of_undoesInsert : undoesInsert = true → ∀ e, active e = 0
  uncapped_of_not_leased : leased = false → maxActive = 0

/-- The state all calls share. -/
structure Shared (T : Type) where
  global : Option TokenBucket
  globalActive : ℕ
  shards : Shards SHARDS IpAddr T
  locked : Fin SHARDS → Bool

namespace Shared

variable {T : Type}

/-- No client is known and no lock is held. -/
def idle (global : Option TokenBucket) : Shared T where
  global := global
  globalActive := 0
  shards := Shards.empty
  locked := fun _ => false

/-- A limiter as its constructor leaves it: a rate of `0` or less means no
global bucket. -/
def new (globalRps : ℚ) (globalBurst : ℕ) (now : Instant) : Shared T :=
  idle (if 0 < globalRps then some (TokenBucket.new globalRps globalBurst now) else none)

/-- `bucket_has_tokens` on the global bucket, if there is one. -/
def checkRate (s : Shared T) (now : Instant) : Shared T × Bool :=
  match s.global with
  | none => (s, true)
  | some b => ({ s with global := some (b.hasTokens now 1).1 }, (b.hasTokens now 1).2)

/-- `bucket_try_consume` on the global bucket, if there is one. -/
def spendRate (s : Shared T) (now : Instant) : Shared T × Bool :=
  match s.global with
  | none => (s, true)
  | some b => ({ s with global := some (b.tryConsume now).1 }, (b.tryConsume now).2)

def setShard (s : Shared T) (i : Fin SHARDS) (q : LimiterShard IpAddr T) : Shared T :=
  { s with shards := Function.update s.shards i q }

def setLock (s : Shared T) (i : Fin SHARDS) (held : Bool) : Shared T :=
  { s with locked := Function.update s.locked i held }

def setActive (s : Shared T) (n : ℕ) : Shared T := { s with globalActive := n }

/-! ## Reading after writing -/

section Simp

variable (s : Shared T) (i : Fin SHARDS) (q : LimiterShard IpAddr T) (b : Bool) (n : ℕ)

@[simp] theorem setShard_shards :
    (s.setShard i q).shards = Function.update s.shards i q := rfl
@[simp] theorem setShard_locked : (s.setShard i q).locked = s.locked := rfl
@[simp] theorem setShard_global : (s.setShard i q).global = s.global := rfl
@[simp] theorem setShard_globalActive :
    (s.setShard i q).globalActive = s.globalActive := rfl
@[simp] theorem setLock_shards : (s.setLock i b).shards = s.shards := rfl
@[simp] theorem setLock_locked :
    (s.setLock i b).locked = Function.update s.locked i b := rfl
@[simp] theorem setLock_global : (s.setLock i b).global = s.global := rfl
@[simp] theorem setLock_globalActive :
    (s.setLock i b).globalActive = s.globalActive := rfl
@[simp] theorem setActive_shards : (s.setActive n).shards = s.shards := rfl
@[simp] theorem setActive_locked : (s.setActive n).locked = s.locked := rfl
@[simp] theorem setActive_global : (s.setActive n).global = s.global := rfl
@[simp] theorem setActive_globalActive : (s.setActive n).globalActive = n := rfl

variable (now : Instant)

@[simp] theorem checkRate_shards : (s.checkRate now).1.shards = s.shards := by
  unfold checkRate
  split <;> rfl

@[simp] theorem checkRate_locked : (s.checkRate now).1.locked = s.locked := by
  unfold checkRate
  split <;> rfl

@[simp] theorem checkRate_globalActive :
    (s.checkRate now).1.globalActive = s.globalActive := by
  unfold checkRate
  split <;> rfl

@[simp] theorem spendRate_shards : (s.spendRate now).1.shards = s.shards := by
  unfold spendRate
  split <;> rfl

@[simp] theorem spendRate_locked : (s.spendRate now).1.locked = s.locked := by
  unfold spendRate
  split <;> rfl

@[simp] theorem spendRate_globalActive :
    (s.spendRate now).1.globalActive = s.globalActive := by
  unfold spendRate
  split <;> rfl

end Simp

/-- A look at the global bucket refills it and takes nothing. -/
theorem checkRate_global (s : Shared T) (now : Instant) :
    (s.checkRate now).1.global = s.global.map (·.refill now) := by
  unfold checkRate
  split
  · rename_i h
    simp [h]
  · rename_i b h
    simp [h, TokenBucket.hasTokens]

/-- A withdrawal that fails refills the global bucket and takes nothing. -/
theorem spendRate_global_of_false {s : Shared T} {now : Instant} (h : (s.spendRate now).2 = false) :
    (s.spendRate now).1.global = s.global.map (·.refill now) := by
  unfold spendRate at h ⊢
  split
  · rename_i hg
    simp [hg]
  · rename_i b hg
    simp only [hg] at h
    unfold TokenBucket.tryConsume at h ⊢
    split
    · rename_i hb
      rw [if_pos hb] at h
      exact absurd h (by simp)
    · simp [hg, TokenBucket.hasTokens]

/-- A withdrawal that succeeds takes one token, if there is a bucket at all. -/
theorem spendRate_global_of_true {s : Shared T} {now : Instant} (h : (s.spendRate now).2 = true) :
    (s.spendRate now).1.global = s.global.map (fun b => (b.refill now).consume 1) := by
  unfold spendRate at h ⊢
  split
  · rename_i hg
    simp [hg]
  · rename_i b hg
    simp only [hg] at h
    unfold TokenBucket.tryConsume at h ⊢
    split
    · simp [hg, TokenBucket.hasTokens]
    · rename_i hb
      rw [if_neg hb] at h
      exact absurd h (by simp)

end Shared

namespace Gate

variable {T : Type} (g : Gate T)

/-! ## The shard section -/

/-- The answer of the shard section: no room, the entry's refusal, or whether
the entry was inserted. -/
def answer : Option (Option LimitReason × Bool) → Except LimitReason Bool
  | none => .error g.fullReason
  | some (some reason, _) => .error reason
  | some (none, inserted) => .ok inserted

/-- Find or create the entry of `k` and let it decide. -/
def enter (now : Instant) (k : IpAddr) (q : LimiterShard IpAddr T) :
    LimiterShard IpAddr T × Except LimitReason Bool :=
  let visited := q.visit (g.ensure now) (g.fresh now) (g.judge now) k
  (visited.1, g.answer visited.2)

/-- Give back what a call took before the global token was refused. -/
def rollback (s : Shared T) (k : IpAddr) (inserted : Bool) : Shared T :=
  let s' := if 0 < g.maxActive then s.setActive (s.globalActive - 1) else s
  if g.undoesInsert && inserted then
    s'.setShard (g.shardOf k) ((s'.shards (g.shardOf k)).remove k)
  else s'

/-- The per-key half of a permit's release. -/
def releaseEntry (s : Shared T) (k : IpAddr) (now : Instant) : Shared T :=
  match (s.shards (g.shardOf k)).get k with
  | some e =>
    s.setShard (g.shardOf k) ((s.shards (g.shardOf k)).put k (g.release now e))
  | none => s

/-- The global half of a permit's release. -/
def releaseGlobal (s : Shared T) : Shared T :=
  if 0 < g.maxActive then s.setActive (s.globalActive - 1) else s

@[simp] theorem rollback_locked (s : Shared T) (k : IpAddr) (b : Bool) :
    (g.rollback s k b).locked = s.locked := by
  unfold rollback
  split <;> split <;> rfl

@[simp] theorem releaseGlobal_locked (s : Shared T) :
    (g.releaseGlobal s).locked = s.locked := by
  unfold releaseGlobal
  split <;> rfl

@[simp] theorem releaseEntry_locked (s : Shared T) (k : IpAddr) (now : Instant) :
    (g.releaseEntry s k now).locked = s.locked := by
  unfold releaseEntry
  split <;> rfl

/-- The global cap is on and reached. -/
def saturated (n : ℕ) : Prop := 0 < g.maxActive ∧ g.maxActive ≤ n

instance (n : ℕ) : Decidable (g.saturated n) :=
  inferInstanceAs (Decidable (_ ∧ _))

/-! ## One call on its own -/

/-- The last part of a call: the global token, then the commit or the undo. -/
def finish (s : Shared T) (k : IpAddr) (now : Instant) (inserted : Bool) :
    Shared T × Except LimitReason IpAddr :=
  let s' := (s.spendRate now).1
  if (s.spendRate now).2 = false then (g.rollback s' k inserted, .error .globalRate)
  else
    match (s'.shards (g.shardOf k)).get k with
    | some e =>
      (s'.setShard (g.shardOf k) ((s'.shards (g.shardOf k)).put k (g.commit now e)), .ok k)
    | none => (s', .error .perIpRate)

/-- The part of a call after its entry has let it through: the global slot,
then the rest. -/
def reserve (s : Shared T) (k : IpAddr) (now : Instant) (inserted : Bool) :
    Shared T × Except LimitReason IpAddr :=
  if g.saturated s.globalActive then (s, .error .globalConnections)
  else if 0 < g.maxActive then
    g.finish (s.setActive (s.globalActive + 1)) k now inserted
  else g.finish s k now inserted

/-- A call from its first line to its return, with no other call running. -/
def call (s : Shared T) (ip : IpAddr) (now : Instant) :
    Shared T × Except LimitReason IpAddr :=
  let k := g.key ip
  let s' := (s.checkRate now).1
  if (s.checkRate now).2 = false then (s', .error .globalRate)
  else if g.saturated s'.globalActive then (s', .error .globalConnections)
  else if g.perKey = false then
    ((s'.spendRate now).1, if (s'.spendRate now).2 then .ok k else .error .globalRate)
  else
    match g.enter now k (s'.shards (g.shardOf k)) with
    | (q, .error reason) => (s'.setShard (g.shardOf k) q, .error reason)
    | (q, .ok inserted) => g.reserve (s'.setShard (g.shardOf k) q) k now inserted

/-- A permit's drop with no other call running. -/
def drop (s : Shared T) (k : IpAddr) (now : Instant) : Shared T :=
  g.releaseEntry (g.releaseGlobal s) k now

/-! ## Calls taking turns -/

/-- Where a call, or the permit it returned, stands. -/
inductive Proc where
  | start (ip : IpAddr) (now : Instant)
  | load (ip : IpAddr) (now : Instant)
  | spendOnly (now : Instant)
  | lock (ip : IpAddr) (now : Instant)
  | reserve (k : IpAddr) (now : Instant) (inserted : Bool)
  | cas (k : IpAddr) (now : Instant) (inserted : Bool) (seen : ℕ)
  | spend (k : IpAddr) (now : Instant) (inserted : Bool)
  | undo (k : IpAddr) (now : Instant) (inserted : Bool)
  | commit (k : IpAddr) (now : Instant)
  | held (k : IpAddr)
  | releasing (k : IpAddr)
  | dropped
  | passed
  | failed (reason : LimitReason)

/-- What the scheduler decides: whether a compare-exchange fails spuriously,
and the clock a release reads. -/
structure Choice where
  spurious : Bool
  now : Instant

/-- Where a call goes from the shard section: to the compare-exchange loop when
there is a global cap. -/
def afterShard (k : IpAddr) (now : Instant) (inserted : Bool) : Proc :=
  if 0 < g.maxActive then .reserve k now inserted else .spend k now inserted

/-- What a successful call ends in. -/
def granted (k : IpAddr) : Proc := if g.leased then .held k else .passed

/-- One atomic step. A call that finds its shard locked has none. -/
def step (s : Shared T) (p : Proc) (c : Choice) : Option (Shared T × Proc) :=
  match p with
  | .start ip now =>
    some ((s.checkRate now).1,
      if (s.checkRate now).2 then .load ip now else .failed .globalRate)
  | .load ip now =>
    some (s,
      if g.saturated s.globalActive then .failed .globalConnections
      else if g.perKey then .lock ip now
      else .spendOnly now)
  | .spendOnly now =>
    some ((s.spendRate now).1,
      if (s.spendRate now).2 then .passed else .failed .globalRate)
  | .lock ip now =>
    let k := g.key ip
    if s.locked (g.shardOf k) then none
    else
      let entered := g.enter now k (s.shards (g.shardOf k))
      let s' := s.setShard (g.shardOf k) entered.1
      match entered.2 with
      | .error reason => some (s', .failed reason)
      | .ok inserted =>
        some (s'.setLock (g.shardOf k) true, g.afterShard k now inserted)
  | .reserve k now inserted => some (s, .cas k now inserted s.globalActive)
  | .cas k now inserted seen =>
    if g.maxActive ≤ seen then
      some (s.setLock (g.shardOf k) false, .failed .globalConnections)
    else if s.globalActive = seen ∧ c.spurious = false then
      some (s.setActive (seen + 1), .spend k now inserted)
    else some (s, .cas k now inserted s.globalActive)
  | .spend k now inserted =>
    some ((s.spendRate now).1,
      if (s.spendRate now).2 then .commit k now else .undo k now inserted)
  | .undo k _ inserted =>
    some ((g.rollback s k inserted).setLock (g.shardOf k) false,
      .failed .globalRate)
  | .commit k now =>
    match (s.shards (g.shardOf k)).get k with
    | some e =>
      some ((s.setShard (g.shardOf k)
        ((s.shards (g.shardOf k)).put k (g.commit now e))).setLock (g.shardOf k) false,
        g.granted k)
    | none => some (s.setLock (g.shardOf k) false, .failed .perIpRate)
  | .held k => some (g.releaseGlobal s, .releasing k)
  | .releasing k =>
    if s.locked (g.shardOf k) then none
    else some (g.releaseEntry s k c.now, .dropped)
  | .dropped => none
  | .passed => none
  | .failed _ => none

def program : Program (Shared T) Proc (IpAddr × Instant) Choice where
  start a := .start a.1 a.2
  step := g.step

/-! ## Everything one step can do -/

inductive Moves : Shared T → Proc → Shared T → Proc → Prop
  | rateOk {s ip now} : (s.checkRate now).2 = true →
      Moves s (.start ip now) (s.checkRate now).1 (.load ip now)
  | rateEmpty {s ip now} : (s.checkRate now).2 = false →
      Moves s (.start ip now) (s.checkRate now).1 (.failed .globalRate)
  | full {s ip now} : g.saturated s.globalActive →
      Moves s (.load ip now) s (.failed .globalConnections)
  | toShard {s ip now} : g.perKey = true → Moves s (.load ip now) s (.lock ip now)
  | toSpend {s ip now} : g.perKey = false → Moves s (.load ip now) s (.spendOnly now)
  | spentOnly {s now} : (s.spendRate now).2 = true →
      Moves s (.spendOnly now) (s.spendRate now).1 .passed
  | emptyOnly {s now} : (s.spendRate now).2 = false →
      Moves s (.spendOnly now) (s.spendRate now).1 (.failed .globalRate)
  | refused {s ip now q reason} : s.locked (g.shardOf (g.key ip)) = false →
      g.enter now (g.key ip) (s.shards (g.shardOf (g.key ip))) = (q, .error reason) →
      Moves s (.lock ip now) (s.setShard (g.shardOf (g.key ip)) q) (.failed reason)
  | entered {s ip now q inserted} : s.locked (g.shardOf (g.key ip)) = false →
      g.enter now (g.key ip) (s.shards (g.shardOf (g.key ip))) = (q, .ok inserted) →
      Moves s (.lock ip now)
        ((s.setShard (g.shardOf (g.key ip)) q).setLock (g.shardOf (g.key ip)) true)
        (g.afterShard (g.key ip) now inserted)
  | loaded {s k now inserted} :
      Moves s (.reserve k now inserted) s (.cas k now inserted s.globalActive)
  | capped {s k now inserted seen} : g.maxActive ≤ seen →
      Moves s (.cas k now inserted seen) (s.setLock (g.shardOf k) false)
        (.failed .globalConnections)
  | swapped {s k now inserted} : s.globalActive < g.maxActive →
      Moves s (.cas k now inserted s.globalActive) (s.setActive (s.globalActive + 1))
        (.spend k now inserted)
  | retried {s k now inserted seen} :
      Moves s (.cas k now inserted seen) s (.cas k now inserted s.globalActive)
  | spent {s k now inserted} : (s.spendRate now).2 = true →
      Moves s (.spend k now inserted) (s.spendRate now).1 (.commit k now)
  | unspent {s k now inserted} : (s.spendRate now).2 = false →
      Moves s (.spend k now inserted) (s.spendRate now).1 (.undo k now inserted)
  | undone {s k now inserted} :
      Moves s (.undo k now inserted)
        ((g.rollback s k inserted).setLock (g.shardOf k) false) (.failed .globalRate)
  | committed {s k now e} : (s.shards (g.shardOf k)).get k = some e →
      Moves s (.commit k now)
        ((s.setShard (g.shardOf k)
          ((s.shards (g.shardOf k)).put k (g.commit now e))).setLock (g.shardOf k) false)
        (g.granted k)
  | missing {s k now} : (s.shards (g.shardOf k)).get k = none →
      Moves s (.commit k now) (s.setLock (g.shardOf k) false) (.failed .perIpRate)
  | releasedGlobal {s k} : Moves s (.held k) (g.releaseGlobal s) (.releasing k)
  | releasedEntry {s k now} : s.locked (g.shardOf k) = false →
      Moves s (.releasing k) (g.releaseEntry s k now) .dropped

theorem moves_of_step {s s' : Shared T} {p p' : Proc} {c : Choice}
    (h : g.step s p c = some (s', p')) : g.Moves s p s' p' := by
  cases p with
  | start ip now =>
    cases hr : (s.checkRate now).2 <;> simp only [step, hr] at h <;> cases h
    · exact .rateEmpty hr
    · exact .rateOk hr
  | load ip now =>
    by_cases hs : g.saturated s.globalActive
    · simp only [step, if_pos hs] at h
      cases h
      exact .full hs
    · cases hk : g.perKey <;> simp only [step, if_neg hs, hk] at h <;> cases h
      · exact .toSpend hk
      · exact .toShard hk
  | spendOnly now =>
    cases hr : (s.spendRate now).2 <;> simp only [step, hr] at h <;> cases h
    · exact .emptyOnly hr
    · exact .spentOnly hr
  | lock ip now =>
    cases hl : s.locked (g.shardOf (g.key ip)) with
    | true => simp [step, hl] at h
    | false =>
      rcases he : g.enter now (g.key ip) (s.shards (g.shardOf (g.key ip)))
        with ⟨q, reason | inserted⟩
      · simp only [step, hl, he] at h
        cases h
        exact .refused hl he
      · simp only [step, hl, he] at h
        cases h
        exact .entered hl he
  | reserve k now inserted =>
    cases h
    exact .loaded
  | cas k now inserted seen =>
    by_cases hcap : g.maxActive ≤ seen
    · simp only [step, if_pos hcap] at h
      cases h
      exact .capped hcap
    · by_cases hswap : s.globalActive = seen ∧ c.spurious = false
      · simp only [step, if_neg hcap, if_pos hswap] at h
        cases h
        obtain ⟨rfl, -⟩ := hswap
        exact .swapped (not_le.mp hcap)
      · simp only [step, if_neg hcap, if_neg hswap] at h
        cases h
        exact .retried
  | spend k now inserted =>
    cases hr : (s.spendRate now).2 <;> simp only [step, hr] at h <;> cases h
    · exact .unspent hr
    · exact .spent hr
  | undo k now inserted =>
    cases h
    exact .undone
  | commit k now =>
    cases he : (s.shards (g.shardOf k)).get k with
    | none =>
      simp only [step, he] at h
      cases h
      exact .missing he
    | some e =>
      simp only [step, he] at h
      cases h
      exact .committed he
  | held k =>
    cases h
    exact .releasedGlobal
  | releasing k =>
    cases hl : s.locked (g.shardOf k) with
    | true => simp [step, hl] at h
    | false =>
      simp only [step, hl] at h
      cases h
      exact .releasedEntry hl
  | dropped => cases h
  | passed => cases h
  | failed reason => cases h

end Gate

end AlturaProt.Limiter
