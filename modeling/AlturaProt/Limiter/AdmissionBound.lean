import AlturaProt.Foundation.Metering
import AlturaProt.Limiter.KeyLimiters
import AlturaProt.Limiter.Solo

/-!
# How much a key can be granted

The limiters with a bucket per key are meters: the account of a key is its
bucket, or a full bucket if the key is not tracked. `Served` lists what one
operation may do to that account. Forgetting a bucket is the only step that can
raise it, by as much as the bucket was short of full; the request limiters
forget a bucket only after `120` idle seconds, the connection limiters as soon
as its client has no connection open.
-/

namespace AlturaProt.Limiter

open Foundation

/-! ## The account of one key -/

namespace TokenBucket

/-- The tokens a key can count on at `t`. -/
def levelOf (burst : ℕ) (o : Option TokenBucket) (t : Instant) : ℚ :=
  match o with
  | some b => b.level t
  | none => effectiveCapacity burst

/-- What one operation at `now` may do to the bucket of a key; the flag tells
whether it was granted a token. -/
inductive Served (rate : ℚ) (burst : ℕ) (slack : ℚ) (now : Instant) :
    Option TokenBucket → Option TokenBucket → Bool → Prop
  | same {o} : Served rate burst slack now o o false
  | refilled {b} : Served rate burst slack now (some b) (some (b.refill now)) false
  | opened : Served rate burst slack now none (some (new rate burst now)) false
  | evicted {b} : (WellFormed rate (effectiveCapacity burst) b →
        effectiveCapacity burst ≤ b.level now + slack) →
      Served rate burst slack now (some b) none false
  | spent {b} : 1 ≤ b.level now →
      Served rate burst slack now (some b) (some ((b.refill now).consume 1)) true
  | openedSpent : Served rate burst slack now none
      (some ((new rate burst now).consume 1)) true

variable {rate slack : ℚ} {burst : ℕ} {now : Instant} {o o' : Option TokenBucket}
  {granted : Bool}

theorem Served.wellFormed (h : Served rate burst slack now o o' granted) (hrate : 0 ≤ rate)
    (hwf : ∀ b ∈ o, WellFormed rate (effectiveCapacity burst) b) :
    ∀ b ∈ o', WellFormed rate (effectiveCapacity burst) b := by
  have hnew := wellFormed_new hrate burst now
  cases h with
  | same => exact hwf
  | @refilled b =>
    rintro _ ⟨⟩
    exact (hwf b rfl).refill now
  | opened =>
    rintro _ ⟨⟩
    exact hnew
  | evicted _ => simp
  | @spent b hb =>
    rintro _ ⟨⟩
    exact ((hwf b rfl).refill now).consume hb
  | openedSpent =>
    rintro _ ⟨⟩
    exact hnew.consume (effectiveCapacity_pos burst)

/-- A grant costs a token, and only an eviction can add to the account. -/
theorem Served.level_le (h : Served rate burst slack now o o' granted)
    (hwf : ∀ b ∈ o, WellFormed rate (effectiveCapacity burst) b) :
    levelOf burst o' now + granted.toNat ≤
      levelOf burst o now + slack * (o.isSome && !o'.isSome).toNat := by
  have hfresh : ((new rate burst now).consume 1).level now = effectiveCapacity burst - 1 := by
    have h := level_consume_refill (new rate burst now) now 1
    rwa [refill_new, level_new] at h
  cases h with
  | same => cases o <;> simp
  | refilled => simp [levelOf]
  | opened => simp [levelOf]
  | @evicted b hb => simpa [levelOf] using hb (hwf b rfl)
  | spent _ => simp [levelOf]
  | openedSpent => simp [levelOf, hfresh]

section Machine

variable {σ α : Type} {step : σ → α → σ} {time : α → ℚ} {bucketOf : σ → Option TokenBucket}
  {grant : σ → α → Bool}

/-- A machine whose every step serves the bucket of one key is a meter. -/
def meter (hrate : 0 ≤ rate) (hslack : 0 ≤ slack)
    (hserved : ∀ s e, Served rate burst slack (time e) (bucketOf s) (bucketOf (step s e))
      (grant s e)) : Meter σ α where
  step := step
  time := time
  grant := grant
  forgive := lost step (fun s => (bucketOf s).isSome)
  balance s t := levelOf burst (bucketOf s) t
  cap := effectiveCapacity burst
  rate := rate
  slack := slack
  Inv s := ∀ b ∈ bucketOf s, WellFormed rate (effectiveCapacity burst) b
  inv_step s e hs := (hserved s e).wellFormed hrate hs
  rate_nonneg := hrate
  slack_nonneg := hslack
  balance_nonneg s t hs := by
    cases hb : bucketOf s with
    | none => exact le_trans zero_le_one (effectiveCapacity_pos burst)
    | some b => exact (hs b hb).level_nonneg t
  balance_le s t hs := by
    cases hb : bucketOf s with
    | none => exact le_rfl
    | some b => exact (hs b hb).level_le t
  balance_grow s t t' hs htt := by
    cases hb : bucketOf s with
    | none =>
      have := mul_nonneg hrate (sub_nonneg.mpr htt)
      simp only [levelOf]
      linarith
    | some b => exact (hs b hb).level_grow htt
  balance_step s e hs := (hserved s e).level_le hs

/-- **Grants of one key.** In any window of a run that starts without a bucket,
the grants are at most one full bucket, what is refilled inside the window, and
the slack of every time the bucket is forgotten inside the window. -/
theorem grants_le_of_served (bucketOf : σ → Option TokenBucket) (hrate : 0 ≤ rate)
    (hslack : 0 ≤ slack)
    (hserved : ∀ s e, Served rate burst slack (time e) (bucketOf s) (bucketOf (step s e))
      (grant s e)) {s : σ} (hs : bucketOf s = none) {es : List α}
    (hsorted : es.Pairwise (fun x y => time x ≤ time y)) {a t : ℚ} (ht : 0 ≤ t) :
    (countRun step (within time a (a + t) grant) s es : ℚ) ≤
      effectiveCapacity burst + rate * t + slack *
        countRun step (within time a (a + t) (lost step (fun s => (bucketOf s).isSome))) s es := by
  have hinit : (meter hrate hslack hserved).Inv s := by
    intro b hb
    rw [hs] at hb
    cases hb
  have hbound := (meter hrate hslack hserved).grants_le
    (show a ≤ a + t from le_add_of_nonneg_right ht) es s hinit hsorted
  rw [show a + t - a = t by ring] at hbound
  exact hbound

end Machine

/-- What is forgotten with a bucket that has been idle for longer than `idle`. -/
def shortfall (idle rate : ℚ) (burst : ℕ) : ℚ :=
  max 0 (effectiveCapacity burst - idle * rate)

theorem WellFormed.le_level_add_shortfall {b : TokenBucket} {idle : ℚ}
    (h : WellFormed rate (effectiveCapacity burst) b) (hidle : 0 ≤ idle)
    (hs : b.stale now idle = true) :
    effectiveCapacity burst ≤ b.level now + shortfall idle rate burst := by
  have hlevel := h.level_of_stale hidle hs
  unfold shortfall
  rcases le_total (idle * rate) (effectiveCapacity burst) with hle | hle
  · rw [min_eq_left hle] at hlevel
    have := le_max_right 0 (effectiveCapacity burst - idle * rate)
    linarith
  · rw [min_eq_right hle] at hlevel
    have := le_max_left 0 (effectiveCapacity burst - idle * rate)
    linarith

end TokenBucket

open TokenBucket

/-! ## Gates with a bucket in every entry -/

namespace Gate

variable {T : Type} {g : Gate T} {view : T → TokenBucket} {rate slack : ℚ} {burst : ℕ}

/-- The entries of a gate hold a bucket each, and a grant costs a token. -/
structure Metered (g : Gate T) (view : T → TokenBucket) (rate : ℚ) (burst : ℕ)
    (slack : ℚ) : Prop where
  perKey : g.perKey = true
  fresh : ∀ now, view (g.fresh now) = TokenBucket.new rate burst now
  judged : ∀ now e, view (g.judge now e).1 = view e ∨
    view (g.judge now e).1 = (view e).refill now
  granted : ∀ now e, (g.judge now e).2 = none →
    view (g.judge now e).1 = (view e).refill now ∧ 1 ≤ (view e).level now
  committed : ∀ now e, view (g.commit now e) = (view e).consume 1
  released : ∀ now e, view (g.release now e) = view e
  evicted : ∀ now e, g.evictable now e = true →
    WellFormed rate (effectiveCapacity burst) (view e) →
    effectiveCapacity burst ≤ (view e).level now + slack

theorem Net.served (hm : g.Metered view rate burst slack) {ip k : IpAddr} {now : Instant}
    {o o' : Option T} {granted : Bool} (h : g.Net ip now k o o' granted) :
    Served rate burst slack now (o.map view) (o'.map view) granted := by
  cases h with
  | same => exact .same
  | evicted _ hev => exact .evicted (hm.evicted now _ hev)
  | @looked e _ =>
    rw [Option.map_some, Option.map_some]
    rcases hm.judged now e with he | he
    · rw [he]
      exact .same
    · rw [he]
      exact .refilled
  | inserted _ =>
    have hnew : view (g.judge now (g.fresh now)).1 = TokenBucket.new rate burst now := by
      rcases hm.judged now (g.fresh now) with he | he
      · rw [he, hm.fresh]
      · rw [he, hm.fresh, refill_new]
    rw [Option.map_none, Option.map_some, hnew]
    exact .opened
  | @taken e _ hadm =>
    obtain ⟨hview, hone⟩ := hm.granted now e hadm
    rw [Option.map_some, Option.map_some, hm.committed, hview]
    exact .spent hone
  | opened _ hadm =>
    obtain ⟨hview, -⟩ := hm.granted now (g.fresh now) hadm
    rw [Option.map_none, Option.map_some, hm.committed, hview, hm.fresh, refill_new]
    exact .openedSpent

/-! ## Runs of calls and drops -/

/-- A limiter with the permits its callers hold. -/
structure Live (T : Type) where
  shared : Shared T
  held : List IpAddr

inductive Op where
  | acquire (ip : IpAddr) (now : Instant)
  | drop (i : ℕ) (now : Instant)

def Op.time : Op → Instant
  | .acquire _ now => now
  | .drop _ now => now

/-- One operation: a call that keeps its permit if it gets one, or the drop of a
permit that is held. -/
def Live.step (g : Gate T) (s : Live T) : Op → Live T
  | .acquire ip now =>
    match g.call s.shared ip now with
    | (shared, .ok k) => ⟨shared, s.held ++ [k]⟩
    | (shared, .error _) => ⟨shared, s.held⟩
  | .drop i now =>
    match s.held[i]? with
    | some k => ⟨g.drop s.shared k now, s.held.eraseIdx i⟩
    | none => s

/-- The operation is a successful call for `k`. -/
def Live.opens (g : Gate T) (k : IpAddr) (s : Live T) : Op → Bool
  | .acquire ip now => g.grants s.shared ip now k
  | .drop _ _ => false

/-- The limiter has an entry for `k`. -/
def Live.tracks (g : Gate T) (k : IpAddr) (s : Live T) : Bool := (g.entry s.shared k).isSome

/-- Successful calls for `k` inside `[a, b]`. -/
def Live.opensIn (g : Gate T) (k : IpAddr) (a b : ℚ) (s : Live T) (ops : List Op) : ℕ :=
  countRun (Live.step g) (within Op.time a b (Live.opens g k)) s ops

/-- Evictions of `k` inside `[a, b]`. -/
def Live.evictionsIn (g : Gate T) (k : IpAddr) (a b : ℚ) (s : Live T) (ops : List Op) : ℕ :=
  countRun (Live.step g) (within Op.time a b (lost (Live.step g) (Live.tracks g k))) s ops

theorem Live.step_acquire_shared (s : Live T) (ip : IpAddr) (now : Instant) :
    (s.step g (.acquire ip now)).shared = (g.call s.shared ip now).1 := by
  simp only [Live.step]
  split <;> rename_i h <;> rw [h]

theorem entry_drop (s : Shared T) (k k' : IpAddr) (now : Instant) :
    g.entry (g.drop s k now) k' =
      if k' = k then (g.entry s k).map (g.release now) else g.entry s k' := by
  rw [drop, entry_releaseEntry, entry_releaseGlobal, entry_releaseGlobal]

theorem Live.served (hm : g.Metered view rate burst slack) (k : IpAddr) (s : Live T) (op : Op) :
    Served rate burst slack op.time ((g.entry s.shared k).map view)
      ((g.entry (s.step g op).shared k).map view) (s.opens g k op) := by
  cases op with
  | acquire ip now =>
    rw [Live.step_acquire_shared]
    exact (call_net hm.perKey s.shared ip now k).served hm
  | drop i now =>
    have hsame : (g.entry (s.step g (.drop i now)).shared k).map view =
        (g.entry s.shared k).map view := by
      simp only [Live.step]
      split
      · rw [entry_drop]
        split
        · rename_i hk
          subst hk
          cases g.entry s.shared k with
          | none => rfl
          | some e => exact congrArg some (hm.released now e)
        · rfl
      · rfl
    rw [hsame]
    exact .same

/-- **Grants of a metered gate.** In any window of any run from the start, the
grants for `k` are at most one full bucket, what is refilled, and the slack of
every eviction of `k` inside the window. -/
theorem Metered.opens_le (hm : g.Metered view rate burst slack) (hrate : 0 ≤ rate)
    (hslack : 0 ≤ slack) (b : Option TokenBucket) (k : IpAddr) (ops : List Op)
    (hsorted : ops.Pairwise (fun x y => x.time ≤ y.time)) (a t : ℚ) (ht : 0 ≤ t) :
    (Live.opensIn g k a (a + t) ⟨Shared.idle b, []⟩ ops : ℚ) ≤
      effectiveCapacity burst + rate * t +
        slack * Live.evictionsIn g k a (a + t) ⟨Shared.idle b, []⟩ ops := by
  have hnone : (g.entry (Shared.idle b) k).map view = none := by
    rfl
  have hbound := grants_le_of_served (fun s : Live T => (g.entry s.shared k).map view)
    hrate hslack (Live.served hm k) (s := ⟨Shared.idle b, []⟩) hnone hsorted ht (a := a)
  simp only [Option.isSome_map] at hbound
  exact hbound

end Gate

/-! ## Maps with a bucket in every entry -/

section MeteredMap

variable {T : Type} {view : T → TokenBucket} {rate slack : ℚ} {burst : ℕ} {now : Instant}
  {ensure : LimiterShard Str T → LimiterShard Str T × Bool} {evictable : T → Bool}
  {fresh : T} {f : T → T × Bool}

/-- A visit that asks the bucket of its entry for a token. -/
structure MeteredMap (view : T → TokenBucket) (rate : ℚ) (burst : ℕ) (slack : ℚ)
    (now : Instant) (ensure : LimiterShard Str T → LimiterShard Str T × Bool)
    (evictable : T → Bool) (fresh : T) (f : T → T × Bool) : Prop where
  reclaimed : ∀ q, KeyedQueue.Reclaimed evictable q (ensure q).1
  fresh : view fresh = TokenBucket.new rate burst now
  visited : ∀ e, view (f e).1 = ((view e).allow now 1).1
  evicted : ∀ e, evictable e = true → WellFormed rate (effectiveCapacity burst) (view e) →
    effectiveCapacity burst ≤ (view e).level now + slack

theorem served_allow (b : TokenBucket) :
    Served rate burst slack now (some b) (some (b.allow now 1).1) (b.allow now 1).2 := by
  unfold TokenBucket.allow
  split
  · exact .spent ‹_›
  · exact .refilled

theorem served_allow_new :
    Served rate burst slack now none (some ((TokenBucket.new rate burst now).allow now 1).1)
      ((TokenBucket.new rate burst now).allow now 1).2 := by
  have hfull : (1 : ℚ) ≤ (TokenBucket.new rate burst now).tokens := effectiveCapacity_pos burst
  rw [TokenBucket.allow, refill_new, if_pos hfull]
  exact .openedSpent

theorem MeteredMap.visit_of_ne (hm : MeteredMap view rate burst slack now ensure evictable fresh f)
    (idx : Str → Fin SHARDS) (m : KeyShards T) {key k : Str} (hne : k ≠ key) :
    Served rate burst slack now ((m.get idx k).map view)
      (((m.visit idx ensure fresh f key).1.get idx k).map view) false := by
  rcases Shards.get_visit_of_ne idx m hm.reclaimed fresh f hne with heq | ⟨e, h0, hev, h1⟩
  · rw [heq]
    exact .same
  · rw [h0, h1]
    exact .evicted (hm.evicted e hev)

/-- The visited key itself: no room, or its bucket, old or new, was asked. -/
theorem MeteredMap.visit_self (hm : MeteredMap view rate burst slack now ensure evictable fresh f)
    (idx : Str → Fin SHARDS) (m : KeyShards T) (key : Str) :
    ((m.visit idx ensure fresh f key).2 = none ∧
      Served rate burst slack now ((m.get idx key).map view)
        (((m.visit idx ensure fresh f key).1.get idx key).map view) false) ∨
    ∃ e, (m.visit idx ensure fresh f key).2 = some ((f e).2, (m.get idx key).isNone) ∧
      (view e).level now = levelOf burst ((m.get idx key).map view) now ∧
      Served rate burst slack now ((m.get idx key).map view)
        (((m.visit idx ensure fresh f key).1.get idx key).map view)
        ((view e).allow now 1).2 := by
  rcases Shards.get_visit_self idx m hm.reclaimed fresh f key with
    ⟨h0, h1, hr⟩ | ⟨e, h0, h1, hr⟩
  · refine Or.inl ⟨hr, ?_⟩
    rw [h0, h1]
    exact .same
  · refine Or.inr ⟨e, hr, ?_⟩
    rw [h1, Option.map_some, hm.visited]
    rcases h0 with h0 | ⟨h0, rfl⟩
    · rw [h0]
      exact ⟨rfl, served_allow _⟩
    · rw [h0, hm.fresh]
      exact ⟨level_new _ _ _, served_allow_new⟩

end MeteredMap

/-! ## Requests -/

namespace RateLimiter

variable (l : RateLimiter) (hash : IpAddr → ℕ) (k : IpAddr)

/-- One call, at the time it reads. -/
def next (s : Shared IpBucket) (call : IpAddr × Instant) : Shared IpBucket :=
  (l.check hash s call.1 call.2).1

/-- The call is for the key `k` and is allowed. -/
def admits (s : Shared IpBucket) (call : IpAddr × Instant) : Bool :=
  decide ((l.gate hash).key call.1 = k) && (l.check hash s call.1 call.2).2.allowed

/-- The limiter has an entry for `k`. -/
def tracks (s : Shared IpBucket) : Bool := ((l.gate hash).entry s k).isSome

/-- Admitted calls for `k` inside `[a, b]`. -/
def admittedIn (a b : ℚ) (s : Shared IpBucket) (calls : List (IpAddr × Instant)) : ℕ :=
  countRun (l.next hash) (within Prod.snd a b (l.admits hash k)) s calls

/-- Evictions of `k` inside `[a, b]`. -/
def evictionsIn (a b : ℚ) (s : Shared IpBucket) (calls : List (IpAddr × Instant)) : ℕ :=
  countRun (l.next hash) (within Prod.snd a b (lost (l.next hash) (l.tracks hash k))) s calls

theorem metered (h : 0 < l.perIpRps) :
    (l.gate hash).Metered IpBucket.bucket l.perIpRps l.perIpBurst
      (shortfall trackedIpIdle l.perIpRps l.perIpBurst) where
  perKey := decide_eq_true h
  fresh _ := rfl
  judged _ _ := Or.inr rfl
  granted now e hadm := by
    refine ⟨rfl, ?_⟩
    by_contra hlt
    simp [gate, judge, TokenBucket.hasTokens, TokenBucket.level] at hadm hlt
    exact absurd hadm (not_le.mpr hlt)
  committed _ _ := rfl
  released _ _ := rfl
  evicted _ _ hstale hwf := hwf.le_level_add_shortfall (by decide +kernel) hstale

theorem next_eq (s : Shared IpBucket) (call : IpAddr × Instant) :
    l.next hash s call = ((l.gate hash).call s call.1 call.2).1 := by
  unfold next check
  split <;> rename_i h <;> rw [h]

theorem admits_eq (s : Shared IpBucket) (call : IpAddr × Instant) :
    l.admits hash k s call = (l.gate hash).grants s call.1 call.2 k := by
  unfold admits check Gate.grants
  split
  · rename_i s' k' h
    have hok : ((l.gate hash).call s call.1 call.2).2 = .ok k' := by rw [h]
    obtain rfl := (l.gate hash).call_ok_key s call.1 call.2 hok
    rw [h]
    simp [LimitDecision.allow]
  · rename_i s' reason h
    rw [h]
    simp [LimitDecision.deny]

theorem served (h : 0 < l.perIpRps) (s : Shared IpBucket) (call : IpAddr × Instant) :
    Served l.perIpRps l.perIpBurst (shortfall trackedIpIdle l.perIpRps l.perIpBurst) call.2
      (((l.gate hash).entry s k).map IpBucket.bucket)
      (((l.gate hash).entry (l.next hash s call) k).map IpBucket.bucket)
      (l.admits hash k s call) := by
  rw [next_eq, admits_eq]
  exact (Gate.call_net (l.metered hash h).perKey s call.1 call.2 k).served (l.metered hash h)

end RateLimiter

namespace KeyRateLimiter

variable (l : KeyRateLimiter) (hash : Str → ℕ) (k : Str)

/-- One call, at the time it reads. -/
def next (s : KeyShards KeyBucket) (call : Str × Instant) : KeyShards KeyBucket :=
  (l.check hash s call.1 call.2).1

/-- The call is for the key `k` and is allowed. -/
def admits (s : KeyShards KeyBucket) (call : Str × Instant) : Bool :=
  decide (call.1 = k) && (l.check hash s call.1 call.2).2

/-- The limiter has an entry for `k`. -/
def tracks (s : KeyShards KeyBucket) : Bool := (s.get (hashedShard hash) k).isSome

/-- Admitted calls for `k` inside `[a, b]`. -/
def admittedIn (a b : ℚ) (s : KeyShards KeyBucket) (calls : List (Str × Instant)) : ℕ :=
  countRun (l.next hash) (within Prod.snd a b (l.admits hash k)) s calls

/-- Evictions of `k` inside `[a, b]`. -/
def evictionsIn (a b : ℚ) (s : KeyShards KeyBucket) (calls : List (Str × Instant)) : ℕ :=
  countRun (l.next hash) (within Prod.snd a b (lost (l.next hash) (tracks hash k))) s calls

theorem served (h : 0 < l.rps) (s : KeyShards KeyBucket) (call : Str × Instant) :
    Served l.rps l.burst (shortfall trackedSignatureIdle l.rps l.burst) call.2
      ((s.get (hashedShard hash) k).map KeyBucket.bucket)
      (((l.next hash s call).get (hashedShard hash) k).map KeyBucket.bucket)
      (l.admits hash k s call) := by
  obtain ⟨key, now⟩ := call
  have hcheck : l.check hash s key now =
      ((l.visit hash now key s).1, allowed (l.visit hash now key s).2) := by
    rw [check, if_neg (not_le.mpr h)]
  have hm : MeteredMap KeyBucket.bucket l.rps l.burst
      (shortfall trackedSignatureIdle l.rps l.burst) now
      (fun q => ensureKeyShardCapacity q l.maxTrackedKeys now) (keyIsStale now)
      (l.fresh now) (serve now) :=
    ⟨fun q => reclaimed_ensureByStale _ _ q, rfl, fun _ => rfl,
      fun _ hstale hwf => hwf.le_level_add_shortfall (by decide +kernel) hstale⟩
  simp only [next, admits, hcheck]
  by_cases hk : key = k
  · subst hk
    rw [decide_eq_true rfl, Bool.true_and]
    rcases hm.visit_self (hashedShard hash) s key with ⟨hr, hserved⟩ | ⟨e, hr, -, hserved⟩
    · rw [visit, hr]
      exact hserved
    · rw [visit, hr]
      exact hserved
  · rw [decide_eq_false hk, Bool.false_and]
    exact hm.visit_of_ne (hashedShard hash) s (Ne.symm hk)

end KeyRateLimiter

/-- **Request admission.** In every run of calls in time order, the calls for a
key admitted inside a window of `T` seconds are at most a full bucket and the
refill of the window, plus, for every time the key is evicted inside the window,
what its bucket could have been short of after the idle time. -/
theorem request_admission_bound :
    (∀ (l : RateLimiter) (hash : IpAddr → ℕ) (global : Option TokenBucket)
      (calls : List (IpAddr × Instant)) (k : IpAddr) (a T : ℚ), 0 < l.perIpRps →
      calls.Pairwise (fun x y => x.2 ≤ y.2) → 0 ≤ T →
      (l.admittedIn hash k a (a + T) (Shared.idle global) calls : ℚ) ≤
        effectiveCapacity l.perIpBurst + l.perIpRps * T +
          shortfall trackedIpIdle l.perIpRps l.perIpBurst *
            l.evictionsIn hash k a (a + T) (Shared.idle global) calls) ∧
    (∀ (l : KeyRateLimiter) (hash : Str → ℕ) (calls : List (Str × Instant))
      (k : Str) (a T : ℚ), 0 < l.rps →
      calls.Pairwise (fun x y => x.2 ≤ y.2) → 0 ≤ T →
      (l.admittedIn hash k a (a + T) Shards.empty calls : ℚ) ≤
        effectiveCapacity l.burst + l.rps * T +
          shortfall trackedSignatureIdle l.rps l.burst *
            l.evictionsIn hash k a (a + T) Shards.empty calls) := by
  constructor
  · intro l hash global calls k a T hrps hsorted hT
    have hnone : ((l.gate hash).entry (Shared.idle global) k).map IpBucket.bucket = none := by
      rfl
    have hbound := grants_le_of_served
      (fun s => ((l.gate hash).entry s k).map IpBucket.bucket) hrps.le (le_max_left 0 _)
      (l.served hash k hrps) hnone hsorted hT (a := a)
    simp only [Option.isSome_map] at hbound
    exact hbound
  · intro l hash calls k a T hrps hsorted hT
    have hnone : ((Shards.empty : KeyShards KeyBucket).get (hashedShard hash) k).map
        KeyBucket.bucket = none := by
      rfl
    have hbound := grants_le_of_served
      (fun s : KeyShards KeyBucket => (s.get (hashedShard hash) k).map KeyBucket.bucket)
      hrps.le (le_max_left 0 _) (l.served hash k hrps) hnone hsorted hT (a := a)
    simp only [Option.isSome_map] at hbound
    exact hbound

/-- A key uses up its burst, is displaced by another after the idle time, and
displaces that one in turn. -/
def displaced {K : Type} (k other : K) : List (K × Instant) :=
  [(k, 0), (k, 0), (k, 0), (other, 121), (k, 242), (k, 242), (k, 242)]

/-- A burst of three, refilled at one token in a hundred seconds, and room for
one key in a shard. -/
def slowKeys : KeyRateLimiter := KeyRateLimiter.new (1 / 100) 3 1

/-- The same for client addresses. -/
def slowClients : RateLimiter :=
  RateLimiter.new { perIpRps := 1 / 100, perIpBurst := 3, maxTrackedIps := 1 }

theorem request_admission_bound_displaced :
    (slowClients.admittedIn (fun _ => 0) (.v4 0x0A00031B) 0 (0 + 242) (Shared.idle none)
      (displaced (.v4 0x0A00031B) (.v4 0x0A00086A)) : ℚ) ≤
      effectiveCapacity 3 + 1 / 100 * 242 + shortfall trackedIpIdle (1 / 100) 3 *
        slowClients.evictionsIn (fun _ => 0) (.v4 0x0A00031B) 0 (0 + 242) (Shared.idle none)
          (displaced (.v4 0x0A00031B) (.v4 0x0A00086A)) ∧
    (slowKeys.admittedIn (fun _ => 0) (utf8 "ft") 0 (0 + 242) Shards.empty
      (displaced (utf8 "ft") (utf8 "mq")) : ℚ) ≤
      effectiveCapacity 3 + 1 / 100 * 242 + shortfall trackedSignatureIdle (1 / 100) 3 *
        slowKeys.evictionsIn (fun _ => 0) (utf8 "ft") 0 (0 + 242) Shards.empty
          (displaced (utf8 "ft") (utf8 "mq")) := by
  constructor
  · exact request_admission_bound.1 slowClients (fun _ => 0) none
      (displaced (.v4 0x0A00031B) (.v4 0x0A00086A)) (.v4 0x0A00031B) 0 242
      (by decide +kernel) (by decide +kernel) (by decide +kernel)
  · exact request_admission_bound.2 slowKeys (fun _ => 0)
      (displaced (utf8 "ft") (utf8 "mq")) (utf8 "ft") 0 242
      (by decide +kernel) (by decide +kernel) (by decide +kernel)

/-- Six requests of one key pass within `242` seconds, where burst and refill
come to less than five and a half. -/
theorem displaced_key_exceeds_burst :
    effectiveCapacity 3 + 1 / 100 * 242 <
      (slowKeys.admittedIn (fun _ => 0) (utf8 "ft") 0 (0 + 242) Shards.empty
        (displaced (utf8 "ft") (utf8 "mq")) : ℚ) ∧
    effectiveCapacity 3 + 1 / 100 * 242 <
      (slowClients.admittedIn (fun _ => 0) (.v4 0x0A00031B) 0 (0 + 242) (Shared.idle none)
        (displaced (.v4 0x0A00031B) (.v4 0x0A00086A)) : ℚ) := by
  decide +kernel

/-! ## Connections -/

/-- A look at a connection bucket grants only when a token is there. -/
theorem pollConnects_granted {rate : ℚ} (h : 0 < rate) {b : TokenBucket} {now : Instant}
    (hok : (pollConnects rate b now).2 = true) :
    (pollConnects rate b now).1 = b.refill now ∧ 1 ≤ b.level now := by
  rw [pollConnects, if_pos h] at hok ⊢
  exact ⟨rfl, of_decide_eq_true hok⟩

theorem pollConnects_fst {rate : ℚ} (h : 0 < rate) (b : TokenBucket) (now : Instant) :
    (pollConnects rate b now).1 = b.refill now := by
  rw [pollConnects, if_pos h]
  rfl

theorem ConnectionLimiter.metered (l : ConnectionLimiter) (hash : IpAddr → ℕ)
    (h : 0 < l.perIpConnectsPerSecond) :
    (l.gate hash).Metered ConnEntry.bucket l.perIpConnectsPerSecond l.perIpConnectBurst
      (effectiveCapacity l.perIpConnectBurst) where
  perKey := rfl
  fresh _ := rfl
  judged now e := by
    show (l.judge now e).1.bucket = _ ∨ (l.judge now e).1.bucket = _
    unfold judge
    split
    · exact Or.inl rfl
    · exact Or.inr (pollConnects_fst h e.bucket now)
  granted now e hadm := by
    change (l.judge now e).2 = none at hadm
    show (l.judge now e).1.bucket = _ ∧ _
    unfold judge at hadm ⊢
    split at hadm
    · cases hadm
    · rename_i hbelow
      rw [if_neg hbelow]
      apply pollConnects_granted h
      by_contra hno
      simp [hno] at hadm
  committed _ _ := if_pos h
  released _ _ := rfl
  evicted now _ _ hwf := le_add_of_nonneg_left (hwf.level_nonneg now)

theorem HttpConnectionLimiter.metered (l : HttpConnectionLimiter) (hash : IpAddr → ℕ)
    (h : 0 < l.perIpConnectsPerSecond) :
    (l.gate hash).Metered HttpConnEntry.bucket l.perIpConnectsPerSecond l.perIpConnectBurst
      (effectiveCapacity l.perIpConnectBurst) where
  perKey := rfl
  fresh _ := rfl
  judged now e := Or.inr (pollConnects_fst h e.bucket now)
  granted now e hadm := by
    change (l.judge now e).2 = none at hadm
    apply pollConnects_granted h
    by_contra hno
    simp [judge, Bool.eq_false_of_not_eq_true hno] at hadm
  committed _ _ := if_pos h
  released _ _ := rfl
  evicted now _ _ hwf := le_add_of_nonneg_left (hwf.level_nonneg now)

/-- **Connection opens.** In every run of acquires and drops in time order, the
successful acquires for a key inside a window of `T` seconds are at most a full
bucket and the refill of the window, plus a full bucket for every time the key
is evicted inside the window. -/
theorem connection_open_bound :
    (∀ (cfg : TcpLimitConfig) (hash : IpAddr → ℕ) (now₀ : Instant) (ops : List Gate.Op)
      (k : IpAddr) (a T : ℚ), 0 < cfg.perIpConnectsPerSecond →
      ops.Pairwise (fun x y => x.time ≤ y.time) → 0 ≤ T →
      let g := (ConnectionLimiter.new cfg).gate hash
      (Gate.Live.opensIn g k a (a + T) ⟨ConnectionLimiter.init cfg now₀, []⟩ ops : ℚ) ≤
        effectiveCapacity cfg.perIpConnectBurst + cfg.perIpConnectsPerSecond * T +
          effectiveCapacity cfg.perIpConnectBurst *
            Gate.Live.evictionsIn g k a (a + T) ⟨ConnectionLimiter.init cfg now₀, []⟩ ops) ∧
    (∀ (cfg : HttpLimitConfig) (hash : IpAddr → ℕ) (now₀ : Instant) (ops : List Gate.Op)
      (k : IpAddr) (a T : ℚ), 0 < cfg.perIpConnectsPerSecond →
      ops.Pairwise (fun x y => x.time ≤ y.time) → 0 ≤ T →
      let g := (HttpConnectionLimiter.new cfg).gate hash
      (Gate.Live.opensIn g k a (a + T) ⟨HttpConnectionLimiter.init cfg now₀, []⟩ ops : ℚ) ≤
        effectiveCapacity cfg.perIpConnectBurst + cfg.perIpConnectsPerSecond * T +
          effectiveCapacity cfg.perIpConnectBurst *
            Gate.Live.evictionsIn g k a (a + T) ⟨HttpConnectionLimiter.init cfg now₀, []⟩ ops) := by
  have hcap : ∀ c, 0 ≤ effectiveCapacity c :=
    fun c => le_trans zero_le_one (effectiveCapacity_pos c)
  constructor
  · intro cfg hash now₀ ops k a T hrate hsorted hT
    exact ((ConnectionLimiter.new cfg).metered hash hrate).opens_le hrate.le (hcap _) _ k ops
      hsorted a T hT
  · intro cfg hash now₀ ops k a T hrate hsorted hT
    exact ((HttpConnectionLimiter.new cfg).metered hash hrate).opens_le hrate.le (hcap _) _ k
      ops hsorted a T hT

/-- A client opens and closes a connection, another client of the same shard
does the same, and the first opens again, all in one instant. -/
def churn (k other : IpAddr) : List Gate.Op :=
  [.acquire k 0, .drop 0 0, .acquire other 0, .drop 0 0, .acquire k 0]

/-- One connection per second, no burst, and room for one client in a shard. -/
def oneConnect : HttpLimitConfig :=
  { perIpConnectsPerSecond := 1, perIpConnectBurst := 1, maxTrackedIps := 1 }

/-- The same for a TCP listener. -/
def oneTcpConnect : TcpLimitConfig :=
  { perIpConnectsPerSecond := 1, perIpConnectBurst := 1, maxTrackedIps := 1 }

theorem connection_open_bound_churn :
    (let g := (ConnectionLimiter.new oneTcpConnect).gate (fun _ => 0)
    (Gate.Live.opensIn g (.v4 0x0A00031B) 0 (0 + 1)
      ⟨ConnectionLimiter.init oneTcpConnect 0, []⟩
      (churn (.v4 0x0A00031B) (.v4 0x0A00086A)) : ℚ) ≤
    effectiveCapacity 1 + 1 * 1 + effectiveCapacity 1 *
      Gate.Live.evictionsIn g (.v4 0x0A00031B) 0 (0 + 1)
        ⟨ConnectionLimiter.init oneTcpConnect 0, []⟩
        (churn (.v4 0x0A00031B) (.v4 0x0A00086A))) ∧
    (let g := (HttpConnectionLimiter.new oneConnect).gate (fun _ => 0)
    (Gate.Live.opensIn g (.v4 0x0A00031B) 0 (0 + 1)
      ⟨HttpConnectionLimiter.init oneConnect 0, []⟩
      (churn (.v4 0x0A00031B) (.v4 0x0A00086A)) : ℚ) ≤
    effectiveCapacity 1 + 1 * 1 + effectiveCapacity 1 *
      Gate.Live.evictionsIn g (.v4 0x0A00031B) 0 (0 + 1)
        ⟨HttpConnectionLimiter.init oneConnect 0, []⟩
        (churn (.v4 0x0A00031B) (.v4 0x0A00086A))) := by
  constructor
  · exact connection_open_bound.1 oneTcpConnect (fun _ => 0) 0
      (churn (.v4 0x0A00031B) (.v4 0x0A00086A)) (.v4 0x0A00031B) 0 1
      (by decide +kernel) (by decide +kernel) (by decide +kernel)
  · exact connection_open_bound.2 oneConnect (fun _ => 0) 0
      (churn (.v4 0x0A00031B) (.v4 0x0A00086A)) (.v4 0x0A00031B) 0 1
      (by decide +kernel) (by decide +kernel) (by decide +kernel)

/-- Two connections are opened in one instant on a burst of one. -/
theorem churn_exceeds_burst :
    let g := (HttpConnectionLimiter.new oneConnect).gate (fun _ => 0)
    let g' := (ConnectionLimiter.new oneTcpConnect).gate (fun _ => 0)
    effectiveCapacity 1 + 1 * 0 <
      (Gate.Live.opensIn g (.v4 0x0A00031B) 0 (0 + 0)
        ⟨HttpConnectionLimiter.init oneConnect 0, []⟩
        (churn (.v4 0x0A00031B) (.v4 0x0A00086A)) : ℚ) ∧
    effectiveCapacity 1 + 1 * 0 <
      (Gate.Live.opensIn g' (.v4 0x0A00031B) 0 (0 + 0)
        ⟨ConnectionLimiter.init oneTcpConnect 0, []⟩
        (churn (.v4 0x0A00031B) (.v4 0x0A00086A)) : ℚ) := by
  decide +kernel

end AlturaProt.Limiter
