import Mathlib.Algebra.Order.Field.Rat
import Mathlib.Tactic.Linarith
import Mathlib.Tactic.Ring

/-!
# The token bucket

`TokenBucket` of `src/limiter.rs`, over exact rationals. An `Instant` is a
number of seconds on the monotonic clock; the distance of two instants
saturates at zero, so a reading that is older than `last` refills nothing.

`level b t` is the number of tokens the bucket would show at `t`. Everything
later proofs say about a bucket is said about its level: a refill to `t` does
not change it (`level_refill`), a consumed token lowers it by one
(`level_consume_refill`), and it grows no faster than the refill rate (`level_grow`).

Over a whole run the readings of the clock may go back, and what a bucket holds and has
granted is bounded by the refill up to the latest of them (`WellFormed.granted_le`).
-/

namespace AlturaProt.Limiter

/-- Seconds on the monotonic clock. -/
abbrev Instant : Type := ℚ

/-- `Instant::saturating_duration_since`, in seconds. -/
def saturatingDurationSince (now earlier : Instant) : ℚ := max 0 (now - earlier)

structure TokenBucket where
  capacity : ℚ
  tokens : ℚ
  refillPerSecond : ℚ
  last : Instant
deriving DecidableEq

namespace TokenBucket

/-- The capacity a bucket really gets: `capacity.max(1)`. -/
def effectiveCapacity (capacity : ℕ) : ℚ := (max capacity 1 : ℕ)

def new (refillPerSecond : ℚ) (capacity : ℕ) (now : Instant) : TokenBucket where
  capacity := effectiveCapacity capacity
  tokens := effectiveCapacity capacity
  refillPerSecond := max refillPerSecond 0
  last := now

def refill (b : TokenBucket) (now : Instant) : TokenBucket :=
  if 0 < saturatingDurationSince now b.last then
    { b with
      tokens := min
        (b.tokens + saturatingDurationSince now b.last * b.refillPerSecond)
        b.capacity
      last := now }
  else b

def hasTokens (b : TokenBucket) (now : Instant) (cost : ℚ) : TokenBucket × Bool :=
  (b.refill now, decide (cost ≤ (b.refill now).tokens))

def consume (b : TokenBucket) (cost : ℚ) : TokenBucket :=
  { b with tokens := b.tokens - cost }

def allow (b : TokenBucket) (now : Instant) (cost : ℚ) : TokenBucket × Bool :=
  if cost ≤ (b.refill now).tokens then ((b.refill now).consume cost, true)
  else (b.refill now, false)

def stale (b : TokenBucket) (now : Instant) (maxIdle : ℚ) : Bool :=
  decide (maxIdle < saturatingDurationSince now b.last)

/-- `bucket_try_consume`: the check and the withdrawal in one lock section. -/
def tryConsume (b : TokenBucket) (now : Instant) : TokenBucket × Bool :=
  if (b.hasTokens now 1).2 then ((b.hasTokens now 1).1.consume 1, true)
  else ((b.hasTokens now 1).1, false)

/-! ## The level of a bucket -/

/-- The tokens the bucket shows once it is refilled to `t`. -/
def level (b : TokenBucket) (t : Instant) : ℚ := (b.refill t).tokens

theorem effectiveCapacity_pos (c : ℕ) : 1 ≤ effectiveCapacity c := by
  unfold effectiveCapacity
  exact_mod_cast le_max_right c 1

theorem refill_of_le {b : TokenBucket} {t : Instant} (h : t ≤ b.last) :
    b.refill t = b := by
  have hzero : saturatingDurationSince t b.last = 0 := max_eq_left (sub_nonpos.mpr h)
  rw [refill, if_neg (by rw [hzero]; exact lt_irrefl 0)]

theorem refill_of_lt {b : TokenBucket} {t : Instant} (h : b.last < t) :
    b.refill t = { b with
      tokens := min (b.tokens + (t - b.last) * b.refillPerSecond) b.capacity
      last := t } := by
  have hpos : 0 < t - b.last := sub_pos.mpr h
  have hdist : saturatingDurationSince t b.last = t - b.last := max_eq_right hpos.le
  rw [refill, hdist, if_pos hpos]

@[simp] theorem refill_capacity (b : TokenBucket) (t : Instant) :
    (b.refill t).capacity = b.capacity := by
  unfold refill
  split <;> rfl

@[simp] theorem refill_refillPerSecond (b : TokenBucket) (t : Instant) :
    (b.refill t).refillPerSecond = b.refillPerSecond := by
  unfold refill
  split <;> rfl

theorem refill_last {b : TokenBucket} {t : Instant} (h : b.last ≤ t) : (b.refill t).last = t := by
  rcases h.eq_or_lt with rfl | hlt
  · rw [refill_of_le le_rfl]
  · rw [refill_of_lt hlt]

@[simp] theorem refill_new (rate : ℚ) (burst : ℕ) (now : Instant) :
    (new rate burst now).refill now = new rate burst now :=
  refill_of_le le_rfl

theorem le_refill_last (b : TokenBucket) (t : Instant) : t ≤ (b.refill t).last := by
  rcases le_or_gt t b.last with h | h
  · rw [refill_of_le h]
    exact h
  · rw [refill_of_lt h]

/-- A second refill to the same instant does nothing. -/
@[simp] theorem refill_refill (b : TokenBucket) (t : Instant) :
    (b.refill t).refill t = b.refill t :=
  refill_of_le (le_refill_last b t)

@[simp] theorem level_refill (b : TokenBucket) (t : Instant) :
    (b.refill t).level t = b.level t := by
  rw [level, refill_refill, level]

/-- After a refill to `t`, taking `cost` tokens lowers the level at `t` by
exactly `cost`. -/
@[simp] theorem level_consume_refill (b : TokenBucket) (t : Instant) (cost : ℚ) :
    ((b.refill t).consume cost).level t = b.level t - cost := by
  have hlast : t ≤ ((b.refill t).consume cost).last := le_refill_last b t
  rw [level, refill_of_le hlast]
  rfl

/-! ## Well-formed buckets -/

/-- A bucket of a limiter with rate `rate` and effective capacity `cap`. -/
structure WellFormed (rate cap : ℚ) (b : TokenBucket) : Prop where
  rate_eq : b.refillPerSecond = rate
  cap_eq : b.capacity = cap
  rate_nonneg : 0 ≤ rate
  tokens_nonneg : 0 ≤ b.tokens
  tokens_le : b.tokens ≤ cap

theorem wellFormed_new {rate : ℚ} (h : 0 ≤ rate) (c : ℕ) (now : Instant) :
    WellFormed rate (effectiveCapacity c) (new rate c now) where
  rate_eq := max_eq_left h
  cap_eq := rfl
  rate_nonneg := h
  tokens_nonneg := le_trans zero_le_one (effectiveCapacity_pos c)
  tokens_le := le_rfl

variable {rate cap : ℚ} {b : TokenBucket}

theorem WellFormed.refill (h : WellFormed rate cap b) (t : Instant) :
    WellFormed rate cap (b.refill t) := by
  rcases le_or_gt t b.last with hle | hlt
  · rw [refill_of_le hle]
    exact h
  · have hacc : 0 ≤ (t - b.last) * b.refillPerSecond :=
      mul_nonneg (sub_nonneg.mpr hlt.le) (h.rate_eq ▸ h.rate_nonneg)
    have hcap : 0 ≤ cap := le_trans h.tokens_nonneg h.tokens_le
    rw [refill_of_lt hlt]
    refine ⟨h.rate_eq, h.cap_eq, h.rate_nonneg, ?_, ?_⟩
    · exact le_min (add_nonneg h.tokens_nonneg hacc) (h.cap_eq ▸ hcap)
    · exact le_trans (min_le_right _ _) h.cap_eq.le

theorem WellFormed.consume (h : WellFormed rate cap b) (hb : 1 ≤ b.tokens) :
    WellFormed rate cap (b.consume 1) where
  rate_eq := h.rate_eq
  cap_eq := h.cap_eq
  rate_nonneg := h.rate_nonneg
  tokens_nonneg := sub_nonneg.mpr hb
  tokens_le := le_trans (sub_le_self _ zero_le_one) h.tokens_le

theorem WellFormed.allow (h : WellFormed rate cap b) (t : Instant) :
    WellFormed rate cap (b.allow t 1).1 := by
  unfold TokenBucket.allow
  split
  · exact (h.refill t).consume (by assumption)
  · exact h.refill t

theorem WellFormed.level_nonneg (h : WellFormed rate cap b) (t : Instant) :
    0 ≤ b.level t := (h.refill t).tokens_nonneg

theorem WellFormed.level_le (h : WellFormed rate cap b) (t : Instant) :
    b.level t ≤ cap := (h.refill t).tokens_le

/-- The level grows no faster than the refill rate. -/
theorem WellFormed.level_grow (h : WellFormed rate cap b) {t t' : Instant}
    (htt : t ≤ t') : b.level t' ≤ b.level t + rate * (t' - t) := by
  have hr := h.rate_nonneg
  rcases le_or_gt t' b.last with hle | hlt
  · rw [level, level, refill_of_le hle, refill_of_le (htt.trans hle)]
    have := mul_nonneg hr (sub_nonneg.mpr htt)
    linarith
  · rcases le_or_gt t b.last with hle' | hlt'
    · rw [level, level, refill_of_lt hlt, refill_of_le hle']
      refine le_trans (min_le_left _ _) ?_
      rw [h.rate_eq]
      have := mul_nonneg hr (sub_nonneg.mpr hle')
      linarith
    · rw [level, level, refill_of_lt hlt, refill_of_lt hlt']
      have hstep : (t' - b.last) * b.refillPerSecond =
          (t - b.last) * b.refillPerSecond + rate * (t' - t) := by
        rw [h.rate_eq]
        ring
      have hacc := mul_nonneg hr (sub_nonneg.mpr htt)
      rcases min_choice (b.tokens + (t - b.last) * b.refillPerSecond) b.capacity
        with hmin | hmin
      · refine le_trans (min_le_left _ _) ?_
        linarith
      · refine le_trans (min_le_right _ _) ?_
        linarith

/-- Refilling on the way makes no difference. -/
theorem WellFormed.refill_trans (h : WellFormed rate cap b) {t u : Instant} (hlast : b.last ≤ t)
    (htu : t ≤ u) : (b.refill t).refill u = b.refill u := by
  rcases htu.eq_or_lt with rfl | htu
  · exact refill_refill b t
  rcases hlast.eq_or_lt with rfl | hlast
  · rw [refill_of_le le_rfl]
  have hacc : 0 ≤ (u - t) * b.refillPerSecond :=
    mul_nonneg (sub_pos.mpr htu).le (h.rate_eq ▸ h.rate_nonneg)
  rw [refill_of_lt hlast, refill_of_lt (show _ < u from htu), refill_of_lt (hlast.trans htu)]
  -- both ways the sum of what accrued is capped once at the end
  simp only [TokenBucket.mk.injEq, true_and, and_true]
  rw [← min_add_add_right, min_assoc, min_eq_right (le_add_of_nonneg_right hacc)]
  congr 1
  ring

/-- A bucket left alone for longer than `idle` has regained the refill of
that time, or is full. -/
theorem WellFormed.level_of_stale (h : WellFormed rate cap b) {now : Instant}
    {idle : ℚ} (hidle : 0 ≤ idle) (hs : b.stale now idle = true) :
    min (idle * rate) cap ≤ b.level now := by
  have hs' : idle < saturatingDurationSince now b.last := of_decide_eq_true hs
  have hlt : b.last < now := by
    by_contra hge
    rw [saturatingDurationSince, max_eq_left (sub_nonpos.mpr (not_lt.mp hge))] at hs'
    exact absurd hs' (not_lt.mpr hidle)
  have hdist : idle < now - b.last := by
    rwa [saturatingDurationSince, max_eq_right (sub_pos.mpr hlt).le] at hs'
  rw [level, refill_of_lt hlt]
  refine le_min ?_ (le_trans (min_le_right _ _) h.cap_eq.ge)
  refine le_trans (min_le_left _ _) ?_
  rw [h.rate_eq]
  have := mul_le_mul_of_nonneg_right hdist.le h.rate_nonneg
  have := h.tokens_nonneg
  linarith

@[simp] theorem level_new (r : ℚ) (c : ℕ) (now : Instant) :
    (new r c now).level now = effectiveCapacity c := by
  rw [level, refill_of_le (show now ≤ (new r c now).last from le_rfl)]
  rfl

/-! ## Whole runs -/

/-- A use of a bucket that costs one token; `hasTokens` only looks. -/
inductive Use where
  | allow (now : Instant)
  | hasTokens (now : Instant)
  | tryConsume (now : Instant)
deriving DecidableEq

namespace Use

/-- The clock reading that the use comes with. Readings are taken before the lock, so
they may go back from one use to the next. -/
def now : Use → Instant
  | allow now => now
  | hasTokens now => now
  | tryConsume now => now

/-- What the use leaves, and whether it was granted a token. -/
def apply (b : TokenBucket) : Use → TokenBucket × Bool
  | allow now => b.allow now 1
  | hasTokens now => ((b.hasTokens now 1).1, false)
  | tryConsume now => b.tryConsume now

/-- A use refills the bucket, and takes a token from it if it is granted one. -/
theorem apply_cases (b : TokenBucket) (use : Use) :
    use.apply b = (b.refill use.now, false) ∨
      1 ≤ (b.refill use.now).tokens ∧ use.apply b = ((b.refill use.now).consume 1, true) := by
  cases use with
  | allow t =>
    show b.allow t 1 = _ ∨ _ ∧ b.allow t 1 = _
    unfold TokenBucket.allow
    split
    · rename_i htokens
      exact .inr ⟨htokens, rfl⟩
    · exact .inl rfl
  | hasTokens t => exact .inl rfl
  | tryConsume t =>
    show b.tryConsume t = _ ∨ _ ∧ b.tryConsume t = _
    unfold TokenBucket.tryConsume
    split
    · rename_i htokens
      exact .inr ⟨of_decide_eq_true htokens, rfl⟩
    · exact .inl rfl

end Use

/-- The bucket after the uses, and how many of them were granted. -/
def serve (b : TokenBucket) : List Use → TokenBucket × ℕ
  | [] => (b, 0)
  | use :: uses =>
    (((use.apply b).1.serve uses).1, (use.apply b).2.toNat + ((use.apply b).1.serve uses).2)

/-- A refill brings at most the rate times the time it moves the bucket on. -/
theorem WellFormed.tokens_refill_le (h : WellFormed rate cap b) (t : Instant) :
    (b.refill t).tokens ≤ b.tokens + rate * ((b.refill t).last - b.last) := by
  rcases le_or_gt t b.last with hle | hlt
  · rw [refill_of_le hle, sub_self, mul_zero, add_zero]
  · rw [refill_of_lt hlt]
    refine (min_le_left _ _).trans ?_
    rw [h.rate_eq, mul_comm]

theorem refill_last_eq_max (b : TokenBucket) (t : Instant) : (b.refill t).last = max b.last t := by
  rcases le_or_gt t b.last with hle | hlt
  · rw [refill_of_le hle, max_eq_left hle]
  · rw [refill_of_lt hlt, max_eq_right hlt.le]

/-- One use: the bucket stays well formed, and what it holds and has granted grows by no
more than the refill of the time that has passed. -/
theorem WellFormed.apply (h : WellFormed rate cap b) (use : Use) :
    WellFormed rate cap (use.apply b).1 ∧ (use.apply b).1.last = max b.last use.now ∧
      (use.apply b).1.tokens + ((use.apply b).2.toNat : ℚ) ≤
        b.tokens + rate * ((use.apply b).1.last - b.last) := by
  have hrefill := h.tokens_refill_le use.now
  rcases use.apply_cases b with heq | ⟨htokens, heq⟩
  · rw [heq]
    refine ⟨h.refill use.now, refill_last_eq_max b use.now, ?_⟩
    simpa using hrefill
  · rw [heq]
    refine ⟨(h.refill use.now).consume htokens, refill_last_eq_max b use.now, ?_⟩
    simpa [TokenBucket.consume] using hrefill

theorem WellFormed.serve (h : WellFormed rate cap b) (uses : List Use) :
    WellFormed rate cap (b.serve uses).1 := by
  induction uses generalizing b with
  | nil => exact h
  | cons use uses ih => exact ih (h.apply use).1

/-- Over a sequence of uses the time that has passed is that of the latest reading. -/
theorem WellFormed.granted_le (h : WellFormed rate cap b) {latest : Instant}
    (hlast : b.last ≤ latest) {uses : List Use} (huses : ∀ use ∈ uses, use.now ≤ latest) :
    (b.serve uses).1.tokens + ((b.serve uses).2 : ℚ) ≤ b.tokens + rate * (latest - b.last) := by
  induction uses generalizing b with
  | nil =>
    have hacc := mul_nonneg h.rate_nonneg (sub_nonneg.mpr hlast)
    simpa [TokenBucket.serve] using hacc
  | cons use uses ih =>
    obtain ⟨hwf, hmax, hstep⟩ := h.apply use
    have hlast' : (use.apply b).1.last ≤ latest := by
      rw [hmax]
      exact max_le hlast (huses use List.mem_cons_self)
    have hrest := ih hwf hlast' fun u hu => huses u (List.mem_cons_of_mem _ hu)
    rw [TokenBucket.serve, Nat.cast_add]
    linarith

/-- **Token bucket bound.** Whatever the readings of the clock, also if they go back, a bucket
holds between zero and its effective capacity, and grants at most that capacity and what is
refilled between its creation and the largest reading. -/
theorem token_bucket_bound (capacity : ℕ) {rate : ℚ} (hrate : 0 ≤ rate) (created : Instant)
    (uses : List Use) :
    (0 ≤ ((new rate capacity created).serve uses).1.tokens ∧
      ((new rate capacity created).serve uses).1.tokens ≤ effectiveCapacity capacity) ∧
    ∀ largest, (∀ use ∈ uses, use.now ≤ largest) →
      (((new rate capacity created).serve uses).2 : ℚ) ≤
        effectiveCapacity capacity + rate * max 0 (largest - created) := by
  have hnew := wellFormed_new hrate capacity created
  have hend := hnew.serve uses
  refine ⟨⟨hend.tokens_nonneg, hend.tokens_le⟩, fun largest hlargest => ?_⟩
  have hle := hnew.granted_le (show created ≤ max created largest from le_max_left _ _)
    fun use huse => (hlargest use huse).trans (le_max_right _ _)
  have hspan : max created largest - created = max 0 (largest - created) := by
    rcases le_total created largest with h | h
    · rw [max_eq_right h, max_eq_right (sub_nonneg.mpr h)]
    · rw [max_eq_left h, max_eq_left (sub_nonpos.mpr h), sub_self]
  have hstart : (new rate capacity created).last = created := rfl
  have hfull : (new rate capacity created).tokens = effectiveCapacity capacity := rfl
  rw [hstart, hfull, hspan] at hle
  have hnonneg := hend.tokens_nonneg
  linarith

/-- Three uses of a bucket of two tokens, the second with a reading before its creation. -/
theorem two_token_bucket_bound :
    (0 : ℚ) ≤ 1 ∧
      (((new 1 2 10).serve [.allow 10, .tryConsume 4, .allow 11]).2 : ℚ) ≤
        effectiveCapacity 2 + 1 * max 0 (11 - 10) := by
  refine ⟨zero_le_one, (token_bucket_bound 2 zero_le_one 10 _).2 11 ?_⟩
  simp only [List.forall_mem_cons, Use.now]
  refine ⟨?_, ?_, le_rfl, by simp⟩ <;> linarith

end TokenBucket

end AlturaProt.Limiter
