import AlturaProt.Adaptive.Detector

/-!
# The detector as ideal token buckets

A window's bucket is created with the window and lost with it. For a threshold
of at least two this is invisible: a window is only evicted after `120` idle
seconds, when its bucket is full again, and a fresh window starts with a full
bucket.

`Tracks` relates what the detector remembers of a key to one bucket that is
never forgotten. It is kept by everything an observation can do to the key
(`Tracks.evict`, `Tracks.open`, `Tracks.touch`, `Tracks.feed`), so the detector
decides as that bucket does.
-/

namespace AlturaProt.Adaptive

open Foundation Limiter

/-! ## The ideal bucket -/

/-- The bucket that was full at `start` and was asked for a token at each of
the given times. -/
def idealBucket (threshold : ℕ) (start : Instant) (times : List Instant) : TokenBucket :=
  times.foldl (fun b t => (b.allow t 1).1) (adaptiveBucket threshold start)

/-- The ideal bucket has no token left at `now`. -/
def idealRejects (threshold : ℕ) (start : Instant) (times : List Instant) (now : Instant) :
    Bool :=
  !((idealBucket threshold start times).allow now 1).2

/-- The capacity of the buckets of a detector. -/
def idealCapacity (threshold : ℕ) : ℚ :=
  TokenBucket.effectiveCapacity (adaptiveActivationBurst threshold)

theorem wellFormed_adaptiveBucket (threshold : ℕ) (now : Instant) :
    TokenBucket.WellFormed threshold (idealCapacity threshold) (adaptiveBucket threshold now) :=
  TokenBucket.wellFormed_new (Nat.cast_nonneg threshold) _ now

/-- A full bucket stays full. -/
theorem refill_adaptiveBucket (threshold : ℕ) {t u : Instant} (htu : t ≤ u) :
    (adaptiveBucket threshold t).refill u = adaptiveBucket threshold u := by
  rcases htu.eq_or_lt with rfl | hlt
  · exact TokenBucket.refill_new _ _ _
  · have hrate : (0 : ℚ) ≤ (adaptiveBucket threshold t).refillPerSecond := le_max_right _ _
    have hacc := mul_nonneg (sub_pos.mpr hlt).le hrate
    rw [TokenBucket.refill_of_lt (show (adaptiveBucket threshold t).last < u from hlt)]
    exact congrArg (fun tokens => { adaptiveBucket threshold u with tokens := tokens })
      (min_eq_right (le_add_of_nonneg_right hacc))

/-- Within the idle time of a window its bucket fills up. -/
theorem idealCapacity_le (threshold : ℕ) (h : 2 ≤ threshold) :
    idealCapacity threshold ≤ adaptiveWindowIdle * threshold := by
  have hburst : adaptiveActivationBurst threshold ≤ threshold := by
    unfold adaptiveActivationBurst
    omega
  have hcap : idealCapacity threshold ≤ threshold := by
    unfold idealCapacity TokenBucket.effectiveCapacity
    exact_mod_cast max_le hburst (by omega)
  refine hcap.trans (le_mul_of_one_le_left (Nat.cast_nonneg _) ?_)
  unfold adaptiveWindowIdle
  norm_num

/-! ## What a bucket has granted

A bucket that runs dry has granted many tokens since it was last full. -/

/-- Since some moment `since` at which the bucket was full, the tokens it lacks
were asked for at the given times. -/
def Charged (rate cap : ℚ) (times : List Instant) (b : TokenBucket) : Prop :=
  ∃ since ≤ b.last, cap + rate * (b.last - since) ≤
    b.tokens + (times.filter (fun t => decide (since ≤ t))).length

/-- More than `burst` times, and `rate` more for every second, within some
interval that ends at `now`. -/
def Crowded (burst rate : ℚ) (times : List Instant) (now : Instant) : Prop :=
  ∃ seconds : ℚ, 0 ≤ seconds ∧ burst + rate * seconds <
    (times.filter (fun t => decide (now - seconds ≤ t ∧ t ≤ now))).length

namespace Charged

variable {rate cap : ℚ} {times : List Instant} {b : TokenBucket} {now : Instant}

theorem full (threshold : ℕ) (now : Instant) :
    Charged threshold (idealCapacity threshold) [] (adaptiveBucket threshold now) := by
  refine ⟨now, le_rfl, ?_⟩
  have hnow : (adaptiveBucket threshold now).last - now = 0 := sub_self now
  rw [hnow, mul_zero, add_zero, List.filter_nil, List.length_nil, Nat.cast_zero, add_zero]
  exact le_rfl

/-- More times explain no less. -/
theorem mono (h : Charged rate cap times b) (more : List Instant) :
    Charged rate cap (times ++ more) b := by
  obtain ⟨since, hsince, hle⟩ := h
  refine ⟨since, hsince, hle.trans ?_⟩
  rw [List.filter_append, List.length_append, Nat.cast_add]
  linarith

/-- A refill accrues what the moment moved away, or fills the bucket. -/
theorem refill (h : Charged rate cap times b) (hwf : TokenBucket.WellFormed rate cap b)
    (hlast : b.last ≤ now) : Charged rate cap times (b.refill now) := by
  obtain ⟨since, hsince, hle⟩ := h
  rcases hlast.eq_or_lt with rfl | hlt
  · rw [TokenBucket.refill_of_le le_rfl]
    exact ⟨since, hsince, hle⟩
  rw [TokenBucket.refill_of_lt hlt, hwf.rate_eq, hwf.cap_eq]
  rcases min_choice (b.tokens + (now - b.last) * rate) cap with hmin | hmin
  · refine ⟨since, hsince.trans hlast, ?_⟩
    linarith
  · refine ⟨now, le_rfl, ?_⟩
    linarith

/-- The bucket is asked once more. -/
theorem allow (h : Charged rate cap times b) (hwf : TokenBucket.WellFormed rate cap b)
    (hlast : b.last ≤ now) : Charged rate cap (times ++ [now]) (b.allow now 1).1 := by
  have hrefill := h.refill hwf hlast
  unfold TokenBucket.allow
  split
  · obtain ⟨since, hsince, hle⟩ := hrefill
    refine ⟨since, hsince, ?_⟩
    have hnow : since ≤ now := hsince.trans (TokenBucket.refill_last hlast).le
    rw [List.filter_append, List.filter_cons_of_pos (by simpa using hnow), List.filter_nil,
      List.length_append, List.length_singleton, Nat.cast_add, Nat.cast_one]
    show cap + rate * ((b.refill now).last - since) ≤ (b.refill now).tokens - 1 + _
    linarith
  · exact hrefill.mono [now]

/-- **A bucket runs dry only in a crowd.** -/
theorem crowded (h : Charged rate cap times b) (hwf : TokenBucket.WellFormed rate cap b)
    (hlast : b.last ≤ now) (htimes : ∀ t ∈ times, t ≤ now)
    (hdry : (b.allow now 1).2 = false) : Crowded cap rate (times ++ [now]) now := by
  obtain ⟨since, hsince, hle⟩ := h.refill hwf hlast
  rw [TokenBucket.refill_last hlast] at hsince hle
  have htokens : (b.refill now).tokens < 1 := by
    unfold TokenBucket.allow at hdry
    split at hdry
    · cases hdry
    · rename_i hlow
      exact not_le.mp hlow
  refine ⟨now - since, sub_nonneg.mpr hsince, ?_⟩
  have hcount : (times ++ [now]).filter (fun t => decide (now - (now - since) ≤ t ∧ t ≤ now)) =
      times.filter (fun t => decide (since ≤ t)) ++ [now] := by
    rw [sub_sub_cancel, List.filter_append,
      List.filter_cons_of_pos (by simpa using hsince), List.filter_nil]
    congr 1
    refine List.filter_congr (fun t ht => ?_)
    simp [htimes t ht]
  rw [hcount, List.length_append, List.length_singleton, Nat.cast_add, Nat.cast_one]
  linarith

end Charged

/-- Asked again at the same instant, a dry bucket gives the same answer. -/
theorem allow_again {b : TokenBucket} {now : Instant} (hdry : (b.allow now 1).2 = false) :
    (b.allow now 1).1.allow now 1 = ((b.allow now 1).1, false) := by
  unfold TokenBucket.allow at hdry ⊢
  split at hdry
  · cases hdry
  · rename_i hlow
    simp only [TokenBucket.refill_refill, if_neg hlow]

/-! ## Tracking an ideal bucket -/

/-- What is remembered of a key at `t`, a bucket and the time it was last seen,
or nothing, stands for the ideal bucket: refilled to `t` the two are the same,
and where nothing is remembered the ideal bucket is full. -/
structure Tracks (threshold : ℕ) (t : Instant) (o : Option (TokenBucket × Instant))
    (ideal : TokenBucket) : Prop where
  ideal_wellFormed : TokenBucket.WellFormed threshold (idealCapacity threshold) ideal
  ideal_last : ideal.last ≤ t
  wellFormed : ∀ p ∈ o, TokenBucket.WellFormed threshold (idealCapacity threshold) p.1
  last_le : ∀ p ∈ o, p.1.last ≤ p.2
  seen_le : ∀ p ∈ o, p.2 ≤ t
  refill_eq : ∀ p ∈ o, p.1.refill t = ideal.refill t
  full : o = none → ideal.refill t = adaptiveBucket threshold t

namespace Tracks

variable {threshold : ℕ} {t u : Instant} {o : Option (TokenBucket × Instant)}
  {ideal b : TokenBucket} {seen : Instant}

theorem start (threshold : ℕ) (t : Instant) :
    Tracks threshold t none (adaptiveBucket threshold t) where
  ideal_wellFormed := wellFormed_adaptiveBucket threshold t
  ideal_last := le_rfl
  wellFormed := by simp
  last_le := by simp
  seen_le := by simp
  refill_eq := by simp
  full _ := refill_adaptiveBucket threshold le_rfl

/-- Time passes. -/
theorem wait (h : Tracks threshold t o ideal) (htu : t ≤ u) : Tracks threshold u o ideal where
  ideal_wellFormed := h.ideal_wellFormed
  ideal_last := h.ideal_last.trans htu
  wellFormed := h.wellFormed
  last_le := h.last_le
  seen_le p hp := (h.seen_le p hp).trans htu
  refill_eq p hp := by
    have hlast := (h.last_le p hp).trans (h.seen_le p hp)
    rw [← (h.wellFormed p hp).refill_trans hlast htu, h.refill_eq p hp,
      h.ideal_wellFormed.refill_trans h.ideal_last htu]
  full ho := by
    rw [← h.ideal_wellFormed.refill_trans h.ideal_last htu, h.full ho,
      refill_adaptiveBucket threshold htu]

/-- An idle window is forgotten: its bucket has filled up. -/
theorem evict (h : Tracks threshold t (some (b, seen)) ideal) (h2 : 2 ≤ threshold)
    (hidle : adaptiveWindowIdle ≤ saturatingDurationSince t seen) :
    Tracks threshold t none ideal where
  ideal_wellFormed := h.ideal_wellFormed
  ideal_last := h.ideal_last
  wellFormed := by simp
  last_le := by simp
  seen_le := by simp
  refill_eq := by simp
  full _ := by
    have hwf := h.wellFormed _ rfl
    have hlast : b.last ≤ seen := h.last_le _ rfl
    have hdist : adaptiveWindowIdle ≤ t - seen := by
      rwa [saturatingDurationSince, max_eq_right (sub_nonneg.mpr (h.seen_le _ rfl))] at hidle
    have hlt : b.last < t := by
      unfold adaptiveWindowIdle at hdist
      linarith
    have hfill : b.capacity ≤ b.tokens + (t - b.last) * b.refillPerSecond := by
      have hcap := idealCapacity_le threshold h2
      have hacc := mul_le_mul_of_nonneg_right (show adaptiveWindowIdle ≤ t - b.last by linarith)
        hwf.rate_nonneg
      have htokens := hwf.tokens_nonneg
      rw [hwf.cap_eq, hwf.rate_eq]
      linarith
    rw [← h.refill_eq _ rfl, TokenBucket.refill_of_lt hlt, min_eq_right hfill, hwf.cap_eq,
      hwf.rate_eq]
    exact congrArg (fun rate => TokenBucket.mk _ _ rate _) (max_eq_left hwf.rate_nonneg).symm

/-- A window is opened for a key of which nothing is remembered. -/
theorem «open» (h : Tracks threshold t none ideal) :
    Tracks threshold t (some (adaptiveBucket threshold t, t)) ideal where
  ideal_wellFormed := h.ideal_wellFormed
  ideal_last := h.ideal_last
  wellFormed := by
    rintro _ ⟨⟩
    exact wellFormed_adaptiveBucket threshold t
  last_le := by
    rintro _ ⟨⟩
    exact le_rfl
  seen_le := by
    rintro _ ⟨⟩
    exact le_rfl
  refill_eq := by
    rintro _ ⟨⟩
    exact (refill_adaptiveBucket threshold le_rfl).trans (h.full rfl).symm
  full := by simp

/-- A window is seen without its bucket being asked. -/
theorem touch (h : Tracks threshold t (some (b, seen)) ideal) :
    Tracks threshold t (some (b, t)) ideal where
  ideal_wellFormed := h.ideal_wellFormed
  ideal_last := h.ideal_last
  wellFormed := by
    rintro _ ⟨⟩
    exact h.wellFormed (b, seen) rfl
  last_le := by
    rintro _ ⟨⟩
    exact (h.last_le _ rfl).trans (h.seen_le _ rfl)
  seen_le := by
    rintro _ ⟨⟩
    exact le_rfl
  refill_eq := by
    rintro _ ⟨⟩
    exact h.refill_eq (b, seen) rfl
  full := by simp

/-- Both buckets are asked at once: they give the same answer and are the same
from then on. -/
theorem allow_eq (h : Tracks threshold t (some (b, seen)) ideal) :
    b.allow t 1 = ideal.allow t 1 := by
  rw [TokenBucket.allow, TokenBucket.allow, h.refill_eq _ rfl]

theorem feed (h : Tracks threshold t (some (b, seen)) ideal) :
    Tracks threshold t (some ((b.allow t 1).1, t)) (ideal.allow t 1).1 := by
  have hwf := h.ideal_wellFormed.allow t
  have hlast : (ideal.allow t 1).1.last = t := by
    unfold TokenBucket.allow
    split
    · exact TokenBucket.refill_last h.ideal_last
    · exact TokenBucket.refill_last h.ideal_last
  rw [h.allow_eq]
  refine ⟨hwf, hlast.le, ?_, ?_, ?_, ?_, by simp⟩
  · rintro _ ⟨⟩
    exact hwf
  · rintro _ ⟨⟩
    exact hlast.le
  · rintro _ ⟨⟩
    exact le_rfl
  · rintro _ ⟨⟩
    rfl

end Tracks

/-! ## One observation

`view` takes from a window the bucket in question and the time it was last
seen; an observation feeds that bucket or not. -/

section Visit

variable {T R : Type} {idx : Str → Fin SHARDS} {windows : Windows T}
  {view : T → TokenBucket × Instant} {ensure : WindowShard T → WindowShard T × Bool}
  {threshold : ℕ} {t now : Instant}
  {fresh : T} {f : T → T × R} {key : Str} {ideal : TokenBucket}

/-- A window that has been idle long enough to be evicted. -/
def idleFor (view : T → TokenBucket × Instant) (now : Instant) (window : T) : Bool :=
  decide (adaptiveWindowIdle ≤ saturatingDurationSince now (view window).2)

/-- An observation of another key leaves this one alone, or evicts it. -/
theorem Tracks.visit_of_ne {other : Str} (hne : key ≠ other) (h2 : 2 ≤ threshold) (ht : t ≤ now)
    (hens : ∀ q, KeyedQueue.Reclaimed (idleFor view now) q (ensure q).1)
    (h : Tracks threshold t ((windows.get idx key).map view) ideal) :
    Tracks threshold now
      (((windows.visit idx ensure fresh f other).1.get idx key).map view) ideal := by
  have hnow := h.wait ht
  rcases Shards.get_visit_of_ne idx windows hens fresh f hne with hsame | ⟨w, hw, hidle, hgone⟩
  · rw [hsame]
    exact hnow
  · rw [hgone]
    rw [hw] at hnow
    exact hnow.evict h2 (of_decide_eq_true hidle)

/-- An observation of the key itself: refused, it changes nothing; counted, it
is answered as the ideal bucket answers, which is fed if the window's is. -/
theorem Tracks.visit_self {fed : Bool} {rejected : R → Bool} (ht : t ≤ now)
    (hens : ∀ q, KeyedQueue.Reclaimed (idleFor view now) q (ensure q).1)
    (hfresh : view fresh = (adaptiveBucket threshold now, now))
    (hview : ∀ w, view (f w).1 = (if fed then ((view w).1.allow now 1).1 else (view w).1, now))
    (hrejected : ∀ w, rejected (f w).2 = (fed && !((view w).1.allow now 1).2))
    (h : Tracks threshold t ((windows.get idx key).map view) ideal) :
    (windows.visit idx ensure fresh f key).2.any (fun result => rejected result.1) =
      ((windows.visit idx ensure fresh f key).2.isSome && (fed && !(ideal.allow now 1).2)) ∧
    Tracks threshold now (((windows.visit idx ensure fresh f key).1.get idx key).map view)
      (if fed && (windows.visit idx ensure fresh f key).2.isSome then (ideal.allow now 1).1
        else ideal) := by
  have hnow := h.wait ht
  rcases Shards.get_visit_self idx windows hens fresh f key with
    ⟨hnone, hafter, hrefused⟩ | ⟨w, hw, hafter, hcounted⟩
  · rw [hafter, hrefused]
    rw [hnone] at hnow
    refine ⟨rfl, ?_⟩
    simpa using hnow
  · have hwindow : Tracks threshold now (some (view w)) ideal := by
      rcases hw with hold | ⟨hnone, rfl⟩
      · rwa [hold] at hnow
      · rw [hnone] at hnow
        rw [hfresh]
        exact hnow.open
    rw [hafter, hcounted]
    refine ⟨?_, ?_⟩
    · exact (hrejected w).trans (by rw [hwindow.allow_eq]; rfl)
    · rw [Option.map_some, hview]
      cases fed with
      | true => exact hwindow.feed
      | false => exact hwindow.touch

end Visit

/-! ## Runs of observations -/

namespace AdaptiveDetector

variable (d : AdaptiveDetector)

def Op.now : Op → Instant
  | .signature _ _ now => now
  | .pathShape _ _ _ now => now

/-- The key an observation is about. -/
inductive Subject where
  | signature (signature : Str)
  | pathShape (pathShape : Str)
deriving DecidableEq

def Op.subject : Op → Subject
  | .signature key _ _ => .signature key
  | .pathShape key _ _ _ => .pathShape key

/-- Every observation of a signature counts towards its activation, and the
strong ones of a path shape do. -/
def Op.feeds : Op → Bool
  | .signature _ _ _ => true
  | .pathShape _ _ strongEvidence _ => strongEvidence

/-- The key has a window, or room can be made for one. -/
def hasRoom (hash : Str → ℕ) (s : State) : Op → Bool
  | .signature signature _ now =>
    let shard := s.windows (hashedShard hash signature)
    decide (signature ∈ shard.entries) ||
      (ensureSignatureWindowCapacity d.maxSignatureWindowsPerShard now shard).2
  | .pathShape pathShape _ _ now =>
    let shard := s.shapeWindows (hashedShard hash pathShape)
    decide (pathShape ∈ shard.entries) ||
      (ensureShapeWindowCapacity d.maxPathShapeWindowsPerShard now shard).2

/-- The observation asks for the activation of its key. -/
def activates (hash : Str → ℕ) (s : State) : Op → Bool
  | .signature signature reason now =>
    (d.observeSignature hash s.windows signature reason now).2.activate
  | .pathShape pathShape reason strongEvidence now =>
    (d.observePathShape hash s.shapeWindows pathShape strongEvidence reason now).2.any
      ShapeObservation.activate

/-- The bucket that decides about activations of the subject, and when its
window was last seen. -/
def remembered (hash : Str → ℕ) (s : State) : Subject → Option (TokenBucket × Instant)
  | .signature signature =>
    (s.windows.get (hashedShard hash) signature).map (fun w => (w.bucket, w.lastSeen))
  | .pathShape pathShape =>
    (s.shapeWindows.get (hashedShard hash) pathShape).map
      (fun w => (w.strongBucket, w.lastSeen))

theorem pressure_of_two_le {d : AdaptiveDetector} (h2 : 2 ≤ d.thresholdPerSecond)
    (bucket : TokenBucket) (now : Instant) :
    d.pressure bucket now = ((bucket.allow now 1).1, !(bucket.allow now 1).2) :=
  if_neg (by omega)

/-- A shape is activated when there is strong pressure; the samples already
emitted do not matter. -/
theorem countShape_activate (pathShape : Str) (reason : String) (strongEvidence : Bool)
    (now : Instant) (window : ShapeWindow) :
    (d.countShape pathShape reason strongEvidence now window).2.any ShapeObservation.activate =
      (d.strongPressure strongEvidence now window).2.2 := by
  unfold countShape
  dsimp only
  cases hstrong : (d.strongPressure strongEvidence now window).2.2 with
  | true => simp
  | false => exact (apply_ite (Option.any ShapeObservation.activate) _ _ _).trans (ite_self _)

/-- Weak evidence activates no shape. -/
theorem activates_of_weak (hash : Str → ℕ) (s : State) (pathShape : Str) (reason : String)
    (now : Instant) : d.activates hash s (.pathShape pathShape reason false now) = false := by
  unfold activates observePathShape
  dsimp only
  cases hvisit : (s.shapeWindows.visit (hashedShard hash)
      (ensureShapeWindowCapacity d.maxPathShapeWindowsPerShard now) (d.newShapeWindow now)
      (d.countShape pathShape reason false now) pathShape).2 with
  | none => rfl
  | some result =>
    obtain ⟨window, hwindow⟩ := KeyedQueue.visit_result hvisit
    show result.1.any ShapeObservation.activate = false
    rw [← hwindow, countShape_activate]
    rfl

section Step

variable {d} (h2 : 2 ≤ d.thresholdPerSecond) {hash : Str → ℕ} {s : State} {t : Instant}
  {ideal : TokenBucket} {subject : Subject}

include h2

theorem tracks_signature {signature : Str} {reason : String} {now : Instant} (ht : t ≤ now)
    (h : Tracks d.thresholdPerSecond t (remembered hash s (.signature signature)) ideal) :
    d.activates hash s (.signature signature reason now) =
      (d.hasRoom hash s (.signature signature reason now) && (true && !(ideal.allow now 1).2)) ∧
    Tracks d.thresholdPerSecond now
      (remembered hash (d.step hash s (.signature signature reason now)) (.signature signature))
      (if true && d.hasRoom hash s (.signature signature reason now) then (ideal.allow now 1).1
        else ideal) := by
  have hroom : d.hasRoom hash s (.signature signature reason now) =
      (s.windows.visit (hashedShard hash)
        (ensureSignatureWindowCapacity d.maxSignatureWindowsPerShard now)
        (d.newSignatureWindow now) (d.countSignature (isStrongReason reason) now)
        signature).2.isSome := (KeyedQueue.isSome_visit _ _ _).symm
  have hactivate : d.activates hash s (.signature signature reason now) =
      (s.windows.visit (hashedShard hash)
        (ensureSignatureWindowCapacity d.maxSignatureWindowsPerShard now)
        (d.newSignatureWindow now) (d.countSignature (isStrongReason reason) now)
        signature).2.any (fun result => result.1.activate) := by
    unfold activates observeSignature
    dsimp only
    split
    · rename_i hrefused
      rw [hrefused]
      rfl
    · rename_i hcounted
      rw [hcounted]
      rfl
  rw [hactivate, hroom]
  refine Tracks.visit_self ht (fun q => KeyedQueue.reclaimed_reclaim _ _ _ q) rfl ?_ ?_ h
  · intro w
    simp only [countSignature, pressure_of_two_le h2, if_true]
  · intro w
    simp only [countSignature, pressure_of_two_le h2, Bool.true_and]

theorem tracks_pathShape {pathShape : Str} {reason : String} {strongEvidence : Bool}
    {now : Instant} (ht : t ≤ now)
    (h : Tracks d.thresholdPerSecond t (remembered hash s (.pathShape pathShape)) ideal) :
    d.activates hash s (.pathShape pathShape reason strongEvidence now) =
      (d.hasRoom hash s (.pathShape pathShape reason strongEvidence now) &&
        (strongEvidence && !(ideal.allow now 1).2)) ∧
    Tracks d.thresholdPerSecond now
      (remembered hash (d.step hash s (.pathShape pathShape reason strongEvidence now))
        (.pathShape pathShape))
      (if strongEvidence && d.hasRoom hash s (.pathShape pathShape reason strongEvidence now)
        then (ideal.allow now 1).1 else ideal) := by
  have hroom : d.hasRoom hash s (.pathShape pathShape reason strongEvidence now) =
      (s.shapeWindows.visit (hashedShard hash)
        (ensureShapeWindowCapacity d.maxPathShapeWindowsPerShard now)
        (d.newShapeWindow now) (d.countShape pathShape reason strongEvidence now)
        pathShape).2.isSome := (KeyedQueue.isSome_visit _ _ _).symm
  have hactivate : d.activates hash s (.pathShape pathShape reason strongEvidence now) =
      (s.shapeWindows.visit (hashedShard hash)
        (ensureShapeWindowCapacity d.maxPathShapeWindowsPerShard now)
        (d.newShapeWindow now) (d.countShape pathShape reason strongEvidence now)
        pathShape).2.any (fun result => result.1.any ShapeObservation.activate) := by
    unfold activates observePathShape
    dsimp only
    generalize (s.shapeWindows.visit _ _ _ _ _).2 = result
    cases result with
    | none => rfl
    | some result => rfl
  rw [hactivate, hroom]
  refine Tracks.visit_self ht (fun q => KeyedQueue.reclaimed_reclaim _ _ _ q) rfl ?_ ?_ h
  · intro w
    cases strongEvidence with
    | true => simp only [countShape, strongPressure, pressure_of_two_le h2, if_true]
    | false => rfl
  · intro w
    rw [countShape_activate]
    cases strongEvidence with
    | true => simp only [strongPressure, pressure_of_two_le h2, if_true, Bool.true_and]
    | false => rfl

/-- **One observation.** What the detector remembers of a subject keeps standing
for an ideal bucket, fed with the counted observations of that subject; and a
counted observation is answered as the ideal bucket answers it. -/
theorem tracks_step (op : Op) (ht : t ≤ op.now)
    (h : Tracks d.thresholdPerSecond t (remembered hash s subject) ideal) :
    (op.subject = subject → d.activates hash s op =
      (d.hasRoom hash s op && (op.feeds && !(ideal.allow op.now 1).2))) ∧
    Tracks d.thresholdPerSecond op.now (remembered hash (d.step hash s op) subject)
      (if op.subject = subject ∧ (op.feeds && d.hasRoom hash s op) then
        (ideal.allow op.now 1).1 else ideal) := by
  by_cases hsubject : op.subject = subject
  · subst hsubject
    simp only [true_implies, true_and]
    cases op with
    | signature key reason now => exact tracks_signature h2 ht h
    | pathShape key reason strongEvidence now => exact tracks_pathShape h2 ht h
  · refine ⟨fun heq => absurd heq hsubject, ?_⟩
    rw [if_neg (fun hboth => hsubject hboth.1)]
    -- another window of the same map is visited, or a window of the other map
    cases op with
    | signature key reason now =>
      cases subject with
      | signature signature =>
        have hne : signature ≠ key := fun heq => hsubject (congrArg _ heq.symm)
        exact h.visit_of_ne hne h2 ht (fun q => KeyedQueue.reclaimed_reclaim _ _ _ q)
      | pathShape pathShape => exact h.wait ht
    | pathShape key reason strongEvidence now =>
      cases subject with
      | signature signature => exact h.wait ht
      | pathShape pathShape =>
        have hne : pathShape ≠ key := fun heq => hsubject (congrArg _ heq.symm)
        exact h.visit_of_ne hne h2 ht (fun q => KeyedQueue.reclaimed_reclaim _ _ _ q)

end Step

/-- The times of the observations of a run that are fed to the ideal bucket of
a subject: those that are not refused. -/
def countedTimes (hash : Str → ℕ) (subject : Subject) : State → List Op → List Instant
  | _, [] => []
  | s, op :: ops =>
    if op.subject = subject ∧ (op.feeds && d.hasRoom hash s op) then
      op.now :: countedTimes hash subject (d.step hash s op) ops
    else countedTimes hash subject (d.step hash s op) ops

/-- The times of all observations of a subject that count towards its
activation. -/
def fedTimes (subject : Subject) (ops : List Op) : List Instant :=
  (ops.filter (fun op => decide (op.subject = subject) && op.feeds)).map Op.now

/-- No observation of the run is refused for lack of window capacity. -/
def neverRefused (hash : Str → ℕ) : State → List Op → Bool
  | _, [] => true
  | s, op :: ops => d.hasRoom hash s op && neverRefused hash (d.step hash s op) ops

theorem countedTimes_of_neverRefused {hash : Str → ℕ} (subject : Subject) {s : State}
    {ops : List Op} (h : d.neverRefused hash s ops = true) :
    d.countedTimes hash subject s ops = fedTimes subject ops := by
  induction ops generalizing s with
  | nil => rfl
  | cons op ops ih =>
    obtain ⟨hroom, hrest⟩ := Bool.and_eq_true_iff.mp h
    rw [countedTimes, fedTimes, List.filter_cons, ih hrest, hroom, Bool.and_true]
    by_cases hfed : op.subject = subject ∧ op.feeds = true
    · rw [if_pos hfed, if_pos (by simp [hfed.1, hfed.2])]
      rfl
    · rw [if_neg hfed, if_neg (by simpa using hfed)]
      rfl

theorem neverRefused_append {hash : Str → ℕ} {before after : List Op} {s : State}
    (h : d.neverRefused hash s (before ++ after) = true) :
    d.neverRefused hash s before = true ∧
      d.neverRefused hash (before.foldl (d.step hash) s) after = true := by
  induction before generalizing s with
  | nil => exact ⟨rfl, h⟩
  | cons op ops ih =>
    obtain ⟨hroom, hrest⟩ := Bool.and_eq_true_iff.mp h
    exact ⟨Bool.and_eq_true_iff.mpr ⟨hroom, (ih hrest).1⟩, (ih hrest).2⟩

/-- **A run of observations.** At its end the detector still stands for the
ideal bucket of every subject. -/
theorem tracks_run {d : AdaptiveDetector} (h2 : 2 ≤ d.thresholdPerSecond) {hash : Str → ℕ}
    {subject : Subject} (ops : List Op) {s : State} {t : Instant} {ideal : TokenBucket}
    (hmono : (t :: ops.map Op.now).Pairwise (· ≤ ·))
    (h : Tracks d.thresholdPerSecond t (remembered hash s subject) ideal) :
    Tracks d.thresholdPerSecond ((ops.map Op.now).getLastD t)
      (remembered hash (ops.foldl (d.step hash) s) subject)
      ((d.countedTimes hash subject s ops).foldl (fun b t => (b.allow t 1).1) ideal) := by
  induction ops generalizing s t ideal with
  | nil => exact h
  | cons op ops ih =>
    obtain ⟨hfirst, hrest⟩ := List.pairwise_cons.mp hmono
    have hstep := (tracks_step h2 op (hfirst op.now List.mem_cons_self) h).2
    rw [List.map_cons, List.getLastD_cons, List.foldl_cons, countedTimes]
    split
    · rename_i hcounted
      rw [if_pos hcounted] at hstep
      exact ih hrest hstep
    · rename_i hcounted
      rw [if_neg hcounted] at hstep
      exact ih hrest hstep

/-- The observation that follows a run is answered as the ideal bucket of its
subject answers. -/
theorem activates_after_run {d : AdaptiveDetector} (h2 : 2 ≤ d.thresholdPerSecond)
    (hash : Str → ℕ) {start : Instant} {before : List Op} {op : Op} {after : List Op}
    (hmono : (start :: (before ++ op :: after).map Op.now).Pairwise (· ≤ ·)) :
    d.activates hash (before.foldl (d.step hash) State.new) op =
      (d.hasRoom hash (before.foldl (d.step hash) State.new) op && (op.feeds &&
        idealRejects d.thresholdPerSecond start
          (d.countedTimes hash op.subject State.new before) op.now)) := by
  rw [List.map_append, List.map_cons, ← List.cons_append, List.pairwise_append] at hmono
  have hempty : Tracks d.thresholdPerSecond start (remembered hash State.new op.subject)
      (adaptiveBucket d.thresholdPerSecond start) := by
    cases op with
    | signature key reason now => exact Tracks.start _ start
    | pathShape key reason strongEvidence now => exact Tracks.start _ start
  have hrun := tracks_run h2 before hmono.1 hempty
  have hlast := hmono.2.2 _ List.getLastD_mem_cons _ List.mem_cons_self
  exact (tracks_step h2 op hlast hrun).1 rfl

/-- **The detector decides as ideal token buckets do.** In a run in which no
observation is refused, a path shape is activated at exactly those strong
observations that a bucket fed with the strong observations of that shape
rejects, and a signature at exactly those observations that a bucket fed with
all its observations rejects. -/
theorem activations_of_ideal_buckets (d : AdaptiveDetector) (h2 : 2 ≤ d.thresholdPerSecond)
    (hash : Str → ℕ) (start : Instant) (run : List Op)
    (hmono : (start :: run.map Op.now).Pairwise (· ≤ ·))
    (hroom : d.neverRefused hash State.new run = true) :
    (∀ before pathShape reason strongEvidence now after,
      run = before ++ .pathShape pathShape reason strongEvidence now :: after →
      (d.observePathShape hash (before.foldl (d.step hash) State.new).shapeWindows pathShape
        strongEvidence reason now).2.any ShapeObservation.activate =
        (strongEvidence && idealRejects d.thresholdPerSecond start
          (fedTimes (.pathShape pathShape) before) now)) ∧
    (∀ before signature reason now after,
      run = before ++ .signature signature reason now :: after →
      (d.observeSignature hash (before.foldl (d.step hash) State.new).windows signature
        reason now).2.activate =
        idealRejects d.thresholdPerSecond start (fedTimes (.signature signature) before) now) := by
  have hkey : ∀ before op after, run = before ++ op :: after →
      d.activates hash (before.foldl (d.step hash) State.new) op =
        (op.feeds && idealRejects d.thresholdPerSecond start (fedTimes op.subject before)
          op.now) := by
    rintro before op after rfl
    obtain ⟨hbefore, hop⟩ := d.neverRefused_append hroom
    rw [activates_after_run h2 hash hmono, d.countedTimes_of_neverRefused _ hbefore,
      (Bool.and_eq_true_iff.mp hop).1, Bool.true_and]
  refine ⟨?_, ?_⟩
  · intro before pathShape reason strongEvidence now after hrun
    exact hkey before (.pathShape pathShape reason strongEvidence now) after hrun
  · intro before signature reason now after hrun
    exact hkey before (.signature signature reason now) after hrun

/-- A detector with room for one window per shard. -/
def narrowDetector : AdaptiveDetector := ⟨true, 2, 60, 1, 1⟩

/-- Two strong observations of a shape exhaust its bucket, a weak one of another
shape evicts its window, and two minutes later it is back with a fresh one. -/
def evictingRun : List Op :=
  [.pathShape (utf8 "/a") "filter_block" true 0,
    .pathShape (utf8 "/a") "observed" false 0,
    .pathShape (utf8 "/a") "filter_block" true 0,
    .signature (utf8 "s") "observed" 60,
    .pathShape (utf8 "/b") "observed" false 120,
    .pathShape (utf8 "/a") "filter_block" true 240,
    .pathShape (utf8 "/a") "filter_block" true 240]

theorem evicting_run_of_ideal_buckets :
    (narrowDetector.observePathShape (fun _ => 0)
      ((evictingRun.take 2).foldl (narrowDetector.step (fun _ => 0)) State.new).shapeWindows
      (utf8 "/a") true "filter_block" 0).2.any ShapeObservation.activate = true ∧
    (narrowDetector.observePathShape (fun _ => 0)
      ((evictingRun.take 5).foldl (narrowDetector.step (fun _ => 0)) State.new).shapeWindows
      (utf8 "/a") true "filter_block" 240).2.any ShapeObservation.activate = false ∧
    (narrowDetector.observeSignature (fun _ => 0)
      ((evictingRun.take 3).foldl (narrowDetector.step (fun _ => 0)) State.new).windows
      (utf8 "s") "observed" 60).2.activate = false := by
  have hrun : (0 :: evictingRun.map Op.now).Pairwise (· ≤ ·) ∧
      narrowDetector.neverRefused (fun _ => 0) State.new evictingRun = true := by
    decide +kernel
  have hideal : idealRejects 2 0 (fedTimes (.pathShape (utf8 "/a")) (evictingRun.take 2)) 0 = true ∧
      idealRejects 2 0 (fedTimes (.pathShape (utf8 "/a")) (evictingRun.take 5)) 240 = false ∧
      idealRejects 2 0 (fedTimes (.signature (utf8 "s")) (evictingRun.take 3)) 60 = false := by
    decide +kernel
  obtain ⟨hshape, hsignature⟩ := activations_of_ideal_buckets narrowDetector (by decide)
    (fun _ => 0) 0 evictingRun hrun.1 hrun.2
  exact ⟨(hshape (evictingRun.take 2) _ _ _ _ _ rfl).trans hideal.1,
    (hshape (evictingRun.take 5) _ _ _ _ _ rfl).trans hideal.2.1,
    (hsignature (evictingRun.take 3) _ _ _ _ rfl).trans hideal.2.2⟩

end AdaptiveDetector

end AlturaProt.Adaptive
