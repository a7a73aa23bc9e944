import AlturaProt.Http.Circuit

/-!
# What an open circuit says about the past

A run of the circuit breaker is a sequence of calls, each with the reading of
the millisecond clock it saw. Seen from one path shape a call can only do a few
things to the entry (`Effect`); the count and the deadline of an entry are
then accounted for by the calls made so far (`Accounted`).

An open circuit is explained by a streak of failures without a success, an open
entry is not evicted, and a streak that reaches the threshold opens the circuit
unless the clock stands at its largest value, where the deadline cannot be
later than now.
-/

namespace AlturaProt.Http.UpstreamFailureCircuitBreaker

open Foundation Limiter

/-- The calls of the breaker, with the clock reading of each. -/
inductive Call where
  | isOpen (pathShape : Str) (nowMs : ℕ)
  | recordSuccess (pathShape : Str) (nowMs : ℕ)
  | recordFailure (pathShape : Str) (nowMs : ℕ)
deriving DecidableEq

def Call.nowMs : Call → ℕ
  | .isOpen _ nowMs => nowMs
  | .recordSuccess _ nowMs => nowMs
  | .recordFailure _ nowMs => nowMs

/-- Asking whether a circuit is open changes nothing; a success does not look at
the clock. -/
def call (c : UpstreamFailureCircuitBreaker) (hash : Str → ℕ) (shards : CircuitShards) :
    Call → CircuitShards
  | .isOpen _ _ => shards
  | .recordSuccess pathShape _ => c.step hash shards (.success pathShape)
  | .recordFailure pathShape nowMs => c.step hash shards (.failure pathShape nowMs)

def run (c : UpstreamFailureCircuitBreaker) (hash : Str → ℕ) (calls : List Call) :
    CircuitShards :=
  calls.foldl (c.call hash) Shards.empty

/-- The entry of a shape after a run. -/
def entryAfter (c : UpstreamFailureCircuitBreaker) (hash : Str → ℕ) (calls : List Call)
    (pathShape : Str) : Option UpstreamFailureCircuitEntry :=
  (c.run hash calls).get (hashedShard hash) pathShape

/-- What a new entry starts from. -/
def fresh : UpstreamFailureCircuitEntry := { consecutiveFailures := 0, openUntilMs := 0 }

variable {c : UpstreamFailureCircuitBreaker} {hash : Str → ℕ}

theorem run_snoc (calls : List Call) (x : Call) :
    c.run hash (calls ++ [x]) = c.call hash (c.run hash calls) x := by
  rw [run, run, List.foldl_append]
  rfl

/-! ## One call, seen from one shape -/

/-- Everything a call can do to the entry of a shape. -/
inductive Effect (c : UpstreamFailureCircuitBreaker) (pathShape : Str) :
    Call → Option UpstreamFailureCircuitEntry → Option UpstreamFailureCircuitEntry → Prop
  | asked (other : Str) (nowMs : ℕ) (o) : Effect c pathShape (.isOpen other nowMs) o o
  | untracked (nowMs : ℕ) : Effect c pathShape (.recordSuccess pathShape nowMs) none none
  | reset (nowMs : ℕ) (e) :
      Effect c pathShape (.recordSuccess pathShape nowMs) (some e) (some fresh)
  | counted (nowMs : ℕ) (e) :
      Effect c pathShape (.recordFailure pathShape nowMs) (some e) (some (c.fail nowMs e))
  | created (nowMs : ℕ) :
      Effect c pathShape (.recordFailure pathShape nowMs) none (some (c.fail nowMs fresh))
  | noRoom (nowMs : ℕ) : Effect c pathShape (.recordFailure pathShape nowMs) none none
  | otherSuccess (other : Str) (nowMs : ℕ) (o) (hne : pathShape ≠ other) :
      Effect c pathShape (.recordSuccess other nowMs) o o
  | otherFailure (other : Str) (nowMs : ℕ) (o) (hne : pathShape ≠ other) :
      Effect c pathShape (.recordFailure other nowMs) o o
  | evicted (other : Str) (nowMs : ℕ) (e : UpstreamFailureCircuitEntry) (hne : pathShape ≠ other)
      (hclosed : e.openUntilMs ≤ nowMs) :
      Effect c pathShape (.recordFailure other nowMs) (some e) none

theorem effect_recordSuccess (shards : CircuitShards) (pathShape other : Str) (nowMs : ℕ) :
    Effect c pathShape (.recordSuccess other nowMs)
      (shards.get (hashedShard hash) pathShape)
      ((recordSuccess hash shards other).get (hashedShard hash) pathShape) := by
  unfold recordSuccess
  by_cases heq : pathShape = other
  · subst heq
    cases he : shards.get (hashedShard hash) pathShape with
    | none =>
      rw [he]
      exact .untracked nowMs
    | some e =>
      rw [Shards.get_update, if_pos rfl, KeyedQueue.get_put_self]
      exact .reset nowMs e
  · cases shards.get (hashedShard hash) other with
    | none => exact .otherSuccess other nowMs _ heq
    | some e =>
      rw [Shards.get_update]
      split
      · rename_i hidx
        rw [KeyedQueue.get_put_of_ne _ _ heq, ← hidx]
        exact .otherSuccess other nowMs _ heq
      · exact .otherSuccess other nowMs _ heq

theorem effect_recordFailure (hthreshold : c.threshold ≠ 0) (shards : CircuitShards)
    (pathShape other : Str) (nowMs : ℕ) :
    Effect c pathShape (.recordFailure other nowMs)
      (shards.get (hashedShard hash) pathShape)
      ((c.recordFailure hash shards other nowMs).get (hashedShard hash) pathShape) := by
  have hens : ∀ q, KeyedQueue.Reclaimed (fun e => decide (e.openUntilMs ≤ nowMs)) q
      (ensureUpstreamCircuitShardCapacity c.shardCapacity nowMs q).1 :=
    fun q => KeyedQueue.reclaimed_reclaim _ _ _ q
  have hvisit : c.recordFailure hash shards other nowMs =
      (shards.visit (hashedShard hash) (ensureUpstreamCircuitShardCapacity c.shardCapacity nowMs)
        fresh (fun e => (c.fail nowMs e, ())) other).1 := if_neg hthreshold
  rw [hvisit]
  by_cases heq : pathShape = other
  · subst heq
    rcases Shards.get_visit_self (hashedShard hash) shards hens fresh
      (fun e => (c.fail nowMs e, ())) pathShape with
      ⟨hbefore, hafter, -⟩ | ⟨e, hbefore | ⟨hbefore, rfl⟩, hafter, -⟩
    · rw [hbefore, hafter]
      exact .noRoom nowMs
    · rw [hbefore, hafter]
      exact .counted nowMs e
    · rw [hbefore, hafter]
      exact .created nowMs
  · rcases Shards.get_visit_of_ne (hashedShard hash) shards hens fresh
      (fun e => (c.fail nowMs e, ())) heq with hsame | ⟨e, hbefore, hclosed, hafter⟩
    · rw [hsame]
      exact .otherFailure other nowMs _ heq
    · rw [hbefore, hafter]
      exact .evicted other nowMs e heq (of_decide_eq_true hclosed)

/-- **One call.** -/
theorem effect_call (hthreshold : c.threshold ≠ 0) (hash : Str → ℕ) (calls : List Call)
    (x : Call) (pathShape : Str) :
    Effect c pathShape x (c.entryAfter hash calls pathShape)
      (c.entryAfter hash (calls ++ [x]) pathShape) := by
  rw [entryAfter, entryAfter, run_snoc]
  cases x with
  | isOpen other nowMs => exact .asked other nowMs _
  | recordSuccess other nowMs => exact effect_recordSuccess _ pathShape other nowMs
  | recordFailure other nowMs => exact effect_recordFailure hthreshold _ pathShape other nowMs

/-! ## Counting over the calls -/

/-- The failures of a shape. -/
def failures (pathShape : Str) (calls : List Call) : ℕ :=
  calls.countP fun
    | .recordFailure other _ => decide (other = pathShape)
    | _ => false

/-- None of the calls is a success of the shape. -/
def NoSuccess (pathShape : Str) (calls : List Call) : Prop :=
  ∀ nowMs, Call.recordSuccess pathShape nowMs ∉ calls

/-- Since the last success of the shape there were at least `n` failures. -/
def Streak (pathShape : Str) (n : ℕ) (calls : List Call) : Prop :=
  ∃ before since, calls = before ++ since ∧ NoSuccess pathShape since ∧
    n ≤ failures pathShape since

/-- A failure of the shape at `s` was at least the `n`-th in a row, and no success
came after it. -/
def StreakAt (pathShape : Str) (n s : ℕ) (calls : List Call) : Prop :=
  ∃ before since after, calls = before ++ since ++ Call.recordFailure pathShape s :: after ∧
    NoSuccess pathShape (since ++ after) ∧ n ≤ failures pathShape since + 1

theorem failures_snoc_failure (pathShape : Str) (calls : List Call) (nowMs : ℕ) :
    failures pathShape (calls ++ [.recordFailure pathShape nowMs]) =
      failures pathShape calls + 1 := by
  simp [failures, List.countP_append]

variable {pathShape : Str} {n : ℕ} {calls before since : List Call} {x : Call}
  {e : UpstreamFailureCircuitEntry} {o : Option UpstreamFailureCircuitEntry}

theorem NoSuccess.append {l m : List Call} (hl : NoSuccess pathShape l) (hm : NoSuccess pathShape m) :
    NoSuccess pathShape (l ++ m) := by
  intro nowMs hmem
  rcases List.mem_append.mp hmem with h | h
  · exact hl nowMs h
  · exact hm nowMs h

theorem noSuccess_failure (pathShape other : Str) (nowMs : ℕ) :
    NoSuccess pathShape [.recordFailure other nowMs] := by
  intro t hmem
  cases List.mem_singleton.mp hmem

theorem Streak.zero (pathShape : Str) (calls : List Call) : Streak pathShape 0 calls :=
  ⟨calls, [], by simp, by simp [NoSuccess], Nat.zero_le _⟩

theorem Streak.snoc (h : Streak pathShape n calls) (hx : NoSuccess pathShape [x]) :
    Streak pathShape n (calls ++ [x]) := by
  obtain ⟨before, since, rfl, hno, hn⟩ := h
  refine ⟨before, since ++ [x], by simp, hno.append hx, ?_⟩
  rw [failures, List.countP_append]
  exact hn.trans (Nat.le_add_right _ _)

theorem Streak.failure (h : Streak pathShape n calls) (nowMs : ℕ) :
    Streak pathShape (n + 1) (calls ++ [.recordFailure pathShape nowMs]) := by
  obtain ⟨before, since, rfl, hno, hn⟩ := h
  refine ⟨before, since ++ [.recordFailure pathShape nowMs], by simp,
    hno.append (noSuccess_failure _ _ _), ?_⟩
  rw [failures_snoc_failure]
  exact Nat.succ_le_succ hn

theorem Streak.streakAt {m : ℕ} (h : Streak pathShape n calls) (hm : m ≤ n + 1) (s : ℕ) :
    StreakAt pathShape m s (calls ++ [.recordFailure pathShape s]) := by
  obtain ⟨before, since, rfl, hno, hn⟩ := h
  refine ⟨before, since, [], by simp, by simpa using hno, ?_⟩
  omega

theorem StreakAt.snoc {s : ℕ} (h : StreakAt pathShape n s calls) (hx : NoSuccess pathShape [x]) :
    StreakAt pathShape n s (calls ++ [x]) := by
  obtain ⟨before, since, after, rfl, hno, hn⟩ := h
  refine ⟨before, since, after ++ [x], by simp, ?_, hn⟩
  rw [← List.append_assoc]
  exact hno.append hx

/-! ## The account of an entry -/

/-- The calls made so far account for the count and the deadline of an entry. -/
structure Accounted (c : UpstreamFailureCircuitBreaker) (pathShape : Str) (calls : List Call)
    (e : UpstreamFailureCircuitEntry) : Prop where
  count : Streak pathShape e.consecutiveFailures calls
  deadline : e.openUntilMs = 0 ∨
    ∃ s, StreakAt pathShape c.threshold s calls ∧ e.openUntilMs ≤ s + c.openMs

theorem Accounted.fresh (pathShape : Str) (calls : List Call) :
    Accounted c pathShape calls fresh :=
  ⟨Streak.zero pathShape calls, Or.inl rfl⟩

/-- A call that is no success of the shape adds nothing to explain. -/
theorem Accounted.snoc (h : Accounted c pathShape calls e) (hx : NoSuccess pathShape [x]) :
    Accounted c pathShape (calls ++ [x]) e := by
  refine ⟨h.count.snoc hx, ?_⟩
  rcases h.deadline with hzero | ⟨s, hs, hle⟩
  · exact Or.inl hzero
  · exact Or.inr ⟨s, hs.snoc hx, hle⟩

theorem Accounted.fail (h : Accounted c pathShape calls e) (nowMs : ℕ) :
    Accounted c pathShape (calls ++ [.recordFailure pathShape nowMs]) (c.fail nowMs e) := by
  have hlater := h.snoc (noSuccess_failure pathShape pathShape nowMs)
  unfold UpstreamFailureCircuitBreaker.fail
  dsimp only
  split
  · rename_i hreached
    refine ⟨Streak.zero _ _, Or.inr ⟨nowMs, h.count.streakAt ?_ nowMs, min_le_left _ _⟩⟩
    exact hreached.trans (min_le_left _ _)
  · refine ⟨?_, hlater.deadline⟩
    obtain ⟨before, since, heq, hno, hn⟩ := h.count.failure nowMs
    exact ⟨before, since, heq, hno, (min_le_left _ _).trans hn⟩

theorem Accounted.effect {o' : Option UpstreamFailureCircuitEntry}
    (h : ∀ e ∈ o, Accounted c pathShape calls e) (heffect : Effect c pathShape x o o') :
    ∀ e ∈ o', Accounted c pathShape (calls ++ [x]) e := by
  intro e' he'
  cases heffect with
  | asked other nowMs =>
    exact (h e' he').snoc fun t hmem => by cases List.mem_singleton.mp hmem
  | untracked nowMs => cases he'
  | reset nowMs e =>
    cases he'
    exact Accounted.fresh _ _
  | counted nowMs e =>
    cases he'
    exact (h e rfl).fail nowMs
  | created nowMs =>
    cases he'
    exact (Accounted.fresh pathShape calls).fail nowMs
  | noRoom nowMs => cases he'
  | otherSuccess other nowMs _ hne =>
    refine (h e' he').snoc fun t hmem => ?_
    cases List.mem_singleton.mp hmem
    exact hne rfl
  | otherFailure other nowMs => exact (h e' he').snoc (noSuccess_failure _ _ _)
  | evicted other nowMs e => cases he'

/-- **Every run accounts for its entries.** -/
theorem accounted_run (hthreshold : c.threshold ≠ 0) (hash : Str → ℕ) (pathShape : Str)
    (calls : List Call) :
    ∀ e ∈ c.entryAfter hash calls pathShape, Accounted c pathShape calls e := by
  induction calls using List.reverseRecOn with
  | nil =>
    intro e he
    simp [entryAfter, run] at he
  | append_singleton calls x ih =>
    exact Accounted.effect ih (effect_call hthreshold hash calls x pathShape)

theorem isOpen_iff {shards : CircuitShards} {nowMs : ℕ} (hthreshold : c.threshold ≠ 0) :
    c.isOpen hash shards pathShape nowMs = true ↔
      ∃ e, shards.get (hashedShard hash) pathShape = some e ∧ nowMs < e.openUntilMs := by
  rw [isOpen, if_neg hthreshold, Option.any_eq_true]
  simp

/-- What an open circuit says about the past. -/
theorem streakAt_of_isOpen (hthreshold : c.threshold ≠ 0) {t : ℕ}
    (hopen : c.isOpen hash (c.run hash calls) pathShape t = true) :
    ∃ s, StreakAt pathShape c.threshold s calls ∧ t < s + c.openMs := by
  obtain ⟨e, he, ht⟩ := (isOpen_iff hthreshold).mp hopen
  rcases (accounted_run hthreshold hash pathShape calls e he).deadline with hzero | ⟨s, hs, hle⟩
  · omega
  · exact ⟨s, hs, ht.trans_le hle⟩

/-! ## Reaching the threshold -/

/-- Does the failure that finds this entry reach the threshold? -/
def reaches (c : UpstreamFailureCircuitBreaker) (e : UpstreamFailureCircuitEntry) : Bool :=
  decide (c.threshold ≤ min (e.consecutiveFailures + 1) (2 ^ 32 - 1))

/-- The points from which the failures of an entry are counted: its creation is
still to come, or the last call was a success of the shape, or it was the failure
that opened the circuit. -/
inductive CountStarts (c : UpstreamFailureCircuitBreaker) (hash : Str → ℕ) (pathShape : Str) :
    List Call → Prop
  | creation (calls : List Call) (h : c.entryAfter hash calls pathShape = none) :
      CountStarts c hash pathShape calls
  | success (calls : List Call) (nowMs : ℕ) :
      CountStarts c hash pathShape (calls ++ [.recordSuccess pathShape nowMs])
  | opening (calls : List Call) (nowMs : ℕ)
      (h : c.reaches ((c.entryAfter hash calls pathShape).getD fresh) = true) :
      CountStarts c hash pathShape (calls ++ [.recordFailure pathShape nowMs])

/-- The entry of the shape is there after every one of the calls `since`. -/
def StaysTracked (c : UpstreamFailureCircuitBreaker) (hash : Str → ℕ) (pathShape : Str)
    (before since : List Call) : Prop :=
  ∀ part, part <+: since → part ≠ [] →
    (c.entryAfter hash (before ++ part) pathShape).isSome = true

theorem fail_of_not_reaches (h : c.reaches e = false) (nowMs : ℕ) :
    (c.fail nowMs e).consecutiveFailures = min (e.consecutiveFailures + 1) (2 ^ 32 - 1) := by
  unfold UpstreamFailureCircuitBreaker.fail
  rw [if_neg (of_decide_eq_false h)]

/-- The failure that reaches the threshold sets the deadline and starts the count
again. -/
theorem Effect.opened {nowMs : ℕ}
    (h : Effect c pathShape (.recordFailure pathShape nowMs) o (some e))
    (hreach : c.reaches (o.getD fresh) = true) :
    e = { consecutiveFailures := 0, openUntilMs := min (nowMs + c.openMs) (2 ^ 64 - 1) } := by
  cases h with
  | counted _ f => exact if_pos (of_decide_eq_true hreach)
  | created => exact if_pos (of_decide_eq_true hreach)
  | otherFailure _ _ _ hne => exact absurd rfl hne

/-- Where counting starts, an entry that is there has counted nothing. -/
theorem CountStarts.count_eq (hthreshold : c.threshold ≠ 0) (h : CountStarts c hash pathShape calls)
    : ∀ e ∈ c.entryAfter hash calls pathShape, e.consecutiveFailures = 0 := by
  intro e he
  cases h with
  | creation _ hnone =>
    rw [hnone] at he
    cases he
  | success calls nowMs =>
    have heffect := effect_call hthreshold hash calls (.recordSuccess pathShape nowMs) pathShape
    rw [he] at heffect
    generalize c.entryAfter hash calls pathShape = o at heffect
    cases heffect with
    | reset => rfl
    | otherSuccess _ _ _ hne => exact absurd rfl hne
  | opening calls nowMs hreach =>
    have heffect := effect_call hthreshold hash calls (.recordFailure pathShape nowMs) pathShape
    rw [he] at heffect
    rw [heffect.opened hreach]

/-- A call that leaves an entry below the threshold counts if it is a failure of the
shape. -/
theorem Effect.count (h : Effect c pathShape x o (some e)) (hx : NoSuccess pathShape [x])
    (hword : c.threshold < 2 ^ 32)
    (hfew : (o.getD fresh).consecutiveFailures + failures pathShape [x] < c.threshold) :
    e.consecutiveFailures = (o.getD fresh).consecutiveFailures + failures pathShape [x] := by
  have hone : ∀ nowMs, failures pathShape [.recordFailure pathShape nowMs] = 1 :=
    fun nowMs => failures_snoc_failure pathShape [] nowMs
  have hcounted : ∀ (f : UpstreamFailureCircuitEntry) (nowMs : ℕ),
      f.consecutiveFailures + 1 < c.threshold →
      (c.fail nowMs f).consecutiveFailures = f.consecutiveFailures + 1 := by
    intro f nowMs hlt
    rw [fail_of_not_reaches (decide_eq_false (by omega)), min_eq_left (by omega)]
  cases h with
  | asked => rfl
  | reset nowMs => exact absurd (List.mem_singleton_self _) (hx nowMs)
  | counted nowMs f =>
    rw [hone] at hfew ⊢
    exact hcounted f nowMs hfew
  | created nowMs =>
    rw [hone] at hfew ⊢
    exact hcounted fresh nowMs hfew
  | otherSuccess => rfl
  | otherFailure other nowMs _ hne =>
    have hnone : failures pathShape [.recordFailure other nowMs] = 0 := by
      simp [failures, Ne.symm hne]
    rw [hnone]
    rfl

theorem StaysTracked.init (h : StaysTracked c hash pathShape before (since ++ [x])) :
    StaysTracked c hash pathShape before since :=
  fun part hpart => h part (hpart.trans (List.prefix_append since [x]))

theorem StaysTracked.last (h : StaysTracked c hash pathShape before (since ++ [x])) :
    ∃ e, c.entryAfter hash (before ++ since ++ [x]) pathShape = some e := by
  have hsome := h (since ++ [x]) (List.prefix_refl _) (by simp)
  rw [← List.append_assoc] at hsome
  exact Option.isSome_iff_exists.mp hsome

/-- From there on an entry that stays tracked counts the failures of its shape, as
long as they are fewer than the threshold. -/
theorem CountStarts.count_since (hthreshold : c.threshold ≠ 0) (hword : c.threshold < 2 ^ 32)
    (h : CountStarts c hash pathShape before) (since : List Call) (hno : NoSuccess pathShape since)
    (htracked : StaysTracked c hash pathShape before since)
    (hfew : failures pathShape since < c.threshold) :
    ((c.entryAfter hash (before ++ since) pathShape).getD fresh).consecutiveFailures =
      failures pathShape since := by
  induction since using List.reverseRecOn with
  | nil =>
    rw [List.append_nil]
    have hzero := h.count_eq hthreshold
    cases he : c.entryAfter hash before pathShape with
    | none => rfl
    | some e => exact hzero e he
  | append_singleton since x ih =>
    have hsplit : failures pathShape (since ++ [x]) =
        failures pathShape since + failures pathShape [x] := List.countP_append
    have hcount := ih (fun t ht => hno t (List.mem_append_left _ ht)) htracked.init (by omega)
    obtain ⟨e, he⟩ := htracked.last
    have heffect := effect_call hthreshold hash (before ++ since) x pathShape
    rw [he] at heffect
    rw [← List.append_assoc, he, hsplit, ← hcount]
    refine heffect.count (fun t ht => hno t (List.mem_append_right _ ht)) hword ?_
    omega

/-- **Reaching the threshold.** The failure that makes the count of a tracked entry
reach the threshold sets the deadline. -/
theorem CountStarts.deadline (hthreshold : c.threshold ≠ 0) (hword : c.threshold < 2 ^ 32)
    (h : CountStarts c hash pathShape before) (hno : NoSuccess pathShape since) {s : ℕ}
    (htracked : StaysTracked c hash pathShape before (since ++ [.recordFailure pathShape s]))
    (hcount : failures pathShape (since ++ [.recordFailure pathShape s]) = c.threshold) :
    ∃ e, c.entryAfter hash (before ++ since ++ [.recordFailure pathShape s]) pathShape = some e ∧
      e.openUntilMs = min (s + c.openMs) (2 ^ 64 - 1) := by
  rw [failures_snoc_failure] at hcount
  have hbefore := h.count_since hthreshold hword since hno htracked.init (by omega)
  obtain ⟨e, he⟩ := htracked.last
  have heffect := effect_call hthreshold hash (before ++ since) (.recordFailure pathShape s)
    pathShape
  rw [he] at heffect
  refine ⟨e, he, ?_⟩
  rw [heffect.opened (decide_eq_true (by omega))]

/-! ## Soundness of the circuit -/

/-- **The circuit is sound.** An open circuit goes back to at least `threshold`
failures of its shape without a success, the last of them less than `openMs`
ago; an open entry survives the failures of other shapes; and an entry that stays
tracked opens with the failure that makes `threshold` of them, as long as the
clock can still move on. -/
theorem circuit_sound (c : UpstreamFailureCircuitBreaker) (hash : Str → ℕ)
    (hthreshold : 1 ≤ c.threshold) (hword : c.threshold < 2 ^ 32) (pathShape : Str) :
    (∀ (calls : List Call) (t : ℕ),
      (calls ++ [Call.isOpen pathShape t]).Pairwise (fun x y => x.nowMs ≤ y.nowMs) →
      c.isOpen hash (c.run hash calls) pathShape t = true →
      ∃ before since s after,
        calls = before ++ since ++ Call.recordFailure pathShape s :: after ∧
        NoSuccess pathShape (since ++ after) ∧
        c.threshold ≤ failures pathShape (since ++ [.recordFailure pathShape s]) ∧
        s ≤ t ∧ t < s + c.openMs) ∧
    (∀ (calls : List Call) (other : Str) (t : ℕ) (e : UpstreamFailureCircuitEntry),
      other ≠ pathShape → c.entryAfter hash calls pathShape = some e → t < e.openUntilMs →
      c.entryAfter hash (calls ++ [.recordFailure other t]) pathShape = some e) ∧
    (∀ (before since : List Call) (s : ℕ), CountStarts c hash pathShape before →
      NoSuccess pathShape since →
      StaysTracked c hash pathShape before (since ++ [.recordFailure pathShape s]) →
      failures pathShape (since ++ [.recordFailure pathShape s]) = c.threshold →
      0 < c.openMs → s < 2 ^ 64 - 1 →
      c.isOpen hash (c.run hash (before ++ since ++ [.recordFailure pathShape s])) pathShape s =
        true) := by
  have hne : c.threshold ≠ 0 := Nat.one_le_iff_ne_zero.mp hthreshold
  refine ⟨?_, ?_, ?_⟩
  · intro calls t htimes hopen
    obtain ⟨s, ⟨before, since, after, heq, hno, hcount⟩, hlt⟩ := streakAt_of_isOpen hne hopen
    refine ⟨before, since, s, after, heq, hno, ?_, ?_, hlt⟩
    · rw [failures_snoc_failure]
      exact hcount
    · -- the counted failure is one of the calls made before the question
      have hmem : Call.recordFailure pathShape s ∈ calls := by simp [heq]
      exact (List.pairwise_append.mp htimes).2.2 _ hmem _ (List.mem_singleton_self _)
  · intro calls other t e hother he hopen
    have heffect := effect_call hne hash calls (.recordFailure other t) pathShape
    rw [he] at heffect
    generalize c.entryAfter hash (calls ++ [.recordFailure other t]) pathShape = o at heffect ⊢
    cases heffect with
    | counted => exact absurd rfl hother
    | otherFailure => rfl
    | evicted _ _ _ _ hclosed => omega
  · intro before since s hstarts hno htracked hcount hopenMs hclock
    obtain ⟨e, he, hdeadline⟩ := hstarts.deadline hne hword hno htracked hcount
    refine (isOpen_iff hne).mpr ⟨e, he, ?_⟩
    omega

/-- A breaker that opens with one failure, for one millisecond. -/
def hair : UpstreamFailureCircuitBreaker := UpstreamFailureCircuitBreaker.new 1 1 1

/-- The entry of a fresh breaker is there after its first failure. -/
theorem staysTracked_hair (s : ℕ) (hs : (hair.entryAfter (fun _ => 0)
      [.recordFailure (utf8 "/a") s] (utf8 "/a")).isSome = true) :
    StaysTracked hair (fun _ => 0) (utf8 "/a") [] ([] ++ [.recordFailure (utf8 "/a") s]) := by
  rintro part ⟨rest, hpart⟩ hne
  cases part with
  | nil => exact absurd rfl hne
  | cons x part =>
    obtain ⟨rfl, hnil⟩ := List.cons.inj hpart
    rw [(List.append_eq_nil_iff.mp hnil).1]
    exact hs

/-- The circuit of `/a` opens with a failure at time 5, and that it is open then
goes back to this failure. -/
theorem circuit_sound_hair :
    1 ≤ hair.threshold ∧ hair.threshold < 2 ^ 32 ∧
    hair.isOpen (fun _ => 0) (hair.run (fun _ => 0) [.recordFailure (utf8 "/a") 5])
      (utf8 "/a") 5 = true ∧
    ∃ before since s after,
      [Call.recordFailure (utf8 "/a") 5] =
        before ++ since ++ Call.recordFailure (utf8 "/a") s :: after ∧
      NoSuccess (utf8 "/a") (since ++ after) ∧
      1 ≤ failures (utf8 "/a") (since ++ [.recordFailure (utf8 "/a") s]) ∧ s ≤ 5 ∧ 5 < s + 1 := by
  have hopen := (circuit_sound hair (fun _ => 0) (by decide) (by decide) (utf8 "/a")).2.2 [] [] 5
    (.creation [] rfl) (by simp [NoSuccess]) (staysTracked_hair 5 (by decide +kernel))
    (by decide +kernel) (by decide) (by decide)
  exact ⟨by decide, by decide, hopen,
    (circuit_sound hair (fun _ => 0) (by decide) (by decide) (utf8 "/a")).1
      [.recordFailure (utf8 "/a") 5] 5 (by decide) hopen⟩

/-- With the clock at its largest value the deadline is not later than now: the
failure that reaches the threshold leaves the circuit closed. -/
theorem closed_at_the_last_tick :
    1 ≤ hair.threshold ∧ 0 < hair.openMs ∧
    CountStarts hair (fun _ => 0) (utf8 "/a") [] ∧
    StaysTracked hair (fun _ => 0) (utf8 "/a") []
      ([] ++ [.recordFailure (utf8 "/a") (2 ^ 64 - 1)]) ∧
    failures (utf8 "/a") ([] ++ [.recordFailure (utf8 "/a") (2 ^ 64 - 1)]) = hair.threshold ∧
    hair.isOpen (fun _ => 0)
      (hair.run (fun _ => 0) ([] ++ [] ++ [.recordFailure (utf8 "/a") (2 ^ 64 - 1)]))
      (utf8 "/a") (2 ^ 64 - 1) = false := by
  refine ⟨by decide, by decide, .creation [] rfl, ?_, by decide +kernel, by decide +kernel⟩
  exact staysTracked_hair _ (by decide +kernel)

end AlturaProt.Http.UpstreamFailureCircuitBreaker
