import AlturaProt.Limiter.Runs

/-!
# What a denied call leaves behind

A call that fails may already have refilled buckets, made room, inserted its
entry and taken a global slot. `Past` are the places from which a call can no
longer fail: it has its global token and its entry is guarded. A call that
ended in failure was never there (`Program.Run.own_before`), so each of its
steps is one of a short list (`Leaves`), and its slot, if it took one, was
given back.
-/

namespace AlturaProt.Limiter

open Foundation

namespace Gate

variable {T : Type} {g : Gate T} {s s' : Shared T} {p p' : Proc}

/-! ## The point of no return -/

/-- The call has its global token, or has returned successfully. -/
def Past : Proc → Prop
  | .commit _ _ => True
  | .held _ => True
  | .releasing _ => True
  | .dropped => True
  | .passed => True
  | _ => False

theorem past_granted (k : IpAddr) : Past (g.granted k) := by
  unfold granted
  split <;> trivial

theorem Moves.past (h : g.Moves s p s' p') (hg : g.Guarded s p) (hp : Past p) : Past p' := by
  cases h with
  | committed _ => exact past_granted _
  | @missing k now hnone =>
    -- the entry cannot be missing: the call has held its shard's lock
    obtain ⟨e, he, -⟩ := hg k rfl
    rw [show g.entry s k = none from hnone] at he
    cases he
  | releasedGlobal => trivial
  | releasedEntry _ => trivial
  | _ => exact hp.elim

theorem permits_eq_zero_of_not_past (h : ¬ Past p) (k : IpAddr) : permits k p = 0 := by
  cases p with
  | held _ => exact absurd trivial h
  | releasing _ => exact absurd trivial h
  | _ => rfl

/-! ## Whose steps these are -/

/-- A place reached by the call for `ip` that read the clock at `now`. -/
def Serves (g : Gate T) (ip : IpAddr) (now : Instant) : Proc → Prop
  | .start ip' t => ip' = ip ∧ t = now
  | .load ip' t => ip' = ip ∧ t = now
  | .lock ip' t => ip' = ip ∧ t = now
  | .spendOnly t => t = now
  | .reserve k t _ => k = g.key ip ∧ t = now
  | .cas k t _ _ => k = g.key ip ∧ t = now
  | .spend k t _ => k = g.key ip ∧ t = now
  | .undo k t _ => k = g.key ip ∧ t = now
  | .commit k t => k = g.key ip ∧ t = now
  | _ => True

variable {ip : IpAddr} {now : Instant}

theorem Moves.serves (h : g.Moves s p s' p') (hp : g.Serves ip now p) :
    g.Serves ip now p' := by
  cases h with
  | entered _ _ =>
    obtain ⟨rfl, rfl⟩ := hp
    unfold afterShard
    split <;> exact ⟨rfl, rfl⟩
  | committed _ =>
    unfold granted
    split <;> trivial
  | toSpend _ => exact hp.2
  | rateOk _ => exact hp
  | toShard _ => exact hp
  | loaded => exact hp
  | swapped _ => exact hp
  | retried => exact hp
  | spent _ => exact hp
  | unspent _ => exact hp
  | _ => trivial

/-- The turns of one process are those of one call, from its start on. -/
theorem exists_call {s : Sys (Shared T) Proc} {b : Option TokenBucket}
    {tr : List (Turn (Shared T) Proc)} (h : g.program.Run ⟨Shared.idle b, []⟩ tr s)
    {pid : ℕ} {p : Proc} (hp : s.procs[pid]? = some p) :
    ∃ ip now, ((Program.own pid tr).map Turn.proc ++ [p]).head? = some (.start ip now) ∧
      g.Serves ip now p ∧ ∀ d ∈ Program.own pid tr, g.Serves ip now d.proc := by
  have hlegal := legal_of_run h (accounted_idle b)
  refine (h.own_induction (Q := fun ds p => ∃ ip now,
    (ds.map Turn.proc ++ [p]).head? = some (.start ip now) ∧
      g.Serves ip now p ∧ ∀ d ∈ ds, g.Serves ip now d.proc) rfl ?_ ?_).1 pid p hp
  · rintro ⟨ip, now⟩
    exact ⟨ip, now, rfl, ⟨rfl, rfl⟩, by simp⟩
  · rintro ds d hd ⟨ip, now, hhead, hserves, hall⟩
    refine ⟨ip, now, ?_, (hlegal d hd).moves.serves hserves, ?_⟩
    · cases ds with
      | nil => exact hhead
      | cons d' rest => exact hhead
    · intro d' hd'
      rcases List.mem_append.mp hd' with hd' | hd'
      · exact hall d' hd'
      · rw [List.mem_singleton] at hd'
        exact hd' ▸ hserves

/-! ## The steps of a call that fails -/

/-- An entry as the call at `now` inserts it. -/
def IsNew (g : Gate T) (now : Instant) (e : T) : Prop :=
  e = g.fresh now ∨ e = g.touched now (g.fresh now)

theorem isNew_judge (g : Gate T) (now : Instant) :
    g.IsNew now (g.judge now (g.fresh now)).1 :=
  g.judge_fst now (g.fresh now)

/-- What a step of a failing call for `ip` at `now` may do to the entry of `k`:
evict somebody else's entry that may go, look at its own, insert its own, or
take back the insertion. -/
inductive Leaves (g : Gate T) (ip : IpAddr) (now : Instant) (k : IpAddr) :
    Option T → Option T → Prop
  | same {o} : Leaves g ip now k o o
  | evicted {e} : g.key ip ≠ k → g.evictable now e = true →
      Leaves g ip now k (some e) none
  | touched {e} : g.key ip = k → Leaves g ip now k (some e) (some (g.touched now e))
  | inserted {e} : g.key ip = k → g.IsNew now e → Leaves g ip now k none (some e)
  | removed {e} : g.key ip = k → g.IsNew now e → Leaves g ip now k (some e) none

theorem Moves.leaves (h : g.Moves s p s' p') (hg : g.Guarded s p)
    (hs : g.Serves ip now p) (hpast : ¬ Past p') (k : IpAddr) :
    g.Leaves ip now k (g.entry s k) (g.entry s' k) := by
  have hnot : ¬ Past p := fun hp => hpast (h.past hg hp)
  have heff := h.effect k
  generalize hb : g.entry s k = before at heff ⊢
  generalize g.entry s' k = after at heff ⊢
  cases heff with
  | same => exact .same
  | evicted hne hev =>
    obtain ⟨rfl, rfl⟩ := hs
    exact .evicted hne hev
  | @looked ip' t e hk =>
    obtain ⟨rfl, rfl⟩ := hs
    rcases g.judge_fst t e with he | he
    · rw [he]
      exact .same
    · rw [he]
      exact .touched hk
  | inserted hk =>
    obtain ⟨rfl, rfl⟩ := hs
    exact .inserted hk (isNew_judge g _)
  | @removed t o _ =>
    obtain ⟨rfl, rfl⟩ := hs
    obtain ⟨e, he, -, hnew⟩ := hg (g.key ip) rfl
    rw [← hb, he, hnew t rfl]
    exact .removed rfl (isNew_judge g t)
  | committed => exact absurd trivial hnot
  | released => exact absurd trivial hnot

/-- No step of a failing call takes a token from the global bucket. -/
theorem Moves.global_refilled (h : g.Moves s p s' p') (hs : g.Serves ip now p) (hpast : ¬ Past p') :
    s'.global = s.global ∨ s'.global = s.global.map (·.refill now) := by
  cases h with
  | rateOk _ =>
    obtain ⟨rfl, rfl⟩ := hs
    exact Or.inr (s.checkRate_global _)
  | rateEmpty _ =>
    obtain ⟨rfl, rfl⟩ := hs
    exact Or.inr (s.checkRate_global _)
  | emptyOnly hr =>
    obtain rfl : _ = now := hs
    exact Or.inr (Shared.spendRate_global_of_false hr)
  | unspent hr =>
    obtain ⟨rfl, rfl⟩ := hs
    exact Or.inr (Shared.spendRate_global_of_false hr)
  | @undone k t b =>
    refine Or.inl ?_
    show (g.rollback s k b).global = s.global
    unfold rollback
    split <;> split <;> rfl
  | spentOnly _ => exact absurd trivial hpast
  | spent _ => exact absurd trivial hpast
  | releasedGlobal => exact absurd trivial hpast
  | releasedEntry _ => exact absurd trivial hpast
  | committed _ => exact absurd (past_granted _) hpast
  | _ => exact Or.inl rfl

/-- A failing call writes no shard but its own. -/
theorem writes_of_serves (hs : g.Serves ip now p) (hnot : ¬ Past p) {i : Fin SHARDS}
    (hi : i ≠ g.shardOf (g.key ip)) : g.writes p ≠ some i := by
  cases p with
  | lock ip' t =>
    obtain ⟨rfl, rfl⟩ := hs
    exact fun h => hi (Option.some.inj h).symm
  | undo k t b =>
    obtain ⟨rfl, rfl⟩ := hs
    exact fun h => hi (Option.some.inj h).symm
  | commit k t => exact absurd trivial hnot
  | releasing k => exact absurd trivial hnot
  | _ => simp [writes]

/-- A failing call turns the order queue of its own shard: keys go from the front to the back or
go, and its own key may come to the end. -/
def Reordered (g : Gate T) (ip : IpAddr) (s s' : Shared T) : Prop :=
  ∃ order, KeyedQueue.Turned (s.shards (g.shardOf (g.key ip))).order order ∧
    ((s'.shards (g.shardOf (g.key ip))).order = order ∨
      (s'.shards (g.shardOf (g.key ip))).order = order ++ [g.key ip])

theorem Reordered.of_eq (h : s'.shards = s.shards) : g.Reordered ip s s' := by
  refine ⟨_, .refl _, Or.inl ?_⟩
  rw [h]

theorem reordered_enter {q : LimiterShard IpAddr T} {r : Except LimitReason Bool}
    (h : g.enter now (g.key ip) (s.shards (g.shardOf (g.key ip))) = (q, r)) :
    g.Reordered ip s (s.setShard (g.shardOf (g.key ip)) q) := by
  have horder := KeyedQueue.order_visit (g.ensure_reclaimed now
    (s.shards (g.shardOf (g.key ip)))) (g.fresh now) (g.judge now) (g.key ip)
  have hq : (g.enter now (g.key ip) (s.shards (g.shardOf (g.key ip)))).1 = q := congrArg Prod.fst h
  have hown : (s.setShard (g.shardOf (g.key ip)) q).shards (g.shardOf (g.key ip)) = q :=
    Function.update_self _ _ _
  rw [Reordered, hown, ← hq]
  exact horder

theorem Moves.reordered (h : g.Moves s p s' p') (hs : g.Serves ip now p) (hnot : ¬ Past p) :
    g.Reordered ip s s' := by
  cases h with
  | refused _ he =>
    obtain ⟨rfl, rfl⟩ := hs
    exact reordered_enter he
  | entered _ he =>
    obtain ⟨rfl, rfl⟩ := hs
    exact reordered_enter he
  | @undone k t inserted =>
    obtain ⟨rfl, rfl⟩ := hs
    have hcount : (if 0 < g.maxActive then s.setActive (s.globalActive - 1) else s).shards =
        s.shards := by
      split <;> rfl
    unfold rollback
    dsimp only
    split
    · -- the own key is taken out again
      refine ⟨_, ⟨0, ?_⟩, Or.inl rfl⟩
      have hown : ((if 0 < g.maxActive then s.setActive (s.globalActive - 1) else s).setShard
          (g.shardOf (g.key ip)) (((if 0 < g.maxActive then s.setActive (s.globalActive - 1)
            else s).shards (g.shardOf (g.key ip))).remove (g.key ip))).shards
              (g.shardOf (g.key ip)) = (s.shards (g.shardOf (g.key ip))).remove (g.key ip) := by
        rw [hcount]
        exact Function.update_self _ _ _
      show (((if 0 < g.maxActive then s.setActive (s.globalActive - 1) else s).setShard
          (g.shardOf (g.key ip)) _).shards (g.shardOf (g.key ip))).order.Sublist _
      rw [hown, List.rotate_zero]
      exact List.erase_sublist
    · exact .of_eq hcount
  | rateOk _ => exact .of_eq (by simp)
  | rateEmpty _ => exact .of_eq (by simp)
  | spentOnly _ => exact .of_eq (by simp)
  | emptyOnly _ => exact .of_eq (by simp)
  | spent _ => exact .of_eq (by simp)
  | unspent _ => exact .of_eq (by simp)
  | releasedGlobal => exact absurd trivial hnot
  | releasedEntry _ => exact absurd trivial hnot
  | committed _ => exact absurd trivial hnot
  | _ => exact .of_eq rfl

/-- One step of a failing call. -/
structure Harmless (g : Gate T) (ip : IpAddr) (now : Instant)
    (d : Turn (Shared T) Proc) : Prop where
  global : d.after.global = d.before.global ∨
    d.after.global = d.before.global.map (·.refill now)
  active : ∀ k, g.activeAt d.after k = g.activeAt d.before k
  entry : ∀ k, g.Leaves ip now k (g.entry d.before k) (g.entry d.after k)
  shards : ∀ i, i ≠ g.shardOf (g.key ip) → d.after.shards i = d.before.shards i
  order : g.Reordered ip d.before d.after

theorem Legal.harmless {d : Turn (Shared T) Proc} (h : g.Legal d)
    (hs : g.Serves ip now d.proc) (hpast : ¬ Past d.proc') : g.Harmless ip now d := by
  have hnot : ¬ Past d.proc := fun hp => hpast (h.moves.past h.guarded hp)
  refine ⟨h.moves.global_refilled hs hpast, fun k => ?_,
    h.moves.leaves h.guarded hs hpast, fun i hi => ?_, h.moves.reordered hs hnot⟩
  · have hmoved := h.moves.permits_conserved k (h.permits_le k)
    rw [permits_eq_zero_of_not_past hnot k, permits_eq_zero_of_not_past hpast k] at hmoved
    exact hmoved
  · exact h.moves.shards_eq (writes_of_serves hs hnot hi)

/-- The per-key bucket of an entry that is there before and after a harmless
step is as it was, or refilled. -/
theorem Leaves.bucket {k : IpAddr} {e e' : T} (h : g.Leaves ip now k (some e) (some e')) :
    g.bucket e' = g.bucket e ∨ g.bucket e' = (g.bucket e).map (·.refill now) := by
  cases h with
  | same => exact Or.inl rfl
  | touched _ => exact g.bucket_touched now e

/-- What the steps of a failed call do to the global counter cancels out. -/
theorem sum_globalActive_of_failed {s : Sys (Shared T) Proc} {b : Option TokenBucket}
    {tr : List (Turn (Shared T) Proc)} (h : g.program.Run ⟨Shared.idle b, []⟩ tr s)
    {pid : ℕ} {reason : LimitReason} (hp : s.procs[pid]? = some (.failed reason)) :
    ((Program.own pid tr).map
      (fun d => (d.after.globalActive : ℤ) - d.before.globalActive)).sum = 0 := by
  have hlegal := legal_of_run h (accounted_idle b)
  by_cases hmax : 0 < g.maxActive
  · refine h.sum_own (q := fun sh => (sh.globalActive : ℤ))
      (w := fun p => (slots p : ℤ)) rfl (fun _ => rfl) ?_ hp
    intro d hd
    have hmoved := (hlegal d hd).moves.slots_conserved (hlegal d hd).guarded hmax
      ((hlegal d hd).slots_le hmax)
    show (d.after.globalActive : ℤ) - d.before.globalActive = slots d.proc' - slots d.proc
    omega
  · -- without a cap the counter stays at zero
    refine h.sum_own (q := fun sh => (sh.globalActive : ℤ)) (w := fun _ => 0) rfl
      (fun _ => rfl) ?_ hp
    intro d hd
    have hbefore := (hlegal d hd).globalActive_le
    have hafter := (hlegal d hd).moves.globalActive_le hbefore
    show (d.after.globalActive : ℤ) - d.before.globalActive = 0 - 0
    omega

end Gate

/-! ## The limiters -/

namespace AdmissionLimiter

variable (l : AdmissionLimiter) (hash : IpAddr → ℕ)

/-- Runs of a limiter from its construction at `now`. -/
def Run (now : Instant) (tr : List (Turn (Shared l.Entry) Gate.Proc))
    (s : Sys (Shared l.Entry) Gate.Proc) : Prop :=
  (l.gate hash).program.Run ⟨l.init now, []⟩ tr s

variable {l hash}

/-- **Denied calls.** In every run of a limiter, the steps of a call that failed
cancel out on the global counter, take no token from the global bucket or from
any per-key bucket, and change no active count. They leave refills, a look at
the caller's own entry, its insertion, evictions, and a rotation of the order
queue of the caller's shard; outside that shard they leave nothing. -/
theorem denied_call_effects {now₀ : Instant}
    {tr : List (Turn (Shared l.Entry) Gate.Proc)} {s : Sys (Shared l.Entry) Gate.Proc}
    (h : l.Run hash now₀ tr s) {pid : ℕ} {reason : LimitReason}
    (hp : s.procs[pid]? = some (.failed reason)) :
    ((Program.own pid tr).map
      (fun d => (d.after.globalActive : ℤ) - d.before.globalActive)).sum = 0 ∧
    ∃ ip now, ((Program.own pid tr).map Turn.proc).head? = some (.start ip now) ∧
      ∀ d ∈ Program.own pid tr, (l.gate hash).Harmless ip now d ∧
        ∀ k e e', (l.gate hash).entry d.before k = some e →
          (l.gate hash).entry d.after k = some e' →
          (l.gate hash).bucket e' = (l.gate hash).bucket e ∨
          (l.gate hash).bucket e' = ((l.gate hash).bucket e).map (·.refill now) := by
  unfold Run at h
  obtain ⟨b, hb⟩ := init_eq_idle now₀ l
  rw [hb] at h
  have hlegal := Gate.legal_of_run h (Gate.accounted_idle b)
  refine ⟨Gate.sum_globalActive_of_failed h hp, ?_⟩
  obtain ⟨ip, now, hhead, -, hserves⟩ := Gate.exists_call h hp
  refine ⟨ip, now, ?_, fun d hd => ?_⟩
  · cases hown : (Program.own pid tr).map Turn.proc with
    | nil =>
      rw [hown] at hhead
      cases hhead
    | cons q rest =>
      rw [hown] at hhead
      exact hhead
  · -- the call never passed the point of no return
    have hbefore := h.own_before (D := Gate.Past) rfl
      (fun d hd => (hlegal d hd).moves.past (hlegal d hd).guarded) hp
      (fun hpast => hpast.elim) d hd
    have hmem : d ∈ tr := (List.mem_filter.mp hd).1
    have hharm := (hlegal d hmem).harmless (hserves d hd) hbefore
    refine ⟨hharm, fun k e e' he he' => ?_⟩
    have hleaves := hharm.entry k
    rw [he, he'] at hleaves
    exact hleaves.bucket

/-- One request per second and no burst. -/
def oneRps : HttpLimitConfig := { perIpRps := 1, perIpBurst := 1 }

/-- Two requests of one address in the same instant: the second is denied. -/
theorem denied_call_effects_second_request :
    ∃ tr s, (requestRate oneRps).Run (fun _ => 0) 0 tr s ∧
      s.procs[1]? = some (.failed .perIpRate) ∧
      ((Program.own 1 tr).map
        (fun d => (d.after.globalActive : ℤ) - d.before.globalActive)).sum = 0 := by
  have hnew : (requestRate oneRps).Run (fun _ => 0) 0 [] ⟨(requestRate oneRps).init 0, []⟩ :=
    .refl
  obtain ⟨tr₁, p₁, hrun₁, -⟩ := Gate.exists_run_call hnew (.v4 7) 0 rfl
  obtain ⟨tr₂, p₂, hrun₂, hset⟩ := Gate.exists_run_call hrun₁ (.v4 7) 0
    (by rw [Gate.call_locked]; rfl)
  have hdenied : (((requestRate oneRps).gate (fun _ => 0)).call
      (((requestRate oneRps).gate (fun _ => 0)).call
        ((requestRate oneRps).init 0) (.v4 7) 0).1 (.v4 7) 0).2 = .error .perIpRate := by
    decide +kernel
  rw [hdenied] at hset
  have hp : ([] ++ [p₁] ++ [p₂])[1]? = some (.failed .perIpRate) := congrArg some hset
  exact ⟨tr₂, _, hrun₂, hp, (denied_call_effects hrun₂ hp).1⟩

/-- A denied check stamps the entry it denied: half a second after the request
that emptied the bucket, the entry is neither as it was nor merely refilled. -/
theorem denied_check_stamps_entry :
    let l := RateLimiter.new oneRps
    let s := (l.check (fun _ => 0) (RateLimiter.init oneRps 0) (.v4 7) 0).1
    let r := l.check (fun _ => 0) s (.v4 7) (1 / 2)
    r.2 = .deny .perIpRate ∧
      ((l.gate (fun _ => 0)).entry s (.v4 7)).map IpBucket.lastSeen = some 0 ∧
      ((l.gate (fun _ => 0)).entry r.1 (.v4 7)).map IpBucket.lastSeen = some (1 / 2) ∧
      (l.gate (fun _ => 0)).entry r.1 (.v4 7) ≠
        ((l.gate (fun _ => 0)).entry s (.v4 7)).map
          (fun e => { e with bucket := e.bucket.refill (1 / 2) }) := by
  decide +kernel

end AdmissionLimiter

end AlturaProt.Limiter
