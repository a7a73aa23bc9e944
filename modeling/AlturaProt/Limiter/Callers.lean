import AlturaProt.Limiter.Limiters

/-!
# Users of a gate

A connection or a request uses a gate in the middle of its own work: it asks for a permit, does
something while it holds it and gives it back, and may then ask again. `stage` is where such a
user stands with its latest call. `Accounted` speaks of calls; `Accounted.restart` lets a user
whose call is over make another one, so that the accounts of a gate are kept by any component
that lists the latest calls of its users.
-/

namespace AlturaProt.Limiter

open Foundation

namespace Gate

variable {T : Type} {g : Gate T} {s s' : Shared T} {p p' : Proc}

inductive Stage where
  /-- no call is running and no permit is held -/
  | idle
  | acquiring
  | holding
  | releasing
deriving DecidableEq

def stage : Proc → Stage
  | .dropped | .passed | .failed _ => .idle
  | .held _ => .holding
  | .releasing _ => .releasing
  | _ => .acquiring

/-- The call is for the address, and so is the permit it ends in. -/
def For (g : Gate T) (ip : IpAddr) : Proc → Prop
  | .start ip' _ | .load ip' _ | .lock ip' _ => ip' = ip
  | .reserve k _ _ | .cas k _ _ _ | .spend k _ _ | .undo k _ _ | .commit k _ => k = g.key ip
  | .held k | .releasing k => k = g.key ip
  | _ => True

/-- A call that looks at the entry of its key, and ends in a permit if it does not fail. -/
def Keyed : Proc → Prop
  | .spendOnly _ | .passed => False
  | _ => True

/-! ## Steps -/

/-- A call goes on, or ends with a permit or without one. -/
theorem Moves.stage_of_acquiring (h : g.Moves s p s' p') (hp : stage p = .acquiring) :
    stage p' = .acquiring ∨ stage p' = .holding ∨ stage p' = .idle := by
  cases h with
  | entered _ _ =>
    unfold afterShard
    split <;> simp [stage]
  | committed _ =>
    unfold granted
    split <;> simp [stage]
  | releasedGlobal => cases hp
  | releasedEntry _ => cases hp
  | _ => simp [stage]

/-- A permit that is being dropped is dropped in two steps. -/
theorem Moves.stage_of_dropping (h : g.Moves s p s' p')
    (hp : stage p = .holding ∨ stage p = .releasing) :
    stage p' = .releasing ∨ stage p' = .idle := by
  cases h with
  | releasedGlobal => exact .inl rfl
  | releasedEntry _ => exact .inr rfl
  | _ => rcases hp with hp | hp <;> cases hp

theorem Moves.for_ {ip : IpAddr} (h : g.Moves s p s' p') (hp : g.For ip p) : g.For ip p' := by
  cases h with
  | entered _ _ =>
    obtain rfl := hp
    unfold afterShard
    split <;> exact rfl
  | committed _ =>
    unfold granted
    split
    · exact hp
    · trivial
  | rateOk _ => exact hp
  | toShard _ => exact hp
  | loaded => exact hp
  | swapped _ => exact hp
  | retried => exact hp
  | spent _ => exact hp
  | unspent _ => exact hp
  | releasedGlobal => exact hp
  | _ => trivial

/-- A step that a user makes with its call moves the call on, for the same address. -/
theorem moved_of_map {U : Type} {choice : Choice} {result : Shared T × Proc → U} {u : U}
    {ip : IpAddr} (h : (g.step s p choice).map result = some u) (hp : g.For ip p) :
    ∃ s' p', g.Moves s p s' p' ∧ g.For ip p' ∧ result (s', p') = u := by
  obtain ⟨⟨s', p'⟩, hstep, hresult⟩ := Option.map_eq_some_iff.mp h
  have hmoves := g.moves_of_step hstep
  exact ⟨s', p', hmoves, hmoves.for_ hp, hresult⟩

theorem Moves.keyed (hkey : g.perKey = true) (hleased : g.leased = true)
    (h : g.Moves s p s' p') (hp : Keyed p) : Keyed p' := by
  cases h with
  | toSpend hnot =>
    rw [hkey] at hnot
    cases hnot
  | spentOnly _ => exact hp
  | entered _ _ =>
    unfold afterShard
    split <;> trivial
  | committed _ =>
    rw [granted, if_pos hleased]
    trivial
  | _ => trivial

/-- A call that ends without a permit has failed. -/
theorem Moves.failed_of_acquiring (h : g.Moves s p s' p') (hp : stage p = .acquiring)
    (hkeyed : Keyed p') (hidle : stage p' = .idle) : ∃ reason, p' = .failed reason := by
  cases h with
  | spentOnly _ => exact hkeyed.elim
  | entered _ _ =>
    unfold afterShard at hidle
    split at hidle <;> cases hidle
  | committed _ =>
    unfold granted at hidle hkeyed
    split at hidle
    · cases hidle
    · rename_i hnot
      rw [if_neg hnot] at hkeyed
      exact hkeyed.elim
  | rateEmpty _ => exact ⟨_, rfl⟩
  | full _ => exact ⟨_, rfl⟩
  | emptyOnly _ => exact ⟨_, rfl⟩
  | refused _ _ => exact ⟨_, rfl⟩
  | capped _ => exact ⟨_, rfl⟩
  | undone => exact ⟨_, rfl⟩
  | missing _ => exact ⟨_, rfl⟩
  | releasedEntry _ => cases hp
  | _ => cases hidle

/-! ## What a user holds -/

theorem slots_of_holding (hp : stage p = .holding) : slots p = 1 := by
  cases p with
  | held k => rfl
  | _ => cases hp

theorem permits_of_holding {ip : IpAddr} (hp : stage p = .holding) (hfor : g.For ip p) :
    permits (g.key ip) p = 1 := by
  cases p with
  | held k => exact if_pos hfor
  | _ => cases hp

/-- A user without a call has no part in the counters. -/
theorem unencumbered (hp : stage p = .idle) :
    (∀ i, g.locksOn i p = 0) ∧ slots p = 0 ∧ (∀ k, permits k p = 0) ∧ relies p = none := by
  cases p with
  | dropped => exact ⟨fun _ => rfl, rfl, fun _ => rfl, rfl⟩
  | passed => exact ⟨fun _ => rfl, rfl, fun _ => rfl, rfl⟩
  | failed reason => exact ⟨fun _ => rfl, rfl, fun _ => rfl, rfl⟩
  | _ => cases hp

/-! ## Accounts -/

theorem Accounted.restart {ps : List Proc} (h : g.Accounted ⟨s, ps⟩) {pid : ℕ}
    (hp : ps[pid]? = some p) (hidle : stage p = .idle) (ip : IpAddr) (now : Instant) :
    g.Accounted ⟨s, ps.set pid (.start ip now)⟩ := by
  obtain ⟨hlocks, hslots, hpermits, hrelies⟩ := unencumbered (g := g) hidle
  have hsame : ∀ w : Proc → ℕ, w p = 0 → w (.start ip now) = 0 →
      ((ps.set pid (.start ip now)).map w).sum = (ps.map w).sum := by
    intro w hw hw'
    have hset := Program.sum_map_set w ps pid p (.start ip now) hp
    omega
  refine ⟨?_, ?_, ?_, h.globalActive_le, ?_, h.activeAt_le⟩
  · intro i
    rw [hsame _ (hlocks i) rfl]
    exact h.locks_eq i
  · apply h.guarded.turn
    · intro k hk
      cases hk
    · intro j r _ _ hr
      exact hr
  · intro hmax
    rw [hsame _ hslots rfl]
    exact h.slots_eq hmax
  · intro k
    rw [hsame _ (hpermits k) rfl]
    exact h.permits_eq k

/-- A user joins. -/
theorem Accounted.join {ps : List Proc} (h : g.Accounted ⟨s, ps⟩) :
    g.Accounted ⟨s, ps ++ [.dropped]⟩ where
  locks_eq i :=
    Program.conserved_spawn (q := fun sh : Shared T => (sh.locked i).toNat) (h.locks_eq i) rfl
  guarded := h.guarded.spawn fun _ hk => nomatch hk
  slots_eq hmax := Program.conserved_spawn (h.slots_eq hmax) rfl
  globalActive_le := h.globalActive_le
  permits_eq k :=
    Program.conserved_spawn (q := fun sh : Shared T => g.activeAt sh k) (h.permits_eq k) rfl
  activeAt_le := h.activeAt_le

/-- What a user does with the gate in one of its own steps: it moves its call on, it makes a new
call after the last one is over, or it leaves the gate alone. -/
inductive Uses (g : Gate T) (s : Shared T) (p : Proc) : Shared T → Proc → Prop
  | moves {s' : Shared T} {p' : Proc} : g.Moves s p s' p' → Uses g s p s' p'
  | calls {ip : IpAddr} {now : Instant} : stage p = .idle → Uses g s p s (.start ip now)
  | same : Uses g s p s p

theorem Accounted.uses {ps : List Proc} (h : g.Accounted ⟨s, ps⟩) {pid : ℕ}
    (hp : ps[pid]? = some p) (huses : g.Uses s p s' p') : g.Accounted ⟨s', ps.set pid p'⟩ := by
  cases huses with
  | moves hmoves => exact h.turn hp hmoves
  | calls hidle => exact h.restart hp hidle _ _
  | same =>
    obtain ⟨hlt, rfl⟩ := List.getElem?_eq_some_iff.mp hp
    rw [List.set_getElem_self]
    exact h

/-- The permits held are within the global cap. -/
theorem Accounted.holding_le {ps : List Proc} (h : g.Accounted ⟨s, ps⟩) (hmax : 0 < g.maxActive) :
    ps.countP (stage · = .holding) ≤ g.maxActive := by
  have hslots : ps.countP (stage · = .holding) ≤ (ps.map slots).sum := by
    clear h
    induction ps with
    | nil => exact le_refl _
    | cons p rest ih =>
      rw [List.countP_cons, List.map_cons, List.sum_cons]
      split
      · rename_i hp
        rw [slots_of_holding (by simpa using hp)]
        omega
      · omega
  calc ps.countP (stage · = .holding) ≤ (ps.map slots).sum := hslots
    _ = s.globalActive := (h.slots_eq hmax).symm
    _ ≤ g.maxActive := h.globalActive_le

/-- The permits held for an address are within the cap of its key. -/
theorem Accounted.holding_for_le {U : Type} {us : List U} {call : U → Proc}
    (h : g.Accounted ⟨s, us.map call⟩) {cap : ℕ} (hcap : cap ∈ g.activeCap) {k : IpAddr}
    {counts : U → Bool} (hcounts : ∀ u ∈ us, counts u = true →
      ∃ ip, g.key ip = k ∧ g.For ip (call u) ∧ stage (call u) = .holding) :
    us.countP counts ≤ cap := by
  have hpermits : us.countP counts ≤ ((us.map call).map (permits k)).sum := by
    clear h
    induction us with
    | nil => exact le_refl _
    | cons u rest ih =>
      have hrest := ih fun u hu => hcounts u (List.mem_cons_of_mem _ hu)
      rw [List.countP_cons, List.map_cons, List.map_cons, List.sum_cons]
      split
      · rename_i hu
        obtain ⟨ip, rfl, hfor, hstage⟩ := hcounts u List.mem_cons_self hu
        rw [permits_of_holding hstage hfor]
        omega
      · omega
  calc us.countP counts ≤ ((us.map call).map (permits k)).sum := hpermits
    _ = g.activeAt s k := (h.permits_eq k).symm
    _ ≤ cap := h.activeAt_le cap hcap k

/-- Once no user has a call running or holds a permit, nothing is counted. -/
theorem Accounted.settled {ps : List Proc} (h : g.Accounted ⟨s, ps⟩)
    (hidle : ∀ p ∈ ps, stage p = .idle) :
    (0 < g.maxActive → s.globalActive = 0) ∧ (∀ k, g.activeAt s k = 0) ∧
      ∀ i, s.locked i = false := by
  have hzero : ∀ w : Proc → ℕ, (∀ p, stage p = .idle → w p = 0) → (ps.map w).sum = 0 := by
    intro w hw
    rw [List.sum_eq_zero_iff]
    intro n hn
    obtain ⟨p, hp, rfl⟩ := List.mem_map.mp hn
    exact hw p (hidle p hp)
  refine ⟨?_, ?_, ?_⟩
  · intro hmax
    exact (h.slots_eq hmax).trans (hzero slots fun p hp => (unencumbered (g := g) hp).2.1)
  · intro k
    exact (h.permits_eq k).trans
      (hzero (permits k) fun p hp => (unencumbered (g := g) hp).2.2.1 k)
  · intro i
    have hlocked := (h.locks_eq i).trans
      (hzero (g.locksOn i) fun p hp => (unencumbered (g := g) hp).1 i)
    simpa using hlocked

end Gate

end AlturaProt.Limiter
