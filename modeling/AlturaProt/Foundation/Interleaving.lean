import Mathlib.Algebra.BigOperators.Group.List.Basic
import Mathlib.Algebra.Order.BigOperators.Group.List
import Mathlib.Data.List.Basic
import Mathlib.Data.Nat.ModEq
import Mathlib.Tactic.Linarith

/-!
# Interleaved processes over a shared state

Any number of processes, each with a local state, take turns on one shared
state. A turn is one atomic step of one process; which process goes next, and
every choice left open by its step, is up to the scheduler. A `Run` records
the turns in order, so a property of one process can be read off the turns
that are its own.

Three rules are what proofs about such systems need here:

- `Run.invariant`, the induction over the turns, and `Run.history`, the same
  for what relates a state to the turns before it;
- `conserved_turn` and `conserved_spawn`, for a shared counter that always
  equals the sum of what the processes hold of it;
- `Run.sum_own` and `Run.own_before`, for the turns of a single process.

`Solo` is a stretch of a run in which only one process moves, and `Run.solo`
puts such a stretch into a run. `exec` makes the run that a schedule names.
-/

namespace AlturaProt.Foundation

/-- What a process does: where it starts and its atomic steps. `C` are the
choices the scheduler makes for a step. -/
structure Program (S P A C : Type*) where
  start : A → P
  step : S → P → C → Option (S × P)

/-- A shared state with the local states of all processes started so far. -/
structure Sys (S P : Type*) where
  shared : S
  procs : List P

/-- One turn: who moved, from where, to where. -/
structure Turn (S P : Type*) where
  pid : ℕ
  before : S
  proc : P
  after : S
  proc' : P

namespace Program

variable {S P A C : Type*} (prog : Program S P A C)

/-- Runs from `s₀` with the turns taken so far. -/
inductive Run (s₀ : Sys S P) : List (Turn S P) → Sys S P → Prop
  | refl : Run s₀ [] s₀
  | spawn {tr : List (Turn S P)} {s : Sys S P} (a : A) :
      Run s₀ tr s → Run s₀ tr ⟨s.shared, s.procs ++ [prog.start a]⟩
  | turn {tr : List (Turn S P)} {s : Sys S P} {pid : ℕ} {p p' : P} {c : C}
      {sh : S} :
      Run s₀ tr s → s.procs[pid]? = some p →
      prog.step s.shared p c = some (sh, p') →
      Run s₀ (tr ++ [⟨pid, s.shared, p, sh, p'⟩]) ⟨sh, s.procs.set pid p'⟩

variable {prog} {s₀ s : Sys S P} {tr : List (Turn S P)}

/-! ## Which process is where -/

variable {ps : List P} {i pid : ℕ} {p r p' : P} {I : Sys S P → Prop} {sh : S} {q : S → ℕ}
  {w : P → ℕ}

/-- After a process has been started: it was there before, or is the new one. -/
theorem getElem?_spawn (h : (ps ++ [p])[i]? = some r) :
    ps[i]? = some r ∨ i = ps.length ∧ r = p := by
  rcases lt_or_ge i ps.length with hlt | hge
  · rw [List.getElem?_append_left hlt] at h
    exact .inl h
  · rw [List.getElem?_append_right hge] at h
    obtain rfl := List.mem_singleton.mp (List.mem_of_getElem? h)
    have hlen := (List.getElem?_eq_some_iff.mp h).1
    rw [List.length_singleton] at hlen
    exact .inr ⟨by omega, rfl⟩

/-- After a turn: it is the process that moved, or another one. -/
theorem getElem?_turn {j : ℕ} (h : (ps.set i p)[j]? = some r) :
    j = i ∧ r = p ∨ j ≠ i ∧ ps[j]? = some r := by
  by_cases hj : j = i
  · have hlt := (List.getElem?_eq_some_iff.mp h).1
    rw [List.length_set] at hlt
    rw [← hj, List.getElem?_set_self hlt] at h
    exact .inl ⟨hj, (Option.some.inj h).symm⟩
  · rw [List.getElem?_set_ne (Ne.symm hj)] at h
    exact .inr ⟨hj, h⟩

/-! ## Invariants -/

/-- An assertion about every process, in the shared state it sees. -/
def Everywhere (A : S → P → Prop) (s : Sys S P) : Prop :=
  ∀ p ∈ s.procs, A s.shared p

/-- The induction over the turns of a run. -/
theorem Run.invariant (h : prog.Run s₀ tr s) (h0 : I s₀)
    (hspawn : ∀ s a, I s → I ⟨s.shared, s.procs ++ [prog.start a]⟩)
    (hturn : ∀ s pid p c sh p', I s → s.procs[pid]? = some p →
      prog.step s.shared p c = some (sh, p') →
      I ⟨sh, s.procs.set pid p'⟩) : I s := by
  induction h with
  | refl => exact h0
  | spawn a _ ih => exact hspawn _ a ih
  | turn _ hp hs ih => exact hturn _ _ _ _ _ _ ih hp hs

/-- The induction over the turns of a run, for what holds between a state and the turns that
led to it. -/
theorem Run.history {I : List (Turn S P) → Sys S P → Prop} (h : prog.Run s₀ tr s) (h0 : I [] s₀)
    (hspawn : ∀ tr s a, I tr s → I tr ⟨s.shared, s.procs ++ [prog.start a]⟩)
    (hturn : ∀ tr s pid p c sh p', I tr s → s.procs[pid]? = some p →
      prog.step s.shared p c = some (sh, p') →
      I (tr ++ [⟨pid, s.shared, p, sh, p'⟩]) ⟨sh, s.procs.set pid p'⟩) : I tr s := by
  induction h with
  | refl => exact h0
  | spawn a _ ih => exact hspawn _ _ a ih
  | turn _ hp hs ih => exact hturn _ _ _ _ _ _ _ ih hp hs

/-- What every turn does, given an invariant of the states turns start in. -/
theorem Run.forall_turns {R : Turn S P → Prop} (h : prog.Run s₀ tr s)
    (hI : ∀ {tr s}, prog.Run s₀ tr s → I s)
    (hR : ∀ s pid p c sh p', I s → s.procs[pid]? = some p →
      prog.step s.shared p c = some (sh, p') →
      R ⟨pid, s.shared, p, sh, p'⟩) : ∀ d ∈ tr, R d := by
  induction h with
  | refl => simp
  | spawn _ _ ih => exact ih
  | turn hr hp hs ih =>
    intro d hd
    rcases List.mem_append.mp hd with hd | hd
    · exact ih d hd
    · rw [List.mem_singleton] at hd
      subst hd
      exact hR _ _ _ _ _ _ (hI hr) hp hs

/-- One turn keeps an assertion about every process when the mover
establishes it for itself and does not disturb the others. -/
theorem Everywhere.turn {A : S → P → Prop} {s : Sys S P} (h : Everywhere A s) (hown : A sh p')
    (hother : ∀ j r, j ≠ pid → s.procs[j]? = some r → A s.shared r → A sh r) :
    Everywhere A ⟨sh, s.procs.set pid p'⟩ := by
  intro r hr
  obtain ⟨j, hj⟩ := List.mem_iff_getElem?.mp hr
  rcases getElem?_turn hj with ⟨-, rfl⟩ | ⟨hne, hj⟩
  · exact hown
  · exact hother j r hne hj (h r (List.mem_of_getElem? hj))

theorem Everywhere.spawn {A : S → P → Prop} {s : Sys S P} (h : Everywhere A s) (hp : A s.shared p) :
    Everywhere A ⟨s.shared, s.procs ++ [p]⟩ := by
  intro r hr
  rcases List.mem_append.mp hr with hr | hr
  · exact h r hr
  · exact List.mem_singleton.mp hr ▸ hp

/-! ## Counters shared out among the processes -/

/-- Replacing one summand. -/
theorem sum_map_set (w : P → ℕ) : ∀ (ps : List P) (i : ℕ) (p p' : P),
    ps[i]? = some p →
    ((ps.set i p').map w).sum + w p = (ps.map w).sum + w p' := by
  intro ps
  induction ps with
  | nil => intro i p p' h; simp at h
  | cons q rest ih =>
    intro i p p' h
    cases i with
    | zero =>
      have hq : q = p := by simpa using h
      subst hq
      simp only [List.set_cons_zero, List.map_cons, List.sum_cons]
      omega
    | succ i =>
      have hrest := ih i p p' (by simpa using h)
      simp only [List.set_cons_succ, List.map_cons, List.sum_cons]
      omega

theorem sum_map_toNat (q : P → Bool) (ps : List P) :
    (ps.map fun p => (q p).toNat).sum = ps.countP q := by
  induction ps with
  | nil => rfl
  | cons p rest ih =>
    rw [List.map_cons, List.sum_cons, ih, List.countP_cons]
    cases q p with
    | false => simp
    | true => simp [Nat.add_comm]

/-- Replacing one process changes a count by what it counts for. -/
theorem countP_set (q : P → Bool) (h : ps[i]? = some p) (p' : P) :
    (ps.set i p').countP q + (q p).toNat = ps.countP q + (q p').toNat := by
  rw [← sum_map_toNat, ← sum_map_toNat]
  exact sum_map_set (fun p => (q p).toNat) ps i p p' h

/-- What one process holds is at most what all hold together. -/
theorem le_sum_map (w : P → ℕ) (h : ps[i]? = some p) : w p ≤ (ps.map w).sum :=
  List.single_le_sum (fun _ _ => Nat.zero_le _) _
    (List.mem_map_of_mem (List.mem_of_getElem? h))

/-- Two processes together hold at most what all hold together. -/
theorem add_le_sum_map (w : P → ℕ) {j : ℕ} (hij : i ≠ j) (hi : ps[i]? = some p)
    (hj : ps[j]? = some r) (z : P) (hz : w z = 0) : w p + w r ≤ (ps.map w).sum := by
  have hset := sum_map_set w ps i p z hi
  have hj' : (ps.set i z)[j]? = some r := by
    rw [List.getElem?_set_ne hij]
    exact hj
  have hle := le_sum_map w hj'
  omega

/-- **Conservation.** If a process starts with nothing and every step moves
the shared counter by exactly what the mover gains or gives back, the counter
is always the sum of the holdings. The step may assume that the counter covers
the mover's holding, since the conclusion says so. -/
theorem conserved_turn {s : Sys S P} (h : q s.shared = (s.procs.map w).sum)
    (hp : s.procs[pid]? = some p) (hstep : w p ≤ q s.shared → q sh + w p = q s.shared + w p') :
    q sh = ((s.procs.set pid p').map w).sum := by
  have hle : w p ≤ q s.shared := h ▸ le_sum_map w hp
  have hset := sum_map_set w s.procs pid p p' hp
  omega

theorem conserved_spawn {s : Sys S P} (h : q s.shared = (s.procs.map w).sum) (hp : w p = 0) :
    q s.shared = ((s.procs ++ [p]).map w).sum := by
  simp [h, hp]

/-- The same for a counter that wraps around and that nothing is taken from. -/
theorem tallied_turn {m n : ℕ} {s : Sys S P} (h : q s.shared ≡ (s.procs.map w).sum [MOD m])
    (hp : s.procs[pid]? = some p) (hq : q sh ≡ q s.shared + n [MOD m]) (hw : w p' = w p + n) :
    q sh ≡ ((s.procs.set pid p').map w).sum [MOD m] := by
  have hset := sum_map_set w s.procs pid p p' hp
  have hsum : ((s.procs.set pid p').map w).sum = (s.procs.map w).sum + n := by omega
  rw [hsum]
  exact hq.trans (h.add_right n)

/-- A process that had nothing to show before its turn adds what it shows after it. -/
theorem filterMap_set_perm {B : Type*} (f : P → Option B) : ∀ (ps : List P) (i : ℕ) (p p' : P),
    ps[i]? = some p → f p = none →
    ((ps.set i p').filterMap f).Perm (ps.filterMap f ++ (f p').toList) := by
  intro ps
  induction ps with
  | nil => intro i p p' h; simp at h
  | cons q rest ih =>
    intro i p p' h hnone
    cases i with
    | zero =>
      obtain rfl : q = p := by simpa using h
      rw [List.set_cons_zero, List.filterMap_cons_none hnone]
      cases hp' : f p' with
      | none => simp [hp']
      | some b =>
        rw [List.filterMap_cons_some hp']
        exact (List.perm_append_singleton b _).symm
    | succ i =>
      have hrest := ih i p p' (by simpa using h) hnone
      rw [List.set_cons_succ]
      cases hq : f q with
      | none =>
        rw [List.filterMap_cons_none hq, List.filterMap_cons_none hq]
        exact hrest
      | some b =>
        rw [List.filterMap_cons_some hq, List.filterMap_cons_some hq]
        exact hrest.cons b

/-! ## The turns of one process -/

/-- The turns a process took itself. -/
def own (pid : ℕ) (tr : List (Turn S P)) : List (Turn S P) :=
  tr.filter (fun d => d.pid = pid)

theorem own_append (pid : ℕ) (tr : List (Turn S P)) (d : Turn S P) :
    own pid (tr ++ [d]) = own pid tr ++ (if d.pid = pid then [d] else []) := by
  by_cases h : d.pid = pid <;> simp [own, h]

/-- A local state reached by a process: it is where it started, or where its
last turn took it. The induction carries a property of the process's history
along. -/
theorem Run.own_induction {Q : List (Turn S P) → P → Prop}
    (h : prog.Run s₀ tr s) (h0 : s₀.procs = [])
    (hstart : ∀ a, Q [] (prog.start a))
    (hturn : ∀ ds d, d ∈ tr → Q ds d.proc → Q (ds ++ [d]) d.proc') :
    (∀ pid p, s.procs[pid]? = some p → Q (own pid tr) p) ∧ ∀ d ∈ tr, d.pid < s.procs.length := by
  induction h with
  | refl => simp [h0]
  | @spawn tr s a _ ih =>
    obtain ⟨ihQ, ihlt⟩ := ih hturn
    refine ⟨fun pid p hp => ?_, fun d hd => ?_⟩
    · rcases getElem?_spawn hp with hp | ⟨rfl, rfl⟩
      · exact ihQ pid p hp
      · -- the process that has just been started has no turns yet
        have hnil : own s.procs.length tr = [] := by
          rw [own, List.filter_eq_nil_iff]
          intro d hd heq
          have hpid : d.pid = s.procs.length := by simpa using heq
          exact absurd (ihlt d hd) (by omega)
        rw [hnil]
        exact hstart a
    · rw [List.length_append]
      exact Nat.lt_add_right _ (ihlt d hd)
  | @turn tr s pid p p' c sh _ hp _ ih =>
    have hpre : ∀ ds d, d ∈ tr → Q ds d.proc → Q (ds ++ [d]) d.proc' :=
      fun ds d hd => hturn ds d (List.mem_append_left _ hd)
    obtain ⟨ihQ, ihlt⟩ := ih hpre
    refine ⟨fun j r hr => ?_, fun d hd => ?_⟩
    · rw [own_append]
      rcases getElem?_turn hr with ⟨rfl, rfl⟩ | ⟨hne, hr⟩
      · rw [if_pos rfl]
        exact hturn _ ⟨j, s.shared, p, sh, r⟩
          (List.mem_append_right _ (List.mem_singleton.mpr rfl)) (ihQ j p hp)
      · rw [if_neg (Ne.symm hne), List.append_nil]
        exact ihQ j r hr
    · rw [List.length_set]
      rcases List.mem_append.mp hd with hd | hd
      · exact ihlt d hd
      · rw [List.mem_singleton] at hd
        exact hd ▸ (List.getElem?_eq_some_iff.mp hp).1

/-- If every turn changes a quantity by what the mover's holding changes by,
the turns of one process change it in total by what the process ends up with. -/
theorem Run.sum_own {q : S → ℤ} {w : P → ℤ} (h : prog.Run s₀ tr s) (h0 : s₀.procs = [])
    (hstart : ∀ a, w (prog.start a) = 0)
    (hturn : ∀ d ∈ tr, q d.after - q d.before = w d.proc' - w d.proc) (hp : s.procs[pid]? = some p)
    : ((own pid tr).map (fun d => q d.after - q d.before)).sum = w p := by
  refine (h.own_induction
    (Q := fun ds p => (ds.map (fun d => q d.after - q d.before)).sum = w p)
    h0 ?_ ?_).1 pid p hp
  · exact fun a => by simp [hstart a]
  · intro ds d hd ih
    rw [List.map_append, List.sum_append, ih]
    simp [hturn d hd]

/-- If the states in `D` are never left, a process that has not entered `D`
took all its turns outside `D`. -/
theorem Run.own_before {D : P → Prop} (h : prog.Run s₀ tr s) (h0 : s₀.procs = [])
    (hclosed : ∀ d ∈ tr, D d.proc → D d.proc') (hp : s.procs[pid]? = some p) (hD : ¬ D p) :
    ∀ d ∈ own pid tr, ¬ D d.proc' := by
  refine (h.own_induction (Q := fun ds p => ¬ D p → ∀ d ∈ ds, ¬ D d.proc') h0 ?_ ?_).1 pid p hp hD
  · simp
  · intro ds d hd ih hD' d' hd'
    rcases List.mem_append.mp hd' with hd' | hd'
    · exact ih (fun hDp => hD' (hclosed d hd hDp)) d' hd'
    · rw [List.mem_singleton] at hd'
      exact hd' ▸ hD'

/-! ## Entries of a history -/

/-! ## One process while the others stand still -/

/-- Steps of one process in a row. -/
inductive Solo (prog : Program S P A C) : S → P → S → P → Prop
  | refl {s : S} {p : P} : Solo prog s p s p
  | step {s s' s'' : S} {p p' p'' : P} (c : C) :
      prog.step s p c = some (s', p') → Solo prog s' p' s'' p'' → Solo prog s p s'' p''

theorem Run.solo {sh' : S} (hs : prog.Solo sh p sh' p') :
    ∀ {tr : List (Turn S P)}, prog.Run s₀ tr ⟨sh, ps ++ [p]⟩ →
      ∃ tr', prog.Run s₀ tr' ⟨sh', ps ++ [p']⟩ := by
  induction hs with
  | refl => exact fun h => ⟨_, h⟩
  | @step s s' _ p p' _ c hst _ ih =>
    intro tr h
    have hlast : (ps ++ [p])[ps.length]? = some p := by simp
    have hset : (ps ++ [p]).set ps.length p' = ps ++ [p'] := by simp
    have hnext := Run.turn h hlast hst
    rw [hset] at hnext
    exact ih hnext

/-! ## Runs by a schedule -/

/-- The run that a schedule makes: processes are started, and take the turns it names. -/
def exec (prog : Program S P A C) :
    List (A ⊕ ℕ × C) → List (Turn S P) × Sys S P → Option (List (Turn S P) × Sys S P)
  | [], now => some now
  | .inl a :: rest, (tr, s) => exec prog rest (tr, ⟨s.shared, s.procs ++ [prog.start a]⟩)
  | .inr (pid, c) :: rest, (tr, s) =>
    (s.procs[pid]?).bind fun p => (prog.step s.shared p c).bind fun (sh, p') =>
      exec prog rest (tr ++ [⟨pid, s.shared, p, sh, p'⟩], ⟨sh, s.procs.set pid p'⟩)

theorem run_of_exec (schedule : List (A ⊕ ℕ × C)) {tr' : List (Turn S P)} {s' : Sys S P}
    (h : prog.Run s₀ tr s) (hexec : prog.exec schedule (tr, s) = some (tr', s')) :
    prog.Run s₀ tr' s' := by
  induction schedule generalizing tr s with
  | nil =>
    cases hexec
    exact h
  | cons entry rest ih =>
    rcases entry with a | ⟨pid, c⟩
    · exact ih (h.spawn a) hexec
    · obtain ⟨p, hp, hexec⟩ := Option.bind_eq_some_iff.mp hexec
      obtain ⟨⟨sh, p'⟩, hstep, hexec⟩ := Option.bind_eq_some_iff.mp hexec
      exact ih (h.turn hp hstep) hexec

end Program

end AlturaProt.Foundation
