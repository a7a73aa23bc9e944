import AlturaProt.Foundation.Interleaving
import Mathlib.Order.Basic

/-!
# Limited logging

`LogLimiter` of `src/log_limiter.rs`: two atomics that all threads share, the time of the next
allowed message and the number of messages suppressed since the last one. A call is not
atomic. It loads the time, then exchanges it if nobody else has, and then either takes the
number of suppressed messages or adds itself to it; other calls may run in between.

Whoever exchanges the time raises it, so that it never takes a value twice: an exchange that
succeeds has seen every grant before it (`Exact.granted`). The number of refused calls is
always what the counter holds and what grants have taken from it (`Exact.counted`).
-/

namespace AlturaProt.Telemetry

open Foundation

structure LogLimiter where
  nextAllowedMs : ℕ
  suppressed : ℕ
deriving DecidableEq

namespace LogLimiter

def U64_MAX : ℕ := 2 ^ 64 - 1

def saturatingAdd (a b : ℕ) : ℕ := min (a + b) U64_MAX

def new : LogLimiter where
  nextAllowedMs := 0
  suppressed := 0

/-- `fetch_add(1)` on the number of suppressed messages, which wraps. -/
def suppress (s : LogLimiter) : LogLimiter :=
  { s with suppressed := (s.suppressed + 1) % (U64_MAX + 1) }

/-- A call that nobody interrupts. -/
def shouldLogAt (s : LogLimiter) (nowMs intervalMs : ℕ) : LogLimiter × Option ℕ :=
  if nowMs < s.nextAllowedMs then (s.suppress, none)
  else
    (⟨saturatingAdd nowMs (max intervalMs 1), 0⟩, some s.suppressed)

/-! ## Calls -/

/-- Where a call stands: what it does next, with the values it has read. -/
inductive Call where
  | load (nowMs : ℕ)
  | exchange (nowMs nextAllowedMs : ℕ)
  | swap (nowMs : ℕ)
  | add (nowMs : ℕ)
  | returned (nowMs : ℕ) (result : Option ℕ)
deriving DecidableEq

namespace Call

def nowMs : Call → ℕ
  | load nowMs => nowMs
  | exchange nowMs _ => nowMs
  | swap nowMs => nowMs
  | add nowMs => nowMs
  | returned nowMs _ => nowMs

/-- The call has exchanged the time, and returns `Some`. -/
def granted : Call → Bool
  | swap _ => true
  | returned _ (some _) => true
  | _ => false

def finished : Call → Bool
  | returned _ _ => true
  | _ => false

/-- The call has added itself to the suppressed ones. -/
def refused : Call → ℕ
  | returned _ none => 1
  | _ => 0

/-- The number of suppressed messages that the call reports. -/
def reported : Call → ℕ
  | returned _ (some suppressed) => suppressed
  | _ => 0

end Call

/-- One atomic operation of a call. -/
def step (intervalMs : ℕ) (s : LogLimiter) : Call → Unit → Option (LogLimiter × Call)
  | .load nowMs, _ =>
    if nowMs < s.nextAllowedMs then some (s, .add nowMs)
    else some (s, .exchange nowMs s.nextAllowedMs)
  | .exchange nowMs nextAllowedMs, _ =>
    if s.nextAllowedMs = nextAllowedMs then
      some ({ s with nextAllowedMs := saturatingAdd nowMs (max intervalMs 1) }, .swap nowMs)
    else some (s, .add nowMs)
  | .swap nowMs, _ => some ({ s with suppressed := 0 }, .returned nowMs (some s.suppressed))
  | .add nowMs, _ => some (s.suppress, .returned nowMs none)
  | .returned _ _, _ => none

/-- Any number of calls with a common interval. -/
def calls (intervalMs : ℕ) : Program LogLimiter Call ℕ Unit where
  start := .load
  step := step intervalMs

/-! ## What one operation does -/

/-- Everything that one operation can do. -/
inductive Steps (intervalMs : ℕ) (s : LogLimiter) : Call → LogLimiter → Call → Prop where
  | early {nowMs : ℕ} : Steps intervalMs s (.load nowMs) s (.add nowMs)
  | ready {nowMs : ℕ} (h : s.nextAllowedMs ≤ nowMs) :
      Steps intervalMs s (.load nowMs) s (.exchange nowMs s.nextAllowedMs)
  | wins {nowMs : ℕ} :
      Steps intervalMs s (.exchange nowMs s.nextAllowedMs)
        { s with nextAllowedMs := saturatingAdd nowMs (max intervalMs 1) } (.swap nowMs)
  | loses {nowMs nextAllowedMs : ℕ} :
      Steps intervalMs s (.exchange nowMs nextAllowedMs) s (.add nowMs)
  | reports {nowMs : ℕ} :
      Steps intervalMs s (.swap nowMs) { s with suppressed := 0 }
        (.returned nowMs (some s.suppressed))
  | counts {nowMs : ℕ} : Steps intervalMs s (.add nowMs) s.suppress (.returned nowMs none)

theorem steps_of_step {intervalMs : ℕ} {s s' : LogLimiter} {p p' : Call} {c : Unit}
    (h : (calls intervalMs).step s p c = some (s', p')) : Steps intervalMs s p s' p' := by
  cases p with
  | load nowMs =>
    simp only [calls, step] at h
    split at h
    · cases h
      exact .early
    · rename_i hready
      cases h
      exact .ready (not_lt.mp hready)
  | exchange nowMs nextAllowedMs =>
    simp only [calls, step] at h
    split at h
    · rename_i hsame
      cases h
      exact hsame ▸ .wins
    · cases h
      exact .loses
  | swap nowMs =>
    cases h
    exact .reports
  | add nowMs =>
    cases h
    exact .counts
  | returned nowMs result => cases h

/-- The addition of a turn, if there is one, stays within 64 bits. -/
def Fits (intervalMs : ℕ) (d : Turn LogLimiter Call) : Prop :=
  match d.proc with
  | .exchange nowMs _ => nowMs + max intervalMs 1 ≤ U64_MAX
  | .add _ => d.before.suppressed + 1 ≤ U64_MAX
  | _ => True

/-! ## The invariant -/

/-- The calls are at least one interval apart. -/
def Apart (intervalMs : ℕ) (p q : Call) : Prop :=
  p.nowMs + max intervalMs 1 ≤ q.nowMs ∨ q.nowMs + max intervalMs 1 ≤ p.nowMs

structure Exact (intervalMs : ℕ) (s : Sys LogLimiter Call) : Prop where
  /-- the next allowed time is after every grant -/
  granted : ∀ p ∈ s.procs, p.granted = true →
    p.nowMs + max intervalMs 1 ≤ s.shared.nextAllowedMs
  /-- a call tries the exchange only if its time had come -/
  ready : ∀ p ∈ s.procs, ∀ nowMs nextAllowedMs, p = .exchange nowMs nextAllowedMs →
    nextAllowedMs ≤ nowMs
  apart : ∀ (j k : ℕ) (p q : Call), j ≠ k → s.procs[j]? = some p → s.procs[k]? = some q →
    p.granted = true → q.granted = true → Apart intervalMs p q
  /-- every refused call is in the counter, or has been reported -/
  counted : (s.procs.map Call.refused).sum =
    s.shared.suppressed + (s.procs.map Call.reported).sum

theorem exact_new (intervalMs : ℕ) : Exact intervalMs ⟨new, []⟩ := by
  constructor <;> simp [new]

theorem Exact.spawn {intervalMs : ℕ} {s : Sys LogLimiter Call} (h : Exact intervalMs s)
    (nowMs : ℕ) : Exact intervalMs ⟨s.shared, s.procs ++ [.load nowMs]⟩ where
  granted p hp hgranted := by
    rcases List.mem_append.mp hp with hp | hp
    · exact h.granted p hp hgranted
    · rw [List.mem_singleton.mp hp] at hgranted
      cases hgranted
  ready p hp now next heq := by
    rcases List.mem_append.mp hp with hp | hp
    · exact h.ready p hp now next heq
    · rw [List.mem_singleton.mp hp] at heq
      cases heq
  apart j k p q hjk hj hk hp hq := by
    have hold : ∀ {i : ℕ} {r : Call}, (s.procs ++ [Call.load nowMs])[i]? = some r →
        r.granted = true → s.procs[i]? = some r := by
      intro i r hi hr
      rcases Program.getElem?_spawn hi with hi | ⟨-, rfl⟩
      · exact hi
      · cases hr
    exact h.apart j k p q hjk (hold hj hp) (hold hk hq) hp hq
  counted := by
    simp [h.counted, Call.refused, Call.reported]

section Turn

variable {intervalMs : ℕ} {s : Sys LogLimiter Call} {sh : LogLimiter} {p p' : Call} {pid : ℕ}

/-- A call that is granted was granted before, or has just won the exchange. -/
theorem Steps.granted_cases (h : Steps intervalMs s.shared p sh p') (hp' : p'.granted = true) :
    (p.granted = true ∧ p'.nowMs = p.nowMs ∧ sh.nextAllowedMs = s.shared.nextAllowedMs) ∨
      p = .exchange p'.nowMs s.shared.nextAllowedMs ∧
        sh.nextAllowedMs = saturatingAdd p'.nowMs (max intervalMs 1) := by
  cases h with
  | early => cases hp'
  | ready => cases hp'
  | wins => exact .inr ⟨rfl, rfl⟩
  | loses => cases hp'
  | reports => exact .inl ⟨rfl, rfl, rfl⟩
  | counts => cases hp'

/-- The next allowed time is never lowered. -/
theorem Exact.next_le (h : Exact intervalMs s) (hp : s.procs[pid]? = some p)
    (hstep : Steps intervalMs s.shared p sh p')
    (hfits : Fits intervalMs ⟨pid, s.shared, p, sh, p'⟩) :
    s.shared.nextAllowedMs ≤ sh.nextAllowedMs := by
  cases hstep with
  | wins =>
    rename_i nowMs
    have hready := h.ready _ (List.mem_of_getElem? hp) _ _ rfl
    have hmax : nowMs + max intervalMs 1 ≤ U64_MAX := hfits
    show s.shared.nextAllowedMs ≤ min (nowMs + max intervalMs 1) U64_MAX
    omega
  | _ => exact le_refl _

/-- A call that wins the exchange comes an interval after every grant before it. -/
theorem Exact.apart_of_wins (h : Exact intervalMs s) (hp : s.procs[pid]? = some p)
    (hwins : p = .exchange p'.nowMs s.shared.nextAllowedMs) {q : Call} (hq : q ∈ s.procs)
    (hgranted : q.granted = true) : q.nowMs + max intervalMs 1 ≤ p'.nowMs := by
  have hready := h.ready p (List.mem_of_getElem? hp) _ _ hwins
  exact (h.granted q hq hgranted).trans hready

/-- The counter after an operation, against what the call has gained. -/
theorem Steps.counted (hstep : Steps intervalMs s.shared p sh p')
    (hfits : Fits intervalMs ⟨pid, s.shared, p, sh, p'⟩) :
    p'.refused + s.shared.suppressed + p.reported = p.refused + sh.suppressed + p'.reported := by
  cases hstep with
  | early => rfl
  | ready => rfl
  | wins => rfl
  | loses => rfl
  | reports =>
    simp only [Call.refused, Call.reported]
    omega
  | counts =>
    have hmax : s.shared.suppressed + 1 ≤ U64_MAX := hfits
    have hmod : s.shared.suppress.suppressed = s.shared.suppressed + 1 :=
      Nat.mod_eq_of_lt (Nat.lt_succ_of_le hmax)
    simp only [Call.refused, Call.reported, hmod]
    omega

/-- **One operation keeps the invariant.** -/
theorem Exact.turn (h : Exact intervalMs s) (hp : s.procs[pid]? = some p)
    (hstep : Steps intervalMs s.shared p sh p')
    (hfits : Fits intervalMs ⟨pid, s.shared, p, sh, p'⟩) :
    Exact intervalMs ⟨sh, s.procs.set pid p'⟩ := by
  have hnext := h.next_le hp hstep hfits
  refine ⟨?_, ?_, ?_, ?_⟩
  · intro q hq hgranted
    rcases List.mem_or_eq_of_mem_set hq with hq | rfl
    · exact (h.granted q hq hgranted).trans hnext
    · rcases hstep.granted_cases hgranted with ⟨hp', hnow, -⟩ | ⟨hwins, hraised⟩
      · rw [hnow]
        exact (h.granted p (List.mem_of_getElem? hp) hp').trans hnext
      · have hmax : q.nowMs + max intervalMs 1 ≤ U64_MAX := by
          subst hwins
          exact hfits
        show _ ≤ sh.nextAllowedMs
        rw [hraised, saturatingAdd, min_eq_left hmax]
  · intro q hq now next heq
    rcases List.mem_or_eq_of_mem_set hq with hq | rfl
    · exact h.ready q hq now next heq
    · subst heq
      cases hstep with
      | ready hready => exact hready
  · -- only a call that has just won is new among the granted ones
    have hnew : ∀ (k : ℕ) (q : Call), pid ≠ k → s.procs[k]? = some q → p'.granted = true →
        q.granted = true → Apart intervalMs p' q := by
      intro k q hne hk hp' hq
      rcases hstep.granted_cases hp' with ⟨hgranted, hnow, -⟩ | ⟨hwins, -⟩
      · have hapart := h.apart pid k p q hne hp hk hgranted hq
        rwa [Apart, ← hnow] at hapart
      · exact .inr (h.apart_of_wins hp hwins (List.mem_of_getElem? hk) hq)
    intro j k q r hjk hj hk hq hr
    rcases Program.getElem?_turn hj with ⟨rfl, rfl⟩ | ⟨hjp, hj'⟩
    · rcases Program.getElem?_turn hk with ⟨rfl, -⟩ | ⟨-, hk'⟩
      · exact absurd rfl hjk
      · exact hnew k r hjk hk' hq hr
    · rcases Program.getElem?_turn hk with ⟨rfl, rfl⟩ | ⟨-, hk'⟩
      · exact (hnew j q (Ne.symm hjp) hj' hr hq).symm
      · exact h.apart j k q r hjk hj' hk' hq hr
  · have hrefused := Program.sum_map_set Call.refused s.procs pid p p' hp
    have hreported := Program.sum_map_set Call.reported s.procs pid p p' hp
    have hcounted := h.counted
    have hmove := hstep.counted hfits
    show ((s.procs.set pid p').map Call.refused).sum =
      sh.suppressed + ((s.procs.set pid p').map Call.reported).sum
    omega

end Turn

/-- **Every interleaving keeps the invariant.** -/
theorem exact_of_run {intervalMs : ℕ} {tr : List (Turn LogLimiter Call)}
    {s : Sys LogLimiter Call} (h : (calls intervalMs).Run ⟨new, []⟩ tr s)
    (hfits : ∀ d ∈ tr, Fits intervalMs d) : Exact intervalMs s := by
  induction h with
  | refl => exact exact_new intervalMs
  | spawn nowMs _ ih => exact (ih hfits).spawn nowMs
  | turn _ hp hstep ih =>
    have hbefore := ih fun d hd => hfits d (List.mem_append_left _ hd)
    have hlast := hfits _ (List.mem_append_right _ (List.mem_singleton.mpr rfl))
    exact hbefore.turn hp (steps_of_step hstep) hlast

/-- A call that has returned is granted or refused. -/
theorem length_eq_of_finished {ps : List Call} (h : ∀ p ∈ ps, p.finished = true) :
    ps.length = ps.countP Call.granted + (ps.map Call.refused).sum := by
  induction ps with
  | nil => rfl
  | cons p ps ih =>
    have hrest := ih fun q hq => h q (List.mem_cons_of_mem _ hq)
    have hp := h p List.mem_cons_self
    rw [List.length_cons, List.countP_cons, List.map_cons, List.sum_cons]
    cases p with
    | returned nowMs result =>
      cases result with
      | none =>
        simp only [Call.granted, Call.refused]
        simp only [Bool.false_eq_true, if_false]
        omega
      | some suppressed =>
        simp only [Call.granted, Call.refused, if_true]
        omega
    | _ => cases hp

/-- **Log limiting is exact under races.** In every interleaving, two granted calls are at
least `max(i, 1)` milliseconds apart. Once all calls have returned, every call was granted,
was reported as suppressed by a grant, or is still in the counter. -/
theorem log_limiter_exact {intervalMs : ℕ} {tr : List (Turn LogLimiter Call)}
    {s : Sys LogLimiter Call} (h : (calls intervalMs).Run ⟨new, []⟩ tr s)
    (hfits : ∀ d ∈ tr, Fits intervalMs d) :
    (∀ (j k : ℕ) (p q : Call), j ≠ k → s.procs[j]? = some p → s.procs[k]? = some q →
      p.granted = true → q.granted = true → Apart intervalMs p q) ∧
    ((∀ p ∈ s.procs, p.finished = true) →
      s.procs.length = s.procs.countP Call.granted + (s.procs.map Call.reported).sum +
        s.shared.suppressed) := by
  have hexact := exact_of_run h hfits
  refine ⟨hexact.apart, fun hfinished => ?_⟩
  have hlength := length_eq_of_finished hfinished
  have hcounted := hexact.counted
  omega

/-- Two calls that have both seen their time come: one wins, and reports the other. -/
theorem two_calls_race :
    ∃ tr s, (calls 10).Run ⟨new, []⟩ tr s ∧ (∀ d ∈ tr, Fits 10 d) ∧
      s.procs = [.returned 0 (some 1), .returned 5 none] ∧
      s.procs.length = s.procs.countP Call.granted + (s.procs.map Call.reported).sum +
        s.shared.suppressed := by
  have hspawn : (calls 10).Run ⟨new, []⟩ [] ⟨new, [.load 0, .load 5]⟩ :=
    .spawn 5 (.spawn 0 .refl)
  have hload := hspawn.turn (show [Call.load 0, .load 5][0]? = some (.load 0) from rfl)
    (show (calls 10).step new (.load 0) () = some (new, .exchange 0 0) from rfl)
  have hload' := hload.turn (show [Call.exchange 0 0, .load 5][1]? = some (.load 5) from rfl)
    (show (calls 10).step new (.load 5) () = some (new, .exchange 5 0) from rfl)
  have hwins := hload'.turn
    (show [Call.exchange 0 0, .exchange 5 0][0]? = some (.exchange 0 0) from rfl)
    (show (calls 10).step new (.exchange 0 0) () = some (⟨10, 0⟩, .swap 0) from rfl)
  have hloses := hwins.turn
    (show [Call.swap 0, .exchange 5 0][1]? = some (.exchange 5 0) from rfl)
    (show (calls 10).step ⟨10, 0⟩ (.exchange 5 0) () = some (⟨10, 0⟩, .add 5) from rfl)
  have hadd := hloses.turn (show [Call.swap 0, .add 5][1]? = some (.add 5) from rfl)
    (show (calls 10).step ⟨10, 0⟩ (.add 5) () = some (⟨10, 1⟩, .returned 5 none) from rfl)
  have hswap := hadd.turn (show [Call.swap 0, .returned 5 none][0]? = some (.swap 0) from rfl)
    (show (calls 10).step ⟨10, 1⟩ (.swap 0) () = some (⟨10, 0⟩, .returned 0 (some 1)) from rfl)
  have hexact := log_limiter_exact hswap (by simp [Fits, U64_MAX, new])
  exact ⟨_, _, hswap, by simp [Fits, U64_MAX, new], rfl, hexact.2 (by decide)⟩

end LogLimiter

end AlturaProt.Telemetry
