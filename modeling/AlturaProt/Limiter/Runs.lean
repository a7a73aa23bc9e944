import AlturaProt.Limiter.Limiters
import AlturaProt.Limiter.Solo

/-!
# The permit limiters over every interleaving

A limiter is started with no client known; calls for any addresses begin, are
interrupted, succeed and fail, and permits are dropped, in any order. At every
point of every such run the permit counts are exact.
-/

namespace AlturaProt.Limiter

open Foundation

namespace PermitLimiter

variable (l : PermitLimiter) (hash : IpAddr → ℕ)

/-- Runs of a limiter from its construction at `now`. -/
def Run (now : Instant) (tr : List (Turn (Shared l.Entry) Gate.Proc))
    (s : Sys (Shared l.Entry) Gate.Proc) : Prop :=
  (l.gate hash).program.Run ⟨l.init now, []⟩ tr s

variable {l hash}

theorem accounted_init (now : Instant) : (l.gate hash).Accounted ⟨l.init now, []⟩ := by
  obtain ⟨b, hb⟩ := init_eq_idle now l
  rw [hb]
  exact Gate.accounted_idle b

/-- **Permit accounting.** At every point of every run of a permit limiter: the
active count of each key is the number of its permits that have not run their
per-key release; no entry with an active permit has been evicted; nothing was
ever decremented at zero; the global counter is the number of global slots held
and within its cap; and no key is above its own cap. -/
theorem permit_accounting {now : Instant} {tr : List (Turn (Shared l.Entry) Gate.Proc)}
    {s : Sys (Shared l.Entry) Gate.Proc} (h : l.Run hash now tr s) :
    (∀ k, (l.gate hash).activeAt s.shared k = (s.procs.map (Gate.permits k)).sum) ∧
    (∀ d ∈ tr, ∀ k e, (l.gate hash).entry d.before k = some e →
      0 < (l.gate hash).active e → ((l.gate hash).entry d.after k).isSome) ∧
    (∀ d ∈ tr, ∀ k, d.proc = .releasing k → 0 < (l.gate hash).activeAt d.before k) ∧
    (0 < (l.gate hash).maxActive → ∀ d ∈ tr,
      ((∃ k, d.proc = .held k) ∨ ∃ k t b, d.proc = .undo k t b) →
        0 < d.before.globalActive) ∧
    (0 < (l.gate hash).maxActive →
      s.shared.globalActive = (s.procs.map Gate.slots).sum ∧
      s.shared.globalActive ≤ (l.gate hash).maxActive) ∧
    (∀ c ∈ (l.gate hash).activeCap, ∀ k, (l.gate hash).activeAt s.shared k ≤ c) := by
  have hacc := Gate.accounted_of_run h (accounted_init now)
  have hlegal := Gate.legal_of_run h (accounted_init now)
  refine ⟨hacc.permits_eq, ?_, ?_, ?_, fun hmax => ⟨hacc.slots_eq hmax, hacc.globalActive_le⟩,
    hacc.activeAt_le⟩
  · intro d hd k e he hpos
    have heff := (hlegal d hd).moves.effect k
    rw [he] at heff
    cases hafter : (l.gate hash).entry d.after k with
    | some e' => rfl
    | none =>
      rw [hafter] at heff
      exact absurd heff.inactive_of_none (Nat.pos_iff_ne_zero.mp hpos)
  · intro d hd k hrel
    have hheld := (hlegal d hd).permits_le k
    rw [hrel] at hheld
    exact lt_of_lt_of_le (by simp [Gate.permits]) hheld
  · intro hmax d hd hdec
    have hheld := (hlegal d hd).slots_le hmax
    rcases hdec with ⟨k, hk⟩ | ⟨k, t, b, hk⟩
    · rw [hk] at hheld
      exact hheld
    · rw [hk] at hheld
      exact hheld

/-- A run of the default TCP limiter that ends with one permit held. -/
theorem permit_accounting_one_permit :
    ∃ tr s, (connection {}).Run (fun _ => 0) 0 tr s ∧ s.procs = [.held (.v4 7)] ∧
      ((connection {}).gate (fun _ => 0)).activeAt s.shared (.v4 7) = 1 := by
  have hcall : (((connection {}).gate (fun _ => 0)).call ((connection {}).init 0)
      (.v4 7) 0).2 = .ok (.v4 7) := by decide +kernel
  have hnew : (connection {}).Run (fun _ => 0) 0 [] ⟨(connection {}).init 0, []⟩ := .refl
  obtain ⟨tr, p, hrun, hset⟩ := Gate.exists_run_call hnew (.v4 7) 0 rfl
  rw [hcall] at hset
  rcases hset with hp | ⟨hkey, -⟩
  · refine ⟨tr, _, hrun, congrArg (fun q => [q]) hp, ?_⟩
    rw [(permit_accounting hrun).1, hp]
    rfl
  · cases hkey

end PermitLimiter

end AlturaProt.Limiter
