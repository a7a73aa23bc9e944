import AlturaProt.Foundation.KeyedQueue
import Mathlib.Data.Int.GCD
import Mathlib.Data.Nat.ModEq
import Mathlib.Logic.Function.Iterate

/-!
# Progress of repeated scans

`reclaimTwice` scans up to `limit` keys for values it would like to evict and
then up to `limit` more for values it may evict. A call that evicts nothing has
only turned the queue, so calling it again and again looks at windows of the
queue that move on by twice the scan length. Whether the second kind of window
ever meets a given position is a question about residues: `exists_meets` and
`Meets.position` answer it, and `exists_call_iff_exposed` reads the answer off
the queue.
-/

namespace AlturaProt.Foundation

/-- The state after `j` calls of an operation that changes it and answers. -/
def afterCalls {S : Type*} (op : S → S × Bool) (s : S) (j : ℕ) : S :=
  (fun s => (op s).1)^[j] s

/-! ## Windows on a cycle -/

/-- Jumps of `s` on a cycle of `n` reach every multiple of their common
divisor. -/
theorem exists_jumps {s n a : ℕ} (hn : 0 < n) (hlt : Nat.gcd s n < n)
    (ha : Nat.gcd s n ∣ a) : ∃ j < n, s * j % n = a % n := by
  obtain ⟨m, -, hm⟩ := Nat.exists_mul_mod_eq_gcd hlt
  obtain ⟨c, rfl⟩ := ha
  refine ⟨m * c % n, Nat.mod_lt _ hn, ?_⟩
  calc s * (m * c % n) % n = s * (m * c) % n := by rw [Nat.mul_mod, Nat.mod_mod, ← Nat.mul_mod]
    _ = s * m % n * c % n := by rw [← Nat.mul_assoc, Nat.mod_mul_mod]
    _ = Nat.gcd s n * c % n := by rw [hm]

/-- Windows of length `L` that start at `L` and move on by `2 * L` meet every
position of the cycle, unless `2 * L` divides its length. -/
theorem exists_window_of_not_dvd {n L x : ℕ} (hL : 0 < L) (hLn : L < n) (hx : x < n)
    (hnd : ¬ 2 * L ∣ n) : ∃ j < n, ∃ i < L, (i + L + 2 * L * j) % n = x := by
  have hn : 0 < n := by omega
  -- the common divisor is a proper divisor of the step, so at most half of it
  have hgL : Nat.gcd (2 * L) n ≤ L := by
    obtain ⟨c, hc⟩ := Nat.gcd_dvd_left (2 * L) n
    have hc2 : 2 ≤ c := by
      match c, hc with
      | 0, hc => omega
      | 1, hc => exact absurd (hc.trans (Nat.mul_one _) ▸ Nat.gcd_dvd_right _ _) hnd
      | c + 2, _ => exact Nat.le_add_left _ _
    have hmul := Nat.mul_le_mul_left (Nat.gcd (2 * L) n) hc2
    omega
  have hgpos : 0 < Nat.gcd (2 * L) n := Nat.gcd_pos_of_pos_right _ hn
  -- `a` stands for `x - L`; its remainder is the place in the window
  let a := x + L * (n - 1)
  let i := a % Nat.gcd (2 * L) n
  have hi : i < Nat.gcd (2 * L) n := Nat.mod_lt _ hgpos
  have hia : i ≤ a := Nat.mod_le _ _
  obtain ⟨j, hj, hmod⟩ := exists_jumps hn (lt_of_le_of_lt hgL hLn)
    (Nat.dvd_sub_mod (n := Nat.gcd (2 * L) n) a)
  refine ⟨j, hj, i, lt_of_lt_of_le hi hgL, ?_⟩
  have hsum : i + L + (a - i) = x + n * L := by
    have hmul : L * (n - 1) + L = n * L := by
      obtain ⟨m, rfl⟩ : ∃ m, n = m + 1 := ⟨n - 1, by omega⟩
      rw [Nat.add_sub_cancel, Nat.succ_mul, Nat.mul_comm]
    omega
  calc (i + L + 2 * L * j) % n = (i + L + (a - i)) % n := Nat.ModEq.add_left (i + L) hmod
    _ = (x + n * L) % n := by rw [hsum]
    _ = x := by rw [Nat.add_mul_mod_self_left, Nat.mod_eq_of_lt hx]

section Windows

variable {n L : ℕ} {A B : ℕ → Prop}

/-- What a double scan meets that starts at `t` on a cycle of `n`: its first
window stops at positions of `A`, its second at positions of `B`. -/
def Meets (n L : ℕ) (A B : ℕ → Prop) (t : ℕ) : Prop :=
  (∃ i < min n L, A ((i + t) % n)) ∨ ∃ i < min n L, B ((i + min n L + t) % n)

/-- If the double scans repeat themselves, the second window only ever covers
the upper half of each block of `2 * L`. -/
theorem Meets.position (hn : 0 < n) (hAB : ∀ x, A x → B x) {j : ℕ}
    (h : Meets n L A B (2 * min n L * j)) :
    ¬ 2 * L ∣ n ∨ ∃ x < n, B x ∧ (A x ∨ L ≤ x % (2 * L)) := by
  by_cases hdvd : 2 * L ∣ n
  · right
    have hLn : min n L = L := by
      have := Nat.le_of_dvd hn hdvd
      omega
    rw [Meets, hLn] at h
    rcases h with ⟨i, -, hA⟩ | ⟨i, hi, hB⟩
    · exact ⟨_, Nat.mod_lt _ hn, hAB _ hA, Or.inl hA⟩
    · refine ⟨_, Nat.mod_lt _ hn, hB, Or.inr ?_⟩
      rw [Nat.mod_mod_of_dvd _ hdvd, Nat.add_mul_mod_self_left, Nat.mod_eq_of_lt (by omega)]
      omega
  · exact Or.inl hdvd

/-- **Which positions repeated double scans meet.** -/
theorem exists_meets (hn : 0 < n) (hL : 0 < L) (hB : ∃ x < n, B x)
    (h : ¬ 2 * L ∣ n ∨ ∃ x < n, B x ∧ (A x ∨ L ≤ x % (2 * L))) :
    ∃ j < n, Meets n L A B (2 * min n L * j) := by
  obtain ⟨x, hx, hBx⟩ := hB
  rcases Nat.lt_or_ge L n with hLn | hnL
  · unfold Meets
    rw [Nat.min_eq_right hLn.le]
    rcases h with hnd | ⟨y, hy, hBy, hAy⟩
    · obtain ⟨j, hj, i, hi, hmod⟩ := exists_window_of_not_dvd hL hLn hx hnd
      exact ⟨j, hj, Or.inr ⟨i, hi, by rw [hmod]; exact hBx⟩⟩
    · have hsplit := Nat.mod_add_div y (2 * L)
      refine ⟨y / (2 * L), lt_of_le_of_lt (Nat.div_le_self _ _) hy, ?_⟩
      rcases Nat.lt_or_ge (y % (2 * L)) L with hlow | hhigh
      · rcases hAy with hA | hge
        · refine Or.inl ⟨y % (2 * L), hlow, ?_⟩
          rw [hsplit, Nat.mod_eq_of_lt hy]
          exact hA
        · omega
      · have hlt : y % (2 * L) < 2 * L := Nat.mod_lt _ (by omega)
        refine Or.inr ⟨y % (2 * L) - L, by omega, ?_⟩
        rw [show y % (2 * L) - L + L + 2 * L * (y / (2 * L)) = y by omega, Nat.mod_eq_of_lt hy]
        exact hBy
  · -- a short cycle is seen whole by the first call
    refine ⟨0, hn, Or.inr ⟨x, by omega, ?_⟩⟩
    rw [Nat.mul_zero, Nat.add_zero, Nat.min_eq_left hnL, Nat.add_mod_right, Nat.mod_eq_of_lt hx]
    exact hBx

end Windows

namespace KeyedQueue

variable {K T : Type*} {q : KeyedQueue K T}

/-! ## One call -/

/-- The queue turned by `t`. -/
def rotated (q : KeyedQueue K T) (t : ℕ) : KeyedQueue K T := ⟨q.entries, q.order.rotate t⟩

theorem Sound.rotated (h : q.Sound) (t : ℕ) : (q.rotated t).Sound := by
  have hperm := List.rotate_perm q.order t
  exact ⟨hperm.nodup_iff.mpr h.nodup, fun k => hperm.mem_iff.trans (h.mem_order k)⟩

theorem rotated_rotated (t t' : ℕ) : (q.rotated t).rotated t' = q.rotated (t + t') := by
  simp [rotated, List.rotate_rotate]

variable [DecidableEq K]

/-- The value of the key at position `i` of the queue satisfies `p`. -/
def HoldsAt (p : T → Bool) (q : KeyedQueue K T) (i : ℕ) : Prop :=
  ∃ k e, q.order[i]? = some k ∧ q.get k = some e ∧ p e = true

theorem holdsAt_iff_any (p : T → Bool) (q : KeyedQueue K T) (i : ℕ) :
    HoldsAt p q i ↔ ((q.order[i]?).bind q.get).any p = true := by
  simp only [HoldsAt, Option.any_eq_true, Option.bind_eq_some_iff]
  constructor
  · rintro ⟨k, e, hk, he, hp⟩
    exact ⟨e, ⟨k, hk, he⟩, hp⟩
  · rintro ⟨e, ⟨k, hk, he⟩, hp⟩
    exact ⟨k, e, hk, he, hp⟩

instance (p : T → Bool) (q : KeyedQueue K T) (i : ℕ) : Decidable (HoldsAt p q i) :=
  decidable_of_iff _ (holdsAt_iff_any p q i).symm

theorem holdsAt_rotated (p : T → Bool) {i : ℕ} (t : ℕ) (hi : i < q.order.length) :
    HoldsAt p (q.rotated t) i ↔ HoldsAt p q ((i + t) % q.order.length) := by
  unfold HoldsAt
  rw [show (q.rotated t).order[i]? = q.order[(i + t) % q.order.length]? from
    List.getElem?_rotate hi]
  rfl

theorem exists_mem_take_iff (p : T → Bool) (n : ℕ) :
    (∃ k ∈ q.order.take n, ∃ e, q.get k = some e ∧ p e = true) ↔ ∃ i < n, HoldsAt p q i := by
  constructor
  · rintro ⟨k, hk, e, he, hp⟩
    obtain ⟨i, hi⟩ := List.mem_iff_getElem?.mp hk
    rw [List.getElem?_take] at hi
    split at hi
    · exact ⟨i, ‹_›, k, e, hi, he, hp⟩
    · cases hi
  · rintro ⟨i, hi, k, e, hk, he, hp⟩
    refine ⟨k, List.mem_iff_getElem?.mpr ⟨i, ?_⟩, e, he, hp⟩
    rw [List.getElem?_take, if_pos hi]
    exact hk

theorem scanLimited_evicts_iff (p : T → Bool) (limit : ℕ) (q : KeyedQueue K T) :
    (scanLimited p limit q).2 = true ↔ ∃ i < min q.order.length limit, HoldsAt p q i := by
  rw [scanLimited, scan_evicts_iff p _ q (Nat.min_le_left _ _), exists_mem_take_iff]

theorem scanLimited_of_false (h : q.Sound) {p : T → Bool} {limit : ℕ}
    (hs : (scanLimited p limit q).2 = false) :
    (scanLimited p limit q).1 = q.rotated (min q.order.length limit) := by
  unfold scanLimited at hs ⊢
  rcases scan_cases h p (Nat.min_le_left q.order.length limit) with
    ⟨i, k, e, rest, -, -, -, -, hscan⟩ | ⟨-, hscan⟩
  · rw [hscan] at hs
    cases hs
  · rw [hscan]
    rfl

variable {p p' : T → Bool} {cap limit : ℕ}

/-- A call on a full store: it makes room exactly when one of its two windows
holds a value it may evict, and otherwise turns the queue. -/
theorem reclaimTwice_full (h : q.Sound) (hcap : q.size = cap) :
    ((reclaimTwice cap limit p p' q).2 = true ↔
      (∃ i < min cap limit, HoldsAt p q i) ∨
      ∃ i < min cap limit, HoldsAt p' q ((i + min cap limit) % cap)) ∧
    ((reclaimTwice cap limit p p' q).2 = false →
      (reclaimTwice cap limit p p' q).1 = q.rotated (2 * min cap limit)) := by
  have hlen : q.order.length = cap := h.size_eq_length.symm.trans hcap
  have hfull : ¬ q.size < cap := by omega
  have hsize := size_scan p (min q.order.length limit) q
  change (scanLimited p limit q).1.size + (scanLimited p limit q).2.toNat = q.size at hsize
  have hfirst := scanLimited_evicts_iff p limit q
  rw [hlen] at hfirst
  cases hs : (scanLimited p limit q).2 with
  | true =>
    rw [hs] at hsize hfirst
    have hroom : (scanLimited p limit q).1.size < cap := by
      simp only [Bool.toNat_true] at hsize
      omega
    have hcall : reclaimTwice cap limit p p' q = ((scanLimited p limit q).1, true) := by
      rw [reclaimTwice, if_neg hfull]
      exact if_pos hroom
    rw [hcall]
    exact ⟨⟨fun _ => Or.inl (hfirst.mp rfl), fun _ => rfl⟩, fun hf => by cases hf⟩
  | false =>
    have hturn : (scanLimited p limit q).1 = q.rotated (min cap limit) := by
      rw [scanLimited_of_false h hs, hlen]
    have hno : ¬ ∃ i < min cap limit, HoldsAt p q i := by
      rw [← hfirst, hs]
      simp
    -- the second scan starts where the first one stopped
    let r := q.rotated (min cap limit)
    have hr : r.Sound := h.rotated _
    have hrlen : r.order.length = cap := by simp [r, rotated, hlen]
    have hcall : reclaimTwice cap limit p p' q =
        ((scanLimited p' limit r).1, decide ((scanLimited p' limit r).1.size < cap)) := by
      rw [reclaimTwice, if_neg hfull]
      rw [hturn, if_neg (show ¬ (q.rotated (min cap limit)).size < cap from hfull)]
    have hsecond := scanLimited_evicts_iff p' limit r
    rw [hrlen] at hsecond
    have hsize' := size_scan p' (min r.order.length limit) r
    change (scanLimited p' limit r).1.size + (scanLimited p' limit r).2.toNat = q.size
      at hsize'
    have hroom : (scanLimited p' limit r).1.size < cap ↔ (scanLimited p' limit r).2 = true := by
      cases hb : (scanLimited p' limit r).2 <;> rw [hb] at hsize' <;> simp at hsize' ⊢ <;> omega
    have hpos : ∀ i < min cap limit,
        (HoldsAt p' r i ↔ HoldsAt p' q ((i + min cap limit) % cap)) := by
      intro i hi
      have hlt : i < q.order.length := by omega
      rw [holdsAt_rotated p' _ hlt, hlen]
    rw [hcall]
    constructor
    · show decide _ = true ↔ _
      rw [decide_eq_true_iff, hroom, hsecond]
      constructor
      · rintro ⟨i, hi, hh⟩
        exact Or.inr ⟨i, hi, (hpos i hi).mp hh⟩
      · rintro (hh | ⟨i, hi, hh⟩)
        · exact absurd hh hno
        · exact ⟨i, hi, (hpos i hi).mpr hh⟩
    · intro hf
      have hb : (scanLimited p' limit r).2 = false := by
        have := decide_eq_false_iff_not.mp hf
        rw [hroom] at this
        exact Bool.eq_false_of_not_eq_true this
      show (scanLimited p' limit r).1 = _
      rw [scanLimited_of_false hr hb, hrlen, rotated_rotated, two_mul]

/-! ## Call after call -/

theorem reclaimTwice_rotated_iff (h : q.Sound) (hcap : q.size = cap) (t : ℕ) :
    (reclaimTwice cap limit p p' (q.rotated t)).2 = true ↔
      Meets cap limit (HoldsAt p q) (HoldsAt p' q) t := by
  have hlen : q.order.length = cap := h.size_eq_length.symm.trans hcap
  have hshift : ∀ (r : T → Bool) (i : ℕ), i < cap →
      (HoldsAt r (q.rotated t) i ↔ HoldsAt r q ((i + t) % cap)) := by
    intro r i hi
    rw [← hlen] at hi ⊢
    exact holdsAt_rotated r t hi
  rw [(reclaimTwice_full (h.rotated t) hcap).1, Meets]
  refine or_congr ?_ ?_
  · refine exists_congr fun i => and_congr_right fun hi => hshift p i (by omega)
  · refine exists_congr fun i => and_congr_right fun hi => ?_
    rw [hshift p' _ (Nat.mod_lt _ (by omega)), Nat.mod_add_mod]

/-- As long as no call has seen anything, the queue has only been turned. -/
theorem afterCalls_eq_rotated (h : q.Sound) (hcap : q.size = cap) {j : ℕ}
    (hno : ∀ i < j, ¬ Meets cap limit (HoldsAt p q) (HoldsAt p' q) (2 * min cap limit * i)) :
    afterCalls (reclaimTwice cap limit p p') q j = q.rotated (2 * min cap limit * j) := by
  induction j with
  | zero => simp [afterCalls, rotated]
  | succ j ih =>
    have hstate := ih (fun i hi => hno i (by omega))
    have hfail : (reclaimTwice cap limit p p'
        (q.rotated (2 * min cap limit * j))).2 = false := by
      apply Bool.eq_false_of_not_eq_true
      rw [reclaimTwice_rotated_iff h hcap]
      exact hno j (Nat.lt_succ_self j)
    have hnext := (reclaimTwice_full (h.rotated (2 * min cap limit * j)) hcap).2 hfail
    rw [afterCalls, Function.iterate_succ_apply']
    change (reclaimTwice cap limit p p' (afterCalls (reclaimTwice cap limit p p') q j)).1 = _
    rw [hstate, hnext, rotated_rotated, Nat.mul_succ]

/-- A call that makes room, or an earlier one, met something it may evict. -/
theorem exists_meets_of_call (h : q.Sound) (hcap : q.size = cap) {j : ℕ}
    (hcall : (reclaimTwice cap limit p p'
      (afterCalls (reclaimTwice cap limit p p') q j)).2 = true) :
    ∃ i, Meets cap limit (HoldsAt p q) (HoldsAt p' q) (2 * min cap limit * i) := by
  by_contra hnone
  push Not at hnone
  rw [afterCalls_eq_rotated h hcap (fun i _ => hnone i), reclaimTwice_rotated_iff h hcap] at hcall
  exact hnone j hcall

/-- If some call can meet something it may evict, the first such call makes
room: it finds the queue merely turned. -/
theorem exists_call_of_meets (h : q.Sound) (hcap : q.size = cap) {j : ℕ}
    (hmeets : Meets cap limit (HoldsAt p q) (HoldsAt p' q) (2 * min cap limit * j)) :
    ∃ i ≤ j, (reclaimTwice cap limit p p'
      (afterCalls (reclaimTwice cap limit p p') q i)).2 = true := by
  classical
  have hex : ∃ i, Meets cap limit (HoldsAt p q) (HoldsAt p' q) (2 * min cap limit * i) :=
    ⟨j, hmeets⟩
  refine ⟨Nat.find hex, Nat.find_min' hex hmeets, ?_⟩
  rw [afterCalls_eq_rotated h hcap (fun i hi => Nat.find_min hex hi),
    reclaimTwice_rotated_iff h hcap]
  exact Nat.find_spec hex

/-- Something that may be evicted stands where the repeated scans come by. -/
def Exposed (cap limit : ℕ) (p p' : T → Bool) (q : KeyedQueue K T) : Prop :=
  ¬ 2 * limit ∣ cap ∨
    ∃ x < cap, HoldsAt p' q x ∧ (HoldsAt p q x ∨ limit ≤ x % (2 * limit))

instance (cap limit : ℕ) (p p' : T → Bool) (q : KeyedQueue K T) :
    Decidable (Exposed cap limit p p' q) :=
  inferInstanceAs (Decidable (_ ∨ _))

/-- Without an exposed entry no call ever makes room. -/
theorem exposed_of_call (h : q.Sound) (hcap : q.size = cap) (hpos : 0 < cap)
    (hpp : ∀ e, p e = true → p' e = true) {j : ℕ}
    (hcall : (reclaimTwice cap limit p p'
      (afterCalls (reclaimTwice cap limit p p') q j)).2 = true) :
    Exposed cap limit p p' q := by
  obtain ⟨i, hi⟩ := exists_meets_of_call h hcap hcall
  refine hi.position hpos ?_
  rintro x ⟨k, e, hk, he, hp⟩
  exact ⟨k, e, hk, he, hpp e hp⟩

/-- **Progress of repeated calls.** On a full store that holds something the
second scan may evict, one of as many calls as there are entries makes room
exactly when an entry is exposed. -/
theorem exists_call_iff_exposed (h : q.Sound) (hcap : q.size = cap) (hlimit : 0 < limit)
    (hpp : ∀ e, p e = true → p' e = true) (hsome : ∃ k e, q.get k = some e ∧ p' e = true) :
    (∃ j < cap, (reclaimTwice cap limit p p'
      (afterCalls (reclaimTwice cap limit p p') q j)).2 = true) ↔
    Exposed cap limit p p' q := by
  obtain ⟨k, e, he, hp⟩ := hsome
  have hmem : k ∈ q.order := (h.mem_order k).mpr (Finmap.mem_of_lookup_eq_some he)
  obtain ⟨x, hx⟩ := List.mem_iff_getElem?.mp hmem
  have hxlt : x < cap := by
    rw [← hcap, h.size_eq_length]
    exact (List.getElem?_eq_some_iff.mp hx).1
  have hpos : 0 < cap := by omega
  constructor
  · rintro ⟨j, -, hcall⟩
    exact exposed_of_call h hcap hpos hpp hcall
  · intro hexposed
    obtain ⟨j, hj, hmeets⟩ := exists_meets hpos hlimit
      ⟨x, hxlt, k, e, hx, he, hp⟩ hexposed
    obtain ⟨i, hi, hcall⟩ := exists_call_of_meets h hcap hmeets
    exact ⟨i, by omega, hcall⟩

end KeyedQueue

end AlturaProt.Foundation
