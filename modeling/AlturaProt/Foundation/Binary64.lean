import Mathlib.Algebra.Order.Archimedean.Basic
import Mathlib.Algebra.Order.Floor.Semiring
import Mathlib.Data.Int.Log
import Mathlib.Data.Rat.Floor
import Mathlib.Tactic.Linarith
import Mathlib.Tactic.NormNum
import Mathlib.Tactic.Positivity
import Mathlib.Tactic.Ring

/-!
# Doubles

The numbers of the binary format with 53 significant bits. A finite double is
the rational number it stands for; an operation computes exactly and rounds to
the nearest double, of two to the even one (`nearest`).

Rounding never turns the order of two numbers around (`nearest_mono`), so two
numbers compare as their roundings do unless the roundings are equal. A number
has decimals below it that are rounded as the number itself is
(`exists_decimal_nearest`).
-/

namespace AlturaProt.Foundation

/-! ## Rounding to integers -/

/-- The nearest integer; of two, the even one. -/
def roundHalfEven (x : ℚ) : ℤ :=
  if x - ⌊x⌋ < 1 / 2 then ⌊x⌋
  else if 1 / 2 < x - ⌊x⌋ then ⌊x⌋ + 1
  else if ⌊x⌋ % 2 = 0 then ⌊x⌋ else ⌊x⌋ + 1

@[simp] theorem roundHalfEven_intCast (z : ℤ) : roundHalfEven z = z := by
  simp [roundHalfEven]

theorem floor_le_roundHalfEven (x : ℚ) : ⌊x⌋ ≤ roundHalfEven x := by
  unfold roundHalfEven
  split_ifs <;> omega

theorem roundHalfEven_le (x : ℚ) : roundHalfEven x ≤ ⌊x⌋ + 1 := by
  unfold roundHalfEven
  split_ifs <;> omega

variable {x q : ℚ} {z e : ℤ}

theorem roundHalfEven_mono {y : ℚ} (h : x ≤ y) : roundHalfEven x ≤ roundHalfEven y := by
  rcases (Int.floor_mono h).lt_or_eq with hlt | heq
  · calc roundHalfEven x ≤ ⌊x⌋ + 1 := roundHalfEven_le x
      _ ≤ ⌊y⌋ := hlt
      _ ≤ roundHalfEven y := floor_le_roundHalfEven y
  · -- within one unit the distance to the floor decides
    unfold roundHalfEven
    rw [heq]
    split_ifs <;> first | omega | (exfalso; linarith)

/-- Away from the midpoints the parity does not matter. -/
theorem roundHalfEven_eq (hlow : z - 1 / 2 < x) (hhigh : x < z + 1 / 2) : roundHalfEven x = z := by
  have hcases : ⌊x⌋ = z ∨ ⌊x⌋ = z - 1 := by
    have h1 : z - 1 ≤ ⌊x⌋ := by
      rw [Int.le_floor]
      push_cast
      linarith
    have h2 : ⌊x⌋ < z + 1 := by
      rw [Int.floor_lt]
      push_cast
      linarith
    omega
  unfold roundHalfEven
  rcases hcases with hz | hz
  · rw [if_pos (by rw [hz]; linarith), hz]
  · have hdist : 1 / 2 < x - ⌊x⌋ := by
      rw [hz]
      push_cast
      linarith
    rw [if_neg (not_lt.mpr hdist.le), if_pos hdist, hz]
    omega

theorem roundHalfEven_error (x : ℚ) :
    roundHalfEven x - 1 / 2 ≤ x ∧ x ≤ roundHalfEven x + 1 / 2 := by
  have hlow := Int.floor_le x
  have hhigh := Int.lt_floor_add_one x
  unfold roundHalfEven
  split_ifs <;> constructor <;> push_cast <;> linarith

/-! ## Rounding to doubles -/

/-- The exponent of the last significant bit of the doubles near a number. -/
def lastPlace (q : ℚ) : ℤ := max (Int.log 2 |q| - 52) (-1074)

/-- The nearest number with 53 significant bits. -/
def nearest (q : ℚ) : ℚ := roundHalfEven (q / 2 ^ lastPlace q) * 2 ^ lastPlace q

theorem two_zpow_pos (e : ℤ) : (0 : ℚ) < 2 ^ e := zpow_pos (by norm_num) e

theorem two_zpow_le {d : ℤ} (h : d ≤ e) : (2 : ℚ) ^ d ≤ 2 ^ e := zpow_le_zpow_right₀ (by norm_num) h

theorem two_zpow_add (d e : ℤ) : (2 : ℚ) ^ (d + e) = 2 ^ d * 2 ^ e := zpow_add₀ (by norm_num) d e

theorem lt_of_lastPlace (hq : 0 < q) : q < 2 ^ (lastPlace q + 53) := by
  have hlog : q < 2 ^ (Int.log 2 q + 1) := by
    simpa using Int.lt_zpow_succ_log_self (b := 2) (by norm_num) q
  refine hlog.trans_le (two_zpow_le ?_)
  unfold lastPlace
  rw [abs_of_pos hq]
  omega

/-- Where the last place is not the lowest, the first bit is set. -/
theorem le_of_lastPlace (hq : 0 < q) (h : -1074 < lastPlace q) : 2 ^ (lastPlace q + 52) ≤ q := by
  have hlog : (2 : ℚ) ^ Int.log 2 q ≤ q := by
    simpa using Int.zpow_log_le_self (b := 2) (by norm_num) hq
  refine le_trans (two_zpow_le ?_) hlog
  unfold lastPlace at h ⊢
  rw [abs_of_pos hq] at h ⊢
  omega

/-- Multiples of the last place are doubles already. -/
theorem nearest_eq_self (h : q = z * 2 ^ lastPlace q) : nearest q = q := by
  have hdiv : q / 2 ^ lastPlace q = z := by
    rw [div_eq_iff (two_zpow_pos _).ne']
    exact h
  rw [nearest, hdiv, roundHalfEven_intCast, ← h]

@[simp] theorem nearest_zero : nearest 0 = 0 := nearest_eq_self (z := 0) (by simp)

theorem lastPlace_ge (q : ℚ) : -1074 ≤ lastPlace q := le_max_right _ _

theorem lastPlace_le (hq : q ≠ 0) (he : -1074 ≤ e) (h : |q| < 2 ^ (e + 53)) : lastPlace q ≤ e := by
  have hlog : Int.log 2 |q| < e + 53 := by
    rw [← Int.lt_zpow_iff_log_lt (by norm_num) (abs_pos.mpr hq)]
    simpa using h
  unfold lastPlace
  omega

/-- What has 53 significant bits is a double. -/
theorem nearest_of_grid (he : -1074 ≤ e) (hz : |z| ≤ 2 ^ 53) : nearest (z * 2 ^ e) = z * 2 ^ e := by
  -- a multiple of a higher power of two is one of the last place
  have hgrid : ∀ (z' d : ℤ), (z * 2 ^ e : ℚ) = z' * 2 ^ d → lastPlace (z * 2 ^ e) ≤ d →
      nearest (z * 2 ^ e) = z * 2 ^ e := by
    intro z' d hval hd
    refine nearest_eq_self (z := z' * 2 ^ (d - lastPlace (z * 2 ^ e)).toNat) ?_
    have hpow : (2 : ℚ) ^ (d - lastPlace (z * 2 ^ e)).toNat * 2 ^ lastPlace (z * 2 ^ e) =
        2 ^ d := by
      rw [← zpow_natCast, Int.toNat_of_nonneg (by omega), ← two_zpow_add]
      congr 1
      omega
    push_cast
    rw [mul_assoc, hpow, hval]
  by_cases hzero : z = 0
  · simp [hzero]
  have hne : (z * 2 ^ e : ℚ) ≠ 0 := mul_ne_zero (by exact_mod_cast hzero) (two_zpow_pos e).ne'
  have habs : |(z * 2 ^ e : ℚ)| = |z| * 2 ^ e := by
    rw [abs_mul, abs_of_pos (two_zpow_pos e), Int.cast_abs]
  rcases hz.lt_or_eq with hlt | heq
  · refine hgrid z e rfl (lastPlace_le hne he ?_)
    rw [habs, add_comm, two_zpow_add]
    refine mul_lt_mul_of_pos_right ?_ (two_zpow_pos e)
    exact_mod_cast hlt
  · -- the next power of two has its last bit one place higher
    obtain ⟨half, hhalf⟩ : ∃ half : ℤ, z = half * 2 := by
      rcases abs_eq (by norm_num) |>.mp heq with h | h
      · exact ⟨2 ^ 52, by omega⟩
      · exact ⟨-2 ^ 52, by omega⟩
    have hval : (z * 2 ^ e : ℚ) = half * 2 ^ (e + 1) := by
      rw [two_zpow_add, hhalf]
      push_cast
      ring
    refine hgrid half (e + 1) hval (lastPlace_le hne (by omega) ?_)
    rw [habs, show e + 1 + 53 = 54 + e by ring, two_zpow_add]
    refine mul_lt_mul_of_pos_right ?_ (two_zpow_pos e)
    rw [heq]
    norm_num

theorem abs_roundHalfEven_le {n : ℤ} (h : |x| ≤ n) : |roundHalfEven x| ≤ n := by
  obtain ⟨hlow, hhigh⟩ := abs_le.mp h
  have h1 := roundHalfEven_mono hhigh
  have h2 := roundHalfEven_mono (show ((-n : ℤ) : ℚ) ≤ x by push_cast; exact hlow)
  rw [roundHalfEven_intCast] at h1 h2
  exact abs_le.mpr ⟨h2, h1⟩

theorem abs_div_lastPlace_le (q : ℚ) : |q / 2 ^ lastPlace q| ≤ (2 ^ 53 : ℤ) := by
  rw [abs_div, abs_of_pos (two_zpow_pos _), div_le_iff₀ (two_zpow_pos _)]
  by_cases hq : q = 0
  · rw [hq, abs_zero]
    exact mul_nonneg (by norm_num) (two_zpow_pos _).le
  · have hlt := lt_of_lastPlace (abs_pos.mpr hq)
    have habs : lastPlace |q| = lastPlace q := by simp [lastPlace]
    rw [habs, add_comm, two_zpow_add] at hlt
    push_cast
    exact_mod_cast hlt.le

/-- Rounding twice is rounding once. -/
@[simp] theorem nearest_nearest (q : ℚ) : nearest (nearest q) = nearest q :=
  nearest_of_grid (lastPlace_ge q) (abs_roundHalfEven_le (abs_div_lastPlace_le q))

theorem nearest_nonneg (h : 0 ≤ q) : 0 ≤ nearest q := by
  have hround := roundHalfEven_mono (div_nonneg h (two_zpow_pos (lastPlace q)).le)
  rw [show (0 : ℚ) = ((0 : ℤ) : ℚ) by norm_num, roundHalfEven_intCast] at hround
  exact mul_nonneg (by exact_mod_cast hround) (two_zpow_pos _).le

theorem lastPlace_mono {r : ℚ} (hq : 0 < q) (h : q ≤ r) : lastPlace q ≤ lastPlace r := by
  have hlog := Int.log_mono_right (b := 2) hq h
  unfold lastPlace
  rw [abs_of_pos hq, abs_of_pos (hq.trans_le h)]
  omega

/-- **Rounding keeps the order.** -/
theorem nearest_mono {r : ℚ} (hq : 0 ≤ q) (h : q ≤ r) : nearest q ≤ nearest r := by
  rcases hq.eq_or_lt with rfl | hq
  · rw [nearest_zero]
    exact nearest_nonneg h
  rcases (lastPlace_mono hq h).eq_or_lt with heq | hlt
  · -- on one grid
    unfold nearest
    rw [heq]
    refine mul_le_mul_of_nonneg_right ?_ (two_zpow_pos _).le
    exact_mod_cast roundHalfEven_mono (div_le_div_of_nonneg_right h (two_zpow_pos _).le)
  · -- the power of two where the grid of `r` begins is between them
    have hr : 2 ^ (lastPlace r + 52) ≤ r :=
      le_of_lastPlace (hq.trans_le h) ((lastPlace_ge q).trans_lt hlt)
    have hbelow : nearest q ≤ 2 ^ 53 * 2 ^ lastPlace q := by
      refine mul_le_mul_of_nonneg_right ?_ (two_zpow_pos _).le
      exact_mod_cast (abs_le.mp (abs_roundHalfEven_le (abs_div_lastPlace_le q))).2
    have habove : 2 ^ 52 * 2 ^ lastPlace r ≤ nearest r := by
      refine mul_le_mul_of_nonneg_right ?_ (two_zpow_pos _).le
      have hdiv : ((2 ^ 52 : ℤ) : ℚ) ≤ r / 2 ^ lastPlace r := by
        rw [le_div_iff₀ (two_zpow_pos _)]
        rw [add_comm, two_zpow_add] at hr
        push_cast
        exact_mod_cast hr
      have hround := roundHalfEven_mono hdiv
      rw [roundHalfEven_intCast] at hround
      exact_mod_cast hround
    calc nearest q ≤ 2 ^ 53 * 2 ^ lastPlace q := hbelow
      _ = 2 ^ (lastPlace q + 1) * 2 ^ 52 := by rw [two_zpow_add]; ring
      _ ≤ 2 ^ lastPlace r * 2 ^ 52 := mul_le_mul_of_nonneg_right (two_zpow_le hlt) (by norm_num)
      _ = 2 ^ 52 * 2 ^ lastPlace r := mul_comm _ _
      _ ≤ nearest r := habove

/-! ## Decimals -/

/-- A number with finitely many decimal places. -/
def IsDecimal (q : ℚ) : Prop := ∃ a j : ℕ, q = a / 10 ^ j

theorem isDecimal_grid (hz : 0 ≤ z) : IsDecimal (z / 2 * 2 ^ e) := by
  obtain ⟨n, rfl⟩ := Int.eq_ofNat_of_zero_le hz
  rcases Int.le_total 1 e with he | he
  · obtain ⟨k, rfl⟩ : ∃ k : ℕ, e = k + 1 := ⟨(e - 1).toNat, by omega⟩
    refine ⟨n * 2 ^ k, 0, ?_⟩
    rw [two_zpow_add, zpow_natCast]
    push_cast
    ring
  · obtain ⟨k, rfl⟩ : ∃ k : ℕ, e = 1 - k := ⟨(1 - e).toNat, by omega⟩
    refine ⟨n * 5 ^ k, k, ?_⟩
    rw [zpow_sub₀ (by norm_num), zpow_natCast, show (10 : ℚ) = 2 * 5 by norm_num, mul_pow]
    push_cast
    field_simp

/-- There are decimals between any two numbers. -/
theorem exists_decimal_between {low : ℚ} (h : low < q) (hq : 0 ≤ q) :
    ∃ d, IsDecimal d ∧ 0 ≤ d ∧ low < d ∧ d ≤ q := by
  obtain ⟨j, hj⟩ := exists_pow_lt_of_lt_one (sub_pos.mpr h) (by norm_num : (1 / 10 : ℚ) < 1)
  have hpos : (0 : ℚ) < 10 ^ j := by positivity
  have hfloor := Nat.floor_le (mul_nonneg hq hpos.le)
  have hceil := Nat.lt_floor_add_one (q * 10 ^ j)
  refine ⟨⌊q * 10 ^ j⌋₊ / 10 ^ j, ⟨_, j, rfl⟩, by positivity, ?_, ?_⟩
  · rw [one_div, inv_pow, inv_lt_iff_one_lt_mul₀ hpos] at hj
    rw [lt_div_iff₀ hpos]
    linarith
  · rwa [div_le_iff₀ hpos]

/-- **Decimals reach every double from below.** A number is approached by decimals
that are rounded as the number is. -/
theorem exists_decimal_nearest (hq : 0 ≤ q) :
    ∃ d, IsDecimal d ∧ 0 ≤ d ∧ d ≤ q ∧ nearest d = nearest q := by
  by_cases hdec : IsDecimal q
  · exact ⟨q, hdec, hq, le_rfl, rfl⟩
  have hpos : 0 < q := hq.lt_of_ne fun h => hdec (h ▸ ⟨0, 0, by simp⟩)
  -- powers of two and midpoints are decimals, so `q` is none of them
  have hne : ∀ (z e : ℤ), 0 ≤ z → q ≠ z / 2 * 2 ^ e := fun z e hz h => hdec (h ▸ isDecimal_grid hz)
  set e := lastPlace q with he
  set z := roundHalfEven (q / 2 ^ e) with hz
  obtain ⟨hlow, hhigh⟩ := roundHalfEven_error (q / 2 ^ e)
  rw [← hz] at hlow hhigh
  have hznonneg : 0 ≤ z := by
    have := roundHalfEven_mono (div_nonneg hq (two_zpow_pos e).le)
    rwa [show (0 : ℚ) = ((0 : ℤ) : ℚ) by norm_num, roundHalfEven_intCast] at this
  have hmid : (z - 1 / 2) * 2 ^ e < q := by
    rw [le_div_iff₀ (two_zpow_pos e)] at hlow
    refine hlow.lt_of_ne fun h => ?_
    rcases hznonneg.eq_or_lt with hz0 | hz1
    · rw [← hz0] at h
      have := two_zpow_pos e
      push_cast at h
      linarith
    · refine hne (2 * z - 1) e (by omega) ?_
      rw [← h]
      push_cast
      ring
  have htop : q / 2 ^ e < z + 1 / 2 := by
    refine hhigh.lt_of_ne fun h => hne (2 * z + 1) e (by omega) ?_
    rw [div_eq_iff (two_zpow_pos e).ne'] at h
    rw [h]
    push_cast
    ring
  have hlog : (2 : ℚ) ^ Int.log 2 q < q := by
    have hle : (2 : ℚ) ^ Int.log 2 q ≤ q := by
      simpa using Int.zpow_log_le_self (b := 2) (by norm_num) hpos
    refine hle.lt_of_ne fun h => hne 2 (Int.log 2 q) (by norm_num) ?_
    push_cast
    linarith
  obtain ⟨d, hd, hd0, hdlow, hdq⟩ := exists_decimal_between (max_lt hlog hmid) hq
  obtain ⟨hdlog, hdmid⟩ := max_lt_iff.mp hdlow
  refine ⟨d, hd, hd0, hdq, ?_⟩
  have hdpos : 0 < d := (two_zpow_pos _).trans hdlog
  have hplace : lastPlace d = e := by
    have hlogd : Int.log 2 d = Int.log 2 q := by
      refine le_antisymm (Int.log_mono_right hdpos hdq) ?_
      rw [← Int.zpow_le_iff_le_log (by norm_num) hdpos]
      simpa using hdlog.le
    rw [he]
    unfold lastPlace
    rw [abs_of_pos hdpos, abs_of_pos hpos, hlogd]
  have hround : roundHalfEven (d / 2 ^ e) = z := by
    refine roundHalfEven_eq ?_ ((div_le_div_of_nonneg_right hdq (two_zpow_pos e).le).trans_lt htop)
    rwa [lt_div_iff₀ (two_zpow_pos e)]
  rw [nearest, hplace, hround, nearest, ← he, ← hz]

/-! ## Doubles -/

/-- A value of the format. The two zeros are one. -/
inductive Double where
  | finite (value : ℚ) (exact : nearest value = value) (bounded : |value| < 2 ^ 1024)
  | infinite (negative : Bool)
  | nan
deriving DecidableEq

namespace Double

/-- The double nearest to a number; too large a number becomes infinite. -/
def ofRat (q : ℚ) : Double :=
  if h : |nearest q| < 2 ^ 1024 then .finite (nearest q) (nearest_nearest q) h
  else .infinite (decide (q < 0))

def toRat : Double → Option ℚ
  | finite value _ _ => some value
  | _ => none

def mul : Double → Double → Double
  | finite a _ _, finite b _ _ => ofRat (a * b)
  | infinite s, infinite t => infinite (s != t)
  | infinite s, finite b _ _ => if b = 0 then nan else infinite (s != decide (b < 0))
  | finite a _ _, infinite t => if a = 0 then nan else infinite (decide (a < 0) != t)
  | _, _ => nan

/-- Division by a positive integer. -/
def divNat : Double → ℕ → Double
  | finite a _ _, n => ofRat (a / n)
  | infinite s, _ => infinite s
  | nan, _ => nan

def le : Double → Double → Bool
  | nan, _ => false
  | _, nan => false
  | infinite true, _ => true
  | _, infinite false => true
  | finite a _ _, finite b _ _ => decide (a ≤ b)
  | _, _ => false

/-- Neither negative nor undefined. -/
def Nonneg : Double → Prop
  | finite value _ _ => 0 ≤ value
  | infinite negative => negative = false
  | nan => False

variable {q : ℚ} {a b : Double}

theorem ofRat_of_bounded (h : |nearest q| < 2 ^ 1024) :
    ofRat q = .finite (nearest q) (nearest_nearest q) h := dif_pos h

theorem zero_bounded : |(0 : ℚ)| < 2 ^ 1024 := by norm_num

theorem ofRat_zero : ofRat 0 = .finite 0 nearest_zero zero_bounded := by
  simp [ofRat]

/-- What is rounded to one number is one double. -/
theorem ofRat_congr {r : ℚ} (hq : 0 ≤ q) (hr : 0 ≤ r) (h : nearest q = nearest r) :
    ofRat q = ofRat r := by
  by_cases hbounded : |nearest r| < 2 ^ 1024
  · have hbounded' : |nearest q| < 2 ^ 1024 := by rwa [h]
    rw [ofRat_of_bounded hbounded, ofRat_of_bounded hbounded']
    congr 1
  · have hbounded' : ¬|nearest q| < 2 ^ 1024 := by rwa [h]
    rw [ofRat, ofRat, dif_neg hbounded, dif_neg hbounded', decide_eq_false (not_lt.mpr hq),
      decide_eq_false (not_lt.mpr hr)]

theorem ofRat_nonneg (hq : 0 ≤ q) : (ofRat q).Nonneg := by
  unfold ofRat
  split
  · exact nearest_nonneg hq
  · exact decide_eq_false (not_lt.mpr hq)

theorem Nonneg.le_infinite (ha : a.Nonneg) : a.le (infinite false) = true := by
  cases a with
  | finite value _ _ => rfl
  | infinite negative => cases negative <;> rfl
  | nan => exact ha.elim

theorem Nonneg.eq_infinite (h : (infinite false).le b = true) : b = infinite false := by
  cases b with
  | finite value _ _ => cases h
  | infinite negative =>
    cases negative with
    | false => rfl
    | true => cases h
  | nan => cases h

/-- Rounding to a double keeps the order, also past the largest one. -/
theorem ofRat_mono {r : ℚ} (hq : 0 ≤ q) (h : q ≤ r) : (ofRat q).le (ofRat r) = true := by
  have hmono := nearest_mono hq h
  by_cases hr : |nearest r| < 2 ^ 1024
  · have hq' : |nearest q| < 2 ^ 1024 := by
      rw [abs_of_nonneg (nearest_nonneg hq)]
      rw [abs_of_nonneg (nearest_nonneg (hq.trans h))] at hr
      exact hmono.trans_lt hr
    rw [ofRat_of_bounded hr, ofRat_of_bounded hq']
    exact decide_eq_true hmono
  · have hinf : ofRat r = infinite false := by
      rw [ofRat, dif_neg hr, decide_eq_false (not_lt.mpr (hq.trans h))]
    rw [hinf]
    exact (ofRat_nonneg hq).le_infinite

theorem le_trans {c : Double} (hab : a.le b = true) (hbc : b.le c = true) : a.le c = true := by
  cases a with
  | nan => cases hab
  | infinite s =>
    cases s with
    | true =>
      cases c with
      | nan => cases b <;> simp_all [le]
      | infinite t => rfl
      | finite v _ _ => rfl
    | false =>
      rw [Nonneg.eq_infinite hab] at hbc
      exact hbc
  | finite x _ _ =>
    cases b with
    | nan => cases hab
    | infinite s =>
      cases s with
      | true => cases hab
      | false =>
        rw [Nonneg.eq_infinite hbc]
        rfl
    | finite y _ _ =>
      cases c with
      | nan => cases hbc
      | infinite s =>
        cases s with
        | true => cases hbc
        | false => rfl
      | finite z _ _ =>
        exact decide_eq_true ((of_decide_eq_true hab).trans (of_decide_eq_true hbc))

/-- Multiplying by a positive number keeps the order. -/
theorem mul_mono {c : ℚ} {exact : nearest c = c} {bounded : |c| < 2 ^ 1024} (hc : 0 < c)
    (ha : a.Nonneg) (h : a.le b = true) :
    (a.mul (finite c exact bounded)).le (b.mul (finite c exact bounded)) = true := by
  have hinf : (infinite false).mul (finite c exact bounded) = infinite false := by
    simp [mul, hc.ne', hc.le]
  cases a with
  | nan => exact ha.elim
  | infinite s =>
    obtain rfl : s = false := ha
    rw [Nonneg.eq_infinite h, hinf]
    rfl
  | finite x _ _ =>
    have hx : (0 : ℚ) ≤ x := ha
    cases b with
    | nan => cases h
    | infinite s =>
      cases s with
      | true => cases h
      | false =>
        rw [hinf]
        exact (ofRat_nonneg (mul_nonneg hx hc.le)).le_infinite
    | finite y _ _ =>
      exact ofRat_mono (mul_nonneg hx hc.le)
        (mul_le_mul_of_nonneg_right (of_decide_eq_true h) hc.le)

end Double

end AlturaProt.Foundation
