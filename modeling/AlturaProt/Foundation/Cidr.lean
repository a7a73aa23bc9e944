import Mathlib.Algebra.BigOperators.Group.Finset.Basic
import Mathlib.Algebra.GroupWithZero.Nat
import Mathlib.Algebra.Order.BigOperators.Group.Finset
import Mathlib.Data.Finset.Card
import Mathlib.Data.Finset.Max
import Mathlib.Order.Interval.Finset.Nat

/-!
# Blocks of addresses

The addresses of `w` bits whose first `len` bits are given form a *block*. Two
blocks are nested or disjoint, so a list of blocks covers as many addresses as
its outermost members have together (`card_covered`): whether a list of blocks
leaves an address out, or covers the same addresses as another list, can be
read off the prefix lengths.
-/

namespace AlturaProt.Foundation

/-- The addresses of `w` bits with a given front: `index` read as a number of
`len` bits. -/
structure Block (w : ℕ) where
  len : ℕ
  index : ℕ
  len_le : len ≤ w
  index_lt : index < 2 ^ len
deriving DecidableEq

namespace Block

variable {w : ℕ}

/-- How many addresses a block has. -/
def size (b : Block w) : ℕ := 2 ^ (w - b.len)

/-- The addresses of a block, as numbers. -/
def addresses (b : Block w) : Finset ℕ := Finset.Ico (b.index * b.size) ((b.index + 1) * b.size)

/-- The block that an address and a prefix length stand for. -/
def of (w address len : ℕ) (hlen : len ≤ w) (haddress : address < 2 ^ w) : Block w where
  len := len
  index := address / 2 ^ (w - len)
  len_le := hlen
  index_lt := by
    rw [Nat.div_lt_iff_lt_mul (Nat.two_pow_pos _), ← pow_add, Nat.add_sub_cancel' hlen]
    exact haddress

/-- Every address of `c` is one of `b`. -/
def covers (b c : Block w) : Bool :=
  decide (b.len ≤ c.len) && decide (c.index / 2 ^ (c.len - b.len) = b.index)

theorem size_pos (b : Block w) : 0 < b.size := Nat.two_pow_pos _

variable {b c : Block w} {n : ℕ} {l : List (Block w)}

theorem mem_addresses : n ∈ b.addresses ↔ n / b.size = b.index := by
  have hpos := b.size_pos
  rw [addresses, Finset.mem_Ico, ← Nat.le_div_iff_mul_le hpos, ← Nat.div_lt_iff_lt_mul hpos]
  omega

theorem card_addresses (b : Block w) : b.addresses.card = b.size := by
  rw [addresses, Nat.card_Ico, Nat.succ_mul, Nat.add_sub_cancel_left]

theorem lt_of_mem_addresses (h : n ∈ b.addresses) : n < 2 ^ w := by
  have hend : n < (b.index + 1) * b.size := (Finset.mem_Ico.mp h).2
  have hle : (b.index + 1) * b.size ≤ 2 ^ b.len * b.size := Nat.mul_le_mul_right _ b.index_lt
  have hpow : 2 ^ b.len * b.size = 2 ^ w := by
    rw [size, ← pow_add, Nat.add_sub_cancel' b.len_le]
  omega

theorem covers_iff :
    b.covers c = true ↔ b.len ≤ c.len ∧ c.index / 2 ^ (c.len - b.len) = b.index := by
  simp [covers]

theorem covers_refl (b : Block w) : b.covers b = true := by
  simp [covers]

/-- The sizes of nested blocks. -/
theorem size_eq_mul (h : b.len ≤ c.len) : b.size = c.size * 2 ^ (c.len - b.len) := by
  have := c.len_le
  rw [size, size, ← pow_add]
  congr 1
  omega

theorem addresses_subset_of_covers (h : b.covers c = true) : c.addresses ⊆ b.addresses := by
  obtain ⟨hlen, hindex⟩ := covers_iff.mp h
  intro n hn
  rw [mem_addresses] at hn ⊢
  rw [size_eq_mul hlen, ← Nat.div_div_eq_div_mul, hn, hindex]

/-- A common address of two blocks nests the one with the longer front. -/
theorem covers_of_mem (hlen : b.len ≤ c.len) (hb : n ∈ b.addresses) (hc : n ∈ c.addresses) :
    b.covers c = true := by
  rw [mem_addresses] at hb hc
  refine covers_iff.mpr ⟨hlen, ?_⟩
  rw [← hc, Nat.div_div_eq_div_mul, ← size_eq_mul hlen, hb]

theorem nonempty_addresses (b : Block w) : b.addresses.Nonempty := by
  rw [← Finset.card_pos, card_addresses]
  exact b.size_pos

theorem covers_trans {d : Block w} (h : b.covers c = true) (h' : c.covers d = true) :
    b.covers d = true := by
  obtain ⟨n, hn⟩ := d.nonempty_addresses
  have hlen := (covers_iff.mp h).1.trans (covers_iff.mp h').1
  exact covers_of_mem hlen
    (addresses_subset_of_covers h (addresses_subset_of_covers h' hn)) hn

theorem eq_of_covers_of_len (h : b.covers c = true) (hlen : c.len ≤ b.len) : b = c := by
  obtain ⟨hle, hindex⟩ := covers_iff.mp h
  have heq : b.len = c.len := le_antisymm hle hlen
  cases b
  cases c
  simp_all

/-! ## Lists of blocks -/

/-- The blocks of a list that no other block of the list covers. -/
def outermost (l : List (Block w)) : List (Block w) :=
  l.dedup.filter fun b => l.all fun c => !c.covers b || decide (c = b)

/-- The number of addresses of a list of blocks. -/
def count (l : List (Block w)) : ℕ := ((outermost l).map size).sum

/-- The addresses of a list of blocks. -/
def covered (l : List (Block w)) : Finset ℕ := l.toFinset.biUnion addresses

theorem mem_covered : n ∈ covered l ↔ ∃ b ∈ l, n ∈ b.addresses := by
  simp [covered]

theorem mem_outermost : b ∈ outermost l ↔ b ∈ l ∧ ∀ c ∈ l, c.covers b = true → c = b := by
  rw [outermost, List.mem_filter, List.mem_dedup, List.all_eq_true]
  refine and_congr_right fun _ => forall₂_congr fun c _ => ?_
  cases c.covers b <;> simp

/-- Every block of a list is covered by an outermost one. -/
theorem exists_outermost_covers (hb : b ∈ l) : ∃ c ∈ outermost l, c.covers b = true := by
  -- the shortest front among those that cover `b`
  obtain ⟨c, hc, hmin⟩ := Finset.exists_min_image
    (l.toFinset.filter fun c => c.covers b = true) len
    ⟨b, by simp [hb, covers_refl]⟩
  rw [Finset.mem_filter, List.mem_toFinset] at hc
  refine ⟨c, mem_outermost.mpr ⟨hc.1, fun d hd hdc => ?_⟩, hc.2⟩
  apply eq_of_covers_of_len hdc
  apply hmin
  rw [Finset.mem_filter, List.mem_toFinset]
  exact ⟨hd, covers_trans hdc hc.2⟩

theorem covered_outermost (l : List (Block w)) : covered (outermost l) = covered l := by
  ext n
  rw [mem_covered, mem_covered]
  constructor
  · rintro ⟨b, hb, hn⟩
    exact ⟨b, (mem_outermost.mp hb).1, hn⟩
  · rintro ⟨b, hb, hn⟩
    obtain ⟨c, hc, hcb⟩ := exists_outermost_covers hb
    exact ⟨c, hc, addresses_subset_of_covers hcb hn⟩

theorem disjoint_outermost (hb : b ∈ outermost l) (hc : c ∈ outermost l) (hne : b ≠ c) :
    Disjoint b.addresses c.addresses := by
  rw [Finset.disjoint_left]
  intro n hnb hnc
  obtain ⟨hbl, hbmin⟩ := mem_outermost.mp hb
  obtain ⟨hcl, hcmin⟩ := mem_outermost.mp hc
  rcases le_total b.len c.len with hle | hle
  · exact hne (hcmin b hbl (covers_of_mem hle hnb hnc))
  · exact hne (hbmin c hcl (covers_of_mem hle hnc hnb)).symm

/-- **Counting.** A list of blocks has as many addresses as its outermost blocks
have together. -/
theorem card_covered (l : List (Block w)) : (covered l).card = count l := by
  have hnodup : (outermost l).Nodup := l.nodup_dedup.filter _
  rw [← covered_outermost, covered, Finset.card_biUnion, count, ← List.sum_toFinset size hnodup]
  · exact Finset.sum_congr rfl fun b _ => card_addresses b
  · intro b hb c hc hne
    exact disjoint_outermost (List.mem_toFinset.mp hb) (List.mem_toFinset.mp hc) hne

theorem covered_subset_range (l : List (Block w)) : covered l ⊆ Finset.range (2 ^ w) := by
  intro n hn
  obtain ⟨b, -, hb⟩ := mem_covered.mp hn
  exact Finset.mem_range.mpr (lt_of_mem_addresses hb)

/-- **Leaving an address out.** -/
theorem exists_notMem_iff (l : List (Block w)) :
    (∃ n < 2 ^ w, ∀ b ∈ l, n ∉ b.addresses) ↔ count l < 2 ^ w := by
  have hcard := card_covered l
  have hrange := Finset.card_range (2 ^ w)
  constructor
  · rintro ⟨n, hn, hout⟩
    rw [← hcard, ← hrange]
    refine Finset.card_lt_card ⟨covered_subset_range l, fun hsub => ?_⟩
    obtain ⟨b, hb, hmem⟩ := mem_covered.mp (hsub (Finset.mem_range.mpr hn))
    exact hout b hb hmem
  · intro hlt
    rw [← hcard, ← hrange] at hlt
    obtain ⟨n, hn, hout⟩ := Finset.exists_mem_notMem_of_card_lt_card hlt
    refine ⟨n, Finset.mem_range.mp hn, fun b hb hmem => ?_⟩
    exact hout (mem_covered.mpr ⟨b, hb, hmem⟩)

theorem covered_append (l m : List (Block w)) : covered (l ++ m) = covered l ∪ covered m := by
  ext n
  simp only [mem_covered, Finset.mem_union, List.mem_append]
  constructor
  · rintro ⟨b, hb | hb, hn⟩
    · exact Or.inl ⟨b, hb, hn⟩
    · exact Or.inr ⟨b, hb, hn⟩
  · rintro (⟨b, hb, hn⟩ | ⟨b, hb, hn⟩)
    · exact ⟨b, Or.inl hb, hn⟩
    · exact ⟨b, Or.inr hb, hn⟩

/-- **Having the same addresses.** Two lists do if neither adds to the other. -/
theorem covered_eq_iff (l m : List (Block w)) :
    covered l = covered m ↔ count l = count (l ++ m) ∧ count m = count (l ++ m) := by
  simp only [← card_covered, covered_append]
  constructor
  · intro h
    rw [h, Finset.union_self]
    exact ⟨rfl, rfl⟩
  · rintro ⟨hl, hm⟩
    have hleft : covered l = covered l ∪ covered m :=
      Finset.eq_of_subset_of_card_le Finset.subset_union_left hl.ge
    have hright : covered m = covered l ∪ covered m :=
      Finset.eq_of_subset_of_card_le Finset.subset_union_right hm.ge
    exact hleft.trans hright.symm

end Block

/-! ## Masks -/

section Masks

variable {w : ℕ}

/-- The mask of the first `len` of `w` bits. -/
def frontMask (w len : ℕ) : BitVec w :=
  if len = 0 then 0 else BitVec.allOnes w <<< (w - len)

theorem getLsbD_and_frontMask {a : BitVec w} {len i : ℕ} (hlen : len ≤ w) :
    (a &&& frontMask w len).getLsbD i = (a.getLsbD i && decide (w - len ≤ i)) := by
  rcases Nat.lt_or_ge i w with hi | hi
  · unfold frontMask
    split
    · have : ¬ w - len ≤ i := by omega
      simp [this]
    · by_cases h : w - len ≤ i
      · simp [hi, h]
      · simp [hi, h]
        omega
  · simp [BitVec.getLsbD_of_ge a i hi]

theorem and_frontMask_full (a : BitVec w) : a &&& frontMask w w = a := by
  apply BitVec.eq_of_getLsbD_eq
  intro i _
  rw [getLsbD_and_frontMask le_rfl, Nat.sub_self]
  simp

/-- Two addresses agree under a mask if they are in the same block. -/
theorem and_frontMask_eq_iff {a n : BitVec w} {len : ℕ} (hlen : len ≤ w) :
    a &&& frontMask w len = n &&& frontMask w len ↔
      a.toNat / 2 ^ (w - len) = n.toNat / 2 ^ (w - len) := by
  have hbit : ∀ (x : BitVec w) (i : ℕ), (x.toNat / 2 ^ (w - len)).testBit i =
      x.getLsbD (i + (w - len)) := by
    intro x i
    rw [Nat.testBit_div_two_pow]
    rfl
  constructor
  · intro h
    apply Nat.eq_of_testBit_eq
    intro i
    have hi := congrArg (·.getLsbD (i + (w - len))) h
    simp only [getLsbD_and_frontMask hlen, Nat.le_add_left, decide_true, Bool.and_true] at hi
    rw [hbit, hbit, hi]
  · intro h
    apply BitVec.eq_of_getLsbD_eq
    intro i hi
    rw [getLsbD_and_frontMask hlen, getLsbD_and_frontMask hlen]
    by_cases hfront : w - len ≤ i
    · have hi := congrArg (·.testBit (i - (w - len))) h
      simp only [hbit, Nat.sub_add_cancel hfront] at hi
      rw [hi]
    · simp [hfront]

theorem and_frontMask_eq_iff_mem {a n : BitVec w} {len : ℕ} (hlen : len ≤ w) :
    a &&& frontMask w len = n &&& frontMask w len ↔
      a.toNat ∈ (Block.of w n.toNat len hlen n.isLt).addresses := by
  rw [and_frontMask_eq_iff hlen, Block.mem_addresses]
  rfl

end Masks

end AlturaProt.Foundation
