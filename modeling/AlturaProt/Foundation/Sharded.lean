import AlturaProt.Foundation.KeyedQueue

/-!
# Sharded maps

A map split over a fixed number of keyed queues; a hash function sends every
key to one of them. `Placed` is the representation invariant of the whole map:
every shard is sound, bounded, and holds only keys the hash sends to it.

An operation touches the shard of one key, so the invariant of the map is
proved one shard at a time (`Placed.update`).
-/

namespace AlturaProt.Foundation

/-- `n` shards; which one a key belongs to is given separately. -/
abbrev Shards (n : ℕ) (K T : Type*) : Type _ := Fin n → KeyedQueue K T

/-- What one shard of the map must look like. -/
structure ShardOk {n : ℕ} {K T : Type*} (idx : K → Fin n) (cap : ℕ)
    (i : Fin n) (q : KeyedQueue K T) : Prop where
  sound : q.Sound
  size_le : q.size ≤ cap
  home : ∀ k, k ∈ q.entries → idx k = i

namespace Shards

variable {n : ℕ} {K T : Type*}

def empty : Shards n K T := fun _ => KeyedQueue.empty

/-- The representation invariant of a sharded map. -/
def Placed (idx : K → Fin n) (cap : ℕ) (m : Shards n K T) : Prop :=
  ∀ i, ShardOk idx cap i (m i)

theorem placed_empty (idx : K → Fin n) (cap : ℕ) :
    (empty : Shards n K T).Placed idx cap := by
  intro i
  refine ⟨KeyedQueue.sound_empty, ?_, ?_⟩
  · exact Nat.zero_le cap
  · intro k hk
    exact absurd hk (Finmap.notMem_empty)

theorem Placed.update {idx : K → Fin n} {cap : ℕ} {m : Shards n K T}
    (h : m.Placed idx cap) {i : Fin n} {q : KeyedQueue K T}
    (hq : ShardOk idx cap i q) : Placed idx cap (Function.update m i q) := by
  intro j
  by_cases hj : j = i
  · subst hj
    rw [Function.update_self]
    exact hq
  · rw [Function.update_of_ne hj]
    exact h j

variable [DecidableEq K]

/-- The value of a key, in the shard it belongs to. -/
def get (idx : K → Fin n) (m : Shards n K T) (k : K) : Option T :=
  (m (idx k)).get k

@[simp] theorem get_empty (idx : K → Fin n) (k : K) :
    get idx (empty : Shards n K T) k = none := KeyedQueue.get_empty k

/-- Seen from one key, an update of a shard matters only if it is its own. -/
theorem get_update (idx : K → Fin n) (m : Shards n K T) (i : Fin n) (q : KeyedQueue K T) (k : K) :
    get idx (Function.update m i q) k = if idx k = i then q.get k else get idx m k := by
  unfold get
  by_cases h : idx k = i
  · rw [if_pos h, h, Function.update_self]
  · rw [if_neg h, Function.update_of_ne h]

end Shards

namespace ShardOk

variable {n : ℕ} {K T : Type*} [DecidableEq K] {idx : K → Fin n} {cap : ℕ}
  {i : Fin n} {q : KeyedQueue K T}

theorem reclaimed {p : T → Bool} {r : KeyedQueue K T} (h : ShardOk idx cap i q)
    (hr : KeyedQueue.Reclaimed p q r) : ShardOk idx cap i r := by
  refine ⟨hr.sound h.sound, hr.size_le.trans h.size_le, fun k hk => h.home k ?_⟩
  obtain ⟨e, he⟩ := Finmap.mem_iff.mp hk
  exact Finmap.mem_of_lookup_eq_some (hr.get_eq_some he)

theorem put (h : ShardOk idx cap i q) {k : K} (v : T) (hk : k ∈ q.entries) :
    ShardOk idx cap i (q.put k v) := by
  refine ⟨h.sound.put v hk, (KeyedQueue.size_put v hk).le.trans h.size_le, ?_⟩
  intro k' hk'
  rcases Finmap.mem_insert.mp hk' with rfl | hk'
  · exact h.home k' hk
  · exact h.home k' hk'

/-- A fresh key may be pushed into the shard the hash selects when the shard
is below its capacity. -/
theorem push (h : ShardOk idx cap i q) {k : K} (v : T) (hk : k ∉ q.entries)
    (hroom : q.size < cap) (hi : idx k = i) : ShardOk idx cap i (q.push k v) := by
  refine ⟨h.sound.push v hk, (KeyedQueue.size_push v hk).le.trans hroom, ?_⟩
  intro k' hk'
  rcases Finmap.mem_insert.mp hk' with rfl | hk'
  · exact hi
  · exact h.home k' hk'

theorem remove (h : ShardOk idx cap i q) (k : K) :
    ShardOk idx cap i (q.remove k) := by
  refine ⟨h.sound.remove k, ?_, fun k' hk' => h.home k' (Finmap.mem_erase.mp hk').2⟩
  refine le_trans (Finset.card_le_card ?_) h.size_le
  intro k' hk'
  exact (Finmap.mem_erase.mp hk').2

/-- A visit to a key in the shard the hash selects keeps the shard in shape, if
room is only reported when there is some. -/
theorem visit {R : Type*} {ensure : KeyedQueue K T → KeyedQueue K T × Bool} {p : T → Bool}
    (h : ShardOk idx cap i q) (hens : KeyedQueue.Reclaimed p q (ensure q).1)
    (hroom : (ensure q).2 = true → (ensure q).1.size < cap) (fresh : T) (f : T → T × R)
    {k : K} (hi : idx k = i) :
    ShardOk idx cap i (KeyedQueue.visit ensure fresh f k q).1 := by
  rcases KeyedQueue.visit_cases hens fresh f k with ⟨-, -, hv⟩ | ⟨e, hk, hv⟩ | ⟨hk, hr, hv⟩
  · rw [hv]
    exact h.reclaimed hens
  · rw [hv]
    exact h.put _ (KeyedQueue.mem_entries_iff.mpr (by simp [hk]))
  · have hnew : k ∉ (ensure q).1.entries := Finmap.lookup_eq_none.mp (hens.get_eq_none hk)
    rw [hv]
    refine ((h.reclaimed hens).push _ hnew (hroom hr) hi).put _ ?_
    exact Finmap.mem_insert.mpr (Or.inl rfl)

end ShardOk

namespace Shards

variable {n : ℕ} {K T R : Type*} [DecidableEq K] {idx : K → Fin n}
  {ensure : KeyedQueue K T → KeyedQueue K T × Bool} {p : T → Bool} {m : Shards n K T}

/-- Visit a key in the shard it belongs to. -/
def visit (idx : K → Fin n) (ensure : KeyedQueue K T → KeyedQueue K T × Bool) (fresh : T)
    (f : T → T × R) (k : K) (m : Shards n K T) : Shards n K T × Option (R × Bool) :=
  let visited := (m (idx k)).visit ensure fresh f k
  (Function.update m (idx k) visited.1, visited.2)

theorem get_visit_of_ne (idx : K → Fin n) (m : Shards n K T)
    (hens : ∀ q, KeyedQueue.Reclaimed p q (ensure q).1) (fresh : T)
    (f : T → T × R) {k k' : K} (hne : k' ≠ k) :
    get idx (visit idx ensure fresh f k m).1 k' = get idx m k' ∨
      ∃ e, get idx m k' = some e ∧ p e = true ∧
        get idx (visit idx ensure fresh f k m).1 k' = none := by
  simp only [visit, get_update]
  split
  · rename_i hi
    have hvisit := KeyedQueue.get_visit_of_ne (hens (m (idx k))) fresh f hne
    rw [get, hi]
    exact hvisit
  · exact Or.inl rfl

theorem get_visit_self (idx : K → Fin n) (m : Shards n K T)
    (hens : ∀ q, KeyedQueue.Reclaimed p q (ensure q).1) (fresh : T)
    (f : T → T × R) (k : K) :
    (get idx m k = none ∧ get idx (visit idx ensure fresh f k m).1 k = none ∧
      (visit idx ensure fresh f k m).2 = none) ∨
    (∃ e, (get idx m k = some e ∨ (get idx m k = none ∧ e = fresh)) ∧
      get idx (visit idx ensure fresh f k m).1 k = some (f e).1 ∧
      (visit idx ensure fresh f k m).2 = some ((f e).2, (get idx m k).isNone)) := by
  simp only [visit, get_update, if_true]
  exact KeyedQueue.get_visit_self (hens (m (idx k))) fresh f k

theorem Placed.visit {cap : ℕ} (h : m.Placed idx cap)
    (hens : ∀ q, KeyedQueue.Reclaimed p q (ensure q).1)
    (hroom : ∀ q, (ensure q).2 = true → (ensure q).1.size < cap) (fresh : T)
    (f : T → T × R) (k : K) : Placed idx cap (visit idx ensure fresh f k m).1 :=
  h.update ((h (idx k)).visit (hens _) (hroom _) fresh f rfl)

end Shards

end AlturaProt.Foundation
