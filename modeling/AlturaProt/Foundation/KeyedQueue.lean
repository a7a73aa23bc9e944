import Mathlib.Data.Finmap
import Mathlib.Data.List.Rotate
import Mathlib.Tactic.Linarith

/-!
# Keyed queues: a finite map with an arrival queue

A bounded store that must find something to evict without walking the whole
map keeps its keys in a queue beside the map. A *scan* takes keys from the
front of the queue: a key whose value may go is removed from both sides, any
other key is put back at the end. The number of turns of one scan is bounded
by its caller, so successive scans rotate through the queue.

`Sound` is the representation invariant: the queue lists every stored key
exactly once. Every operation keeps it, and `scan_cases` says everything a
scan can do to a sound queue.
-/

namespace AlturaProt.Foundation

/-- A map of entries with the queue of its keys. -/
structure KeyedQueue (K T : Type*) where
  entries : Finmap (fun _ : K => T)
  order : List K

namespace KeyedQueue

variable {K T : Type*}

/-- The queue lists every stored key exactly once. -/
structure Sound (q : KeyedQueue K T) : Prop where
  nodup : q.order.Nodup
  mem_order : ∀ k, k ∈ q.order ↔ k ∈ q.entries

def empty : KeyedQueue K T := ⟨∅, []⟩

theorem sound_empty : (empty : KeyedQueue K T).Sound :=
  ⟨List.nodup_nil, fun k => by simp [empty, Finmap.notMem_empty]⟩

variable [DecidableEq K]

/-! ## Operations -/

def get (q : KeyedQueue K T) (k : K) : Option T := q.entries.lookup k

def size (q : KeyedQueue K T) : ℕ := q.entries.keys.card

/-- Insert a new key at the back of the queue. -/
def push (q : KeyedQueue K T) (k : K) (v : T) : KeyedQueue K T :=
  ⟨q.entries.insert k v, q.order ++ [k]⟩

/-- Overwrite the value of a key in place. -/
def put (q : KeyedQueue K T) (k : K) (v : T) : KeyedQueue K T :=
  ⟨q.entries.insert k v, q.order⟩

/-- Remove a key from the map and its first mention from the queue. -/
def remove (q : KeyedQueue K T) (k : K) : KeyedQueue K T :=
  ⟨q.entries.erase k, q.order.erase k⟩

/-- At most `n` turns of a scan; the flag tells whether a key was evicted. -/
def scan (p : T → Bool) : ℕ → KeyedQueue K T → KeyedQueue K T × Bool
  | 0, q => (q, false)
  | n + 1, q =>
    match q.order with
    | [] => (q, false)
    | k :: rest =>
      if (q.entries.lookup k).any p then
        (⟨q.entries.erase k, rest⟩, true)
      else if k ∈ q.entries then
        scan p n ⟨q.entries, rest ++ [k]⟩
      else
        scan p n ⟨q.entries, rest⟩

/-! ## Reading after writing -/

@[simp] theorem get_empty (k : K) : (empty : KeyedQueue K T).get k = none := Finmap.lookup_empty k

@[simp] theorem get_push_self (q : KeyedQueue K T) (k : K) (v : T) :
    (q.push k v).get k = some v := Finmap.lookup_insert q.entries

variable {k k' : K} {q r : KeyedQueue K T} {p p' : T → Bool}

theorem get_push_of_ne (q : KeyedQueue K T) (v : T) (h : k' ≠ k) :
    (q.push k v).get k' = q.get k' := Finmap.lookup_insert_of_ne q.entries h

@[simp] theorem get_put_self (q : KeyedQueue K T) (k : K) (v : T) :
    (q.put k v).get k = some v := Finmap.lookup_insert q.entries

theorem get_put_of_ne (q : KeyedQueue K T) (v : T) (h : k' ≠ k) :
    (q.put k v).get k' = q.get k' := Finmap.lookup_insert_of_ne q.entries h

@[simp] theorem get_remove_self (q : KeyedQueue K T) (k : K) :
    (q.remove k).get k = none := Finmap.lookup_erase k q.entries

theorem get_remove_of_ne (q : KeyedQueue K T) (h : k' ≠ k) :
    (q.remove k).get k' = q.get k' := Finmap.lookup_erase_ne h

theorem mem_entries_iff :
    k ∈ q.entries ↔ (q.get k).isSome = true := Finmap.lookup_isSome.symm

theorem keys_insert (m : Finmap (fun _ : K => T)) (k : K) (v : T) :
    (m.insert k v).keys = insert k m.keys := by
  ext k'
  simp only [Finmap.mem_keys, Finmap.mem_insert, Finset.mem_insert]

theorem size_put (v : T) (h : k ∈ q.entries) : (q.put k v).size = q.size := by
  have hk : k ∈ q.entries.keys := Finmap.mem_keys.mpr h
  rw [size, put, keys_insert, Finset.insert_eq_self.mpr hk, size]

theorem size_push (v : T) (h : k ∉ q.entries) : (q.push k v).size = q.size + 1 := by
  have hk : k ∉ q.entries.keys := fun hm => h (Finmap.mem_keys.mp hm)
  rw [size, push, keys_insert, Finset.card_insert_of_notMem hk, size]

theorem card_keys_erase {m : Finmap (fun _ : K => T)} (h : k ∈ m) :
    (m.erase k).keys.card + 1 = m.keys.card := by
  rw [Finmap.keys_erase]
  exact Finset.card_erase_add_one (Finmap.mem_keys.mpr h)

/-! ## The representation invariant -/

theorem sound_iff : q.Sound ↔ q.order.Nodup ∧ q.order.toFinset = q.entries.keys := by
  constructor
  · intro h
    refine ⟨h.nodup, ?_⟩
    ext k
    rw [Finmap.mem_keys, List.mem_toFinset, h.mem_order]
  · rintro ⟨hnodup, hkeys⟩
    refine ⟨hnodup, fun k => ?_⟩
    rw [← List.mem_toFinset, hkeys, Finmap.mem_keys]

instance (q : KeyedQueue K T) : Decidable q.Sound := decidable_of_iff _ sound_iff.symm

/-- In a sound queue the size of the map is the length of the queue. -/
theorem Sound.size_eq_length (h : q.Sound) : q.size = q.order.length := by
  rw [size, ← (sound_iff.mp h).2, List.toFinset_card_of_nodup h.nodup]

theorem Sound.put (h : q.Sound) (v : T) (hk : k ∈ q.entries) : (q.put k v).Sound := by
  refine ⟨h.nodup, fun k' => ?_⟩
  simp only [KeyedQueue.put, Finmap.mem_insert, h.mem_order]
  constructor
  · exact Or.inr
  · rintro (rfl | hm)
    · exact hk
    · exact hm

theorem Sound.push (h : q.Sound) (v : T) (hk : k ∉ q.entries) : (q.push k v).Sound := by
  have hnew : k ∉ q.order := fun hm => hk ((h.mem_order k).mp hm)
  refine ⟨?_, fun k' => ?_⟩
  · refine List.nodup_append.mpr ⟨h.nodup, List.nodup_singleton k, ?_⟩
    intro a ha b hb heq
    rw [List.mem_singleton] at hb
    exact hnew (hb ▸ heq ▸ ha)
  · simp only [KeyedQueue.push, List.mem_append, List.mem_singleton,
      Finmap.mem_insert, h.mem_order]
    exact or_comm

theorem Sound.remove (h : q.Sound) (k : K) : (q.remove k).Sound := by
  refine ⟨h.nodup.erase k, fun k' => ?_⟩
  simp only [KeyedQueue.remove, Finmap.mem_erase, h.nodup.mem_erase_iff, h.mem_order]

/-! ## What a scan does -/

/-- Whatever the queue looks like, a scan either drops one evictable entry
from the map or leaves the map alone. -/
theorem scan_entries (p : T → Bool) : ∀ (n : ℕ) (q : KeyedQueue K T),
    (∃ k e, q.get k = some e ∧ p e = true ∧
      (scan p n q).1.entries = q.entries.erase k ∧ (scan p n q).2 = true) ∨
    ((scan p n q).1.entries = q.entries ∧ (scan p n q).2 = false) := by
  intro n
  induction n with
  | zero => exact fun q => Or.inr ⟨rfl, rfl⟩
  | succ n ih =>
    rintro ⟨entries, _ | ⟨k, rest⟩⟩
    · exact Or.inr ⟨rfl, rfl⟩
    · cases hk : entries.lookup k with
      | none =>
        have hmem : k ∉ entries := Finmap.lookup_eq_none.mp hk
        simpa [scan, hk, hmem, get] using ih ⟨entries, rest⟩
      | some e =>
        have hmem : k ∈ entries := Finmap.mem_of_lookup_eq_some hk
        cases hp : p e with
        | true =>
          exact Or.inl ⟨k, e, hk, hp, by simp [scan, hk, hp], by simp [scan, hk, hp]⟩
        | false =>
          simpa [scan, hk, hp, hmem, get] using
            ih ⟨entries, rest ++ [k]⟩

/-- A scan evicts exactly when one of the keys it visits may be evicted. -/
theorem scan_evicts_iff (p : T → Bool) : ∀ (n : ℕ) (q : KeyedQueue K T),
    n ≤ q.order.length →
    ((scan p n q).2 = true ↔ ∃ k ∈ q.order.take n, ∃ e, q.get k = some e ∧ p e = true) := by
  intro n
  induction n with
  | zero => intro q _; simp [scan]
  | succ n ih =>
    rintro ⟨entries, _ | ⟨k, rest⟩⟩ hn
    · simp at hn
    · have hn' : n ≤ rest.length := by simpa using hn
      cases hk : entries.lookup k with
      | none =>
        have hmem : k ∉ entries := Finmap.lookup_eq_none.mp hk
        have hrest := ih ⟨entries, rest⟩ hn'
        simpa [scan, hk, hmem, get] using hrest
      | some e =>
        have hmem : k ∈ entries := Finmap.mem_of_lookup_eq_some hk
        cases hp : p e with
        | true => simp [scan, hk, hp, get]
        | false =>
          have hrest := ih ⟨entries, rest ++ [k]⟩ (by simp; omega)
          rw [List.take_append_of_le_length hn'] at hrest
          simpa [scan, hk, hp, hmem, get] using hrest

/-- Everything a scan of a sound queue can do. Either the key at some
position `i` goes, after the `i` keys before it went to the back, or no
visited key may go and the queue is rotated by the number of turns. -/
theorem scan_cases (h : q.Sound) (p : T → Bool) {n : ℕ} (hn : n ≤ q.order.length) :
    (∃ i k e rest, i < n ∧ q.order.rotate i = k :: rest ∧ q.get k = some e ∧
      p e = true ∧ scan p n q = (⟨q.entries.erase k, rest⟩, true)) ∨
    ((∀ k ∈ q.order.take n, ∀ e, q.get k = some e → p e = false) ∧
      scan p n q = (⟨q.entries, q.order.rotate n⟩, false)) := by
  induction n generalizing q with
  | zero => exact Or.inr ⟨by simp, by simp [scan]⟩
  | succ n ih =>
    obtain ⟨entries, order⟩ := q
    cases order with
    | nil => simp at hn
    | cons k rest =>
      have hmem : k ∈ entries := (h.mem_order k).mp List.mem_cons_self
      obtain ⟨e, hk⟩ := Finmap.mem_iff.mp hmem
      cases hp : p e with
      | true =>
        exact Or.inl ⟨0, k, e, rest, Nat.succ_pos n, by simp, hk, hp, by simp [scan, hk, hp]⟩
      | false =>
        -- the front key stays: it goes to the back and the scan goes on
        have hstep : scan p (n + 1) ⟨entries, k :: rest⟩ =
            scan p n ⟨entries, rest ++ [k]⟩ := by
          simp [scan, hk, hp, hmem]
        have hperm : (rest ++ [k]).Perm (k :: rest) := List.perm_append_singleton k rest
        have h' : Sound (⟨entries, rest ++ [k]⟩ : KeyedQueue K T) :=
          ⟨hperm.nodup_iff.mpr h.nodup, fun k' =>
            hperm.mem_iff.trans (h.mem_order k')⟩
        have hn' : n ≤ (rest ++ [k]).length := by
          simp only [List.length_cons] at hn
          simp
          omega
        have hrot : ∀ i, (k :: rest).rotate (i + 1) =
            (rest ++ [k]).rotate i := fun i => List.rotate_cons_succ rest k i
        rcases ih h' hn' with ⟨i, k', e', rest', hi, hrot', hk', hp', hs⟩ | ⟨hno, hs⟩
        · exact Or.inl ⟨i + 1, k', e', rest', Nat.succ_lt_succ hi,
            (hrot i).trans hrot', hk', hp', hstep.trans hs⟩
        · refine Or.inr ⟨?_, by rw [hstep, hs, hrot]⟩
          intro k' hk' e' he'
          rw [List.take_succ_cons, List.mem_cons] at hk'
          rcases hk' with rfl | hk'
          · have : e' = e := Option.some.inj (he'.symm.trans hk)
            rw [this, hp]
          · refine hno k' ?_ e' he'
            rw [List.take_append_of_le_length (by simpa using hn)]
            exact hk'

theorem Sound.scan (h : q.Sound) (p : T → Bool) {n : ℕ} (hn : n ≤ q.order.length) :
    (q.scan p n).1.Sound := by
  rcases scan_cases h p hn with ⟨i, k, e, rest, -, hrot, hk, -, hs⟩ | ⟨-, hs⟩
  · have hperm : (k :: rest).Perm q.order := hrot ▸ List.rotate_perm q.order i
    have hnd : (k :: rest).Nodup := hperm.nodup_iff.mpr h.nodup
    rw [hs]
    refine ⟨hnd.of_cons, fun k' => ?_⟩
    rw [Finmap.mem_erase, ← h.mem_order, ← hperm.mem_iff, List.mem_cons]
    constructor
    · exact fun hm => ⟨fun heq => (List.nodup_cons.mp hnd).1 (heq ▸ hm), Or.inr hm⟩
    · rintro ⟨hne, rfl | hm⟩
      · exact absurd rfl hne
      · exact hm
  · have hperm := List.rotate_perm q.order n
    rw [hs]
    exact ⟨hperm.nodup_iff.mpr h.nodup, fun k =>
      hperm.mem_iff.trans (h.mem_order k)⟩

/-- Seen from one key, a scan keeps its value or evicts it. -/
theorem get_scan (p : T → Bool) (n : ℕ) (q : KeyedQueue K T) (k : K) :
    (scan p n q).1.get k = q.get k ∨
      ∃ e, q.get k = some e ∧ p e = true ∧ (scan p n q).1.get k = none := by
  rcases scan_entries p n q with ⟨k', e, hk', hp, hs, -⟩ | ⟨hs, -⟩
  · by_cases hkk : k = k'
    · subst hkk
      exact Or.inr ⟨e, hk', hp, by rw [get, hs, Finmap.lookup_erase]⟩
    · exact Or.inl (by rw [get, hs, Finmap.lookup_erase_ne hkk, get])
  · exact Or.inl (by rw [get, hs, get])

theorem size_scan (p : T → Bool) (n : ℕ) (q : KeyedQueue K T) :
    (scan p n q).1.size + (scan p n q).2.toNat = q.size := by
  rcases scan_entries p n q with ⟨k, e, hk, -, hs, hb⟩ | ⟨hs, hb⟩
  · rw [size, hs, hb]
    exact card_keys_erase (Finmap.mem_of_lookup_eq_some hk)
  · rw [size, hs, hb, size]
    rfl

/-! ## The order of the queue -/

/-- What is left of a list of which a part went to the back and some elements went. -/
def Turned (before after : List K) : Prop := ∃ n, after.Sublist (before.rotate n)

omit [DecidableEq K] in
theorem Turned.refl (order : List K) : Turned order order := ⟨0, by simp⟩

omit [DecidableEq K] in
/-- A rotation of a part of a list is a part of a rotation. -/
theorem sublist_rotate {l l' : List K} (h : l.Sublist l') (n : ℕ) :
    ∃ m, (l.rotate n).Sublist (l'.rotate m) := by
  rw [← List.take_append_drop (n % l.length) l, List.append_sublist_iff] at h
  obtain ⟨front, back, rfl, hfront, hback⟩ := h
  refine ⟨front.length, ?_⟩
  rw [List.rotate_append_length_eq, List.rotate_eq_drop_append_take_mod]
  exact hback.append hfront

omit [DecidableEq K] in
theorem Turned.trans {before middle after : List K} (h : Turned before middle)
    (h' : Turned middle after) : Turned before after := by
  obtain ⟨n, hn⟩ := h
  obtain ⟨m, hm⟩ := h'
  obtain ⟨m', hm'⟩ := sublist_rotate hn m
  refine ⟨n + m', ?_⟩
  rw [← List.rotate_rotate]
  exact hm.trans hm'

/-- Every turn of a scan takes the front key away or sends it to the back. -/
theorem turned_scan (p : T → Bool) (n : ℕ) (q : KeyedQueue K T) :
    Turned q.order (scan p n q).1.order := by
  induction n generalizing q with
  | zero => exact .refl _
  | succ n ih =>
    obtain ⟨entries, order⟩ := q
    cases order with
    | nil => exact .refl _
    | cons k rest =>
      have hgone : Turned (k :: rest) rest := ⟨0, by simp⟩
      have hback : Turned (k :: rest) (rest ++ [k]) := ⟨1, by simp⟩
      unfold scan
      dsimp only
      split
      · exact hgone
      · split
        · exact hback.trans (ih _)
        · exact hgone.trans (ih _)

/-! ## Making room

A caller that wants to insert scans with a limit and asks whether the store is
below its capacity afterwards. `Reclaimed` is what such a call may do to the
store, whatever its scans look like inside: it composes, so a caller that
scans twice needs no second argument. -/

/-- One scan of at most `limit` turns. -/
def scanLimited (p : T → Bool) (limit : ℕ) (q : KeyedQueue K T) :
    KeyedQueue K T × Bool :=
  scan p (min q.order.length limit) q

/-- Make room with one limited scan. -/
def reclaim (cap limit : ℕ) (p : T → Bool) (q : KeyedQueue K T) :
    KeyedQueue K T × Bool :=
  if q.size < cap then (q, true)
  else
    let r := (scanLimited p limit q).1
    (r, decide (r.size < cap))

/-- Make room with a scan for `p` and, if that does not help, one for `p'`. -/
def reclaimTwice (cap limit : ℕ) (p p' : T → Bool) (q : KeyedQueue K T) :
    KeyedQueue K T × Bool :=
  if q.size < cap then (q, true)
  else
    let r := (scanLimited p limit q).1
    if r.size < cap then (r, true)
    else
      let r' := (scanLimited p' limit r).1
      (r', decide (r'.size < cap))

/-- `r` is `q` with some entries that satisfy `p` removed. -/
structure Reclaimed (p : T → Bool) (q r : KeyedQueue K T) : Prop where
  sound : q.Sound → r.Sound
  get_eq_or_evicted : ∀ k, r.get k = q.get k ∨
    ∃ e, q.get k = some e ∧ p e = true ∧ r.get k = none
  size_le : r.size ≤ q.size
  turned : Turned q.order r.order

theorem Reclaimed.refl (p : T → Bool) (q : KeyedQueue K T) : Reclaimed p q q :=
  ⟨id, fun _ => Or.inl rfl, le_rfl, .refl _⟩

theorem Reclaimed.trans {s : KeyedQueue K T} (h : Reclaimed p q r) (h' : Reclaimed p r s) :
    Reclaimed p q s := by
  refine ⟨fun hq => h'.sound (h.sound hq), fun k => ?_, h'.size_le.trans h.size_le,
    h.turned.trans h'.turned⟩
  rcases h.get_eq_or_evicted k with hk | ⟨e, hq, hp, hr⟩
  · rcases h'.get_eq_or_evicted k with hk' | ⟨e, hr, hp, hs⟩
    · exact Or.inl (hk'.trans hk)
    · exact Or.inr ⟨e, hk ▸ hr, hp, hs⟩
  · rcases h'.get_eq_or_evicted k with hk' | ⟨e', hr', -, hs⟩
    · exact Or.inr ⟨e, hq, hp, hk'.trans hr⟩
    · exact Or.inr ⟨e, hq, hp, hs⟩

theorem Reclaimed.mono (hpp : ∀ e, p e = true → p' e = true) (h : Reclaimed p q r) :
    Reclaimed p' q r := by
  refine ⟨h.sound, fun k => ?_, h.size_le, h.turned⟩
  rcases h.get_eq_or_evicted k with hk | ⟨e, hq, hp, hr⟩
  · exact Or.inl hk
  · exact Or.inr ⟨e, hq, hpp e hp, hr⟩

/-- An absent key stays absent. -/
theorem Reclaimed.get_eq_none (h : Reclaimed p q r) (hk : q.get k = none) : r.get k = none := by
  rcases h.get_eq_or_evicted k with hr | ⟨e, -, -, hr⟩
  · exact hr.trans hk
  · exact hr

/-- Everything still there was there before. -/
theorem Reclaimed.get_eq_some (h : Reclaimed p q r) {e : T} (hk : r.get k = some e) :
    q.get k = some e := by
  rcases h.get_eq_or_evicted k with hr | ⟨e', -, -, hr⟩
  · exact hr ▸ hk
  · rw [hr] at hk
    exact absurd hk (by simp)

theorem reclaimed_scanLimited (p : T → Bool) (limit : ℕ) (q : KeyedQueue K T) :
    Reclaimed p q (scanLimited p limit q).1 where
  sound h := h.scan p (Nat.min_le_left _ _)
  get_eq_or_evicted := get_scan p _ q
  size_le := by
    have h := size_scan p (min q.order.length limit) q
    rw [scanLimited]
    omega
  turned := turned_scan p _ q

theorem reclaimed_reclaim (cap limit : ℕ) (p : T → Bool) (q : KeyedQueue K T) :
    Reclaimed p q (reclaim cap limit p q).1 := by
  unfold reclaim
  split
  · exact Reclaimed.refl p q
  · exact reclaimed_scanLimited p limit q

theorem reclaimed_reclaimTwice (cap limit : ℕ) (hpp : ∀ e, p e = true → p' e = true)
    (q : KeyedQueue K T) : Reclaimed p' q (reclaimTwice cap limit p p' q).1 := by
  have hfirst : Reclaimed p' q (scanLimited p limit q).1 :=
    (reclaimed_scanLimited p limit q).mono hpp
  unfold reclaimTwice
  split
  · exact Reclaimed.refl p' q
  · dsimp only
    split
    · exact hfirst
    · exact hfirst.trans (reclaimed_scanLimited p' limit _)

theorem size_lt_of_reclaim {cap limit : ℕ} (h : (reclaim cap limit p q).2 = true) :
    (reclaim cap limit p q).1.size < cap := by
  unfold reclaim at h ⊢
  split
  · assumption
  · rename_i hfull
    rw [if_neg hfull] at h
    exact of_decide_eq_true h

theorem size_lt_of_reclaimTwice {cap limit : ℕ} (h : (reclaimTwice cap limit p p' q).2 = true) :
    (reclaimTwice cap limit p p' q).1.size < cap := by
  unfold reclaimTwice at h ⊢
  split
  · assumption
  · rename_i hfull
    rw [if_neg hfull] at h
    dsimp only at h ⊢
    split
    · assumption
    · rename_i hfull'
      rw [if_neg hfull'] at h
      exact of_decide_eq_true h

/-! ## Visiting a key

The common use of a bounded store: look a key up, make room and insert a fresh
entry if it is new, and let a function work on the entry. -/

section Visit

variable {R : Type*}

/-- The result is `none` when no room could be made; otherwise it comes with
whether the entry was inserted. -/
def visit (ensure : KeyedQueue K T → KeyedQueue K T × Bool) (fresh : T)
    (f : T → T × R) (k : K) (q : KeyedQueue K T) : KeyedQueue K T × Option (R × Bool) :=
  let room := if k ∈ q.entries then (q, true) else ensure q
  if room.2 = false then (room.1, none)
  else
    let inserted := decide (k ∉ room.1.entries)
    let filled := if inserted then room.1.push k fresh else room.1
    let result := f ((filled.get k).getD fresh)
    (filled.put k result.1, some (result.2, inserted))

variable {ensure : KeyedQueue K T → KeyedQueue K T × Bool} {p : T → Bool}
  {q : KeyedQueue K T}

/-- The three ways a visit can go. -/
theorem visit_cases (hens : Reclaimed p q (ensure q).1) (fresh : T) (f : T → T × R) (k : K) :
    (q.get k = none ∧ (ensure q).2 = false ∧ visit ensure fresh f k q = ((ensure q).1, none)) ∨
    (∃ e, q.get k = some e ∧ visit ensure fresh f k q = (q.put k (f e).1, some ((f e).2, false))) ∨
    (q.get k = none ∧ (ensure q).2 = true ∧
      visit ensure fresh f k q =
        (((ensure q).1.push k fresh).put k (f fresh).1, some ((f fresh).2, true))) := by
  cases hk : q.get k with
  | some e =>
    have hmem : k ∈ q.entries := mem_entries_iff.mpr (by simp [hk])
    exact Or.inr (Or.inl ⟨e, rfl, by simp [visit, hmem, hk]⟩)
  | none =>
    have hmem : k ∉ q.entries := Finmap.lookup_eq_none.mp hk
    cases hroom : (ensure q).2 with
    | false => exact Or.inl ⟨rfl, rfl, by simp [visit, hmem, hroom]⟩
    | true =>
      have hgone : k ∉ (ensure q).1.entries := Finmap.lookup_eq_none.mp (hens.get_eq_none hk)
      exact Or.inr (Or.inr ⟨rfl, rfl, by simp [visit, hmem, hroom, hgone]⟩)

/-- A visit is refused exactly if the key is new and no room can be made. -/
theorem isSome_visit (fresh : T) (f : T → T × R) (k : K) :
    (visit ensure fresh f k q).2.isSome = (decide (k ∈ q.entries) || (ensure q).2) := by
  unfold visit
  by_cases hmem : k ∈ q.entries
  · simp [hmem]
  · cases hroom : (ensure q).2 with
    | false => simp [hmem, hroom]
    | true => simp [hmem, hroom]

/-- The result of a visit is what the function says of some entry. -/
theorem visit_result {fresh : T} {f : T → T × R} {k : K} {result : R} {inserted : Bool}
    (h : (visit ensure fresh f k q).2 = some (result, inserted)) : ∃ e, (f e).2 = result := by
  unfold visit at h
  by_cases hroom : (if k ∈ q.entries then (q, true) else ensure q).2 = false
  · rw [if_pos hroom] at h
    cases h
  · rw [if_neg hroom] at h
    exact ⟨_, (Prod.mk.inj (Option.some.inj h)).1⟩

/-- Other keys keep their entries or lose one that may go. -/
theorem get_visit_of_ne (hens : Reclaimed p q (ensure q).1) (fresh : T) (f : T → T × R)
    {k k' : K} (hne : k' ≠ k) :
    (visit ensure fresh f k q).1.get k' = q.get k' ∨
      ∃ e, q.get k' = some e ∧ p e = true ∧ (visit ensure fresh f k q).1.get k' = none := by
  have hrec := hens.get_eq_or_evicted k'
  rcases visit_cases hens fresh f k with ⟨-, -, hv⟩ | ⟨e, -, hv⟩ | ⟨-, -, hv⟩
  · rw [hv]
    exact hrec
  · rw [hv]
    exact Or.inl (get_put_of_ne q _ hne)
  · rw [hv, get_put_of_ne _ _ hne, get_push_of_ne _ _ hne]
    exact hrec

/-- The visited key: refused for want of room, or its entry, old or fresh, was
worked on. -/
theorem get_visit_self (hens : Reclaimed p q (ensure q).1) (fresh : T) (f : T → T × R) (k : K) :
    (q.get k = none ∧ (visit ensure fresh f k q).1.get k = none ∧
      (visit ensure fresh f k q).2 = none) ∨
    (∃ e, (q.get k = some e ∨ (q.get k = none ∧ e = fresh)) ∧
      (visit ensure fresh f k q).1.get k = some (f e).1 ∧
      (visit ensure fresh f k q).2 = some ((f e).2, (q.get k).isNone)) := by
  rcases visit_cases hens fresh f k with ⟨hk, -, hv⟩ | ⟨e, hk, hv⟩ | ⟨hk, -, hv⟩
  · rw [hv]
    exact Or.inl ⟨hk, hens.get_eq_none hk, rfl⟩
  · rw [hv]
    refine Or.inr ⟨e, Or.inl hk, get_put_self _ _ _, ?_⟩
    simp [hk]
  · rw [hv]
    refine Or.inr ⟨fresh, Or.inr ⟨hk, rfl⟩, get_put_self _ _ _, ?_⟩
    simp [hk]

/-- A visit turns the queue, and may put the visited key at its end. -/
theorem order_visit (hens : Reclaimed p q (ensure q).1) (fresh : T) (f : T → T × R) (k : K) :
    ∃ order, Turned q.order order ∧ ((visit ensure fresh f k q).1.order = order ∨
      (visit ensure fresh f k q).1.order = order ++ [k]) := by
  rcases visit_cases hens fresh f k with ⟨-, -, hv⟩ | ⟨e, -, hv⟩ | ⟨-, -, hv⟩
  · rw [hv]
    exact ⟨_, hens.turned, Or.inl rfl⟩
  · rw [hv]
    exact ⟨_, .refl _, Or.inl rfl⟩
  · rw [hv]
    exact ⟨_, hens.turned, Or.inr rfl⟩

end Visit

end KeyedQueue

end AlturaProt.Foundation
