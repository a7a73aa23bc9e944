import Mathlib.Data.List.Basic

/-!
# Checks in sequence

A validator that returns its first complaint is a sequence of checks in the
error monad. What it accepts is the conjunction of what its checks accept:
`bind_eq_ok`, `rejectIf_eq_ok` and `checkEach_eq_ok` take a validator apart
without unfolding the monad.
-/

namespace AlturaProt.Foundation

universe u v

variable {ε : Type u} {α β : Type v}

/-- Complain if the condition holds. -/
def rejectIf (bad : Bool) (complaint : ε) : Except ε Unit :=
  if bad then .error complaint else .ok ()

@[simp] theorem rejectIf_eq_ok {bad : Bool} {complaint : ε} :
    rejectIf bad complaint = .ok () ↔ bad = false := by
  cases bad <;> simp [rejectIf]

/-- A sequence succeeds when its first part does and the rest does from there. -/
theorem bind_eq_ok_iff {x : Except ε α} {f : α → Except ε β} {b : β} :
    (x >>= f) = .ok b ↔ ∃ a, x = .ok a ∧ f a = .ok b := by
  cases x with
  | error e => simp [bind, Except.bind]
  | ok a => simp [bind, Except.bind]

theorem map_eq_ok_iff {x : Except ε α} {f : α → β} {b : β} :
    x.map f = .ok b ↔ ∃ a, x = .ok a ∧ f a = b := by
  cases x with
  | error e => simp [Except.map]
  | ok a => simp [Except.map]

theorem mapError_eq_ok_iff {ε ε' α : Type} {x : Except ε α} {f : ε → ε'} {a : α} :
    x.mapError f = .ok a ↔ x = .ok a := by
  cases x <;> simp [Except.mapError]

@[simp] theorem bind_eq_ok {x y : Except ε Unit} :
    (x >>= fun _ => y) = .ok () ↔ x = .ok () ∧ y = .ok () := by
  rw [bind_eq_ok_iff]
  exact ⟨fun ⟨_, hx, hy⟩ => ⟨hx, hy⟩, fun ⟨hx, hy⟩ => ⟨(), hx, hy⟩⟩

/-- A complaint in front of a computation. -/
theorem rejectIf_bind_eq_ok {ε β : Type} {bad : Bool} {complaint : ε} {f : Unit → Except ε β}
    {b : β} : (rejectIf bad complaint >>= f) = .ok b ↔ bad = false ∧ f () = .ok b := by
  rw [bind_eq_ok_iff]
  constructor
  · rintro ⟨_, hbad, hrest⟩
    exact ⟨rejectIf_eq_ok.mp hbad, hrest⟩
  · rintro ⟨hbad, hrest⟩
    exact ⟨(), rejectIf_eq_ok.mpr hbad, hrest⟩

/-- Check a value that may be absent. -/
def checkSome (check : α → Except ε Unit) : Option α → Except ε Unit
  | none => .ok ()
  | some x => check x

@[simp] theorem checkSome_eq_ok {check : α → Except ε Unit} {o : Option α} :
    checkSome check o = .ok () ↔ ∀ x ∈ o, check x = .ok () := by
  cases o <;> simp [checkSome]

/-- Check every element of a list in order; the check is told the position. -/
def checkEach (check : ℕ → α → Except ε Unit) : ℕ → List α → Except ε Unit
  | _, [] => .ok ()
  | i, x :: rest => do
      check i x
      checkEach check (i + 1) rest

/-- If the verdict on an element does not depend on its position, all elements
are checked alike. -/
theorem checkEach_eq_ok (check : ℕ → α → Except ε Unit) {P : α → Prop}
    (h : ∀ i x, check i x = .ok () ↔ P x) (i : ℕ) (l : List α) :
    checkEach check i l = .ok () ↔ ∀ x ∈ l, P x := by
  induction l generalizing i with
  | nil => simp [checkEach]
  | cons x rest ih => simp [checkEach, h, ih]

/-- Every element of an accepted list passed the check at its position. -/
theorem checkEach_ok_of_mem {check : ℕ → α → Except ε Unit} {i : ℕ} {l : List α}
    (h : checkEach check i l = .ok ()) {x : α} (hx : x ∈ l) : ∃ j, check j x = .ok () := by
  induction l generalizing i with
  | nil => cases hx
  | cons y rest ih =>
    obtain ⟨hy, hrest⟩ := bind_eq_ok.mp h
    rcases List.mem_cons.mp hx with rfl | hx
    · exact ⟨i, hy⟩
    · exact ih hrest hx

/-- If every element has a result, they all have. -/
theorem mapM_eq_filterMap {α β : Type} {f : α → Option β} {l : List α}
    (h : ∀ x ∈ l, ∃ y, f x = some y) : l.mapM f = some (l.filterMap f) := by
  induction l with
  | nil => rfl
  | cons x rest ih =>
    obtain ⟨y, hy⟩ := h x List.mem_cons_self
    have hrest := ih fun x' hx' => h x' (List.mem_cons_of_mem _ hx')
    simp [List.mapM_cons, hy, hrest]

/-- A loop none of whose elements complains. -/
theorem mapM_eq_ok {ε α β : Type} {f : α → Except ε β} {g : α → β} {l : List α}
    (h : ∀ x ∈ l, f x = .ok (g x)) : l.mapM f = .ok (l.map g) := by
  induction l with
  | nil => rfl
  | cons x rest ih =>
    rw [List.mapM_cons, h x List.mem_cons_self, ih fun x' hx' => h x' (List.mem_cons_of_mem _ hx')]
    rfl

/-- The results of a loop that succeeds are those of its elements. -/
theorem mem_of_mapM_ok {ε α β : Type} {f : α → Except ε β} {l : List α} {out : List β}
    (h : l.mapM f = .ok out) :
    (∀ y ∈ out, ∃ x ∈ l, f x = .ok y) ∧ ∀ x ∈ l, ∃ y ∈ out, f x = .ok y := by
  induction l generalizing out with
  | nil =>
    cases h
    simp
  | cons x rest ih =>
    rw [List.mapM_cons] at h
    obtain ⟨y, hy, htail⟩ := bind_eq_ok_iff.mp h
    obtain ⟨ys, hys, hout⟩ := bind_eq_ok_iff.mp htail
    obtain rfl := Except.ok.inj hout
    obtain ⟨hresults, helements⟩ := ih hys
    constructor
    · intro z hz
      rcases List.mem_cons.mp hz with rfl | hz
      · exact ⟨x, List.mem_cons_self, hy⟩
      · obtain ⟨x', hx', hfx'⟩ := hresults z hz
        exact ⟨x', List.mem_cons_of_mem _ hx', hfx'⟩
    · intro x' hx'
      rcases List.mem_cons.mp hx' with rfl | hx'
      · exact ⟨y, List.mem_cons_self, hy⟩
      · obtain ⟨z, hz, hfz⟩ := helements x' hx'
        exact ⟨z, List.mem_cons_of_mem _ hz, hfz⟩

/-- What a loop keeps that may leave elements out. -/
theorem mem_of_mapM_option {ε α β : Type} {f : α → Except ε (Option β)} {P : α → Prop}
    {Q : α → β → Prop}
    (hf : ∀ x o, f x = .ok o → (∀ y ∈ o, Q x y) ∧ (o.isSome = true ↔ P x))
    {l : List α} {out : List (Option β)} (h : l.mapM f = .ok out) :
    (∀ y ∈ out.filterMap id, ∃ x ∈ l, P x ∧ Q x y) ∧
      ∀ x ∈ l, P x → ∃ y ∈ out.filterMap id, Q x y := by
  obtain ⟨hresults, helements⟩ := mem_of_mapM_ok h
  constructor
  · intro y hy
    obtain ⟨o, ho, hoy⟩ := List.mem_filterMap.mp hy
    obtain ⟨x, hx, hfx⟩ := hresults o ho
    obtain ⟨hform, hkept⟩ := hf x o hfx
    exact ⟨x, hx, hkept.mp (Option.isSome_iff_exists.mpr ⟨y, hoy⟩), hform y hoy⟩
  · intro x hx hP
    obtain ⟨o, ho, hfx⟩ := helements x hx
    obtain ⟨hform, hkept⟩ := hf x o hfx
    obtain ⟨y, rfl⟩ := Option.isSome_iff_exists.mp (hkept.mpr hP)
    exact ⟨y, List.mem_filterMap.mpr ⟨_, ho, rfl⟩, hform y rfl⟩

theorem length_of_mapM_ok {ε α β : Type} {f : α → Except ε β} {l : List α} {out : List β}
    (h : l.mapM f = .ok out) : out.length = l.length := by
  induction l generalizing out with
  | nil =>
    cases h
    rfl
  | cons x rest ih =>
    rw [List.mapM_cons] at h
    obtain ⟨y, -, htail⟩ := bind_eq_ok_iff.mp h
    obtain ⟨ys, hys, hout⟩ := bind_eq_ok_iff.mp htail
    obtain rfl := Except.ok.inj hout
    rw [List.length_cons, List.length_cons, ih hys]

/-- A loop returns if none of its elements complains, and only then. -/
theorem mapM_returns_iff {ε α β : Type} {f : α → Except ε β} {l : List α} :
    (∃ out, l.mapM f = .ok out) ↔ ∀ x ∈ l, ∃ y, f x = .ok y := by
  constructor
  · rintro ⟨out, hout⟩ x hx
    obtain ⟨y, -, hy⟩ := (mem_of_mapM_ok hout).2 x hx
    exact ⟨y, hy⟩
  · intro h
    induction l with
    | nil => exact ⟨[], rfl⟩
    | cons x rest ih =>
      obtain ⟨y, hy⟩ := h x List.mem_cons_self
      obtain ⟨ys, hys⟩ := ih fun x' hx' => h x' (List.mem_cons_of_mem _ hx')
      refine ⟨y :: ys, ?_⟩
      rw [List.mapM_cons, hy, hys]
      rfl

/-- If it does not depend on the accumulator which elements complain, a loop returns if
none does, and only then. -/
theorem foldlM_returns_iff {ε α σ : Type} {f : σ → α → Except ε σ} {P : α → Prop}
    (hf : ∀ acc x, (∃ acc', f acc x = .ok acc') ↔ P x) (l : List α) (acc : σ) :
    (∃ acc', l.foldlM f acc = .ok acc') ↔ ∀ x ∈ l, P x := by
  induction l generalizing acc with
  | nil => simp [pure, Except.pure]
  | cons x rest ih =>
    rw [List.forall_mem_cons, ← hf acc x]
    constructor
    · rintro ⟨acc', h⟩
      obtain ⟨next, hnext, hrest⟩ := bind_eq_ok_iff.mp h
      exact ⟨⟨next, hnext⟩, (ih next).mp ⟨acc', hrest⟩⟩
    · rintro ⟨⟨next, hnext⟩, hrest⟩
      obtain ⟨acc', hacc'⟩ := (ih next).mpr hrest
      exact ⟨acc', by rw [List.foldlM_cons, hnext]; exact hacc'⟩

/-- A loop that appends one result per element and may complain. -/
theorem foldlM_push {ε α β : Type} {f : List β → α → Except ε (List β)} {g : α → Option β}
    (hf : ∀ acc x acc', f acc x = .ok acc' → ∃ y, g x = some y ∧ acc' = acc ++ [y])
    {l : List α} {acc acc' : List β} (h : l.foldlM f acc = .ok acc') :
    acc' = acc ++ l.filterMap g ∧ ∀ x ∈ l, ∃ y, g x = some y := by
  induction l generalizing acc with
  | nil =>
    cases h
    simp
  | cons x rest ih =>
    obtain ⟨next, hx, hrest⟩ := bind_eq_ok_iff.mp h
    obtain ⟨y, hy, rfl⟩ := hf acc x next hx
    obtain ⟨rfl, hall⟩ := ih hrest
    refine ⟨by simp [hy], ?_⟩
    intro x' hx'
    rcases List.mem_cons.mp hx' with rfl | hx'
    · exact ⟨y, hy⟩
    · exact hall x' hx'

/-! ## Loops that remember what they saw -/

/-- A loop that checks its elements and remembers whether one of them was marked. -/
theorem foldlM_flag {ε α : Type} {f : Bool → α → Except ε Bool} {P : α → Prop} {mark : α → Bool}
    (hf : ∀ saw x b, f saw x = .ok b ↔ P x ∧ b = (saw || mark x)) (l : List α) (saw b : Bool) :
    l.foldlM f saw = .ok b ↔ (∀ x ∈ l, P x) ∧ b = (saw || l.any mark) := by
  induction l generalizing saw with
  | nil => simp [pure, Except.pure, eq_comm]
  | cons x rest ih =>
    rw [List.foldlM_cons, bind_eq_ok_iff]
    constructor
    · rintro ⟨seen, hstep, hloop⟩
      obtain ⟨hx, rfl⟩ := (hf saw x seen).mp hstep
      obtain ⟨hrest, rfl⟩ := (ih _).mp hloop
      exact ⟨List.forall_mem_cons.mpr ⟨hx, hrest⟩, by rw [List.any_cons, Bool.or_assoc]⟩
    · rintro ⟨hall, rfl⟩
      obtain ⟨hx, hrest⟩ := List.forall_mem_cons.mp hall
      exact ⟨_, (hf saw x _).mpr ⟨hx, rfl⟩,
        (ih _).mpr ⟨hrest, by rw [List.any_cons, Bool.or_assoc]⟩⟩

/-- A loop that checks its elements and stops when there are too many. -/
theorem foldlM_count {ε α : Type} {f : ℕ → α → Except ε ℕ} {P : α → Prop} {most : ℕ}
    (hf : ∀ n x m, f n x = .ok m ↔ P x ∧ n < most ∧ m = n + 1) (l : List α) (n m : ℕ) :
    l.foldlM f n = .ok m ↔ (∀ x ∈ l, P x) ∧ (l = [] ∨ n + l.length ≤ most) ∧ m = n + l.length := by
  induction l generalizing n with
  | nil => simp [pure, Except.pure, eq_comm]
  | cons x rest ih =>
    rw [List.foldlM_cons, bind_eq_ok_iff, List.length_cons]
    constructor
    · rintro ⟨next, hstep, hloop⟩
      obtain ⟨hx, hroom, rfl⟩ := (hf n x next).mp hstep
      obtain ⟨hrest, hfits, rfl⟩ := (ih _).mp hloop
      refine ⟨List.forall_mem_cons.mpr ⟨hx, hrest⟩, Or.inr ?_, by omega⟩
      rcases hfits with rfl | hfits
      · exact hroom
      · omega
    · rintro ⟨hall, hfits, rfl⟩
      obtain ⟨hx, hrest⟩ := List.forall_mem_cons.mp hall
      have hle : n + (rest.length + 1) ≤ most := by
        rcases hfits with hnil | hfits
        · cases hnil
        · exact hfits
      exact ⟨n + 1, (hf n x _).mpr ⟨hx, by omega, rfl⟩,
        (ih _).mpr ⟨hrest, Or.inr (by omega), by omega⟩⟩

end AlturaProt.Foundation
