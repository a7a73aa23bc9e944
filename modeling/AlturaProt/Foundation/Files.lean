import AlturaProt.Foundation.Text
import Mathlib.Logic.Function.Basic

/-!
# Files, names and links

A file system as far as a program sees it that reads, writes, renames and removes files by
name. A name holds a file, a symbolic link or a directory; two names can hold the same file.

Following a name visits a *trail* of names, one link after the other, and gives up after
forty links. Everything about reading goes through the trail: operations on a name change
what is read under another one exactly if they change a name on its trail or the content of
the file it ends at.
-/

namespace AlturaProt.Foundation

inductive Entry (P : Type) where
  | file (inode : ℕ)
  | link (target : P)
  | dir
deriving DecidableEq

namespace Entry

variable {P : Type}

/-- Where a link leads. -/
def target? : Entry P → Option P
  | link target => some target
  | _ => none

def inode? : Entry P → Option ℕ
  | file inode => some inode
  | _ => none

end Entry

/-- Names of type `P`, and the contents of the files. -/
structure FileSystem (P : Type) where
  entry : P → Option (Entry P)
  content : ℕ → Str
  /-- the number of the next file -/
  next : ℕ
  fresh : ∀ p i, entry p = some (.file i) → i < next

namespace FileSystem

variable {P : Type}

/-! ## Following a name -/

/-- Where the link at a name leads. -/
def linkAt (files : FileSystem P) (p : P) : Option P := (files.entry p).bind Entry.target?

/-- The names that are visited from a name on, with at most `fuel` of them. -/
def trail (files : FileSystem P) : ℕ → P → Option (List P)
  | 0, _ => none
  | fuel + 1, p =>
    match files.linkAt p with
    | some target => (files.trail fuel target).map (p :: ·)
    | none => some [p]

/-- A name, and forty links. -/
def MAX_TRAIL : ℕ := 41

/-- Following `p` visits `q`. -/
def Visits (files : FileSystem P) (p q : P) : Prop := ∃ names ∈ files.trail MAX_TRAIL p, q ∈ names

/-- The name that a name stands for. -/
def target (files : FileSystem P) (p : P) : Option P := (files.trail MAX_TRAIL p).bind List.getLast?

def inodeAt (files : FileSystem P) (p : P) : Option ℕ := (files.entry p).bind Entry.inode?

/-- The file that is opened under a name. -/
def fileAt (files : FileSystem P) (p : P) : Option ℕ := (files.target p).bind files.inodeAt

def read (files : FileSystem P) (p : P) : Option Str := (files.fileAt p).map files.content

variable {files files' : FileSystem P} {p q r : P} {names : List P} {n m : ℕ}

theorem trail_of_link (h : files.linkAt p = some q) :
    files.trail (n + 1) p = (files.trail n q).map (p :: ·) := by
  rw [trail, h]

theorem trail_of_no_link (h : files.linkAt p = none) : files.trail (n + 1) p = some [p] := by
  rw [trail, h]

/-- A trail starts at its name, and goes on if there is a link. -/
theorem trail_cases (h : files.trail n p = some names) :
    ∃ k, n = k + 1 ∧ ((files.linkAt p = none ∧ names = [p]) ∨
      ∃ next rest, files.linkAt p = some next ∧ files.trail k next = some rest ∧
        names = p :: rest) := by
  cases n with
  | zero => cases h
  | succ k =>
    refine ⟨k, rfl, ?_⟩
    cases hlink : files.linkAt p with
    | none =>
      rw [trail_of_no_link hlink, Option.some.injEq] at h
      exact .inl ⟨rfl, h.symm⟩
    | some next =>
      rw [trail_of_link hlink, Option.map_eq_some_iff] at h
      obtain ⟨rest, hrest, rfl⟩ := h
      exact .inr ⟨next, rest, rfl, hrest, rfl⟩

theorem trail_mono (h : files.trail n p = some names) (hle : n ≤ m) :
    files.trail m p = some names := by
  induction n generalizing p names m with
  | zero => cases h
  | succ k ih =>
    obtain ⟨m, rfl⟩ : ∃ m', m = m' + 1 := ⟨m - 1, by omega⟩
    obtain ⟨_, hk, ⟨hlink, rfl⟩ | ⟨next, rest, hlink, hrest, rfl⟩⟩ := trail_cases h
    · exact trail_of_no_link hlink
    · obtain rfl := Nat.succ.inj hk
      rw [trail_of_link hlink, ih hrest (Nat.le_of_succ_le_succ hle)]
      rfl

theorem head_mem_trail (h : files.trail n p = some names) : p ∈ names := by
  obtain ⟨_, -, ⟨-, rfl⟩ | ⟨_, _, -, -, rfl⟩⟩ := trail_cases h
  · exact List.mem_singleton_self _
  · exact List.mem_cons_self

/-- From a name on the way, the rest of the trail is followed. -/
theorem trail_of_mem (h : files.trail n p = some names) (hq : q ∈ names) :
    ∃ rest, rest <:+ names ∧ files.trail n q = some rest := by
  induction n generalizing p names with
  | zero => cases h
  | succ k ih =>
    obtain ⟨_, hk, ⟨hlink, rfl⟩ | ⟨next, rest, hlink, hrest, rfl⟩⟩ := trail_cases h
    · rw [List.mem_singleton.mp hq]
      exact ⟨_, List.suffix_refl _, h⟩
    · obtain rfl := Nat.succ.inj hk
      rcases List.mem_cons.mp hq with rfl | hq
      · exact ⟨_, List.suffix_refl _, h⟩
      · obtain ⟨rest', hsuffix, hrest'⟩ := ih hrest hq
        exact ⟨rest', hsuffix.trans (List.suffix_cons _ _), trail_mono hrest' (Nat.le_succ _)⟩

/-- A trail does not come back to where it started. -/
theorem not_mem_trail_of_link (h : files.trail (n + 1) p = some (p :: names))
    (hrest : files.trail n q = some names) : p ∉ names := by
  intro hmem
  obtain ⟨again, hsuffix, hagain⟩ := trail_of_mem hrest hmem
  have heq : p :: names = again :=
    Option.some.inj (h.symm.trans (trail_mono hagain (Nat.le_succ n)))
  have hlength := hsuffix.length_le
  rw [← heq, List.length_cons] at hlength
  omega

/-- A trail depends on the links of the names that it visits. -/
theorem trail_congr (h : files.trail n p = some names)
    (hlinks : ∀ q ∈ names, files'.linkAt q = files.linkAt q) :
    files'.trail n p = some names := by
  induction n generalizing p names with
  | zero => cases h
  | succ k ih =>
    have hp := hlinks p (head_mem_trail h)
    obtain ⟨_, hk, ⟨hlink, rfl⟩ | ⟨next, rest, hlink, hrest, rfl⟩⟩ := trail_cases h
    · exact trail_of_no_link (hp.trans hlink)
    · obtain rfl := Nat.succ.inj hk
      rw [trail_of_link (hp.trans hlink), ih hrest fun q hq => hlinks q (List.mem_cons_of_mem _ hq)]
      rfl

theorem trail_eq_of_links (h : ∀ q, files'.linkAt q = files.linkAt q) (n : ℕ) (p : P) :
    files'.trail n p = files.trail n p := by
  induction n generalizing p with
  | zero => rfl
  | succ k ih =>
    cases hlink : files.linkAt p with
    | none => rw [trail_of_no_link hlink, trail_of_no_link ((h p).trans hlink)]
    | some next => rw [trail_of_link hlink, trail_of_link ((h p).trans hlink), ih next]

/-- A name on the way is still visited if no link before it has changed. -/
theorem mem_trail_congr (h : files.trail n p = some names) (hq : q ∈ names)
    (hlinks : ∀ r ∈ names, r ≠ q → files'.linkAt r = files.linkAt r) {names' : List P}
    (h' : files'.trail n p = some names') : q ∈ names' := by
  induction n generalizing p names names' with
  | zero => cases h
  | succ k ih =>
    by_cases hpq : p = q
    · exact hpq ▸ head_mem_trail h'
    · have hp := hlinks p (head_mem_trail h) hpq
      obtain ⟨_, hk, ⟨hlink, rfl⟩ | ⟨next, rest, hlink, hrest, rfl⟩⟩ := trail_cases h
      · exact absurd (List.mem_singleton.mp hq).symm hpq
      · obtain rfl := Nat.succ.inj hk
        rw [trail_of_link (hp.trans hlink), Option.map_eq_some_iff] at h'
        obtain ⟨rest', hrest', rfl⟩ := h'
        have hq := (List.mem_cons.mp hq).resolve_left (Ne.symm hpq)
        exact List.mem_cons_of_mem _
          (ih hrest hq (fun r hr => hlinks r (List.mem_cons_of_mem _ hr)) hrest')

/-! ## What a name stands for -/

theorem target_of_trail (h : files.trail MAX_TRAIL p = some names) :
    files.target p = names.getLast? := by
  rw [target, h]
  rfl

theorem exists_trail (h : files.target p = some q) :
    ∃ names, files.trail MAX_TRAIL p = some names ∧ names.getLast? = some q := by
  obtain ⟨names, hnames, hlast⟩ := Option.bind_eq_some_iff.mp h
  exact ⟨names, hnames, hlast⟩

theorem exists_target (h : files.fileAt p = some n) :
    ∃ q, files.target p = some q ∧ files.entry q = some (.file n) := by
  obtain ⟨q, hq, hinode⟩ := Option.bind_eq_some_iff.mp h
  obtain ⟨entry, hentry, hfile⟩ := Option.bind_eq_some_iff.mp hinode
  cases entry with
  | file i => exact ⟨q, hq, by rw [hentry, Option.some.inj hfile]⟩
  | _ => cases hfile

theorem target_of_no_link (h : files.linkAt p = none) : files.target p = some p := by
  rw [target_of_trail (trail_of_no_link h)]
  rfl

/-- A name on the way stands for the same name. -/
theorem Visits.target_eq (h : files.Visits p q) : files.target q = files.target p := by
  obtain ⟨names, hnames, hq⟩ := h
  obtain ⟨rest, ⟨start, rfl⟩, hrest⟩ := trail_of_mem hnames hq
  have hne : rest ≠ [] := List.ne_nil_of_mem (head_mem_trail hrest)
  rw [target_of_trail hrest, target_of_trail hnames, List.getLast?_append_of_ne_nil _ hne]

theorem Visits.fileAt_eq (h : files.Visits p q) : files.fileAt q = files.fileAt p := by
  rw [fileAt, h.target_eq, fileAt]

theorem exists_trail_of_fileAt (h : files.fileAt p = some n) :
    ∃ names, files.trail MAX_TRAIL p = some names := by
  obtain ⟨q, hq, -⟩ := exists_target h
  obtain ⟨names, hnames, -⟩ := exists_trail hq
  exact ⟨names, hnames⟩

/-- A name where a file is opened holds no directory. -/
theorem entry_ne_dir (h : files.fileAt p = some n) : files.entry p ≠ some .dir := by
  intro hdir
  have hlink : files.linkAt p = none := by rw [linkAt, hdir]; rfl
  rw [fileAt, target_of_no_link hlink] at h
  simp [inodeAt, hdir, Entry.inode?] at h

/-! ## Operations -/

/-- The file has another content. -/
def setContent (files : FileSystem P) (inode : ℕ) (text : Str) : FileSystem P :=
  { files with content := Function.update files.content inode text }

theorem content_setContent (files : FileSystem P) (i n : ℕ) (text : Str) :
    (files.setContent i text).content n = if n = i then text else files.content n :=
  Function.update_apply ..

section Operations

variable [DecidableEq P] {text : Str}

/-- A new file at a name. -/
def create (files : FileSystem P) (p : P) (text : Str) : FileSystem P where
  entry := Function.update files.entry p (some (.file files.next))
  content := Function.update files.content files.next text
  next := files.next + 1
  fresh q i h := by
    by_cases hq : q = p
    · rw [hq, Function.update_self] at h
      cases h
      exact Nat.lt_succ_self _
    · rw [Function.update_of_ne hq] at h
      exact Nat.lt_succ_of_lt (files.fresh q i h)

/-- Another entry at a name. -/
def put (files : FileSystem P) (p : P) (entry : Option (Entry P))
    (hold : ∀ i, entry = some (.file i) → i < files.next) : FileSystem P where
  entry := Function.update files.entry p entry
  content := files.content
  next := files.next
  fresh q i h := by
    by_cases hq : q = p
    · rw [hq, Function.update_self] at h
      exact hold i h
    · rw [Function.update_of_ne hq] at h
      exact files.fresh q i h

def erase (files : FileSystem P) (p : P) : FileSystem P := files.put p none nofun

/-- The entry of a name is put at another one. -/
def move (files : FileSystem P) (p q : P) : FileSystem P :=
  (files.put q (files.entry p) (files.fresh p)).erase p

/-- `fs::write`: links are followed, and a missing file is created. -/
def write (files : FileSystem P) (p : P) (text : Str) : Option (FileSystem P) :=
  (files.target p).bind fun q =>
    match files.entry q with
    | some (.file inode) => some (files.setContent inode text)
    | none => some (files.create q text)
    | _ => none

/-- `fs::remove_file`: a link is removed itself. -/
def remove (files : FileSystem P) (p : P) : Option (FileSystem P) :=
  if files.entry p = none ∨ files.entry p = some .dir then none else some (files.erase p)

/-- `fs::rename`: a link is moved itself, and two names of one file are left as they are.
Directories are not moved here. -/
def rename (files : FileSystem P) (p q : P) : Option (FileSystem P) :=
  if files.entry p = none ∨ files.entry p = some .dir then none
  else if p = q then some files
  else if files.entry q = some .dir then none
  else if (files.inodeAt p).isSome ∧ files.inodeAt p = files.inodeAt q then some files
  else some (files.move p q)

theorem entry_erase (files : FileSystem P) (p q : P) :
    (files.erase p).entry q = if q = p then none else files.entry q :=
  Function.update_apply ..

theorem entry_move (files : FileSystem P) (p q r : P) :
    (files.move p q).entry r =
      if r = p then none else if r = q then files.entry p else files.entry r := by
  rw [move, entry_erase]
  exact congrArg _ (Function.update_apply ..)

theorem content_create (files : FileSystem P) (q : P) (n : ℕ) (text : Str) :
    (files.create q text).content n = if n = files.next then text else files.content n :=
  Function.update_apply ..

theorem entry_create (files : FileSystem P) (p q : P) (text : Str) :
    (files.create p text).entry q = if q = p then some (.file files.next) else files.entry q :=
  Function.update_apply ..

/-! ### Writing -/

theorem write_cases (h : files.write p text = some files') :
    ∃ q, files.target p = some q ∧
      ((∃ i, files.entry q = some (.file i) ∧ files' = files.setContent i text) ∨
        files.entry q = none ∧ files' = files.create q text) := by
  obtain ⟨q, hq, hwrite⟩ := Option.bind_eq_some_iff.mp h
  refine ⟨q, hq, ?_⟩
  cases hentry : files.entry q with
  | none =>
    rw [hentry] at hwrite
    exact .inr ⟨rfl, (Option.some.inj hwrite).symm⟩
  | some entry =>
    rw [hentry] at hwrite
    cases entry with
    | file i => exact .inl ⟨i, rfl, (Option.some.inj hwrite).symm⟩
    | _ => cases hwrite

theorem exists_write (h : files.fileAt p = some n) (text : Str) :
    ∃ files', files.write p text = some files' := by
  obtain ⟨q, hq, hentry⟩ := exists_target h
  exact ⟨_, by rw [write, hq, Option.bind_some, hentry]⟩

/-- Writing changes no trail. -/
theorem trail_write (h : files.write p text = some files') (n : ℕ) (r : P) :
    files'.trail n r = files.trail n r := by
  obtain ⟨q, -, ⟨i, -, rfl⟩ | ⟨hentry, rfl⟩⟩ := write_cases h
  · have hlinks : ∀ q', (files.setContent i text).linkAt q' = files.linkAt q' := fun _ => rfl
    exact trail_eq_of_links hlinks n r
  · refine trail_eq_of_links (fun q' => ?_) n r
    rw [linkAt, entry_create, linkAt]
    split
    · rename_i hq
      rw [hq, hentry]
      rfl
    · rfl

theorem target_write (h : files.write p text = some files') (r : P) :
    files'.target r = files.target r := by
  rw [target, trail_write h, target]

theorem visits_write (h : files.write p text = some files') (r q : P) :
    files'.Visits r q ↔ files.Visits r q := by
  rw [Visits, trail_write h, Visits]

/-- What is written is read. -/
theorem read_write (h : files.write p text = some files') : files'.read p = some text := by
  have htarget := target_write h p
  obtain ⟨q, hq, ⟨i, hentry, rfl⟩ | ⟨hentry, rfl⟩⟩ := write_cases h
  · rw [read, fileAt, htarget, hq]
    simp [inodeAt, setContent, hentry, Entry.inode?]
  · rw [read, fileAt, htarget, hq]
    simp [inodeAt, entry_create, content_create, Entry.inode?]

/-- A file stays where it is. -/
theorem fileAt_write (h : files.write p text = some files') (hr : files.fileAt r = some n) :
    files'.fileAt r = some n := by
  have htarget := target_write h r
  obtain ⟨t, ht, hfile⟩ := exists_target hr
  obtain ⟨q, -, ⟨i, -, rfl⟩ | ⟨hentry, rfl⟩⟩ := write_cases h
  · exact hr
  · have hne : t ≠ q := fun heq => by simp [heq, hentry] at hfile
    rw [fileAt, htarget, ht]
    simp [inodeAt, entry_create, hne, hfile, Entry.inode?]

/-- The content of a file changes if it is the one that is written to. -/
theorem content_write (h : files.write p text = some files') (hr : files.fileAt r = some n) :
    files'.content n = if files.fileAt p = some n then text else files.content n := by
  obtain ⟨q, hq, ⟨i, hentry, rfl⟩ | ⟨hentry, rfl⟩⟩ := write_cases h
  · have hfile : files.fileAt p = some i := by
      rw [fileAt, hq]
      simp [inodeAt, hentry, Entry.inode?]
    rw [hfile, content_setContent]
    simp only [Option.some.injEq, eq_comm]
  · have hfile : files.fileAt p = none := by
      rw [fileAt, hq]
      simp [inodeAt, hentry]
    obtain ⟨t, -, ht⟩ := exists_target hr
    have hold : n ≠ files.next := (files.fresh t n ht).ne
    rw [hfile, content_create, if_neg hold, if_neg nofun]

/-- Writing to one file leaves the others. -/
theorem read_write_other (h : files.write p text = some files') (hr : files.fileAt r = some n)
    (hne : files.fileAt p ≠ files.fileAt r) : files'.read r = files.read r := by
  rw [read, fileAt_write h hr, read, hr, Option.map_some, Option.map_some, content_write h hr,
    if_neg (hr ▸ hne)]

/-- A file has one content under all its names. -/
theorem read_write_same (h : files.write p text = some files') (hr : files.fileAt r = some n)
    (heq : files.fileAt p = files.fileAt r) : files'.read r = some text := by
  rw [read, fileAt_write h hr, Option.map_some, content_write h hr, if_pos (heq.trans hr)]

/-- There is something to rename or remove where was written. -/
theorem entry_write (h : files.write p text = some files') :
    ¬ (files'.entry p = none ∨ files'.entry p = some .dir) := by
  have hread := read_write h
  obtain ⟨i, hi, -⟩ := Option.map_eq_some_iff.mp hread
  rintro (hnone | hdir)
  · have hlink : files'.linkAt p = none := by rw [linkAt, hnone]; rfl
    rw [fileAt, target_of_no_link hlink] at hi
    simp [inodeAt, hnone] at hi
  · exact entry_ne_dir hi hdir

/-! ### Removing -/

theorem linkAt_erase_of_ne (h : q ≠ p) : (files.erase p).linkAt q = files.linkAt q := by
  rw [linkAt, entry_erase, if_neg h, linkAt]

theorem inodeAt_erase_of_ne (h : q ≠ p) : (files.erase p).inodeAt q = files.inodeAt q := by
  rw [inodeAt, entry_erase, if_neg h, inodeAt]

/-- A name is read as before if what is removed is not on its trail. -/
theorem read_erase (hr : files.fileAt r = some n) (hvisits : ¬ files.Visits r p) :
    (files.erase p).read r = files.read r := by
  obtain ⟨names, hnames⟩ := exists_trail_of_fileAt hr
  have havoids : ∀ q ∈ names, q ≠ p := fun q hq heq => hvisits ⟨names, hnames, heq ▸ hq⟩
  have htrail : (files.erase p).trail MAX_TRAIL r = some names :=
    trail_congr hnames fun q hq => linkAt_erase_of_ne (havoids q hq)
  obtain ⟨t, ht, -⟩ := exists_target hr
  have hlast := ht
  rw [target_of_trail hnames] at hlast
  have hfile : (files.erase p).fileAt r = files.fileAt r := by
    rw [fileAt, target_of_trail htrail, hlast, fileAt, ht]
    exact inodeAt_erase_of_ne (havoids t (List.mem_of_getLast? hlast))
  rw [read, hfile, read]
  rfl

/-- Nothing is read any more if it is. -/
theorem read_erase_of_visits (hvisits : files.Visits r p) : (files.erase p).read r = none := by
  obtain ⟨names, hnames, hp⟩ := hvisits
  have hlink : (files.erase p).linkAt p = none := by simp [linkAt, entry_erase]
  have hfile : (files.erase p).fileAt r = none := by
    cases htrail : (files.erase p).trail MAX_TRAIL r with
    | none => rw [fileAt, target, htrail]; rfl
    | some names' =>
      have hmem := mem_trail_congr hnames hp (fun q _ hq => linkAt_erase_of_ne hq) htrail
      have hvisits' : (files.erase p).Visits r p := ⟨names', htrail, hmem⟩
      rw [fileAt, ← hvisits'.target_eq, target_of_no_link hlink]
      simp [inodeAt, entry_erase]
  rw [read, hfile]
  rfl

/-! ### Renaming -/

theorem rename_cases (h : files.rename p q = some files') :
    (files' = files ∧ (p = q ∨ (files.inodeAt p).isSome ∧ files.inodeAt p = files.inodeAt q)) ∨
      p ≠ q ∧ files' = files.move p q := by
  unfold rename at h
  split at h
  · cases h
  · split at h
    · rename_i hpq
      exact .inl ⟨(Option.some.inj h).symm, .inl hpq⟩
    · rename_i hpq
      split at h
      · cases h
      · split at h
        · rename_i hsame
          exact .inl ⟨(Option.some.inj h).symm, .inr hsame⟩
        · exact .inr ⟨hpq, (Option.some.inj h).symm⟩

theorem rename_self (h : ¬ (files.entry p = none ∨ files.entry p = some .dir)) :
    files.rename p p = some files := by
  rw [rename, if_neg h, if_pos rfl]

theorem exists_rename (h : ¬ (files.entry p = none ∨ files.entry p = some .dir))
    (hq : files.entry q ≠ some .dir) : ∃ files', files.rename p q = some files' := by
  rw [rename, if_neg h, if_neg hq]
  split
  · exact ⟨_, rfl⟩
  · split
    · exact ⟨_, rfl⟩
    · exact ⟨_, rfl⟩

theorem entry_move_self (hpq : p ≠ q) : (files.move p q).entry q = files.entry p := by
  rw [entry_move, if_neg hpq.symm, if_pos rfl]

theorem entry_move_of_ne (hp : r ≠ p) (hq : r ≠ q) : (files.move p q).entry r = files.entry r := by
  rw [entry_move, if_neg hp, if_neg hq]

theorem linkAt_move_of_ne (hp : r ≠ p) (hq : r ≠ q) :
    (files.move p q).linkAt r = files.linkAt r := by
  rw [linkAt, entry_move_of_ne hp hq, linkAt]

theorem linkAt_move (hpq : p ≠ q) : (files.move p q).linkAt q = files.linkAt p := by
  rw [linkAt, entry_move_self hpq, linkAt]

/-- What a name led to is found under the new one, unless the way there passes it. -/
theorem fileAt_move (hpq : p ≠ q) (hp : files.fileAt p = some n) (hvisits : ¬ files.Visits p q) :
    (files.move p q).fileAt q = some n := by
  obtain ⟨names, hnames⟩ := exists_trail_of_fileAt hp
  obtain ⟨t, ht, hfile⟩ := exists_target hp
  have hlast := ht
  rw [target_of_trail hnames] at hlast
  obtain ⟨_, hk, ⟨hlink, rfl⟩ | ⟨next, rest, hlink, hrest, rfl⟩⟩ := trail_cases hnames
  · obtain rfl : p = t := Option.some.inj hlast
    rw [fileAt, target_of_no_link ((linkAt_move hpq).trans hlink)]
    simp [inodeAt, entry_move_self hpq, hfile, Entry.inode?]
  · obtain rfl := Nat.succ.inj hk
    have hne : rest ≠ [] := List.ne_nil_of_mem (head_mem_trail hrest)
    rw [List.getLast?_cons_of_ne_nil hne] at hlast
    have hnotp : ∀ r ∈ rest, r ≠ p := fun r hr heq =>
      not_mem_trail_of_link hnames hrest (heq ▸ hr)
    have hnotq : ∀ r ∈ rest, r ≠ q := fun r hr heq =>
      hvisits ⟨_, hnames, List.mem_cons_of_mem _ (heq ▸ hr)⟩
    have hrest' := trail_congr hrest fun r hr => linkAt_move_of_ne (hnotp r hr) (hnotq r hr)
    have htrail : (files.move p q).trail MAX_TRAIL q = some (q :: rest) := by
      rw [MAX_TRAIL, trail_of_link ((linkAt_move hpq).trans hlink), hrest']
      rfl
    have htmem := List.mem_of_getLast? hlast
    rw [fileAt, target_of_trail htrail, List.getLast?_cons_of_ne_nil hne, hlast]
    simp [inodeAt, entry_move_of_ne (hnotp t htmem) (hnotq t htmem), hfile, Entry.inode?]

/-- A link that is put on its own way leads nowhere. -/
theorem fileAt_move_of_visits (hpq : p ≠ q) (hvisits : files.Visits p q) :
    (files.move p q).fileAt q = none := by
  obtain ⟨names, hnames, hq⟩ := hvisits
  obtain ⟨_, hk, ⟨hlink, rfl⟩ | ⟨next, rest, hlink, hrest, rfl⟩⟩ := trail_cases hnames
  · exact absurd (List.mem_singleton.mp hq).symm hpq
  · obtain rfl := Nat.succ.inj hk
    have hq := (List.mem_cons.mp hq).resolve_left hpq.symm
    have hnotp : ∀ r ∈ rest, r ≠ p := fun r hr heq =>
      not_mem_trail_of_link hnames hrest (heq ▸ hr)
    cases htrail : (files.move p q).trail MAX_TRAIL q with
    | none => rw [fileAt, target, htrail]; rfl
    | some names' =>
      have hlink' := (linkAt_move hpq).trans hlink
      have hstep := htrail
      rw [MAX_TRAIL, trail_of_link hlink', Option.map_eq_some_iff] at hstep
      obtain ⟨rest', hrest', rfl⟩ := hstep
      have hmem := mem_trail_congr hrest hq
        (fun r hr hne => linkAt_move_of_ne (hnotp r hr) hne) hrest'
      exact absurd hmem (not_mem_trail_of_link htrail hrest')

omit [DecidableEq P] in
/-- A name that holds a file is no link. -/
theorem linkAt_of_inodeAt (h : (files.inodeAt p).isSome = true) : files.linkAt p = none := by
  obtain ⟨i, hi⟩ := Option.isSome_iff_exists.mp h
  obtain ⟨entry, hentry, hi⟩ := Option.bind_eq_some_iff.mp hi
  cases entry with
  | file j =>
    rw [linkAt, hentry]
    rfl
  | _ => cases hi

theorem read_rename (h : files.rename p q = some files') (hp : files.fileAt p = some n)
    (hvisits : p = q ∨ ¬ files.Visits p q) : files'.read q = files.read p := by
  obtain ⟨rfl, rfl | ⟨hfile, hsame⟩⟩ | ⟨hpq, rfl⟩ := rename_cases h
  · rfl
  · -- both names hold the file
    rw [read, fileAt, target_of_no_link (linkAt_of_inodeAt (hsame ▸ hfile)), read, fileAt,
      target_of_no_link (linkAt_of_inodeAt hfile)]
    simp [hsame]
  · rw [read, fileAt_move hpq hp (hvisits.resolve_left hpq), read, hp]
    rfl

theorem read_rename_of_visits (h : files.rename p q = some files') (hpq : p ≠ q)
    (hvisits : files.Visits p q) : files'.read q = none := by
  obtain ⟨rfl, rfl | ⟨hfile, -⟩⟩ | ⟨-, rfl⟩ := rename_cases h
  · exact absurd rfl hpq
  · -- the way from a file ends at once
    obtain ⟨names, hnames, hq⟩ := hvisits
    rw [MAX_TRAIL, trail_of_no_link (linkAt_of_inodeAt hfile)] at hnames
    rw [← Option.some.inj hnames] at hq
    exact absurd (List.mem_singleton.mp hq).symm hpq
  · rw [read, fileAt_move_of_visits hpq hvisits]
    rfl

end Operations

end FileSystem

end AlturaProt.Foundation
