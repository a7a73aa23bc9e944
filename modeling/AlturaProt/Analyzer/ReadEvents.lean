import AlturaProt.Analyzer.Coverage
import AlturaProt.Foundation.Glob
import AlturaProt.Telemetry.EventLog

/-!
# Reading the event log

`read_events` of `tools/codex_analyzer.py` finds the backups of a log with a
glob pattern made of its name, orders them by number and keeps the last lines of
what it reads. It is the other end of the worker's rotation: the lines it reads
are those of the rotation, in order (`event_log_tail`), as long as the pattern
finds the backups.
-/

namespace AlturaProt.Analyzer

open Foundation Foundation.Python Telemetry

variable {F : Type}

/-! ## The reader -/

/-- What the reader uses of the interpreter, and what is documented of it. -/
structure ReaderRuntime (F : Type) where
  /-- `bytes.decode("utf-8", "replace")` -/
  decode : Str → PyStr
  /-- the table of `str.isdigit` -/
  isDigit : ℕ → Bool
  /-- `int(s)` -/
  int : PyStr → Except PyError ℤ
  /-- `json.loads`; `none` for a `JSONDecodeError` -/
  loads : PyStr → Except PyError (Option (PyValue F))
  decode_encode : ∀ text bytes, encode text = some bytes → decode bytes = text
  isDigit_ascii : ∀ c, 0x30 ≤ c → c ≤ 0x39 → isDigit c = true
  int_decimal : ∀ n < 2 ^ 32, int (decimal n) = .ok n

/-- Universal newlines: `\r` and `\r\n` are read as `\n`. -/
def translateNewlines : PyStr → PyStr
  | 0x0D :: 0x0A :: rest => 0x0A :: translateNewlines rest
  | c :: rest => (if c = 0x0D then 0x0A else c) :: translateNewlines rest
  | [] => []

/-- The lines of a text, with their ends. -/
def splitLines : PyStr → List PyStr
  | [] => []
  | c :: rest =>
    if c = 0x0A then [c] :: splitLines rest
    else match splitLines rest with
      | [] => [[c]]
      | line :: lines => (c :: line) :: lines

/-- Append to a `deque` with a `maxlen`. -/
def dequeAppend {α : Type} (maxlen : ℕ) (q : List α) (x : α) : List α :=
  if q.length < maxlen then q ++ [x] else q.tail ++ [x]

/-- A value that is a dictionary with a text for a signature. -/
def signedEvent : PyValue F → Option (SignedEvent F)
  | .dict fields =>
    match h : PyDict.getD fields "signature" .none with
    | .str signature => some ⟨fields, signature, h⟩
    | _ => none
  | _ => none

namespace ReaderRuntime

variable (rt : ReaderRuntime F)

/-- The number of a backup, if the name is one of a backup. -/
def backupOf (path candidate : FileName) : Except PyError (Option (ℤ ×ₗ FileName)) :=
  let front := path ++ [0x2E]
  if front.isPrefixOf candidate then
    let suffix := candidate.drop front.length
    if !suffix.isEmpty && suffix.all rt.isDigit then do
      let number ← rt.int suffix
      return some (toLex (number, candidate))
    else .ok none
  else .ok none

/-- `event_log_paths`, in a directory with the given names. -/
def eventLogPaths (names : List FileName) (path : FileName) :
    Except PyError (List FileName) := do
  let found ← glob (path ++ [0x2E, 0x2A]) names
  let backups ← found.mapM (rt.backupOf path)
  let sorted := (backups.filterMap id).insertionSort fun a b => b ≤ a
  return sorted.map (fun backup => (ofLex backup).2) ++ [path]

/-- The lines of a file, if it is there. -/
def fileLines (dir : Dir) (name : FileName) : List PyStr :=
  match dir name with
  | none => []
  | some content => splitLines (translateNewlines (rt.decode content))

/-- `read_events`; a `deque` is at most `sys.maxsize` long. -/
def readEvents (dir : Dir) (names : List FileName) (path : FileName) (maxEvents : ℤ) :
    Except PyError (List (SignedEvent F)) := do
  if maxEvents ≤ 0 then return []
  if 2 ^ 63 ≤ maxEvents then throw .overflowError
  let paths ← rt.eventLogPaths names path
  let lines := (paths.flatMap (rt.fileLines dir)).foldl (dequeAppend maxEvents.toNat) []
  let values ← lines.mapM rt.loads
  return values.filterMap fun value => value.bind signedEvent

end ReaderRuntime

/-! ## Lines -/

theorem translateNewlines_eq_self {text : PyStr} (h : 0x0D ∉ text) :
    translateNewlines text = text := by
  induction text using translateNewlines.induct with
  | case1 rest ih => exact absurd List.mem_cons_self h
  | case2 c rest hnot ih =>
    rw [List.mem_cons, not_or] at h
    rw [translateNewlines, if_neg (Ne.symm h.1), ih h.2]
    exact hnot
  | case3 => rfl

theorem splitLines_append {line : PyStr} (h : 0x0A ∉ line) (rest : PyStr) :
    splitLines (line ++ 0x0A :: rest) = (line ++ [0x0A]) :: splitLines rest := by
  induction line with
  | nil => rfl
  | cons c line ih =>
    rw [List.mem_cons, not_or] at h
    rw [List.cons_append, splitLines, if_neg (Ne.symm h.1), ih h.2]
    rfl

/-- A `deque` keeps the last items. -/
theorem foldl_dequeAppend {α : Type} {maxlen : ℕ} (hmax : 1 ≤ maxlen) (items : List α) :
    items.foldl (dequeAppend maxlen) [] = lastItems maxlen items := by
  induction items using List.reverseRecOn with
  | nil => simp [lastItems]
  | append_singleton items x ih =>
    rw [List.foldl_append, ih, List.foldl_cons, List.foldl_nil, dequeAppend]
    have hlength : (lastItems maxlen items).length = min maxlen items.length := by
      rw [lastItems, List.length_drop]
      omega
    rw [hlength]
    unfold lastItems
    rw [List.length_append, List.length_singleton]
    split
    · rw [show items.length - maxlen = 0 by omega, show items.length + 1 - maxlen = 0 by omega,
        List.drop_zero, List.drop_zero]
    · rw [List.tail_drop, show items.length + 1 - maxlen = items.length - maxlen + 1 by omega,
        List.drop_append_of_le_length (by omega)]

theorem encode_append {s t : PyStr} {a b : Str} (hs : encode s = some a)
    (ht : encode t = some b) : encode (s ++ t) = some (a ++ b) := by
  induction s generalizing a with
  | nil =>
    obtain rfl := Option.some.inj hs
    exact ht
  | cons c rest ih =>
    obtain ⟨first, hfirst, hrest⟩ := Option.bind_eq_some_iff.mp hs
    obtain ⟨others, hothers, rfl⟩ := Option.map_eq_some_iff.mp hrest
    rw [List.cons_append, encode, hfirst, Option.bind_some, ih hothers, Option.map_some,
      List.append_assoc]

/-! ## Events in lines -/

/-- An event as it is logged: it is written as one line of JSON, which the reader
loads as a dictionary with a signature. -/
structure LoggedEvent (rt : ReaderRuntime F) where
  text : PyStr
  line : Str
  event : SignedEvent F
  encoded : encode text = some line
  noNewline : 0x0A ∉ text
  noReturn : 0x0D ∉ text
  loaded : rt.loads (text ++ [0x0A]) = .ok (some (.dict event.fields))

theorem signedEvent_fields (event : SignedEvent F) :
    signedEvent (.dict event.fields) = some event := by
  obtain ⟨fields, signature, hsigned⟩ := event
  unfold signedEvent
  dsimp only
  split
  · rename_i other hother
    obtain rfl := PyValue.str.inj (hother.symm.trans hsigned)
    rfl
  · rename_i hnot
    exact absurd hsigned (hnot signature)

variable {rt : ReaderRuntime F}

/-- The reader finds the lines that were written. -/
theorem lines_fileOf (events : List (LoggedEvent rt)) :
    splitLines (translateNewlines (rt.decode (fileOf (events.map LoggedEvent.line)))) =
      events.map (fun e => e.text ++ [0x0A]) := by
  have hencoded : encode (events.flatMap fun e => e.text ++ [0x0A]) =
      some (fileOf (events.map LoggedEvent.line)) := by
    induction events with
    | nil => rfl
    | cons e rest ih => exact encode_append (encode_append e.encoded rfl) ih
  rw [rt.decode_encode _ _ hencoded, translateNewlines_eq_self]
  · clear hencoded
    induction events with
    | nil => rfl
    | cons e rest ih =>
      rw [List.flatMap_cons, List.append_assoc, List.singleton_append,
        splitLines_append e.noNewline, ih, List.map_cons]
  · intro hmem
    obtain ⟨e, -, he⟩ := List.mem_flatMap.mp hmem
    rcases List.mem_append.mp he with htext | hend
    · exact e.noReturn htext
    · exact absurd hend (by decide)

theorem readValues (events : List (LoggedEvent rt)) :
    (events.map (fun e => e.text ++ [0x0A])).mapM rt.loads =
      .ok (events.map fun e => some (.dict e.event.fields)) := by
  rw [List.mapM_map]
  exact mapM_eq_ok fun e _ => e.loaded

/-! ## Finding the backups -/

/-- Used as a glob pattern, the name of the log finds the names of its backups. -/
def FindsBackups (path : FileName) (backupCount : ℕ) : Prop :=
  hasDoubleStar (path ++ [0x2E, 0x2A]) = false ∧
    ∀ i, 1 ≤ i → i ≤ backupCount →
      fnmatch (path ++ [0x2E, 0x2A]) (rotatedEventLogPath path i) = true

/-- Only brackets and double stars keep a name from finding its backups. -/
theorem findsBackups_of_plain {path : FileName} (hbracket : 0x5B ∉ path)
    (hstar : hasDoubleStar (path ++ [0x2E, 0x2A]) = false) (backupCount : ℕ) :
    FindsBackups path backupCount := by
  refine ⟨hstar, fun i _ _ => fnmatch_self hbracket ?_⟩
  show (decimal i).tails.any List.isEmpty = true
  rw [List.any_eq_true]
  exact ⟨[], (List.mem_tails _ _).mpr List.nil_suffix, rfl⟩

/-- The names of a directory, in some order. -/
structure Lists (names : List FileName) (dir : Dir) : Prop where
  nodup : names.Nodup
  mem_iff : ∀ name, name ∈ names ↔ (dir name).isSome = true

theorem backupOf_rotated {path : FileName} {i : ℕ} (hi : i < 2 ^ 32) :
    rt.backupOf path (rotatedEventLogPath path i) =
      .ok (some (toLex ((i : ℤ), rotatedEventLogPath path i))) := by
  have hname : rotatedEventLogPath path i = (path ++ [0x2E]) ++ decimal i := by
    simp [rotatedEventLogPath]
  unfold ReaderRuntime.backupOf
  rw [if_pos (by rw [hname, List.isPrefixOf_iff_prefix]; exact List.prefix_append _ _)]
  rw [hname, List.drop_left]
  have hdigits : (!(decimal i).isEmpty && (decimal i).all rt.isDigit) = true := by
    rw [Bool.and_eq_true, Bool.not_eq_true', List.isEmpty_eq_false_iff, List.all_eq_true]
    refine ⟨decimal_ne_nil i, fun c hc => ?_⟩
    exact rt.isDigit_ascii c (mem_decimal hc).1 (mem_decimal hc).2
  rw [if_pos hdigits, rt.int_decimal i hi]
  rfl

theorem backupOf_path (path : FileName) : rt.backupOf path path = .ok none := by
  unfold ReaderRuntime.backupOf
  rw [if_neg]
  rw [List.isPrefixOf_iff_prefix]
  intro h
  have := h.length_le
  rw [List.length_append, List.length_singleton] at this
  omega

section Directory

variable {w : EventLogWorker} {backups : List (List Str)} {dir : Dir} {names : List FileName}

/-- The names in the directory: the log and its backups. -/
theorem lists_backups (hbackups : Backups w backups dir) (hcurrent : (dir w.path).isSome = true) :
    Lists (w.path :: (List.range backups.length).map
      (fun i => rotatedEventLogPath w.path (i + 1))) dir where
  nodup := by
    refine List.nodup_cons.mpr ⟨by simp, ?_⟩
    refine List.Nodup.map (fun i j h => ?_) List.nodup_range
    exact Nat.succ_injective (rotatedEventLogPath_injective w.path h)
  mem_iff name := by
    rw [List.mem_cons, List.mem_map]
    constructor
    · rintro (rfl | ⟨i, hi, rfl⟩)
      · exact hcurrent
      · simpa [hbackups.backup] using hi
    · intro hname
      obtain ⟨content, hcontent⟩ := Option.isSome_iff_exists.mp hname
      rcases hbackups.name_cases hcontent with hpath | ⟨i, file, hfile, rfl, -⟩
      · exact Or.inl hpath
      · obtain ⟨hi, -⟩ := List.getElem?_eq_some_iff.mp hfile
        exact Or.inr ⟨i, List.mem_range.mpr hi, rfl⟩

theorem Lists.perm {names' : List FileName} (h : Lists names dir) (h' : Lists names' dir) :
    names.Perm names' :=
  (List.perm_ext_iff_of_nodup h.nodup h'.nodup).mpr fun name =>
    (h.mem_iff name).trans (h'.mem_iff name).symm

/-- **The reader's order.** The backups by falling number, then the log. -/
theorem eventLogPaths_eq (rt : ReaderRuntime F) (hlists : Lists names dir)
    (hbackups : Backups w backups dir) (hcurrent : (dir w.path).isSome = true)
    (hlength : backups.length ≤ w.backupCount) (hcount : w.backupCount < 2 ^ 32)
    (hfinds : FindsBackups w.path w.backupCount) :
    rt.eventLogPaths names w.path =
      .ok ((List.range backups.length).reverse.map
        (fun i => rotatedEventLogPath w.path (i + 1)) ++ [w.path]) := by
  -- every name the pattern finds is the log or has a number
  obtain ⟨number, hdef⟩ : ∃ number : FileName → Option (ℤ ×ₗ FileName),
      ∀ name, number name = ((rt.backupOf w.path name).toOption).join := ⟨_, fun _ => rfl⟩
  have hpath : rt.backupOf w.path w.path = .ok (number w.path) ∧ number w.path = none := by
    rw [hdef, backupOf_path]
    exact ⟨rfl, rfl⟩
  have hrotated : ∀ i ∈ List.range backups.length,
      rt.backupOf w.path (rotatedEventLogPath w.path (i + 1)) =
        .ok (number (rotatedEventLogPath w.path (i + 1))) ∧
      number (rotatedEventLogPath w.path (i + 1)) =
        some (toLex (((i + 1 : ℕ) : ℤ), rotatedEventLogPath w.path (i + 1))) := by
    intro i hi
    have := List.mem_range.mp hi
    rw [hdef, backupOf_rotated (by omega)]
    exact ⟨rfl, rfl⟩
  have hperm := hlists.perm (lists_backups hbackups hcurrent)
  have hnumbers : (names.filter (fnmatch (w.path ++ [0x2E, 0x2A]))).mapM (rt.backupOf w.path) =
      .ok ((names.filter (fnmatch (w.path ++ [0x2E, 0x2A]))).map number) := by
    refine mapM_eq_ok fun name hname => ?_
    rcases List.mem_cons.mp (hperm.subset (List.mem_of_mem_filter hname)) with rfl | hmem
    · exact hpath.1
    · obtain ⟨i, hi, rfl⟩ := List.mem_map.mp hmem
      exact (hrotated i hi).1
  have hfound : ((names.filter (fnmatch (w.path ++ [0x2E, 0x2A]))).filterMap number).Perm
      ((List.range backups.length).map
        (fun i => toLex (((i + 1 : ℕ) : ℤ), rotatedEventLogPath w.path (i + 1)))) := by
    refine ((hperm.filter _).filterMap number).trans (List.Perm.of_eq ?_)
    have hall : ((List.range backups.length).map fun i =>
        rotatedEventLogPath w.path (i + 1)).filter (fnmatch (w.path ++ [0x2E, 0x2A])) =
        (List.range backups.length).map fun i => rotatedEventLogPath w.path (i + 1) := by
      refine List.filter_eq_self.mpr fun name hname => ?_
      obtain ⟨i, hi, rfl⟩ := List.mem_map.mp hname
      have := List.mem_range.mp hi
      exact hfinds.2 (i + 1) (by omega) (by omega)
    have hlog : ∀ rest, ((w.path :: rest).filter (fnmatch (w.path ++ [0x2E, 0x2A]))).filterMap
        number = (rest.filter (fnmatch (w.path ++ [0x2E, 0x2A]))).filterMap number := by
      intro rest
      rw [List.filter_cons]
      split
      · rw [List.filterMap_cons, hpath.2]
      · rfl
    rw [hlog, hall, List.filterMap_map, ← List.filterMap_eq_map]
    exact List.filterMap_congr fun i hi => (hrotated i hi).2
  have hsorted : ((names.filter (fnmatch (w.path ++ [0x2E, 0x2A]))).filterMap
      number).insertionSort (fun a b => b ≤ a) = (List.range backups.length).reverse.map
        (fun i => toLex (((i + 1 : ℕ) : ℤ), rotatedEventLogPath w.path (i + 1))) := by
    refine List.Perm.eq_of_pairwise' (List.pairwise_insertionSort _ _) ?_
      ((List.perm_insertionSort _ _).trans (hfound.trans ((List.reverse_perm _).symm.map _)))
    rw [List.pairwise_map, List.pairwise_reverse]
    refine List.pairwise_lt_range.imp fun {i j} hij => ?_
    exact Prod.Lex.toLex_le_toLex.mpr (Or.inl (by simpa using hij))
  unfold ReaderRuntime.eventLogPaths glob
  rw [if_neg (by rw [hfinds.1]; decide)]
  show ((names.filter _).mapM (rt.backupOf w.path) >>= _) = _
  rw [hnumbers]
  show Except.ok _ = _
  rw [List.filterMap_map, Function.id_comp, hsorted, List.map_map]
  rfl

end Directory

/-- Counting down the positions of a list goes through it from its end. -/
theorem flatMap_reverse_range {α β : Type} (l : List α) (f : α → List β) {n : ℕ}
    (h : l.length ≤ n) :
    (List.range n).reverse.flatMap (fun i => ((l[i]?).map f).getD []) = l.reverse.flatMap f := by
  obtain ⟨d, rfl⟩ := Nat.exists_eq_add_of_le h
  have hbeyond : ((List.range d).map (l.length + ·)).reverse.flatMap
      (fun i => ((l[i]?).map f).getD []) = [] := by
    simp [List.flatMap_eq_nil_iff]
  have hwithin : (List.range l.length).map (fun i => ((l[i]?).map f).getD []) = l.map f := by
    refine List.ext_getElem (by simp) fun i hi hi' => ?_
    rw [List.length_map] at hi'
    simp [hi']
  rw [List.range_add, List.reverse_append, List.flatMap_append, hbeyond, List.nil_append,
    List.flatMap_def, List.map_reverse, hwithin, ← List.map_reverse, ← List.flatMap_def]

theorem fileLines_of_events {dir : Dir} {name : FileName} {events : List (LoggedEvent rt)}
    (h : dir name = some (fileOf (events.map LoggedEvent.line))) :
    rt.fileLines dir name = events.map (fun e => e.text ++ [0x0A]) := by
  unfold ReaderRuntime.fileLines
  rw [h]
  exact lines_fileOf events

/-- The reader returns the last events in the files it finds. -/
theorem readEvents_of_paths {dir : Dir} {names paths : List FileName} {path : FileName}
    {events : List (LoggedEvent rt)} (hpaths : rt.eventLogPaths names path = .ok paths)
    (hlines : paths.flatMap (rt.fileLines dir) = events.map (fun e => e.text ++ [0x0A])) {m : ℕ}
    (hm : 1 ≤ m) (hm' : m < 2 ^ 63) :
    rt.readEvents dir names path m = .ok (lastItems m (events.map LoggedEvent.event)) := by
  unfold ReaderRuntime.readEvents
  rw [if_neg (by omega), if_neg (by omega), hpaths]
  show (((_ : List PyStr).foldl _ []).mapM rt.loads >>= _) = _
  rw [hlines, Int.toNat_natCast, foldl_dequeAppend hm, lastItems_map, readValues]
  show Except.ok _ = _
  rw [List.filterMap_map, lastItems_map]
  congr 1
  rw [← List.filterMap_eq_map]
  exact List.filterMap_congr fun e _ => signedEvent_fields e.event

/-- **Reading a rotation.** From the files of a rotation of events the reader
returns the last of them. -/
theorem readEvents_eq {w : EventLogWorker} {dir : Dir} {names : List FileName}
    {r : Rotation (LoggedEvent rt)} (hlists : Lists names dir)
    (hcurrent : dir w.path = some (fileOf (r.current.map LoggedEvent.line)))
    (hbackups : Backups w (r.backups.map (List.map LoggedEvent.line)) dir)
    (hlength : r.backups.length ≤ w.backupCount) (hcount : w.backupCount < 2 ^ 32)
    (hfinds : FindsBackups w.path w.backupCount) {m : ℕ} (hm : 1 ≤ m) (hm' : m < 2 ^ 63) :
    rt.readEvents dir names w.path m = .ok (lastItems m (r.items.map LoggedEvent.event)) := by
  have hlog := fileLines_of_events hcurrent
  have hbackup : ∀ i ∈ (List.range r.backups.length).reverse,
      rt.fileLines dir (rotatedEventLogPath w.path (i + 1)) =
        ((r.backups[i]?).map (List.map fun e => e.text ++ [0x0A])).getD [] := by
    intro i hi
    have hi : i < r.backups.length := by simpa using hi
    have hfile := hbackups.backup i
    rw [List.getElem?_map, List.getElem?_eq_getElem hi] at hfile
    rw [fileLines_of_events hfile, List.getElem?_eq_getElem hi]
    rfl
  have hpaths := eventLogPaths_eq rt hlists hbackups (by rw [hcurrent]; rfl)
    (by rw [List.length_map]; exact hlength) hcount hfinds
  rw [List.length_map] at hpaths
  refine readEvents_of_paths hpaths ?_ hm hm'
  rw [List.flatMap_append, List.flatMap_map, List.flatMap_congr hbackup,
    flatMap_reverse_range _ _ le_rfl, List.flatMap_singleton, hlog, Rotation.items,
    List.map_append, List.map_flatten, List.flatMap_def]

/-! ## The worker and the reader -/

/-- The backups from the highest number down, and the log. -/
def keptBytes (w : EventLogWorker) (dir : Dir) : Str :=
  (List.range w.backupCount).reverse.flatMap
    (fun i => (dir (rotatedEventLogPath w.path (i + 1))).getD []) ++ (dir w.path).getD []

/-- The files of a rotation, in order, hold its items. -/
theorem keptBytes_eq {w : EventLogWorker} {dir : Dir} {r : Rotation Str}
    (hcurrent : dir w.path = some (fileOf r.current)) (hbackups : Backups w r.backups dir)
    (hlength : r.backups.length ≤ w.backupCount) : keptBytes w dir = fileOf r.items := by
  have hfiles : ∀ i ∈ (List.range w.backupCount).reverse,
      (dir (rotatedEventLogPath w.path (i + 1))).getD [] = ((r.backups[i]?).map fileOf).getD [] :=
    fun i _ => by rw [hbackups.backup]
  rw [keptBytes, List.flatMap_congr hfiles, flatMap_reverse_range _ _ hlength, hcurrent,
    Rotation.items, fileOf_append, fileOf_flatten]
  rfl

/-- **The event log keeps a faithful tail.** After a flush the files hold, in
order, the last lines that were written; each is small enough or a single line,
and there are no more backups than allowed. Whenever the pattern the reader
makes of the name of the log finds its backups, the reader returns the last
events of these lines. -/
theorem event_log_tail (rt : ReaderRuntime F) (w : EventLogWorker) (hmax : 1 ≤ w.maxBytes)
    (hmax' : w.maxBytes < 2 ^ 64) (hcount : 1 ≤ w.backupCount) (hcount' : w.backupCount < 2 ^ 32)
    (commands : List EventLogCommand) (events : List (LoggedEvent rt))
    (hevents : writtenLines commands = events.map LoggedEvent.line)
    (hio : NoIoErrors w commands) :
    ∃ dropped,
      keptBytes w (w.flushedDir commands) = fileOf ((writtenLines commands).drop dropped) ∧
      (∀ name content, w.flushedDir commands name = some content →
        content.length ≤ w.maxBytes ∨ ∃ line, content = fileOf [line]) ∧
      (∀ name, w.flushedDir commands name ≠ none → name = w.path ∨
        ∃ i, 1 ≤ i ∧ i ≤ w.backupCount ∧ name = rotatedEventLogPath w.path i) ∧
      (FindsBackups w.path w.backupCount → ∀ names,
        Lists names (w.flushedDir commands) → ∀ m : ℕ, 1 ≤ m → m < 2 ^ 63 →
          rt.readEvents (w.flushedDir commands) names w.path m =
            .ok (lastItems m ((events.drop dropped).map LoggedEvent.event))) := by
  -- the worker holds the rotation of the lines, which is that of the events
  obtain ⟨size, hsize⟩ : ∃ size : LoggedEvent rt → ℕ, ∀ e, lineSize e.line = size e :=
    ⟨_, fun _ => rfl⟩
  have hholds := holds_run hcount hmax hmax' hio
  rw [hevents, Rotation.run_map size _ _ hsize] at hholds
  have hsuffix := Rotation.suffix_run size w.maxBytes w.backupCount events
  have hlength := Rotation.length_backups_run size w.maxBytes w.backupCount events
  have hbounded := Rotation.file_le size w.maxBytes w.backupCount events
  generalize Rotation.run size w.maxBytes w.backupCount events = r
    at hholds hsuffix hlength hbounded
  have hlength' : (r.map LoggedEvent.line).backups.length ≤ w.backupCount := by
    simpa [Rotation.map] using hlength
  -- after the flush its files are the files of the rotation
  have hrun : w.flushedDir commands = (w.flushWriter none (w.run commands)).dir := by
    rw [EventLogWorker.flushedDir, EventLogWorker.run, List.foldl_append]
    rfl
  have hfile := hholds.current.flushWriter
  have hbackups := hholds.backups.frame (adds_flushWriter w none (w.run commands)).1.other
  rw [← hrun] at hfile hbackups
  generalize w.flushedDir commands = dir at hfile hbackups ⊢
  obtain ⟨dropped, hitems⟩ : ∃ dropped, r.items = events.drop dropped :=
    ⟨_, (List.suffix_iff_eq_drop.mp hsuffix)⟩
  refine ⟨dropped, ?_, ?_, ?_, ?_⟩
  · rw [keptBytes_eq hfile hbackups hlength', Rotation.items_map, hitems, hevents, List.map_drop]
  · intro name content hname
    obtain ⟨file, hmem, rfl⟩ : ∃ file ∈ r.current :: r.backups,
        content = fileOf (file.map LoggedEvent.line) := by
      rcases hbackups.name_cases hname with rfl | ⟨i, file, hfile', -, rfl⟩
      · exact ⟨_, List.mem_cons_self, Option.some.inj (hname.symm.trans hfile)⟩
      · obtain ⟨original, horiginal, rfl⟩ := List.mem_map.mp (List.mem_of_getElem? hfile')
        exact ⟨original, List.mem_cons_of_mem _ horiginal, rfl⟩
    rcases hbounded file hmem with hsmall | ⟨e, rfl⟩
    · refine Or.inl (le_of_eq_of_le ?_ hsmall)
      rw [length_fileOf, Rotation.weight, Rotation.weight, List.map_map]
      exact congrArg List.sum (List.map_congr_left fun e _ => hsize e)
    · exact Or.inr ⟨e.line, rfl⟩
  · intro name hname
    obtain ⟨content, hcontent⟩ := Option.ne_none_iff_exists'.mp hname
    rcases hbackups.name_cases hcontent with hpath | ⟨i, file, hfile', rfl, -⟩
    · exact Or.inl hpath
    · obtain ⟨hi, -⟩ := List.getElem?_eq_some_iff.mp hfile'
      exact Or.inr ⟨i + 1, by omega, by omega, rfl⟩
  · intro hfinds names hlists m hm hm'
    rw [readEvents_eq hlists hfile hbackups hlength hcount' hfinds hm hm', hitems]

/-! ## Two logs -/

/-- A line of JSON with a signature. -/
def sampleLine : String := "\x7b\"signature\":\"a\"\x7d"

/-- A reader that knows this line. -/
def sampleReader : ReaderRuntime Unit where
  decode bytes := ((bytes.toByteArray.utf8Decode?).getD #[]).toList.map Char.toNat
  isDigit c := decide (0x30 ≤ c ∧ c ≤ 0x39)
  int s :=
    if !s.isEmpty && s.all (fun c => decide (0x30 ≤ c ∧ c ≤ 0x39)) then
      .ok (Nat.ofDigits 10 (s.reverse.map (· - 0x30)) : ℕ)
    else .error .valueError
  loads text :=
    .ok (if text = py sampleLine ++ [0x0A] then
      some (.dict [(py "signature", .str (py "a"))]) else none)
  decode_encode := by
    intro text bytes h
    obtain ⟨hvalid, rfl⟩ := encode_eq_some h
    have hdecode : ((text.map Char.ofNat).flatMap String.utf8EncodeChar).toByteArray.utf8Decode? =
        some (text.map Char.ofNat).toArray := List.utf8Decode?_utf8Encode
    rw [hdecode, Option.getD_some, List.toList_toArray, map_toNat_ofNat hvalid]
  isDigit_ascii := by
    intro c h h'
    exact decide_eq_true ⟨h, h'⟩
  int_decimal := by
    intro n _
    rw [if_pos, ofDigits_decimal]
    rw [Bool.and_eq_true, Bool.not_eq_true', List.isEmpty_eq_false_iff, List.all_eq_true]
    exact ⟨decimal_ne_nil n, fun c hc => decide_eq_true (mem_decimal hc)⟩

def sampleEvent : LoggedEvent sampleReader where
  text := py sampleLine
  line := utf8 sampleLine
  event := ⟨[(py "signature", .str (py "a"))], py "a", rfl⟩
  encoded := by decide +kernel
  noNewline := by decide
  noReturn := by decide
  loaded := congrArg Except.ok (if_pos rfl)

/-- A log that is rotated at every line and keeps one backup. -/
def tinyLog (name : String) : EventLogWorker where
  path := py name
  flushIntervalMs := 0
  maxBytes := 1
  backupCount := 1

def sampleEvents (n : ℕ) : List EventLogCommand :=
  List.replicate n (.event (utf8 sampleLine) 0)

instance (w : EventLogWorker) (s : LogState) : Decidable (Fits w s) :=
  inferInstanceAs (Decidable (_ < _))

theorem tail_of_three_events : ∃ dropped,
    keptBytes (tinyLog "events.jsonl") ((tinyLog "events.jsonl").flushedDir (sampleEvents 3)) =
      fileOf ((writtenLines (sampleEvents 3)).drop dropped) ∧
    ∀ names, Lists names ((tinyLog "events.jsonl").flushedDir (sampleEvents 3)) →
      sampleReader.readEvents ((tinyLog "events.jsonl").flushedDir (sampleEvents 3)) names
        (tinyLog "events.jsonl").path (1 : ℕ) =
        .ok (lastItems 1 (((List.replicate 3 sampleEvent).drop dropped).map
          LoggedEvent.event)) := by
  have hrun : 0x5B ∉ py "events.jsonl" ∧
      hasDoubleStar (py "events.jsonl" ++ [0x2E, 0x2A]) = false ∧
      ∀ before ∈ (sampleEvents 3).inits, Fits (tinyLog "events.jsonl")
        ((tinyLog "events.jsonl").run before) := by
    decide +kernel
  obtain ⟨dropped, hkept, -, -, hread⟩ := event_log_tail sampleReader (tinyLog "events.jsonl")
    (by decide) (by decide) (by decide) (by decide) (sampleEvents 3)
    (List.replicate 3 sampleEvent) rfl
    (fun before h => hrun.2.2 before ((List.mem_inits _ _).mpr h))
  exact ⟨dropped, hkept, fun names hlists => hread
    (findsBackups_of_plain hrun.1 hrun.2.1 _) names hlists 1 le_rfl (by decide)⟩

def bracketedLog : EventLogWorker := tinyLog "events[1].jsonl"

/-- The backup of `events[1].jsonl` is not what the pattern `events[1].jsonl.*`
looks for: of two retained events the reader returns one. -/
theorem bracketed_log_loses_backup :
    ∃ names, Lists names (bracketedLog.flushedDir (sampleEvents 2)) ∧
    keptBytes bracketedLog (bracketedLog.flushedDir (sampleEvents 2)) =
      fileOf (writtenLines (sampleEvents 2)) ∧
    sampleReader.readEvents (bracketedLog.flushedDir (sampleEvents 2)) names bracketedLog.path
      (2 : ℕ) = .ok [sampleEvent.event] := by
  have hfacts : (∀ before ∈ (sampleEvents 2 ++ [EventLogCommand.flush]).inits,
      Fits bracketedLog (bracketedLog.run before)) ∧
      bracketedLog.flushedDir (sampleEvents 2) bracketedLog.path =
        some (fileOf [utf8 sampleLine]) ∧
      keptBytes bracketedLog (bracketedLog.flushedDir (sampleEvents 2)) =
        fileOf (writtenLines (sampleEvents 2)) ∧
      Rotation.run lineSize bracketedLog.maxBytes bracketedLog.backupCount
        (writtenLines (sampleEvents 2 ++ [.flush])) =
        ⟨[utf8 sampleLine], [[utf8 sampleLine]]⟩ ∧
      hasDoubleStar (bracketedLog.path ++ [0x2E, 0x2A]) = false ∧
      [bracketedLog.path, rotatedEventLogPath bracketedLog.path 1].filter
        (fnmatch (bracketedLog.path ++ [0x2E, 0x2A])) = [] := by
    decide +kernel
  obtain ⟨hfits, hcurrent, hkept, hrotation, hstar, hfound⟩ := hfacts
  have hbackups := (holds_run (w := bracketedLog) (by decide) (by decide) (by decide)
    (fun before h => hfits before ((List.mem_inits _ _).mpr h))).backups
  change Backups bracketedLog _ (bracketedLog.flushedDir (sampleEvents 2)) at hbackups
  generalize bracketedLog.flushedDir (sampleEvents 2) = dir at *
  refine ⟨_, lists_backups hbackups (by rw [hcurrent]; rfl), hkept, ?_⟩
  have hpaths : sampleReader.eventLogPaths
      [bracketedLog.path, rotatedEventLogPath bracketedLog.path 1] bracketedLog.path =
        .ok [bracketedLog.path] := by
    unfold ReaderRuntime.eventLogPaths glob
    rfl
  have hlines : sampleReader.fileLines dir bracketedLog.path =
      [sampleEvent].map (fun e => e.text ++ [0x0A]) := fileLines_of_events hcurrent
  exact readEvents_of_paths hpaths ((List.flatMap_singleton ..).trans hlines) (by decide)
    (by decide)

end AlturaProt.Analyzer
