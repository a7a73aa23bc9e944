import AlturaProt.Foundation.Checks
import AlturaProt.Foundation.Python
import AlturaProt.Foundation.Rotation

/-!
# The event log

`EventLogWorker` of `src/telemetry.rs`: the thread that writes attack events,
one line each, to a file that it rotates. The directory is part of the state. A
name is the text the directory shows it under.

Whatever the worker asks of the operating system can fail, and `LogFaults` says
what does. An event that cannot be written is dropped and counted; a failed
flush is only logged, and what it could not write stays in the buffer.

As long as nothing fails the worker implements a `Rotation` of lines (`Holds`):
its files are those of the rotation, except that the end of the current one may
still be in the buffer of the writer.
-/

namespace AlturaProt.Telemetry

open Foundation Foundation.Python

/-! ## Files -/

abbrev FileName : Type := PyStr

/-- The files of a directory. -/
abbrev Dir : Type := FileName → Option Str

namespace Dir

def remove (dir : Dir) (name : FileName) : Dir := Function.update dir name none

/-- `fs::rename` of a file to another name. -/
def rename (dir : Dir) (source target : FileName) : Dir :=
  Function.update (Function.update dir target (dir source)) source none

/-- Write at the end of a file. -/
def append (dir : Dir) (name : FileName) (data : Str) : Dir :=
  Function.update dir name (some ((dir name).getD [] ++ data))

end Dir

/-- `u64::saturating_add`. -/
def saturatingAdd (a b : ℕ) : ℕ := min (a + b) (2 ^ 64 - 1)

/-- The capacity of a `BufWriter`. -/
def BUF_WRITER_CAPACITY : ℕ := 8192

/-! ## Faults -/

/-- How a write to a file ends; one that fails has left some number of bytes there. -/
abbrev WriteFault : Type := Option ℕ

/-- How opening the log ends. -/
inductive Opening where
  | opened
  /-- the file cannot be opened -/
  | refused
  /-- the file is open, but not its metadata or its permissions -/
  | unusable
deriving DecidableEq

/-- What fails when the log is rotated. -/
structure RotateFaults where
  /-- the flush of the writer, -/
  flush : WriteFault
  /-- and after that the one that comes with dropping it -/
  close : WriteFault
  remove : Bool
  /-- the files that `exists` does not see; the current one has number 0 -/
  unseen : List ℕ
  /-- the file whose rename fails -/
  rename : Option ℕ
  opening : Opening
deriving DecidableEq

/-- What fails when bytes go through the buffer of the writer. -/
structure WriteFaults where
  /-- making room in the buffer -/
  flush : WriteFault
  /-- writing past the buffer -/
  direct : WriteFault
deriving DecidableEq

/-- What fails in one turn of the worker. -/
structure LogFaults where
  serialize : Bool
  opening : Opening
  rotate : RotateFaults
  line : WriteFaults
  newline : WriteFaults
  flush : WriteFault
  /-- the flush that comes with dropping the writer of the worker -/
  close : WriteFault
deriving DecidableEq

def RotateFaults.absent : RotateFaults := ⟨none, none, false, [], none, .opened⟩

def WriteFaults.absent : WriteFaults := ⟨none, none⟩

/-- Nothing fails. -/
def LogFaults.absent : LogFaults := ⟨false, .opened, .absent, .absent, .absent, none, none⟩

/-! ## The worker -/

/-- What the worker is configured with. -/
structure EventLogWorker where
  path : FileName
  flushIntervalMs : ℕ
  maxBytes : ℕ
  backupCount : ℕ

/-- The state of the worker and the directory it writes to. An open writer is
known by what it holds in its buffer. -/
structure LogState where
  dir : Dir
  writer : Option Str
  bytesWritten : ℕ
  nextFlushMs : ℕ

def rotatedEventLogPath (path : FileName) (index : ℕ) : FileName :=
  path ++ 0x2E :: decimal index

def removeIfExists (fails : Bool) (dir : Dir) (name : FileName) : Except Dir Dir :=
  if fails then .error dir else .ok (dir.remove name)

/-- One round of the loop of `rotate`: a file that is there gets its next name. -/
def renameIfExists (faults : RotateFaults) (index : ℕ) (dir : Dir) (source target : FileName) :
    Except Dir Dir :=
  if (dir source).isSome && !faults.unseen.contains index then
    if faults.rename = some index then .error dir else .ok (dir.rename source target)
  else .ok dir

namespace EventLogWorker

variable (w : EventLogWorker)

/-- The log has been opened, and created if it was not there. -/
def opened (dir : Dir) : LogState where
  dir := dir.append w.path []
  writer := some []
  bytesWritten := ((dir w.path).getD []).length
  nextFlushMs := 0

/-- `open_event_log_file`, and the length of the file. A failure after `open`
has created the file all the same. -/
def openLog (opening : Opening) (s : LogState) : Except LogState LogState :=
  match opening with
  | .opened => .ok (w.opened s.dir)
  | .refused => .error s
  | .unusable => .error { s with dir := s.dir.append w.path [] }

/-- The worker that `EventLogger` starts on a directory. -/
def start (dir : Dir) : LogState := w.opened dir

def ensureWriter (opening : Opening) (s : LogState) : Except LogState LogState :=
  if s.writer.isSome then .ok s else w.openLog opening s

def shouldRotate (s : LogState) (incomingBytes : ℕ) : Bool :=
  decide (0 < w.maxBytes ∧ 0 < s.bytesWritten ∧
    w.maxBytes < saturatingAdd s.bytesWritten incomingBytes)

/-- The first `n` bytes of the buffer have reached the file. -/
def drain (n : ℕ) (s : LogState) (buffer : Str) : LogState :=
  { s with dir := s.dir.append w.path (buffer.take n), writer := some (buffer.drop n) }

/-- `BufWriter::flush_buf`: what has not reached the file stays in the buffer. -/
def flushBuf (fault : WriteFault) (s : LogState) (buffer : Str) : Except LogState LogState :=
  let n := fault.getD buffer.length
  if n < buffer.length then .error (w.drain n s buffer) else .ok (w.drain n s buffer)

/-- A flush; that it failed is only logged. -/
def flushWriter (fault : WriteFault) (s : LogState) : LogState :=
  match s.writer with
  | none => s
  | some buffer =>
    match w.flushBuf fault s buffer with
    | .ok s | .error s => s

/-- `rotate` takes the writer and flushes it. When that fails the writer is
dropped with what it holds, and dropping it is one more try. -/
def closeWriter (faults : RotateFaults) (s : LogState) : Except LogState LogState :=
  match s.writer with
  | none => .ok s
  | some buffer =>
    match w.flushBuf faults.flush s buffer with
    | .ok s => .ok { s with writer := none }
    | .error s => .error { w.flushWriter faults.close s with writer := none }

/-- The loop of `rotate` over the backups from number `k` down. -/
def shiftBackups (faults : RotateFaults) (path : FileName) : ℕ → Dir → Except Dir Dir
  | 0, dir => .ok dir
  | k + 1, dir => do
      let dir ← renameIfExists faults (k + 1) dir (rotatedEventLogPath path (k + 1))
        (rotatedEventLogPath path (k + 2))
      shiftBackups faults path k dir

/-- What `rotate` does to the files. -/
def rotateFiles (faults : RotateFaults) (dir : Dir) : Except Dir Dir :=
  if w.backupCount = 0 then removeIfExists faults.remove dir w.path
  else do
    let dir ← removeIfExists faults.remove dir (rotatedEventLogPath w.path w.backupCount)
    let dir ← shiftBackups faults w.path (w.backupCount - 1) dir
    renameIfExists faults 0 dir w.path (rotatedEventLogPath w.path 1)

def rotate (faults : RotateFaults) (s : LogState) : Except LogState LogState := do
  let s ← w.closeWriter faults s
  match w.rotateFiles faults s.dir with
  | .error dir => .error { s with dir := dir }
  | .ok dir => w.openLog faults.opening { s with dir := dir }

/-- `write_all` on the file itself. -/
def writeFile (fault : WriteFault) (s : LogState) (data : Str) : Except LogState LogState :=
  let n := fault.getD data.length
  let s := { s with dir := s.dir.append w.path (data.take n) }
  if n < data.length then .error s else .ok s

/-- The buffer makes room for what does not fit in it. -/
def makeRoom (fault : WriteFault) (s : LogState) (buffer data : Str) : Except LogState LogState :=
  if BUF_WRITER_CAPACITY - buffer.length < data.length then w.flushBuf fault s buffer else .ok s

/-- `BufWriter::write_all_cold`: the buffer makes room, and what would fill it
alone goes straight to the file. -/
def writeAllCold (faults : WriteFaults) (s : LogState) (buffer data : Str) :
    Except LogState LogState := do
  let s ← w.makeRoom faults.flush s buffer data
  if BUF_WRITER_CAPACITY ≤ data.length then w.writeFile faults.direct s data
  else .ok { s with writer := s.writer.map (· ++ data) }

/-- `BufWriter::write_all`, if there is a writer. -/
def writeAll (faults : WriteFaults) (s : LogState) (data : Str) : Except LogState LogState :=
  match s.writer with
  | none => .error s
  | some buffer =>
    if data.length < BUF_WRITER_CAPACITY - buffer.length then
      .ok { s with writer := some (buffer ++ data) }
    else w.writeAllCold faults s buffer data

/-- Write some bytes and count them. -/
def writeCounted (faults : WriteFaults) (s : LogState) (data : Str) :
    Except LogState LogState := do
  let s' ← w.writeAll faults s data
  return { s' with bytesWritten := saturatingAdd s.bytesWritten data.length }

def shouldFlush (s : LogState) (nowMs : ℕ) : LogState × Bool :=
  if w.flushIntervalMs = 0 then (s, true)
  else if nowMs < s.nextFlushMs then (s, false)
  else ({ s with nextFlushMs := saturatingAdd nowMs w.flushIntervalMs }, true)

/-- Flush if it is time to. -/
def flushIfDue (fault : WriteFault) (s : LogState) (nowMs : ℕ) : LogState :=
  let flush := w.shouldFlush s nowMs
  if flush.2 then w.flushWriter fault flush.1 else flush.1

/-- Rotate if the line would make the file too large. -/
def rotateIfFull (faults : RotateFaults) (s : LogState) (line : Str) : Except LogState LogState :=
  if w.shouldRotate s (saturatingAdd line.length 1) then w.rotate faults s else .ok s

/-- The line and its end. -/
def writeLine (faults : LogFaults) (s : LogState) (line : Str) : Except LogState LogState := do
  let s ← w.writeCounted faults.line s line
  w.writeCounted faults.newline s [0x0A]

/-- `write_event` up to the failure that makes it drop the event. -/
def tryWriteEvent (faults : LogFaults) (s : LogState) (line : Str) (nowMs : ℕ) :
    Except LogState LogState :=
  if faults.serialize then .error s
  else do
    let s ← w.ensureWriter faults.opening s
    let s ← w.rotateIfFull faults.rotate s line
    let s ← w.writeLine faults s line
    return w.flushIfDue faults.flush s nowMs

/-- The state after an event, and whether it was dropped. -/
def writeEvent (faults : LogFaults) (s : LogState) (line : Str) (nowMs : ℕ) : LogState × Bool :=
  match w.tryWriteEvent faults s line nowMs with
  | .ok s => (s, false)
  | .error s => (s, true)

end EventLogWorker

/-- What the worker receives; it also flushes when it has received nothing for
a while. -/
inductive EventLogCommand where
  | event (line : Str) (nowMs : ℕ)
  | flush

namespace EventLogWorker

variable (w : EventLogWorker)

/-- One command, if nothing fails. -/
def step (s : LogState) : EventLogCommand → LogState
  | .event line nowMs => (w.writeEvent .absent s line nowMs).1
  | .flush => w.flushWriter none s

/-- The state after the commands, on a directory without files. -/
def run (commands : List EventLogCommand) : LogState :=
  commands.foldl w.step (w.start fun _ => none)

/-- The files after the commands and a flush. -/
def flushedDir (commands : List EventLogCommand) : Dir := (w.run (commands ++ [.flush])).dir

end EventLogWorker

/-- The lines of the commands, in order. -/
def writtenLines (commands : List EventLogCommand) : List Str :=
  commands.filterMap fun
    | .event line _ => some line
    | .flush => none

/-! ## Names of backups -/

theorem rotatedEventLogPath_injective (path : FileName) :
    Function.Injective (rotatedEventLogPath path) := by
  intro i j h
  exact decimal_injective (List.cons.inj (List.append_cancel_left h)).2

@[simp] theorem rotatedEventLogPath_inj {path : FileName} {i j : ℕ} :
    rotatedEventLogPath path i = rotatedEventLogPath path j ↔ i = j :=
  (rotatedEventLogPath_injective path).eq_iff

@[simp] theorem rotatedEventLogPath_ne (path : FileName) (i : ℕ) :
    rotatedEventLogPath path i ≠ path := by
  intro h
  have hlen := congrArg List.length h
  simp [rotatedEventLogPath] at hlen

@[simp] theorem ne_rotatedEventLogPath (path : FileName) (i : ℕ) :
    path ≠ rotatedEventLogPath path i := (rotatedEventLogPath_ne path i).symm

theorem renameIfExists_absent (index : ℕ) (dir : Dir) (source target : FileName) :
    renameIfExists .absent index dir source target =
      .ok (if (dir source).isSome then dir.rename source target else dir) := by
  cases h : (dir source).isSome <;> simp [renameIfExists, h, RotateFaults.absent]

/-- **The cascade of renames.** With the number after `k` free, every backup up
to number `k` moves up by one, and number one becomes free. -/
theorem shiftBackups_absent (path : FileName) (k : ℕ) (dir : Dir) :
    ∃ shifted, EventLogWorker.shiftBackups .absent path k dir = .ok shifted ∧
    (dir (rotatedEventLogPath path (k + 1)) = none →
      shifted (rotatedEventLogPath path 1) = none ∧
      (∀ i < k, shifted (rotatedEventLogPath path (i + 2)) =
        dir (rotatedEventLogPath path (i + 1))) ∧
      (∀ name, (∀ i ≤ k, name ≠ rotatedEventLogPath path (i + 1)) → shifted name = dir name)) := by
  induction k generalizing dir with
  | zero =>
    exact ⟨dir, rfl, fun hfree => ⟨hfree, fun i hi => absurd hi (Nat.not_lt_zero i),
      fun name _ => rfl⟩⟩
  | succ k ih =>
    rw [EventLogWorker.shiftBackups, renameIfExists_absent]
    generalize hmoved : (if (dir (rotatedEventLogPath path (k + 1))).isSome then
      dir.rename (rotatedEventLogPath path (k + 1)) (rotatedEventLogPath path (k + 2))
      else dir) = moved
    obtain ⟨shifted, hshifted, hspec⟩ := ih moved
    refine ⟨shifted, hshifted, fun hfree => ?_⟩
    -- what the first rename of the cascade does
    have hsource : moved (rotatedEventLogPath path (k + 1)) = none := by
      rw [← hmoved]
      split
      · simp [Dir.rename]
      · rename_i hgone
        simpa using hgone
    have htarget : moved (rotatedEventLogPath path (k + 2)) =
        dir (rotatedEventLogPath path (k + 1)) := by
      rw [← hmoved]
      split
      · simp [Dir.rename, Function.update_of_ne]
      · rename_i hgone
        rw [hfree, Option.not_isSome_iff_eq_none.mp hgone]
    have hother : ∀ name, name ≠ rotatedEventLogPath path (k + 1) →
        name ≠ rotatedEventLogPath path (k + 2) → moved name = dir name := by
      intro name h1 h2
      rw [← hmoved]
      split
      · rw [Dir.rename, Function.update_of_ne h1, Function.update_of_ne h2]
      · rfl
    obtain ⟨hone, hshift, hrest⟩ := hspec hsource
    refine ⟨hone, fun i hi => ?_, fun name hname => ?_⟩
    · rcases Nat.lt_succ_iff_lt_or_eq.mp hi with hlt | rfl
      · rw [hshift i hlt]
        exact hother _ (by simp; omega) (by simp; omega)
      · rw [hrest _ (fun j hj => by simp; omega), htarget]
    · rw [hrest name (fun j hj => hname j (hj.trans (Nat.le_succ k)))]
      exact hother name (hname k (Nat.le_succ k)) (hname (k + 1) le_rfl)

/-! ## What the worker adds to its log -/

theorem Dir.append_self (dir : Dir) (name : FileName) (data : Str) :
    dir.append name data name = some ((dir name).getD [] ++ data) := Function.update_self ..

theorem Dir.append_of_ne (dir : Dir) {name other : FileName} (data : Str) (h : other ≠ name) :
    dir.append name data other = dir other := Function.update_of_ne h ..

/-- What the current file holds, with what is still in the buffer. -/
def EventLogWorker.content (w : EventLogWorker) (s : LogState) : Str :=
  (s.dir w.path).getD [] ++ s.writer.getD []

/-- Some bytes come to the end of the log, and nothing else happens to the files. -/
structure Adds (w : EventLogWorker) (data : Str) (s s' : LogState) : Prop where
  content : w.content s' = w.content s ++ data
  present : (s.dir w.path).isSome = true → (s'.dir w.path).isSome = true
  writer : s'.writer.isSome = s.writer.isSome
  other : ∀ name, name ≠ w.path → s'.dir name = s.dir name

section Writes

variable {w : EventLogWorker} {s s' s'' : LogState} {data data' buffer : Str}

theorem Adds.trans (h : Adds w data s s') (h' : Adds w data' s' s'') :
    Adds w (data ++ data') s s'' where
  content := by rw [h'.content, h.content, List.append_assoc]
  present hs := h'.present (h.present hs)
  writer := h'.writer.trans h.writer
  other name hname := (h'.other name hname).trans (h.other name hname)

theorem Adds.none_trans (h : Adds w [] s s') (h' : Adds w data s' s'') : Adds w data s s'' :=
  h.trans h'

theorem Adds.refl (w : EventLogWorker) (s : LogState) : Adds w [] s s where
  content := (List.append_nil _).symm
  present hs := hs
  writer := rfl
  other _ _ := rfl

/-- Bytes that reach the file while the buffer is empty come to the end of the log. -/
theorem adds_append (hwriter : s.writer = some []) (data : Str) :
    Adds w data s { s with dir := s.dir.append w.path data } where
  content := by simp [EventLogWorker.content, Dir.append_self, hwriter]
  present _ := by simp [Dir.append_self]
  writer := rfl
  other _ hname := Dir.append_of_ne _ _ hname

theorem adds_drain (n : ℕ) (hwriter : s.writer = some buffer) :
    Adds w [] s (w.drain n s buffer) where
  content := by simp [EventLogWorker.content, EventLogWorker.drain, Dir.append_self, hwriter]
  present _ := by simp [EventLogWorker.drain, Dir.append_self]
  writer := by simp [EventLogWorker.drain, hwriter]
  other _ hname := Dir.append_of_ne _ _ hname

/-- A flush moves bytes from the buffer to the file, all of them if it succeeds. -/
theorem flushBuf_cases (fault : WriteFault) (hwriter : s.writer = some buffer) :
    ∃ s', Adds w [] s s' ∧ s'.bytesWritten = s.bytesWritten ∧
      (w.flushBuf fault s buffer = .error s' ∨
        w.flushBuf fault s buffer = .ok s' ∧ s'.writer = some []) := by
  refine ⟨w.drain (fault.getD buffer.length) s buffer, adds_drain _ hwriter, rfl, ?_⟩
  unfold EventLogWorker.flushBuf
  by_cases hshort : fault.getD buffer.length < buffer.length
  · exact .inl (if_pos hshort)
  · refine .inr ⟨if_neg hshort, ?_⟩
    exact congrArg some (List.drop_eq_nil_of_le (not_lt.mp hshort))

theorem flushBuf_none (s : LogState) (buffer : Str) :
    w.flushBuf none s buffer =
      .ok { s with dir := s.dir.append w.path buffer, writer := some [] } := by
  simp [EventLogWorker.flushBuf, EventLogWorker.drain]

/-- Whether it succeeds or not, a flush loses nothing. -/
theorem adds_flushWriter (w : EventLogWorker) (fault : WriteFault) (s : LogState) :
    Adds w [] s (w.flushWriter fault s) ∧
      (w.flushWriter fault s).bytesWritten = s.bytesWritten := by
  unfold EventLogWorker.flushWriter
  split
  · exact ⟨.refl w s, rfl⟩
  · rename_i buffer hwriter
    obtain ⟨s', hadds, hbytes, herror | ⟨hok, -⟩⟩ := flushBuf_cases (w := w) fault hwriter
    · rw [herror]
      exact ⟨hadds, hbytes⟩
    · rw [hok]
      exact ⟨hadds, hbytes⟩

theorem writeFile_adds {fault : WriteFault} (hwriter : s.writer = some [])
    (h : w.writeFile fault s data = .ok s') : Adds w data s s' := by
  unfold EventLogWorker.writeFile at h
  dsimp only at h
  split at h
  · cases h
  · rename_i hall
    cases h
    rw [List.take_of_length_le (not_lt.mp hall)]
    exact adds_append hwriter data

theorem writeAllCold_adds {faults : WriteFaults} (hwriter : s.writer = some buffer)
    (hroom : ¬ data.length < BUF_WRITER_CAPACITY - buffer.length)
    (h : w.writeAllCold faults s buffer data = .ok s') : Adds w data s s' := by
  obtain ⟨emptied, hmake, hwrite⟩ := bind_eq_ok_iff.mp h
  -- after making room the writer is open as before, and a large write finds it empty
  have hempty : Adds w [] s emptied ∧
      (BUF_WRITER_CAPACITY ≤ data.length → emptied.writer = some []) := by
    unfold EventLogWorker.makeRoom at hmake
    split at hmake
    · obtain ⟨s', hadds, -, herror | ⟨hok, hnil⟩⟩ :=
        flushBuf_cases (w := w) faults.flush hwriter
      · cases herror.symm.trans hmake
      · cases hok.symm.trans hmake
        exact ⟨hadds, fun _ => hnil⟩
    · cases hmake
      refine ⟨.refl w s, fun hlarge => ?_⟩
      have hnil : buffer = [] := List.length_eq_zero_iff.mp (by
        unfold BUF_WRITER_CAPACITY at *
        omega)
      rw [hwriter, hnil]
  split at hwrite
  · rename_i hlarge
    exact hempty.1.none_trans (writeFile_adds (hempty.2 hlarge) hwrite)
  · cases hwrite
    obtain ⟨kept, hkept⟩ : ∃ kept, emptied.writer = some kept := by
      apply Option.isSome_iff_exists.mp
      rw [hempty.1.writer, hwriter]
      rfl
    refine hempty.1.none_trans ⟨?_, fun hs => hs, by simp, fun _ _ => rfl⟩
    simp [EventLogWorker.content, hkept]

/-- What is written comes to the end of the log. -/
theorem writeAll_adds {faults : WriteFaults} (h : w.writeAll faults s data = .ok s') :
    Adds w data s s' := by
  unfold EventLogWorker.writeAll at h
  split at h
  · cases h
  · rename_i buffer hwriter
    split at h
    · cases h
      exact ⟨by simp [EventLogWorker.content, hwriter], fun hs => hs, by simp [hwriter],
        fun _ _ => rfl⟩
    · rename_i hroom
      exact writeAllCold_adds hwriter hroom h

theorem writeCounted_adds {faults : WriteFaults} (h : w.writeCounted faults s data = .ok s') :
    Adds w data s s' ∧ s'.bytesWritten = saturatingAdd s.bytesWritten data.length := by
  obtain ⟨written, hwritten, hs'⟩ := bind_eq_ok_iff.mp h
  cases hs'
  obtain ⟨hcontent, hpresent, hwriter, hother⟩ := writeAll_adds hwritten
  exact ⟨⟨hcontent, hpresent, hwriter, hother⟩, rfl⟩

theorem writeLine_adds {faults : LogFaults} {line : Str} (h : w.writeLine faults s line = .ok s') :
    Adds w (line ++ [0x0A]) s s' ∧
      s'.bytesWritten = saturatingAdd (saturatingAdd s.bytesWritten line.length) 1 := by
  obtain ⟨written, hline, hnewline⟩ := bind_eq_ok_iff.mp h
  obtain ⟨hadds, hbytes⟩ := writeCounted_adds hline
  obtain ⟨hadds', hbytes'⟩ := writeCounted_adds hnewline
  refine ⟨hadds.trans hadds', ?_⟩
  rw [hbytes', hbytes]
  rfl

/-- Whether a flush is due changes nothing but the time of the next one. -/
theorem adds_flushIfDue (w : EventLogWorker) (fault : WriteFault) (s : LogState) (nowMs : ℕ) :
    Adds w [] s (w.flushIfDue fault s nowMs) ∧
      (w.flushIfDue fault s nowMs).bytesWritten = s.bytesWritten := by
  unfold EventLogWorker.flushIfDue EventLogWorker.shouldFlush
  split
  · exact adds_flushWriter w fault s
  · split
    · exact ⟨.refl w s, rfl⟩
    · obtain ⟨⟨hcontent, hpresent, hwriter, hother⟩, hbytes⟩ := adds_flushWriter w fault
        { s with nextFlushMs := saturatingAdd nowMs w.flushIntervalMs }
      exact ⟨⟨hcontent, hpresent, hwriter, hother⟩, hbytes⟩

/-- **An event is written or dropped.** Whatever fails, an event that is not
counted as dropped stands, with its newline, at the end of the log. -/
theorem writeEvent_written {faults : LogFaults} {line : Str} {nowMs : ℕ}
    (h : (w.writeEvent faults s line nowMs).2 = false) :
    ∃ front, w.content (w.writeEvent faults s line nowMs).1 = front ++ line ++ [0x0A] := by
  unfold EventLogWorker.writeEvent at h ⊢
  split
  · rename_i s' hwritten
    unfold EventLogWorker.tryWriteEvent at hwritten
    split at hwritten
    · cases hwritten
    · obtain ⟨opened, -, hrest⟩ := bind_eq_ok_iff.mp hwritten
      obtain ⟨rotated, -, hrest⟩ := bind_eq_ok_iff.mp hrest
      obtain ⟨written, hline, hdone⟩ := bind_eq_ok_iff.mp hrest
      cases hdone
      refine ⟨w.content rotated, ?_⟩
      rw [(adds_flushIfDue w faults.flush written nowMs).1.content,
        (writeLine_adds hline).1.content, List.append_nil, List.append_assoc]
  · rename_i s' hdropped
    rw [hdropped] at h
    cases h

end Writes

/-! ## Nothing fails -/

section Absent

variable (w : EventLogWorker) (s : LogState)

theorem rotateFiles_absent (dir : Dir) : ∃ dir', w.rotateFiles .absent dir = .ok dir' := by
  unfold EventLogWorker.rotateFiles
  split
  · exact ⟨_, rfl⟩
  · obtain ⟨shifted, hshifted, -⟩ := shiftBackups_absent w.path (w.backupCount - 1)
      (dir.remove (rotatedEventLogPath w.path w.backupCount))
    have hcurrent := renameIfExists_absent 0 shifted w.path (rotatedEventLogPath w.path 1)
    exact ⟨_, bind_eq_ok_iff.mpr ⟨_, rfl, bind_eq_ok_iff.mpr ⟨shifted, hshifted, hcurrent⟩⟩⟩

theorem closeWriter_absent :
    w.closeWriter .absent s = .ok { w.flushWriter none s with writer := none } := by
  rcases s with ⟨dir, _ | buffer, bytesWritten, nextFlushMs⟩
  · rfl
  · simp only [EventLogWorker.closeWriter, EventLogWorker.flushWriter, RotateFaults.absent,
      flushBuf_none]

theorem rotate_absent {dir : Dir} (h : w.rotateFiles .absent (w.flushWriter none s).dir = .ok dir) :
    w.rotate .absent s = .ok (w.opened dir) := by
  unfold EventLogWorker.rotate
  refine bind_eq_ok_iff.mpr ⟨_, closeWriter_absent w s, ?_⟩
  rw [h]
  rfl

variable {w s}

theorem writeAll_absent (h : s.writer.isSome = true) (data : Str) :
    ∃ s', w.writeAll .absent s data = .ok s' := by
  obtain ⟨buffer, hbuffer⟩ := Option.isSome_iff_exists.mp h
  unfold EventLogWorker.writeAll
  rw [hbuffer]
  dsimp only
  split
  · exact ⟨_, rfl⟩
  · obtain ⟨emptied, hmake⟩ : ∃ emptied, w.makeRoom none s buffer data = .ok emptied := by
      unfold EventLogWorker.makeRoom
      split
      · exact ⟨_, flushBuf_none s buffer⟩
      · exact ⟨_, rfl⟩
    by_cases hlarge : BUF_WRITER_CAPACITY ≤ data.length
    · have hdirect : w.writeFile none emptied data =
          .ok { emptied with dir := emptied.dir.append w.path data } := by
        simp [EventLogWorker.writeFile]
      exact ⟨_, bind_eq_ok_iff.mpr ⟨emptied, hmake, (if_pos hlarge).trans hdirect⟩⟩
    · exact ⟨_, bind_eq_ok_iff.mpr ⟨emptied, hmake, if_neg hlarge⟩⟩

theorem writeLine_absent (h : s.writer.isSome = true) (line : Str) :
    ∃ s', w.writeLine .absent s line = .ok s' := by
  obtain ⟨written, hwritten⟩ := writeAll_absent (w := w) h line
  have hline : w.writeCounted .absent s line =
      .ok { written with bytesWritten := saturatingAdd s.bytesWritten line.length } :=
    bind_eq_ok_iff.mpr ⟨written, hwritten, rfl⟩
  have hwriter := (writeCounted_adds hline).1.writer.trans h
  obtain ⟨ended, hended⟩ := writeAll_absent (w := w) hwriter [0x0A]
  exact ⟨_, bind_eq_ok_iff.mpr ⟨_, hline, bind_eq_ok_iff.mpr ⟨ended, hended, rfl⟩⟩⟩

theorem ensureWriter_absent (w : EventLogWorker) (s : LogState) :
    ∃ s', w.ensureWriter .opened s = .ok s' ∧ s'.writer.isSome = true := by
  unfold EventLogWorker.ensureWriter
  split
  · rename_i hwriter
    exact ⟨s, rfl, hwriter⟩
  · exact ⟨_, rfl, rfl⟩

/-- An event meets the log open, and rotated if need be. -/
theorem writeEvent_absent_eq {line : Str} {nowMs : ℕ} {opened ready written : LogState}
    (hopen : w.ensureWriter .opened s = .ok opened)
    (hready : w.rotateIfFull .absent opened line = .ok ready)
    (hwritten : w.writeLine .absent ready line = .ok written) :
    w.writeEvent .absent s line nowMs = (w.flushIfDue none written nowMs, false) := by
  have hdone : w.tryWriteEvent .absent s line nowMs =
      .ok (w.flushIfDue none written nowMs) := by
    unfold EventLogWorker.tryWriteEvent
    exact bind_eq_ok_iff.mpr ⟨opened, hopen, bind_eq_ok_iff.mpr ⟨ready, hready,
      bind_eq_ok_iff.mpr ⟨written, hwritten, rfl⟩⟩⟩
  rw [EventLogWorker.writeEvent, hdone]

/-- As long as nothing fails no event is dropped. -/
theorem writeEvent_absent (w : EventLogWorker) (s : LogState) (line : Str) (nowMs : ℕ) :
    (w.writeEvent .absent s line nowMs).2 = false := by
  obtain ⟨opened, hopen, hwriter⟩ := ensureWriter_absent w s
  obtain ⟨ready, hready, hwriter'⟩ : ∃ ready,
      w.rotateIfFull .absent opened line = .ok ready ∧ ready.writer.isSome = true := by
    unfold EventLogWorker.rotateIfFull
    split
    · obtain ⟨dir, hdir⟩ := rotateFiles_absent w (w.flushWriter none opened).dir
      exact ⟨_, rotate_absent w opened hdir, rfl⟩
    · exact ⟨opened, rfl, hwriter⟩
  obtain ⟨written, hwritten⟩ := writeLine_absent (w := w) hwriter' line
  rw [writeEvent_absent_eq hopen hready hwritten]

end Absent

/-! ## The worker rotates lines -/

/-- The bytes of a file that holds the given lines. -/
def fileOf (lines : List Str) : Str := lines.flatMap (· ++ [0x0A])

/-- The bytes a line takes. -/
def lineSize (line : Str) : ℕ := line.length + 1

theorem length_fileOf (lines : List Str) :
    (fileOf lines).length = Rotation.weight lineSize lines := by
  induction lines with
  | nil => rfl
  | cons line rest ih =>
    have hcons : fileOf (line :: rest) = line ++ [0x0A] ++ fileOf rest := rfl
    have hweight : Rotation.weight lineSize (line :: rest) =
        lineSize line + Rotation.weight lineSize rest := rfl
    rw [hcons, hweight, List.length_append, List.length_append, List.length_singleton, ih, lineSize]

theorem fileOf_concat (lines : List Str) (line : Str) :
    fileOf (lines ++ [line]) = fileOf lines ++ line ++ [0x0A] := by
  simp [fileOf]

theorem fileOf_append (lines lines' : List Str) :
    fileOf (lines ++ lines') = fileOf lines ++ fileOf lines' := List.flatMap_append

theorem fileOf_flatten (files : List (List Str)) :
    fileOf files.flatten = files.flatMap fileOf := by
  induction files with
  | nil => rfl
  | cons file rest ih => rw [List.flatten_cons, fileOf_append, ih, List.flatMap_cons]

theorem fileOf_pos_iff (lines : List Str) : 0 < (fileOf lines).length ↔ lines ≠ [] := by
  cases lines with
  | nil => simp [fileOf]
  | cons line rest => simp [fileOf]

/-- The length of the current file, with what is still buffered, fits the 64
bits of a file length. -/
def Fits (w : EventLogWorker) (s : LogState) : Prop :=
  ((s.dir w.path).getD []).length + (s.writer.getD []).length < 2 ^ 64

/-- The writer is open, and its file and its buffer hold the given bytes. -/
def Open (w : EventLogWorker) (content : Str) (s : LogState) : Prop :=
  ∃ disk buffer, s.dir w.path = some disk ∧ s.writer = some buffer ∧ disk ++ buffer = content

/-- Next to the current file there are the backups and nothing else. -/
structure Backups (w : EventLogWorker) (backups : List (List Str)) (dir : Dir) : Prop where
  backup : ∀ i, dir (rotatedEventLogPath w.path (i + 1)) = (backups[i]?).map fileOf
  other : ∀ name, name ≠ w.path → (∀ i, name ≠ rotatedEventLogPath w.path (i + 1)) →
    dir name = none

/-- The worker holds the files of a rotation. -/
structure Holds (w : EventLogWorker) (r : Rotation Str) (s : LogState) : Prop where
  current : Open w (fileOf r.current) s
  bytes : s.bytesWritten = (fileOf r.current).length
  backups : Backups w r.backups s.dir

section Steps

variable {w : EventLogWorker} {s s' : LogState} {content data : Str} {backups : List (List Str)}
  {dir dir' : Dir} {r : Rotation Str}

theorem Backups.frame (h : Backups w backups dir)
    (hsame : ∀ name, name ≠ w.path → dir' name = dir name) : Backups w backups dir' where
  backup i := (hsame _ (rotatedEventLogPath_ne w.path (i + 1))).trans (h.backup i)
  other name hname hbackup := (hsame name hname).trans (h.other name hname hbackup)

/-- A name in the directory is that of the current file or of a backup. -/
theorem Backups.name_cases (h : Backups w backups dir) {name : FileName} {content : Str}
    (hname : dir name = some content) :
    name = w.path ∨ ∃ i file, backups[i]? = some file ∧
      name = rotatedEventLogPath w.path (i + 1) ∧ content = fileOf file := by
  by_cases hpath : name = w.path
  · exact Or.inl hpath
  by_cases hrotated : ∃ i, name = rotatedEventLogPath w.path (i + 1)
  · obtain ⟨i, rfl⟩ := hrotated
    rw [h.backup i] at hname
    obtain ⟨file, hfile, hcontent⟩ := Option.map_eq_some_iff.mp hname
    exact Or.inr ⟨i, file, hfile, rfl, hcontent.symm⟩
  · rw [h.other name hpath (not_exists.mp hrotated)] at hname
    cases hname

theorem Open.fits_iff (h : Open w content s) : Fits w s ↔ content.length < 2 ^ 64 := by
  obtain ⟨disk, buffer, hdisk, hbuffer, rfl⟩ := h
  rw [Fits, hdisk, hbuffer, Option.getD_some, Option.getD_some, List.length_append]

theorem Open.adds (h : Open w content s) (hadds : Adds w data s s') :
    Open w (content ++ data) s' := by
  obtain ⟨disk, buffer, hdisk, hbuffer, rfl⟩ := h
  obtain ⟨disk', hdisk'⟩ := Option.isSome_iff_exists.mp (hadds.present (by rw [hdisk]; rfl))
  obtain ⟨buffer', hbuffer'⟩ :=
    Option.isSome_iff_exists.mp (hadds.writer.trans (by rw [hbuffer]; rfl))
  have hcontent := hadds.content
  simp only [EventLogWorker.content, hdisk, hbuffer, hdisk', hbuffer', Option.getD_some]
    at hcontent
  exact ⟨disk', buffer', hdisk', hbuffer', hcontent⟩

/-- A flush brings the buffer to the file. -/
theorem Open.flushWriter (h : Open w content s) :
    (w.flushWriter none s).dir w.path = some content := by
  obtain ⟨disk, buffer, hdisk, hbuffer, rfl⟩ := h
  unfold EventLogWorker.flushWriter
  rw [hbuffer]
  dsimp only
  rw [flushBuf_none]
  dsimp only
  rw [Dir.append_self, hdisk]
  rfl

/-- Whether it succeeds or not, a flush changes nothing of what the worker holds. -/
theorem Holds.flushWriter (h : Holds w r s) (fault : WriteFault) :
    Holds w r (w.flushWriter fault s) := by
  obtain ⟨hadds, hbytes⟩ := adds_flushWriter w fault s
  refine ⟨?_, hbytes.trans h.bytes, h.backups.frame hadds.other⟩
  rw [← List.append_nil (fileOf r.current)]
  exact h.current.adds hadds

theorem Holds.flushIfDue (h : Holds w r s) (fault : WriteFault) (nowMs : ℕ) :
    Holds w r (w.flushIfDue fault s nowMs) := by
  obtain ⟨hadds, hbytes⟩ := adds_flushIfDue w fault s nowMs
  refine ⟨?_, hbytes.trans h.bytes, h.backups.frame hadds.other⟩
  rw [← List.append_nil (fileOf r.current)]
  exact h.current.adds hadds

/-- **One rotation.** -/
theorem Holds.rotate (h : Holds w r s) (hcount : 1 ≤ w.backupCount)
    (hlength : r.backups.length ≤ w.backupCount) :
    ∃ s', w.rotate .absent s = .ok s' ∧ Holds w (r.rotate w.backupCount) s' := by
  have hfile := h.current.flushWriter
  have hbackups := h.backups.frame (adds_flushWriter w none s).1.other
  suffices hfiles : ∃ dir, w.rotateFiles .absent (w.flushWriter none s).dir = .ok dir ∧
      Holds w (r.rotate w.backupCount) (w.opened dir) by
    obtain ⟨dir, hdir, hholds⟩ := hfiles
    exact ⟨w.opened dir, rotate_absent w s hdir, hholds⟩
  generalize (w.flushWriter none s).dir = dir at hfile hbackups ⊢
  unfold EventLogWorker.rotateFiles
  obtain ⟨k, hk⟩ : ∃ k, w.backupCount = k + 1 := ⟨w.backupCount - 1, by omega⟩
  rw [hk, Nat.add_sub_cancel]
  -- the oldest backup goes, the others move up
  have hfree : dir.remove (rotatedEventLogPath w.path (k + 1))
      (rotatedEventLogPath w.path (k + 1)) = none := Function.update_self ..
  have hkept : ∀ name, name ≠ rotatedEventLogPath w.path (k + 1) →
      dir.remove (rotatedEventLogPath w.path (k + 1)) name = dir name :=
    fun name hname => Function.update_of_ne hname ..
  obtain ⟨shifted, hshifted, hspec⟩ := shiftBackups_absent w.path k
    (dir.remove (rotatedEventLogPath w.path (k + 1)))
  obtain ⟨hone, hshift, hrest⟩ := hspec hfree
  have hcurrent : shifted w.path = some (fileOf r.current) := by
    rw [hrest _ (fun i _ => ne_rotatedEventLogPath w.path (i + 1)),
      hkept _ (ne_rotatedEventLogPath w.path (k + 1)), hfile]
  have hrename := renameIfExists_absent 0 shifted w.path (rotatedEventLogPath w.path 1)
  rw [if_pos (by rw [hcurrent]; rfl)] at hrename
  refine ⟨_, bind_eq_ok_iff.mpr ⟨_, rfl, bind_eq_ok_iff.mpr ⟨shifted, hshifted, hrename⟩⟩, ?_⟩
  -- and the current file becomes the first of them
  generalize hmoved : shifted.rename w.path (rotatedEventLogPath w.path 1) = moved
  have hgone : moved w.path = none := by
    rw [← hmoved]
    exact Function.update_self ..
  have hfirst : moved (rotatedEventLogPath w.path 1) = some (fileOf r.current) := by
    rw [← hmoved, Dir.rename, Function.update_of_ne (rotatedEventLogPath_ne w.path 1),
      Function.update_self, hcurrent]
  have hothers : ∀ name, name ≠ w.path → name ≠ rotatedEventLogPath w.path 1 →
      moved name = shifted name := by
    intro name hname hname'
    rw [← hmoved, Dir.rename, Function.update_of_ne hname, Function.update_of_ne hname']
  refine ⟨⟨[], [], ?_, rfl, rfl⟩, ?_, Backups.frame ⟨?_, ?_⟩
    (fun name hname => Dir.append_of_ne moved [] hname)⟩
  · exact (Dir.append_self ..).trans (by rw [hgone]; rfl)
  · show ((moved w.path).getD []).length = 0
    rw [hgone]
    rfl
  · intro i
    show moved (rotatedEventLogPath w.path (i + 1)) =
      (((r.current :: r.backups).take (k + 1))[i]?).map fileOf
    cases i with
    | zero => exact hfirst
    | succ j =>
      rw [hothers _ (rotatedEventLogPath_ne w.path (j + 2)) (by simp), List.take_succ_cons,
        List.getElem?_cons_succ]
      rcases Nat.lt_or_ge j k with hjk | hjk
      · rw [hshift j hjk, hkept _ (by simp; omega), hbackups.backup j, List.getElem?_take_of_lt hjk]
      · rw [hrest _ (fun i hi => by simp; omega), hkept _ (by simp; omega),
          hbackups.backup (j + 1), List.getElem?_eq_none (by omega),
          List.getElem?_eq_none (by rw [List.length_take]; omega)]
  · intro name hname hbackup
    rw [hothers name hname (hbackup 0), hrest name (fun i _ => hbackup i), hkept name (hbackup k)]
    exact hbackups.other name hname hbackup

/-- Writing a line to the open file. -/
theorem Holds.writeLine {faults : LogFaults} {line : Str} (h : Holds w r s)
    (hwritten : w.writeLine faults s line = .ok s')
    (hfit : (fileOf (r.current ++ [line])).length < 2 ^ 64) : Holds w (r.append line) s' := by
  obtain ⟨hadds, hbytes⟩ := writeLine_adds hwritten
  refine ⟨?_, ?_, h.backups.frame hadds.other⟩
  · show Open w (fileOf (r.current ++ [line])) s'
    rw [fileOf_concat, List.append_assoc]
    exact h.current.adds hadds
  · rw [fileOf_concat, List.length_append, List.length_append, List.length_singleton] at hfit
    simp only [hbytes, Rotation.append, fileOf_concat, List.length_append, List.length_singleton,
      h.bytes, saturatingAdd]
    omega

/-- The worker rotates when the rotation does. -/
theorem shouldRotate_iff (h : Holds w r s) (hmax : 1 ≤ w.maxBytes) (hmax' : w.maxBytes < 2 ^ 64)
    (line : Str) (hfit : w.shouldRotate s (saturatingAdd line.length 1) = false →
      (fileOf (r.current ++ [line])).length < 2 ^ 64) :
    w.shouldRotate s (saturatingAdd line.length 1) = true ↔ r.full lineSize w.maxBytes line := by
  have hlength : (fileOf (r.current ++ [line])).length =
      (fileOf r.current).length + line.length + 1 := by
    rw [fileOf_concat, List.length_append, List.length_append, List.length_singleton]
  unfold EventLogWorker.shouldRotate at hfit ⊢
  rw [Rotation.full, ← length_fileOf, ← fileOf_pos_iff, h.bytes, decide_eq_true_iff, lineSize]
  rw [decide_eq_false_iff_not, h.bytes] at hfit
  unfold saturatingAdd at *
  constructor
  · rintro ⟨-, hpos, hover⟩
    exact ⟨hpos, by omega⟩
  · rintro ⟨hpos, hover⟩
    by_contra hnot
    exact hnot ⟨hmax, hpos, by omega⟩

/-- **One event.** -/
theorem Holds.writeEvent (h : Holds w r s) (hcount : 1 ≤ w.backupCount)
    (hlength : r.backups.length ≤ w.backupCount) (hmax : 1 ≤ w.maxBytes)
    (hmax' : w.maxBytes < 2 ^ 64) {line : Str} {nowMs : ℕ}
    (hfit : Fits w (w.writeEvent .absent s line nowMs).1) :
    Holds w (Rotation.write lineSize w.maxBytes w.backupCount r line)
      (w.writeEvent .absent s line nowMs).1 := by
  have hopen : w.ensureWriter .opened s = .ok s := by
    obtain ⟨disk, buffer, -, hbuffer, -⟩ := h.current
    rw [EventLogWorker.ensureWriter, hbuffer]
    rfl
  -- a line is written to the open file, and what the file then holds fits
  have hwrites : ∀ {r' : Rotation Str} {ready : LogState}, Holds w r' ready →
      w.rotateIfFull .absent s line = .ok ready →
      (fileOf (r'.current ++ [line])).length < 2 ^ 64 ∧
        Holds w (r'.append line) (w.writeEvent .absent s line nowMs).1 := by
    intro r' ready hready hrotated
    have hwriter : ready.writer.isSome = true := by
      obtain ⟨disk, buffer, -, hbuffer, -⟩ := hready.current
      rw [hbuffer]
      rfl
    obtain ⟨written, hwritten⟩ := writeLine_absent (w := w) hwriter line
    rw [writeEvent_absent_eq hopen hrotated hwritten] at hfit ⊢
    obtain ⟨hadds, -⟩ := writeLine_adds hwritten
    have hfits : (fileOf (r'.current ++ [line])).length < 2 ^ 64 := by
      rw [fileOf_concat, List.append_assoc, ← List.append_nil (fileOf r'.current ++ _)]
      exact ((hready.current.adds hadds).adds
        (adds_flushIfDue w none written nowMs).1).fits_iff.mp hfit
    exact ⟨hfits, (hready.writeLine hwritten hfits).flushIfDue none nowMs⟩
  have hstays : w.shouldRotate s (saturatingAdd line.length 1) = false →
      w.rotateIfFull .absent s line = .ok s := by
    intro hnot
    rw [EventLogWorker.rotateIfFull, hnot]
    rfl
  have hwhen := shouldRotate_iff h hmax hmax' line fun hnot => (hwrites h (hstays hnot)).1
  by_cases hrotate : w.shouldRotate s (saturatingAdd line.length 1) = true
  · obtain ⟨rotated, hrotated, hholds⟩ := h.rotate hcount hlength
    rw [Rotation.write, if_pos (hwhen.mp hrotate)]
    refine (hwrites hholds ?_).2
    rw [EventLogWorker.rotateIfFull, if_pos hrotate, hrotated]
  · rw [Rotation.write, if_neg (fun hfull => hrotate (hwhen.mpr hfull))]
    exact (hwrites h (hstays (Bool.not_eq_true _ ▸ hrotate))).2

end Steps

/-- The worker starts with an empty file. -/
theorem holds_start (w : EventLogWorker) : Holds w ⟨[], []⟩ (w.start fun _ => none) where
  current := ⟨[], [], Dir.append_self (fun _ => none) w.path [], rfl, rfl⟩
  bytes := rfl
  backups := by
    refine ⟨fun i => ?_, fun name hname _ => ?_⟩
    · exact Dir.append_of_ne (fun _ => none) [] (rotatedEventLogPath_ne w.path (i + 1))
    · exact Dir.append_of_ne (fun _ => none) [] hname

/-- The files never outgrow a file length. -/
def NoIoErrors (w : EventLogWorker) (commands : List EventLogCommand) : Prop :=
  ∀ before, before <+: commands → Fits w (w.run before)

/-- **A run of the worker** leaves the files of the rotation of its lines. -/
theorem holds_run {w : EventLogWorker} (hcount : 1 ≤ w.backupCount) (hmax : 1 ≤ w.maxBytes)
    (hmax' : w.maxBytes < 2 ^ 64) {commands : List EventLogCommand}
    (hio : NoIoErrors w commands) :
    Holds w (Rotation.run lineSize w.maxBytes w.backupCount (writtenLines commands))
      (w.run commands) := by
  induction commands using List.reverseRecOn with
  | nil => exact holds_start w
  | append_singleton commands command ih =>
    have hbefore := ih (fun before h => hio before (h.trans (List.prefix_append _ _)))
    have hstep : w.run (commands ++ [command]) = w.step (w.run commands) command := by
      rw [EventLogWorker.run, List.foldl_append]
      rfl
    have hfit := hio _ (List.prefix_refl _)
    rw [hstep] at hfit ⊢
    cases command with
    | event line nowMs =>
      have hlines : writtenLines (commands ++ [.event line nowMs]) =
          writtenLines commands ++ [line] := by simp [writtenLines]
      rw [hlines, Rotation.run_concat]
      exact hbefore.writeEvent hcount (Rotation.length_backups_run ..) hmax hmax' hfit
    | flush =>
      have hlines : writtenLines (commands ++ [.flush]) = writtenLines commands := by
        simp [writtenLines]
      rw [hlines]
      exact hbefore.flushWriter none

end AlturaProt.Telemetry
