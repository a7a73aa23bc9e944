import AlturaProt.Config.Document
import AlturaProt.Config.Validate
import AlturaProt.Foundation.Files

/-!
# Changing the configuration file

`config set` of `src/cli.rs` with `load_json`, `write_json`, `validate_config_file` and
`parse_cli_value` of `src/config_store.rs`: the document is read and changed, written
under a temporary name, validated there and renamed into place.

The temporary name is the name of the file with another extension. If both names lead to
one file, the file is overwritten before it is validated, and a rejected value removes it
(`rejected_value_removes_config`). If they do not, the command changes the file entirely or
not at all; `config_set_atomic_iff` says exactly when it does.

Every call to the operating system can fail. The directory that a path leads to is
resolved beforehand, for both names alike: a location is a directory and a name in it.
-/

namespace AlturaProt.Config

open Foundation Python

/-! ## Values on the command line -/

/-- A sign, and what follows. -/
def takeSign : Str → Bool × Str
  | 0x2B :: rest => (false, rest)
  | 0x2D :: rest => (true, rest)
  | s => (false, s)

def signed (negative : Bool) (z : ℤ) : ℤ := if negative then -z else z

/-- A number that is written in decimal digits only. -/
def digitsOnly (s : Str) : Option ℕ :=
  if !s.isEmpty && s.all isAsciiDigit then some (decimalValue s) else none

/-- `str::parse::<i64>`. -/
def parseI64 (s : Str) : Option ℤ := do
  let (negative, digits) := takeSign s
  let n ← digitsOnly digits
  let z := signed negative n
  if -2 ^ 63 ≤ z ∧ z < 2 ^ 63 then some z else none

/-- The exponent of a number, which may be absent. -/
def parseExponent : Str → Option ℤ
  | [] => some 0
  | e :: rest =>
    if toAsciiLowercase e = 0x65 then
      let (negative, digits) := takeSign rest
      (digitsOnly digits).map fun n => signed negative n
    else none

/-- Digits with a point among them, and an exponent. -/
def parseDecimal (s : Str) : Option ℚ := do
  let whole := s.takeWhile isAsciiDigit
  let rest := s.dropWhile isAsciiDigit
  let point := rest.head? = some 0x2E
  let fraction := if point then (rest.drop 1).takeWhile isAsciiDigit else []
  let tail := if point then (rest.drop 1).dropWhile isAsciiDigit else rest
  if whole.isEmpty && fraction.isEmpty then none
  let exponent ← parseExponent tail
  return decimalValue (whole ++ fraction) * (10 : ℚ) ^ (exponent - fraction.length)

/-- `str::parse::<f64>`. -/
def parseF64 (s : Str) : Option Double :=
  let (negative, body) := takeSign s
  let word := body.map toAsciiLowercase
  if word = utf8 "inf" ∨ word = utf8 "infinity" then some (.infinite negative)
  else if word = utf8 "nan" then some .nan
  else (parseDecimal body).map fun q => .ofRat (if negative then -q else q)

/-- `Value::from(f64)`: only finite numbers are numbers of JSON. -/
def valueOfF64 : Double → PyValue Double
  | .finite value exact bounded => .float (.finite value exact bounded)
  | _ => .none

/-- What the command takes from elsewhere: how JSON is read and written, how paths are
shown, and what the checks of the configuration take. -/
structure StoreEnv (P : Type) where
  parse : Str → Option (PyValue Double)
  render : PyValue Double → Str
  display : P → String
  checks : CheckEnv

variable {P D : Type}

def parseCliValue (env : StoreEnv P) (raw : String) : PyValue Double :=
  (env.parse (utf8 raw)).getD <|
    ((parseI64 (utf8 raw)).map PyValue.int).getD <|
      ((parseF64 (utf8 raw)).map valueOfF64).getD <|
        if raw = "true" then .bool true else if raw = "false" then .bool false else .str (py raw)

/-! ## Names -/

/-- A name in a directory. -/
structure Location (D : Type) where
  dir : D
  name : Str
deriving DecidableEq

/-- `Path::file_stem`: the name before its last dot, unless nothing comes before it. -/
def fileStem (name : Str) : Str :=
  let before := ((name.reverse.dropWhile (· ≠ 0x2E)).drop 1).reverse
  if before = [] then name else before

/-- `Path::with_extension`; what is no name of a file has no extension. -/
def withExtension (extension name : Str) : Str :=
  if name = [] ∨ name = [0x2E] ∨ name = [0x2E, 0x2E] then name
  else fileStem name ++ 0x2E :: extension

/-- The temporary name. -/
def tmpName (name : Str) : Str := withExtension (utf8 "tmp") name

def Location.tmp (path : Location D) : Location D := { path with name := tmpName path.name }

theorem fileStem_ne_nil {name : Str} (h : name ≠ []) : fileStem name ≠ [] := by
  unfold fileStem
  dsimp only
  split
  · exact h
  · assumption

theorem fileStem_append {stem extension : Str} (hstem : stem ≠ []) (hdot : 0x2E ∉ extension) :
    fileStem (stem ++ 0x2E :: extension) = stem := by
  have hbefore : ((stem ++ 0x2E :: extension).reverse.dropWhile (· ≠ 0x2E)) =
      0x2E :: stem.reverse := by
    rw [List.reverse_append, List.reverse_cons, List.append_assoc,
      List.dropWhile_append_of_pos (by
        intro b hb
        exact decide_eq_true fun heq => hdot (heq ▸ List.mem_reverse.mp hb))]
    rfl
  unfold fileStem
  rw [hbefore]
  simp [hstem]

/-- The temporary name of a temporary name is itself. -/
theorem tmpName_tmpName (name : Str) : tmpName (tmpName name) = tmpName name := by
  by_cases hspecial : name = [] ∨ name = [0x2E] ∨ name = [0x2E, 0x2E]
  · have hself : tmpName name = name := if_pos hspecial
    rw [hself, hself]
  · have hname : tmpName name = fileStem name ++ 0x2E :: utf8 "tmp" := if_neg hspecial
    have hstem : fileStem name ≠ [] := fileStem_ne_nil fun hnil => hspecial (.inl hnil)
    have hlength : 5 ≤ (fileStem name ++ 0x2E :: utf8 "tmp").length := by
      have := List.length_pos_iff.mpr hstem
      have hext : (utf8 "tmp").length = 3 := by decide
      rw [List.length_append, List.length_cons, hext]
      omega
    rw [hname, tmpName, withExtension, fileStem_append hstem (by decide), if_neg]
    rintro (hnil | hdot | hdots)
    · simp [hnil] at hlength
    · simp [hdot] at hlength
    · simp [hdots] at hlength

theorem Location.tmp_tmp (path : Location D) : path.tmp.tmp = path.tmp := by
  simp only [Location.tmp, tmpName_tmpName]

/-! ## The commands -/

inductive StoreError where
  | io
  | json
  | message (text : String)
deriving DecidableEq

/-- What the operating system fails to do. -/
structure Faults where
  createDir : Bool
  /-- writing fails, and may leave something in the file -/
  write : Option (Option Str)
  /-- the rename at the end of `write_json` -/
  tidy : Bool
  /-- reading what is to be validated -/
  check : Bool
  remove : Bool
  rename : Bool
deriving DecidableEq

def DEFAULT_CONFIG_MAX_BYTES : ℕ := Filter.DEFAULT_RUNTIME_FILTER_MAX_BYTES

def loadJson (env : StoreEnv P) (files : FileSystem P) (path : P) :
    Except StoreError (PyValue Double) :=
  match files.read path with
  | none => .error .io
  | some raw => (env.parse raw).elim (.error .json) .ok

section Commands

variable [DecidableEq D]

/-- `write_json`: the file system afterwards, and the result. -/
def writeJson (env : StoreEnv (Location D)) (faults : Faults) (files : FileSystem (Location D))
    (path : Location D) (doc : PyValue Double) :
    FileSystem (Location D) × Except StoreError Unit :=
  if faults.createDir then (files, .error .io)
  else
    match faults.write with
    | some left => ((left.bind (files.write path.tmp)).getD files, .error .io)
    | none =>
      match files.write path.tmp (env.render doc ++ utf8 "\n") with
      | none => (files, .error .io)
      | some files =>
        if faults.tidy then (files, .error .io)
        else (files.rename path.tmp path).elim (files, .error .io) fun files => (files, .ok ())

/-- `AppConfig::from_path`, on the text of the file. -/
def checkText (env : StoreEnv P) (shown : String) (text : Str) : Except StoreError AppConfig := do
  rejectIf (DEFAULT_CONFIG_MAX_BYTES < text.length) <| .message <|
    s!"config file {shown} is {text.length} bytes, above configured cap of " ++
      s!"{DEFAULT_CONFIG_MAX_BYTES} bytes"
  let doc ← (env.parse text).elim (.error .json) .ok
  let cfg ← (AppConfig.ofJson doc).elim (.error .json) .ok
  (cfg.validate env.checks).mapError .message
  return cfg

def validateConfigFile [DecidableEq P] (env : StoreEnv P) (fault : Bool) (files : FileSystem P)
    (path : P) : Except StoreError AppConfig :=
  if fault then .error .io
  else
    match files.read path with
    | some text => checkText env (env.display path) text
    | none =>
      if (files.target path).bind files.entry = some .dir then
        .error (.message s!"config file {env.display path} must be a regular file")
      else .error .io

/-- `config set`, from the changed document on. -/
def replaceFile (env : StoreEnv (Location D)) (faults : Faults)
    (files : FileSystem (Location D)) (path : Location D) (document : PyValue Double) :
    FileSystem (Location D) × Except StoreError Unit :=
  match writeJson env faults files path.tmp document with
  | (files, .error e) => (files, .error e)
  | (files, .ok ()) =>
    match validateConfigFile env faults.check files path.tmp with
    | .error e =>
      -- the result of the removal is ignored
      let removed := if faults.remove then none else files.remove path.tmp
      (removed.getD files, .error e)
    | .ok _ =>
      let renamed := if faults.rename then none else files.rename path.tmp path
      renamed.elim (files, .error .io) fun files => (files, .ok ())

/-- `config set`. -/
def configSet (env : StoreEnv (Location D)) (faults : Faults) (files : FileSystem (Location D))
    (path : Location D) (key raw : String) :
    FileSystem (Location D) × Except StoreError Unit :=
  match loadJson env files path with
  | .error e => (files, .error e)
  | .ok document =>
    match setValue document key (parseCliValue env raw) with
    | (_, .error e) => (files, .error (.message e))
    | (document, .ok ()) => replaceFile env faults files path document

/-! ## All or nothing -/

/-- A failed command leaves the file as it was, and one that succeeds leaves the old document
with the addressed value replaced, in a file that is accepted. -/
structure AllOrNothing (env : StoreEnv (Location D)) (files : FileSystem (Location D))
    (path : Location D) (key raw : String)
    (outcome : FileSystem (Location D) × Except StoreError Unit) : Prop where
  nothing : ∀ e, outcome.2 = .error e → outcome.1.read path = files.read path
  all : outcome.2 = .ok () → ∃ old doc doc',
    files.read path = some old ∧ env.parse old = some doc ∧
    Replaces (parseCliValue env raw) (segments key) doc doc' ∧
    outcome.1.read path = some (env.render doc' ++ utf8 "\n") ∧
    ∃ cfg, validateConfigFile env false outcome.1 path = .ok cfg

/-- The text is a valid configuration, under whatever name. -/
def accepts (env : StoreEnv P) (text : Str) : Bool := (checkText env "" text).isOk

/-- The command comes to write `text`, for the document of the file with one value set. -/
structure Prepares (env : StoreEnv P) (files : FileSystem P) (path : P) (key raw : String)
    (old text : Str) : Prop where
  read : files.read path = some old
  changed : ∃ doc doc', env.parse old = some doc ∧
    setValue doc key (parseCliValue env raw) = (doc', .ok ()) ∧
    text = env.render doc' ++ utf8 "\n"

/-- The old and the new text are determined. -/
theorem Prepares.unique {env : StoreEnv P} {files : FileSystem P} {path : P}
    {key raw : String} {old old' text text' : Str}
    (h : Prepares env files path key raw old text)
    (h' : Prepares env files path key raw old' text') : old' = old ∧ text' = text := by
  have hold : old' = old := Option.some.inj (h'.read.symm.trans h.read)
  obtain ⟨doc, changed, hparse, hset, rfl⟩ := h.changed
  obtain ⟨doc', changed', hparse', hset', rfl⟩ := h'.changed
  rw [hold, hparse, Option.some.injEq] at hparse'
  rw [← hparse', hset] at hset'
  have hchanged : changed = changed' := congrArg Prod.fst hset'
  exact ⟨hold, by rw [hchanged]⟩

/-- What makes no difference if both names lead to one file: the command fails before it
writes, what it leaves is the old text, or the name still leads to the new text. -/
def Harmless (env : StoreEnv (Location D)) (faults : Faults) (files : FileSystem (Location D))
    (path : Location D) (old text : Str) : Prop :=
  if faults.createDir then True
  else
    match faults.write with
    | some left => ∀ bytes ∈ left, bytes = old
    | none =>
      if faults.tidy then text = old
      else if !faults.check && accepts env text then
        if faults.rename then text = old else path.tmp = path ∨ ¬ files.Visits path.tmp path
      else text = old ∧ (faults.remove ∨ ¬ files.Visits path path.tmp)

variable {env : StoreEnv (Location D)} {faults : Faults} {files files' : FileSystem (Location D)}
  {path : Location D} {key raw : String} {old text : Str} {doc : PyValue Double}

theorem isOk_checkText (env : StoreEnv P) (shown : String) (text : Str) :
    (checkText env shown text).isOk = accepts env text := by
  unfold accepts checkText
  by_cases hlong : DEFAULT_CONFIG_MAX_BYTES < text.length
  · simp [rejectIf, hlong, bind, Except.bind]
    rfl
  · simp only [rejectIf, hlong, decide_false]
    rfl

theorem exists_ok_iff {ε α : Type} {x : Except ε α} : (∃ a, x = .ok a) ↔ x.isOk = true := by
  cases x with
  | ok a => exact ⟨fun _ => rfl, fun _ => ⟨a, rfl⟩⟩
  | error e => exact ⟨fun ⟨_, h⟩ => (nomatch h), fun h => nomatch h⟩

theorem isOk_validateConfigFile {fault : Bool} {p : Location D} (h : files.read p = some text) :
    (validateConfigFile env fault files p).isOk = (!fault && accepts env text) := by
  cases fault with
  | true => rfl
  | false =>
    rw [validateConfigFile, if_neg nofun, h]
    exact isOk_checkText env _ text

/-- The exits of the command after the new text has been written. -/
theorem replaceFile_of_write (hdir : faults.createDir = false) (hwrite : faults.write = none)
    (h : files.write path.tmp (env.render doc ++ utf8 "\n") = some files') :
    ∃ e, replaceFile env faults files path doc =
      if faults.tidy then (files', .error .io)
      else if !faults.check && accepts env (env.render doc ++ utf8 "\n") then
        (if faults.rename then none else files'.rename path.tmp path).elim
          (files', .error .io) fun files => (files, .ok ())
      else ((if faults.remove then none else files'.remove path.tmp).getD files', .error e) := by
  have hjson : writeJson env faults files path.tmp doc =
      if faults.tidy then (files', .error .io) else (files', .ok ()) := by
    have hself := FileSystem.rename_self (FileSystem.entry_write h)
    simp [writeJson, hdir, hwrite, Location.tmp_tmp, h, hself]
  have hcheck : (validateConfigFile env faults.check files' path.tmp).isOk = _ :=
    isOk_validateConfigFile (FileSystem.read_write h)
  unfold replaceFile
  rw [hjson, ← hcheck]
  cases faults.tidy with
  | true => exact ⟨.io, rfl⟩
  | false =>
    cases hvalid : validateConfigFile env faults.check files' path.tmp with
    | error e => exact ⟨e, by simp [hvalid, Except.isOk, Except.toBool]⟩
    | ok cfg => exact ⟨.io, by simp [hvalid, Except.isOk, Except.toBool]⟩

/-! ### What is left under the name -/

theorem allOrNothing_error {e : StoreError} :
    AllOrNothing env files path key raw (files', .error e) ↔ files'.read path = files.read path :=
  ⟨fun h => h.nothing e rfl, fun h => ⟨fun _ _ => h, nofun⟩⟩

theorem allOrNothing_ok (hprepares : Prepares env files path key raw old text)
    (haccepts : accepts env text = true) (hread : files'.read path = some text) :
    AllOrNothing env files path key raw (files', .ok ()) := by
  refine ⟨nofun, fun _ => ?_⟩
  obtain ⟨doc, doc', hparse, hset, rfl⟩ := hprepares.changed
  refine ⟨old, doc, doc', hprepares.read, hparse, ?_, hread, ?_⟩
  · rcases setValue_replaces doc key (parseCliValue env raw) with ⟨e, herror⟩ | ⟨-, hreplaces⟩
    · rw [hset] at herror
      cases congrArg Prod.snd herror
    · rwa [hset] at hreplaces
  · rw [exists_ok_iff, isOk_validateConfigFile hread, haccepts]
    rfl

theorem not_allOrNothing_ok (hread : files'.read path = none) :
    ¬ AllOrNothing env files path key raw (files', .ok ()) := by
  intro h
  obtain ⟨_, _, _, -, -, -, hsome, -⟩ := h.all rfl
  rw [show (files', Except.ok ()).1.read path = _ from hread] at hsome
  cases hsome

/-- After a write under the temporary name, the file is as before exactly if another file, or
the old text, was written. -/
theorem read_write_iff (hread : files.read path = some old)
    (h : files.write path.tmp text = some files') :
    files'.read path = files.read path ↔
      (files.fileAt path.tmp = files.fileAt path → text = old) := by
  obtain ⟨i, hfile, -⟩ := Option.map_eq_some_iff.mp hread
  by_cases hsame : files.fileAt path.tmp = files.fileAt path
  · rw [FileSystem.read_write_same h hfile hsame, hread, Option.some.injEq]
    exact ⟨fun heq _ => heq, fun himp => himp hsame⟩
  · rw [FileSystem.read_write_other h hfile hsame]
    exact ⟨fun _ heq => absurd heq hsame, fun _ => rfl⟩

/-- The removal of the temporary name besides takes the file away if the name leads over it. -/
theorem read_remove_iff (hread : files.read path = some old)
    (h : files.write path.tmp text = some files') :
    (files'.erase path.tmp).read path = files.read path ↔
      (files.fileAt path.tmp = files.fileAt path → text = old ∧ ¬ files.Visits path path.tmp) := by
  obtain ⟨i, hfile, -⟩ := Option.map_eq_some_iff.mp hread
  by_cases hvisits : files.Visits path path.tmp
  · have hgone : (files'.erase path.tmp).read path = none :=
      FileSystem.read_erase_of_visits ((FileSystem.visits_write h _ _).mpr hvisits)
    rw [hgone, hread]
    exact ⟨nofun, fun himp => absurd hvisits (himp hvisits.fileAt_eq).2⟩
  · have hstays : (files'.erase path.tmp).read path = files'.read path :=
      FileSystem.read_erase (FileSystem.fileAt_write h hfile)
        (fun hv => hvisits ((FileSystem.visits_write h _ _).mp hv))
    rw [hstays, read_write_iff hread h]
    exact ⟨fun himp heq => ⟨himp heq, hvisits⟩, fun himp heq => (himp heq).1⟩

/-- The renaming leaves the new text, unless the temporary name leads over the name. -/
theorem allOrNothing_renamed {files'' : FileSystem (Location D)}
    (hprepares : Prepares env files path key raw old text) (haccepts : accepts env text = true)
    (h : files.write path.tmp text = some files')
    (hrename : files'.rename path.tmp path = some files'') :
    AllOrNothing env files path key raw (files'', .ok ()) ↔
      (files.fileAt path.tmp = files.fileAt path →
        path.tmp = path ∨ ¬ files.Visits path.tmp path) := by
  have hwritten := FileSystem.read_write h
  obtain ⟨i, hfile, -⟩ := Option.map_eq_some_iff.mp hwritten
  by_cases hclear : path.tmp = path ∨ ¬ files.Visits path.tmp path
  · have hclear' : path.tmp = path ∨ ¬ files'.Visits path.tmp path :=
      hclear.imp_right fun hv => hv ∘ (FileSystem.visits_write h _ _).mp
    have hread : files''.read path = some text :=
      (FileSystem.read_rename hrename hfile hclear').trans hwritten
    exact ⟨fun _ _ => hclear, fun _ => allOrNothing_ok hprepares haccepts hread⟩
  · obtain ⟨hne, hvisits⟩ := not_or.mp hclear
    have hvisits := not_not.mp hvisits
    have hgone : files''.read path = none :=
      FileSystem.read_rename_of_visits hrename hne ((FileSystem.visits_write h _ _).mpr hvisits)
    exact ⟨fun hall => absurd hall (not_allOrNothing_ok hgone),
      fun himp => absurd (himp hvisits.fileAt_eq.symm) hclear⟩

/-! ### The exits of the command -/

/-- Before anything is written. -/
theorem allOrNothing_unchanged (e : StoreError) :
    AllOrNothing env files path key raw (files, .error e) :=
  allOrNothing_error.mpr rfl

theorem replaceFile_torn {left : Option Str} (hread : files.read path = some old)
    (hdir : faults.createDir = false) (hwrite : faults.write = some left) :
    AllOrNothing env files path key raw (replaceFile env faults files path doc) ↔
      (files.fileAt path.tmp = files.fileAt path → ∀ bytes ∈ left, bytes = old) := by
  have hexit : replaceFile env faults files path doc =
      ((left.bind (files.write path.tmp)).getD files, .error .io) := by
    simp [replaceFile, writeJson, hdir, hwrite, Location.tmp_tmp]
  rw [hexit, allOrNothing_error]
  cases left with
  | none => exact ⟨fun _ _ => nofun, fun _ => rfl⟩
  | some bytes =>
    cases hleft : files.write path.tmp bytes with
    | none =>
      rw [Option.bind_some, hleft]
      refine ⟨fun _ hsame => ?_, fun _ => rfl⟩
      obtain ⟨i, hfile, -⟩ := Option.map_eq_some_iff.mp hread
      obtain ⟨_, hsome⟩ := FileSystem.exists_write (hsame.trans hfile) bytes
      rw [hleft] at hsome
      cases hsome
    | some files' =>
      rw [Option.bind_some, hleft, Option.getD_some, read_write_iff hread hleft]
      simp

theorem replaceFile_unwritten (hread : files.read path = some old)
    (hdir : faults.createDir = false) (hwrite : faults.write = none)
    (h : files.write path.tmp (env.render doc ++ utf8 "\n") = none) :
    replaceFile env faults files path doc = (files, .error .io) ∧
      files.fileAt path.tmp ≠ files.fileAt path := by
  have hexit : replaceFile env faults files path doc = (files, .error .io) := by
    simp [replaceFile, writeJson, hdir, hwrite, Location.tmp_tmp, h]
  refine ⟨hexit, fun hsame => ?_⟩
  obtain ⟨i, hfile, -⟩ := Option.map_eq_some_iff.mp hread
  obtain ⟨_, hsome⟩ := FileSystem.exists_write (hsame.trans hfile) (env.render doc ++ utf8 "\n")
  rw [h] at hsome
  cases hsome

theorem replaceFile_iff
    (hprepares : Prepares env files path key raw old (env.render doc ++ utf8 "\n")) :
    AllOrNothing env files path key raw (replaceFile env faults files path doc) ↔
      (files.fileAt path.tmp = files.fileAt path →
        Harmless env faults files path old (env.render doc ++ utf8 "\n")) := by
  have hread := hprepares.read
  obtain ⟨i, hfile, -⟩ := Option.map_eq_some_iff.mp hread
  unfold Harmless
  cases hdir : faults.createDir with
  | true =>
    have hexit : replaceFile env faults files path doc = (files, .error .io) := by
      simp [replaceFile, writeJson, hdir]
    rw [hexit]
    exact ⟨fun _ _ => trivial, fun _ => allOrNothing_unchanged _⟩
  | false =>
    cases hwrite : faults.write with
    | some left => exact replaceFile_torn hread hdir hwrite
    | none =>
      cases h : files.write path.tmp (env.render doc ++ utf8 "\n") with
      | none =>
        obtain ⟨hexit, hother⟩ := replaceFile_unwritten hread hdir hwrite h
        rw [hexit]
        exact ⟨fun _ hsame => absurd hsame hother, fun _ => allOrNothing_unchanged _⟩
      | some files' =>
        obtain ⟨e, hexit⟩ := replaceFile_of_write hdir hwrite h
        rw [hexit]
        -- the exits after the write, in the order of the command
        cases htidy : faults.tidy with
        | true => exact allOrNothing_error.trans (read_write_iff hread h)
        | false =>
          cases haccepts : (!faults.check && accepts env (env.render doc ++ utf8 "\n")) with
          | true =>
            cases hrename : faults.rename with
            | true => exact allOrNothing_error.trans (read_write_iff hread h)
            | false =>
              obtain ⟨files'', hfiles''⟩ := FileSystem.exists_rename
                (FileSystem.entry_write h)
                (FileSystem.entry_ne_dir (FileSystem.fileAt_write h hfile))
              simp only [Bool.false_eq_true, if_false, if_true, hfiles'', Option.elim_some]
              exact allOrNothing_renamed hprepares
                (Bool.and_eq_true_iff.mp haccepts).2 h hfiles''
          | false =>
            cases hremove : faults.remove with
            | true =>
              simpa using allOrNothing_error.trans (read_write_iff hread h)
            | false =>
              have hremoved : files'.remove path.tmp = some (files'.erase path.tmp) :=
                if_neg (FileSystem.entry_write h)
              simpa [hremoved] using
                allOrNothing_error.trans (read_remove_iff hread h)

/-- Before the document has been changed nothing is written. -/
theorem configSet_cases (env : StoreEnv (Location D)) (faults : Faults)
    (files : FileSystem (Location D)) (path : Location D) (key raw : String) :
    ((∀ old text, ¬ Prepares env files path key raw old text) ∧
      ∃ e, configSet env faults files path key raw = (files, .error e)) ∨
    ∃ old doc, Prepares env files path key raw old (env.render doc ++ utf8 "\n") ∧
      configSet env faults files path key raw = replaceFile env faults files path doc := by
  cases hread : files.read path with
  | none =>
    refine .inl ⟨fun old text h => ?_, .io, by simp [configSet, loadJson, hread]⟩
    rw [h.read] at hread
    cases hread
  | some old =>
    cases hparse : env.parse old with
    | none =>
      refine .inl ⟨fun old' text h => ?_, .json, by simp [configSet, loadJson, hread, hparse]⟩
      obtain ⟨doc, _, hdoc, -, -⟩ := h.changed
      rw [← Option.some.inj (hread.symm.trans h.read), hparse] at hdoc
      cases hdoc
    | some doc =>
      have hload : loadJson env files path = .ok doc := by simp [loadJson, hread, hparse]
      rcases setValue_replaces doc key (parseCliValue env raw) with ⟨e, herror⟩ | ⟨hok, -⟩
      · refine .inl ⟨fun old' text h => ?_, .message e, by simp [configSet, hload, herror]⟩
        obtain ⟨doc', _, hdoc, hset, -⟩ := h.changed
        rw [← Option.some.inj (hread.symm.trans h.read), hparse, Option.some.injEq] at hdoc
        rw [← hdoc, herror] at hset
        cases congrArg Prod.snd hset
      · obtain ⟨doc', hset⟩ : ∃ doc', setValue doc key (parseCliValue env raw) =
            (doc', .ok ()) := ⟨_, Prod.ext rfl hok⟩
        refine .inr ⟨old, doc', ⟨hread, doc, doc', hparse, hset, rfl⟩, ?_⟩
        simp [configSet, hload, hset]

/-- **When `config set` is all or nothing.** For every state of the files and every path,
key, value and fault: exactly if the temporary name leads to another file, or it makes no
difference that it does not. -/
theorem config_set_atomic_iff (env : StoreEnv (Location D)) (faults : Faults)
    (files : FileSystem (Location D)) (path : Location D) (key raw : String) :
    AllOrNothing env files path key raw (configSet env faults files path key raw) ↔
      ∀ old text, Prepares env files path key raw old text →
        files.fileAt path.tmp = files.fileAt path →
        Harmless env faults files path old text := by
  rcases configSet_cases env faults files path key raw with
    ⟨hnone, e, hexit⟩ | ⟨old, doc, hprepares, hexit⟩
  · rw [hexit]
    exact ⟨fun _ old text h => absurd h (hnone old text), fun _ => allOrNothing_unchanged e⟩
  · rw [hexit, replaceFile_iff hprepares]
    constructor
    · intro himp old' text' h
      obtain ⟨rfl, rfl⟩ := hprepares.unique h
      exact himp
    · exact fun himp => himp old _ hprepares

/-- With nothing under the temporary name, the command is all or nothing. -/
theorem all_or_nothing_of_no_tmp (h : files.entry path.tmp = none) :
    AllOrNothing env files path key raw (configSet env faults files path key raw) := by
  rcases configSet_cases env faults files path key raw with
    ⟨-, e, hexit⟩ | ⟨old, doc, hprepares, hexit⟩
  · rw [hexit]
    exact allOrNothing_unchanged e
  · rw [hexit, replaceFile_iff hprepares]
    intro hsame
    obtain ⟨i, hfile, -⟩ := Option.map_eq_some_iff.mp hprepares.read
    have hlink : files.linkAt path.tmp = none := by rw [FileSystem.linkAt, h]; rfl
    rw [hfile, FileSystem.fileAt, FileSystem.target_of_no_link hlink] at hsame
    simp [FileSystem.inodeAt, h] at hsame

end Commands

/-! ## A rejected value removes the file -/

/-- One file, under one name. -/
def oneFile (name : Str) (text : Str) : FileSystem (Location Unit) where
  entry p := if p.name = name then some (.file 0) else none
  content _ := text
  next := 1
  fresh p i h := by
    split at h
    · cases h
      decide
    · cases h

/-- The texts of three documents, as they are read and written. -/
def threeTexts : List (Str × PyValue Double) :=
  [(utf8 "\x7b\x7d\n", .dict []), (utf8 "7", .int 7),
    (utf8 "\x7b\n  \"http\": 7\n\x7d\n", .dict [(py "http", .int 7)])]

def threeTextsEnv : StoreEnv (Location Unit) where
  parse text := threeTexts.lookup text
  render
    | .dict [(_, .int 7)] => utf8 "\x7b\n  \"http\": 7\n\x7d"
    | _ => utf8 "\x7b\x7d"
  display _ := "config.tmp"
  checks := ⟨Http.httpCrate, Http.tokenMethods, asciiText, toString⟩

def noFaults : Faults := ⟨false, none, false, false, false, false⟩

/-- An empty object. -/
def tmpFiles : FileSystem (Location Unit) := oneFile (utf8 "config.tmp") (utf8 "\x7b\x7d\n")

def tmpPath : Location Unit := ⟨(), utf8 "config.tmp"⟩

/-- `config set http 7` on a file `config.tmp` that holds an empty object: the value is
refused, and the file is gone. -/
theorem rejected_value_removes_config :
    tmpFiles.read tmpPath = some (utf8 "\x7b\x7d\n") ∧
      (configSet threeTextsEnv noFaults tmpFiles tmpPath "http" "7").2 = .error .json ∧
      (configSet threeTextsEnv noFaults tmpFiles tmpPath "http" "7").1.read tmpPath = none := by
  decide +kernel

end AlturaProt.Config
