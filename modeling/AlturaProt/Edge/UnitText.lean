import AlturaProt.Edge.SystemdUnit

/-!
# Units as text

A unit that is written out section by section is read back by `parse_systemd_unit`
(`parseSystemdUnit_unitText`), and numbers that are written out in digits are read
back by the readers of limits and durations.
-/

namespace AlturaProt.Edge

open Foundation Foundation.PyText

/-! ## Units that are written out -/

def entryLine (entry : Text × Text) : Text := entry.1 ++ '=' :: entry.2

def sectionLines (unit : Text × UnitSection) : List Text :=
  ('[' :: (unit.1 ++ [']'])) :: unit.2.map entryLine

/-- Sections as the text of a unit file. -/
def unitText (units : List (Text × UnitSection)) : Text :=
  (units.flatMap sectionLines).flatMap (· ++ ['\n'])

/-- Without blanks and what else means something in a line. -/
def isName (s : Text) : Bool := s.all fun c => !isSpace c && c != '#' && c != '=' && c != '['

/-- In one line, without a comment and blanks at its ends. -/
def isValue (s : Text) : Bool :=
  s.all (fun c => !isLineBreak c && c != '#') && s.head?.all (fun c => !isSpace c) &&
    s.getLast?.all fun c => !isSpace c

def isEntry (entry : Text × Text) : Bool := isName entry.1 && isValue entry.2

theorem isName_iff {s : Text} :
    isName s = true ↔ ∀ c ∈ s, isSpace c = false ∧ c ≠ '#' ∧ c ≠ '=' ∧ c ≠ '[' := by
  simp [isName, and_assoc]

theorem isValue_iff {s : Text} :
    isValue s = true ↔ (∀ c ∈ s, isLineBreak c = false ∧ c ≠ '#') ∧
      (∀ c ∈ s.head?, isSpace c = false) ∧ ∀ c ∈ s.getLast?, isSpace c = false := by
  simp only [isValue, Bool.and_eq_true, List.all_eq_true, Option.all_eq_true, Bool.not_eq_true',
    bne_iff_ne, and_assoc, Option.mem_def]

theorem strip_of_isValue {s : Text} (h : isValue s = true) : PyText.strip s = s := by
  obtain ⟨-, hhead, hlast⟩ := isValue_iff.mp h
  exact trimBy_of_ends hhead hlast

/-- A text without blanks and comments is a value. -/
theorem isValue_of_plain {s : Text} (h : ∀ c ∈ s, isSpace c = false ∧ c ≠ '#') :
    isValue s = true :=
  isValue_iff.mpr ⟨fun c hc => ⟨isLineBreak_of_isSpace (h c hc).1, (h c hc).2⟩,
    fun c hc => (h c (List.mem_of_head? hc)).1, fun c hc => (h c (List.mem_of_getLast? hc)).1⟩

theorem isValue_of_isName {s : Text} (h : isName s = true) : isValue s = true :=
  isValue_of_plain fun c hc => ⟨(isName_iff.mp h c hc).1, (isName_iff.mp h c hc).2.1⟩

theorem isValue_entryLine {entry : Text × Text} (h : isEntry entry = true) :
    isValue (entryLine entry) = true := by
  obtain ⟨key, value⟩ := entry
  obtain ⟨hkey, hvalue⟩ := (Bool.and_eq_true _ _).mp h
  obtain ⟨hkeyChars, hkeyHead, -⟩ := isValue_iff.mp (isValue_of_isName hkey)
  obtain ⟨hchars, -, hlast⟩ := isValue_iff.mp hvalue
  refine isValue_iff.mpr ⟨?_, ?_, ?_⟩
  · intro c hc
    rcases List.mem_append.mp hc with hc | hc
    · exact hkeyChars c hc
    · rcases List.mem_cons.mp hc with rfl | hc
      · decide
      · exact hchars c hc
  · cases key with
    | nil => simp [entryLine]; decide
    | cons c key => exact hkeyHead
  · rw [entryLine, List.getLast?_append_cons]
    cases value with
    | nil => simp; decide
    | cons c value => rwa [List.getLast?_cons_cons]

theorem readUnitLine_entry {entry : Text × Text} (h : isEntry entry = true) (name : Text)
    (sections : UnitSections) :
    readUnitLine (some name, sections) (entryLine entry) =
      .ok (some name, { sections with entries := sections.entries ++ [(name, entry)] }) := by
  have hline := isValue_entryLine h
  obtain ⟨key, value⟩ := entry
  obtain ⟨hkey, hvalue⟩ := (Bool.and_eq_true _ _).mp h
  have hcomment : '#' ∉ entryLine (key, value) :=
    fun hmem => ((isValue_iff.mp hline).1 _ hmem).2 rfl
  have hequals : '=' ∉ key := fun hmem => (isName_iff.mp hkey _ hmem).2.2.1 rfl
  have hsplit : partition '=' (entryLine (key, value)) = (key, value) := partition_append hequals _
  have hempty : (entryLine (key, value)).isEmpty = false := by simp [entryLine]
  have hmem : '=' ∈ entryLine (key, value) := by simp [entryLine]
  have hfirst : ((entryLine (key, value)).head? == some '[') = false := by
    cases key with
    | nil => rfl
    | cons c key =>
      have hc := (isName_iff.mp hkey c List.mem_cons_self).2.2.2
      simpa [entryLine] using hc
  simp only [readUnitLine, partition_of_notMem hcomment, strip_of_isValue hline, hempty, hfirst,
    Bool.false_and, hmem, hsplit, strip_of_isValue (isValue_of_isName hkey),
    strip_of_isValue hvalue]
  rfl

theorem isValue_header {name : Text} (h : isName name = true) :
    isValue ('[' :: (name ++ [']'])) = true := by
  refine isValue_of_plain fun c hc => ?_
  rcases List.mem_cons.mp hc with rfl | hc
  · decide
  rcases List.mem_append.mp hc with hc | hc
  · exact ⟨(isName_iff.mp h c hc).1, (isName_iff.mp h c hc).2.1⟩
  · rw [List.mem_singleton.mp hc]
    decide

theorem readUnitLine_header {name : Text} (h : isName name = true) (current : Option Text)
    (sections : UnitSections) :
    readUnitLine (current, sections) ('[' :: (name ++ [']'])) =
      .ok (some name, { sections with names := sections.names ++ [name] }) := by
  have hline := isValue_header h
  have hcomment : '#' ∉ '[' :: (name ++ [']']) :=
    fun hmem => ((isValue_iff.mp hline).1 _ hmem).2 rfl
  have hbrackets : (('[' :: (name ++ [']'])).head? == some '[' &&
      ('[' :: (name ++ [']'])).getLast? == some ']') = true := by
    rw [← List.cons_append, List.getLast?_concat]
    rfl
  have hname : ('[' :: (name ++ [']'])).tail.dropLast = name := by simp
  simp only [readUnitLine, partition_of_notMem hcomment, strip_of_isValue hline, hbrackets,
    List.drop_one, hname, strip_of_isValue (isValue_of_isName h)]
  rfl

theorem foldlM_entries {entries : UnitSection} (h : entries.all isEntry = true) (name : Text)
    (sections : UnitSections) :
    (entries.map entryLine).foldlM readUnitLine (some name, sections) =
      .ok (some name,
        { sections with entries := sections.entries ++ entries.map fun e => (name, e) }) := by
  induction entries generalizing sections with
  | nil => simp [pure, Except.pure]
  | cons entry entries ih =>
    obtain ⟨hentry, hentries⟩ := (Bool.and_eq_true _ _).mp h
    rw [List.map_cons, List.foldlM_cons, readUnitLine_entry hentry]
    refine (ih hentries _).trans ?_
    simp

/-- **A unit that is written out is read back.** -/
theorem parseSystemdUnit_unitText {units : List (Text × UnitSection)}
    (h : ∀ unit ∈ units, isName unit.1 = true ∧ unit.2.all isEntry = true) :
    parseSystemdUnit (unitText units) =
      .ok ⟨units.map Prod.fst, units.flatMap fun unit => unit.2.map fun e => (unit.1, e)⟩ := by
  have hlines : splitLines (unitText units) = units.flatMap sectionLines := by
    refine splitLines_flatMap fun line hline => ?_
    obtain ⟨unit, hunit, hline⟩ := List.mem_flatMap.mp hline
    obtain ⟨hname, hentries⟩ := h unit hunit
    have hvalue : isValue line = true := by
      rcases List.mem_cons.mp hline with rfl | hline
      · exact isValue_header hname
      · obtain ⟨entry, hentry, rfl⟩ := List.mem_map.mp hline
        exact isValue_entryLine (List.all_eq_true.mp hentries entry hentry)
    exact fun c hc => ((isValue_iff.mp hvalue).1 c hc).1
  -- section after section, from any state
  have hread : ∀ (current : Option Text) (sections : UnitSections), ∃ current',
      (units.flatMap sectionLines).foldlM readUnitLine (current, sections) =
        .ok (current', ⟨sections.names ++ units.map Prod.fst,
          sections.entries ++ units.flatMap fun unit => unit.2.map fun e => (unit.1, e)⟩) := by
    clear hlines
    induction units with
    | nil => exact fun current sections => ⟨current, by simp [pure, Except.pure]⟩
    | cons unit units ih =>
      intro current sections
      obtain ⟨⟨hname, hentries⟩, h⟩ := List.forall_mem_cons.mp h
      obtain ⟨current', hrest⟩ := ih h (some unit.1)
        ⟨sections.names ++ [unit.1], sections.entries ++ unit.2.map fun e => (unit.1, e)⟩
      refine ⟨current', ?_⟩
      rw [List.flatMap_cons, List.foldlM_append, sectionLines, List.foldlM_cons,
        readUnitLine_header hname]
      show (do
        let state ← (unit.2.map entryLine).foldlM readUnitLine (some unit.1, _)
        (units.flatMap sectionLines).foldlM readUnitLine state) = _
      rw [foldlM_entries hentries]
      refine hrest.trans ?_
      simp
  obtain ⟨current', hall⟩ := hread none ⟨[], []⟩
  rw [parseSystemdUnit, hlines, hall]
  rfl

/-- The entries of a section whose name occurs once. -/
theorem get_of_mem {units : List (Text × UnitSection)} {name : String} (entries : UnitSection)
    (hmem : (name.toList, entries) ∈ units) (hnodup : (units.map Prod.fst).Nodup) :
    UnitSections.get
      ⟨units.map Prod.fst, units.flatMap fun unit => unit.2.map fun e => (unit.1, e)⟩ name =
      some entries := by
  -- the entries of one section are all kept or all left out
  have hkept : ∀ unit : Text × UnitSection,
      ((unit.2.map fun e => (unit.1, e)).filter fun entry => entry.1 == name.toList).map Prod.snd =
        if unit.1 = name.toList then unit.2 else [] := by
    intro unit
    split_ifs with h <;> simp [List.filter_map, Function.comp_def, h]
  have hfound : ((units.flatMap fun unit => unit.2.map fun e => (unit.1, e)).filter
      fun entry => entry.1 == name.toList).map Prod.snd = entries := by
    rw [List.filter_flatMap, List.map_flatMap]
    simp only [hkept]
    obtain ⟨before, after, rfl⟩ := List.append_of_mem hmem
    have hothers : ∀ unit ∈ before ++ after, unit.1 ≠ name.toList := by
      intro unit hunit heq
      have hperm := (List.perm_middle.map Prod.fst).nodup_iff.mp hnodup
      rw [List.map_cons, List.nodup_cons] at hperm
      have hagain := List.mem_map_of_mem (f := Prod.fst) hunit
      rw [heq] at hagain
      exact hperm.1 hagain
    have hnil : ∀ l : List (Text × UnitSection), (∀ unit ∈ l, unit.1 ≠ name.toList) →
        l.flatMap (fun unit => if unit.1 = name.toList then unit.2 else []) = [] :=
      fun l hl => List.flatMap_eq_nil_iff.mpr fun unit hunit => if_neg (hl unit hunit)
    rw [List.flatMap_append, List.flatMap_cons, if_pos rfl,
      hnil before fun unit hunit => hothers unit (List.mem_append_left _ hunit),
      hnil after fun unit hunit => hothers unit (List.mem_append_right _ hunit), List.nil_append,
      List.append_nil]
  have hname : name.toList ∈ units.map Prod.fst := List.mem_map_of_mem hmem
  rw [UnitSections.get, if_pos hname, hfound]

/-! ## Numbers as text -/

section Digits

variable {digits : List ℕ}

theorem plain_digitText (hdigits : ∀ d ∈ digits, d < 10) :
    ∀ c ∈ digitText digits, isSpace c = false ∧ c ≠ '#' := by
  intro c hc
  obtain ⟨d, hd, rfl⟩ := List.mem_map.mp hc
  have hlt := hdigits d hd
  refine ⟨isSpace_ascii hlt, ?_⟩
  interval_cases d <;> decide

theorem lower_digitText_ne (hdigits : ∀ d ∈ digits, d < 10) (hne : digits ≠ []) (rest : Text) :
    lower (digitText digits ++ rest) ≠ "infinity".toList := by
  cases digits with
  | nil => exact absurd rfl hne
  | cons d digits =>
    have hlt := hdigits d List.mem_cons_self
    rw [digitText, List.map_cons, List.cons_append, lower_ascii hlt]
    intro h
    have hhead : Char.ofNat (0x30 + d) = 'i' := by simpa using congrArg List.head? h
    interval_cases d <;> exact absurd hhead (by decide)

theorem parseSystemdNofileHardLimit_digitText (hdigits : ∀ d ∈ digits, d < 10) (hne : digits ≠ [])
    (hlength : digits.length ≤ INT_MAX_STR_DIGITS) :
    parseSystemdNofileHardLimit (digitText digits) = .ok (some (placeValue 10 digits)) := by
  have hcolon : ':' ∉ digitText digits := by
    intro hmem
    exact absurd (isDecimal_of_mem_digitText hdigits hmem) (by decide)
  have hword := lower_digitText_ne hdigits hne []
  rw [List.append_nil] at hword
  have hall : (digitText digits).all isDecimal = true :=
    List.all_eq_true.mpr fun c hc => isDecimal_of_mem_digitText hdigits hc
  have hempty : (digitText digits).isEmpty = false := by simpa [digitText] using hne
  have hint : intOfDigits (digitText digits) = .ok (placeValue 10 digits) := by
    have hlong : ¬INT_MAX_STR_DIGITS < (digitText digits).length := by
      simpa [digitText] using hlength
    rw [intOfDigits, if_neg hlong, digitsValue_digitText hdigits]
  simp only [parseSystemdNofileHardLimit,
    strip_of_isValue (isValue_of_plain (plain_digitText hdigits)), if_neg hcolon, bind,
    Except.bind, if_neg hword, hempty, hall, hint]
  rfl

end Digits

theorem TimeUnit.name_facts (unit : TimeUnit) :
    unit.name.toList.takeWhile isDecimal = [] ∧ readTimeUnit unit.name.toList = some unit ∧
      isName unit.name.toList = true := by
  cases unit <;> decide +kernel

theorem takeWhile_append_of_stop {α : Type} {p : α → Bool} {s t : List α}
    (hs : ∀ a ∈ s, p a = true) (ht : t.takeWhile p = []) :
    (s ++ t).takeWhile p = s ∧ (s ++ t).dropWhile p = t := by
  have hdrop : t.dropWhile p = t := by
    have happend := List.takeWhile_append_dropWhile (p := p) (l := t)
    rwa [ht, List.nil_append] at happend
  exact ⟨by rw [List.takeWhile_append_of_pos hs, ht, List.append_nil],
    by rw [List.dropWhile_append_of_pos hs, hdrop]⟩

/-- A number with a fraction and a unit. -/
def durationText (whole fraction : List ℕ) (unit : TimeUnit) : Text :=
  digitText whole ++ '.' :: (digitText fraction ++ unit.name.toList)

theorem isValue_durationText {whole fraction : List ℕ} (hwhole : ∀ d ∈ whole, d < 10)
    (hfraction : ∀ d ∈ fraction, d < 10) (unit : TimeUnit) :
    isValue (durationText whole fraction unit) = true := by
  obtain ⟨-, -, hname⟩ := unit.name_facts
  refine isValue_of_plain fun c hc => ?_
  rcases List.mem_append.mp hc with hc | hc
  · exact plain_digitText hwhole c hc
  rcases List.mem_cons.mp hc with rfl | hc
  · decide
  rcases List.mem_append.mp hc with hc | hc
  · exact plain_digitText hfraction c hc
  · exact ⟨(isName_iff.mp hname c hc).1, (isName_iff.mp hname c hc).2.1⟩

theorem readDuration_durationText {whole fraction : List ℕ} (hwhole : ∀ d ∈ whole, d < 10)
    (hfraction : ∀ d ∈ fraction, d < 10) (hwholeNe : whole ≠ []) (hfractionNe : fraction ≠ [])
    (unit : TimeUnit) :
    readDuration (durationText whole fraction unit) =
      some (.span (placeValue 10 whole + placeValue 10 fraction / 10 ^ fraction.length) unit) := by
  obtain ⟨hstop, hunit, -⟩ := unit.name_facts
  obtain ⟨htake1, hdrop1⟩ := takeWhile_append_of_stop
    (t := '.' :: (digitText fraction ++ unit.name.toList))
    (fun c => isDecimal_of_mem_digitText hwhole) rfl
  obtain ⟨htake2, hdrop2⟩ := takeWhile_append_of_stop
    (fun c => isDecimal_of_mem_digitText hfraction) hstop
  have hempty1 : (digitText whole).isEmpty = false := by simpa [digitText] using hwholeNe
  have hempty2 : (digitText fraction).isEmpty = false := by simpa [digitText] using hfractionNe
  have hnumber : readNumber (durationText whole fraction unit) =
      some ((placeValue 10 whole : ℚ) + placeValue 10 fraction / 10 ^ fraction.length,
        unit.name.toList) := by
    simp only [readNumber, durationText, htake1, hdrop1, htake2, hdrop2, hempty1, hempty2,
      digitsValue_digitText hwhole, digitsValue_digitText hfraction]
    simp [digitText]
  have hword : lower (durationText whole fraction unit) ≠ "infinity".toList :=
    lower_digitText_ne hwhole hwholeNe _
  rw [readDuration, if_neg hword, hnumber]
  simp [hunit]

/-- A number as digits. -/
theorem exists_digits (n : ℕ) :
    ∃ digits : List ℕ, (∀ d ∈ digits, d < 10) ∧ digits ≠ [] ∧ placeValue 10 digits = n := by
  refine ⟨placeDigits 10 (n + 1) n, fun d => mem_placeDigits_lt (by decide), ?_, ?_⟩
  · rw [← List.length_pos_iff, length_placeDigits]
    omega
  · rw [placeValue_placeDigits, Nat.mod_eq_of_lt]
    exact (Nat.lt_succ_self n).trans (Nat.lt_pow_self (by decide))

/-- A decimal number as digits before and after the point. -/
theorem exists_decimal_digits {q : ℚ} (h : IsDecimal q) :
    ∃ whole fraction : List ℕ, (∀ d ∈ whole, d < 10) ∧ (∀ d ∈ fraction, d < 10) ∧
      whole ≠ [] ∧ fraction ≠ [] ∧
      q = placeValue 10 whole + placeValue 10 fraction / 10 ^ fraction.length := by
  obtain ⟨a, j, rfl⟩ := h
  -- one more place, so that there is a fraction
  obtain ⟨whole, hwhole, hne, hvalue⟩ := exists_digits (10 * a / 10 ^ (j + 1))
  refine ⟨whole, placeDigits 10 (j + 1) (10 * a), hwhole, fun d => mem_placeDigits_lt (by decide),
    hne, ?_, ?_⟩
  · rw [← List.length_pos_iff, length_placeDigits]
    omega
  · rw [hvalue, placeValue_placeDigits, length_placeDigits]
    have hsplit : (10 * a : ℚ) = (10 * a / 10 ^ (j + 1) : ℕ) * 10 ^ (j + 1) +
        (10 * a % 10 ^ (j + 1) : ℕ) := by
      exact_mod_cast (Nat.div_add_mod' (10 * a) (10 ^ (j + 1))).symm
    have hpow : (10 : ℚ) ^ (j + 1) ≠ 0 := by positivity
    have hshift : (a : ℚ) / 10 ^ j = 10 * a / 10 ^ (j + 1) := by
      rw [pow_succ']
      field_simp
    rw [hshift, hsplit, add_div, mul_div_cancel_right₀ _ hpow]

end AlturaProt.Edge
