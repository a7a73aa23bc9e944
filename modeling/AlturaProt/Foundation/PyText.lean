import AlturaProt.Foundation.IpText
import AlturaProt.Foundation.Items

/-!
# Text as Python handles it

Methods of `str` on decoded text, which is a list of characters: white space and
lines, words, case, and the decimal digits of all scripts with `int`.
-/

namespace AlturaProt.Foundation.PyText

/-! ## White space and lines -/

/-- `c.isspace()`. -/
def isSpace (c : Char) : Bool := isWhitespaceChar c || (0x1C ≤ c.toNat && c.toNat ≤ 0x1F)

/-- `s.strip()`. -/
def strip (s : List Char) : List Char := trimBy isSpace s

/-- `s.split()`. -/
def words (s : List Char) : List (List Char) := (s.splitOnP isSpace).filter fun w => !w.isEmpty

/-- Where `s.splitlines()` splits. -/
def isLineBreak (c : Char) : Bool :=
  (0x0A ≤ c.toNat && c.toNat ≤ 0x0D) || (0x1C ≤ c.toNat && c.toNat ≤ 0x1E) ||
    c.toNat == 0x85 || c.toNat == 0x2028 || c.toNat == 0x2029

/-- The lines of a text; `current` is the line being read, backwards. -/
def splitLinesFrom : List Char → List Char → List (List Char)
  | [], [] => []
  | [], current => [current.reverse]
  | '\r' :: '\n' :: rest, current => current.reverse :: splitLinesFrom rest []
  | c :: rest, current =>
    if isLineBreak c then current.reverse :: splitLinesFrom rest []
    else splitLinesFrom rest (c :: current)

/-- `s.splitlines()`. -/
def splitLines (s : List Char) : List (List Char) := splitLinesFrom s []

theorem isLineBreak_of_isSpace {c : Char} (h : isSpace c = false) : isLineBreak c = false := by
  simp only [isSpace, isWhitespaceChar, isLineBreak, Bool.or_eq_false_iff, Bool.and_eq_false_iff,
    decide_eq_false_iff_not, beq_eq_false_iff_ne] at h ⊢
  omega

theorem splitLinesFrom_cons {c : Char} (hc : isLineBreak c = false) (rest current : List Char) :
    splitLinesFrom (c :: rest) current = splitLinesFrom rest (c :: current) := by
  have hcr : c ≠ '\r' := by
    rintro rfl
    cases hc
  rw [splitLinesFrom]
  · rw [if_neg (by simp [hc])]
  · intro _ hr
    exact absurd hr hcr

theorem splitLinesFrom_line {line : List Char} (hline : ∀ c ∈ line, isLineBreak c = false)
    (rest current : List Char) :
    splitLinesFrom (line ++ '\n' :: rest) current =
      (current.reverse ++ line) :: splitLinesFrom rest [] := by
  induction line generalizing current with
  | nil =>
    rw [List.nil_append, splitLinesFrom, if_pos (by decide), List.append_nil]
    intro _ h
    cases h
  | cons c line ih =>
    obtain ⟨hc, hline⟩ := List.forall_mem_cons.mp hline
    rw [List.cons_append, splitLinesFrom_cons hc, ih hline, List.reverse_cons,
      List.append_assoc, List.singleton_append]

/-- Lines that were joined are found again. -/
theorem splitLines_flatMap {lines : List (List Char)}
    (hlines : ∀ line ∈ lines, ∀ c ∈ line, isLineBreak c = false) :
    splitLines (lines.flatMap (· ++ ['\n'])) = lines := by
  induction lines with
  | nil => rfl
  | cons line lines ih =>
    obtain ⟨hline, hlines⟩ := List.forall_mem_cons.mp hlines
    rw [splitLines, List.flatMap_cons, List.append_assoc, List.singleton_append,
      splitLinesFrom_line hline, List.reverse_nil, List.nil_append]
    exact congrArg (line :: ·) (ih hlines)

/-- The text before and after the first occurrence of a character. -/
def partition (sep : Char) (s : List Char) : List Char × List Char :=
  (s.takeWhile (· != sep), (s.dropWhile (· != sep)).drop 1)

theorem partition_append {sep : Char} {s : List Char} (h : sep ∉ s) (rest : List Char) :
    partition sep (s ++ sep :: rest) = (s, rest) := by
  have hs : ∀ c ∈ s, (c != sep) = true := fun c hc => bne_iff_ne.mpr (ne_of_mem_of_not_mem hc h)
  simp [partition, List.takeWhile_append_of_pos hs, List.dropWhile_append_of_pos hs]

theorem partition_of_notMem {sep : Char} {s : List Char} (h : sep ∉ s) :
    partition sep s = (s, []) := by
  have hs : ∀ c ∈ s, (c != sep) = true := fun c hc => bne_iff_ne.mpr (ne_of_mem_of_not_mem hc h)
  simp [partition, List.takeWhile_eq_self_iff.mpr hs, List.dropWhile_eq_nil_iff.mpr hs]

/-- `s.lower()`, as far as a comparison with ASCII text can tell: besides the ASCII
letters, the Kelvin sign is the only character with an ASCII lower case. -/
def lower (s : List Char) : List Char :=
  s.map fun c => if c = Char.ofNat 0x212A then 'k' else c.toLower

/-! ## Decimal digits -/

/-- The zeros of the decimal digits of Unicode; nine digits follow each. -/
def decimalZeros : List ℕ :=
  [0x30, 0x660, 0x6F0, 0x7C0, 0x966, 0x9E6, 0xA66, 0xAE6, 0xB66, 0xBE6, 0xC66, 0xCE6, 0xD66,
    0xDE6, 0xE50, 0xED0, 0xF20, 0x1040, 0x1090, 0x17E0, 0x1810, 0x1946, 0x19D0, 0x1A80, 0x1A90,
    0x1B50, 0x1BB0, 0x1C40, 0x1C50, 0xA620, 0xA8D0, 0xA900, 0xA9D0, 0xA9F0, 0xAA50, 0xABF0,
    0xFF10, 0x104A0, 0x10D30, 0x11066, 0x110F0, 0x11136, 0x111D0, 0x112F0, 0x11450, 0x114D0,
    0x11650, 0x116C0, 0x11730, 0x118E0, 0x11950, 0x11C50, 0x11D50, 0x11DA0, 0x16A60, 0x16AC0,
    0x16B50, 0x1D7CE, 0x1D7D8, 0x1D7E2, 0x1D7EC, 0x1D7F6, 0x1E140, 0x1E2F0, 0x1E950, 0x1FBF0]

/-- The value of a decimal digit. -/
def decimalDigit (c : Char) : Option ℕ :=
  (decimalZeros.find? fun first => first ≤ c.toNat && c.toNat < first + 10).map (c.toNat - ·)

/-- What `\d` matches. -/
def isDecimal (c : Char) : Bool := (decimalDigit c).isSome

/-- The number that digits write. -/
def digitsValue (s : List Char) : ℕ := placeValue 10 (s.filterMap decimalDigit)

/-- Digits as the ASCII text that writes them. -/
def digitText (digits : List ℕ) : List Char := digits.map fun d => Char.ofNat (0x30 + d)

theorem decimalDigit_ascii {d : ℕ} (hd : d < 10) :
    decimalDigit (Char.ofNat (0x30 + d)) = some d := by
  interval_cases d <;> rfl

theorem isSpace_ascii {d : ℕ} (hd : d < 10) : isSpace (Char.ofNat (0x30 + d)) = false := by
  interval_cases d <;> rfl

theorem lower_ascii {d : ℕ} (hd : d < 10) (rest : List Char) :
    lower (Char.ofNat (0x30 + d) :: rest) = Char.ofNat (0x30 + d) :: lower rest := by
  interval_cases d <;> rfl

theorem isDecimal_of_mem_digitText {digits : List ℕ} (hdigits : ∀ d ∈ digits, d < 10) {c : Char}
    (hc : c ∈ digitText digits) : isDecimal c = true := by
  obtain ⟨d, hd, rfl⟩ := List.mem_map.mp hc
  rw [isDecimal, decimalDigit_ascii (hdigits d hd)]
  rfl

theorem digitsValue_digitText {digits : List ℕ} (hdigits : ∀ d ∈ digits, d < 10) :
    digitsValue (digitText digits) = placeValue 10 digits := by
  have hread : (digitText digits).filterMap decimalDigit = digits := by
    induction digits with
    | nil => rfl
    | cons d digits ih =>
      obtain ⟨hd, hdigits⟩ := List.forall_mem_cons.mp hdigits
      rw [digitText, List.map_cons, List.filterMap_cons_some (decimalDigit_ascii hd)]
      exact congrArg (d :: ·) (ih hdigits)
  rw [digitsValue, hread]

/-- The interpreter refuses to convert longer texts. -/
def INT_MAX_STR_DIGITS : ℕ := 4300

/-- `int(s)` of a text of digits. -/
def intOfDigits (s : List Char) : Except String ℕ :=
  if INT_MAX_STR_DIGITS < s.length then
    .error (s!"Exceeds the limit ({INT_MAX_STR_DIGITS} digits) for integer string conversion: " ++
      s!"value has {s.length} digits; use sys.set_int_max_str_digits() to increase the limit")
  else .ok (digitsValue s)

/-- `int(s)`: blanks around the number, a sign and single underscores between digits
are allowed. `shown` is how the text is quoted. -/
def int (shown : List Char → String) (s : List Char) : Except String ℤ := do
  let token := strip s
  let (negative, body) := match token with
    | '-' :: rest => (true, rest)
    | '+' :: rest => (false, rest)
    | _ => (false, token)
  let groups := body.splitOn '_'
  if groups.all fun group => !group.isEmpty && group.all isDecimal then
    let n ← intOfDigits groups.flatten
    return if negative then -n else n
  else .error ("invalid literal for int() with base 10: " ++ shown s)

end AlturaProt.Foundation.PyText
