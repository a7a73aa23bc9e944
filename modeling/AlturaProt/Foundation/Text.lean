import Mathlib.Data.List.Infix

/-!
# Byte strings

A string of a language whose strings are UTF-8 is the list of its bytes: its
length is the number of bytes, and splitting at or comparing with ASCII
characters is splitting at or comparing bytes.
-/

namespace AlturaProt.Foundation

/-- The bytes of a string. -/
abbrev Str : Type := List UInt8

instance lawfulBEqStr : LawfulBEq Str := inferInstance

/-- The bytes of a literal. -/
def utf8 (s : String) : Str := s.toList.flatMap String.utf8EncodeChar

theorem utf8_inj {a b : String} : utf8 a = utf8 b ↔ a = b := by
  constructor
  · intro h
    rw [← String.toByteArray_inj, ← String.utf8Encode_toList, ← String.utf8Encode_toList]
    exact congrArg List.toByteArray h
  · intro h
    rw [h]

theorem utf8_ne {a b : String} (h : a ≠ b) : utf8 a ≠ utf8 b := fun heq => h (utf8_inj.mp heq)

/-! ## ASCII classes -/

def isAsciiDigit (b : UInt8) : Bool := 0x30 ≤ b && b ≤ 0x39
def isAsciiUppercase (b : UInt8) : Bool := 0x41 ≤ b && b ≤ 0x5A
def isAsciiLowercase (b : UInt8) : Bool := 0x61 ≤ b && b ≤ 0x7A
def isAsciiGraphic (b : UInt8) : Bool := 0x21 ≤ b && b ≤ 0x7E
def isAsciiControl (b : UInt8) : Bool := b < 0x20 || b == 0x7F

def isAsciiAlphanumeric (b : UInt8) : Bool :=
  isAsciiDigit b || isAsciiUppercase b || isAsciiLowercase b

def isAsciiHexdigit (b : UInt8) : Bool :=
  isAsciiDigit b || (0x41 ≤ b && b ≤ 0x46) || (0x61 ≤ b && b ≤ 0x66)

def isAsciiWhitespace (b : UInt8) : Bool :=
  b == 0x20 || b == 0x09 || b == 0x0A || b == 0x0C || b == 0x0D

def toAsciiLowercase (b : UInt8) : UInt8 := if isAsciiUppercase b then b + 0x20 else b
def toAsciiUppercase (b : UInt8) : UInt8 := if isAsciiLowercase b then b - 0x20 else b

/-! ## Characters -/

/-- The bytes of a sequence of characters. -/
def encodeChars (chars : List Char) : Str := chars.flatMap String.utf8EncodeChar

/-- The byte continues a character. -/
def isContinuation (b : UInt8) : Bool := 0x80 ≤ b && b < 0xC0

theorem isContinuation_ofNat {n : ℕ} (h : n < 256) :
    isContinuation (UInt8.ofNat n) = true ↔ 0x80 ≤ n ∧ n < 0xC0 := by
  have hn : (UInt8.ofNat n).toNat = n := UInt8.toNat_ofNat_of_lt' h
  simp [isContinuation, UInt8.le_iff_toNat_le, UInt8.lt_iff_toNat_lt, hn]

/-- A character is one byte that starts it, and bytes that continue it. -/
theorem utf8EncodeChar_eq_cons (c : Char) :
    ∃ first rest, String.utf8EncodeChar c = first :: rest ∧ isContinuation first = false ∧
      ∀ b ∈ rest, isContinuation b = true := by
  have hlow : ∀ n : ℕ, isContinuation (UInt8.ofNat (n % 64 + 128)) = true := by
    intro n
    rw [isContinuation_ofNat (by omega)]
    omega
  have hfirst : ∀ {n : ℕ}, n < 256 → n < 0x80 ∨ 0xC0 ≤ n →
      isContinuation (UInt8.ofNat n) = false := by
    intro n hn hrange
    rw [Bool.eq_false_iff, Ne, isContinuation_ofNat hn]
    omega
  unfold String.utf8EncodeChar
  dsimp only
  generalize c.val.toNat = v
  -- one case for each number of bytes
  split
  · exact ⟨_, _, rfl, hfirst (by omega) (by omega), by simp⟩
  · split
    · refine ⟨_, _, rfl, hfirst (by omega) (by omega), ?_⟩
      simp only [List.forall_mem_cons, hlow, true_and]
      exact fun _ h => absurd h List.not_mem_nil
    · split
      · refine ⟨_, _, rfl, hfirst (by omega) (by omega), ?_⟩
        simp only [List.forall_mem_cons, hlow, true_and]
        exact fun _ h => absurd h List.not_mem_nil
      · refine ⟨_, _, rfl, hfirst (by omega) (by omega), ?_⟩
        simp only [List.forall_mem_cons, hlow, true_and]
        exact fun _ h => absurd h List.not_mem_nil

theorem encodeChars_cons (c : Char) (chars : List Char) :
    encodeChars (c :: chars) = String.utf8EncodeChar c ++ encodeChars chars := rfl

/-- The bytes of a text do not begin in the middle of a character. -/
theorem head_encodeChars (chars : List Char) :
    ∀ b ∈ (encodeChars chars)[0]?, isContinuation b = false := by
  cases chars with
  | nil => simp [encodeChars]
  | cons c chars =>
    obtain ⟨first, rest, heq, hfirst, -⟩ := utf8EncodeChar_eq_cons c
    rw [encodeChars_cons, heq]
    simpa using hfirst

/-- The Unicode property `White_Space`. -/
def isWhitespaceChar (c : Char) : Bool :=
  let n := c.toNat
  (0x09 ≤ n && n ≤ 0x0D) || n == 0x20 || n == 0x85 || n == 0xA0 || n == 0x1680 ||
    (0x2000 ≤ n && n ≤ 0x200A) || n == 0x2028 || n == 0x2029 || n == 0x202F || n == 0x205F ||
    n == 0x3000

/-- The Unicode category `Cc`. -/
def isControlChar (c : Char) : Bool := c.toNat < 0x20 || (0x7F ≤ c.toNat && c.toNat < 0xA0)

/-! ## Searching -/

def eqIgnoreAsciiCase (a b : Str) : Bool := a.map toAsciiLowercase == b.map toAsciiLowercase

/-- The needle occurs somewhere in the haystack. -/
def containsStr (haystack needle : Str) : Bool := decide (needle <:+: haystack)

/-- The text before and after the first occurrence of a byte. -/
def splitOnce (sep : UInt8) (s : Str) : Option (Str × Str) :=
  if sep ∈ s then some (s.takeWhile (· ≠ sep), (s.dropWhile (· ≠ sep)).drop 1) else none

end AlturaProt.Foundation
