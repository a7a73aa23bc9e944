import AlturaProt.Foundation.Text
import Mathlib.Data.Nat.Digits.Lemmas

/-!
# Texts of IP addresses

Reading and writing addresses as the Rust standard library does. A reader takes
something off the front of a text and returns it with what is left; a number
takes all the digits it can get. IPv4 addresses are four decimal octets without
leading zeros. IPv6 addresses are eight hexadecimal groups, of which the last
two may be written as an IPv4 address and one run of zeros may be left out.

The main result is that an address is read back from its own text
(`parseIp_ipText`).
-/

namespace AlturaProt.Foundation

/-! ## Places -/

/-- The number with the given digits, the most significant first. -/
def placeValue (base : ℕ) (digits : List ℕ) : ℕ := digits.foldl (fun acc d => acc * base + d) 0

/-- The last `width` digits of a number, the most significant first. -/
def placeDigits (base : ℕ) : ℕ → ℕ → List ℕ
  | 0, _ => []
  | width + 1, n => placeDigits base width (n / base) ++ [n % base]

theorem placeValue_snoc (base : ℕ) (digits : List ℕ) (d : ℕ) :
    placeValue base (digits ++ [d]) = placeValue base digits * base + d := by
  simp [placeValue]

@[simp] theorem length_placeDigits (base width n : ℕ) :
    (placeDigits base width n).length = width := by
  induction width generalizing n with
  | zero => rfl
  | succ width ih => simp [placeDigits, ih]

variable {n bound radix : ℕ} {b sep : UInt8} {s rest : Str} {bits : BitVec 128}

theorem mem_placeDigits_lt {base : ℕ} (hbase : 0 < base) {width d : ℕ}
    (h : d ∈ placeDigits base width n) : d < base := by
  induction width generalizing n with
  | zero => cases h
  | succ width ih =>
    rcases List.mem_append.mp h with h | h
    · exact ih h
    · rw [List.mem_singleton.mp h]
      exact Nat.mod_lt n hbase

theorem placeValue_placeDigits (base width n : ℕ) :
    placeValue base (placeDigits base width n) = n % base ^ width := by
  induction width generalizing n with
  | zero => simp [placeDigits, placeValue, Nat.mod_one]
  | succ width ih =>
    rw [placeDigits, placeValue_snoc, ih, pow_succ', Nat.mod_mul, Nat.mul_comm, Nat.add_comm]

/-- A word is the value of its digits. -/
theorem ofNat_placeValue_placeDigits {w base width : ℕ} (h : base ^ width = 2 ^ w)
    (bits : BitVec w) :
    BitVec.ofNat w (placeValue base (placeDigits base width bits.toNat)) = bits := by
  rw [placeValue_placeDigits, h, Nat.mod_eq_of_lt bits.isLt, BitVec.ofNat_toNat, BitVec.setWidth_eq]

theorem placeValue_reverse (base : ℕ) (digits : List ℕ) :
    placeValue base digits.reverse = Nat.ofDigits base digits := by
  rw [placeValue, List.foldl_reverse, Nat.ofDigits_eq_foldr]
  congr 1
  funext d acc
  rw [Nat.cast_id, Nat.mul_comm, Nat.add_comm]

/-! ## Numbers -/

def letterValue (b : UInt8) : Option ℕ :=
  if isAsciiDigit b then some (b.toNat - 0x30)
  else if isAsciiLowercase b then some (b.toNat - 0x61 + 10)
  else if isAsciiUppercase b then some (b.toNat - 0x41 + 10)
  else none

/-- The value of a digit, in either case of its letter. -/
def digitValue (radix : ℕ) (b : UInt8) : Option ℕ := (letterValue b).filter (· < radix)

/-- Read all the digits there are, as a number below `bound`. -/
def readNumber (radix : ℕ) (maxDigits : Option ℕ) (allowZeroPrefix : Bool) (bound : ℕ)
    (s : Str) : Option (ℕ × Str) :=
  let text := s.takeWhile fun b => (digitValue radix b).isSome
  let value := placeValue radix (text.filterMap (digitValue radix))
  if text = [] ∨ (∃ m ∈ maxDigits, m < text.length) then none
  else if allowZeroPrefix = false ∧ text.head? = some 0x30 ∧ 1 < text.length then none
  else if value < bound then some (value, s.drop text.length)
  else none

/-- The digit with a value, in lower case. -/
def digitByte (d : ℕ) : UInt8 := if d < 10 then UInt8.ofNat (0x30 + d) else UInt8.ofNat (0x57 + d)

/-- A number in the given radix, without leading zeros. -/
def numberText (radix n : ℕ) : Str :=
  if n = 0 then [0x30] else (Nat.digits radix n).reverse.map digitByte

/-- Why a text is not an unsigned number. -/
inductive IntErrorKind where
  | empty
  | invalidDigit
  | posOverflow
deriving DecidableEq

def IntErrorKind.text : IntErrorKind → String
  | .empty => "cannot parse integer from empty string"
  | .invalidDigit => "invalid digit found in string"
  | .posOverflow => "number too large to fit in target type"

/-- The next digit of a number that must stay below `bound`. -/
def pushDigit (bound acc : ℕ) (b : UInt8) : Except IntErrorKind ℕ :=
  match digitValue 10 b with
  | none => .error .invalidDigit
  | some d => if acc * 10 + d < bound then .ok (acc * 10 + d) else .error .posOverflow

/-- An unsigned number below `bound` that is the whole text; a plus sign may come
first. -/
def parseUnsigned (bound : ℕ) (s : Str) : Except IntErrorKind ℕ :=
  match s with
  | [] => .error .empty
  | [b] => if b = 0x2B ∨ b = 0x2D then .error .invalidDigit else pushDigit bound 0 b
  | b :: rest => (if b = 0x2B then rest else s).foldlM (pushDigit bound) 0

/-- The number that a text of decimal digits writes, whatever its size. -/
def decimalValue (s : Str) : ℕ := placeValue 10 (s.filterMap (digitValue 10))

/-! ### Decimal texts of any size -/

theorem digitValue_of_isAsciiDigit (h : isAsciiDigit b = true) :
    digitValue 10 b = some (b.toNat - 0x30) := by
  have hlt : b.toNat - 0x30 < 10 := by
    simp only [isAsciiDigit, Bool.and_eq_true, decide_eq_true_eq, UInt8.le_iff_toNat_le] at h
    have := h.2
    simp only [UInt8.reduceToNat] at this
    omega
  simp [digitValue, letterValue, h, hlt]

/-- More digits do not make a number smaller. -/
theorem le_foldl_digits (digits : List ℕ) (acc : ℕ) :
    acc ≤ digits.foldl (fun acc d => acc * 10 + d) acc := by
  induction digits generalizing acc with
  | nil => exact le_rfl
  | cons d digits ih =>
    have := ih (acc * 10 + d)
    rw [List.foldl_cons]
    omega

/-- Once the bound is passed it stays passed, so that only the whole number
counts. -/
theorem foldlM_pushDigit {acc : ℕ} (hacc : acc < bound) (h : s.all isAsciiDigit = true) :
    s.foldlM (pushDigit bound) acc =
      if (s.filterMap (digitValue 10)).foldl (fun acc d => acc * 10 + d) acc < bound then
        .ok ((s.filterMap (digitValue 10)).foldl (fun acc d => acc * 10 + d) acc)
      else .error .posOverflow := by
  induction s generalizing acc with
  | nil => simp [hacc, pure, Except.pure]
  | cons b s ih =>
    obtain ⟨hb, hs⟩ := by simpa only [List.all_cons, Bool.and_eq_true] using h
    have hd := digitValue_of_isAsciiDigit hb
    rw [List.foldlM_cons, pushDigit, hd, List.filterMap_cons_some hd, List.foldl_cons]
    dsimp only
    split
    · rename_i hlt
      exact ih hlt hs
    · have := le_foldl_digits (s.filterMap (digitValue 10)) (acc * 10 + (b.toNat - 0x30))
      rw [if_neg (by omega)]
      rfl

/-- **Decimal digits** are read as the number they write, or overflow. -/
theorem parseUnsigned_of_digits (hbound : 0 < bound) (hne : s ≠ []) (h : s.all isAsciiDigit = true)
    :
    parseUnsigned bound s =
      if decimalValue s < bound then .ok (decimalValue s) else .error .posOverflow := by
  have hfold := foldlM_pushDigit hbound h
  cases s with
  | nil => exact absurd rfl hne
  | cons b rest =>
    have hb : isAsciiDigit b = true := List.all_eq_true.mp h b List.mem_cons_self
    have hplus : b ≠ 0x2B := by
      rintro rfl
      exact absurd hb (by decide)
    have hminus : b ≠ 0x2D := by
      rintro rfl
      exact absurd hb (by decide)
    cases rest with
    | nil =>
      rw [parseUnsigned, if_neg (by simp [hplus, hminus])]
      simp only [List.foldlM_cons, List.foldlM_nil, bind_pure] at hfold
      exact hfold
    | cons c rest =>
      rw [parseUnsigned, if_neg hplus]
      · exact hfold
      · simp

/-! ### A number is read back from its text -/

theorem letterValue_digitByte : ∀ d < 16, letterValue (digitByte d) = some d := by decide

theorem digitByte_ne_zero : ∀ d < 16, d ≠ 0 → digitByte d ≠ 0x30 := by decide

section Radix

variable {radix : ℕ}

theorem digitValue_digitByte (hradix : radix ≤ 16) {d : ℕ} (hd : d < radix) :
    digitValue radix (digitByte d) = some d := by
  rw [digitValue, letterValue_digitByte d (hd.trans_le hradix)]
  simp [hd]

/-- The digits of a number, the most significant first, without leading zeros. -/
structure Numeral (radix n : ℕ) (digits : List ℕ) : Prop where
  ne_nil : digits ≠ []
  lt : ∀ d ∈ digits, d < radix
  value : placeValue radix digits = n
  zero : digits.head? = some 0 → digits.length = 1
  length_le : ∀ k, k ≠ 0 → n < radix ^ k → digits.length ≤ k

theorem numeral_zero (hradix : 1 < radix) : Numeral radix 0 [0] where
  ne_nil := by simp
  lt d hd := by
    rw [List.mem_singleton.mp hd]
    omega
  value := by simp [placeValue]
  zero _ := rfl
  length_le k hk _ := Nat.one_le_iff_ne_zero.mpr hk

theorem numeral_digits (hradix : 1 < radix) {n : ℕ} (hn : n ≠ 0) :
    Numeral radix n (Nat.digits radix n).reverse where
  ne_nil := by
    rw [Ne, List.reverse_eq_nil_iff]
    exact Nat.digits_ne_nil_iff_ne_zero.mpr hn
  lt d hd := Nat.digits_lt_base hradix (List.mem_reverse.mp hd)
  value := by rw [placeValue_reverse, Nat.ofDigits_digits]
  zero hzero := by
    have hne : Nat.digits radix n ≠ [] := Nat.digits_ne_nil_iff_ne_zero.mpr hn
    rw [List.head?_reverse, List.getLast?_eq_some_getLast hne] at hzero
    exact absurd (Option.some.inj hzero) (Nat.getLast_digit_ne_zero radix hn)
  length_le k _ hlt := by
    rw [List.length_reverse]
    exact (Nat.digits_length_le_iff hradix n).mpr hlt

theorem numberText_eq (hradix : 1 < radix) (n : ℕ) :
    ∃ digits, numberText radix n = digits.map digitByte ∧ Numeral radix n digits := by
  by_cases hn : n = 0
  · subst hn
    exact ⟨[0], rfl, numeral_zero hradix⟩
  · exact ⟨_, if_neg hn, numeral_digits hradix hn⟩

theorem filterMap_digitValue (hradix : radix ≤ 16) {digits : List ℕ} (h : ∀ d ∈ digits, d < radix) :
    (digits.map digitByte).filterMap (digitValue radix) = digits := by
  rw [List.filterMap_map]
  conv_rhs => rw [← List.filterMap_some (l := digits)]
  apply List.filterMap_congr
  intro d hd
  exact digitValue_digitByte hradix (h d hd)

/-- **Numbers.** What follows must not be a digit. -/
theorem readNumber_numberText (hradix : 1 < radix) (hle : radix ≤ 16) {n bound k : ℕ}
    (hbound : n < bound) (hk : k ≠ 0) (hlen : n < radix ^ k) {maxDigits : Option ℕ}
    (hmax : ∀ m ∈ maxDigits, k ≤ m) (allowZeroPrefix : Bool) {rest : Str}
    (hrest : ∀ b ∈ rest.head?, digitValue radix b = none) :
    readNumber radix maxDigits allowZeroPrefix bound (numberText radix n ++ rest) =
      some (n, rest) := by
  obtain ⟨digits, htext, hnum⟩ := numberText_eq hradix n
  have hdigit : ∀ b ∈ digits.map digitByte, (digitValue radix b).isSome = true := by
    intro b hb
    obtain ⟨d, hd, rfl⟩ := List.mem_map.mp hb
    rw [digitValue_digitByte hle (hnum.lt d hd)]
    rfl
  have hstop : rest.takeWhile (fun b => (digitValue radix b).isSome) = [] := by
    cases rest with
    | nil => rfl
    | cons b rest => simp [hrest b rfl]
  have htake : (numberText radix n ++ rest).takeWhile (fun b => (digitValue radix b).isSome) =
      digits.map digitByte := by
    rw [htext, List.takeWhile_append_of_pos hdigit, hstop, List.append_nil]
  unfold readNumber
  dsimp only
  rw [htake, filterMap_digitValue hle hnum.lt, hnum.value]
  rw [if_neg, if_neg, if_pos hbound, htext, List.drop_left]
  · -- a leading zero is the only digit
    rintro ⟨-, hhead, hlong⟩
    cases digits with
    | nil => exact hnum.ne_nil rfl
    | cons d digits =>
      have hd : d = 0 := by
        by_contra hd
        exact digitByte_ne_zero d ((hnum.lt d List.mem_cons_self).trans_le hle) hd
          (Option.some.inj hhead)
      have := hnum.zero (by rw [hd]; rfl)
      rw [List.length_map] at hlong
      omega
  · rintro (hnil | ⟨m, hm, hlong⟩)
    · exact hnum.ne_nil (List.map_eq_nil_iff.mp hnil)
    · have := hmax m hm
      have := hnum.length_le k hk hlen
      rw [List.length_map] at hlong
      omega

end Radix

/-! ## Readers -/

/-- Take one given byte. -/
def readGiven (b : UInt8) : Str → Option Str
  | c :: rest => if c = b then some rest else none
  | [] => none

/-- Read an item of a sequence; all but the first come after a separator. -/
def readSeparated {α : Type} (sep : UInt8) (first : Bool) (read : Str → Option (α × Str))
    (s : Str) : Option (α × Str) :=
  if first then read s else (readGiven sep s).bind read

/-- Read decimal octets, with dots between them. -/
def readOctets : ℕ → Bool → Str → Option (List ℕ × Str)
  | 0, _, s => some ([], s)
  | left + 1, first, s => do
      let (octet, s) ← readSeparated 0x2E first (readNumber 10 (some 3) false 256) s
      let (octets, s) ← readOctets left false s
      some (octet :: octets, s)

def readIpv4Addr (s : Str) : Option (BitVec 32 × Str) :=
  (readOctets 4 true s).map fun (octets, s) => (BitVec.ofNat 32 (placeValue 256 octets), s)

/-- Read at most so many hexadecimal groups, with colons between them. Where two
more fit, an IPv4 address may stand for them and ends the sequence; the flag tells
that it did. -/
def readGroups : ℕ → Bool → Str → List ℕ × Bool × Str
  | 0, _, s => ([], false, s)
  | left + 1, first, s =>
    match if left = 0 then none else readSeparated 0x3A first readIpv4Addr s with
    | some (v4, s) => (placeDigits 65536 2 v4.toNat, true, s)
    | none =>
      match readSeparated 0x3A first (readNumber 16 (some 4) true 65536) s with
      | none => ([], false, s)
      | some (group, s) =>
        let (groups, v4, s) := readGroups left false s
        (group :: groups, v4, s)

def ofGroups (groups : List ℕ) : BitVec 128 := BitVec.ofNat 128 (placeValue 65536 groups)

/-- Eight groups, or fewer with `::` between them. An IPv4 address is not allowed
before the `::`. -/
def readIpv6Addr (s : Str) : Option (BitVec 128 × Str) :=
  let (head, v4, s) := readGroups 8 true s
  if head.length = 8 then some (ofGroups head, s)
  else if v4 then none
  else do
    let s ← readGiven 0x3A s
    let s ← readGiven 0x3A s
    let (tail, _, s) := readGroups (8 - (head.length + 1)) true s
    some (ofGroups (head ++ List.replicate (8 - head.length - tail.length) 0 ++ tail), s)

def readIpAddr (s : Str) : Option ((BitVec 32 ⊕ BitVec 128) × Str) :=
  match readIpv4Addr s with
  | some (v4, s) => some (.inl v4, s)
  | none => (readIpv6Addr s).map fun (v6, s) => (.inr v6, s)

/-- The reader must use up the whole text. -/
def parseWith {α : Type} (read : Str → Option (α × Str)) (s : Str) : Option α :=
  match read s with
  | some (a, []) => some a
  | _ => none

def parseIpv4 (s : Str) : Option (BitVec 32) :=
  if 15 < s.length then none else parseWith readIpv4Addr s

def parseIpv6 (s : Str) : Option (BitVec 128) := parseWith readIpv6Addr s

def parseIp (s : Str) : Option (BitVec 32 ⊕ BitVec 128) := parseWith readIpAddr s

def readPort (s : Str) : Option (ℕ × Str) :=
  (readGiven 0x3A s).bind (readNumber 10 none true (2 ^ 16))

def readScopeId (s : Str) : Option (ℕ × Str) :=
  (readGiven 0x25 s).bind (readNumber 10 none true (2 ^ 32))

def readSocketAddrV4 (s : Str) : Option ((BitVec 32 × ℕ) × Str) := do
  let (ip, s) ← readIpv4Addr s
  let (port, s) ← readPort s
  some ((ip, port), s)

def readSocketAddrV6 (s : Str) : Option ((BitVec 128 × ℕ × ℕ) × Str) := do
  let s ← readGiven 0x5B s
  let (ip, s) ← readIpv6Addr s
  let (scopeId, s) := (readScopeId s).getD (0, s)
  let s ← readGiven 0x5D s
  let (port, s) ← readPort s
  some ((ip, scopeId, port), s)

/-- The address of a socket, without its port and scope. -/
def parseSocketIp (s : Str) : Option (BitVec 32 ⊕ BitVec 128) :=
  parseWith (fun s => match readSocketAddrV4 s with
    | some ((ip, _), s) => some (Sum.inl ip, s)
    | none => (readSocketAddrV6 s).map fun ((ip, _), s) => (Sum.inr ip, s)) s

/-! ## Writers -/

/-- A sequence of texts; all but the first come after a separator. -/
def itemsText (sep : UInt8) : Bool → List Str → Str
  | _, [] => []
  | first, x :: xs => (if first then x else sep :: x) ++ itemsText sep false xs

def ipv4Text (bits : BitVec 32) : Str :=
  itemsText 0x2E true ((placeDigits 256 4 bits.toNat).map (numberText 10))

/-- Hexadecimal groups with colons between them. -/
def groupsText (first : Bool) (groups : List ℕ) : Str :=
  itemsText 0x3A first (groups.map (numberText 16))

/-- The first of the longest runs of zeros: where it starts and how long it is.
`start` and `len` are the run being looked at. -/
def longestZeros : (index start len : ℕ) → (best : ℕ × ℕ) → List ℕ → ℕ × ℕ
  | _, _, _, best, [] => best
  | index, start, len, best, group :: groups =>
    if group = 0 then
      let start := if len = 0 then index else start
      longestZeros (index + 1) start (len + 1)
        (if best.2 < len + 1 then (start, len + 1) else best) groups
    else longestZeros (index + 1) 0 0 best groups

def ipv6Groups (bits : BitVec 128) : List ℕ := placeDigits 65536 8 bits.toNat

/-- The IPv4 address of an address in `::ffff:0:0/96`. -/
def toIpv4Mapped (bits : BitVec 128) : Option (BitVec 32) :=
  if bits.toNat / 2 ^ 32 = 0xFFFF then some (BitVec.ofNat 32 bits.toNat) else none

/-- `::`. -/
def gapText : Str := [0x3A, 0x3A]

/-- `::ffff:`. -/
def mappedText : Str := [0x3A, 0x3A, 0x66, 0x66, 0x66, 0x66, 0x3A]

def ipv6Text (bits : BitVec 128) : Str :=
  match toIpv4Mapped bits with
  | some v4 => mappedText ++ ipv4Text v4
  | none =>
    let groups := ipv6Groups bits
    let zeros := longestZeros 0 0 0 (0, 0) groups
    if 1 < zeros.2 then
      groupsText true (groups.take zeros.1) ++ gapText ++
        groupsText true (groups.drop (zeros.1 + zeros.2))
    else groupsText true groups

def ipText : BitVec 32 ⊕ BitVec 128 → Str
  | .inl v4 => ipv4Text v4
  | .inr v6 => ipv6Text v6

/-! ## Sequences are read back from their texts -/

/-- The text does not go on with a digit. -/
def Ends (radix : ℕ) (rest : Str) : Prop := ∀ b ∈ rest.head?, digitValue radix b = none

theorem ends_nil (radix : ℕ) : Ends radix [] := by simp [Ends]

theorem ends_itemsText (hsep : digitValue radix sep = none) (xs : List Str)
    (hrest : Ends radix rest) : Ends radix (itemsText sep false xs ++ rest) := by
  cases xs with
  | nil => exact hrest
  | cons x xs =>
    intro b hb
    cases hb
    exact hsep

theorem readSeparated_item {α : Type} (sep : UInt8) (first : Bool)
    (read : Str → Option (α × Str)) (x rest : Str) :
    readSeparated sep first read ((if first then x else sep :: x) ++ rest) = read (x ++ rest) := by
  cases first
  · simp [readSeparated, readGiven]
  · rfl

theorem readOctets_itemsText {octets : List ℕ} (h : ∀ o ∈ octets, o < 256) (first : Bool)
    (hrest : Ends 10 rest) :
    readOctets octets.length first
      (itemsText 0x2E first (octets.map (numberText 10)) ++ rest) = some (octets, rest) := by
  induction octets generalizing first with
  | nil => rfl
  | cons o octets ih =>
    have ho : o < 256 := h o List.mem_cons_self
    have hends : Ends 10 (itemsText 0x2E false (octets.map (numberText 10)) ++ rest) :=
      ends_itemsText (by decide) _ hrest
    have hread : readNumber 10 (some 3) false 256 (numberText 10 o ++
        (itemsText 0x2E false (octets.map (numberText 10)) ++ rest)) = some (o, _) :=
      readNumber_numberText (by decide) (by decide) ho (by decide : 3 ≠ 0) (by omega) (by simp)
        false hends
    rw [List.map_cons, itemsText, List.append_assoc, List.length_cons, readOctets,
      readSeparated_item, hread]
    simp only [Option.bind_eq_bind, Option.bind_some]
    rw [ih (fun o ho => h o (List.mem_cons_of_mem _ ho)) false]
    rfl

theorem readIpv4Addr_ipv4Text (bits : BitVec 32) (hrest : Ends 10 rest) :
    readIpv4Addr (ipv4Text bits ++ rest) = some (bits, rest) := by
  have hoctets : ∀ o ∈ placeDigits 256 4 bits.toNat, o < 256 :=
    fun o ho => mem_placeDigits_lt (by decide) ho
  have hread := readOctets_itemsText hoctets true hrest
  rw [length_placeDigits] at hread
  rw [readIpv4Addr, ipv4Text, hread, Option.map_some]
  dsimp only
  rw [ofNat_placeValue_placeDigits (by decide)]

/-! ### What is no IPv4 address -/

theorem mem_of_readNumber {maxDigits : Option ℕ} {allowZeroPrefix : Bool}
    (h : readNumber radix maxDigits allowZeroPrefix bound s = some (n, rest)) (hb : b ∈ rest) :
    b ∈ s := by
  unfold readNumber at h
  dsimp only at h
  split_ifs at h
  cases h
  exact List.mem_of_mem_drop hb

theorem readNumber_eq_none {maxDigits : Option ℕ} {allowZeroPrefix : Bool} (h : Ends radix s) :
    readNumber radix maxDigits allowZeroPrefix bound s = none := by
  have hnil : s.takeWhile (fun b => (digitValue radix b).isSome) = [] := by
    cases s with
    | nil => rfl
    | cons b s => simp [h b rfl]
  unfold readNumber
  rw [hnil]
  rfl

theorem readIpv4Addr_eq_none_of_ends (h : Ends 10 s) : readIpv4Addr s = none := by
  have hread : readOctets 4 true s = none := by
    rw [readOctets, readSeparated, if_pos rfl, readNumber_eq_none h]
    rfl
  rw [readIpv4Addr, hread]
  rfl

theorem readIpv4Addr_eq_none_of_notMem (h : 0x2E ∉ s) : readIpv4Addr s = none := by
  have hread : readOctets 4 true s = none := by
    rw [readOctets, readSeparated, if_pos rfl]
    cases hnum : readNumber 10 (some 3) false 256 s with
    | none => rfl
    | some r =>
      -- the next octet would have to come after a dot
      have hgiven : readGiven 0x2E r.2 = none := by
        cases hr : r.2 with
        | nil => rfl
        | cons b rest =>
          have hb : b ∈ s := mem_of_readNumber hnum (by rw [hr]; exact List.mem_cons_self)
          refine if_neg fun heq => h ?_
          rwa [← heq]
      simp [readOctets, readSeparated, hgiven]
  rw [readIpv4Addr, hread]
  rfl

/-! ### Groups -/

theorem mem_itemsText {first : Bool} {xs : List Str} (h : b ∈ itemsText sep first xs) :
    b = sep ∨ ∃ x ∈ xs, b ∈ x := by
  induction xs generalizing first with
  | nil => cases h
  | cons x xs ih =>
    rw [itemsText, List.mem_append] at h
    rcases h with h | h
    · cases first with
      | true => exact Or.inr ⟨x, List.mem_cons_self, h⟩
      | false =>
        rcases List.mem_cons.mp h with h | h
        · exact Or.inl h
        · exact Or.inr ⟨x, List.mem_cons_self, h⟩
    · rcases ih h with h | ⟨y, hy, hb⟩
      · exact Or.inl h
      · exact Or.inr ⟨y, List.mem_cons_of_mem _ hy, hb⟩

theorem mem_numberText (hradix : 1 < radix) (h : b ∈ numberText radix n) :
    ∃ d < radix, b = digitByte d := by
  obtain ⟨digits, htext, hnum⟩ := numberText_eq hradix n
  rw [htext] at h
  obtain ⟨d, hd, rfl⟩ := List.mem_map.mp h
  exact ⟨d, hnum.lt d hd, rfl⟩

/-- The bytes that addresses are written with. -/
def IsAddressByte (b : UInt8) : Prop := b = 0x2E ∨ b = 0x3A ∨ ∃ d < 16, b = digitByte d

theorem isAddressByte_itemsText (hradix : 1 < radix) (hle : radix ≤ 16) {first : Bool}
    {numbers : List ℕ} (h : b ∈ itemsText sep first (numbers.map (numberText radix))) :
    b = sep ∨ ∃ d < 16, b = digitByte d := by
  rcases mem_itemsText h with h | ⟨x, hx, hb⟩
  · exact Or.inl h
  · obtain ⟨n, -, rfl⟩ := List.mem_map.mp hx
    obtain ⟨d, hd, rfl⟩ := mem_numberText hradix hb
    exact Or.inr ⟨d, hd.trans_le hle, rfl⟩

theorem digitByte_ne_dot : ∀ d < 16, digitByte d ≠ 0x2E := by decide

theorem dot_notMem_groupsText (first : Bool) (groups : List ℕ) :
    0x2E ∉ groupsText first groups := by
  intro h
  rcases isAddressByte_itemsText (by decide) (by decide) h with h | ⟨d, hd, h⟩
  · exact absurd h (by decide)
  · exact digitByte_ne_dot d hd h.symm

/-- No further group follows. -/
def Stops (rest : Str) : Prop := rest = [] ∨ ∃ t, rest = 0x3A :: 0x3A :: t

theorem readSeparated_eq_none_of_stops {α : Type} {read : Str → Option (α × Str)}
    (hread : ∀ s, Ends 16 s → read s = none) (h : Stops rest) (first : Bool) :
    readSeparated 0x3A first read rest = none := by
  have hcolon : ∀ t, Ends 16 (0x3A :: t) := by
    intro t b hb
    cases hb
    decide
  rcases h with rfl | ⟨t, rfl⟩
  · cases first
    · rfl
    · exact hread [] (ends_nil 16)
  · cases first
    · exact hread _ (hcolon t)
    · exact hread _ (hcolon _)

theorem ends_ten_of_ends_sixteen (h : Ends 16 s) : Ends 10 s := by
  intro b hb
  have hnone := h b hb
  unfold digitValue at hnone ⊢
  cases hv : letterValue b with
  | none => rfl
  | some v =>
    rw [hv] at hnone
    simp only [Option.filter_eq_none_iff, Option.some.injEq, decide_eq_true_eq,
      forall_eq'] at hnone ⊢
    omega

theorem readGroups_stops (h : Stops rest) (left : ℕ) (first : Bool) :
    readGroups left first rest = ([], false, rest) := by
  cases left with
  | zero => rfl
  | succ left =>
    have hv4 : readSeparated 0x3A first readIpv4Addr rest = none :=
      readSeparated_eq_none_of_stops
        (fun s hs => readIpv4Addr_eq_none_of_ends (ends_ten_of_ends_sixteen hs)) h first
    have hnum : readSeparated 0x3A first (readNumber 16 (some 4) true 65536) rest = none :=
      readSeparated_eq_none_of_stops (fun s hs => readNumber_eq_none hs) h first
    rw [readGroups, hv4, hnum, ite_self]

theorem readGroups_groupsText {groups : List ℕ} (h : ∀ g ∈ groups, g < 65536) {left : ℕ}
    (hleft : groups.length ≤ left) (first : Bool) (hstop : Stops rest) (hdot : 0x2E ∉ rest) :
    readGroups left first (groupsText first groups ++ rest) = (groups, false, rest) := by
  induction groups generalizing left first with
  | nil => exact readGroups_stops hstop left first
  | cons g groups ih =>
    obtain ⟨left, rfl⟩ : ∃ n, left = n + 1 := ⟨left - 1, by simp at hleft; omega⟩
    have hends : Ends 16 (groupsText false groups ++ rest) := by
      apply ends_itemsText (by decide)
      rcases hstop with rfl | ⟨t, rfl⟩
      · exact ends_nil 16
      · intro b hb
        cases hb
        decide
    have hv4 : readIpv4Addr (numberText 16 g ++ (groupsText false groups ++ rest)) = none := by
      apply readIpv4Addr_eq_none_of_notMem
      intro hmem
      have hall : (0x2E : UInt8) ∈ groupsText true (g :: groups) ++ rest := by
        simpa [groupsText, itemsText] using hmem
      rcases List.mem_append.mp hall with hmem | hmem
      · exact dot_notMem_groupsText _ _ hmem
      · exact hdot hmem
    have hnum : readNumber 16 (some 4) true 65536
        (numberText 16 g ++ (groupsText false groups ++ rest)) = some (g, _) :=
      readNumber_numberText (by decide) (by decide) (h g List.mem_cons_self)
        (by decide : 4 ≠ 0) (h g List.mem_cons_self) (by simp) true hends
    have htext : groupsText first (g :: groups) ++ rest =
        (if first then numberText 16 g else 0x3A :: numberText 16 g) ++
          (groupsText false groups ++ rest) := by
      rw [groupsText, List.map_cons, itemsText, List.append_assoc]
      rfl
    have hrest := ih (fun g hg => h g (List.mem_cons_of_mem _ hg))
      (Nat.le_of_succ_le_succ hleft) false
    rw [htext, readGroups, readSeparated_item, readSeparated_item, hv4, hnum, ite_self]
    dsimp only
    rw [hrest]

/-! ### Runs of zeros -/

/-- The groups from `run.1` on are zero, `run.2` of them. -/
def ZeroRun (groups : List ℕ) (run : ℕ × ℕ) : Prop :=
  run.1 + run.2 ≤ groups.length ∧ ∀ i, run.1 ≤ i → i < run.1 + run.2 → groups[i]? = some 0

/-- Induction over the groups still to come; the run being looked at ends where
they start. -/
theorem zeroRun_longestZeros (all : List ℕ) : ∀ (groups : List ℕ) (index start len : ℕ)
    (best : ℕ × ℕ), all.drop index = groups → (len = 0 ∨ start + len = index) →
    ZeroRun all (start, len) → ZeroRun all best →
    ZeroRun all (longestZeros index start len best groups) := by
  intro groups
  induction groups with
  | nil => exact fun _ _ _ _ _ _ _ hbest => hbest
  | cons group groups ih =>
    intro index start len best hdrop hend hrun hbest
    have hget : all[index]? = some group := by
      rw [← List.head?_drop, hdrop]
      rfl
    have hindex : index < all.length := (List.getElem?_eq_some_iff.mp hget).1
    have hdrop' : all.drop (index + 1) = groups := by
      rw [← List.tail_drop, hdrop]
      rfl
    rw [longestZeros]
    split
    · rename_i hzero
      -- the run grows by this group, or starts with it
      have hgrown : ZeroRun all (if len = 0 then index else start, len + 1) ∧
          (if len = 0 then index else start) + (len + 1) = index + 1 := by
        split
        · rename_i hlen
          subst hlen
          refine ⟨⟨hindex, fun i hi hi' => ?_⟩, by omega⟩
          rw [show i = index by omega, hget, hzero]
        · refine ⟨⟨by omega, fun i hi hi' => ?_⟩, by omega⟩
          by_cases hlast : i = index
          · rw [hlast, hget, hzero]
          · exact hrun.2 i hi (by dsimp only at hi' ⊢; omega)
      refine ih (index + 1) _ (len + 1) _ hdrop' (Or.inr hgrown.2) hgrown.1 ?_
      split
      · exact hgrown.1
      · exact hbest
    · refine ih (index + 1) 0 0 best hdrop' (Or.inl rfl) ⟨Nat.zero_le _, ?_⟩ hbest
      intro i _ hi
      exact absurd hi (Nat.not_lt_zero i)

theorem ZeroRun.eq_append {groups : List ℕ} {run : ℕ × ℕ} (h : ZeroRun groups run) :
    groups = groups.take run.1 ++ List.replicate run.2 0 ++ groups.drop (run.1 + run.2) := by
  have hzeros : (groups.drop run.1).take run.2 = List.replicate run.2 0 := by
    apply List.ext_getElem?
    intro i
    rw [List.getElem?_take, List.getElem?_drop, List.getElem?_replicate]
    split
    · exact h.2 _ (Nat.le_add_right _ _) (by omega)
    · rfl
  rw [← hzeros, List.append_assoc, ← List.drop_drop, List.take_append_drop, List.take_append_drop]

/-! ### Addresses -/

theorem ofGroups_ipv6Groups (bits : BitVec 128) : ofGroups (ipv6Groups bits) = bits :=
  ofNat_placeValue_placeDigits (by decide) bits

theorem readIpv6Addr_groups (bits : BitVec 128) :
    readIpv6Addr (groupsText true (ipv6Groups bits)) = some (bits, []) := by
  have hlt : ∀ g ∈ ipv6Groups bits, g < 65536 := fun g hg => mem_placeDigits_lt (by decide) hg
  have hlen : (ipv6Groups bits).length = 8 := length_placeDigits _ _ _
  have hread := readGroups_groupsText hlt hlen.le true (Or.inl rfl : Stops []) (by simp)
  rw [List.append_nil] at hread
  rw [readIpv6Addr, hread]
  dsimp only
  rw [if_pos hlen, ofGroups_ipv6Groups]

/-- What is read around `::`. -/
theorem readIpv6Addr_gap {rest' : Str} {head tail : List ℕ} {v4 : Bool}
    (hhead : readGroups 8 true s = (head, false, gapText ++ rest)) (hlen : head.length < 8)
    (htail : readGroups (8 - (head.length + 1)) true rest = (tail, v4, rest')) :
    readIpv6Addr s = some
      (ofGroups (head ++ List.replicate (8 - head.length - tail.length) 0 ++ tail), rest') := by
  have hgap : readGiven 0x3A (gapText ++ rest) = some (0x3A :: rest) := rfl
  have hgap' : readGiven 0x3A (0x3A :: rest) = some rest := rfl
  rw [readIpv6Addr, hhead]
  dsimp only
  rw [if_neg hlen.ne, if_neg Bool.false_ne_true, hgap]
  simp only [Option.bind_eq_bind, Option.bind_some, hgap', htail]

/-- A run of zeros left out is filled in again. -/
theorem readIpv6Addr_shortened {run : ℕ × ℕ} (hrun : ZeroRun (ipv6Groups bits) run)
    (hlong : 0 < run.2) :
    readIpv6Addr (groupsText true ((ipv6Groups bits).take run.1) ++ gapText ++
      groupsText true ((ipv6Groups bits).drop (run.1 + run.2))) = some (bits, []) := by
  have hlt : ∀ g ∈ ipv6Groups bits, g < 65536 := fun g hg => mem_placeDigits_lt (by decide) hg
  have hlen : (ipv6Groups bits).length = 8 := length_placeDigits _ _ _
  have hfit := hrun.1
  have hparts := hrun.eq_append
  generalize hhead : (ipv6Groups bits).take run.1 = head at hparts ⊢
  generalize htail : (ipv6Groups bits).drop (run.1 + run.2) = tail at hparts ⊢
  have hheadlen : head.length = run.1 := by
    rw [← hhead, List.length_take]
    omega
  have htaillen : tail.length = 8 - (run.1 + run.2) := by
    rw [← htail, List.length_drop, hlen]
  have hdots : (0x2E : UInt8) ∉ gapText ++ groupsText true tail := by
    intro h
    rcases List.mem_append.mp h with h | h
    · exact absurd h (by decide)
    · exact dot_notMem_groupsText _ _ h
  have hread := readGroups_groupsText
    (fun g hg => hlt g (List.mem_of_mem_take (hhead ▸ hg))) (by omega : head.length ≤ 8) true
    (Or.inr ⟨_, rfl⟩ : Stops (gapText ++ groupsText true tail)) hdots
  have hread' := readGroups_groupsText
    (fun g hg => hlt g (List.mem_of_mem_drop (htail ▸ hg)))
    (by omega : tail.length ≤ 8 - (head.length + 1)) true (Or.inl rfl : Stops []) (by simp)
  rw [List.append_nil] at hread'
  have hzeros : 8 - head.length - tail.length = run.2 := by omega
  rw [List.append_assoc, readIpv6Addr_gap hread (by omega) hread', hzeros, ← hparts,
    ofGroups_ipv6Groups]

/-- The IPv4 form of the last two groups. -/
theorem readGroups_mapped (v4 : BitVec 32) :
    readGroups 7 true (0x66 :: 0x66 :: 0x66 :: 0x66 :: 0x3A :: ipv4Text v4) =
      (65535 :: placeDigits 65536 2 v4.toNat, true, []) := by
  have hends : Ends 10 (0x66 :: 0x66 :: 0x66 :: 0x66 :: 0x3A :: ipv4Text v4) := by
    intro b hb
    cases hb
    decide
  have hcolon : Ends 16 (0x3A :: ipv4Text v4) := by
    intro b hb
    cases hb
    decide
  have hffff : readNumber 16 (some 4) true 65536 (numberText 16 65535 ++ 0x3A :: ipv4Text v4) =
      some (65535, 0x3A :: ipv4Text v4) :=
    readNumber_numberText (by decide) (by decide) (by decide) (by decide : 4 ≠ 0) (by decide)
      (by simp) true hcolon
  have htext : numberText 16 65535 = [0x66, 0x66, 0x66, 0x66] := by decide +kernel
  rw [htext, List.cons_append, List.cons_append, List.cons_append, List.cons_append,
    List.nil_append] at hffff
  have hlast : readSeparated 0x3A false readIpv4Addr (0x3A :: ipv4Text v4) = some (v4, []) := by
    have hread := readIpv4Addr_ipv4Text v4 (ends_nil 10)
    rw [List.append_nil] at hread
    exact hread
  rw [readGroups, readSeparated, if_pos rfl, readIpv4Addr_eq_none_of_ends hends, ite_self,
    readSeparated, if_pos rfl, hffff]
  dsimp only
  rw [readGroups, hlast]
  rfl

theorem ofGroups_mapped {v4 : BitVec 32} (h : toIpv4Mapped bits = some v4) :
    ofGroups (List.replicate 5 0 ++ 65535 :: placeDigits 65536 2 v4.toNat) = bits := by
  obtain ⟨hfront, hv4⟩ := Option.ite_none_right_eq_some.mp h
  have hlow : v4.toNat = bits.toNat % 2 ^ 32 := by
    rw [← Option.some.inj hv4, BitVec.toNat_ofNat]
  apply BitVec.eq_of_toNat_eq
  simp only [ofGroups, placeValue, placeDigits, List.replicate, List.nil_append,
    List.cons_append, List.foldl_cons, List.foldl_nil, BitVec.toNat_ofNat]
  omega

theorem readIpv6Addr_mapped {v4 : BitVec 32} (h : toIpv4Mapped bits = some v4) :
    readIpv6Addr (mappedText ++ ipv4Text v4) = some (bits, []) := by
  have hhead : readGroups 8 true (mappedText ++ ipv4Text v4) =
      ([], false, gapText ++ 0x66 :: 0x66 :: 0x66 :: 0x66 :: 0x3A :: ipv4Text v4) :=
    readGroups_stops (Or.inr ⟨_, rfl⟩) 8 true
  rw [readIpv6Addr_gap hhead (by decide) (readGroups_mapped v4)]
  exact congrArg (fun v => some (v, [])) (ofGroups_mapped h)

theorem readIpv6Addr_ipv6Text (bits : BitVec 128) :
    readIpv6Addr (ipv6Text bits) = some (bits, []) := by
  unfold ipv6Text
  cases hmapped : toIpv4Mapped bits with
  | some v4 => exact readIpv6Addr_mapped hmapped
  | none =>
    dsimp only
    split
    · have hrun := zeroRun_longestZeros (ipv6Groups bits) (ipv6Groups bits) 0 0 0 (0, 0) rfl
        (Or.inl rfl) ⟨Nat.zero_le _, fun i _ hi => absurd hi (Nat.not_lt_zero i)⟩
        ⟨Nat.zero_le _, fun i _ hi => absurd hi (Nat.not_lt_zero i)⟩
      exact readIpv6Addr_shortened hrun (by omega)
    · exact readIpv6Addr_groups bits

theorem readIpv4Addr_ipv6Text (bits : BitVec 128) : readIpv4Addr (ipv6Text bits) = none := by
  unfold ipv6Text
  cases toIpv4Mapped bits with
  | some v4 =>
    apply readIpv4Addr_eq_none_of_ends
    intro b hb
    cases hb
    decide
  | none =>
    apply readIpv4Addr_eq_none_of_notMem
    dsimp only
    split
    · intro h
      rcases List.mem_append.mp h with h | h
      · rcases List.mem_append.mp h with h | h
        · exact dot_notMem_groupsText _ _ h
        · exact absurd h (by decide)
      · exact dot_notMem_groupsText _ _ h
    · exact dot_notMem_groupsText _ _

/-- **Round trip.** An address is read back from its own text. -/
theorem parseIp_ipText (ip : BitVec 32 ⊕ BitVec 128) : parseIp (ipText ip) = some ip := by
  cases ip with
  | inl v4 =>
    have hread := readIpv4Addr_ipv4Text v4 (ends_nil 10)
    rw [List.append_nil] at hread
    rw [ipText, parseIp, parseWith, readIpAddr, hread]
  | inr v6 =>
    rw [ipText, parseIp, parseWith, readIpAddr, readIpv4Addr_ipv6Text, readIpv6Addr_ipv6Text]
    rfl

example : ipText (.inr 0x20010DB8000000000000000000000001) = utf8 "2001:db8::1" := by
  decide +kernel

example : parseIp (utf8 "::ffff:192.0.2.1") = some (.inr 0xFFFFC0000201) := by decide +kernel

/-! ### The bytes of an address -/

theorem isAddressByte_append {t : Str} (hs : ∀ b ∈ s, IsAddressByte b)
    (ht : ∀ b ∈ t, IsAddressByte b) : ∀ b ∈ s ++ t, IsAddressByte b := by
  intro b hb
  rcases List.mem_append.mp hb with hb | hb
  · exact hs b hb
  · exact ht b hb

theorem isAddressByte_ipv4Text (bits : BitVec 32) : ∀ b ∈ ipv4Text bits, IsAddressByte b := by
  intro b hb
  rcases isAddressByte_itemsText (by decide) (by decide) hb with h | h
  · exact Or.inl h
  · exact Or.inr (Or.inr h)

theorem isAddressByte_groupsText (first : Bool) (groups : List ℕ) :
    ∀ b ∈ groupsText first groups, IsAddressByte b := by
  intro b hb
  rcases isAddressByte_itemsText (by decide) (by decide) hb with h | h
  · exact Or.inr (Or.inl h)
  · exact Or.inr (Or.inr h)

theorem isAddressByte_gapText : ∀ b ∈ gapText, IsAddressByte b := by
  intro b hb
  simp only [gapText, List.mem_cons, List.not_mem_nil, or_false, or_self] at hb
  exact Or.inr (Or.inl hb)

theorem isAddressByte_mappedText : ∀ b ∈ mappedText, IsAddressByte b := by
  have hffff : ∀ b ∈ groupsText true [65535], IsAddressByte b := isAddressByte_groupsText _ _
  have htext : mappedText = gapText ++ groupsText true [65535] ++ [0x3A] := by decide +kernel
  rw [htext]
  refine isAddressByte_append (isAddressByte_append isAddressByte_gapText hffff) fun b hb => ?_
  exact Or.inr (Or.inl (List.mem_singleton.mp hb))

theorem isAddressByte_ipText (ip : BitVec 32 ⊕ BitVec 128) : ∀ b ∈ ipText ip, IsAddressByte b := by
  cases ip with
  | inl v4 => exact isAddressByte_ipv4Text v4
  | inr v6 =>
    rw [ipText, ipv6Text]
    cases toIpv4Mapped v6 with
    | some v4 => exact isAddressByte_append isAddressByte_mappedText (isAddressByte_ipv4Text v4)
    | none =>
      dsimp only
      split
      · exact isAddressByte_append (isAddressByte_append (isAddressByte_groupsText _ _)
          isAddressByte_gapText) (isAddressByte_groupsText _ _)
      · exact isAddressByte_groupsText _ _

end AlturaProt.Foundation
