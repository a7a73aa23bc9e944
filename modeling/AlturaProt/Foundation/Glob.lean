import AlturaProt.Foundation.Python

/-!
# Glob patterns

The patterns of Python's `fnmatch` over code points, and `Path.glob` of a
pattern for one directory. `*` and `?` match themselves among others, a bracket
expression in general does not: a text without `[` matches itself
(`fnmatch_self`).
-/

namespace AlturaProt.Foundation.Python

inductive GlobToken where
  | literal (c : ℕ)
  | any
  | many
  | oneOf (negated : Bool) (ranges : List (ℕ × ℕ))
deriving DecidableEq

namespace GlobToken

/-- The character ranges between brackets; a single character is a range. -/
def rangesOf : PyStr → List (ℕ × ℕ)
  | x :: 0x2D :: y :: rest => (x, y) :: rangesOf rest
  | x :: rest => (x, x) :: rangesOf rest
  | [] => []

/-- The bracket expression after an opening bracket, and what follows it. A
closing bracket that comes first, or right after the `!`, stands for itself. -/
def bracket (rest : PyStr) : Option (GlobToken × PyStr) :=
  let negated := rest.head? == some 0x21
  let body := if negated then rest.tail else rest
  let lead : PyStr := if body.head? = some 0x5D then [0x5D] else []
  let members := (body.drop lead.length).takeWhile (· != 0x5D)
  match (body.drop lead.length).dropWhile (· != 0x5D) with
  | [] => none
  | _ :: after => some (.oneOf negated (rangesOf (lead ++ members)), after)

/-- The tokens of a pattern of at most the given length. A bracket that is not
closed stands for itself. -/
def tokens : ℕ → PyStr → List GlobToken
  | 0, _ => []
  | _ + 1, [] => []
  | n + 1, c :: rest =>
    if c = 0x2A then .many :: tokens n rest
    else if c = 0x3F then .any :: tokens n rest
    else if c = 0x5B then
      match bracket rest with
      | some (token, after) => token :: tokens n after
      | none => .literal c :: tokens n rest
    else .literal c :: tokens n rest

/-- A token other than `*` matches a single character. -/
def acceptsChar (c : ℕ) : GlobToken → Bool
  | .literal d => c == d
  | .any => true
  | .many => true
  | .oneOf negated ranges => negated != ranges.any fun range => range.1 ≤ c && c ≤ range.2

def accepts : List GlobToken → PyStr → Bool
  | [], name => name.isEmpty
  | .many :: rest, name => name.tails.any fun tail => accepts rest tail
  | _ :: _, [] => false
  | token :: rest, c :: name => token.acceptsChar c && accepts rest name

end GlobToken

open GlobToken

/-- `fnmatch.fnmatchcase(name, pattern)`. -/
def fnmatch (pattern name : PyStr) : Bool := accepts (tokens pattern.length pattern) name

/-- The pattern has two stars in a row. -/
def hasDoubleStar (pattern : PyStr) : Bool := decide ([0x2A, 0x2A] <:+: pattern)

/-- `Path.glob` over the names of a directory, for a pattern without slashes. Up
to Python 3.12 a `**` in it raises. -/
def glob (pattern : PyStr) (names : List PyStr) : Except PyError (List PyStr) :=
  if hasDoubleStar pattern then .error .valueError else .ok (names.filter (fnmatch pattern))

theorem accepts_many {rest : List GlobToken} (front : PyStr) {name : PyStr}
    (h : accepts rest name = true) : accepts (.many :: rest) (front ++ name) = true := by
  rw [accepts, List.any_eq_true]
  exact ⟨name, (List.mem_tails _ _).mpr (List.suffix_append _ _), h⟩

/-- **A text without brackets matches itself**, in front of patterns and names
that match. -/
theorem fnmatch_self {text pattern name : PyStr} (htext : 0x5B ∉ text)
    (h : fnmatch pattern name = true) : fnmatch (text ++ pattern) (text ++ name) = true := by
  induction text with
  | nil => exact h
  | cons c text ih =>
    rw [List.mem_cons, not_or] at htext
    obtain ⟨hc, htext⟩ := htext
    have ih := ih htext
    unfold fnmatch at ih ⊢
    rw [List.cons_append, List.cons_append, List.length_cons, tokens]
    split
    · exact accepts_many [c] ih
    · split
      · exact ih
      · rw [if_neg (Ne.symm hc)]
        simp only [accepts, acceptsChar, beq_self_eq_true, Bool.true_and]
        exact ih

end AlturaProt.Foundation.Python
