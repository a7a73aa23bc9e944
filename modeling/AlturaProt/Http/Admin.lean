import AlturaProt.Config.Validate

/-!
# The admin endpoints

`maybe_admin_response` of `src/http_proxy.rs`. The health endpoint answers everyone, the metrics
endpoint only a request with the configured token. Tokens are compared by
`constant_time_eq_bounded`, which looks at the same number of bytes whatever it is given: it
pads both texts with zeros, and collects their differences and that of their lengths in one
number.

The padding does not make different texts equal (`constantTimeEqBounded_iff`): two texts of one
length have their ends in the same place.
-/

namespace AlturaProt.Http

open Foundation Config

/-! ## Comparing tokens -/

/-- The byte at a position; behind the end there are zeros. -/
def byteAt (s : Str) (idx : ℕ) : UInt8 := s[idx]?.getD 0

/-- The differences of the first bytes, on top of those collected so far. -/
def collectDiff (expected actual : Str) (diff maxLen : ℕ) : ℕ :=
  (List.range maxLen).foldl
    (fun diff idx => diff ||| (byteAt expected idx ^^^ byteAt actual idx).toNat) diff

def constantTimeEqBounded (expected actual : Str) (maxLen : ℕ) : Bool :=
  if maxLen < expected.length then false
  else collectDiff expected actual (expected.length ^^^ actual.length) maxLen == 0

/-- The loop collects nothing iff the texts agree, zeros behind their ends included. -/
theorem collectDiff_eq_zero_iff {expected actual : Str} {diff maxLen : ℕ} :
    collectDiff expected actual diff maxLen = 0 ↔
      diff = 0 ∧ ∀ idx < maxLen, byteAt expected idx = byteAt actual idx := by
  induction maxLen with
  | zero => simp [collectDiff]
  | succ maxLen ih =>
    have hstep : collectDiff expected actual diff (maxLen + 1) =
        collectDiff expected actual diff maxLen |||
          (byteAt expected maxLen ^^^ byteAt actual maxLen).toNat := by
      rw [collectDiff, List.range_succ, List.foldl_append]
      rfl
    have hbyte : (byteAt expected maxLen ^^^ byteAt actual maxLen).toNat = 0 ↔
        byteAt expected maxLen = byteAt actual maxLen := by
      rw [← UInt8.xor_eq_zero_iff, ← UInt8.toNat_inj]
      rfl
    rw [hstep, Nat.or_eq_zero_iff, ih, hbyte]
    constructor
    · rintro ⟨⟨hdiff, hbytes⟩, hlast⟩
      refine ⟨hdiff, fun idx hidx => ?_⟩
      rcases Nat.lt_succ_iff_lt_or_eq.mp hidx with hidx | rfl
      · exact hbytes idx hidx
      · exact hlast
    · rintro ⟨hdiff, hbytes⟩
      exact ⟨⟨hdiff, fun idx hidx => hbytes idx (Nat.lt_succ_of_lt hidx)⟩,
        hbytes maxLen (Nat.lt_succ_self maxLen)⟩

/-- Texts of one length that agree up to it are equal: the zeros are behind both ends. -/
theorem eq_of_byteAt_eq {expected actual : Str} (hlength : expected.length = actual.length)
    (hbytes : ∀ idx < expected.length, byteAt expected idx = byteAt actual idx) :
    expected = actual := by
  refine List.ext_getElem hlength fun idx hexpected hactual => ?_
  have hbyte := hbytes idx hexpected
  rwa [byteAt, byteAt, List.getElem?_eq_getElem hexpected, List.getElem?_eq_getElem hactual]
    at hbyte

theorem constantTimeEqBounded_iff (expected actual : Str) (maxLen : ℕ) :
    constantTimeEqBounded expected actual maxLen = true ↔
      expected = actual ∧ expected.length ≤ maxLen := by
  unfold constantTimeEqBounded
  split
  · rename_i hlong
    simp only [Bool.false_eq_true, false_iff, not_and, not_le]
    exact fun _ => hlong
  · rename_i hfits
    have hle : expected.length ≤ maxLen := not_lt.mp hfits
    rw [beq_iff_eq, collectDiff_eq_zero_iff, Nat.xor_eq_zero_iff]
    constructor
    · rintro ⟨hlength, hbytes⟩
      exact ⟨eq_of_byteAt_eq hlength fun idx hidx => hbytes idx (hidx.trans_le hle), hle⟩
    · rintro ⟨rfl, -⟩
      exact ⟨rfl, fun _ _ => rfl⟩

/-- **Token comparison is exact equality.** Texts compare equal iff they are equal and no longer
than the bound. In particular zeros at the end, another length and a text longer than the bound
are never taken for the token. -/
theorem constant_time_eq_iff (expected actual : Str) (maxLen : ℕ) :
    (constantTimeEqBounded expected actual maxLen = true ↔
      expected = actual ∧ expected.length ≤ maxLen) ∧
    (∀ zeros, 0 < zeros →
      constantTimeEqBounded expected (expected ++ List.replicate zeros 0) maxLen = false) ∧
    (expected.length ≠ actual.length → constantTimeEqBounded expected actual maxLen = false) ∧
    (maxLen < actual.length → constantTimeEqBounded expected actual maxLen = false) := by
  refine ⟨constantTimeEqBounded_iff _ _ _, fun zeros hzeros => ?_, fun hlength => ?_,
    fun hlong => ?_⟩
  · rw [Bool.eq_false_iff, Ne, constantTimeEqBounded_iff]
    rintro ⟨heq, -⟩
    have hlength := congrArg List.length heq
    rw [List.length_append, List.length_replicate] at hlength
    omega
  · rw [Bool.eq_false_iff, Ne, constantTimeEqBounded_iff]
    rintro ⟨rfl, -⟩
    exact hlength rfl
  · rw [Bool.eq_false_iff, Ne, constantTimeEqBounded_iff]
    rintro ⟨rfl, hle⟩
    omega

example : constantTimeEqBounded (utf8 "secret") (utf8 "secret" ++ [0, 0]) 16 = false := by decide

/-! ## The endpoints -/

inductive AdminEndpoint where
  | health
  | metrics
deriving DecidableEq

/-- `str::trim_end_matches`, for one byte. -/
def trimEndMatches (byte : UInt8) (s : Str) : Str := (s.reverse.dropWhile (· == byte)).reverse

def adminEndpoint (pathStart method path : Str) : Option AdminEndpoint :=
  if method ≠ utf8 "GET" then none
  else if path = trimEndMatches 0x2F pathStart ++ utf8 "/health" then some .health
  else if path = trimEndMatches 0x2F pathStart ++ utf8 "/metrics" then some .metrics
  else none

def adminTokenMatches (expected : Str) (headers : Filter.HeaderMap) : Bool :=
  match headers.getAll (utf8 "x-altura-admin-token") with
  | [actual] => constantTimeEqBounded expected actual HTTP_ADMIN_TOKEN_MAX_BYTES
  | _ => false

/-- The response of an admin endpoint; the text of the metrics is left out. -/
inductive AdminResponse where
  | healthy
  | forbidden
  | metrics
deriving DecidableEq

def maybeAdminResponse (pathStart : Str) (adminToken : Option Str) (method path : Str)
    (headers : Filter.HeaderMap) : Option AdminResponse :=
  (adminEndpoint pathStart method path).map fun
    | .health => .healthy
    | .metrics =>
      if ∃ expected ∈ adminToken, adminTokenMatches expected headers = true then .metrics
      else .forbidden

end AlturaProt.Http
