import AlturaProt.Http.Rewrite

/-!
# Reading authorities, URIs and methods

The parsers of the `http` crate that the configuration is checked with. They are
parameters of the checks (`UriParser`, `MethodNames`); `httpCrate` and `tokenMethods`
are how the crate reads them, byte by byte, with the texts of its errors.
-/

namespace AlturaProt.Http

open Foundation Filter

/-- A host with an optional port and user information. -/
structure Authority where
  text : Str
  host : Str
  portU16 : Option ℕ
deriving DecidableEq

structure UriParser where
  uri : Str → Except String Uri
  authority : Str → Except String Authority

/-- Which texts `Method::from_bytes` takes. They are visible. -/
structure MethodNames where
  isMethod : Str → Bool
  visible : ∀ text, isMethod text = true → text.all isVisibleAscii = true

def Uri.query (uri : Uri) : Option Str :=
  uri.pathAndQuery.bind fun text =>
    if 0x3F ∈ text then some ((text.dropWhile (· != 0x3F)).drop 1) else none

/-! ## Authorities -/

def isUriByte (b : UInt8) : Bool := isAsciiAlphanumeric b || b ∈ utf8 "!#$&'()*+,-./:;=?@[]_~"

def isAuthorityEnd (b : UInt8) : Bool := b ∈ utf8 "/?#"

def AUTHORITY_MAX_COLONS : ℕ := 8

/-- What has been seen of an authority. -/
structure AuthorityScan where
  colons : ℕ := 0
  startBracket : Bool := false
  endBracket : Bool := false
  hasPercent : Bool := false
  afterAtSign : Bool := false

namespace AuthorityScan

def push (scan : AuthorityScan) (b : UInt8) : Except String AuthorityScan :=
  let scan := { scan with afterAtSign := false }
  if b = 0x3A then
    if AUTHORITY_MAX_COLONS ≤ scan.colons then .error "invalid authority"
    else .ok { scan with colons := scan.colons + 1 }
  else if b = 0x5B then
    if scan.hasPercent || scan.startBracket then .error "invalid authority"
    else .ok { scan with startBracket := true }
  else if b = 0x5D then
    if !scan.startBracket || scan.endBracket then .error "invalid authority"
    -- what came before was an address in brackets
    else .ok { scan with endBracket := true, colons := 0, hasPercent := false }
  else if b = 0x40 then
    -- what came before was user information
    .ok { scan with colons := 0, hasPercent := false, afterAtSign := true }
  else if b = 0x25 then .ok { scan with hasPercent := true }
  else if isUriByte b then .ok scan
  else .error "invalid uri character"

def finish (scan : AuthorityScan) : Except String Unit :=
  rejectIf (scan.startBracket != scan.endBracket || decide (1 < scan.colons) ||
    scan.afterAtSign || scan.hasPercent) "invalid authority"

end AuthorityScan

/-- An authority and what comes after it. -/
def splitAuthority (s : Str) : Except String (Str × Str) := do
  let text := s.takeWhile fun b => !isAuthorityEnd b
  let scan ← text.foldlM AuthorityScan.push {}
  scan.finish
  return (text, s.drop text.length)

def authorityHost (text : Str) : Str :=
  let hostPort := (text.reverse.takeWhile (· != 0x40)).reverse
  if hostPort.head? = some 0x5B then hostPort.takeWhile (· != 0x5D) ++ [0x5D]
  else hostPort.takeWhile (· != 0x3A)

def authorityPort (text : Str) : Option ℕ :=
  if 0x3A ∈ text then
    (parseUnsigned (2 ^ 16) (text.reverse.takeWhile (· != 0x3A)).reverse).toOption
  else none

def parseAuthority (s : Str) : Except String Authority := do
  rejectIf s.isEmpty "empty string"
  let (text, rest) ← splitAuthority s
  rejectIf (!rest.isEmpty) "invalid uri character"
  return ⟨text, authorityHost text, authorityPort text⟩

/-! ## URIs -/

def isSchemeByte (b : UInt8) : Bool := isAsciiAlphanumeric b || b ∈ utf8 "+-."

def MAX_SCHEME_LEN : ℕ := 64
def URI_MAX_LEN : ℕ := 65534

/-- The two standard schemes are kept in lower case. -/
def canonicalScheme (scheme : Str) : Str :=
  if eqIgnoreAsciiCase scheme (utf8 "http") || eqIgnoreAsciiCase scheme (utf8 "https") then
    scheme.map toAsciiLowercase
  else scheme

/-- The scheme and what comes after `://`. -/
def splitScheme (s : Str) : Except String (Option Str × Str) :=
  let scheme := s.takeWhile isSchemeByte
  if (s.drop scheme.length).take 3 = utf8 "://" then
    if MAX_SCHEME_LEN < scheme.length then .error "scheme too long"
    else .ok (some (canonicalScheme scheme), s.drop (scheme.length + 3))
  else .ok (none, s)

def isPathByte (b : UInt8) : Bool :=
  b == 0x21 || b == 0x22 || (0x24 ≤ b && b ≤ 0x3B) || b == 0x3D || (0x40 ≤ b && b ≤ 0x5F) ||
    (0x61 ≤ b && b ≤ 0x7E) || 0x80 ≤ b

def isQueryByte (b : UInt8) : Bool := isPathByte b || b == 0x3F || b == 0x60

/-- A path with an optional query; a fragment is dropped. -/
def parsePathAndQuery (s : Str) : Except String Str :=
  let text := s.takeWhile (· != 0x23)
  let path := text.takeWhile (· != 0x3F)
  if path.all isPathByte && (text.drop path.length).all isQueryByte then .ok text
  else .error "invalid uri character"

def parseUri (s : Str) : Except String Uri := do
  rejectIf (decide (URI_MAX_LEN < s.length)) "uri too long"
  rejectIf s.isEmpty "empty string"
  if s = utf8 "*" then return ⟨none, none, some s⟩
  if s.head? = some 0x2F then return ⟨none, none, some (← parsePathAndQuery s)⟩
  let (scheme, rest) ← splitScheme s
  let (authority, rest) ← splitAuthority rest
  match scheme with
  | none =>
    rejectIf (!rest.isEmpty) "invalid format"
    return ⟨none, some authority, none⟩
  | some scheme =>
    rejectIf authority.isEmpty "invalid format"
    return ⟨some scheme, some authority, some (← parsePathAndQuery rest)⟩

def httpCrate : UriParser where
  uri := parseUri
  authority := parseAuthority

theorem isVisibleAscii_of_isTokenByte {b : UInt8} (h : isTokenByte b = true) :
    isVisibleAscii b = true := by
  have hbyte : ∀ n < 256, isTokenByte (UInt8.ofNat n) = true →
      isVisibleAscii (UInt8.ofNat n) = true := by decide +kernel
  rw [← UInt8.ofNat_toNat (x := b)] at h ⊢
  exact hbyte b.toNat b.toNat_lt h

/-- The crate takes tokens. -/
def tokenMethods : MethodNames where
  isMethod text := !text.isEmpty && text.all isTokenByte
  visible text h := by
    rw [Bool.and_eq_true, List.all_eq_true] at h
    exact List.all_eq_true.mpr fun b hb => isVisibleAscii_of_isTokenByte (h.2 b hb)

example : (httpCrate.uri (utf8 "HTTP://[::1]:80/a?b")).toOption =
    some ⟨some (utf8 "http"), some (utf8 "[::1]:80"), some (utf8 "/a?b")⟩ := by decide +kernel

end AlturaProt.Http
