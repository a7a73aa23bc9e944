import AlturaProt.Http.ClientIp

/-!
# The configuration of the client address

The checks that `src/config.rs` makes on `http.client_ip`, and
`ClientIpResolver::from_config` of `src/http_proxy.rs`, which reads the same
entries a second time and must not fail on what was accepted
(`fromConfig_of_valid`).

Configured texts are strings of any characters; they are compared and trimmed
character by character and parsed as bytes.
-/

namespace AlturaProt.Http

open Foundation Limiter Filter

def DEFAULT_HTTP_CLIENT_IP_HEADER_MAX_BYTES : ℕ := 64
def DEFAULT_HTTP_MAX_TRUSTED_PROXIES : ℕ := 128
def DEFAULT_HTTP_MAX_TRUSTED_PROXY_BYTES : ℕ := 64

structure ClientIpConfig where
  header : String
  trustedProxies : List String
  maxForwardedForBytes : ℕ
  maxForwardedForHops : ℕ

structure HttpConfig where
  listen : String
  clientIp : ClientIpConfig

def trimText (chars : List Char) : List Char := trimBy isWhitespaceChar chars

/-! ## Ranges -/

/-- The text before the first slash and, if there is one, the text after it. -/
def splitAtSlash (raw : List Char) : List Char × Option (List Char) :=
  match raw.dropWhile (· != '/') with
  | [] => (raw, none)
  | _ :: rest => (raw.takeWhile (· != '/'), some rest)

def parsePrefix (raw : Option (List Char)) (max : ℕ) : Except String (Fin (max + 1)) :=
  match raw with
  | none => .ok (Fin.last max)
  | some raw =>
    match parseUnsigned 256 (encodeChars raw) with
    | .error kind => .error s!"invalid prefix: {kind.text}"
    | .ok len =>
      if h : len ≤ max then .ok ⟨len, Nat.lt_succ_of_le h⟩
      else .error s!"prefix {len} exceeds max {max}"

/-- A range from the texts of its address and its prefix length. -/
def rangeOfParts (ipRaw : List Char) (lenRaw : Option (List Char)) : Except String IpRange :=
  match parseIpAddr (encodeChars ipRaw) with
  | none => .error "invalid IP address: invalid IP address syntax"
  | some (.v4 ip) => (parsePrefix lenRaw 32).map (.v4 ip)
  | some (.v6 ip) => (parsePrefix lenRaw 128).map (.v6 ip)

def IpRange.parse (raw : List Char) : Except String IpRange :=
  let (ipRaw, lenRaw) := splitAtSlash (trimText raw)
  rangeOfParts ipRaw lenRaw

inductive TrustedProxyFamily where
  | v4
  | v6
deriving DecidableEq

/-- What the validation looks at. -/
structure TrustedProxyRange where
  family : TrustedProxyFamily
  len : ℕ

def IpRange.toTrustedProxyRange : IpRange → TrustedProxyRange
  | .v4 _ len => ⟨.v4, len⟩
  | .v6 _ len => ⟨.v6, len⟩

/-- The reading that is made for validation trims the parts as well. -/
def parseTrustedProxyRange (raw : List Char) : Except String TrustedProxyRange :=
  let (ipRaw, lenRaw) := splitAtSlash (trimText raw)
  let parts := match lenRaw with
    | some len => (trimText ipRaw, some (trimText len))
    | none => (ipRaw, none)
  (rangeOfParts parts.1 parts.2).map IpRange.toTrustedProxyRange

def TrustedProxyRange.trustsAllPeers (range : TrustedProxyRange) : Bool := range.len == 0

def TrustedProxyRange.familyName (range : TrustedProxyRange) : String :=
  match range.family with
  | .v4 => "IPv4"
  | .v6 => "IPv6"

/-! ## Validation -/

def validateHttpClientIpHeader (header : String) : Check := do
  rejectIf header.toList.isEmpty "http.client_ip.header must not be empty"
  rejectIf (trimText header.toList).isEmpty "http.client_ip.header must not be blank"
  rejectIf (trimText header.toList != header.toList)
    "http.client_ip.header must not start or end with whitespace"
  rejectIf (DEFAULT_HTTP_CLIENT_IP_HEADER_MAX_BYTES < (utf8 header).length)
    (s!"http.client_ip.header is {(utf8 header).length} bytes, above configured cap of " ++
      s!"{DEFAULT_HTTP_CLIENT_IP_HEADER_MAX_BYTES} bytes")
  rejectIf (headerNameFromBytes (utf8 header)).isNone
    "http.client_ip.header is not a valid HTTP field name: invalid HTTP header name"

def asciiLowercaseText (s : String) : List Char := s.toList.map Char.toLower

/-- The checks of one entry; an entry that equals an earlier one up to case is refused. -/
def validateTrustedProxyEntry (trustedProxies : List String) (idx : ℕ) (entry : String) :
    Check := do
  let path := s!"http.client_ip.trusted_proxies[{idx}]"
  rejectIf entry.toList.isEmpty (path ++ " must not be empty")
  rejectIf (trimText entry.toList).isEmpty (path ++ " must not be blank")
  rejectIf (trimText entry.toList != entry.toList)
    (path ++ " must not start or end with whitespace")
  rejectIf (entry.toList.any fun ch => isControlChar ch || isWhitespaceChar ch)
    (path ++ " must not contain whitespace or control characters")
  rejectIf (DEFAULT_HTTP_MAX_TRUSTED_PROXY_BYTES < (utf8 entry).length)
    (path ++ s!" is {(utf8 entry).length} bytes, above configured cap of " ++
      s!"{DEFAULT_HTTP_MAX_TRUSTED_PROXY_BYTES} bytes")
  rejectIf ((trustedProxies.take idx).any fun previous =>
      asciiLowercaseText previous == asciiLowercaseText entry)
    (path ++ s!" duplicates '{entry}'")

def validateTrustedProxyListShape (trustedProxies : List String) : Check := do
  rejectIf (DEFAULT_HTTP_MAX_TRUSTED_PROXIES < trustedProxies.length)
    (s!"http.client_ip.trusted_proxies contains {trustedProxies.length} entries, " ++
      s!"above configured cap of {DEFAULT_HTTP_MAX_TRUSTED_PROXIES}")
  checkEach (validateTrustedProxyEntry trustedProxies) 0 trustedProxies

def isLoopback : BitVec 32 ⊕ BitVec 128 → Bool
  | .inl v4 => v4.toNat / 2 ^ 24 == 127
  | .inr v6 => v6 == 1

/-- An entry must be a range, and on a public listener not one of all addresses. -/
def validateTrustedProxyRange (listen : String) (publicListener : Bool) (entry : String) :
    Check :=
  match parseTrustedProxyRange entry.toList with
  | .error err =>
    .error (s!"invalid http.client_ip.trusted_proxies entry '{entry}': " ++ err)
  | .ok range =>
    rejectIf (publicListener && range.trustsAllPeers)
      (s!"http.client_ip.trusted_proxies entry '{entry}' must not trust all " ++
        range.familyName ++ s!" peers on non-loopback listener {listen}; " ++
        "configure exact trusted proxy CIDRs instead")

def validateHttpTrustedProxyConfig (cfg : HttpConfig) : Check := do
  validateHttpClientIpHeader cfg.clientIp.header
  validateTrustedProxyListShape cfg.clientIp.trustedProxies
  match parseSocketIp (utf8 cfg.listen) with
  | none =>
    .error (s!"invalid http.listen address '{cfg.listen}': " ++ "invalid socket address syntax")
  | some listen =>
    checkEach (fun _ => validateTrustedProxyRange cfg.listen (!isLoopback listen)) 0
      cfg.clientIp.trustedProxies

def validateIpPrefixLen (path : String) (value max : ℕ) : Check :=
  rejectIf (value == 0 || max < value)
    (path ++ s!" must be between 1 and {max}, got {value}")

/-! ## The resolver of a configuration -/

/-- The ranges of the entries. -/
def ClientIpConfig.ranges (cfg : ClientIpConfig) : List IpRange :=
  cfg.trustedProxies.filterMap fun entry => (IpRange.parse entry.toList).toOption

/-- `from_config`; what would panic has no result. -/
def ClientIpResolver.fromConfig (cfg : ClientIpConfig) : Option ClientIpResolver := do
  let header ← headerNameFromBytes (utf8 cfg.header)
  let trustedProxies ← cfg.trustedProxies.mapM fun entry => (IpRange.parse entry.toList).toOption
  some
    { header := header
      trustedProxies := trustedProxies
      maxForwardedForBytes := cfg.maxForwardedForBytes
      maxForwardedForHops := cfg.maxForwardedForHops }

/-! ## What was accepted can be read again -/

theorem mem_of_mem_splitAtSlash {raw : List Char} {c : Char}
    (h : c ∈ (splitAtSlash raw).1 ∨ ∃ len ∈ (splitAtSlash raw).2, c ∈ len) : c ∈ raw := by
  unfold splitAtSlash at h
  split at h
  · rcases h with h | ⟨len, hlen, -⟩
    · exact h
    · cases hlen
  · rename_i slash rest hdrop
    rcases h with h | ⟨len, hlen, h⟩
    · exact (List.takeWhile_sublist _).subset h
    · cases hlen
      have hmem : c ∈ raw.dropWhile (· != '/') := by
        rw [hdrop]
        exact List.mem_cons_of_mem _ h
      exact (List.dropWhile_sublist _).subset hmem

/-- Without white space the two readings of an entry agree. -/
theorem parse_of_parseTrustedProxyRange {raw : List Char}
    (hblank : ∀ c ∈ raw, isWhitespaceChar c = false) {range : TrustedProxyRange}
    (h : parseTrustedProxyRange raw = .ok range) :
    ∃ r, IpRange.parse raw = .ok r ∧ r.toTrustedProxyRange = range := by
  have hraw : trimText raw = raw := trimBy_eq_self hblank
  have hip : trimText (splitAtSlash raw).1 = (splitAtSlash raw).1 :=
    trimBy_eq_self fun c hc => hblank c (mem_of_mem_splitAtSlash (Or.inl hc))
  have hlen : ∀ len ∈ (splitAtSlash raw).2, trimText len = len := fun len hmem =>
    trimBy_eq_self fun c hc => hblank c (mem_of_mem_splitAtSlash (Or.inr ⟨len, hmem, hc⟩))
  unfold parseTrustedProxyRange at h
  unfold IpRange.parse
  rw [hraw] at h ⊢
  generalize splitAtSlash raw = parts at hip hlen h ⊢
  obtain ⟨ipRaw, lenRaw⟩ := parts
  cases lenRaw with
  | none =>
    exact map_eq_ok_iff.mp h
  | some len =>
    dsimp only at h hip ⊢
    rw [hip, hlen len rfl] at h
    exact map_eq_ok_iff.mp h

theorem parse_of_validated {trustedProxies : List String} {idx : ℕ} {listen : String}
    {publicListener : Bool} {entry : String}
    (hshape : validateTrustedProxyEntry trustedProxies idx entry = .ok ())
    (hrange : validateTrustedProxyRange listen publicListener entry = .ok ()) :
    ∃ r, IpRange.parse entry.toList = .ok r ∧
      (publicListener = true → r.toTrustedProxyRange.trustsAllPeers = false) := by
  simp only [validateTrustedProxyEntry, bind_eq_ok, rejectIf_eq_ok] at hshape
  obtain ⟨-, -, -, hblank, -, -⟩ := hshape
  have hnone : ∀ c ∈ entry.toList, isWhitespaceChar c = false := by
    intro c hc
    have := List.any_eq_false.mp hblank c hc
    simp_all
  unfold validateTrustedProxyRange at hrange
  cases hparse : parseTrustedProxyRange entry.toList with
  | error err =>
    rw [hparse] at hrange
    cases hrange
  | ok range =>
    rw [hparse] at hrange
    obtain ⟨r, hr, rfl⟩ := parse_of_parseTrustedProxyRange hnone hparse
    refine ⟨r, hr, fun hpublic => ?_⟩
    simpa [hpublic] using rejectIf_eq_ok.mp hrange

theorem headerName_of_valid {header : String} (h : validateHttpClientIpHeader header = .ok ()) :
    ∃ name, headerNameFromBytes (utf8 header) = some name := by
  simp only [validateHttpClientIpHeader, bind_eq_ok, rejectIf_eq_ok] at h
  obtain ⟨-, -, -, -, hname⟩ := h
  rw [← Option.isSome_iff_exists, ← Option.not_isNone, hname]
  rfl

theorem entries_of_valid {cfg : HttpConfig} (h : validateHttpTrustedProxyConfig cfg = .ok ()) :
    ∃ listen, parseSocketIp (utf8 cfg.listen) = some listen ∧
      ∀ entry ∈ cfg.clientIp.trustedProxies, ∃ r, IpRange.parse entry.toList = .ok r ∧
        (isLoopback listen = false → r.toTrustedProxyRange.trustsAllPeers = false) := by
  simp only [validateHttpTrustedProxyConfig, validateTrustedProxyListShape, bind_eq_ok] at h
  obtain ⟨-, ⟨-, hshape⟩, hranges⟩ := h
  cases hlisten : parseSocketIp (utf8 cfg.listen) with
  | none =>
    rw [hlisten] at hranges
    cases hranges
  | some listen =>
    rw [hlisten] at hranges
    refine ⟨listen, rfl, fun entry hentry => ?_⟩
    obtain ⟨i, hi⟩ := checkEach_ok_of_mem hshape hentry
    obtain ⟨j, hj⟩ := checkEach_ok_of_mem hranges hentry
    obtain ⟨r, hr, hpublic⟩ := parse_of_validated hi hj
    exact ⟨r, hr, fun hloop => hpublic (by rw [hloop]; rfl)⟩

/-- **An accepted configuration has a resolver.** It trusts the ranges of the entries. -/
theorem fromConfig_of_valid {cfg : HttpConfig} (h : validateHttpTrustedProxyConfig cfg = .ok ()) :
    ∃ r, ClientIpResolver.fromConfig cfg.clientIp = some r ∧
      headerNameFromBytes (utf8 cfg.clientIp.header) = some r.header ∧
      r.trustedProxies = cfg.clientIp.ranges := by
  obtain ⟨_, -, hentries⟩ := entries_of_valid h
  simp only [validateHttpTrustedProxyConfig, bind_eq_ok] at h
  obtain ⟨header, hheader⟩ := headerName_of_valid h.1
  have hparse : ∀ entry ∈ cfg.clientIp.trustedProxies,
      ∃ r, (IpRange.parse entry.toList).toOption = some r := by
    intro entry hentry
    obtain ⟨r, hr, -⟩ := hentries entry hentry
    exact ⟨r, by rw [hr]; rfl⟩
  refine ⟨⟨header, cfg.clientIp.ranges, cfg.clientIp.maxForwardedForBytes,
    cfg.clientIp.maxForwardedForHops⟩, ?_, hheader, rfl⟩
  rw [ClientIpResolver.fromConfig, hheader, mapM_eq_filterMap hparse]
  rfl

/-- On a public listener no accepted range has all addresses of its family. -/
theorem trustsAllPeers_eq_false {cfg : HttpConfig}
    (h : validateHttpTrustedProxyConfig cfg = .ok ()) {listen : BitVec 32 ⊕ BitVec 128}
    (hlisten : parseSocketIp (utf8 cfg.listen) = some listen) (hpublic : isLoopback listen = false)
    {range : IpRange} (hrange : range ∈ cfg.clientIp.ranges) :
    range.toTrustedProxyRange.trustsAllPeers = false := by
  obtain ⟨listen', hlisten', hentries⟩ := entries_of_valid h
  cases hlisten.symm.trans hlisten'
  obtain ⟨entry, hentry, hparse⟩ := List.mem_filterMap.mp hrange
  obtain ⟨r, hr, hall⟩ := hentries entry hentry
  rw [hr] at hparse
  cases hparse
  exact hall hpublic

end AlturaProt.Http
