import AlturaProt.Http.ClientIpConfig
import AlturaProt.Http.UriText

/-!
# Which host the origin sees

`validate_effective_host` of `src/http_proxy.rs` decides which host a request is for: the
authority of an absolute-form target, or else the `Host` line. The allowlist is applied to
that host only; beside an absolute-form target, the `Host` line merely has to be an
authority. `rewrite_request` then forwards the host that was checked, or that of the
upstream, and nothing else (`allowlist_binds_host`).
-/

namespace AlturaProt.Http

open Foundation Filter

/-! ## The model -/

/-- The fields of `HttpConfig` that the checks of a host read. -/
structure HostPolicy where
  requireHostHeader : Bool
  maxHostBytes : ℕ
  allowedHosts : List String

/-- What the `http` crate makes of authorities: how it reads one, and what the authority with a
text is. One that is read is all of the text. -/
structure Authorities where
  parse : Str → Except String Authority
  ofText : Str → Authority
  ofText_text : ∀ text, (ofText text).text = text
  parse_eq : ∀ text authority, parse text = .ok authority → authority = ofText text

/-- Without the brackets of an address. -/
def unbracketedHost (host : Str) : Str :=
  match host with
  | 0x5B :: rest => if rest.getLast? = some 0x5D then rest.dropLast else host
  | _ => host

def hostAllowed (authority : Authority) (allowedHosts : List String) : Bool :=
  allowedHosts.any fun allowed =>
    let allowed := encodeChars (trimText allowed.toList)
    eqIgnoreAsciiCase allowed authority.text ||
      (authority.portU16.isNone &&
        (eqIgnoreAsciiCase allowed authority.host ||
          eqIgnoreAsciiCase allowed (unbracketedHost authority.host)))

def validateAuthority (authority : Authority) (policy : HostPolicy) (enforceAllowedHosts : Bool) :
    Except String Unit := do
  rejectIf (decide (0 < policy.maxHostBytes ∧ policy.maxHostBytes < authority.text.length))
    "host header too long"
  rejectIf (authority.text.contains 0x40) "invalid host header"
  rejectIf (enforceAllowedHosts && !policy.allowedHosts.isEmpty &&
    !hostAllowed authority policy.allowedHosts) "host not allowed"

def validateHostHeaderWithPolicy (authorities : Authorities) (headers : HeaderMap)
    (policy : HostPolicy) (enforceAllowedHosts : Bool) : Except String (Option Str) :=
  match headers.getAll (utf8 "host") with
  | [] => if policy.requireHostHeader then .error "missing host header" else .ok none
  | [value] => do
      rejectIf (!value.all isVisibleAscii) "invalid host header"
      rejectIf value.isEmpty "empty host header"
      rejectIf (decide (0 < policy.maxHostBytes ∧ policy.maxHostBytes < value.length))
        "host header too long"
      let authority ← (authorities.parse value).mapError fun _ => "invalid host header"
      validateAuthority authority policy enforceAllowedHosts
      return some value
  | _ :: _ :: _ => .error "multiple host headers"

def validateEffectiveHost (authorities : Authorities) (uri : Uri) (headers : HeaderMap)
    (policy : HostPolicy) : Except String (Option Str) :=
  match uri.scheme with
  | none => validateHostHeaderWithPolicy authorities headers policy true
  | some scheme => do
      rejectIf (!eqIgnoreAsciiCase scheme (utf8 "http") &&
        !eqIgnoreAsciiCase scheme (utf8 "https")) "unsupported absolute-form scheme"
      -- the allowlist is for the authority of the target
      let _ ← validateHostHeaderWithPolicy authorities headers policy false
      match uri.authority with
      | none => .error "invalid absolute-form authority"
      | some authority => do
          validateAuthority (authorities.ofText authority) policy true
          return some authority

/-! ## What is accepted -/

variable {authorities : Authorities} {policy : HostPolicy}

theorem allowed_of_validateAuthority {authority : Authority} (hallow : policy.allowedHosts ≠ [])
    (h : validateAuthority authority policy true = .ok ()) :
    hostAllowed authority policy.allowedHosts = true := by
  simp only [validateAuthority, bind_eq_ok, rejectIf_eq_ok] at h
  simpa [List.isEmpty_iff, hallow] using h.2.2

/-- A host that is found is on the list, and none is found only if there is no line. -/
theorem validateHostHeader_ok {headers : HeaderMap} {host : Option Str} {enforce : Bool}
    (h : validateHostHeaderWithPolicy authorities headers policy enforce = .ok host) :
    (∀ value ∈ host, validateAuthority (authorities.ofText value) policy enforce = .ok ()) ∧
      (host = none → headers.getAll (utf8 "host") = []) := by
  unfold validateHostHeaderWithPolicy at h
  split at h
  · rename_i hlines
    split at h
    · cases h
    · cases h
      exact ⟨nofun, fun _ => hlines⟩
  · simp only [bind_eq_ok_iff] at h
    obtain ⟨_, -, _, -, _, -, authority, hparse, _, hvalid, hhost⟩ := h
    cases hhost
    refine ⟨?_, nofun⟩
    rintro _ ⟨⟩
    have hauthority := authorities.parse_eq _ _ (mapError_eq_ok_iff.mp hparse)
    rwa [← hauthority]
  · cases h

/-- **The host of an accepted request is on the list**, and there is none only if there is
no `Host` line. -/
theorem validateEffectiveHost_ok {uri : Uri} {headers : HeaderMap} {host : Option Str}
    (hallow : policy.allowedHosts ≠ [])
    (h : validateEffectiveHost authorities uri headers policy = .ok host) :
    (∀ value ∈ host, hostAllowed (authorities.ofText value) policy.allowedHosts = true) ∧
      (host = none → headers.getAll (utf8 "host") = []) := by
  unfold validateEffectiveHost at h
  split at h
  · obtain ⟨hvalid, hnone⟩ := validateHostHeader_ok h
    exact ⟨fun value hvalue => allowed_of_validateAuthority hallow (hvalid value hvalue), hnone⟩
  · simp only [bind_eq_ok_iff] at h
    obtain ⟨_, -, _, -, h⟩ := h
    split at h
    · cases h
    · obtain ⟨_, hvalid, hhost⟩ := bind_eq_ok_iff.mp h
      cases hhost
      refine ⟨?_, nofun⟩
      rintro _ ⟨⟩
      exact allowed_of_validateAuthority hallow hvalid

/-! ## What is forwarded -/

/-- **The allowlist binds what the origin sees.** -/
theorem allowlist_binds_host (authorities : Authorities) (policy : HostPolicy)
    (hallow : policy.allowedHosts ≠ []) (checks : HttpChecks) (req out : Request) (upstream : Uri)
    (origin : Str) (hupstream : upstream.authority = some origin) (forwarding : ForwardingContext)
    (stats : ForwardingStats)
    (haccepted : validateEffectiveHost authorities req.uri req.headers policy =
      .ok forwarding.originalHost)
    (hrewritten : (rewriteRequest checks req upstream forwarding stats).2 = .ok out) :
    (out.headers.getAll (utf8 "host")).length ≤ 1 ∧
      (∀ value ∈ out.headers.getAll (utf8 "host"),
        value = origin ∨ hostAllowed (authorities.ofText value) policy.allowedHosts = true) ∧
      ∀ value ∈ out.headers.getAll (utf8 "x-forwarded-host"),
        hostAllowed (authorities.ofText value) policy.allowedHosts = true := by
  obtain ⟨hallowed, hnone⟩ := validateEffectiveHost_ok hallow haccepted
  have hhost := getAll_rewriteRequest hrewritten (utf8 "host")
  have hforwarded := getAll_rewriteRequest hrewritten (utf8 "x-forwarded-host")
  rw [forwardedLines_host, hostValue] at hhost
  rw [forwardedLines_forwardedHost] at hforwarded
  have hlines : ∀ value ∈ out.headers.getAll (utf8 "x-forwarded-host"),
      hostAllowed (authorities.ofText value) policy.allowedHosts = true := by
    intro value hvalue
    rw [hforwarded, Option.mem_toList] at hvalue
    exact hallowed value hvalue
  cases hpreserve : forwarding.preserveHost with
  | false =>
    rw [hpreserve, hupstream] at hhost
    refine ⟨by rw [hhost]; exact le_refl _, fun value hvalue => .inl ?_, hlines⟩
    rw [hhost] at hvalue
    exact List.mem_singleton.mp hvalue
  | true =>
    cases horiginal : forwarding.originalHost with
    | some host =>
      rw [hpreserve, horiginal] at hhost
      refine ⟨by rw [hhost]; exact le_refl _, fun value hvalue => .inr ?_, hlines⟩
      rw [hhost] at hvalue
      rw [List.mem_singleton.mp hvalue]
      exact hallowed host (by rw [horiginal]; rfl)
    | none =>
      -- the lines of the request would stay, but there are none
      rw [hpreserve, horiginal, hnone horiginal] at hhost
      have hempty : out.headers.getAll (utf8 "host") = [] := hhost.trans (ite_self _)
      exact ⟨by rw [hempty]; exact Nat.zero_le _, by simp [hempty], hlines⟩

/-- The text of an authority is all of what was read. -/
theorem parseAuthority_eq_ok {s : Str} {authority : Authority}
    (h : parseAuthority s = .ok authority) : authority = ⟨s, authorityHost s, authorityPort s⟩ := by
  simp only [parseAuthority, splitAuthority, bind_eq_ok_iff] at h
  obtain ⟨_, -, parts, ⟨scan, -, _, -, hparts⟩, _, hrest, hauthority⟩ := h
  cases hparts
  cases hauthority
  have hall : s.takeWhile (fun b => !isAuthorityEnd b) = s := by
    have hle := List.drop_eq_nil_iff.mp
      (List.isEmpty_iff.mp (by simpa using rejectIf_eq_ok.mp hrest))
    exact (List.takeWhile_prefix _).eq_of_length_le hle
  rw [hall]

/-- Authorities as the crate reads them. -/
def crateAuthorities : Authorities where
  parse := parseAuthority
  ofText text := ⟨text, authorityHost text, authorityPort text⟩
  ofText_text _ := rfl
  parse_eq _ _ := parseAuthority_eq_ok

/-- Only one host is allowed. -/
def goodOnly : HostPolicy := ⟨true, 255, ["good.local"]⟩

/-- A target with the host that is allowed, and a `Host` line with another one. -/
def twoHosts : Request where
  uri := ⟨some (utf8 "http"), some (utf8 "good.local"), some (utf8 "/app?x=1")⟩
  headers := [(utf8 "host", utf8 "evil.local"), (utf8 "x-forwarded-host", utf8 "evil.local")]

def twoHostsContext : ForwardingContext :=
  { directContext with originalHost := some (utf8 "good.local"), preserveHost := true }

theorem allowlist_binds_two_hosts :
    ∃ out, (rewriteRequest plainChecks twoHosts localUpstream twoHostsContext ⟨0, 0⟩).2 =
        .ok out ∧
      out.headers.getAll (utf8 "host") = [utf8 "good.local"] ∧
      ∀ value ∈ out.headers.getAll (utf8 "host"), value = utf8 "127.0.0.1:9000" ∨
        hostAllowed (crateAuthorities.ofText value) goodOnly.allowedHosts = true := by
  have hfacts : validateEffectiveHost crateAuthorities twoHosts.uri twoHosts.headers goodOnly =
        .ok twoHostsContext.originalHost ∧
      ((rewriteRequest plainChecks twoHosts localUpstream twoHostsContext ⟨0, 0⟩).2.map
        fun out => out.headers.getAll (utf8 "host")) = .ok [utf8 "good.local"] := by
    decide +kernel
  obtain ⟨haccepted, hhost⟩ := hfacts
  obtain ⟨out, hout, hlines⟩ := map_eq_ok_iff.mp hhost
  obtain ⟨-, hvalues, -⟩ := allowlist_binds_host crateAuthorities goodOnly (by decide) plainChecks
    twoHosts out localUpstream (utf8 "127.0.0.1:9000") rfl twoHostsContext ⟨0, 0⟩ haccepted hout
  exact ⟨out, hout, hlines, hvalues⟩

end AlturaProt.Http
