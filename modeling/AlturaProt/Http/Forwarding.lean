import AlturaProt.Http.ClientIpConfig
import AlturaProt.Http.Rewrite

/-!
# What the upstream learns about the client

`handle_http` resolves the client address from the headers that came in, and
rewrites them for the upstream afterwards. The first half asks whether the
chain that the upstream gets leads to the same client; it does unless the
request itself had the chain removed as a hop-by-hop field. The second half
asks whether a client that is no trusted proxy can get a value of its own
through in the field that carries the identity; it can if the configured field is
not one of those the proxy knows.
-/

namespace AlturaProt.Http

open Foundation Limiter Filter ClientIpResolver

/-- The forwarding context that `handle_http` builds. -/
def requestContext (r : ClientIpResolver) (peerIp clientIp : IpAddr) (originalHost : Option Str)
    (preserveHost forwardAcceptEncoding : Bool) : ForwardingContext where
  originalHost := originalHost
  clientIp := clientIp
  peerIp := peerIp
  preserveHost := preserveHost
  preserveForwardedChain := r.isTrusted peerIp && r.usesXForwardedFor
  forwardAcceptEncoding := forwardAcceptEncoding

/-! ## Chains read again -/

theorem address_bytes {b : UInt8} (h : IsAddressByte b) :
    isShownWhitespace b = false ∧ b ≠ 0x2C ∧ b ≠ 0x5B := by
  have hdigit : ∀ d < 16, isShownWhitespace (digitByte d) = false ∧ digitByte d ≠ 0x2C ∧
      digitByte d ≠ 0x5B := by decide
  rcases h with rfl | rfl | ⟨d, hd, rfl⟩
  · decide
  · decide
  · exact hdigit d hd

theorem trimBy_ipAddrText (ip : IpAddr) :
    trimBy isShownWhitespace (ipAddrText ip) = ipAddrText ip :=
  trimBy_eq_self fun b hb => (address_bytes (isAddressByte_ipAddrText ip b hb)).1

theorem parseForwardedIpToken_text (ip : IpAddr) :
    parseForwardedIpToken (ipAddrText ip) = some ip := by
  have hparse := parseIpAddr_text ip
  have hbytes := isAddressByte_ipAddrText ip
  unfold parseForwardedIpToken
  rw [trimBy_ipAddrText]
  cases htext : ipAddrText ip with
  | nil =>
    have hnil : parseIpAddr [] = none := rfl
    rw [htext, hnil] at hparse
    cases hparse
  | cons b rest =>
    have hb := (address_bytes (hbytes b (by rw [htext]; exact List.mem_cons_self))).2.2
    rw [← htext, if_neg (by simp [htext]), if_neg (by simpa [htext] using hb), hparse]

theorem forwardedChain_text (ip : IpAddr) :
    (items 0x2C isShownWhitespace (ipAddrText ip)).filterMap parseForwardedIpToken = [ip] := by
  have hcomma : (0x2C : UInt8) ∉ ipAddrText ip := fun h =>
    (address_bytes (isAddressByte_ipAddrText ip _ h)).2.1 rfl
  rw [items_of_notMem hcomma, trimBy_ipAddrText]
  simp [parseForwardedIpToken_text]

/-- A line followed by another has the elements of both. -/
theorem items_joined (a b : Str) :
    items 0x2C isShownWhitespace (a ++ utf8 ", " ++ b) =
      items 0x2C isShownWhitespace a ++ items 0x2C isShownWhitespace b := by
  have hsep : utf8 ", " = [0x2C, 0x20] := by decide
  have hblank : ∀ c ∈ ([0x20] : Str), isShownWhitespace c = true :=
    List.forall_mem_singleton.mpr rfl
  rw [hsep, List.append_assoc, List.cons_append, items_append_cons,
    items_append_left (by decide) hblank]

theorem items_intercalate {lines : List Str} (h : lines ≠ []) :
    items 0x2C isShownWhitespace
      ((utf8 ", ").intercalate (lines.map (trimBy isShownWhitespace))) =
      forwardedTokens lines := by
  induction lines with
  | nil => exact absurd rfl h
  | cons line lines ih =>
    cases lines with
    | nil =>
      rw [List.map_singleton, List.intercalate_singleton, items_trimBy (by decide)]
      simp [forwardedTokens]
    | cons next lines =>
      rw [List.map_cons, List.map_cons, List.intercalate_cons_cons, items_joined,
        items_trimBy (by decide), ← List.map_cons, ih (by simp)]
      rfl

/-- Accepted lines become one line. -/
theorem canonicalLines_of_accepted {lines : List Str} (h : Accepted lines) (hne : lines ≠ []) :
    (canonicalLines lines).2 =
      some ((utf8 ", ").intercalate (lines.map (trimBy isShownWhitespace))) := by
  have hgood : lines.any (fun line =>
      !line.all isVisibleAscii || (trimBy isShownWhitespace line).isEmpty) = false := by
    rw [List.any_eq_false]
    intro line hline hbad
    rw [h.visible line hline, Bool.not_true, Bool.false_or, List.isEmpty_iff] at hbad
    -- a blank line would have one element, and that is no address
    have hempty : [] ∈ items 0x2C isShownWhitespace line := by
      rw [← items_trimBy (by decide), hbad]
      decide
    obtain ⟨ip, hip⟩ := h.parsed line hline [] hempty
    cases hip
  have hlines : lines.isEmpty = false := by
    cases lines with
    | nil => exact absurd rfl hne
    | cons => rfl
  rw [canonicalLines, hgood, hlines]
  rfl

/-- The chain that is handed on is the chain that came in, and the peer. -/
theorem forwardedChain_nextFor {lines : List Str} (h : Accepted lines) (clientIp peerIp : IpAddr) :
    forwardedChain [nextFor true clientIp peerIp (canonicalLines lines).2] =
      forwardedChain lines ++ [peerIp] := by
  rw [forwardedChain, forwardedTokens, List.flatMap_singleton]
  by_cases hne : lines = []
  · subst hne
    exact forwardedChain_text peerIp
  · rw [canonicalLines_of_accepted h hne, nextFor, if_pos rfl, items_joined,
      items_intercalate hne, List.filterMap_append, forwardedChain_text]
    rfl

/-! ## Identity and chain -/

/-- **Identity and chain.** With a trusted peer the chain that the upstream gets leads to
the resolved client, and `X-Real-IP` names it, exactly if no `Connection` line names
`X-Forwarded-For` or there is no untrusted address in the chain. -/
theorem identity_and_chain_agree_iff (r : ClientIpResolver)
    (hheader : r.usesXForwardedFor = true) (peerIp clientIp : IpAddr)
    (hpeer : r.isTrusted peerIp = true) (checks : HttpChecks) (req out : Request)
    (upstream : Uri) (originalHost : Option Str) (preserveHost forwardAcceptEncoding : Bool)
    (stats : ForwardingStats) (hresolve : r.resolve peerIp req.headers = .ok clientIp)
    (h : (rewriteRequest checks req upstream (requestContext r peerIp clientIp originalHost
      preserveHost forwardAcceptEncoding) stats).2 = .ok out) :
    ((∃ value, out.headers.getAll (utf8 "x-forwarded-for") = [value] ∧
        r.scan peerIp (forwardedChain [value]) = clientIp) ∧
      out.headers.getAll (utf8 "x-real-ip") = [ipAddrText clientIp]) ↔
    (utf8 "x-forwarded-for" ∉ connectionNames req.headers ∨
      ∀ ip ∈ forwardedChain (req.headers.getAll (utf8 "x-forwarded-for")),
        r.isTrusted ip = true) := by
  have houtcome := getAll_rewriteRequest h
  have hname : r.header = utf8 "x-forwarded-for" := by simpa [usesXForwardedFor] using hheader
  obtain ⟨hclient, haccepted⟩ := resolve_ok hheader hresolve
  rw [chainOf, hname] at hclient
  rw [hname] at haccepted
  have hpreserve : (requestContext r peerIp clientIp originalHost preserveHost
      forwardAcceptEncoding).preserveForwardedChain = true := by
    simp [requestContext, hpeer, hheader]
  -- the chain that is handed on consists of the lines that are left, and the peer
  have hchain : ∀ lines, Accepted lines →
      (((∃ value, [nextFor true clientIp peerIp (canonicalLines lines).2] = [value] ∧
        r.scan peerIp (forwardedChain [value]) = clientIp) ∧
        [ipAddrText clientIp] = [ipAddrText clientIp]) ↔
      r.scan peerIp (forwardedChain lines ++ [peerIp]) = clientIp) := by
    intro lines hlines
    rw [← forwardedChain_nextFor hlines clientIp peerIp]
    simp
  rw [houtcome, houtcome, forwardedLines_forwardedFor, forwardedLines_realIp, hpreserve]
  by_cases hconnection : utf8 "x-forwarded-for" ∈ connectionNames req.headers
  · rw [if_pos hconnection]
    refine (hchain [] ⟨by simp, by simp⟩).trans ?_
    have hleft : r.scan peerIp (forwardedChain [] ++ [peerIp]) = peerIp :=
      (scan_snoc_eq_peer_iff hpeer _).mpr (by simp [forwardedChain, forwardedTokens])
    rw [hleft, eq_comm, hclient, scan_snoc_eq_peer_iff hpeer]
    simp [hconnection]
  · rw [if_neg hconnection]
    exact iff_of_true ((hchain _ (haccepted hpeer)).mpr hclient.symm) (Or.inl hconnection)

/-- The request of a client at `203.0.113.7` that came through `10.0.0.1`. -/
def proxiedRequest (connection : String) : Request where
  uri := plainTarget
  headers := [(utf8 "connection", utf8 connection),
    (utf8 "x-forwarded-for", utf8 "198.51.100.1 "),
    (utf8 "x-forwarded-for", utf8 "203.0.113.7:443, 10.0.0.2")]

def proxiedContext : ForwardingContext :=
  requestContext behindEdge (.v4 0x0A000001) (.v4 0xCB007107) none true true

def proxiedForwarded : Request where
  uri := { localUpstream with pathAndQuery := some (utf8 "/a") }
  headers :=
    [(utf8 "x-forwarded-for", utf8 "198.51.100.1, 203.0.113.7:443, 10.0.0.2, 10.0.0.1"),
      (utf8 "x-real-ip", utf8 "203.0.113.7"), (utf8 "x-forwarded-proto", utf8 "http")]

/-- Two lines are joined, and lead the upstream to the same client. -/
theorem proxied_identity_and_chain_agree :
    behindEdge.usesXForwardedFor = true ∧ behindEdge.isTrusted (.v4 0x0A000001) = true ∧
    behindEdge.resolve (.v4 0x0A000001) (proxiedRequest "close").headers =
      .ok (.v4 0xCB007107) ∧
    (rewriteRequest plainChecks (proxiedRequest "close") localUpstream proxiedContext
      ⟨0, 0⟩).2 = .ok proxiedForwarded ∧
    ∃ value, proxiedForwarded.headers.getAll (utf8 "x-forwarded-for") = [value] ∧
      behindEdge.scan (.v4 0x0A000001) (forwardedChain [value]) = .v4 0xCB007107 := by
  obtain ⟨hheader, hpeer, hresolve, hout, hconnection⟩ :
      behindEdge.usesXForwardedFor = true ∧ behindEdge.isTrusted (.v4 0x0A000001) = true ∧
      behindEdge.resolve (.v4 0x0A000001) (proxiedRequest "close").headers =
        .ok (.v4 0xCB007107) ∧
      (rewriteRequest plainChecks (proxiedRequest "close") localUpstream proxiedContext
        ⟨0, 0⟩).2 = .ok proxiedForwarded ∧
      utf8 "x-forwarded-for" ∉ connectionNames (proxiedRequest "close").headers := by
    decide +kernel
  refine ⟨hheader, hpeer, hresolve, hout, ?_⟩
  exact ((identity_and_chain_agree_iff behindEdge hheader (.v4 0x0A000001) (.v4 0xCB007107) hpeer
    plainChecks (proxiedRequest "close") proxiedForwarded localUpstream none true true ⟨0, 0⟩
    hresolve hout).mpr (Or.inl hconnection)).1

/-- A client that names the chain in `Connection` has it removed after it was resolved: the
upstream is led to the proxy. -/
theorem connection_removes_the_chain :
    behindEdge.isTrusted (.v4 0x0A000001) = true ∧
    behindEdge.resolve (.v4 0x0A000001) (proxiedRequest "X-Forwarded-For").headers =
      .ok (.v4 0xCB007107) ∧
    ((rewriteRequest plainChecks (proxiedRequest "X-Forwarded-For") localUpstream proxiedContext
        ⟨0, 0⟩).2.map fun out => out.headers.getAll (utf8 "x-forwarded-for")) =
      .ok [utf8 "10.0.0.1"] ∧
    behindEdge.scan (.v4 0x0A000001) (forwardedChain [utf8 "10.0.0.1"]) = .v4 0x0A000001 := by
  obtain ⟨hpeer, hresolve, hconnection, htext, hscan⟩ :
      behindEdge.isTrusted (.v4 0x0A000001) = true ∧
      behindEdge.resolve (.v4 0x0A000001) (proxiedRequest "X-Forwarded-For").headers =
        .ok (.v4 0xCB007107) ∧
      utf8 "x-forwarded-for" ∈ connectionNames (proxiedRequest "X-Forwarded-For").headers ∧
      [nextFor proxiedContext.preserveForwardedChain proxiedContext.clientIp
        proxiedContext.peerIp none] = [utf8 "10.0.0.1"] ∧
      behindEdge.scan (.v4 0x0A000001) (forwardedChain [utf8 "10.0.0.1"]) =
        .v4 0x0A000001 := by decide +kernel
  refine ⟨hpeer, hresolve, ?_, hscan⟩
  rfl

/-! ## The identity field of an untrusted client -/

/-- The fields that the proxy sets for an untrusted client: the address is that of the
connection, whatever the request says. -/
def proxyLines (upstream : Uri) (forwarding : ForwardingContext) : List (Str × Str) :=
  [(utf8 "x-forwarded-for", ipAddrText forwarding.peerIp),
    (utf8 "x-real-ip", ipAddrText forwarding.peerIp),
    (utf8 "x-forwarded-proto", utf8 "http")] ++
  forwarding.originalHost.toList.map (fun host => (utf8 "x-forwarded-host", host)) ++
  (hostValue upstream forwarding).toList.map (fun host => (utf8 "host", host))

/-- The fields that the proxy removes or sets. -/
def handledNames (upstream : Uri) (forwarding : ForwardingContext) (headers : HeaderMap) :
    List Str :=
  spoofableNames ++ strippedNames forwarding headers ++ [utf8 "x-forwarded-for"] ++
    if (hostValue upstream forwarding).isSome then [utf8 "host"] else []

section Untrusted

variable {upstream : Uri} {forwarding : ForwardingContext} {headers : HeaderMap} {name : Str}

theorem mem_handledNames :
    name ∈ handledNames upstream forwarding headers ↔
      name ∈ spoofableNames ∨ name ∈ strippedNames forwarding headers ∨
        name = utf8 "x-forwarded-for" ∨
        (name = utf8 "host" ∧ (hostValue upstream forwarding).isSome = true) := by
  unfold handledNames
  cases (hostValue upstream forwarding).isSome <;> simp

theorem mem_proxyLines {value : Str} :
    (name, value) ∈ proxyLines upstream forwarding ↔
      (name = utf8 "x-forwarded-for" ∧ value = ipAddrText forwarding.peerIp) ∨
      (name = utf8 "x-real-ip" ∧ value = ipAddrText forwarding.peerIp) ∨
      (name = utf8 "x-forwarded-proto" ∧ value = utf8 "http") ∨
      (name = utf8 "x-forwarded-host" ∧ value ∈ forwarding.originalHost.toList) ∨
      (name = utf8 "host" ∧ value ∈ (hostValue upstream forwarding).toList) := by
  simp only [proxyLines, List.mem_append, List.mem_cons, List.not_mem_nil, or_false,
    Prod.mk.injEq, List.mem_map, or_assoc]
  have hmap : ∀ (field : Str) (values : List Str),
      (∃ host ∈ values, field = name ∧ host = value) ↔ name = field ∧ value ∈ values := by
    intro field values
    constructor
    · rintro ⟨host, hhost, rfl, rfl⟩
      exact ⟨rfl, hhost⟩
    · rintro ⟨rfl, hvalue⟩
      exact ⟨value, hvalue, rfl, rfl⟩
  rw [hmap, hmap]

/-- A field that is handled has only lines that the proxy set. -/
theorem mem_proxyLines_of_handled (hdirect : forwarding.preserveForwardedChain = false)
    (hclient : forwarding.clientIp = forwarding.peerIp)
    (h : name ∈ handledNames upstream forwarding headers) {value : Str}
    (hvalue : value ∈ forwardedLines upstream forwarding headers name) :
    (name, value) ∈ proxyLines upstream forwarding := by
  rw [mem_proxyLines]
  unfold forwardedLines survivingLines at hvalue
  split at hvalue
  · exact Or.inr (Or.inr (Or.inl ⟨by assumption, List.mem_singleton.mp hvalue⟩))
  split at hvalue
  · exact Or.inr (Or.inr (Or.inr (Or.inl ⟨by assumption, hvalue⟩)))
  split at hvalue
  · rw [hclient] at hvalue
    exact Or.inr (Or.inl ⟨by assumption, List.mem_singleton.mp hvalue⟩)
  split at hvalue
  · rw [hdirect, hclient, nextFor_direct] at hvalue
    exact Or.inl ⟨by assumption, List.mem_singleton.mp hvalue⟩
  rename_i hfor
  split at hvalue
  · cases hvalue
  rename_i hspoof
  split at hvalue
  · rename_i hhost
    exact Or.inr (Or.inr (Or.inr (Or.inr ⟨hhost.1, hvalue⟩)))
  rename_i hhost
  -- what is left is handled because it was stripped
  have hstripped : name ∈ strippedNames forwarding headers := by
    rw [mem_handledNames] at h
    tauto
  rw [if_pos hstripped] at hvalue
  cases hvalue

/-- A field that is not handled passes as it is, and the proxy sets no line of it. -/
theorem forwardedLines_of_not_handled (h : name ∉ handledNames upstream forwarding headers) :
    forwardedLines upstream forwarding headers name = headers.getAll name ∧
      ∀ value, (name, value) ∉ proxyLines upstream forwarding := by
  simp only [mem_handledNames, not_or] at h
  obtain ⟨hspoof, hstripped, hfor, hhost⟩ := h
  have hset : ∀ field ∈ spoofableNames, name ≠ field := by
    rintro field hfield rfl
    exact hspoof hfield
  have hreal : name ≠ utf8 "x-real-ip" := hset _ (by simp [spoofableNames])
  have hproto : name ≠ utf8 "x-forwarded-proto" := hset _ (by simp [spoofableNames])
  have hfhost : name ≠ utf8 "x-forwarded-host" := hset _ (by simp [spoofableNames])
  constructor
  · unfold forwardedLines survivingLines
    rw [if_neg hproto, if_neg hfhost, if_neg hreal, if_neg hfor, if_neg hspoof, if_neg hhost,
      if_neg hstripped]
  · intro value hmem
    rcases mem_proxyLines.mp hmem with h | h | h | h | h
    · exact hfor h.1
    · exact hreal h.1
    · exact hproto h.1
    · exact hfhost h.1
    · refine hhost ⟨h.1, ?_⟩
      rw [Option.isSome_iff_exists]
      exact ⟨value, Option.mem_toList.mp h.2⟩

end Untrusted

/-- **Who sets the identity field.** For a client that is no trusted proxy every line of the
configured field that reaches the upstream was set by the proxy, exactly if the proxy
removes or sets fields of that name, or the request has none. -/
theorem identity_header_not_spoofed_iff (header : String)
    (hvalid : validateHttpClientIpHeader header = .ok ()) :
    ∃ name, headerNameFromBytes (utf8 header) = some name ∧
    ∀ (r : ClientIpResolver) (peerIp clientIp : IpAddr) (checks : HttpChecks) (req out : Request)
      (upstream : Uri) (originalHost : Option Str) (preserveHost forwardAcceptEncoding : Bool)
      (stats : ForwardingStats),
      r.header = name → r.isTrusted peerIp = false → r.resolve peerIp req.headers = .ok clientIp →
      (rewriteRequest checks req upstream (requestContext r peerIp clientIp originalHost
        preserveHost forwardAcceptEncoding) stats).2 = .ok out →
      ((∀ value ∈ out.headers.getAll name, (name, value) ∈ proxyLines upstream
          (requestContext r peerIp clientIp originalHost preserveHost forwardAcceptEncoding)) ↔
        name ∈ handledNames upstream (requestContext r peerIp clientIp originalHost preserveHost
          forwardAcceptEncoding) req.headers ∨ req.headers.getAll name = []) := by
  obtain ⟨name, hname⟩ := headerName_of_valid hvalid
  refine ⟨name, hname, ?_⟩
  intro r peerIp clientIp checks req out upstream originalHost preserveHost forwardAcceptEncoding
    stats _ hpeer hresolve h
  rw [resolve_untrusted hpeer] at hresolve
  cases hresolve
  have hdirect : (requestContext r peerIp peerIp originalHost preserveHost
      forwardAcceptEncoding).preserveForwardedChain = false := by simp [requestContext, hpeer]
  rw [getAll_rewriteRequest h]
  by_cases hhandled : name ∈ handledNames upstream (requestContext r peerIp peerIp
      originalHost preserveHost forwardAcceptEncoding) req.headers
  · exact iff_of_true (fun value => mem_proxyLines_of_handled hdirect rfl hhandled)
      (Or.inl hhandled)
  · obtain ⟨hlines, hnone⟩ := forwardedLines_of_not_handled hhandled
    rw [hlines, or_iff_right hhandled, List.eq_nil_iff_forall_not_mem]
    constructor
    · intro hset value hvalue
      exact hnone value (hset value hvalue)
    · intro hempty value hvalue
      exact absurd hvalue (hempty value)

/-- A resolver that reads another field, behind proxies in `10.0.0.0/8`. -/
def customResolver (name : String) : ClientIpResolver :=
  { behindEdge with header := utf8 name }

/-- A client that is no trusted proxy sends a value of its own in a field. -/
def spoofingRequest (name : String) : Request where
  uri := plainTarget
  headers := [(utf8 name, utf8 "192.0.2.1")]

def spoofingContext (name : String) : ForwardingContext :=
  requestContext (customResolver name) (.v4 0xCB007107) (.v4 0xCB007107) none true true

def spoofingForwarded : Request where
  uri := { localUpstream with pathAndQuery := some (utf8 "/a") }
  headers :=
    [(utf8 "x-forwarded-for", utf8 "203.0.113.7"), (utf8 "x-real-ip", utf8 "203.0.113.7"),
      (utf8 "x-forwarded-proto", utf8 "http")]

/-- A field that the proxy knows is removed. -/
theorem known_identity_header_not_spoofed :
    validateHttpClientIpHeader "CF-Connecting-IP" = .ok () ∧
    (customResolver "cf-connecting-ip").isTrusted (.v4 0xCB007107) = false ∧
    (rewriteRequest plainChecks (spoofingRequest "cf-connecting-ip") localUpstream
      (spoofingContext "cf-connecting-ip") ⟨0, 0⟩).2 = .ok spoofingForwarded ∧
    ∀ value ∈ spoofingForwarded.headers.getAll (utf8 "cf-connecting-ip"),
      (utf8 "cf-connecting-ip", value) ∈ proxyLines localUpstream
        (spoofingContext "cf-connecting-ip") := by
  obtain ⟨hvalid, hpeer, hout, hlower⟩ :
      validateHttpClientIpHeader "CF-Connecting-IP" = .ok () ∧
      (customResolver "cf-connecting-ip").isTrusted (.v4 0xCB007107) = false ∧
      (rewriteRequest plainChecks (spoofingRequest "cf-connecting-ip") localUpstream
        (spoofingContext "cf-connecting-ip") ⟨0, 0⟩).2 = .ok spoofingForwarded ∧
      headerNameFromBytes (utf8 "CF-Connecting-IP") = some (utf8 "cf-connecting-ip") := by
    decide +kernel
  refine ⟨hvalid, hpeer, hout, ?_⟩
  obtain ⟨name, hname, hiff⟩ := identity_header_not_spoofed_iff "CF-Connecting-IP" hvalid
  cases hlower.symm.trans hname
  exact (hiff (customResolver "cf-connecting-ip") (.v4 0xCB007107) (.v4 0xCB007107) plainChecks
    (spoofingRequest "cf-connecting-ip") spoofingForwarded localUpstream none true true ⟨0, 0⟩ rfl
    hpeer (resolve_untrusted hpeer _) hout).mpr (Or.inl (by simp [handledNames, spoofableNames]))

/-- A field of the operator's own choice is accepted, and reaches the upstream with the
value of the client. -/
theorem custom_identity_header_spoofed :
    validateHttpClientIpHeader "x-my-client-ip" = .ok () ∧
    headerNameFromBytes (utf8 "x-my-client-ip") = some (utf8 "x-my-client-ip") ∧
    (customResolver "x-my-client-ip").isTrusted (.v4 0xCB007107) = false ∧
    ((rewriteRequest plainChecks (spoofingRequest "x-my-client-ip") localUpstream
        (spoofingContext "x-my-client-ip") ⟨0, 0⟩).2.map
      fun out => out.headers.getAll (utf8 "x-my-client-ip")) = .ok [utf8 "192.0.2.1"] ∧
    (utf8 "x-my-client-ip", utf8 "192.0.2.1") ∉
      proxyLines localUpstream (spoofingContext "x-my-client-ip") := by
  obtain ⟨hvalid, hname, hpeer⟩ :
      validateHttpClientIpHeader "x-my-client-ip" = .ok () ∧
      headerNameFromBytes (utf8 "x-my-client-ip") = some (utf8 "x-my-client-ip") ∧
      (customResolver "x-my-client-ip").isTrusted (.v4 0xCB007107) = false := by decide +kernel
  have hunknown : utf8 "x-my-client-ip" ∉ handledNames localUpstream
      (spoofingContext "x-my-client-ip") (spoofingRequest "x-my-client-ip").headers := by
    rw [mem_handledNames, mem_strippedNames]
    simp [spoofableNames, hopByHopNames, connectionNames, spoofingRequest, spoofingContext,
      requestContext, hostValue, HeaderMap.getAll, utf8_inj]
  obtain ⟨hlines, hnone⟩ := forwardedLines_of_not_handled hunknown
  refine ⟨hvalid, hname, hpeer, ?_, hnone _⟩
  rw [map_getAll_rewriteRequest _ _ (by simp [hostValue, spoofingContext, requestContext])
    (by simp [spoofingContext, requestContext]), hlines]
  simp [spoofingRequest, HeaderMap.getAll]

end AlturaProt.Http
