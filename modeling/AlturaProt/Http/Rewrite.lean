import AlturaProt.Http.ClientIp

/-!
# Rewriting a request for the upstream

`rewrite_request` of `src/http_proxy.rs`. The target is moved to the upstream,
and the header map goes through several passes: hop-by-hop fields go, and with
them every field that a `Connection` line names; `Accept-Encoding` goes unless
it is forwarded; `Host` is set; and the fields that tell the upstream about the
client are removed and set again.

A pass is described by what it does to the lines of one field
(`getAll_remove`, `getAll_insert`), so the outcome of all of them is known for
every field at once (`getAll_rewriteRequest`).
-/

namespace AlturaProt.Filter.HeaderMap

open Foundation

/-! ## Removing and setting fields -/

def remove (headers : HeaderMap) (name : Str) : HeaderMap :=
  headers.filter fun field => field.1 != name

/-- One line takes the place of all lines of the field. The position among other
fields is not observed. -/
def insert (headers : HeaderMap) (name value : Str) : HeaderMap :=
  headers.remove name ++ [(name, value)]

def removeAll (headers : HeaderMap) (names : List Str) : HeaderMap := names.foldl remove headers

/-- Set a field if there is a value for it. -/
def insertSome (headers : HeaderMap) (name : Str) : Option Str → HeaderMap
  | some value => headers.insert name value
  | none => headers

variable (headers : HeaderMap)

theorem getAll_remove (name other : Str) :
    (headers.remove name).getAll other = if other = name then [] else headers.getAll other := by
  unfold getAll remove
  rw [List.filter_filter]
  split
  · rename_i heq
    subst heq
    simp
  · rename_i hne
    congr 1
    apply List.filter_congr
    intro field _
    by_cases hfield : field.1 = other
    · simp [hfield, hne]
    · simp [hfield]

theorem getAll_insert (name value other : Str) :
    (headers.insert name value).getAll other =
      if other = name then [value] else headers.getAll other := by
  have happend : (headers.insert name value).getAll other =
      (headers.remove name).getAll other ++ getAll [(name, value)] other := by
    simp [insert, getAll]
  rw [happend, getAll_remove]
  split
  · rename_i heq
    simp [getAll, heq]
  · rename_i hne
    simp [getAll, Ne.symm hne]

theorem getAll_removeAll (names : List Str) (other : Str) :
    (headers.removeAll names).getAll other =
      if other ∈ names then [] else headers.getAll other := by
  induction names generalizing headers with
  | nil => rfl
  | cons name names ih =>
    rw [removeAll, List.foldl_cons, ← removeAll, ih, getAll_remove]
    by_cases hname : other = name
    · simp [hname]
    · simp [hname]

theorem getAll_insertSome (name : Str) (value : Option Str) (other : Str) :
    (headers.insertSome name value).getAll other =
      if other = name ∧ value.isSome = true then value.toList else headers.getAll other := by
  cases value with
  | none => simp [insertSome]
  | some value =>
    rw [insertSome, getAll_insert]
    simp

end AlturaProt.Filter.HeaderMap

namespace AlturaProt.Http

open Foundation Limiter Filter

/-! ## The model -/

/-- The parts of a request target that are used. -/
structure Uri where
  scheme : Option Str
  authority : Option Str
  pathAndQuery : Option Str
deriving DecidableEq

/-- The path without the query. -/
def Uri.path (uri : Uri) : Str :=
  match uri.pathAndQuery with
  | none => []
  | some text =>
    let path := text.takeWhile (· != 0x3F)
    if path.isEmpty then utf8 "/" else path

/-- `PathAndQuery::as_str`: an empty one is shown as `/`. -/
def Uri.pathAndQueryText (uri : Uri) : Option Str :=
  uri.pathAndQuery.map fun text => if text.isEmpty then utf8 "/" else text

structure Request where
  uri : Uri
  headers : HeaderMap
deriving DecidableEq

/-- The checks of the `http` crate on new targets and on the values of header fields. What is
documented of the latter is that visible text is a value. -/
structure HttpChecks where
  pathAndQuery : Str → Except String Str
  fromParts : Uri → Except String Uri
  headerValue : Str → Bool
  headerValue_visible : ∀ text, text.all isVisibleAscii = true → headerValue text = true

/-- The counters that rewriting moves. -/
structure ForwardingStats where
  acceptEncodingStripped : ℕ
  forwardedSanitized : ℕ
deriving DecidableEq

structure ForwardingContext where
  originalHost : Option Str
  clientIp : IpAddr
  peerIp : IpAddr
  preserveHost : Bool
  preserveForwardedChain : Bool
  forwardAcceptEncoding : Bool

/-- `HeaderValue::from_str`. -/
def headerValueFromStr (checks : HttpChecks) (complaint : String) (value : Str) :
    Except String Str :=
  if checks.headerValue value then .ok value else .error complaint

def invalidHeaderValue : String := "failed to parse header value"

/-- Set a field if there is a value for it and the value is valid. -/
def insertChecked (checks : HttpChecks) (headers : HeaderMap) (name : Str) (complaint : String)
    (value : Option Str) : Except String HeaderMap :=
  match value with
  | some value => (headerValueFromStr checks complaint value).map (headers.insert name)
  | none => .ok headers

def joinedPathAndQuery (checks : HttpChecks) (upstream incoming : Uri) : Except String Str :=
  let incomingPq := incoming.pathAndQueryText.getD (utf8 "/")
  let base := (upstream.path.reverse.dropWhile (· == 0x2F)).reverse
  checks.pathAndQuery (if base.isEmpty || base == utf8 "/" then incomingPq else base ++ incomingPq)

/-- The fields that the `Connection` lines name. -/
def connectionNames (headers : HeaderMap) : List Str :=
  (headers.getAll (utf8 "connection")).flatMap fun line =>
    (items 0x2C isShownWhitespace line).filterMap headerNameFromBytes

def hopByHopNames : List Str :=
  ["connection", "proxy-connection", "keep-alive", "proxy-authenticate", "proxy-authorization",
    "te", "trailer", "transfer-encoding", "upgrade"].map utf8

def removeHopByHopHeaders (headers : HeaderMap) : HeaderMap :=
  (headers.removeAll hopByHopNames).removeAll (connectionNames headers)

def maybeStripAcceptEncoding (headers : HeaderMap) (forwardAcceptEncoding : Bool)
    (stats : ForwardingStats) : HeaderMap × ForwardingStats :=
  if forwardAcceptEncoding then (headers, stats)
  else
    (headers.remove (utf8 "accept-encoding"),
      if (headers.getAll (utf8 "accept-encoding")).isEmpty then stats
      else { stats with acceptEncodingStripped := stats.acceptEncodingStripped + 1 })

/-- The lines of a forwarded chain as one; there is none if a line is not text or
blank. The flag tells whether there was a line. -/
def canonicalLines (lines : List Str) : Bool × Option Str :=
  if lines.any fun line =>
      !line.all isVisibleAscii || (trimBy isShownWhitespace line).isEmpty then (true, none)
  else if lines.isEmpty then (false, none)
  else (true, some ((utf8 ", ").intercalate (lines.map (trimBy isShownWhitespace))))

def canonicalXForwardedFor (headers : HeaderMap) (name : Str) : Bool × Option Str :=
  canonicalLines (headers.getAll name)

def spoofableNames : List Str :=
  ["forwarded", "x-forwarded", "x-forwarded-host", "x-forwarded-proto", "x-forwarded-server",
    "x-forwarded-port", "x-forwarded-scheme", "x-forwarded-prefix", "x-forwarded-uri",
    "x-forwarded-path", "x-real-ip", "x-original-forwarded-for", "x-original-host",
    "x-original-url", "x-rewrite-url", "cf-connecting-ip", "true-client-ip", "fastly-client-ip",
    "client-ip", "x-client-ip", "x-cluster-client-ip", "x-originating-ip", "x-remote-ip",
    "x-remote-addr"].map utf8

/-- The names that are removed before the proxy sets its own fields. -/
def sanitizedNames (preserveForwardedChain : Bool) : List Str :=
  if preserveForwardedChain then spoofableNames else spoofableNames ++ [utf8 "x-forwarded-for"]

/-- The flag tells whether there was something to remove. -/
def sanitizeSpoofableForwardedHeaders (headers : HeaderMap) (preserveForwardedChain : Bool) :
    HeaderMap × Bool :=
  (headers.removeAll (sanitizedNames preserveForwardedChain),
    (sanitizedNames preserveForwardedChain).any fun name => !(headers.getAll name).isEmpty)

/-- The chain that goes to the upstream. -/
def nextFor (preserveForwardedChain : Bool) (clientIp peerIp : IpAddr)
    (incomingXff : Option Str) : Str :=
  if preserveForwardedChain then
    match incomingXff with
    | some existing => existing ++ utf8 ", " ++ ipAddrText peerIp
    | none => ipAddrText peerIp
  else if clientIp ≠ peerIp then ipAddrText clientIp ++ utf8 ", " ++ ipAddrText peerIp
  else ipAddrText peerIp

def appendForwardedHeaders (checks : HttpChecks) (headers : HeaderMap) (originalHost : Option Str)
    (clientIp peerIp : IpAddr) (preserveForwardedChain : Bool) (stats : ForwardingStats) :
    ForwardingStats × Except String HeaderMap :=
  let (hadIncomingXff, incomingXff) := canonicalXForwardedFor headers (utf8 "x-forwarded-for")
  let (headers, sanitized) := sanitizeSpoofableForwardedHeaders headers preserveForwardedChain
  let stats :=
    if sanitized || (!preserveForwardedChain && hadIncomingXff) ||
        (hadIncomingXff && incomingXff.isNone) then
      { stats with forwardedSanitized := stats.forwardedSanitized + 1 }
    else stats
  (stats, do
    let chain ← headerValueFromStr checks invalidHeaderValue
      (nextFor preserveForwardedChain clientIp peerIp incomingXff)
    let headers := headers.insert (utf8 "x-forwarded-for") chain
    let client ← headerValueFromStr checks invalidHeaderValue (ipAddrText clientIp)
    let headers := headers.insert (utf8 "x-real-ip") client
    let headers ← insertChecked checks headers (utf8 "x-forwarded-host") invalidHeaderValue
      originalHost
    .ok (headers.insert (utf8 "x-forwarded-proto") (utf8 "http")))

/-- The `Host` of the request is kept as it was checked, or replaced by that of the
upstream. -/
def setHost (checks : HttpChecks) (headers : HeaderMap) (upstream : Uri)
    (forwarding : ForwardingContext) : Except String HeaderMap :=
  if forwarding.preserveHost then
    insertChecked checks headers (utf8 "host") "invalid host header" forwarding.originalHost
  else insertChecked checks headers (utf8 "host") "invalid upstream host" upstream.authority

/-- The new target. -/
def rewriteUri (checks : HttpChecks) (incoming upstream : Uri) : Except String Uri := do
  let newPath ← joinedPathAndQuery checks upstream incoming
  checks.fromParts
    { scheme := upstream.scheme, authority := upstream.authority, pathAndQuery := some newPath }

def rewriteRequest (checks : HttpChecks) (req : Request) (upstream : Uri)
    (forwarding : ForwardingContext) (stats : ForwardingStats) :
    ForwardingStats × Except String Request :=
  match rewriteUri checks req.uri upstream with
  | .error complaint => (stats, .error complaint)
  | .ok uri =>
    let (headers, stats) := maybeStripAcceptEncoding (removeHopByHopHeaders req.headers)
      forwarding.forwardAcceptEncoding stats
    match setHost checks headers upstream forwarding with
    | .error complaint => (stats, .error complaint)
    | .ok headers =>
      let (stats, result) := appendForwardedHeaders checks headers forwarding.originalHost
        forwarding.clientIp forwarding.peerIp forwarding.preserveForwardedChain stats
      (stats, result.map fun headers => { uri := uri, headers := headers })

/-! ## What each pass does -/

/-- The names that are removed before the proxy looks at the fields it sets. -/
def strippedNames (forwarding : ForwardingContext) (headers : HeaderMap) : List Str :=
  hopByHopNames ++ connectionNames headers ++
    if forwarding.forwardAcceptEncoding then [] else [utf8 "accept-encoding"]

/-- The lines of a field that are left then. -/
def survivingLines (forwarding : ForwardingContext) (headers : HeaderMap) (name : Str) :
    List Str :=
  if name ∈ strippedNames forwarding headers then [] else headers.getAll name

/-- The `Host` that the proxy sets. -/
def hostValue (upstream : Uri) (forwarding : ForwardingContext) : Option Str :=
  if forwarding.preserveHost then forwarding.originalHost else upstream.authority

variable {checks : HttpChecks} {headers headers' : HeaderMap} {name : Str} {upstream : Uri}
  {forwarding : ForwardingContext} {stats : ForwardingStats} {req : Request}

theorem headerValueFromStr_ok_iff {complaint : String} {value value' : Str} :
    headerValueFromStr checks complaint value = .ok value' ↔
      checks.headerValue value = true ∧ value' = value := by
  unfold headerValueFromStr
  split
  · rename_i h
    simp [h, eq_comm]
  · rename_i h
    simp [h]

/-- A client that speaks for itself is the whole chain. -/
theorem nextFor_direct (ip : IpAddr) (incomingXff : Option Str) :
    nextFor false ip ip incomingXff = ipAddrText ip := by
  simp [nextFor]

theorem insertChecked_ok_iff {complaint : String} {value : Option Str} :
    insertChecked checks headers name complaint value = .ok headers' ↔
      (∀ text ∈ value, checks.headerValue text = true) ∧ headers' = headers.insertSome name value := by
  cases value with
  | none =>
    constructor
    · rintro ⟨⟩
      exact ⟨nofun, rfl⟩
    · rintro ⟨-, rfl⟩
      rfl
  | some value =>
    rw [insertChecked, map_eq_ok_iff]
    simp only [headerValueFromStr_ok_iff]
    constructor
    · rintro ⟨_, ⟨hvalue, rfl⟩, rfl⟩
      exact ⟨by rintro _ ⟨⟩; exact hvalue, rfl⟩
    · rintro ⟨hvalue, rfl⟩
      exact ⟨value, ⟨hvalue value rfl, rfl⟩, rfl⟩

theorem getAll_stripped (forwarding : ForwardingContext) (headers : HeaderMap)
    (stats : ForwardingStats) (name : Str) :
    (maybeStripAcceptEncoding (removeHopByHopHeaders headers) forwarding.forwardAcceptEncoding
      stats).1.getAll name = survivingLines forwarding headers name := by
  have hhop : (removeHopByHopHeaders headers).getAll name =
      if name ∈ hopByHopNames ++ connectionNames headers then [] else headers.getAll name := by
    rw [removeHopByHopHeaders, HeaderMap.getAll_removeAll, HeaderMap.getAll_removeAll]
    by_cases h : name ∈ connectionNames headers
    · simp [h]
    · simp [h]
  unfold maybeStripAcceptEncoding survivingLines strippedNames
  cases forwarding.forwardAcceptEncoding with
  | true =>
    rw [if_pos rfl, if_pos rfl, List.append_nil]
    exact hhop
  | false =>
    rw [if_neg Bool.false_ne_true, if_neg Bool.false_ne_true]
    rw [HeaderMap.getAll_remove, hhop]
    by_cases h : name = utf8 "accept-encoding"
    · rw [if_pos h, if_pos (by simp [h])]
    · rw [if_neg h]
      congr 1
      simp [h]

theorem setHost_ok_iff :
    setHost checks headers upstream forwarding = .ok headers' ↔
      (∀ host ∈ hostValue upstream forwarding, checks.headerValue host = true) ∧
        headers' = headers.insertSome (utf8 "host") (hostValue upstream forwarding) := by
  unfold setHost hostValue
  split
  · exact insertChecked_ok_iff
  · exact insertChecked_ok_iff

/-! ### The chain is always visible text -/

theorem visible_append {a b : Str} (ha : a.all isVisibleAscii = true)
    (hb : b.all isVisibleAscii = true) : (a ++ b).all isVisibleAscii = true := by
  rw [List.all_append, ha, hb]
  rfl

theorem visible_gap : (utf8 ", ").all isVisibleAscii = true := rfl

theorem visible_ipAddrText (ip : IpAddr) : (ipAddrText ip).all isVisibleAscii = true := by
  have hdigit : ∀ d < 16, isVisibleAscii (digitByte d) = true := by decide
  refine List.all_eq_true.mpr fun b hb => ?_
  rcases isAddressByte_ipAddrText ip b hb with rfl | rfl | ⟨d, hd, rfl⟩
  · rfl
  · rfl
  · exact hdigit d hd

theorem visible_trimBy {line : Str} (h : line.all isVisibleAscii = true) :
    (trimBy isShownWhitespace line).all isVisibleAscii = true := by
  obtain ⟨front, back, hline, -, -⟩ := eq_blanks_trimBy isShownWhitespace line
  rw [hline, List.all_append, List.all_append, Bool.and_eq_true, Bool.and_eq_true] at h
  exact h.1.2

theorem visible_intercalate {lines : List Str}
    (h : ∀ line ∈ lines, line.all isVisibleAscii = true) :
    ((utf8 ", ").intercalate lines).all isVisibleAscii = true := by
  induction lines with
  | nil => rfl
  | cons line lines ih =>
    have hline := h line List.mem_cons_self
    cases lines with
    | nil =>
      rw [List.intercalate_singleton]
      exact hline
    | cons next lines =>
      rw [List.intercalate_cons_cons]
      exact visible_append (visible_append hline visible_gap)
        (ih fun line hmem => h line (List.mem_cons_of_mem _ hmem))

theorem visible_canonicalLines {lines : List Str} {text : Str}
    (h : (canonicalLines lines).2 = some text) : text.all isVisibleAscii = true := by
  unfold canonicalLines at h
  split at h
  · cases h
  rename_i hlines
  split at h
  · cases h
  cases h
  refine visible_intercalate fun line hline => ?_
  obtain ⟨raw, hraw, rfl⟩ := List.mem_map.mp hline
  refine visible_trimBy ?_
  by_contra hvisible
  exact hlines (List.any_eq_true.mpr ⟨raw, hraw, by simp [hvisible]⟩)

/-- What the proxy adds to the chain, and what it keeps of it, is visible text. -/
theorem visible_nextFor (preserve : Bool) (clientIp peerIp : IpAddr) (lines : List Str) :
    (nextFor preserve clientIp peerIp (canonicalLines lines).2).all isVisibleAscii = true := by
  unfold nextFor
  split
  · split
    · rename_i hexisting
      exact visible_append (visible_append (visible_canonicalLines hexisting) visible_gap)
        (visible_ipAddrText peerIp)
    · exact visible_ipAddrText peerIp
  · split
    · exact visible_append (visible_append (visible_ipAddrText clientIp) visible_gap)
        (visible_ipAddrText peerIp)
    · exact visible_ipAddrText peerIp

theorem appendForwardedHeaders_ok_iff {originalHost : Option Str} {clientIp peerIp : IpAddr}
    {preserve : Bool} :
    (appendForwardedHeaders checks headers originalHost clientIp peerIp preserve stats).2 =
      .ok headers' ↔
    (∀ host ∈ originalHost, checks.headerValue host = true) ∧
    headers' = (((((headers.removeAll (sanitizedNames preserve)).insert (utf8 "x-forwarded-for")
      (nextFor preserve clientIp peerIp
        (canonicalLines (headers.getAll (utf8 "x-forwarded-for"))).2)).insert
      (utf8 "x-real-ip") (ipAddrText clientIp)).insertSome
      (utf8 "x-forwarded-host") originalHost).insert
      (utf8 "x-forwarded-proto") (utf8 "http")) := by
  have hchain := checks.headerValue_visible _ (visible_nextFor preserve clientIp peerIp
    (headers.getAll (utf8 "x-forwarded-for")))
  have hclient := checks.headerValue_visible _ (visible_ipAddrText clientIp)
  unfold appendForwardedHeaders
  simp only [bind_eq_ok_iff, headerValueFromStr_ok_iff, insertChecked_ok_iff]
  constructor
  · rintro ⟨_, ⟨-, rfl⟩, _, ⟨-, rfl⟩, _, ⟨hhost, rfl⟩, h⟩
    exact ⟨hhost, (Except.ok.inj h).symm⟩
  · rintro ⟨hhost, rfl⟩
    exact ⟨_, ⟨hchain, rfl⟩, _, ⟨hclient, rfl⟩, _, ⟨hhost, rfl⟩, rfl⟩

/-! ## The outcome for every field -/

/-- The lines of a field of the forwarded request. -/
def forwardedLines (upstream : Uri) (forwarding : ForwardingContext) (headers : HeaderMap)
    (name : Str) : List Str :=
  if name = utf8 "x-forwarded-proto" then [utf8 "http"]
  else if name = utf8 "x-forwarded-host" then forwarding.originalHost.toList
  else if name = utf8 "x-real-ip" then [ipAddrText forwarding.clientIp]
  else if name = utf8 "x-forwarded-for" then
    [nextFor forwarding.preserveForwardedChain forwarding.clientIp forwarding.peerIp
      (canonicalLines (survivingLines forwarding headers (utf8 "x-forwarded-for"))).2]
  else if name ∈ spoofableNames then []
  else if name = utf8 "host" ∧ (hostValue upstream forwarding).isSome = true then
    (hostValue upstream forwarding).toList
  else survivingLines forwarding headers name

/-- The headers of a request once they are stripped and its host is set. -/
def hostedHeaders (upstream : Uri) (forwarding : ForwardingContext) (headers : HeaderMap)
    (stats : ForwardingStats) : HeaderMap :=
  (maybeStripAcceptEncoding (removeHopByHopHeaders headers) forwarding.forwardAcceptEncoding
    stats).1.insertSome (utf8 "host") (hostValue upstream forwarding)

theorem rewriteRequest_ok_iff {out : Request} :
    (rewriteRequest checks req upstream forwarding stats).2 = .ok out ↔
      rewriteUri checks req.uri upstream = .ok out.uri ∧
      (∀ host ∈ hostValue upstream forwarding, checks.headerValue host = true) ∧
      (appendForwardedHeaders checks (hostedHeaders upstream forwarding req.headers stats)
        forwarding.originalHost forwarding.clientIp forwarding.peerIp
        forwarding.preserveForwardedChain
        (maybeStripAcceptEncoding (removeHopByHopHeaders req.headers)
          forwarding.forwardAcceptEncoding stats).2).2 = .ok out.headers := by
  unfold rewriteRequest
  cases huri : rewriteUri checks req.uri upstream with
  | error complaint => simp
  | ok uri =>
    dsimp only
    cases hhost : setHost checks (maybeStripAcceptEncoding (removeHopByHopHeaders req.headers)
        forwarding.forwardAcceptEncoding stats).1 upstream forwarding with
    | error complaint =>
      -- the host is refused: it cannot be a valid value
      have hinvalid : ¬ ∀ host ∈ hostValue upstream forwarding, checks.headerValue host = true := by
        intro hvalid
        rw [setHost_ok_iff.mpr ⟨hvalid, rfl⟩] at hhost
        cases hhost
      exact iff_of_false (by simp) fun h => hinvalid h.2.1
    | ok headers =>
      obtain ⟨hvalid, rfl⟩ := setHost_ok_iff.mp hhost
      rw [map_eq_ok_iff]
      constructor
      · rintro ⟨headers, hheaders, rfl⟩
        exact ⟨rfl, hvalid, hheaders⟩
      · rintro ⟨hout, -, hheaders⟩
        cases hout
        exact ⟨out.headers, hheaders, rfl⟩

/-- **When a request is rewritten.** Only a target that the `http` crate refuses and a
host that is no valid value stop the rewriting: the chain is always a valid value. -/
theorem rewriteRequest_succeeds_iff :
    (∃ out, (rewriteRequest checks req upstream forwarding stats).2 = .ok out) ↔
      (∃ uri, rewriteUri checks req.uri upstream = .ok uri) ∧
      (∀ host ∈ hostValue upstream forwarding, checks.headerValue host = true) ∧
      ∀ host ∈ forwarding.originalHost, checks.headerValue host = true := by
  simp only [rewriteRequest_ok_iff, appendForwardedHeaders_ok_iff]
  constructor
  · rintro ⟨out, huri, hhost, horiginal, -⟩
    exact ⟨⟨out.uri, huri⟩, hhost, horiginal⟩
  · rintro ⟨⟨uri, huri⟩, hhost, horiginal⟩
    exact ⟨⟨uri, _⟩, huri, hhost, horiginal, rfl⟩

theorem mem_sanitizedNames {preserve : Bool} :
    name ∈ sanitizedNames preserve ↔
      name ∈ spoofableNames ∨ (preserve = false ∧ name = utf8 "x-forwarded-for") := by
  cases preserve <;> simp [sanitizedNames]

/-- **The outcome of rewriting, field by field.** -/
theorem getAll_rewriteRequest {out : Request}
    (h : (rewriteRequest checks req upstream forwarding stats).2 = .ok out) (name : Str) :
    out.headers.getAll name = forwardedLines upstream forwarding req.headers name := by
  have hhosted : ∀ other, (hostedHeaders upstream forwarding req.headers stats).getAll other =
      if other = utf8 "host" ∧ (hostValue upstream forwarding).isSome = true then
        (hostValue upstream forwarding).toList
      else survivingLines forwarding req.headers other := by
    intro other
    rw [hostedHeaders, HeaderMap.getAll_insertSome, getAll_stripped]
  have hxff : (hostedHeaders upstream forwarding req.headers stats).getAll
      (utf8 "x-forwarded-for") =
        survivingLines forwarding req.headers (utf8 "x-forwarded-for") := by
    rw [hhosted, if_neg]
    exact fun h => absurd h.1 (utf8_ne (by decide))
  rw [(appendForwardedHeaders_ok_iff.mp (rewriteRequest_ok_iff.mp h).2.2).2, hxff]
  simp only [HeaderMap.getAll_insert, HeaderMap.getAll_insertSome, HeaderMap.getAll_removeAll,
    hhosted, mem_sanitizedNames]
  unfold forwardedLines
  by_cases hproto : name = utf8 "x-forwarded-proto"
  · rw [if_pos hproto, if_pos hproto]
  rw [if_neg hproto, if_neg hproto]
  by_cases hhost : name = utf8 "x-forwarded-host"
  · rw [if_pos hhost]
    cases forwarding.originalHost with
    | some host => rw [if_pos ⟨hhost, rfl⟩]
    | none =>
      -- nothing is set, and what came in has been removed
      subst hhost
      rfl
  rw [if_neg (fun h => hhost h.1), if_neg hhost]
  by_cases hreal : name = utf8 "x-real-ip"
  · rw [if_pos hreal, if_pos hreal]
  by_cases hfor : name = utf8 "x-forwarded-for"
  · rw [if_pos hfor, if_pos hfor]
  · have hsanitized : (name ∈ spoofableNames ∨
        (forwarding.preserveForwardedChain = false ∧ name = utf8 "x-forwarded-for")) ↔
        name ∈ spoofableNames := by
      rw [or_iff_left]
      exact fun h => hfor h.2
    simp only [hsanitized]

/-! ## The rewrite is exact -/

/-- The fields that the proxy sets itself. -/
def proxyFields : List Str :=
  ["host", "x-forwarded-for", "x-real-ip", "x-forwarded-host", "x-forwarded-proto"].map utf8

/-- A field that the proxy does not set is removed or left alone. -/
theorem forwardedLines_of_notMem (h : name ∉ proxyFields) :
    forwardedLines upstream forwarding headers name =
      if name ∈ spoofableNames ∨ name ∈ strippedNames forwarding headers then []
      else headers.getAll name := by
  simp only [proxyFields, List.map_cons, List.map_nil, List.mem_cons, List.not_mem_nil, or_false,
    not_or] at h
  obtain ⟨hhost, hfor, hreal, hfhost, hproto⟩ := h
  unfold forwardedLines survivingLines
  rw [if_neg hproto, if_neg hfhost, if_neg hreal, if_neg hfor]
  by_cases hspoof : name ∈ spoofableNames
  · rw [if_pos hspoof, if_pos (Or.inl hspoof)]
  · rw [if_neg hspoof, if_neg (fun h => hhost h.1)]
    simp only [hspoof, false_or]

theorem mem_strippedNames :
    name ∈ strippedNames forwarding headers ↔
      name ∈ hopByHopNames ∨ name ∈ connectionNames headers ∨
        (forwarding.forwardAcceptEncoding = false ∧ name = utf8 "accept-encoding") := by
  unfold strippedNames
  cases forwarding.forwardAcceptEncoding <;> simp

theorem survivingLines_eq (hhop : name ∉ hopByHopNames) (haccept : name ≠ utf8 "accept-encoding") :
    survivingLines forwarding headers name =
      if name ∈ connectionNames headers then [] else headers.getAll name := by
  unfold survivingLines
  congr 1
  rw [mem_strippedNames]
  simp [hhop, haccept]

section OwnFields

variable (upstream : Uri) (forwarding : ForwardingContext) (headers : HeaderMap)

theorem forwardedLines_proto :
    forwardedLines upstream forwarding headers (utf8 "x-forwarded-proto") = [utf8 "http"] :=
  if_pos rfl

theorem forwardedLines_forwardedHost :
    forwardedLines upstream forwarding headers (utf8 "x-forwarded-host") =
      forwarding.originalHost.toList := by
  rw [forwardedLines, if_neg (utf8_ne (by decide)), if_pos rfl]

theorem forwardedLines_realIp :
    forwardedLines upstream forwarding headers (utf8 "x-real-ip") =
      [ipAddrText forwarding.clientIp] := by
  rw [forwardedLines, if_neg (utf8_ne (by decide)), if_neg (utf8_ne (by decide)), if_pos rfl]

theorem forwardedLines_forwardedFor :
    forwardedLines upstream forwarding headers (utf8 "x-forwarded-for") =
      [nextFor forwarding.preserveForwardedChain forwarding.clientIp forwarding.peerIp
        (canonicalLines (if utf8 "x-forwarded-for" ∈ connectionNames headers then []
          else headers.getAll (utf8 "x-forwarded-for"))).2] := by
  rw [forwardedLines, if_neg (utf8_ne (by decide)), if_neg (utf8_ne (by decide)),
    if_neg (utf8_ne (by decide)), if_pos rfl,
    survivingLines_eq (by simp [hopByHopNames, utf8_inj]) (utf8_ne (by decide))]

theorem forwardedLines_host :
    forwardedLines upstream forwarding headers (utf8 "host") =
      match hostValue upstream forwarding with
      | some host => [host]
      | none =>
        if utf8 "host" ∈ connectionNames headers then [] else headers.getAll (utf8 "host") := by
  rw [forwardedLines, if_neg (utf8_ne (by decide)), if_neg (utf8_ne (by decide)),
    if_neg (utf8_ne (by decide)), if_neg (utf8_ne (by decide)),
    if_neg (by simp [spoofableNames, utf8_inj]),
    survivingLines_eq (by simp [hopByHopNames, utf8_inj]) (utf8_ne (by decide))]
  cases hostValue upstream forwarding with
  | some host => rfl
  | none => rfl

end OwnFields

/-- **The header rewrite is exact.** Apart from the fields that the proxy sets, no
hop-by-hop field, no field named by a `Connection` line, no spoofable field and, when it
is not forwarded, no `Accept-Encoding` is left, and every other field has the lines it
came with. Each field that the proxy sets has the one value that the forwarding context
determines. If the host is preserved and none is known, `Host` is not set and is a field
like any other. -/
theorem rewrite_exact (checks : HttpChecks) (req out : Request) (upstream : Uri)
    (authority : Str) (forwarding : ForwardingContext) (stats : ForwardingStats)
    (hauthority : upstream.authority = some authority)
    (h : (rewriteRequest checks req upstream forwarding stats).2 = .ok out) :
    (∀ name, name ∉ proxyFields →
      (name ∈ hopByHopNames ∨ name ∈ connectionNames req.headers ∨ name ∈ spoofableNames ∨
        (name = utf8 "accept-encoding" ∧ forwarding.forwardAcceptEncoding = false)) →
      out.headers.getAll name = []) ∧
    (∀ name, name ∉ proxyFields → name ∉ hopByHopNames → name ∉ connectionNames req.headers →
      name ∉ spoofableNames →
      (name = utf8 "accept-encoding" → forwarding.forwardAcceptEncoding = true) →
      out.headers.getAll name = req.headers.getAll name) ∧
    out.headers.getAll (utf8 "host") =
      (if forwarding.preserveHost = false then [authority]
      else match forwarding.originalHost with
        | some host => [host]
        | none =>
          if utf8 "host" ∈ connectionNames req.headers then []
          else req.headers.getAll (utf8 "host")) ∧
    out.headers.getAll (utf8 "x-forwarded-for") =
      [nextFor forwarding.preserveForwardedChain forwarding.clientIp forwarding.peerIp
        (canonicalLines (if utf8 "x-forwarded-for" ∈ connectionNames req.headers then []
          else req.headers.getAll (utf8 "x-forwarded-for"))).2] ∧
    out.headers.getAll (utf8 "x-real-ip") = [ipAddrText forwarding.clientIp] ∧
    out.headers.getAll (utf8 "x-forwarded-host") = forwarding.originalHost.toList ∧
    out.headers.getAll (utf8 "x-forwarded-proto") = [utf8 "http"] := by
  have houtcome := getAll_rewriteRequest h
  refine ⟨?_, ?_, ?_, ?_, ?_, ?_, ?_⟩
  · intro name hown hremoved
    rw [houtcome, forwardedLines_of_notMem hown, if_pos]
    rw [mem_strippedNames]
    tauto
  · intro name hown hhop hconnection hspoof haccept
    rw [houtcome, forwardedLines_of_notMem hown, if_neg]
    rw [mem_strippedNames]
    rintro (h | h | h | ⟨hoff, hname⟩)
    · exact hspoof h
    · exact hhop h
    · exact hconnection h
    · exact absurd (haccept hname) (by simp [hoff])
  · rw [houtcome, forwardedLines_host, hostValue, hauthority]
    cases forwarding.preserveHost with
    | false => rfl
    | true => rfl
  · rw [houtcome, forwardedLines_forwardedFor]
  · rw [houtcome, forwardedLines_realIp]
  · rw [houtcome, forwardedLines_forwardedHost]
  · rw [houtcome, forwardedLines_proto]

/-! ### Two requests -/

/-- The bytes that the value of a field may have. -/
def IsHeaderText (value : Str) : Prop :=
  (value.all fun b => (0x20 ≤ b && b != 0x7F) || b == 0x09) = true

instance (value : Str) : Decidable (IsHeaderText value) := inferInstanceAs (Decidable (_ = true))

theorem isHeaderText_of_visible {text : Str} (h : text.all isVisibleAscii = true) :
    IsHeaderText text := by
  rw [List.all_eq_true] at h
  refine List.all_eq_true.mpr fun b hb => ?_
  have hvisible := h b hb
  simp only [isVisibleAscii, Bool.or_eq_true, Bool.and_eq_true, decide_eq_true_eq] at hvisible
  rcases hvisible with ⟨hlow, hhigh⟩ | htab
  · simp [hlow, UInt8.ne_of_lt hhigh]
  · simp [htab]

/-- Checks that let every target pass, as those of the crate do for plain paths. -/
def plainChecks : HttpChecks where
  pathAndQuery := .ok
  fromParts := .ok
  headerValue value := decide (IsHeaderText value)
  headerValue_visible _ h := decide_eq_true (isHeaderText_of_visible h)

/-- With them a request is rewritten unless a host is no valid value. -/
theorem map_getAll_rewriteRequest (req : Request) (stats : ForwardingStats)
    (hhost : ∀ host ∈ hostValue upstream forwarding, IsHeaderText host)
    (horiginal : ∀ host ∈ forwarding.originalHost, IsHeaderText host) (name : Str) :
    ((rewriteRequest plainChecks req upstream forwarding stats).2.map
      fun out => out.headers.getAll name) =
      .ok (forwardedLines upstream forwarding req.headers name) := by
  have huri : ∃ uri, rewriteUri plainChecks req.uri upstream = .ok uri := ⟨_, rfl⟩
  obtain ⟨out, hout⟩ : ∃ out,
      (rewriteRequest plainChecks req upstream forwarding stats).2 = .ok out :=
    rewriteRequest_succeeds_iff.mpr ⟨huri, fun host hmem => decide_eq_true (hhost host hmem),
      fun host hmem => decide_eq_true (horiginal host hmem)⟩
  rw [hout, ← getAll_rewriteRequest hout]
  rfl

def localUpstream : Uri where
  scheme := some (utf8 "http")
  authority := some (utf8 "127.0.0.1:9000")
  pathAndQuery := some (utf8 "/")

def plainTarget : Uri where
  scheme := none
  authority := none
  pathAndQuery := some (utf8 "/a")

/-- A request straight from a client, whose `Host` is not kept. -/
def directContext : ForwardingContext where
  originalHost := some (utf8 "shop.example")
  clientIp := .v4 0xCB007107
  peerIp := .v4 0xCB007107
  preserveHost := false
  preserveForwardedChain := false
  forwardAcceptEncoding := false

def directRequest : Request where
  uri := plainTarget
  headers := [(utf8 "host", utf8 "shop.example"), (utf8 "connection", utf8 "close, X-Debug"),
    (utf8 "x-debug", utf8 "1"), (utf8 "x-real-ip", utf8 "10.0.0.1"), (utf8 "accept", utf8 "a"),
    (utf8 "accept-encoding", utf8 "gzip"), (utf8 "accept", utf8 "b")]

def directForwarded : Request where
  uri := { localUpstream with pathAndQuery := some (utf8 "/a") }
  headers := [(utf8 "accept", utf8 "a"), (utf8 "accept", utf8 "b"),
    (utf8 "host", utf8 "127.0.0.1:9000"), (utf8 "x-forwarded-for", utf8 "203.0.113.7"),
    (utf8 "x-real-ip", utf8 "203.0.113.7"), (utf8 "x-forwarded-host", utf8 "shop.example"),
    (utf8 "x-forwarded-proto", utf8 "http")]

/-- A field that `Connection` names and a spoofed field are gone, the others are there. -/
theorem direct_rewrite_exact :
    localUpstream.authority = some (utf8 "127.0.0.1:9000") ∧
    (rewriteRequest plainChecks directRequest localUpstream directContext ⟨0, 0⟩).2 =
      .ok directForwarded ∧
    directForwarded.headers.getAll (utf8 "x-debug") = [] ∧
    directForwarded.headers.getAll (utf8 "accept") = [utf8 "a", utf8 "b"] ∧
    directForwarded.headers.getAll (utf8 "host") = [utf8 "127.0.0.1:9000"] ∧
    directForwarded.headers.getAll (utf8 "x-real-ip") = [utf8 "203.0.113.7"] := by
  obtain ⟨hout, hdebug, haccept, hlines, htext⟩ :
      (rewriteRequest plainChecks directRequest localUpstream directContext ⟨0, 0⟩).2 =
        .ok directForwarded ∧
      utf8 "x-debug" ∈ connectionNames directRequest.headers ∧
      utf8 "accept" ∉ connectionNames directRequest.headers ∧
      directRequest.headers.getAll (utf8 "accept") = [utf8 "a", utf8 "b"] ∧
      ipAddrText directContext.clientIp = utf8 "203.0.113.7" := by decide +kernel
  obtain ⟨hremoved, hkept, hhost, -, hreal, -, -⟩ := rewrite_exact plainChecks directRequest
    directForwarded localUpstream (utf8 "127.0.0.1:9000") directContext ⟨0, 0⟩ rfl hout
  refine ⟨rfl, hout, hremoved _ (by simp [proxyFields, utf8_inj]) (Or.inr (Or.inl hdebug)), ?_,
    hhost, htext ▸ hreal⟩
  exact hkept _ (by simp [proxyFields, utf8_inj]) (by simp [hopByHopNames, utf8_inj]) haccept
    (by simp [spoofableNames, utf8_inj]) (by simp [utf8_inj])

/-- Kept as it came, but without a `Host` that was checked. -/
def hostlessContext : ForwardingContext :=
  { directContext with originalHost := none, preserveHost := true }

/-- With no host to set, the `Host` lines of the request stay as they are. -/
theorem host_lines_survive :
    localUpstream.authority = some (utf8 "127.0.0.1:9000") ∧
    ((rewriteRequest plainChecks
        ⟨plainTarget, [(utf8 "host", utf8 "a.example"), (utf8 "host", utf8 "b.example")]⟩
        localUpstream hostlessContext ⟨0, 0⟩).2.map
      fun out => out.headers.getAll (utf8 "host")) =
      .ok [utf8 "a.example", utf8 "b.example"] := by
  refine ⟨rfl, ?_⟩
  rw [map_getAll_rewriteRequest _ _ (by simp [hostValue, hostlessContext])
    (by simp [hostlessContext]), forwardedLines_host]
  simp [hostValue, hostlessContext, connectionNames, HeaderMap.getAll, utf8_inj]

end AlturaProt.Http
