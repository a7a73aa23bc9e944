import AlturaProt.Filter.Signature
import AlturaProt.Foundation.Cidr
import AlturaProt.Foundation.IpText
import AlturaProt.Foundation.Items
import AlturaProt.Limiter.Shards

/-!
# The client address

`ClientIpResolver` of `src/http_proxy.rs`. The address of a client is that of
its connection, unless the connection comes from a trusted proxy: then it is
read from a header. A chain of `X-Forwarded-For` is scanned from the right, and
the first address that is not a trusted proxy is the client.

What decides is the part of the chain from the rightmost untrusted address on
(`fromRightmostUntrusted`); whatever an untrusted hop wrote before it has no
influence.
-/

namespace AlturaProt.Http

open Foundation Limiter Filter

/-! ## Addresses and their texts -/

def ipAddrOf : BitVec 32 ⊕ BitVec 128 → IpAddr
  | .inl v4 => .v4 v4
  | .inr v6 => .v6 v6

def parseIpAddr (s : Str) : Option IpAddr := (parseIp s).map ipAddrOf

/-- `IpAddr::to_string`. -/
def ipAddrText : IpAddr → Str
  | .v4 v4 => ipText (.inl v4)
  | .v6 v6 => ipText (.inr v6)

theorem parseIpAddr_text (ip : IpAddr) : parseIpAddr (ipAddrText ip) = some ip := by
  cases ip with
  | v4 v4 =>
    rw [parseIpAddr, ipAddrText, parseIp_ipText]
    rfl
  | v6 v6 =>
    rw [parseIpAddr, ipAddrText, parseIp_ipText]
    rfl

theorem isAddressByte_ipAddrText (ip : IpAddr) : ∀ b ∈ ipAddrText ip, IsAddressByte b := by
  cases ip with
  | v4 v4 => exact isAddressByte_ipText (.inl v4)
  | v6 v6 => exact isAddressByte_ipText (.inr v6)

/-! ## Trusted ranges -/

/-- A network address and the length of its prefix. -/
inductive IpRange where
  | v4 (network : BitVec 32) (len : Fin 33)
  | v6 (network : BitVec 128) (len : Fin 129)
deriving DecidableEq

/-- A range holds addresses of its own family only. -/
def IpRange.contains (range : IpRange) (ip : IpAddr) : Bool :=
  match range, ip with
  | .v4 network len, .v4 ip => ip &&& frontMask 32 len == network &&& frontMask 32 len
  | .v6 network len, .v6 ip => ip &&& frontMask 128 len == network &&& frontMask 128 len
  | _, _ => false

/-! ## Reading the header -/

inductive ClientIpHeaderError where
  | invalid
  | tooLong
  | tooManyHops
deriving DecidableEq

def ClientIpHeaderError.text : ClientIpHeaderError → String
  | .invalid => "invalid forwarded client ip header"
  | .tooLong => "forwarded client ip header too long"
  | .tooManyHops => "too many forwarded client ip hops"

/-- A port that is there must be a number. -/
def isPort (s : Str) : Bool := !s.isEmpty && (parseUnsigned (2 ^ 16) s).isOk

/-- An address, an address in brackets with or without a port, or an IPv4 address
with a port. The text has been let through by `to_str`: its white space is the blank
and the tab. -/
def parseForwardedIpToken (raw : Str) : Option IpAddr :=
  let token := trimBy isShownWhitespace raw
  if token.isEmpty then none
  else if token.head? = some 0x5B then do
    let (ip, suffix) ← splitOnce 0x5D (token.drop 1)
    if suffix.isEmpty || (suffix.head? == some 0x3A && isPort (suffix.drop 1)) then
      parseIpAddr ip
    else none
  else match parseIpAddr token with
    | some ip => some ip
    | none =>
      if token.count 0x3A = 1 then do
        -- with one colon the last one is the first one
        let (host, port) ← splitOnce 0x3A token
        if !isPort port then none
        else match parseIpv4 host with
          | some ip => some (.v4 ip)
          | none => (parseIpv6 token).map .v6
      else (parseIpv6 token).map .v6

def parseSingletonClientIpToken (raw : Str) : Option IpAddr :=
  let token := trimBy isShownWhitespace raw
  if token.isEmpty then none else parseIpAddr token

structure ClientIpResolver where
  header : Str
  trustedProxies : List IpRange
  maxForwardedForBytes : ℕ
  maxForwardedForHops : ℕ

namespace ClientIpResolver

variable (r : ClientIpResolver)

def isTrusted (ip : IpAddr) : Bool := r.trustedProxies.any fun range => range.contains ip

def usesXForwardedFor : Bool := r.header == utf8 "x-forwarded-for"

/-- One element of a chain. -/
def pushToken (chain : List IpAddr) (token : Str) : Except ClientIpHeaderError (List IpAddr) := do
  rejectIf (trimBy isShownWhitespace token).isEmpty .invalid
  rejectIf (decide (0 < r.maxForwardedForHops ∧ r.maxForwardedForHops < chain.length + 1))
    .tooManyHops
  match parseForwardedIpToken (trimBy isShownWhitespace token) with
  | some ip => .ok (chain ++ [ip])
  | none => .error .invalid

/-- One line of the header; the number counts the bytes of the lines so far. -/
def pushValue (acc : List IpAddr × ℕ) (value : Str) :
    Except ClientIpHeaderError (List IpAddr × ℕ) := do
  rejectIf (!value.all isVisibleAscii) .invalid
  let totalBytes := acc.2 + value.length
  rejectIf (decide (0 < r.maxForwardedForBytes ∧ r.maxForwardedForBytes < totalBytes)) .tooLong
  let chain ← (value.splitOn 0x2C).foldlM r.pushToken acc.1
  .ok (chain, totalBytes)

def resolveSingletonHeader (peerIp : IpAddr) (headers : HeaderMap) :
    Except ClientIpHeaderError IpAddr :=
  match headers.getAll r.header with
  | [] => .ok peerIp
  | [value] => do
      rejectIf (!value.all isVisibleAscii) .invalid
      let value := trimBy isShownWhitespace value
      rejectIf (value.isEmpty || value.contains 0x2C) .invalid
      rejectIf (decide (0 < r.maxForwardedForBytes ∧ r.maxForwardedForBytes < value.length))
        .tooLong
      match parseSingletonClientIpToken value with
      | some ip => .ok ip
      | none => .error .invalid
  | _ => .error .invalid

def resolve (peerIp : IpAddr) (headers : HeaderMap) : Except ClientIpHeaderError IpAddr :=
  if r.trustedProxies.isEmpty || !r.isTrusted peerIp then .ok peerIp
  else if !r.usesXForwardedFor then r.resolveSingletonHeader peerIp headers
  else do
    let (chain, _) ← (headers.getAll r.header).foldlM r.pushValue ([], 0)
    if (headers.getAll r.header).isEmpty then .ok peerIp
    else .ok (((chain ++ [peerIp]).reverse.find? fun ip => !r.isTrusted ip).getD peerIp)

/-! ## Chains -/

/-- The elements of the lines of a header. -/
def forwardedTokens (lines : List Str) : List Str :=
  lines.flatMap (items 0x2C isShownWhitespace)

/-- The addresses of the lines of a header. -/
def forwardedChain (lines : List Str) : List IpAddr :=
  (forwardedTokens lines).filterMap parseForwardedIpToken

/-- The chain of a request: what its header lists, and the peer. -/
def chainOf (peerIp : IpAddr) (headers : HeaderMap) : List IpAddr :=
  forwardedChain (headers.getAll r.header) ++ [peerIp]

/-- A chain from its rightmost untrusted address on. -/
def fromRightmostUntrusted : List IpAddr → List IpAddr
  | [] => []
  | ip :: rest =>
    if fromRightmostUntrusted rest ≠ [] then fromRightmostUntrusted rest
    else if r.isTrusted ip then []
    else ip :: rest

/-- The first untrusted address from the right, or the peer. -/
def scan (peerIp : IpAddr) (chain : List IpAddr) : IpAddr :=
  ((r.fromRightmostUntrusted chain).head?).getD peerIp

variable {r}

theorem head?_fromRightmostUntrusted (chain : List IpAddr) :
    (r.fromRightmostUntrusted chain).head? = chain.reverse.find? fun ip => !r.isTrusted ip := by
  induction chain with
  | nil => rfl
  | cons ip rest ih =>
    rw [List.reverse_cons, List.find?_append, ← ih, fromRightmostUntrusted]
    cases hrest : r.fromRightmostUntrusted rest with
    | cons x tail => simp
    | nil => cases htrusted : r.isTrusted ip <;> simp [htrusted]

theorem scan_eq (peerIp : IpAddr) (chain : List IpAddr) :
    r.scan peerIp chain = (chain.reverse.find? fun ip => !r.isTrusted ip).getD peerIp := by
  rw [scan, head?_fromRightmostUntrusted]

/-- The scan finds the fallback or an untrusted address of the chain. -/
theorem scan_cases (peerIp : IpAddr) (chain : List IpAddr) :
    (r.scan peerIp chain = peerIp ∧ ∀ ip ∈ chain, r.isTrusted ip = true) ∨
      (r.scan peerIp chain ∈ chain ∧ r.isTrusted (r.scan peerIp chain) = false) := by
  rw [scan_eq]
  cases hfind : chain.reverse.find? fun ip => !r.isTrusted ip with
  | none =>
    refine Or.inl ⟨rfl, fun ip hip => ?_⟩
    have := List.find?_eq_none.mp hfind ip (List.mem_reverse.mpr hip)
    simpa using this
  | some ip =>
    refine Or.inr ⟨List.mem_reverse.mp (List.mem_of_find?_eq_some hfind), ?_⟩
    simpa using List.find?_some hfind

/-- An untrusted address at the end is found first. -/
theorem scan_snoc_untrusted {peerIp : IpAddr} (h : r.isTrusted peerIp = false)
    (chain : List IpAddr) : r.scan peerIp (chain ++ [peerIp]) = peerIp := by
  rw [scan_eq, List.reverse_append]
  simp [h]

/-- A chain that ends in a trusted peer leads to the peer only if all of it is trusted. -/
theorem scan_snoc_eq_peer_iff {peerIp : IpAddr} (hpeer : r.isTrusted peerIp = true)
    (chain : List IpAddr) :
    r.scan peerIp (chain ++ [peerIp]) = peerIp ↔ ∀ ip ∈ chain, r.isTrusted ip = true := by
  rcases scan_cases peerIp (chain ++ [peerIp]) with ⟨heq, hall⟩ | ⟨hmem, huntrusted⟩
  · exact iff_of_true heq fun ip hip => hall ip (List.mem_append_left _ hip)
  · -- the scan stopped at an untrusted address, and the peer is not one
    have hne : r.scan peerIp (chain ++ [peerIp]) ≠ peerIp := by
      intro heq
      rw [heq, hpeer] at huntrusted
      cases huntrusted
    refine iff_of_false hne fun hall => ?_
    rcases List.mem_append.mp hmem with hmem | hmem
    · rw [hall _ hmem] at huntrusted
      cases huntrusted
    · exact hne (List.mem_singleton.mp hmem)

/-! ## What `resolve` returns -/

/-- Every line is text and every element of it is an address. -/
structure Accepted (lines : List Str) : Prop where
  visible : ∀ line ∈ lines, line.all isVisibleAscii = true
  parsed : ∀ line ∈ lines, ∀ token ∈ items 0x2C isShownWhitespace line,
    ∃ ip, parseForwardedIpToken token = some ip

theorem pushToken_ok {chain chain' : List IpAddr} {token : Str}
    (h : r.pushToken chain token = .ok chain') :
    ∃ ip, parseForwardedIpToken (trimBy isShownWhitespace token) = some ip ∧
      chain' = chain ++ [ip] := by
  obtain ⟨-, -, h⟩ := bind_eq_ok_iff.mp h
  obtain ⟨-, -, h⟩ := bind_eq_ok_iff.mp h
  split at h
  · rename_i ip hip
    cases h
    exact ⟨ip, hip, rfl⟩
  · cases h

theorem pushValue_ok {acc acc' : List IpAddr × ℕ} {line : Str}
    (h : r.pushValue acc line = .ok acc') :
    acc'.1 = acc.1 ++ forwardedChain [line] ∧ Accepted [line] := by
  obtain ⟨_, hvisible, h⟩ := bind_eq_ok_iff.mp h
  obtain ⟨-, -, h⟩ := bind_eq_ok_iff.mp h
  obtain ⟨chain, hpush, h⟩ := bind_eq_ok_iff.mp h
  cases h
  obtain ⟨hchain, hparsed⟩ := foldlM_push
    (g := fun token => parseForwardedIpToken (trimBy isShownWhitespace token))
    (fun chain token chain' => pushToken_ok) hpush
  refine ⟨?_, ?_, ?_⟩
  · rw [hchain, forwardedChain, forwardedTokens, List.flatMap_singleton, items, List.filterMap_map]
    rfl
  · simpa using rejectIf_eq_ok.mp hvisible
  · intro line' hline token htoken
    rw [List.mem_singleton.mp hline] at htoken
    obtain ⟨raw, hraw, rfl⟩ := List.mem_map.mp htoken
    exact hparsed raw hraw

theorem foldlM_pushValue_ok {lines : List Str} {acc acc' : List IpAddr × ℕ}
    (h : lines.foldlM r.pushValue acc = .ok acc') :
    acc'.1 = acc.1 ++ forwardedChain lines ∧ Accepted lines := by
  induction lines generalizing acc with
  | nil =>
    cases h
    exact ⟨by simp [forwardedChain, forwardedTokens], by simp, by simp⟩
  | cons line lines ih =>
    obtain ⟨next, hline, hrest⟩ := bind_eq_ok_iff.mp h
    obtain ⟨hnext, haccepted⟩ := pushValue_ok hline
    obtain ⟨hchain, hrest⟩ := ih hrest
    refine ⟨?_, ?_, ?_⟩
    · rw [hchain, hnext]
      simp [forwardedChain, forwardedTokens]
    · intro line' hline'
      rcases List.mem_cons.mp hline' with rfl | hline'
      · exact haccepted.visible line' (List.mem_singleton_self _)
      · exact hrest.visible line' hline'
    · intro line' hline'
      rcases List.mem_cons.mp hline' with rfl | hline'
      · exact haccepted.parsed line' (List.mem_singleton_self _)
      · exact hrest.parsed line' hline'

theorem resolve_untrusted {peerIp : IpAddr} (h : r.isTrusted peerIp = false)
    (headers : HeaderMap) : r.resolve peerIp headers = .ok peerIp := by
  rw [resolve, h, Bool.not_false, Bool.or_true, if_pos rfl]

/-- **Resolving a chain.** With a trusted peer an accepted header consists of
addresses only. -/
theorem resolve_ok (hheader : r.usesXForwardedFor = true) {peerIp : IpAddr}
    {headers : HeaderMap} {ip : IpAddr} (h : r.resolve peerIp headers = .ok ip) :
    ip = r.scan peerIp (r.chainOf peerIp headers) ∧
      (r.isTrusted peerIp = true → Accepted (headers.getAll r.header)) := by
  cases htrusted : r.isTrusted peerIp with
  | false =>
    rw [resolve_untrusted htrusted] at h
    cases h
    exact ⟨(scan_snoc_untrusted htrusted _).symm, by simp⟩
  | true =>
    have hsome : r.trustedProxies.isEmpty = false := by
      cases hlist : r.trustedProxies with
      | nil => simp [isTrusted, hlist] at htrusted
      | cons => rfl
    rw [resolve, htrusted, hsome, hheader] at h
    obtain ⟨acc, hfold, h⟩ := bind_eq_ok_iff.mp h
    obtain ⟨hchain, haccepted⟩ := foldlM_pushValue_ok hfold
    refine ⟨?_, fun _ => haccepted⟩
    rw [chainOf]
    cases hlines : headers.getAll r.header with
    | nil =>
      rw [hlines] at h
      cases h
      simp [scan_eq, forwardedChain, forwardedTokens, htrusted]
    | cons line lines =>
      rw [hlines] at h hchain
      cases h
      rw [scan_eq, hchain, List.nil_append]

/-! ## Untrusted hops have no influence -/

/-- **Identity is decided from the rightmost untrusted hop on.** Two header maps
whose chains agree from there on give the same address; the address is the peer or an
untrusted address of the chain; and the headers of an untrusted peer are ignored. -/
theorem untrusted_hops_have_no_influence (r : ClientIpResolver)
    (hheader : r.usesXForwardedFor = true) (peerIp : IpAddr) :
    (∀ (headers headers' : HeaderMap) (ip ip' : IpAddr),
      r.resolve peerIp headers = .ok ip → r.resolve peerIp headers' = .ok ip' →
      r.fromRightmostUntrusted (r.chainOf peerIp headers) =
        r.fromRightmostUntrusted (r.chainOf peerIp headers') →
      ip = ip') ∧
    (∀ (headers : HeaderMap) (ip : IpAddr), r.resolve peerIp headers = .ok ip →
      ip = peerIp ∨ (ip ∈ r.chainOf peerIp headers ∧ r.isTrusted ip = false)) ∧
    (r.isTrusted peerIp = false → ∀ headers : HeaderMap, r.resolve peerIp headers = .ok peerIp) := by
  refine ⟨?_, ?_, fun huntrusted headers => resolve_untrusted huntrusted headers⟩
  · intro headers headers' ip ip' h h' hagree
    rw [(resolve_ok hheader h).1, (resolve_ok hheader h').1, scan, scan, hagree]
  · intro headers ip h
    rw [(resolve_ok hheader h).1]
    rcases scan_cases peerIp (r.chainOf peerIp headers) with ⟨hpeer, -⟩ | hfound
    · exact Or.inl hpeer
    · exact Or.inr hfound

/-- A resolver behind proxies in `10.0.0.0/8`. -/
def behindEdge : ClientIpResolver where
  header := utf8 "x-forwarded-for"
  trustedProxies := [.v4 0x0A000000 8]
  maxForwardedForBytes := 4096
  maxForwardedForHops := 32

/-- What the client puts before its own address changes nothing. -/
theorem spoofed_hop_has_no_influence :
    behindEdge.usesXForwardedFor = true ∧
    behindEdge.resolve (.v4 0x0A000001)
      [(utf8 "x-forwarded-for", utf8 "203.0.113.7, 10.0.0.2")] = .ok (.v4 0xCB007107) ∧
    behindEdge.resolve (.v4 0x0A000001)
      [(utf8 "x-forwarded-for", utf8 "[::1]:80"),
        (utf8 "x-forwarded-for", utf8 "203.0.113.7:443, 10.0.0.2")] = .ok (.v4 0xCB007107) ∧
    ∀ ip, behindEdge.resolve (.v4 0x0A000001)
      [(utf8 "x-forwarded-for", utf8 "[::1]:80"),
        (utf8 "x-forwarded-for", utf8 "203.0.113.7:443, 10.0.0.2")] = .ok ip →
      .v4 0xCB007107 = ip := by
  obtain ⟨hheader, hfirst, hsecond, hagree⟩ :
      behindEdge.usesXForwardedFor = true ∧
      behindEdge.resolve (.v4 0x0A000001)
        [(utf8 "x-forwarded-for", utf8 "203.0.113.7, 10.0.0.2")] = .ok (.v4 0xCB007107) ∧
      behindEdge.resolve (.v4 0x0A000001)
        [(utf8 "x-forwarded-for", utf8 "[::1]:80"),
          (utf8 "x-forwarded-for", utf8 "203.0.113.7:443, 10.0.0.2")] = .ok (.v4 0xCB007107) ∧
      behindEdge.fromRightmostUntrusted (behindEdge.chainOf (.v4 0x0A000001)
        [(utf8 "x-forwarded-for", utf8 "203.0.113.7, 10.0.0.2")]) =
      behindEdge.fromRightmostUntrusted (behindEdge.chainOf (.v4 0x0A000001)
        [(utf8 "x-forwarded-for", utf8 "[::1]:80"),
          (utf8 "x-forwarded-for", utf8 "203.0.113.7:443, 10.0.0.2")]) := by
    decide +kernel
  refine ⟨hheader, hfirst, hsecond, fun ip hip => ?_⟩
  exact (untrusted_hops_have_no_influence behindEdge hheader (.v4 0x0A000001)).1 _ _ _ ip hfirst
    hip hagree

end ClientIpResolver

end AlturaProt.Http
