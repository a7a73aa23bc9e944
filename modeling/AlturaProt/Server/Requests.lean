import AlturaProt.Filter.Activation
import AlturaProt.Http.Admin
import AlturaProt.Http.Handle
import AlturaProt.Http.Host
import AlturaProt.Http.Precheck
import AlturaProt.Http.RequestChecks
import AlturaProt.Http.RequestTarget

/-!
# Requests of the HTTP proxy

All of `handle_http` in `src/http_proxy.rs`, as a task that takes turns with the other requests,
with the reloads of the filters and with the connections whose first head is checked. A request is
vetted, and answered if it is for an admin endpoint; otherwise it is observed, meets the limit for
bodies, the rate dimensions, the filters and the circuit breaker, is rewritten, gets its permits
and is sent to the upstream. A turn is one call on something the requests share: a limiter, the
detector, the filters, the breaker or the counters. Whatever is not the proxy's own code is left
open: the clocks, the answers of the limiters of concurrency, and what the upstream makes of a
request.

From when it is sent, the body of a request is polled by the client library, and the body of the
response by the server, whenever they want to: also after the other one has ended. These polls are
turns too, because the guards of the bodies count what they refuse.

The parts are those of the other modules. What is new here is their order, the counters and the
responses.
-/

namespace AlturaProt.Server

open Foundation Foundation.Program Limiter Filter Adaptive Http

/-! ## Counters -/

/-- The counters of `Stats` that `handle_http`, the guards of the bodies and the check of the first
head of a connection increment. -/
inductive HttpCounter where
  | total
  | headerLineRejected
  | forwardedRejected
  | methodRejected
  | hostRejected
  | framingRejected
  | contentEncodingRejected
  | expectRejected
  | rangeRejected
  | uriRejected
  | bodyRejected
  | rate (stat : RateStat)
  | blocked
  | upstreamCircuitOpen
  | acceptEncodingStripped
  | forwardedSanitized
  | upstreamInFlightRejected
  | trustedProxyInFlightRejected
  | forward (stat : ForwardStat)
  | bodyTimeouts
  | bodyTooSlow
  | requestTrailersRejected
  | requestTrailersDropped
  | upstreamBodyTimeouts
  | upstreamBodyTooSlow
  | upstreamTrailersRejected
  | upstreamTrailersDropped
  | initialRequestTargetRejected
  | initialHeaderTooLarge
  | initialHeadersTooMany
  | initialHeaderTimeouts
deriving DecidableEq

/-- The counters of `GuardedBody`. A body that grows too large is counted where a request is that
has announced too large a body. -/
def uploadCounter : GuardStat → HttpCounter
  | .failed .tooLarge => .bodyRejected
  | .failed .idleTimeout => .bodyTimeouts
  | .failed .tooSlow => .bodyTooSlow
  | .failed .trailersTooLarge => .requestTrailersRejected
  | .trailersDropped => .requestTrailersDropped

/-- The counters of `ResponseGuardBody`. -/
def downloadCounter : ResponseGuardStat → HttpCounter
  | .failed .tooLarge => .forward .httpUpstreamBodyRejected
  | .failed .idleTimeout => .upstreamBodyTimeouts
  | .failed .tooSlow => .upstreamBodyTooSlow
  | .failed .trailersTooLarge => .upstreamTrailersRejected
  | .trailersDropped => .upstreamTrailersDropped

/-- What a connection counts whose first head is refused. Two of these are counters of requests
as well, though no request has been made of the head. -/
def precheckCounters : InitialRequestPrecheckError → List HttpCounter
  | .rejected _ => [.framingRejected]
  | .requestTargetRejected _ => [.uriRejected, .initialRequestTargetRejected]
  | .headerTooLarge => [.initialHeaderTooLarge]
  | .headerCountTooLarge => [.initialHeadersTooMany]
  | .timeout => [.initialHeaderTimeouts]
  | .io => []

/-- The increments of `rewrite_request`. -/
def rewriteCounters (stats : ForwardingStats) : List HttpCounter :=
  List.replicate stats.acceptEncodingStripped .acceptEncodingStripped ++
    List.replicate stats.forwardedSanitized .forwardedSanitized

/-! ## Responses -/

/-- A response that the proxy makes itself. -/
structure Generated where
  status : ℕ
  headers : HeaderMap
  body : Str
deriving DecidableEq

/-- `GENERATED_CACHE_CONTROL` and the end of the connection. -/
def closingHeaders : HeaderMap :=
  [(utf8 "cache-control", utf8 "no-store"), (utf8 "connection", utf8 "close")]

/-- A response with fields of its own and those that all have. -/
def closing (status : ℕ) (headers : HeaderMap) (body : String) : Generated :=
  ⟨status, headers ++ closingHeaders, utf8 body⟩

def allowedMethodsHeader (names : MethodNames) (methods : List String) : Str :=
  (utf8 ", ").intercalate ((methods.map utf8).filter names.isMethod)

def methodNotAllowedResponse (names : MethodNames) (cfg : Config.HttpConfig) : Generated :=
  closing 405 [(utf8 "allow", allowedMethodsHeader names cfg.allowedMethods)]
    "method not allowed\n"

/-- `GENERATED_RETRY_AFTER_SECONDS`. -/
def retryAfter : HeaderMap := [(utf8 "retry-after", utf8 "1")]

def rateLimitResponse (body : String) : Generated := closing 429 retryAfter body

def upstreamOverloadResponse (body : String) : Generated := closing 503 retryAfter body

def upstreamCircuitOpenResponse (body : String) : Generated := upstreamOverloadResponse body

def contentTooLargeResponse (body : String) : Generated := closing 413 [] body

def requestFramingRejectedResponse (body : String) : Generated := closing 400 [] body

def unsupportedContentEncodingResponse (body : String) : Generated :=
  closing 415 [(utf8 "accept-encoding", utf8 "identity")] body

def requestTargetRejectedResponse (body : String) : Generated := closing 414 [] body

def requestMetadataTooLargeResponse (body : String) : Generated := closing 431 [] body

/-- A status that is none is an internal error. -/
def statusFromU16 (status : ℕ) : ℕ := if 100 ≤ status ∧ status < 1000 then status else 500

/-- `simple_response` does the same. -/
def earlyRejectionResponse (status : ℕ) (body : Str) (header : HeaderMap) : Generated :=
  ⟨statusFromU16 status, closingHeaders ++ header, body⟩

/-- The text of the metrics is left out. -/
def adminResponse : AdminResponse → Generated
  | .healthy => earlyRejectionResponse 200 (utf8 "\x7b\"ok\":true\x7d\n") []
  | .forbidden => earlyRejectionResponse 403 (utf8 "forbidden\n") []
  | .metrics => earlyRejectionResponse 200 [] []

inductive HttpResponse where
  | generated (response : Generated)
  | upstream (status : ℕ) (headers : HeaderMap) (body : ResponseGuardBody)

/-- What the end of an exchange is answered with. -/
def forwardResponse : ForwardResponse → HttpResponse
  | .generated status body => .generated (closing status [] body)
  | .upstream status headers body => .upstream status headers body

/-! ## The service -/

/-- What `HttpProxyState` is built from, and what it calls that is not its own code. -/
structure Service where
  cfg : Config.HttpConfig
  clientIp : ClientIpResolver
  upstream : Uri
  checks : HttpChecks
  authorities : Authorities
  methods : MethodNames
  blake3 : Str → Str
  hashes : Hashes
  windowHash : Str → ℕ
  circuitHash : Str → ℕ
  detector : AdaptiveDetector
  activationTtl : Duration
  engine : FilterEngine
  platform : Platform

/-- A request as it has been parsed, and the address it came from. -/
structure ClientRequest where
  method : Str
  uri : Uri
  headers : HeaderMap
  peerIp : IpAddr

/-- What the checks have found out about a request. -/
structure Vetted where
  clientIp : IpAddr
  originalHost : Option Str

/-- A request that is refused by a check. -/
structure Veto where
  counter : HttpCounter
  response : Generated

/-- The requests change the state of the proxy, the circuit breaker and the counters. -/
structure ServiceState where
  proxy : ProxyState
  circuit : CircuitShards
  stats : HttpCounter → ℕ

/-- `Stats::inc`, for each of some counters. -/
def ServiceState.count (s : ServiceState) (counters : List HttpCounter) : ServiceState :=
  { s with stats := fun counter => (s.stats counter + counters.count counter) % 2 ^ 64 }

/-- A rate dimension has been consulted. -/
def ServiceState.setRate (s : ServiceState) (d : Dimension) (tracked : Tracked d) : ServiceState :=
  { s with proxy := { s.proxy with rates := Function.update s.proxy.rates d tracked } }

namespace Service

variable (S : Service)

def proxy : HttpProxy where
  limiters := RateLimiters.new S.cfg.limits
  hashes := S.hashes
  detector := S.detector
  windowHash := S.windowHash
  activationTtl := S.activationTtl
  engine := S.engine
  maxBodyBytes := S.cfg.maxBodyBytes

/-- `UpstreamFailureCircuitBreaker::from_config`. -/
def circuit : UpstreamFailureCircuitBreaker :=
  .new S.cfg.upstreamFailureThreshold S.cfg.upstreamFailureOpenMs
    S.cfg.limits.maxTrackedPathShapes

def hostPolicy : HostPolicy := ⟨S.cfg.requireHostHeader, S.cfg.maxHostBytes, S.cfg.allowedHosts⟩

/-- `RawRequestTargetLimits::from_config`. -/
def targetLimits : RawRequestTargetLimits :=
  ⟨S.cfg.maxUriBytes, S.cfg.maxQueryBytes, S.cfg.maxQueryPairs, S.cfg.maxPathSegments⟩

/-- What `prevalidate_initial_http1_request` is called with. -/
def precheckLimits : PrecheckLimits where
  maxHeaderBytes := S.cfg.maxHeaderBytes
  maxHeaderLineBytes := S.cfg.maxHeaderLineBytes
  maxHeaders := max S.cfg.maxHeaders 1
  requestTargetLimits := S.targetLimits
  allowChunkedRequestBodies := S.cfg.allowChunkedRequestBodies

def forwardConfig : ForwardConfig where
  maxBodyBytes := S.cfg.maxBodyBytes
  requestBodyIdleTimeoutMs := S.cfg.requestBodyIdleTimeoutMs
  requestBodyMinRateBytesPerSecond := S.cfg.requestBodyMinRateBytesPerSecond
  requestBodyMinRateGraceMs := S.cfg.requestBodyMinRateGraceMs
  forwardRequestTrailers := S.cfg.forwardRequestTrailers
  maxTrailers := S.cfg.maxTrailers
  maxTrailerBytes := S.cfg.maxTrailerBytes
  upstreamMaxHeaderLineBytes := S.cfg.upstreamMaxHeaderLineBytes
  maxUpstreamBodyBytes := S.cfg.maxUpstreamBodyBytes
  upstreamBodyIdleTimeoutMs := S.cfg.upstreamBodyIdleTimeoutMs
  upstreamBodyMinRateBytesPerSecond := S.cfg.upstreamBodyMinRateBytesPerSecond
  upstreamBodyMinRateGraceMs := S.cfg.upstreamBodyMinRateGraceMs
  forwardResponseTrailers := S.cfg.forwardResponseTrailers
  upstreamMaxTrailers := S.cfg.upstreamMaxTrailers
  upstreamMaxTrailerBytes := S.cfg.upstreamMaxTrailerBytes

/-- A failed check refuses the request. -/
def vetoing {α : Type} (counter : HttpCounter) (respond : String → Generated)
    (check : Except String α) : Except Veto α :=
  check.mapError fun reason => ⟨counter, respond (reason ++ "\n")⟩

/-- A check that is answered with a plain rejection. -/
def rejecting {α : Type} (counter : HttpCounter) (status : ℕ) (check : Except String α) :
    Except Veto α :=
  vetoing counter (fun body => earlyRejectionResponse status (utf8 body) []) check

/-- The checks of `handle_http` that look at the request alone. -/
def vet (req : ClientRequest) : Except Veto Vetted := do
  vetoing .headerLineRejected requestMetadataTooLargeResponse
    (validateHeaderLines req.headers S.cfg.maxHeaderLineBytes)
  let clientIp ← rejecting .forwardedRejected 400
    ((S.clientIp.resolve req.peerIp req.headers).mapError ClientIpHeaderError.text)
  rejectIf (!methodAllowed req.method S.cfg.allowedMethods)
    ⟨.methodRejected, methodNotAllowedResponse S.methods S.cfg⟩
  rejecting .methodRejected 400
    (validateMethodOverrideHeaders req.headers S.cfg.allowMethodOverrideHeaders)
  let originalHost ← rejecting .hostRejected 400
    (validateEffectiveHost S.authorities req.uri req.headers S.hostPolicy)
  vetoing .framingRejected requestFramingRejectedResponse
    (validateRequestFraming req.headers S.cfg.allowChunkedRequestBodies)
  vetoing .contentEncodingRejected unsupportedContentEncodingResponse
    (validateRequestContentEncoding req.headers S.cfg.allowCompressedRequestBodies)
  rejecting .expectRejected 417 (validateRequestExpect req.headers S.cfg.allowExpectContinue)
  rejecting .rangeRejected 416 (validateRequestRange req.headers S.cfg.maxRanges)
  vetoing .uriRejected requestTargetRejectedResponse (validateRequestTarget req.uri S.targetLimits)
  return ⟨clientIp, originalHost⟩

/-- `ctx` of `handle_http`. -/
def context (req : ClientRequest) : RequestContext where
  method := req.method
  path := req.uri.path
  query := req.uri.query
  headers := req.headers
  signature := requestSignature S.blake3 req.method req.uri.path req.uri.query req.headers

/-- The request as the detector and the rate dimensions see it. -/
def observed (req : ClientRequest) (who : Vetted) (now : Instant) (unixMs : ℕ) : HttpRequest where
  ctx := S.context req
  clientIp := who.clientIp
  peerIp := req.peerIp
  now := now
  unixMs := unixMs

/-- What the rate dimensions read of it. -/
def rates (req : ClientRequest) (who : Vetted) : RateRequest := (S.observed req who 0 0).rates

def forwarding (req : ClientRequest) (who : Vetted) : ForwardingContext where
  originalHost := who.originalHost
  clientIp := who.clientIp
  peerIp := req.peerIp
  preserveHost := S.cfg.preserveHost
  preserveForwardedChain := S.clientIp.isTrusted req.peerIp && S.clientIp.usesXForwardedFor
  forwardAcceptEncoding := S.cfg.forwardAcceptEncoding

/-- `rewrite_request`, with the counters at nought. -/
def rewrite (req : ClientRequest) (who : Vetted) : ForwardingStats × Except String Request :=
  rewriteRequest S.checks ⟨req.uri, req.headers⟩ S.upstream (S.forwarding req who) ⟨0, 0⟩

def adminEndpoint (req : ClientRequest) : Option AdminEndpoint :=
  Http.adminEndpoint (utf8 S.cfg.adminPathPrefix) req.method req.uri.path

def adminAnswer (req : ClientRequest) : Option AdminResponse :=
  maybeAdminResponse (utf8 S.cfg.adminPathPrefix) (S.cfg.adminToken.map utf8) req.method
    req.uri.path req.headers

end Service

/-! ## A request -/

/-- How a request ends. -/
inductive Verdict where
  | vetoed (veto : Veto)
  | admin (response : AdminResponse)
  | bodyTooLarge
  | rateLimited (limited : RateLimited)
  | filterBlock (decision : FilterDecision)
  | circuitOpen
  | notRewritten (stats : ForwardingStats) (err : String)
  | trustedProxyInFlight (stats : ForwardingStats)
  | inFlight (stats : ForwardingStats)
  | exchanged (stats : ForwardingStats) (out : Request) (concluded : Concluded)

/-- The counters that a verdict has moved, the first one apart. -/
def Verdict.counters : Verdict → List HttpCounter
  | .vetoed veto => [veto.counter]
  | .admin _ => []
  | .bodyTooLarge => [.bodyRejected]
  | .rateLimited limited => limited.stats.map .rate
  | .filterBlock _ => [.blocked]
  | .circuitOpen => [.upstreamCircuitOpen]
  | .notRewritten stats _ => rewriteCounters stats ++ [.blocked]
  | .trustedProxyInFlight stats =>
    rewriteCounters stats ++ [.upstreamInFlightRejected, .trustedProxyInFlightRejected]
  | .inFlight stats => rewriteCounters stats ++ [.upstreamInFlightRejected]
  | .exchanged stats _ concluded => rewriteCounters stats ++ concluded.stats.map .forward

def Verdict.response : Verdict → HttpResponse
  | .vetoed veto => .generated veto.response
  | .admin response => .generated (adminResponse response)
  | .bodyTooLarge => .generated (contentTooLargeResponse "request body too large\n")
  | .rateLimited limited => .generated (rateLimitResponse limited.body)
  | .filterBlock decision =>
    .generated (earlyRejectionResponse decision.status decision.body
      [(utf8 "x-altura-filter", decision.ruleId)])
  | .circuitOpen => .generated (upstreamCircuitOpenResponse "upstream circuit open\n")
  | .notRewritten _ err =>
    .generated (earlyRejectionResponse 400 (utf8 ("bad request: " ++ err ++ "\n")) [])
  | .trustedProxyInFlight _ =>
    .generated (upstreamOverloadResponse "trusted proxy upstream concurrency limit\n")
  | .inFlight _ => .generated (upstreamOverloadResponse "upstream concurrency limit\n")
  | .exchanged _ _ concluded => forwardResponse concluded.response

/-- What a request does next. -/
inductive CallStage where
  | arrived
  /-- the rate dimensions that are left, for an admin endpoint or not -/
  | rates (who : Vetted) (admin : Bool) (left : List Dimension)
  | adminAnswer (who : Vetted)
  | observe (who : Vetted)
  | body (who : Vetted)
  | filters (who : Vetted)
  /-- a refusal is counted, and observed under its reason -/
  | refuse (who : Vetted) (verdict : Verdict) (reason : String) (pathShape : Str)
  | circuit (who : Vetted)
  | rewrite (who : Vetted)
  | permits (who : Vetted) (stats : ForwardingStats) (out : Request)
  /-- the request is at the upstream -/
  | exchange (who : Vetted) (stats : ForwardingStats) (out : Request)
  | answered (verdict : Verdict)

/-- What has been sent to the upstream. -/
def CallStage.sent : CallStage → Option Request
  | .exchange _ _ out | .answered (.exchanged _ out _) => some out
  | _ => none

/-- The body of the response of the upstream, as it is handed on. -/
def CallStage.responseBody : CallStage → Option ResponseGuardBody
  | .answered verdict =>
    match verdict.response with
    | .generated _ => none
    | .upstream _ _ guard => some guard
  | _ => none

structure Call where
  req : ClientRequest
  stage : CallStage
  /-- the bodies of the request and of the response, once they have been polled -/
  upload : Option GuardedBody
  download : Option ResponseGuardBody
  /-- what their guards have counted; this is the history, and nothing reads it -/
  guarded : List HttpCounter

/-- A request that has just come in. -/
def Call.new (req : ClientRequest) : Call := ⟨req, .arrived, none, none, []⟩

/-- A poll of one of the two bodies. -/
inductive BodyPoll where
  | upload (event : PollEvent (List LibraryError))
  | download (event : PollEvent (List LibraryError))

/-- What a turn is given: the clocks, the answers of the limiters of concurrency and, at the end,
what came of the exchange; or a poll of a body. -/
structure Tick where
  now : Instant
  unixMs : ℕ
  circuitMs : ℕ
  trustedProxyPermit : Bool
  permit : Bool
  exchange : Exchange
  poll : Option BodyPoll

namespace Call

variable (S : Service) (s : ServiceState) (c : Call) (t : Tick)

/-- The request goes on. -/
def goto (stage : CallStage) : Call := { c with stage }

def pathShape : Str := requestPathShape c.req.uri.path

/-- The detector is told of the request. -/
def observe (who : Vetted) (reason : String) (pathShape : Str) : ServiceState :=
  { s with
    proxy := (S.proxy.observe s.proxy (S.observed c.req who t.now t.unixMs) reason pathShape).1 }

/-- The first turn: the counter of all requests, and the checks. -/
def arrive : ServiceState × Call :=
  match S.vet c.req with
  | .error veto => (s.count [.total, veto.counter], c.goto (.answered (.vetoed veto)))
  | .ok who =>
    (s.count [.total],
      c.goto (if (S.adminEndpoint c.req).isSome then .rates who true adminOrder
        else .observe who))

/-- The next rate dimension. -/
def consult (who : Vetted) (admin : Bool) (d : Dimension) (left : List Dimension) :
    ServiceState × Call :=
  let consulted := Http.consult S.proxy.limiters S.hashes (S.rates c.req who) (fun _ => t.now) d
    (s.proxy.rates d)
  match consulted.2 with
  | none => (s.setRate d consulted.1, c.goto (.rates who admin left))
  | some limited =>
    ((s.setRate d consulted.1).count (limited.stats.map .rate),
      -- a request for an admin endpoint is refused without the detector
      c.goto (if admin then .answered (.rateLimited limited)
        else .refuse who (.rateLimited limited) limited.reason
          (limited.observedShape.getD c.pathShape)))

def rewrite (who : Vetted) : ServiceState × Call :=
  match S.rewrite c.req who with
  | (stats, .error err) =>
    (s.count (rewriteCounters stats ++ [.blocked]), c.goto (.answered (.notRewritten stats err)))
  | (stats, .ok out) => (s.count (rewriteCounters stats), c.goto (.permits who stats out))

def permits (who : Vetted) (stats : ForwardingStats) (out : Request) : ServiceState × Call :=
  if who.clientIp ≠ c.req.peerIp ∧ t.trustedProxyPermit = false then
    (s.count [.upstreamInFlightRejected, .trustedProxyInFlightRejected],
      c.goto (.answered (.trustedProxyInFlight stats)))
  else if t.permit = false then
    (s.count [.upstreamInFlightRejected], c.goto (.answered (.inFlight stats)))
  else (s, c.goto (.exchange who stats out))

/-- The exchange is over. -/
def conclude (stats : ForwardingStats) (out : Request) : ServiceState × Call :=
  let concluded := concludeExchange S.forwardConfig c.pathShape t.circuitMs t.exchange
  ({ s with circuit := concluded.circuit.foldl (S.circuit.step S.circuitHash) s.circuit }.count
      (concluded.stats.map .forward),
    c.goto (.answered (.exchanged stats out concluded)))

/-- One turn of `handle_http`. -/
def advance : Option (ServiceState × Call) :=
  match c.stage with
  | .arrived => some (c.arrive S s)
  | .rates who admin (d :: left) => some (c.consult S s t who admin d left)
  | .rates who true [] => some (s, c.goto (.adminAnswer who))
  | .rates who false [] => some (s, c.goto (.filters who))
  | .adminAnswer who =>
    some (s, c.goto (match S.adminAnswer c.req with
      | some response => .answered (.admin response)
      | none => .observe who))
  | .observe who => some (c.observe S s t who "observed" c.pathShape, c.goto (.body who))
  | .body who =>
    if S.proxy.bodyTooLarge (S.observed c.req who t.now t.unixMs) then
      some (s.count [.bodyRejected],
        c.goto (.refuse who .bodyTooLarge "body_too_large" c.pathShape))
    else some (s, c.goto (.rates who false requestOrder))
  | .filters who =>
    match FilterEngine.evaluate s.proxy.engine (S.context c.req) t.unixMs with
    | some decision =>
      some (s.count [.blocked],
        c.goto (.refuse who (.filterBlock decision) "filter_block" c.pathShape))
    | none => some (s, c.goto (.circuit who))
  | .refuse who verdict reason pathShape =>
    some (c.observe S s t who reason pathShape, c.goto (.answered verdict))
  | .circuit who =>
    if S.circuit.isOpen S.circuitHash s.circuit c.pathShape t.circuitMs then
      some (s.count [.upstreamCircuitOpen], c.goto (.answered .circuitOpen))
    else some (s, c.goto (.rewrite who))
  | .rewrite who => some (c.rewrite S s who)
  | .permits who stats out => some (c.permits s t who stats out)
  | .exchange _ stats out => some (c.conclude S s t stats out)
  | .answered _ => none

/-- The body of the request is polled. It is put into its guard when the request is sent. -/
def pollUpload (event : PollEvent (List LibraryError)) : ServiceState × Call :=
  let polled := (c.upload.getD S.forwardConfig.requestBody).pollFrame event
  let counters := polled.stats.map uploadCounter
  (s.count counters, { c with upload := some polled.body, guarded := c.guarded ++ counters })

/-- The body of the response is polled. -/
def pollDownload (body : ResponseGuardBody) (event : PollEvent (List LibraryError)) :
    ServiceState × Call :=
  let polled := (c.download.getD body).pollFrame event
  let counters := polled.stats.map downloadCounter
  (s.count counters, { c with download := some polled.body, guarded := c.guarded ++ counters })

/-- One turn of a request: its own, or that of one of its bodies. -/
def step : Option (ServiceState × Call) :=
  match t.poll with
  | none => c.advance S s t
  | some (.upload event) => c.stage.sent.map fun _ => c.pollUpload S s event
  | some (.download event) => c.stage.responseBody.map fun body => c.pollDownload s body event

end Call

/-! ## The system -/

/-- A request; a reload of the filters, where the file is read and checked first, and then the
rules are published; or a connection whose first head is read and checked. -/
inductive ServiceTask where
  | call (c : Call)
  | reload (file : RuntimeFile)
  | publish (loaded : List FilterRule) (nowMs : ℕ)
  | done
  | connection (reads : List SocketRead)
  | prechecked (refusal : Option InitialRequestPrecheckError)

def ServiceTask.step (S : Service) (s : ServiceState) (t : Tick) :
    ServiceTask → Option (ServiceState × ServiceTask)
  | .call c => (c.step S s t).map fun (s', c') => (s', .call c')
  | .reload file =>
    match S.engine.prepare S.platform file with
    | .error _ => some (s, .done)
    | .ok loaded => some (s, .publish loaded t.unixMs)
  | .publish loaded nowMs =>
    some ({ s with
      proxy := { s.proxy with engine := FilterEngine.publish s.proxy.engine loaded nowMs } },
      .done)
  | .done => none
  | .connection reads =>
    (prevalidateInitialHttp1Request S.precheckLimits reads).map fun
      | .ok _ => (s, .prechecked none)
      | .error refusal => (s.count (precheckCounters refusal), .prechecked (some refusal))
  | .prechecked _ => none

/-- What comes to the service from outside. -/
inductive Arrival where
  | request (req : ClientRequest)
  | reload (file : RuntimeFile)
  | connection (reads : List SocketRead)

def ServiceTask.ofArrival : Arrival → ServiceTask
  | .request req => .call (.new req)
  | .reload file => .reload file
  | .connection reads => .connection reads

/-- Requests and connections arrive, and reloads start. -/
def Service.program (S : Service) : Program ServiceState ServiceTask Arrival Tick where
  start := .ofArrival
  step s task t := task.step S s t

/-- The service before its first request. -/
def Service.init (S : Service) (now : Instant) : Sys ServiceState ServiceTask where
  shared :=
    { proxy := ⟨RateState.init S.cfg.limits now, .new, .empty⟩
      circuit := Shards.empty
      stats := fun _ => 0 }
  procs := []

/-! ## What one turn does -/

/-- The turns of `handle_http`, one constructor for each way a request can go at a tick. -/
inductive Moves (S : Service) (s : ServiceState) (req : ClientRequest) (t : Tick) :
    CallStage → ServiceState → CallStage → Prop
  | veto {veto : Veto} (hvet : S.vet req = .error veto) :
      Moves S s req t .arrived (s.count [.total, veto.counter]) (.answered (.vetoed veto))
  | admin {who : Vetted} (hvet : S.vet req = .ok who) {endpoint : AdminEndpoint}
      (hadmin : S.adminEndpoint req = some endpoint) :
      Moves S s req t .arrived (s.count [.total]) (.rates who true adminOrder)
  | plain {who : Vetted} (hvet : S.vet req = .ok who) (hadmin : S.adminEndpoint req = none) :
      Moves S s req t .arrived (s.count [.total]) (.observe who)
  | admitted {who : Vetted} {admin : Bool} {d : Dimension} {left : List Dimension}
      {tracked : Tracked d}
      (hconsult : consult S.proxy.limiters S.hashes (S.rates req who) (fun _ => t.now) d
        (s.proxy.rates d) = (tracked, none)) :
      Moves S s req t (.rates who admin (d :: left)) (s.setRate d tracked) (.rates who admin left)
  | adminLimited {who : Vetted} {d : Dimension} {left : List Dimension}
      {tracked : Tracked d} {limited : RateLimited}
      (hconsult : consult S.proxy.limiters S.hashes (S.rates req who) (fun _ => t.now) d
        (s.proxy.rates d) = (tracked, some limited)) :
      Moves S s req t (.rates who true (d :: left))
        ((s.setRate d tracked).count (limited.stats.map .rate)) (.answered (.rateLimited limited))
  | limited {who : Vetted} {d : Dimension} {left : List Dimension}
      {tracked : Tracked d} {limited : RateLimited} {shape : Str}
      (hconsult : consult S.proxy.limiters S.hashes (S.rates req who) (fun _ => t.now) d
        (s.proxy.rates d) = (tracked, some limited)) :
      Moves S s req t (.rates who false (d :: left))
        ((s.setRate d tracked).count (limited.stats.map .rate))
        (.refuse who (.rateLimited limited) limited.reason shape)
  | adminAdmitted {who : Vetted} : Moves S s req t (.rates who true []) s (.adminAnswer who)
  | ratesAdmitted {who : Vetted} : Moves S s req t (.rates who false []) s (.filters who)
  | adminAnswer {who : Vetted} {response : AdminResponse}
      (hanswer : S.adminAnswer req = some response) :
      Moves S s req t (.adminAnswer who) s (.answered (.admin response))
  | noAnswer {who : Vetted} (hanswer : S.adminAnswer req = none) :
      Moves S s req t (.adminAnswer who) s (.observe who)
  | observe {who : Vetted} {shape : Str} :
      Moves S s req t (.observe who)
        { s with
          proxy := (S.proxy.observe s.proxy (S.observed req who t.now t.unixMs) "observed" shape).1 }
        (.body who)
  | bodyTooLarge {who : Vetted} {shape : Str}
      (hlarge : S.proxy.bodyTooLarge (S.observed req who t.now t.unixMs) = true) :
      Moves S s req t (.body who) (s.count [.bodyRejected])
        (.refuse who .bodyTooLarge "body_too_large" shape)
  | bodyFits {who : Vetted}
      (hfits : S.proxy.bodyTooLarge (S.observed req who t.now t.unixMs) = false) :
      Moves S s req t (.body who) s (.rates who false requestOrder)
  | blocked {who : Vetted} {decision : FilterDecision} {shape : Str}
      (hblock : FilterEngine.evaluate s.proxy.engine (S.context req) t.unixMs = some decision) :
      Moves S s req t (.filters who) (s.count [.blocked])
        (.refuse who (.filterBlock decision) "filter_block" shape)
  | unfiltered {who : Vetted}
      (hpass : FilterEngine.evaluate s.proxy.engine (S.context req) t.unixMs = none) :
      Moves S s req t (.filters who) s (.circuit who)
  | refuse {who : Vetted} {verdict : Verdict} {reason : String} {shape : Str} :
      Moves S s req t (.refuse who verdict reason shape)
        { s with
          proxy := (S.proxy.observe s.proxy (S.observed req who t.now t.unixMs) reason shape).1 }
        (.answered verdict)
  | circuitOpen {who : Vetted}
      (hopen : S.circuit.isOpen S.circuitHash s.circuit (requestPathShape req.uri.path)
        t.circuitMs = true) :
      Moves S s req t (.circuit who) (s.count [.upstreamCircuitOpen]) (.answered .circuitOpen)
  | circuitClosed {who : Vetted}
      (hclosed : S.circuit.isOpen S.circuitHash s.circuit (requestPathShape req.uri.path)
        t.circuitMs = false) :
      Moves S s req t (.circuit who) s (.rewrite who)
  | notRewritten {who : Vetted} {stats : ForwardingStats} {err : String}
      (hrewrite : S.rewrite req who = (stats, .error err)) :
      Moves S s req t (.rewrite who) (s.count (rewriteCounters stats ++ [.blocked]))
        (.answered (.notRewritten stats err))
  | rewritten {who : Vetted} {stats : ForwardingStats} {out : Request}
      (hrewrite : S.rewrite req who = (stats, .ok out)) :
      Moves S s req t (.rewrite who) (s.count (rewriteCounters stats)) (.permits who stats out)
  | noTrustedProxyPermit {who : Vetted} {stats : ForwardingStats} {out : Request}
      (hproxied : who.clientIp ≠ req.peerIp) (hpermit : t.trustedProxyPermit = false) :
      Moves S s req t (.permits who stats out)
        (s.count [.upstreamInFlightRejected, .trustedProxyInFlightRejected])
        (.answered (.trustedProxyInFlight stats))
  | noPermit {who : Vetted} {stats : ForwardingStats} {out : Request}
      (hpermit : t.permit = false) :
      Moves S s req t (.permits who stats out) (s.count [.upstreamInFlightRejected])
        (.answered (.inFlight stats))
  | permitted {who : Vetted} {stats : ForwardingStats} {out : Request}
      (hproxy : who.clientIp ≠ req.peerIp → t.trustedProxyPermit = true)
      (hpermit : t.permit = true) :
      Moves S s req t (.permits who stats out) s (.exchange who stats out)
  | concluded {who : Vetted} {stats : ForwardingStats} {out : Request} {concluded : Concluded}
      (hend : concluded = concludeExchange S.forwardConfig (requestPathShape req.uri.path)
        t.circuitMs t.exchange) :
      Moves S s req t (.exchange who stats out)
        ({ s with
            circuit := concluded.circuit.foldl (S.circuit.step S.circuitHash) s.circuit }.count
          (concluded.stats.map .forward))
        (.answered (.exchanged stats out concluded))

/-- The turns of a request: one of `handle_http`, or a poll of a body that there is. -/
inductive CallTurn (S : Service) (s : ServiceState) (t : Tick) (c : Call) :
    ServiceState → Call → Prop
  | moved {s' : ServiceState} {stage : CallStage} (hmoves : Moves S s c.req t c.stage s' stage) :
      CallTurn S s t c s' (c.goto stage)
  | upload {out : Request} {event : PollEvent (List LibraryError)}
      (hsent : c.stage.sent = some out) :
      CallTurn S s t c (c.pollUpload S s event).1 (c.pollUpload S s event).2
  | download {body : ResponseGuardBody} {event : PollEvent (List LibraryError)}
      (hbody : c.stage.responseBody = some body) :
      CallTurn S s t c (c.pollDownload s body event).1 (c.pollDownload s body event).2

section Step

variable {S : Service} {s s' : ServiceState} {c c' : Call} {t : Tick}

theorem moves_of_arrive (h : c.arrive S s = (s', c')) :
    ∃ stage, c' = c.goto stage ∧ Moves S s c.req t .arrived s' stage := by
  unfold Call.arrive at h
  cases hvet : S.vet c.req with
  | error veto =>
    rw [hvet] at h
    cases h
    exact ⟨_, rfl, .veto hvet⟩
  | ok who =>
    rw [hvet] at h
    cases h
    refine ⟨_, rfl, ?_⟩
    cases hadmin : S.adminEndpoint c.req with
    | none => exact .plain hvet hadmin
    | some endpoint => exact .admin hvet hadmin

theorem moves_of_consult {who : Vetted} {admin : Bool} {d : Dimension} {left : List Dimension}
    (h : c.consult S s t who admin d left = (s', c')) :
    ∃ stage, c' = c.goto stage ∧ Moves S s c.req t (.rates who admin (d :: left)) s' stage := by
  unfold Call.consult at h
  rcases hconsult : consult S.proxy.limiters S.hashes (S.rates c.req who) (fun _ => t.now) d
    (s.proxy.rates d) with ⟨tracked, _ | limited⟩
  · rw [hconsult] at h
    cases h
    exact ⟨_, rfl, .admitted hconsult⟩
  · rw [hconsult] at h
    cases h
    refine ⟨_, rfl, ?_⟩
    cases admin with
    | true => exact .adminLimited hconsult
    | false => exact .limited hconsult

theorem moves_of_rewrite {who : Vetted} (h : c.rewrite S s who = (s', c')) :
    ∃ stage, c' = c.goto stage ∧ Moves S s c.req t (.rewrite who) s' stage := by
  unfold Call.rewrite at h
  rcases hrewrite : S.rewrite c.req who with ⟨stats, err | out⟩
  · rw [hrewrite] at h
    cases h
    exact ⟨_, rfl, .notRewritten hrewrite⟩
  · rw [hrewrite] at h
    cases h
    exact ⟨_, rfl, .rewritten hrewrite⟩

theorem moves_of_permits {who : Vetted} {stats : ForwardingStats} {out : Request}
    (h : c.permits s t who stats out = (s', c')) :
    ∃ stage, c' = c.goto stage ∧ Moves S s c.req t (.permits who stats out) s' stage := by
  unfold Call.permits at h
  split_ifs at h with hproxied hpermit
  · cases h
    exact ⟨_, rfl, .noTrustedProxyPermit hproxied.1 hproxied.2⟩
  · cases h
    exact ⟨_, rfl, .noPermit hpermit⟩
  · cases h
    refine ⟨_, rfl, .permitted (fun hproxy => ?_) (Bool.eq_true_of_not_eq_false hpermit)⟩
    exact Bool.eq_true_of_not_eq_false fun hnone => hproxied ⟨hproxy, hnone⟩

/-- **Every turn of `handle_http` is one of these.** -/
theorem moves_of_advance (h : c.advance S s t = some (s', c')) :
    ∃ stage, c' = c.goto stage ∧ Moves S s c.req t c.stage s' stage := by
  unfold Call.advance at h
  split at h
  · rename_i hstage
    rw [hstage]
    exact moves_of_arrive (Option.some.inj h)
  · rename_i hstage
    rw [hstage]
    exact moves_of_consult (Option.some.inj h)
  · rename_i hstage
    rw [hstage]
    cases h
    exact ⟨_, rfl, .adminAdmitted⟩
  · rename_i hstage
    rw [hstage]
    cases h
    exact ⟨_, rfl, .ratesAdmitted⟩
  · rename_i hstage
    rw [hstage]
    cases h
    refine ⟨_, rfl, ?_⟩
    cases hanswer : S.adminAnswer c.req with
    | none => exact .noAnswer hanswer
    | some response => exact .adminAnswer hanswer
  · rename_i hstage
    rw [hstage]
    cases h
    exact ⟨_, rfl, .observe⟩
  · rename_i hstage
    rw [hstage]
    split_ifs at h with hlarge
    · cases h
      exact ⟨_, rfl, .bodyTooLarge hlarge⟩
    · cases h
      exact ⟨_, rfl, .bodyFits (Bool.eq_false_iff.mpr hlarge)⟩
  · rename_i hstage
    rw [hstage]
    split at h
    · rename_i decision hblock
      cases h
      exact ⟨_, rfl, .blocked hblock⟩
    · rename_i hpass
      cases h
      exact ⟨_, rfl, .unfiltered hpass⟩
  · rename_i hstage
    rw [hstage]
    cases h
    exact ⟨_, rfl, .refuse⟩
  · rename_i hstage
    rw [hstage]
    split_ifs at h with hopen
    · cases h
      exact ⟨_, rfl, .circuitOpen hopen⟩
    · cases h
      exact ⟨_, rfl, .circuitClosed (Bool.eq_false_iff.mpr hopen)⟩
  · rename_i hstage
    rw [hstage]
    exact moves_of_rewrite (Option.some.inj h)
  · rename_i hstage
    rw [hstage]
    exact moves_of_permits (Option.some.inj h)
  · rename_i hstage
    rw [hstage]
    cases h
    exact ⟨_, rfl, .concluded rfl⟩
  · cases h

theorem turn_of_step (h : c.step S s t = some (s', c')) : CallTurn S s t c s' c' := by
  unfold Call.step at h
  split at h
  · obtain ⟨stage, rfl, hmoves⟩ := moves_of_advance h
    exact .moved hmoves
  · obtain ⟨out, hsent, hpolled⟩ := Option.map_eq_some_iff.mp h
    cases hpolled
    exact .upload hsent
  · obtain ⟨body, hbody, hpolled⟩ := Option.map_eq_some_iff.mp h
    cases hpolled
    exact .download hbody

end Step

end AlturaProt.Server
