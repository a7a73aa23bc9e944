import AlturaProt.Http.BodyGuard
import AlturaProt.Http.Circuit
import AlturaProt.Http.Framing

/-!
# What the upstream made of a request

The last part of `handle_http` in `src/http_proxy.rs`: a request is sent to the
upstream with its body in a guard, and the circuit of its path shape is told
whether that went well.

When the body of the request fails, the client library reports it as a failed
exchange: its error wraps the error of the body. `find_body_guard_error` looks
through the sources of the error for one that the guard has raised, so as not to
count against the upstream what the client of the proxy has done.
-/

namespace AlturaProt.Http

open Foundation Filter

/-! ## Errors and their sources -/

/-- An error of a library, which is never a `BodyGuardError`: that type is private
to the proxy. -/
inductive LibraryError where
  | hyper (parseTooLarge : Bool)
  | other
deriving DecidableEq

inductive ErrorLink where
  | library (error : LibraryError)
  | bodyGuard (error : BodyGuardError)
deriving DecidableEq

/-- An error, followed by its sources. -/
abbrev ErrorChain : Type := List ErrorLink

def findBodyGuardError (err : ErrorChain) : Option BodyGuardError :=
  err.findSome? fun
    | .bodyGuard error => some error
    | .library _ => none

def findHyperParseTooLarge (err : ErrorChain) : Bool :=
  err.any fun
    | .library (.hyper parseTooLarge) => parseTooLarge
    | _ => false

/-- The error of a guarded body as a boxed error; that of the wrapped body is a
library's, as all its sources are. -/
def GuardedError.chain : GuardedError (List LibraryError) → ErrorChain
  | .guard error => [.bodyGuard error]
  | .inner sources => sources.map .library

/-- The error that the client library returns for a body that has failed: errors of
its own around the one that the body has yielded. -/
def clientError (wrappers : List LibraryError) (e : GuardedError (List LibraryError)) :
    ErrorChain :=
  wrappers.map .library ++ e.chain

/-! ## The exchange -/

/-- The settings that forwarding reads. -/
structure ForwardConfig where
  maxBodyBytes : ℕ
  requestBodyIdleTimeoutMs : ℕ
  requestBodyMinRateBytesPerSecond : ℕ
  requestBodyMinRateGraceMs : ℕ
  forwardRequestTrailers : Bool
  maxTrailers : ℕ
  maxTrailerBytes : ℕ
  upstreamMaxHeaderLineBytes : ℕ
  maxUpstreamBodyBytes : ℕ
  upstreamBodyIdleTimeoutMs : ℕ
  upstreamBodyMinRateBytesPerSecond : ℕ
  upstreamBodyMinRateGraceMs : ℕ
  forwardResponseTrailers : Bool
  upstreamMaxTrailers : ℕ
  upstreamMaxTrailerBytes : ℕ

def nanosOfMillis (ms : ℕ) : ℕ := ms * 1000000

/-- The guard around the body of a request. -/
def ForwardConfig.requestBody (cfg : ForwardConfig) : GuardedBody :=
  GuardedBody.new cfg.maxBodyBytes (nanosOfMillis cfg.requestBodyIdleTimeoutMs)
    cfg.requestBodyMinRateBytesPerSecond (nanosOfMillis cfg.requestBodyMinRateGraceMs)
    ⟨cfg.forwardRequestTrailers, cfg.maxTrailers, cfg.maxTrailerBytes⟩

/-- The guard around the body of a response. -/
def ForwardConfig.responseBody (cfg : ForwardConfig) : ResponseGuardBody :=
  ResponseGuardBody.new cfg.maxUpstreamBodyBytes (nanosOfMillis cfg.upstreamBodyIdleTimeoutMs)
    cfg.upstreamBodyMinRateBytesPerSecond (nanosOfMillis cfg.upstreamBodyMinRateGraceMs)
    ⟨cfg.forwardResponseTrailers, cfg.upstreamMaxTrailers, cfg.upstreamMaxTrailerBytes⟩

/-- How an exchange ends. -/
inductive Exchange where
  | response (status : ℕ) (headers : HeaderMap)
  | failed (err : ErrorChain)
  | timedOut

/-- A response that the proxy makes itself, with `Cache-Control: no-store` and
`Connection: close`; or the one of the upstream, with its body in a guard. -/
inductive ForwardResponse where
  | generated (status : ℕ) (body : String)
  | upstream (status : ℕ) (headers : HeaderMap) (body : ResponseGuardBody)
deriving DecidableEq

inductive ForwardStat where
  | httpUpstreamHeaderRejected
  | httpUpstreamBodyRejected
  | httpUpstreamErrors
  | httpUpstreamTimeouts
  | httpProxied
deriving DecidableEq

/-- The calls to the circuit breaker, the counters and the response. -/
structure Concluded where
  circuit : List UpstreamFailureCircuitBreaker.Op
  stats : List ForwardStat
  response : ForwardResponse

def validateHeaderLines (headers : HeaderMap) (maxHeaderLineBytes : ℕ) : Except String Unit :=
  rejectIf (headers.any fun field =>
    exceeds maxHeaderLineBytes (field.1.length + 2 + field.2.length)) "header field too large"

/-- The first length, if it is a number. -/
def contentLength (headers : HeaderMap) : Option ℕ := do
  let value ← (headers.getAll (utf8 "content-length")).head?
  if value.all isVisibleAscii then
    (parseUnsigned (2 ^ 64) (trimBy isShownWhitespace value)).toOption
  else none

def bodyGuardErrorResponse : BodyGuardError → ForwardResponse
  | .tooLarge => .generated 413 "request body too large\n"
  | .idleTimeout => .generated 408 "request body timeout\n"
  | .tooSlow => .generated 408 "request body too slow\n"
  | .trailersTooLarge => .generated 431 "request trailers too large\n"

/-- A response that is refused counts as a failure of the upstream. -/
def refusedResponse (pathShape : Str) (nowMs : ℕ) (stat : ForwardStat) (body : String) :
    Concluded :=
  ⟨[.failure pathShape nowMs], [stat, .httpUpstreamErrors], .generated 502 body⟩

/-- The end of `handle_http`, from the result of the exchange on. -/
def concludeExchange (cfg : ForwardConfig) (pathShape : Str) (nowMs : ℕ) : Exchange → Concluded
  | .response status headers =>
    match validateHeaderLines headers cfg.upstreamMaxHeaderLineBytes with
    | .error _ => refusedResponse pathShape nowMs .httpUpstreamHeaderRejected
        "upstream response headers too large\n"
    | .ok () =>
      match validateUpstreamResponseFraming headers with
      | .error _ => refusedResponse pathShape nowMs .httpUpstreamHeaderRejected
          "upstream response framing invalid\n"
      | .ok () =>
        if ∃ length ∈ contentLength headers,
            0 < cfg.maxUpstreamBodyBytes ∧ cfg.maxUpstreamBodyBytes < length then
          refusedResponse pathShape nowMs .httpUpstreamBodyRejected
            "upstream response body too large\n"
        else
          ⟨[.success pathShape], [.httpProxied],
            .upstream status (removeHopByHopHeaders headers) cfg.responseBody⟩
  | .failed err =>
    match findBodyGuardError err with
    | some error => ⟨[], [], bodyGuardErrorResponse error⟩
    | none =>
      ⟨[.failure pathShape nowMs],
        (if findHyperParseTooLarge err then [.httpUpstreamHeaderRejected] else []) ++
          [.httpUpstreamErrors],
        .generated 502 "bad gateway\n"⟩
  | .timedOut =>
    ⟨[.failure pathShape nowMs], [.httpUpstreamTimeouts], .generated 504 "gateway timeout\n"⟩

/-! ## Failures of the request body -/

/-- No library error is one of the guard's. -/
theorem findBodyGuardError_library (errors : List LibraryError) (err : ErrorChain) :
    findBodyGuardError (errors.map .library ++ err) = findBodyGuardError err := by
  induction errors with
  | nil => rfl
  | cons error errors ih => exact ih

theorem findBodyGuardError_inner (wrappers sources : List LibraryError) :
    findBodyGuardError (clientError wrappers (.inner sources)) = none := by
  rw [clientError, findBodyGuardError_library, GuardedError.chain,
    ← List.append_nil (sources.map ErrorLink.library), findBodyGuardError_library]
  rfl

/-- The circuit of the path shape is told of a failure. -/
def Concluded.RecordsFailure (concluded : Concluded) (pathShape : Str) : Prop :=
  ∃ nowMs, UpstreamFailureCircuitBreaker.Op.failure pathShape nowMs ∈ concluded.circuit

/-- **Who trips the circuit.** A request whose body fails does not count against its
path shape iff the downstream connection has not failed, that is, iff the error is
one that the guard has raised. -/
theorem body_failure_spares_circuit_iff (cfg : ForwardConfig) (pathShape : Str) (nowMs : ℕ)
    {events : List (PollEvent (List LibraryError))} {last : PollEvent (List LibraryError)}
    {body : GuardedBody} (hopen : cfg.requestBody.pollOpen events = some body)
    {e : GuardedError (List LibraryError)}
    (hfail : (body.pollFrame last).answer = .ready (some (.error e)))
    (wrappers : List LibraryError) :
    ¬(concludeExchange cfg pathShape nowMs (.failed (clientError wrappers e))).RecordsFailure
        pathShape ↔
      ∀ event ∈ events ++ [last], ∀ err, event.inner ≠ .ready (some (.error err)) := by
  rcases GuardedBody.pollFrame_error hfail with ⟨err, hinner, rfl⟩ | ⟨hinner, error, rfl⟩
  · have hcounts : (concludeExchange cfg pathShape nowMs
        (.failed (clientError wrappers (.inner err)))).RecordsFailure pathShape := by
      refine ⟨nowMs, ?_⟩
      rw [concludeExchange, findBodyGuardError_inner]
      exact List.mem_singleton_self _
    exact ⟨fun h => absurd hcounts h, fun h => absurd hinner (h last (by simp) err)⟩
  · have hpolls : ∀ event ∈ events ++ [last], ∀ err,
        event.inner ≠ .ready (some (.error err)) := by
      intro event hevent
      rcases List.mem_append.mp hevent with hevent | hevent
      · exact GuardedBody.inner_ok_of_pollOpen hopen event hevent
      · rw [List.mem_singleton.mp hevent]
        exact hinner
    refine ⟨fun _ => hpolls, fun _ => ?_⟩
    rintro ⟨nowMs', hmem⟩
    rw [concludeExchange, clientError, findBodyGuardError_library] at hmem
    exact List.not_mem_nil hmem

/-- An upload of at most four bytes; nothing else is limited. -/
def smallUploads : ForwardConfig where
  maxBodyBytes := 4
  requestBodyIdleTimeoutMs := 0
  requestBodyMinRateBytesPerSecond := 0
  requestBodyMinRateGraceMs := 0
  forwardRequestTrailers := false
  maxTrailers := 0
  maxTrailerBytes := 0
  upstreamMaxHeaderLineBytes := 0
  maxUpstreamBodyBytes := 0
  upstreamBodyIdleTimeoutMs := 0
  upstreamBodyMinRateBytesPerSecond := 0
  upstreamBodyMinRateGraceMs := 0
  forwardResponseTrailers := false
  upstreamMaxTrailers := 0
  upstreamMaxTrailerBytes := 0

def chunk (size : ℕ) : PollEvent (List LibraryError) :=
  ⟨0, 0, .ready (some (.ok (.data (List.replicate size 0x61))))⟩

/-- The client disconnects. -/
def disconnect : PollEvent (List LibraryError) :=
  ⟨0, 0, .ready (some (.error [.hyper false, .other]))⟩

/-- After two chunks the third is too much: that is the guard's own error. -/
theorem large_upload_spares_circuit :
    ∃ body, smallUploads.requestBody.pollOpen [chunk 2, chunk 2] = some body ∧
      (body.pollFrame (chunk 1)).answer = .ready (some (.error (.guard .tooLarge))) ∧
      ¬(concludeExchange smallUploads (utf8 "/up") 0
        (.failed (clientError [.hyper false] (.guard .tooLarge)))).RecordsFailure (utf8 "/up") := by
  obtain ⟨body, hopen, hfail⟩ : ∃ body,
      smallUploads.requestBody.pollOpen [chunk 2, chunk 2] = some body ∧
      (body.pollFrame (chunk 1)).answer = .ready (some (.error (.guard .tooLarge))) :=
    ⟨{ smallUploads.requestBody with remaining := some 0 }, by decide, by decide⟩
  refine ⟨body, hopen, hfail, ?_⟩
  refine (body_failure_spares_circuit_iff smallUploads (utf8 "/up") 0 hopen hfail
    [.hyper false]).mpr ?_
  simp [chunk]

/-- A client that disconnects in the middle of an upload trips the circuit. -/
theorem disconnect_records_failure :
    ∃ body, smallUploads.requestBody.pollOpen [chunk 2] = some body ∧
      (body.pollFrame disconnect).answer =
        .ready (some (.error (.inner [.hyper false, .other]))) ∧
      (concludeExchange smallUploads (utf8 "/up") 0
        (.failed (clientError [.hyper false] (.inner [.hyper false, .other])))).RecordsFailure
          (utf8 "/up") := by
  refine ⟨{ smallUploads.requestBody with remaining := some 2 }, by decide, by decide, 0, ?_⟩
  simp [concludeExchange, findBodyGuardError_inner]

end AlturaProt.Http
