import AlturaProt.Config.Schema
import AlturaProt.Http.UriText

/-!
# Validation of the configuration

`AppConfig::validate` of `src/config.rs`: every check in its order, with its
message. A validator returns its first complaint.

`AppConfig.capacities_of_valid` says what later results use: the limits that the
descriptor budget adds up are positive.
-/

namespace AlturaProt.Config

open Foundation Filter Limiter
open Http (UriParser MethodNames trimText validateHttpTrustedProxyConfig validateIpPrefixLen)

/-! ## Constants -/

def DEFAULT_HTTP_MAX_ALLOWED_METHODS : ℕ := 16
def DEFAULT_HTTP_MAX_ALLOWED_METHOD_BYTES : ℕ := 32
def DEFAULT_HTTP_MAX_ALLOWED_HOSTS : ℕ := 128
def DEFAULT_HTTP_MAX_ALLOWED_HOST_BYTES : ℕ := 255
def HTTP_ADMIN_TOKEN_MAX_BYTES : ℕ := 256
def DEFAULT_MAX_ACCEPT_SHARDS : ℕ := 64
def FILTER_RUNTIME_FILE_MAX_BYTES_MAX : ℕ := 16 * 1024 * 1024
def FILTER_RULE_COUNT_MAX : ℕ := 8192
def ADAPTIVE_EVENT_LOG_MAX_BYTES_MAX : ℕ := 1073741824
def ADAPTIVE_WINDOW_COUNT_MAX : ℕ := 262144
def LIMITER_MAX_TRACKED_IPS_MAX : ℕ := 1048576
def LIMITER_MAX_TRACKED_SIGNATURES_MAX : ℕ := 262144
def LIMITER_MAX_TRACKED_PATH_SHAPES_MAX : ℕ := 262144
def EVENT_LOG_BACKUP_COUNT_MAX : ℕ := 128
def EVENT_LOG_QUEUE_CAPACITY_MAX : ℕ := 8192
def HYPER_HTTP1_MIN_BUFFER_BYTES : ℕ := 8 * 1024
def HTTP_HEADER_BUFFER_MAX_BYTES : ℕ := 256 * 1024
def HTTP_HEADER_LINE_MAX_BYTES : ℕ := HTTP_HEADER_BUFFER_MAX_BYTES
def HTTP_HEADER_COUNT_MAX : ℕ := 1024
def HTTP_HOST_MAX_BYTES_MAX : ℕ := 1024
def HTTP_REQUEST_TARGET_MAX_BYTES : ℕ := 64 * 1024
def HTTP_QUERY_PAIR_COUNT_MAX : ℕ := 8192
def HTTP_PATH_SEGMENT_COUNT_MAX : ℕ := 4096
def HTTP_HEADER_READ_TIMEOUT_MAX_MS : ℕ := 60000
def HTTP_DOWNSTREAM_WRITE_TIMEOUT_MAX_MS : ℕ := 60000
def HTTP_BODY_IDLE_TIMEOUT_MAX_MS : ℕ := 60000
def HTTP_BODY_MIN_RATE_BYTES_PER_SECOND_MAX : ℕ := 1048576
def HTTP_BODY_MIN_RATE_GRACE_MAX_MS : ℕ := 60000
def HTTP_MAX_BODY_BYTES_MAX : ℕ := 1073741824
def HTTP_MAX_UPSTREAM_BODY_BYTES_MAX : ℕ := 1073741824
def HTTP_TRAILER_BYTES_MAX : ℕ := HTTP_HEADER_BUFFER_MAX_BYTES
def HTTP_TRAILER_COUNT_MAX : ℕ := HTTP_HEADER_COUNT_MAX
def HTTP_FORWARDED_FOR_BYTES_MAX : ℕ := 16 * 1024
def HTTP_FORWARDED_FOR_HOPS_MAX : ℕ := 256
def HTTP_UPSTREAM_CONNECT_TIMEOUT_MAX_MS : ℕ := 60000
def HTTP_UPSTREAM_TIMEOUT_MAX_MS : ℕ := 60000
def HTTP_UPSTREAM_FAILURE_THRESHOLD_MAX : ℕ := 1024
def HTTP_UPSTREAM_FAILURE_OPEN_MAX_MS : ℕ := 300000
def HTTP_UPSTREAM_POOL_IDLE_TIMEOUT_MAX_MS : ℕ := 60000
def HTTP_UPSTREAM_POOL_MAX_IDLE_PER_HOST_MAX : ℕ := 4096
def HTTP_MAX_CONNECTION_DURATION_MAX_SECONDS : ℕ := 3600
def HTTP_MAX_REQUESTS_PER_CONNECTION_MAX : ℕ := 10000
def TCP_CONNECT_TIMEOUT_MAX_MS : ℕ := 60000
def TCP_MIN_RATE_BYTES_PER_SECOND_MAX : ℕ := 1048576
def TCP_MAX_CONNECTION_DURATION_MAX_SECONDS : ℕ := 3600

def HTTP_UNSUPPORTED_ALLOWED_METHODS : List String := ["CONNECT", "TRACE", "TRACK"]

/-- What the checks take from elsewhere: the parsers of the `http` crate, and how
strings and rates are shown in messages. -/
structure CheckEnv where
  uris : UriParser
  methods : MethodNames
  debug : Str → String
  showF64 : ℚ → String

/-! ## Numbers -/

/-- The value must not be zero. -/
def validatePositive (path : String) (value : ℕ) : Check :=
  rejectIf (value == 0) (path ++ " must be greater than zero")

/-- The value must not exceed a bound. -/
def validateMax (path : String) (value max : ℕ) : Check :=
  rejectIf (max < value) (path ++ s!" must be no higher than {max}")

def validatePositiveCapacity : String → ℕ → Check := validatePositive
def validatePositiveU64 : String → ℕ → Check := validatePositive
def validatePositiveU32 : String → ℕ → Check := validatePositive
def validateMaxCapacity : String → ℕ → ℕ → Check := validateMax
def validateMaxU64 : String → ℕ → ℕ → Check := validateMax
def validateMaxU32 : String → ℕ → ℕ → Check := validateMax

def validateAcceptShards (path : String) (value : ℕ) : Check := do
  validatePositiveCapacity path value
  validateMax path value DEFAULT_MAX_ACCEPT_SHARDS

def validateMinCapacity (path : String) (value min : ℕ) : Check := do
  validatePositiveCapacity path value
  rejectIf (value < min) (path ++ s!" must be at least {min}")

def validateCapacityRange (path : String) (value min max : ℕ) : Check := do
  validateMinCapacity path value min
  validateMax path value max

def validateRelatedCapacityAtMost (path : String) (value : ℕ) (ceilingPath : String)
    (ceiling : ℕ) : Check :=
  rejectIf (ceiling < value) (path ++ s!" must be no higher than {ceilingPath}")

def validateNonNegativeFiniteRate (env : CheckEnv) (path : String) (value : ℚ) : Check :=
  rejectIf (value < 0) (path ++ " must be finite and non-negative, got " ++ env.showF64 value)

/-! ## The HTTP listener -/

def validateHttpAdminPathPrefix (cfg : HttpConfig) : Check := do
  let chars := cfg.adminPathPrefix.toList
  rejectIf (chars.head? != some '/') ("http.admin_path_prefix must start with '/' and use a " ++
    "non-root absolute path prefix such as /__altura")
  rejectIf (chars.all (· == '/')) ("http.admin_path_prefix must use a non-root absolute path " ++
    "prefix such as /__altura")
  rejectIf (chars.contains '?' || chars.contains '#')
    "http.admin_path_prefix must not contain query or fragment markers"
  rejectIf (chars.any fun ch => isControlChar ch || isWhitespaceChar ch)
    "http.admin_path_prefix must not contain whitespace or control characters"

def validateHttpAdminToken (cfg : HttpConfig) : Check :=
  checkSome (fun token => do
    let chars := token.toList
    rejectIf chars.isEmpty "http.admin_token must not be empty when configured"
    rejectIf (trimText chars).isEmpty "http.admin_token must not be blank when configured"
    rejectIf (trimText chars != chars) "http.admin_token must not start or end with whitespace"
    rejectIf (HTTP_ADMIN_TOKEN_MAX_BYTES < (utf8 token).length)
      (s!"http.admin_token is {(utf8 token).length} bytes, above configured cap of " ++
        s!"{HTTP_ADMIN_TOKEN_MAX_BYTES}")
    rejectIf (chars.any isControlChar) "http.admin_token must not contain control characters")
    cfg.adminToken

/-- The text of bytes that are ASCII. -/
def asciiText (s : Str) : String := String.ofList (s.map fun b => Char.ofNat b.toNat)

def invalidSocketAddress : String := "invalid socket address syntax"

def validateHttpEndpointConfig (env : CheckEnv) (cfg : HttpConfig) : Check := do
  rejectIf (parseSocketIp (utf8 cfg.listen)).isNone
    (s!"invalid http.listen address '{cfg.listen}': " ++ invalidSocketAddress)
  let upstream ← (env.uris.uri (utf8 cfg.upstream)).mapError fun err =>
    s!"invalid http.upstream URI '{cfg.upstream}': " ++ err
  match upstream.scheme with
  | some scheme =>
    rejectIf (!eqIgnoreAsciiCase scheme (utf8 "http"))
      ("http.upstream must use http:// scheme; unsupported scheme '" ++ asciiText scheme ++ "'")
  | none => .error "http.upstream must include http:// scheme"
  match upstream.authority with
  | some authority =>
    rejectIf (authority.contains 0x40) "http.upstream must not contain URI userinfo"
  | none => .error "http.upstream must include a host authority"
  rejectIf upstream.query.isSome "http.upstream must not include a query string"

def validateHttpAllowedMethod (env : CheckEnv) (methods : List String) (idx : ℕ)
    (method : String) : Check := do
  let path := s!"http.allowed_methods[{idx}]"
  rejectIf method.toList.isEmpty (path ++ " must not be empty")
  rejectIf (DEFAULT_HTTP_MAX_ALLOWED_METHOD_BYTES < (utf8 method).length)
    (path ++ s!" is {(utf8 method).length} bytes, above configured cap of " ++
      s!"{DEFAULT_HTTP_MAX_ALLOWED_METHOD_BYTES} bytes")
  rejectIf (!env.methods.isMethod (utf8 method)) (path ++ " is not a valid HTTP method token")
  rejectIf (HTTP_UNSUPPORTED_ALLOWED_METHODS.any fun unsupported =>
      eqIgnoreAsciiCase (utf8 method) (utf8 unsupported))
    (path ++ s!" must not include unsupported tunnel or diagnostic method '{method}'")
  rejectIf ((methods.take idx).contains method) (path ++ s!" duplicates '{method}'")

def validateHttpAllowedMethods (env : CheckEnv) (cfg : HttpConfig) : Check := do
  rejectIf cfg.allowedMethods.isEmpty "http.allowed_methods must contain at least one method"
  rejectIf (DEFAULT_HTTP_MAX_ALLOWED_METHODS < cfg.allowedMethods.length)
    (s!"http.allowed_methods contains {cfg.allowedMethods.length} methods, " ++
      s!"above configured cap of {DEFAULT_HTTP_MAX_ALLOWED_METHODS}")
  checkEach (validateHttpAllowedMethod env cfg.allowedMethods) 0 cfg.allowedMethods

def validateHttpAllowedHost (env : CheckEnv) (entryMaxBytes : ℕ) (hosts : List String) (idx : ℕ)
    (host : String) : Check := do
  let path := s!"http.allowed_hosts[{idx}]"
  let chars := host.toList
  rejectIf chars.isEmpty (path ++ " must not be empty")
  rejectIf (trimText chars).isEmpty (path ++ " must not be blank")
  rejectIf (trimText chars != chars) (path ++ " must not start or end with whitespace")
  rejectIf (chars.any fun ch => isControlChar ch || isWhitespaceChar ch)
    (path ++ " must not contain whitespace or control characters")
  rejectIf (entryMaxBytes < (utf8 host).length)
    (path ++ s!" is {(utf8 host).length} bytes, above configured cap of {entryMaxBytes} bytes")
  rejectIf (chars.contains '*') (path ++ " must be an exact host or host:port, not a wildcard")
  let authority ← (env.uris.authority (utf8 host)).mapError fun err =>
    path ++ " is not a valid HTTP authority: " ++ err
  rejectIf (authority.text.contains 0x40) (path ++ " must not contain URI userinfo")
  rejectIf ((hosts.take idx).any fun previous =>
      Http.asciiLowercaseText previous == Http.asciiLowercaseText host)
    (path ++ s!" duplicates '{host}'")

def validateHttpAllowedHosts (env : CheckEnv) (cfg : HttpConfig) : Check := do
  rejectIf (DEFAULT_HTTP_MAX_ALLOWED_HOSTS < cfg.allowedHosts.length)
    (s!"http.allowed_hosts contains {cfg.allowedHosts.length} hosts, " ++
      s!"above configured cap of {DEFAULT_HTTP_MAX_ALLOWED_HOSTS}")
  let entryMaxBytes :=
    if cfg.maxHostBytes = 0 then DEFAULT_HTTP_MAX_ALLOWED_HOST_BYTES
    else min DEFAULT_HTTP_MAX_ALLOWED_HOST_BYTES cfg.maxHostBytes
  checkEach (validateHttpAllowedHost env entryMaxBytes cfg.allowedHosts) 0 cfg.allowedHosts

def HttpConfig.rates (cfg : HttpConfig) : List (String × ℚ) :=
  [("http.limits.per_ip_rps", cfg.limits.perIpRps),
    ("http.limits.global_rps", cfg.limits.globalRps),
    ("http.limits.trusted_proxy_rps", cfg.limits.trustedProxyRps),
    ("http.limits.signature_rps", cfg.limits.signatureRps),
    ("http.limits.path_shape_rps", cfg.limits.pathShapeRps),
    ("http.limits.per_ip_connects_per_second", cfg.limits.perIpConnectsPerSecond),
    ("http.limits.global_connects_per_second", cfg.limits.globalConnectsPerSecond)]

def validateHttpRateLimits (env : CheckEnv) (cfg : HttpConfig) : Check := do
  checkEach (fun _ (path, value) => validateNonNegativeFiniteRate env path value) 0 cfg.rates
  validateIpPrefixLen "http.limits.ipv4_prefix_len" cfg.limits.ipv4PrefixLen 32
  validateIpPrefixLen "http.limits.ipv6_prefix_len" cfg.limits.ipv6PrefixLen 128

def HttpConfig.positiveCapacities (cfg : HttpConfig) : List (String × ℕ) :=
  [("http.max_host_bytes", cfg.maxHostBytes), ("http.max_header_bytes", cfg.maxHeaderBytes),
    ("http.max_header_line_bytes", cfg.maxHeaderLineBytes), ("http.max_headers", cfg.maxHeaders),
    ("http.max_uri_bytes", cfg.maxUriBytes), ("http.max_query_bytes", cfg.maxQueryBytes),
    ("http.max_query_pairs", cfg.maxQueryPairs), ("http.max_path_segments", cfg.maxPathSegments),
    ("http.upstream_pool_idle_timeout_ms", cfg.upstreamPoolIdleTimeoutMs),
    ("http.upstream_max_header_bytes", cfg.upstreamMaxHeaderBytes),
    ("http.upstream_max_header_line_bytes", cfg.upstreamMaxHeaderLineBytes),
    ("http.upstream_max_headers", cfg.upstreamMaxHeaders),
    ("http.upstream_body_idle_timeout_ms", cfg.upstreamBodyIdleTimeoutMs),
    ("http.upstream_failure_threshold", cfg.upstreamFailureThreshold),
    ("http.upstream_failure_open_ms", cfg.upstreamFailureOpenMs),
    ("http.max_upstream_body_bytes", cfg.maxUpstreamBodyBytes),
    ("http.max_connection_duration_seconds", cfg.maxConnectionDurationSeconds),
    ("http.max_requests_per_connection", cfg.maxRequestsPerConnection),
    ("http.max_body_bytes", cfg.maxBodyBytes),
    ("http.request_body_idle_timeout_ms", cfg.requestBodyIdleTimeoutMs),
    ("http.request_body_min_rate_grace_ms", cfg.requestBodyMinRateGraceMs),
    ("http.upstream_body_min_rate_grace_ms", cfg.upstreamBodyMinRateGraceMs),
    ("http.max_ranges", cfg.maxRanges), ("http.max_trailer_bytes", cfg.maxTrailerBytes),
    ("http.max_trailers", cfg.maxTrailers),
    ("http.upstream_max_trailer_bytes", cfg.upstreamMaxTrailerBytes),
    ("http.upstream_max_trailers", cfg.upstreamMaxTrailers),
    ("http.client_ip.max_forwarded_for_bytes", cfg.clientIp.maxForwardedForBytes),
    ("http.client_ip.max_forwarded_for_hops", cfg.clientIp.maxForwardedForHops),
    ("http.limits.per_ip_burst", cfg.limits.perIpBurst),
    ("http.limits.global_burst", cfg.limits.globalBurst),
    ("http.limits.trusted_proxy_burst", cfg.limits.trustedProxyBurst),
    ("http.limits.trusted_proxy_max_in_flight_requests", cfg.limits.trustedProxyMaxInFlightRequests),
    ("http.limits.signature_burst", cfg.limits.signatureBurst),
    ("http.limits.max_tracked_signatures", cfg.limits.maxTrackedSignatures),
    ("http.limits.path_shape_burst", cfg.limits.pathShapeBurst),
    ("http.limits.max_tracked_path_shapes", cfg.limits.maxTrackedPathShapes),
    ("http.limits.per_ip_connect_burst", cfg.limits.perIpConnectBurst),
    ("http.limits.global_connect_burst", cfg.limits.globalConnectBurst),
    ("http.limits.max_connections", cfg.limits.maxConnections),
    ("http.limits.max_connections_per_ip", cfg.limits.maxConnectionsPerIp),
    ("http.limits.max_in_flight_requests", cfg.limits.maxInFlightRequests),
    ("http.limits.max_in_flight_requests_per_ip", cfg.limits.maxInFlightRequestsPerIp),
    ("http.limits.max_tracked_ips", cfg.limits.maxTrackedIps)]

def validateHttpCapacityLimits (cfg : HttpConfig) : Check := do
  checkEach (fun _ (path, value) => validatePositiveCapacity path value) 0 cfg.positiveCapacities
  validatePositiveCapacity "http.listen_backlog" cfg.listenBacklog
  validateAcceptShards "http.accept_shards" cfg.acceptShards
  validateMaxCapacity "http.max_host_bytes" cfg.maxHostBytes HTTP_HOST_MAX_BYTES_MAX
  validateMaxCapacity "http.max_uri_bytes" cfg.maxUriBytes HTTP_REQUEST_TARGET_MAX_BYTES
  validateMaxCapacity "http.max_query_bytes" cfg.maxQueryBytes HTTP_REQUEST_TARGET_MAX_BYTES
  validateMaxCapacity "http.max_query_pairs" cfg.maxQueryPairs HTTP_QUERY_PAIR_COUNT_MAX
  validateMaxCapacity "http.max_path_segments" cfg.maxPathSegments HTTP_PATH_SEGMENT_COUNT_MAX
  validateMaxU64 "http.max_body_bytes" cfg.maxBodyBytes HTTP_MAX_BODY_BYTES_MAX
  validateMaxU64 "http.max_upstream_body_bytes" cfg.maxUpstreamBodyBytes
    HTTP_MAX_UPSTREAM_BODY_BYTES_MAX
  validatePositiveU64 "http.header_read_timeout_ms" cfg.headerReadTimeoutMs
  validateMaxU64 "http.header_read_timeout_ms" cfg.headerReadTimeoutMs
    HTTP_HEADER_READ_TIMEOUT_MAX_MS
  validatePositiveCapacity "http.downstream_write_timeout_ms" cfg.downstreamWriteTimeoutMs
  validateMaxU64 "http.downstream_write_timeout_ms" cfg.downstreamWriteTimeoutMs
    HTTP_DOWNSTREAM_WRITE_TIMEOUT_MAX_MS
  validateMaxU64 "http.request_body_idle_timeout_ms" cfg.requestBodyIdleTimeoutMs
    HTTP_BODY_IDLE_TIMEOUT_MAX_MS
  validateMaxU64 "http.upstream_body_idle_timeout_ms" cfg.upstreamBodyIdleTimeoutMs
    HTTP_BODY_IDLE_TIMEOUT_MAX_MS
  validateMaxU64 "http.request_body_min_rate_grace_ms" cfg.requestBodyMinRateGraceMs
    HTTP_BODY_MIN_RATE_GRACE_MAX_MS
  validateMaxU64 "http.upstream_body_min_rate_grace_ms" cfg.upstreamBodyMinRateGraceMs
    HTTP_BODY_MIN_RATE_GRACE_MAX_MS
  validateMaxU64 "http.request_body_min_rate_bytes_per_second"
    cfg.requestBodyMinRateBytesPerSecond HTTP_BODY_MIN_RATE_BYTES_PER_SECOND_MAX
  validateMaxU64 "http.upstream_body_min_rate_bytes_per_second"
    cfg.upstreamBodyMinRateBytesPerSecond HTTP_BODY_MIN_RATE_BYTES_PER_SECOND_MAX
  validatePositiveCapacity "http.upstream_timeout_ms" cfg.upstreamTimeoutMs
  validateMaxU64 "http.upstream_timeout_ms" cfg.upstreamTimeoutMs HTTP_UPSTREAM_TIMEOUT_MAX_MS
  validateMaxU32 "http.upstream_failure_threshold" cfg.upstreamFailureThreshold
    HTTP_UPSTREAM_FAILURE_THRESHOLD_MAX
  validateMaxU64 "http.upstream_failure_open_ms" cfg.upstreamFailureOpenMs
    HTTP_UPSTREAM_FAILURE_OPEN_MAX_MS
  validatePositiveCapacity "http.upstream_connect_timeout_ms" cfg.upstreamConnectTimeoutMs
  validateMaxU64 "http.upstream_connect_timeout_ms" cfg.upstreamConnectTimeoutMs
    HTTP_UPSTREAM_CONNECT_TIMEOUT_MAX_MS
  validateMaxU64 "http.upstream_pool_idle_timeout_ms" cfg.upstreamPoolIdleTimeoutMs
    HTTP_UPSTREAM_POOL_IDLE_TIMEOUT_MAX_MS
  validateMaxCapacity "http.upstream_pool_max_idle_per_host" cfg.upstreamPoolMaxIdlePerHost
    HTTP_UPSTREAM_POOL_MAX_IDLE_PER_HOST_MAX
  validateMaxU64 "http.max_connection_duration_seconds" cfg.maxConnectionDurationSeconds
    HTTP_MAX_CONNECTION_DURATION_MAX_SECONDS
  validateMaxU64 "http.max_requests_per_connection" cfg.maxRequestsPerConnection
    HTTP_MAX_REQUESTS_PER_CONNECTION_MAX
  validateCapacityRange "http.max_header_bytes" cfg.maxHeaderBytes HYPER_HTTP1_MIN_BUFFER_BYTES
    HTTP_HEADER_BUFFER_MAX_BYTES
  validateCapacityRange "http.upstream_max_header_bytes" cfg.upstreamMaxHeaderBytes
    HYPER_HTTP1_MIN_BUFFER_BYTES HTTP_HEADER_BUFFER_MAX_BYTES
  validateMaxCapacity "http.max_header_line_bytes" cfg.maxHeaderLineBytes HTTP_HEADER_LINE_MAX_BYTES
  validateMaxCapacity "http.upstream_max_header_line_bytes" cfg.upstreamMaxHeaderLineBytes
    HTTP_HEADER_LINE_MAX_BYTES
  validateRelatedCapacityAtMost "http.max_header_line_bytes" cfg.maxHeaderLineBytes
    "http.max_header_bytes" cfg.maxHeaderBytes
  validateRelatedCapacityAtMost "http.upstream_max_header_line_bytes"
    cfg.upstreamMaxHeaderLineBytes "http.upstream_max_header_bytes" cfg.upstreamMaxHeaderBytes
  validateMaxCapacity "http.max_headers" cfg.maxHeaders HTTP_HEADER_COUNT_MAX
  validateMaxCapacity "http.upstream_max_headers" cfg.upstreamMaxHeaders HTTP_HEADER_COUNT_MAX
  validateMaxCapacity "http.max_trailer_bytes" cfg.maxTrailerBytes HTTP_TRAILER_BYTES_MAX
  validateMaxCapacity "http.upstream_max_trailer_bytes" cfg.upstreamMaxTrailerBytes
    HTTP_TRAILER_BYTES_MAX
  validateMaxCapacity "http.max_trailers" cfg.maxTrailers HTTP_TRAILER_COUNT_MAX
  validateMaxCapacity "http.upstream_max_trailers" cfg.upstreamMaxTrailers HTTP_TRAILER_COUNT_MAX
  validateMaxCapacity "http.client_ip.max_forwarded_for_bytes" cfg.clientIp.maxForwardedForBytes
    HTTP_FORWARDED_FOR_BYTES_MAX
  validateMaxCapacity "http.client_ip.max_forwarded_for_hops" cfg.clientIp.maxForwardedForHops
    HTTP_FORWARDED_FOR_HOPS_MAX
  validateMaxCapacity "http.limits.max_tracked_ips" cfg.limits.maxTrackedIps
    LIMITER_MAX_TRACKED_IPS_MAX
  validateMaxCapacity "http.limits.max_tracked_signatures" cfg.limits.maxTrackedSignatures
    LIMITER_MAX_TRACKED_SIGNATURES_MAX
  validateMaxCapacity "http.limits.max_tracked_path_shapes" cfg.limits.maxTrackedPathShapes
    LIMITER_MAX_TRACKED_PATH_SHAPES_MAX

/-! ## TCP services -/

/-- The parts of the upstream that must not be there are looked for before it is
parsed. -/
def validateTcpEndpointConfig (env : CheckEnv) (idx : ℕ) (cfg : TcpProxyConfig) : Check := do
  let path := s!"tcp[{idx}]"
  let chars := cfg.upstream.toList
  rejectIf (parseSocketIp (utf8 cfg.listen)).isNone
    (s!"invalid tcp[{idx}].listen address '{cfg.listen}': " ++ invalidSocketAddress)
  rejectIf (chars.any fun ch => isWhitespaceChar ch || isControlChar ch)
    (path ++ ".upstream must not contain whitespace or control characters")
  rejectIf (containsStr (utf8 cfg.upstream) (utf8 "://"))
    (path ++ ".upstream must be host:port without a URL scheme")
  rejectIf (chars.contains '/' || chars.contains '?' || chars.contains '#')
    (path ++ ".upstream must not include a path, query, or fragment")
  let upstream ← (env.uris.authority (utf8 cfg.upstream)).mapError fun err =>
    s!"invalid tcp[{idx}].upstream authority '{cfg.upstream}': " ++ err
  rejectIf (upstream.text.contains 0x40) (path ++ ".upstream must not contain URI userinfo")
  rejectIf upstream.host.isEmpty (path ++ ".upstream must include a host")
  match upstream.portU16 with
  | none => .error (path ++ ".upstream must include a numeric port")
  | some port => rejectIf (port == 0) (path ++ ".upstream port must be greater than zero")

def validateTcpRateLimits (env : CheckEnv) (idx : ℕ) (cfg : TcpProxyConfig) : Check := do
  let path := s!"tcp[{idx}].limits."
  validateNonNegativeFiniteRate env (path ++ "per_ip_connects_per_second")
    cfg.limits.perIpConnectsPerSecond
  validateNonNegativeFiniteRate env (path ++ "global_connects_per_second")
    cfg.limits.globalConnectsPerSecond
  validateIpPrefixLen (path ++ "ipv4_prefix_len") cfg.limits.ipv4PrefixLen 32
  validateIpPrefixLen (path ++ "ipv6_prefix_len") cfg.limits.ipv6PrefixLen 128

/-- The path in a message names the service. -/
def qualifyTcpError (idx : ℕ) (err : String) : String := err.replace "tcp[]" s!"tcp[{idx}]"

def qualified (idx : ℕ) (check : Check) : Check := check.mapError (qualifyTcpError idx)

def TcpProxyConfig.positiveCapacities (cfg : TcpProxyConfig) : List (String × ℕ) :=
  [("tcp[].limits.per_ip_connect_burst", cfg.limits.perIpConnectBurst),
    ("tcp[].limits.global_connect_burst", cfg.limits.globalConnectBurst),
    ("tcp[].limits.max_connections", cfg.limits.maxConnections),
    ("tcp[].limits.max_connections_per_ip", cfg.limits.maxConnectionsPerIp),
    ("tcp[].limits.max_tracked_ips", cfg.limits.maxTrackedIps)]

def validateTcpCapacityLimits (idx : ℕ) (cfg : TcpProxyConfig) : Check :=
  qualified idx do
    validatePositiveCapacity "tcp[].listen_backlog" cfg.listenBacklog
    validateAcceptShards "tcp[].accept_shards" cfg.acceptShards
    validatePositiveCapacity "tcp[].connect_timeout_ms" cfg.connectTimeoutMs
    validateMaxU64 "tcp[].connect_timeout_ms" cfg.connectTimeoutMs TCP_CONNECT_TIMEOUT_MAX_MS
    validatePositiveCapacity "tcp[].idle_timeout_seconds" cfg.idleTimeoutSeconds
    validatePositiveCapacity "tcp[].min_rate_grace_ms" cfg.minRateGraceMs
    validateMaxU64 "tcp[].downstream_min_rate_bytes_per_second"
      cfg.downstreamMinRateBytesPerSecond TCP_MIN_RATE_BYTES_PER_SECOND_MAX
    validateMaxU64 "tcp[].upstream_min_rate_bytes_per_second" cfg.upstreamMinRateBytesPerSecond
      TCP_MIN_RATE_BYTES_PER_SECOND_MAX
    validatePositiveCapacity "tcp[].max_connection_duration_seconds"
      cfg.maxConnectionDurationSeconds
    validateMaxU64 "tcp[].max_connection_duration_seconds" cfg.maxConnectionDurationSeconds
      TCP_MAX_CONNECTION_DURATION_MAX_SECONDS
    checkEach (fun _ (path, value) => validatePositiveCapacity path value) 0 cfg.positiveCapacities
    validateMaxCapacity "tcp[].limits.max_tracked_ips" cfg.limits.maxTrackedIps
      LIMITER_MAX_TRACKED_IPS_MAX

/-! ## Filters and detection -/

def validateFilterConfig (env : CheckEnv) (cfg : FilterConfig) : Check := do
  validatePositiveU64 "filters.reload_seconds" cfg.reloadSeconds
  validatePositiveU64 "filters.max_runtime_file_bytes" cfg.maxRuntimeFileBytes
  validatePositiveCapacity "filters.max_runtime_filters" cfg.maxRuntimeFilters
  validatePositiveCapacity "filters.max_static_filters" cfg.maxStaticFilters
  validateMaxU64 "filters.max_runtime_file_bytes" cfg.maxRuntimeFileBytes
    FILTER_RUNTIME_FILE_MAX_BYTES_MAX
  validateMaxCapacity "filters.max_runtime_filters" cfg.maxRuntimeFilters FILTER_RULE_COUNT_MAX
  validateMaxCapacity "filters.max_static_filters" cfg.maxStaticFilters FILTER_RULE_COUNT_MAX
  validateFilterRules env.debug "filters.static_rules" cfg.staticRules cfg.maxStaticFilters

def AdaptiveConfig.positiveValues (cfg : AdaptiveConfig) : List (String × ℕ) :=
  [("adaptive.signature_threshold_per_second", cfg.signatureThresholdPerSecond),
    ("adaptive.activation_ttl_seconds", cfg.activationTtlSeconds),
    ("adaptive.event_log_flush_interval_ms", cfg.eventLogFlushIntervalMs),
    ("adaptive.event_log_max_bytes", cfg.eventLogMaxBytes),
    ("adaptive.event_cooldown_seconds", cfg.eventCooldownSeconds)]

def validateAdaptiveConfig (cfg : AdaptiveConfig) : Check := do
  checkEach (fun _ (path, value) => validatePositiveU64 path value) 0 cfg.positiveValues
  validatePositiveU32 "adaptive.event_log_backup_count" cfg.eventLogBackupCount
  validateMaxU64 "adaptive.activation_ttl_seconds" cfg.activationTtlSeconds FILTER_TTL_MAX_SECONDS
  validateMaxU64 "adaptive.event_log_max_bytes" cfg.eventLogMaxBytes
    ADAPTIVE_EVENT_LOG_MAX_BYTES_MAX
  validateMaxU32 "adaptive.event_log_backup_count" cfg.eventLogBackupCount
    EVENT_LOG_BACKUP_COUNT_MAX
  validatePositiveCapacity "adaptive.event_log_queue_capacity" cfg.eventLogQueueCapacity
  validateMaxCapacity "adaptive.event_log_queue_capacity" cfg.eventLogQueueCapacity
    EVENT_LOG_QUEUE_CAPACITY_MAX
  validatePositiveCapacity "adaptive.max_signature_windows" cfg.maxSignatureWindows
  validatePositiveCapacity "adaptive.max_path_shape_windows" cfg.maxPathShapeWindows
  validateMaxCapacity "adaptive.max_signature_windows" cfg.maxSignatureWindows
    ADAPTIVE_WINDOW_COUNT_MAX
  validateMaxCapacity "adaptive.max_path_shape_windows" cfg.maxPathShapeWindows
    ADAPTIVE_WINDOW_COUNT_MAX

/-! ## The whole configuration -/

def HttpConfig.validate (env : CheckEnv) (http : HttpConfig) : Check := do
  validateHttpEndpointConfig env http
  validateHttpAdminPathPrefix http
  validateHttpAdminToken http
  validateHttpAllowedMethods env http
  validateHttpAllowedHosts env http
  validateHttpTrustedProxyConfig http.toHttpConfig
  validateHttpRateLimits env http
  validateHttpCapacityLimits http

def TcpProxyConfig.validate (env : CheckEnv) (idx : ℕ) (tcp : TcpProxyConfig) : Check := do
  validateTcpEndpointConfig env idx tcp
  validateTcpRateLimits env idx tcp
  validateTcpCapacityLimits idx tcp

def AppConfig.validate (env : CheckEnv) (cfg : AppConfig) : Check := do
  validateFilterConfig env cfg.filters
  validateAdaptiveConfig cfg.adaptive
  checkSome (HttpConfig.validate env) cfg.http
  checkEach (TcpProxyConfig.validate env) 0 cfg.tcp

/-! ## What validation lets through -/

variable {path : String} {value idx : ℕ} {env : CheckEnv} {cfg : AppConfig}

@[simp] theorem validatePositive_eq_ok : validatePositive path value = .ok () ↔ 0 < value := by
  simp [validatePositive, Nat.pos_iff_ne_zero]

@[simp] theorem validateMax_eq_ok {max : ℕ} :
    validateMax path value max = .ok () ↔ value ≤ max := by
  simp [validateMax]

theorem qualified_eq_ok {check : Check} : qualified idx check = .ok () ↔ check = .ok () := by
  cases check <;> simp [qualified, Except.mapError]

theorem pos_of_mem_positives {values : List (String × ℕ)}
    (h : checkEach (fun _ (path, value) => validatePositiveCapacity path value) 0 values = .ok ())
    (path : String) (hmem : (path, value) ∈ values) : 0 < value := by
  obtain ⟨_, hvalue⟩ := checkEach_ok_of_mem h hmem
  exact validatePositive_eq_ok.mp hvalue

theorem pos_of_validateAcceptShards (h : validateAcceptShards path value = .ok ()) : 0 < value :=
  validatePositive_eq_ok.mp (bind_eq_ok.mp h).1

theorem HttpConfig.capacities_of_valid {http : HttpConfig} (h : http.validate env = .ok ()) :
    0 < http.acceptShards ∧ 0 < http.limits.maxConnections ∧
      0 < http.limits.maxInFlightRequests := by
  simp only [HttpConfig.validate, bind_eq_ok] at h
  obtain ⟨-, -, -, -, -, -, -, hcapacity⟩ := h
  unfold validateHttpCapacityLimits at hcapacity
  obtain ⟨hpositive, hrest⟩ := bind_eq_ok.mp hcapacity
  obtain ⟨-, hrest⟩ := bind_eq_ok.mp hrest
  refine ⟨pos_of_validateAcceptShards (bind_eq_ok.mp hrest).1,
    pos_of_mem_positives hpositive "http.limits.max_connections" ?_,
    pos_of_mem_positives hpositive "http.limits.max_in_flight_requests" ?_⟩
  all_goals simp [HttpConfig.positiveCapacities]

theorem TcpProxyConfig.capacities_of_valid {tcp : TcpProxyConfig}
    (h : tcp.validate env idx = .ok ()) : 0 < tcp.acceptShards ∧ 0 < tcp.limits.maxConnections := by
  simp only [TcpProxyConfig.validate, bind_eq_ok] at h
  obtain ⟨-, -, hcapacity⟩ := h
  have hchecks := qualified_eq_ok.mp hcapacity
  simp only [bind_eq_ok] at hchecks
  obtain ⟨-, hshards, -, -, -, -, -, -, -, -, hpositive, -⟩ := hchecks
  refine ⟨pos_of_validateAcceptShards hshards,
    pos_of_mem_positives hpositive "tcp[].limits.max_connections" ?_⟩
  simp [TcpProxyConfig.positiveCapacities]

/-- The parts of an accepted configuration are accepted. -/
theorem AppConfig.parts_of_valid (h : cfg.validate env = .ok ()) :
    (∀ http ∈ cfg.http, http.validate env = .ok ()) ∧
      ∀ tcp ∈ cfg.tcp, ∃ idx, tcp.validate env idx = .ok () := by
  simp only [AppConfig.validate, bind_eq_ok, checkSome_eq_ok] at h
  obtain ⟨-, -, hhttp, htcp⟩ := h
  exact ⟨hhttp, fun tcp hmem => checkEach_ok_of_mem htcp hmem⟩

/-- **The limits of an accepted configuration are positive**, as far as the
descriptor budget adds them up. -/
theorem AppConfig.capacities_of_valid (h : cfg.validate env = .ok ()) :
    (∀ http ∈ cfg.http, 0 < http.acceptShards ∧ 0 < http.limits.maxConnections ∧
      0 < http.limits.maxInFlightRequests) ∧
    ∀ tcp ∈ cfg.tcp, 0 < tcp.acceptShards ∧ 0 < tcp.limits.maxConnections := by
  obtain ⟨hhttp, htcp⟩ := AppConfig.parts_of_valid h
  refine ⟨fun http hmem => HttpConfig.capacities_of_valid (hhttp http hmem), ?_⟩
  intro tcp hmem
  obtain ⟨_, hvalid⟩ := htcp tcp hmem
  exact TcpProxyConfig.capacities_of_valid hvalid

theorem HttpConfig.headerReadTimeout_of_valid {http : HttpConfig} (h : http.validate env = .ok ()) :
    http.headerReadTimeoutMs ≤ HTTP_HEADER_READ_TIMEOUT_MAX_MS := by
  simp only [HttpConfig.validate, bind_eq_ok] at h
  obtain ⟨-, -, -, -, -, -, -, hcapacity⟩ := h
  simp only [validateHttpCapacityLimits, bind_eq_ok] at hcapacity
  obtain ⟨-, -, -, -, -, -, -, -, -, -, -, hmax, -⟩ := hcapacity
  exact validateMax_eq_ok.mp hmax

theorem TcpProxyConfig.idleTimeout_of_valid {tcp : TcpProxyConfig}
    (h : tcp.validate env idx = .ok ()) : 0 < tcp.idleTimeoutSeconds := by
  simp only [TcpProxyConfig.validate, bind_eq_ok] at h
  obtain ⟨-, -, hcapacity⟩ := h
  have hchecks := qualified_eq_ok.mp hcapacity
  simp only [bind_eq_ok] at hchecks
  obtain ⟨-, -, -, -, hidle, -⟩ := hchecks
  exact validatePositive_eq_ok.mp hidle

/-- **The timeouts of an accepted configuration**: the header deadline is bounded, and an
idle timeout is there. -/
theorem AppConfig.timeouts_of_valid (h : cfg.validate env = .ok ()) :
    (∀ http ∈ cfg.http, http.headerReadTimeoutMs ≤ HTTP_HEADER_READ_TIMEOUT_MAX_MS) ∧
    ∀ tcp ∈ cfg.tcp, 0 < tcp.idleTimeoutSeconds := by
  obtain ⟨hhttp, htcp⟩ := AppConfig.parts_of_valid h
  refine ⟨fun http hmem => HttpConfig.headerReadTimeout_of_valid (hhttp http hmem), ?_⟩
  intro tcp hmem
  obtain ⟨_, hvalid⟩ := htcp tcp hmem
  exact TcpProxyConfig.idleTimeout_of_valid hvalid

end AlturaProt.Config
