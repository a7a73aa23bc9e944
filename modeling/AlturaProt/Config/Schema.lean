import AlturaProt.Filter.Json
import AlturaProt.Foundation.Binary64
import AlturaProt.Http.ClientIpConfig
import AlturaProt.Limiter.Limiters

/-!
# The configuration file

The records of `src/config.rs` with their defaults, and how they are read from a
JSON document. A document is the value a JSON parser makes of it, in which the
numbers with a fraction or an exponent are doubles.

A table may be written as an object or, as the derived readers allow, as an array
of its fields in order. Fields with a default may be left out, at the end of an
array too; unknown fields of an object are ignored.
-/

namespace AlturaProt.Config

open Foundation Python Filter Limiter
open Http (ClientIpConfig)

/-! ## Constants -/

def DEFAULT_RUNTIME_SHUTDOWN_GRACE_MS : ℕ := 2000
def DEFAULT_STATIC_FILTER_MAX_RULES : ℕ := DEFAULT_RUNTIME_FILTER_MAX_RULES
def DEFAULT_EVENT_LOG_MAX_BYTES : ℕ := 64 * 1024 * 1024
def DEFAULT_EVENT_LOG_BACKUP_COUNT : ℕ := 2
def DEFAULT_EVENT_LOG_QUEUE_CAPACITY : ℕ := 4096

/-! ## Records -/

structure RuntimeConfig where
  minNofile : ℕ := 0
  shutdownGraceMs : ℕ := DEFAULT_RUNTIME_SHUTDOWN_GRACE_MS

def defaultClientIpConfig : ClientIpConfig where
  header := "x-forwarded-for"
  trustedProxies := []
  maxForwardedForBytes := 1024
  maxForwardedForHops := 32

def defaultHttpAllowedMethods : List String :=
  ["GET", "HEAD", "POST", "PUT", "PATCH", "DELETE", "OPTIONS"]

/-- The listener and the addresses it trusts are those of `Http.HttpConfig`. -/
structure HttpConfig extends Http.HttpConfig where
  upstream : String
  preserveHost : Bool
  adminPathPrefix : String
  adminToken : Option String
  allowedMethods : List String
  allowMethodOverrideHeaders : Bool
  requireHostHeader : Bool
  maxHostBytes : ℕ
  allowedHosts : List String
  listenBacklog : ℕ
  acceptShards : ℕ
  maxHeaderBytes : ℕ
  maxHeaderLineBytes : ℕ
  maxHeaders : ℕ
  maxUriBytes : ℕ
  maxQueryBytes : ℕ
  maxQueryPairs : ℕ
  maxPathSegments : ℕ
  headerReadTimeoutMs : ℕ
  downstreamKeepAlive : Bool
  downstreamWriteTimeoutMs : ℕ
  upstreamTimeoutMs : ℕ
  upstreamConnectTimeoutMs : ℕ
  upstreamFailureThreshold : ℕ
  upstreamFailureOpenMs : ℕ
  upstreamPoolIdleTimeoutMs : ℕ
  upstreamPoolMaxIdlePerHost : ℕ
  upstreamMaxHeaderBytes : ℕ
  upstreamMaxHeaderLineBytes : ℕ
  upstreamMaxHeaders : ℕ
  upstreamBodyIdleTimeoutMs : ℕ
  maxUpstreamBodyBytes : ℕ
  upstreamBodyMinRateBytesPerSecond : ℕ
  upstreamBodyMinRateGraceMs : ℕ
  maxConnectionDurationSeconds : ℕ
  maxRequestsPerConnection : ℕ
  maxBodyBytes : ℕ
  requestBodyIdleTimeoutMs : ℕ
  requestBodyMinRateBytesPerSecond : ℕ
  requestBodyMinRateGraceMs : ℕ
  allowCompressedRequestBodies : Bool
  allowChunkedRequestBodies : Bool
  allowExpectContinue : Bool
  maxRanges : ℕ
  forwardAcceptEncoding : Bool
  forwardRequestTrailers : Bool
  maxTrailerBytes : ℕ
  maxTrailers : ℕ
  forwardResponseTrailers : Bool
  upstreamMaxTrailerBytes : ℕ
  upstreamMaxTrailers : ℕ
  limits : HttpLimitConfig

structure TcpProxyConfig where
  name : String
  listen : String
  upstream : String
  listenBacklog : ℕ
  acceptShards : ℕ
  connectTimeoutMs : ℕ
  idleTimeoutSeconds : ℕ
  downstreamMinRateBytesPerSecond : ℕ
  upstreamMinRateBytesPerSecond : ℕ
  minRateGraceMs : ℕ
  maxConnectionDurationSeconds : ℕ
  limits : TcpLimitConfig

structure FilterConfig where
  runtimeFile : String := "runtime/filters.json"
  reloadSeconds : ℕ := 2
  maxRuntimeFileBytes : ℕ := DEFAULT_RUNTIME_FILTER_MAX_BYTES
  maxRuntimeFilters : ℕ := DEFAULT_RUNTIME_FILTER_MAX_RULES
  maxStaticFilters : ℕ := DEFAULT_STATIC_FILTER_MAX_RULES
  staticRules : List FilterRule := []

structure AdaptiveConfig where
  enabled : Bool := true
  signatureThresholdPerSecond : ℕ := 300
  activationTtlSeconds : ℕ := 60
  eventLog : String := "runtime/attack_events.jsonl"
  eventLogFlushIntervalMs : ℕ := 100
  eventLogMaxBytes : ℕ := DEFAULT_EVENT_LOG_MAX_BYTES
  eventLogBackupCount : ℕ := DEFAULT_EVENT_LOG_BACKUP_COUNT
  eventLogQueueCapacity : ℕ := DEFAULT_EVENT_LOG_QUEUE_CAPACITY
  eventCooldownSeconds : ℕ := 5
  maxSignatureWindows : ℕ := 8192
  maxPathShapeWindows : ℕ := 8192

structure AppConfig where
  runtime : RuntimeConfig
  http : Option HttpConfig
  tcp : List TcpProxyConfig
  filters : FilterConfig
  adaptive : AdaptiveConfig

/-! ## Reading -/

/-- A string of the document. -/
def readText : PyValue Double → Option String
  | .str s => if s.all Nat.isValidChar then some (String.ofList (s.map Char.ofNat)) else none
  | _ => none

abbrev readU64 : PyValue Double → Option ℕ := readUnsigned 64
abbrev readUsize : PyValue Double → Option ℕ := readUnsigned 64
abbrev readU32 : PyValue Double → Option ℕ := readUnsigned 32
abbrev readU8 : PyValue Double → Option ℕ := readUnsigned 8

/-- Any number that does not overflow. -/
def readF64 : PyValue Double → Option ℚ
  | .int z => (Double.ofRat z).toRat
  | .float f => f.toRat
  | _ => none

def runtimeConfigFields : List String :=
  ["min_nofile", "shutdown_grace_ms"]

def RuntimeConfig.ofJson (v : PyValue Double) : Option RuntimeConfig := do
  let field ← recordFields runtimeConfigFields v
  let base : RuntimeConfig := {}
  let minNofile ← withDefault base.minNofile readU64 (field "min_nofile")
  let shutdownGraceMs ← withDefault base.shutdownGraceMs readU64 (field "shutdown_grace_ms")
  return { minNofile, shutdownGraceMs }

def clientIpConfigFields : List String :=
  ["header", "trusted_proxies", "max_forwarded_for_bytes", "max_forwarded_for_hops"]

def readClientIpConfig (v : PyValue Double) : Option ClientIpConfig := do
  let field ← recordFields clientIpConfigFields v
  let base : ClientIpConfig := defaultClientIpConfig
  let header ← withDefault base.header readText (field "header")
  let trustedProxies ← withDefault base.trustedProxies (readList readText) (field "trusted_proxies")
  let maxForwardedForBytes ←
    withDefault base.maxForwardedForBytes readUsize (field "max_forwarded_for_bytes")
  let maxForwardedForHops ←
    withDefault base.maxForwardedForHops readUsize (field "max_forwarded_for_hops")
  return { header, trustedProxies, maxForwardedForBytes, maxForwardedForHops }

def httpLimitConfigFields : List String :=
  ["per_ip_rps", "per_ip_burst", "ipv4_prefix_len", "ipv6_prefix_len", "global_rps",
    "global_burst", "trusted_proxy_rps", "trusted_proxy_burst",
    "trusted_proxy_max_in_flight_requests", "signature_rps", "signature_burst",
    "max_tracked_signatures", "path_shape_rps", "path_shape_burst", "max_tracked_path_shapes",
    "per_ip_connects_per_second", "per_ip_connect_burst", "global_connects_per_second",
    "global_connect_burst", "max_connections", "max_connections_per_ip", "max_in_flight_requests",
    "max_in_flight_requests_per_ip", "max_tracked_ips"]

def readHttpLimitConfig (v : PyValue Double) : Option HttpLimitConfig := do
  let field ← recordFields httpLimitConfigFields v
  let base : HttpLimitConfig := {}
  let perIpRps ← withDefault base.perIpRps readF64 (field "per_ip_rps")
  let perIpBurst ← withDefault base.perIpBurst readU32 (field "per_ip_burst")
  let ipv4PrefixLen ← withDefault base.ipv4PrefixLen readU8 (field "ipv4_prefix_len")
  let ipv6PrefixLen ← withDefault base.ipv6PrefixLen readU8 (field "ipv6_prefix_len")
  let globalRps ← withDefault base.globalRps readF64 (field "global_rps")
  let globalBurst ← withDefault base.globalBurst readU32 (field "global_burst")
  let trustedProxyRps ← withDefault base.trustedProxyRps readF64 (field "trusted_proxy_rps")
  let trustedProxyBurst ← withDefault base.trustedProxyBurst readU32 (field "trusted_proxy_burst")
  let trustedProxyMaxInFlightRequests ←
    withDefault base.trustedProxyMaxInFlightRequests readUsize
      (field "trusted_proxy_max_in_flight_requests")
  let signatureRps ← withDefault base.signatureRps readF64 (field "signature_rps")
  let signatureBurst ← withDefault base.signatureBurst readU32 (field "signature_burst")
  let maxTrackedSignatures ←
    withDefault base.maxTrackedSignatures readUsize (field "max_tracked_signatures")
  let pathShapeRps ← withDefault base.pathShapeRps readF64 (field "path_shape_rps")
  let pathShapeBurst ← withDefault base.pathShapeBurst readU32 (field "path_shape_burst")
  let maxTrackedPathShapes ←
    withDefault base.maxTrackedPathShapes readUsize (field "max_tracked_path_shapes")
  let perIpConnectsPerSecond ←
    withDefault base.perIpConnectsPerSecond readF64 (field "per_ip_connects_per_second")
  let perIpConnectBurst ← withDefault base.perIpConnectBurst readU32 (field "per_ip_connect_burst")
  let globalConnectsPerSecond ←
    withDefault base.globalConnectsPerSecond readF64 (field "global_connects_per_second")
  let globalConnectBurst ←
    withDefault base.globalConnectBurst readU32 (field "global_connect_burst")
  let maxConnections ← withDefault base.maxConnections readUsize (field "max_connections")
  let maxConnectionsPerIp ←
    withDefault base.maxConnectionsPerIp readUsize (field "max_connections_per_ip")
  let maxInFlightRequests ←
    withDefault base.maxInFlightRequests readUsize (field "max_in_flight_requests")
  let maxInFlightRequestsPerIp ←
    withDefault base.maxInFlightRequestsPerIp readUsize (field "max_in_flight_requests_per_ip")
  let maxTrackedIps ← withDefault base.maxTrackedIps readUsize (field "max_tracked_ips")
  return {
    perIpRps, perIpBurst, ipv4PrefixLen, ipv6PrefixLen, globalRps, globalBurst, trustedProxyRps,
    trustedProxyBurst, trustedProxyMaxInFlightRequests, signatureRps, signatureBurst,
    maxTrackedSignatures, pathShapeRps, pathShapeBurst, maxTrackedPathShapes,
    perIpConnectsPerSecond, perIpConnectBurst, globalConnectsPerSecond, globalConnectBurst,
    maxConnections, maxConnectionsPerIp, maxInFlightRequests, maxInFlightRequestsPerIp,
    maxTrackedIps }

def httpConfigFields : List String :=
  ["listen", "upstream", "preserve_host", "admin_path_prefix", "admin_token", "allowed_methods",
    "allow_method_override_headers", "require_host_header", "max_host_bytes", "allowed_hosts",
    "listen_backlog", "accept_shards", "max_header_bytes", "max_header_line_bytes", "max_headers",
    "max_uri_bytes", "max_query_bytes", "max_query_pairs", "max_path_segments",
    "header_read_timeout_ms", "downstream_keep_alive", "downstream_write_timeout_ms",
    "upstream_timeout_ms", "upstream_connect_timeout_ms", "upstream_failure_threshold",
    "upstream_failure_open_ms", "upstream_pool_idle_timeout_ms",
    "upstream_pool_max_idle_per_host", "upstream_max_header_bytes",
    "upstream_max_header_line_bytes", "upstream_max_headers", "upstream_body_idle_timeout_ms",
    "max_upstream_body_bytes", "upstream_body_min_rate_bytes_per_second",
    "upstream_body_min_rate_grace_ms", "max_connection_duration_seconds",
    "max_requests_per_connection", "max_body_bytes", "request_body_idle_timeout_ms",
    "request_body_min_rate_bytes_per_second", "request_body_min_rate_grace_ms",
    "allow_compressed_request_bodies", "allow_chunked_request_bodies", "allow_expect_continue",
    "max_ranges", "forward_accept_encoding", "forward_request_trailers", "max_trailer_bytes",
    "max_trailers", "forward_response_trailers", "upstream_max_trailer_bytes",
    "upstream_max_trailers", "client_ip", "limits"]

def HttpConfig.ofJson (v : PyValue Double) : Option HttpConfig := do
  let field ← recordFields httpConfigFields v
  let listen ← required readText (field "listen")
  let upstream ← required readText (field "upstream")
  let preserveHost ← withDefault true readBool (field "preserve_host")
  let adminPathPrefix ← withDefault "/__altura" readText (field "admin_path_prefix")
  let adminToken ← withDefault none (readOption readText) (field "admin_token")
  let allowedMethods ←
    withDefault defaultHttpAllowedMethods (readList readText) (field "allowed_methods")
  let allowMethodOverrideHeaders ←
    withDefault false readBool (field "allow_method_override_headers")
  let requireHostHeader ← withDefault true readBool (field "require_host_header")
  let maxHostBytes ← withDefault 255 readUsize (field "max_host_bytes")
  let allowedHosts ← withDefault [] (readList readText) (field "allowed_hosts")
  let listenBacklog ← withDefault 4096 readU32 (field "listen_backlog")
  let acceptShards ← withDefault 1 readUsize (field "accept_shards")
  let maxHeaderBytes ← withDefault (32 * 1024) readUsize (field "max_header_bytes")
  let maxHeaderLineBytes ← withDefault (8 * 1024) readUsize (field "max_header_line_bytes")
  let maxHeaders ← withDefault 100 readUsize (field "max_headers")
  let maxUriBytes ← withDefault (8 * 1024) readUsize (field "max_uri_bytes")
  let maxQueryBytes ← withDefault (4 * 1024) readUsize (field "max_query_bytes")
  let maxQueryPairs ← withDefault 128 readUsize (field "max_query_pairs")
  let maxPathSegments ← withDefault 64 readUsize (field "max_path_segments")
  let headerReadTimeoutMs ← withDefault 5000 readU64 (field "header_read_timeout_ms")
  let downstreamKeepAlive ← withDefault false readBool (field "downstream_keep_alive")
  let downstreamWriteTimeoutMs ← withDefault 15000 readU64 (field "downstream_write_timeout_ms")
  let upstreamTimeoutMs ← withDefault 15000 readU64 (field "upstream_timeout_ms")
  let upstreamConnectTimeoutMs ← withDefault 1000 readU64 (field "upstream_connect_timeout_ms")
  let upstreamFailureThreshold ← withDefault 8 readU32 (field "upstream_failure_threshold")
  let upstreamFailureOpenMs ← withDefault 1000 readU64 (field "upstream_failure_open_ms")
  let upstreamPoolIdleTimeoutMs ← withDefault 30000 readU64 (field "upstream_pool_idle_timeout_ms")
  let upstreamPoolMaxIdlePerHost ←
    withDefault 256 readUsize (field "upstream_pool_max_idle_per_host")
  let upstreamMaxHeaderBytes ← withDefault (32 * 1024) readUsize (field "upstream_max_header_bytes")
  let upstreamMaxHeaderLineBytes ←
    withDefault (8 * 1024) readUsize (field "upstream_max_header_line_bytes")
  let upstreamMaxHeaders ← withDefault 100 readUsize (field "upstream_max_headers")
  let upstreamBodyIdleTimeoutMs ← withDefault 15000 readU64 (field "upstream_body_idle_timeout_ms")
  let maxUpstreamBodyBytes ←
    withDefault (100 * 1024 * 1024) readU64 (field "max_upstream_body_bytes")
  let upstreamBodyMinRateBytesPerSecond ←
    withDefault 512 readU64 (field "upstream_body_min_rate_bytes_per_second")
  let upstreamBodyMinRateGraceMs ←
    withDefault 10000 readU64 (field "upstream_body_min_rate_grace_ms")
  let maxConnectionDurationSeconds ←
    withDefault 120 readU64 (field "max_connection_duration_seconds")
  let maxRequestsPerConnection ← withDefault 1000 readU64 (field "max_requests_per_connection")
  let maxBodyBytes ← withDefault (10 * 1024 * 1024) readU64 (field "max_body_bytes")
  let requestBodyIdleTimeoutMs ← withDefault 10000 readU64 (field "request_body_idle_timeout_ms")
  let requestBodyMinRateBytesPerSecond ←
    withDefault 512 readU64 (field "request_body_min_rate_bytes_per_second")
  let requestBodyMinRateGraceMs ← withDefault 10000 readU64 (field "request_body_min_rate_grace_ms")
  let allowCompressedRequestBodies ←
    withDefault false readBool (field "allow_compressed_request_bodies")
  let allowChunkedRequestBodies ← withDefault false readBool (field "allow_chunked_request_bodies")
  let allowExpectContinue ← withDefault false readBool (field "allow_expect_continue")
  let maxRanges ← withDefault 1 readUsize (field "max_ranges")
  let forwardAcceptEncoding ← withDefault false readBool (field "forward_accept_encoding")
  let forwardRequestTrailers ← withDefault false readBool (field "forward_request_trailers")
  let maxTrailerBytes ← withDefault (8 * 1024) readUsize (field "max_trailer_bytes")
  let maxTrailers ← withDefault 32 readUsize (field "max_trailers")
  let forwardResponseTrailers ← withDefault false readBool (field "forward_response_trailers")
  let upstreamMaxTrailerBytes ←
    withDefault (8 * 1024) readUsize (field "upstream_max_trailer_bytes")
  let upstreamMaxTrailers ← withDefault 32 readUsize (field "upstream_max_trailers")
  let clientIp ← withDefault defaultClientIpConfig readClientIpConfig (field "client_ip")
  let limits ← withDefault {} readHttpLimitConfig (field "limits")
  return {
    listen, upstream, preserveHost, adminPathPrefix, adminToken, allowedMethods,
    allowMethodOverrideHeaders, requireHostHeader, maxHostBytes, allowedHosts, listenBacklog,
    acceptShards, maxHeaderBytes, maxHeaderLineBytes, maxHeaders, maxUriBytes, maxQueryBytes,
    maxQueryPairs, maxPathSegments, headerReadTimeoutMs, downstreamKeepAlive,
    downstreamWriteTimeoutMs, upstreamTimeoutMs, upstreamConnectTimeoutMs,
    upstreamFailureThreshold, upstreamFailureOpenMs, upstreamPoolIdleTimeoutMs,
    upstreamPoolMaxIdlePerHost, upstreamMaxHeaderBytes, upstreamMaxHeaderLineBytes,
    upstreamMaxHeaders, upstreamBodyIdleTimeoutMs, maxUpstreamBodyBytes,
    upstreamBodyMinRateBytesPerSecond, upstreamBodyMinRateGraceMs, maxConnectionDurationSeconds,
    maxRequestsPerConnection, maxBodyBytes, requestBodyIdleTimeoutMs,
    requestBodyMinRateBytesPerSecond, requestBodyMinRateGraceMs, allowCompressedRequestBodies,
    allowChunkedRequestBodies, allowExpectContinue, maxRanges, forwardAcceptEncoding,
    forwardRequestTrailers, maxTrailerBytes, maxTrailers, forwardResponseTrailers,
    upstreamMaxTrailerBytes, upstreamMaxTrailers, clientIp, limits }

def tcpLimitConfigFields : List String :=
  ["per_ip_connects_per_second", "per_ip_connect_burst", "ipv4_prefix_len", "ipv6_prefix_len",
    "global_connects_per_second", "global_connect_burst", "max_connections",
    "max_connections_per_ip", "max_tracked_ips"]

def readTcpLimitConfig (v : PyValue Double) : Option TcpLimitConfig := do
  let field ← recordFields tcpLimitConfigFields v
  let base : TcpLimitConfig := {}
  let perIpConnectsPerSecond ←
    withDefault base.perIpConnectsPerSecond readF64 (field "per_ip_connects_per_second")
  let perIpConnectBurst ← withDefault base.perIpConnectBurst readU32 (field "per_ip_connect_burst")
  let ipv4PrefixLen ← withDefault base.ipv4PrefixLen readU8 (field "ipv4_prefix_len")
  let ipv6PrefixLen ← withDefault base.ipv6PrefixLen readU8 (field "ipv6_prefix_len")
  let globalConnectsPerSecond ←
    withDefault base.globalConnectsPerSecond readF64 (field "global_connects_per_second")
  let globalConnectBurst ←
    withDefault base.globalConnectBurst readU32 (field "global_connect_burst")
  let maxConnections ← withDefault base.maxConnections readUsize (field "max_connections")
  let maxConnectionsPerIp ←
    withDefault base.maxConnectionsPerIp readUsize (field "max_connections_per_ip")
  let maxTrackedIps ← withDefault base.maxTrackedIps readUsize (field "max_tracked_ips")
  return {
    perIpConnectsPerSecond, perIpConnectBurst, ipv4PrefixLen, ipv6PrefixLen,
    globalConnectsPerSecond, globalConnectBurst, maxConnections, maxConnectionsPerIp,
    maxTrackedIps }

def tcpProxyConfigFields : List String :=
  ["name", "listen", "upstream", "listen_backlog", "accept_shards", "connect_timeout_ms",
    "idle_timeout_seconds", "downstream_min_rate_bytes_per_second",
    "upstream_min_rate_bytes_per_second", "min_rate_grace_ms", "max_connection_duration_seconds",
    "limits"]

def TcpProxyConfig.ofJson (v : PyValue Double) : Option TcpProxyConfig := do
  let field ← recordFields tcpProxyConfigFields v
  let name ← required readText (field "name")
  let listen ← required readText (field "listen")
  let upstream ← required readText (field "upstream")
  let listenBacklog ← withDefault 4096 readU32 (field "listen_backlog")
  let acceptShards ← withDefault 1 readUsize (field "accept_shards")
  let connectTimeoutMs ← withDefault 1000 readU64 (field "connect_timeout_ms")
  let idleTimeoutSeconds ← withDefault 60 readU64 (field "idle_timeout_seconds")
  let downstreamMinRateBytesPerSecond ←
    withDefault 512 readU64 (field "downstream_min_rate_bytes_per_second")
  let upstreamMinRateBytesPerSecond ←
    withDefault 512 readU64 (field "upstream_min_rate_bytes_per_second")
  let minRateGraceMs ← withDefault 10000 readU64 (field "min_rate_grace_ms")
  let maxConnectionDurationSeconds ←
    withDefault 300 readU64 (field "max_connection_duration_seconds")
  let limits ← withDefault {} readTcpLimitConfig (field "limits")
  return {
    name, listen, upstream, listenBacklog, acceptShards, connectTimeoutMs, idleTimeoutSeconds,
    downstreamMinRateBytesPerSecond, upstreamMinRateBytesPerSecond, minRateGraceMs,
    maxConnectionDurationSeconds, limits }

def filterConfigFields : List String :=
  ["runtime_file", "reload_seconds", "max_runtime_file_bytes", "max_runtime_filters",
    "max_static_filters", "static_rules"]

def FilterConfig.ofJson (v : PyValue Double) : Option FilterConfig := do
  let field ← recordFields filterConfigFields v
  let base : FilterConfig := {}
  let runtimeFile ← withDefault base.runtimeFile readText (field "runtime_file")
  let reloadSeconds ← withDefault base.reloadSeconds readU64 (field "reload_seconds")
  let maxRuntimeFileBytes ←
    withDefault base.maxRuntimeFileBytes readU64 (field "max_runtime_file_bytes")
  let maxRuntimeFilters ← withDefault base.maxRuntimeFilters readUsize (field "max_runtime_filters")
  let maxStaticFilters ← withDefault base.maxStaticFilters readUsize (field "max_static_filters")
  let staticRules ← withDefault base.staticRules (readList FilterRule.ofJson) (field "static_rules")
  return {
    runtimeFile, reloadSeconds, maxRuntimeFileBytes, maxRuntimeFilters, maxStaticFilters,
    staticRules }

def adaptiveConfigFields : List String :=
  ["enabled", "signature_threshold_per_second", "activation_ttl_seconds", "event_log",
    "event_log_flush_interval_ms", "event_log_max_bytes", "event_log_backup_count",
    "event_log_queue_capacity", "event_cooldown_seconds", "max_signature_windows",
    "max_path_shape_windows"]

def AdaptiveConfig.ofJson (v : PyValue Double) : Option AdaptiveConfig := do
  let field ← recordFields adaptiveConfigFields v
  let base : AdaptiveConfig := {}
  let enabled ← withDefault base.enabled readBool (field "enabled")
  let signatureThresholdPerSecond ←
    withDefault base.signatureThresholdPerSecond readU64 (field "signature_threshold_per_second")
  let activationTtlSeconds ←
    withDefault base.activationTtlSeconds readU64 (field "activation_ttl_seconds")
  let eventLog ← withDefault base.eventLog readText (field "event_log")
  let eventLogFlushIntervalMs ←
    withDefault base.eventLogFlushIntervalMs readU64 (field "event_log_flush_interval_ms")
  let eventLogMaxBytes ← withDefault base.eventLogMaxBytes readU64 (field "event_log_max_bytes")
  let eventLogBackupCount ←
    withDefault base.eventLogBackupCount readU32 (field "event_log_backup_count")
  let eventLogQueueCapacity ←
    withDefault base.eventLogQueueCapacity readUsize (field "event_log_queue_capacity")
  let eventCooldownSeconds ←
    withDefault base.eventCooldownSeconds readU64 (field "event_cooldown_seconds")
  let maxSignatureWindows ←
    withDefault base.maxSignatureWindows readUsize (field "max_signature_windows")
  let maxPathShapeWindows ←
    withDefault base.maxPathShapeWindows readUsize (field "max_path_shape_windows")
  return {
    enabled, signatureThresholdPerSecond, activationTtlSeconds, eventLog, eventLogFlushIntervalMs,
    eventLogMaxBytes, eventLogBackupCount, eventLogQueueCapacity, eventCooldownSeconds,
    maxSignatureWindows, maxPathShapeWindows }

def appConfigFields : List String := ["runtime", "http", "tcp", "filters", "adaptive"]

def AppConfig.ofJson (v : PyValue Double) : Option AppConfig := do
  let field ← recordFields appConfigFields v
  let runtime ← withDefault {} RuntimeConfig.ofJson (field "runtime")
  let http ← withDefault none (readOption HttpConfig.ofJson) (field "http")
  let tcp ← withDefault [] (readList TcpProxyConfig.ofJson) (field "tcp")
  let filters ← withDefault {} FilterConfig.ofJson (field "filters")
  let adaptive ← withDefault {} AdaptiveConfig.ofJson (field "adaptive")
  return { runtime, http, tcp, filters, adaptive }

/-! ## What was read

A record is read field by field; the fields that later results use are taken out
of the sequence here. -/

variable {v : PyValue Double}

theorem RuntimeConfig.ofJson_eq_some {cfg : RuntimeConfig} (h : RuntimeConfig.ofJson v = some cfg) :
    ∃ field, recordFields runtimeConfigFields v = some field ∧
      withDefault 0 readU64 (field "min_nofile") = some cfg.minNofile ∧
      withDefault DEFAULT_RUNTIME_SHUTDOWN_GRACE_MS readU64 (field "shutdown_grace_ms") =
        some cfg.shutdownGraceMs := by
  obtain ⟨field, hfield, h⟩ := Option.bind_eq_some_iff.mp h
  obtain ⟨_, hnofile, h⟩ := Option.bind_eq_some_iff.mp h
  obtain ⟨_, hgrace, h⟩ := Option.bind_eq_some_iff.mp h
  obtain rfl := Option.some.inj h
  exact ⟨field, hfield, hnofile, hgrace⟩

theorem readHttpLimitConfig_eq_some {cfg : HttpLimitConfig} (h : readHttpLimitConfig v = some cfg) :
    ∃ field, recordFields httpLimitConfigFields v = some field ∧
      withDefault 10000 readUsize (field "max_connections") = some cfg.maxConnections ∧
      withDefault 8192 readUsize (field "max_in_flight_requests") =
        some cfg.maxInFlightRequests := by
  obtain ⟨field, hfield, h⟩ := Option.bind_eq_some_iff.mp h
  iterate 19 obtain ⟨_, -, h⟩ := Option.bind_eq_some_iff.mp h
  obtain ⟨_, hconnections, h⟩ := Option.bind_eq_some_iff.mp h
  obtain ⟨_, -, h⟩ := Option.bind_eq_some_iff.mp h
  obtain ⟨_, hflight, h⟩ := Option.bind_eq_some_iff.mp h
  iterate 2 obtain ⟨_, -, h⟩ := Option.bind_eq_some_iff.mp h
  obtain rfl := Option.some.inj h
  exact ⟨field, hfield, hconnections, hflight⟩

theorem HttpConfig.ofJson_eq_some {cfg : HttpConfig} (h : HttpConfig.ofJson v = some cfg) :
    ∃ field, recordFields httpConfigFields v = some field ∧
      withDefault 1 readUsize (field "accept_shards") = some cfg.acceptShards ∧
      withDefault 256 readUsize (field "upstream_pool_max_idle_per_host") =
        some cfg.upstreamPoolMaxIdlePerHost ∧
      withDefault {} readHttpLimitConfig (field "limits") = some cfg.limits := by
  obtain ⟨field, hfield, h⟩ := Option.bind_eq_some_iff.mp h
  iterate 11 obtain ⟨_, -, h⟩ := Option.bind_eq_some_iff.mp h
  obtain ⟨_, hshards, h⟩ := Option.bind_eq_some_iff.mp h
  iterate 15 obtain ⟨_, -, h⟩ := Option.bind_eq_some_iff.mp h
  obtain ⟨_, hpool, h⟩ := Option.bind_eq_some_iff.mp h
  iterate 25 obtain ⟨_, -, h⟩ := Option.bind_eq_some_iff.mp h
  obtain ⟨_, hlimits, h⟩ := Option.bind_eq_some_iff.mp h
  obtain rfl := Option.some.inj h
  exact ⟨field, hfield, hshards, hpool, hlimits⟩

theorem readTcpLimitConfig_eq_some {cfg : TcpLimitConfig} (h : readTcpLimitConfig v = some cfg) :
    ∃ field, recordFields tcpLimitConfigFields v = some field ∧
      withDefault 10000 readUsize (field "max_connections") = some cfg.maxConnections := by
  obtain ⟨field, hfield, h⟩ := Option.bind_eq_some_iff.mp h
  iterate 6 obtain ⟨_, -, h⟩ := Option.bind_eq_some_iff.mp h
  obtain ⟨_, hconnections, h⟩ := Option.bind_eq_some_iff.mp h
  iterate 2 obtain ⟨_, -, h⟩ := Option.bind_eq_some_iff.mp h
  obtain rfl := Option.some.inj h
  exact ⟨field, hfield, hconnections⟩

theorem TcpProxyConfig.ofJson_eq_some {cfg : TcpProxyConfig}
    (h : TcpProxyConfig.ofJson v = some cfg) :
    ∃ field, recordFields tcpProxyConfigFields v = some field ∧
      withDefault 1 readUsize (field "accept_shards") = some cfg.acceptShards ∧
      withDefault {} readTcpLimitConfig (field "limits") = some cfg.limits := by
  obtain ⟨field, hfield, h⟩ := Option.bind_eq_some_iff.mp h
  iterate 4 obtain ⟨_, -, h⟩ := Option.bind_eq_some_iff.mp h
  obtain ⟨_, hshards, h⟩ := Option.bind_eq_some_iff.mp h
  iterate 6 obtain ⟨_, -, h⟩ := Option.bind_eq_some_iff.mp h
  obtain ⟨_, hlimits, h⟩ := Option.bind_eq_some_iff.mp h
  obtain rfl := Option.some.inj h
  exact ⟨field, hfield, hshards, hlimits⟩

theorem AppConfig.ofJson_eq_some {cfg : AppConfig} (h : AppConfig.ofJson v = some cfg) :
    ∃ field, recordFields appConfigFields v = some field ∧
      withDefault {} RuntimeConfig.ofJson (field "runtime") = some cfg.runtime ∧
      withDefault none (readOption HttpConfig.ofJson) (field "http") = some cfg.http ∧
      withDefault [] (readList TcpProxyConfig.ofJson) (field "tcp") = some cfg.tcp := by
  obtain ⟨field, hfield, h⟩ := Option.bind_eq_some_iff.mp h
  obtain ⟨_, hruntime, h⟩ := Option.bind_eq_some_iff.mp h
  obtain ⟨_, hhttp, h⟩ := Option.bind_eq_some_iff.mp h
  obtain ⟨_, htcp, h⟩ := Option.bind_eq_some_iff.mp h
  iterate 2 obtain ⟨_, -, h⟩ := Option.bind_eq_some_iff.mp h
  obtain rfl := Option.some.inj h
  exact ⟨field, hfield, hruntime, hhttp, htcp⟩

end AlturaProt.Config
