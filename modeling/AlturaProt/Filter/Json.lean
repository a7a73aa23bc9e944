import AlturaProt.Filter.Rule
import AlturaProt.Foundation.Records

/-!
# Reading filters from JSON

The derived `Deserialize` instances of the types in `src/filter.rs`. A file that
one rule of which cannot be read is not read at all.
-/

namespace AlturaProt.Filter

open Foundation Python

variable {F : Type}

def HeaderContains.ofJson (v : PyValue F) : Option HeaderContains := do
  let field ← recordFields ["name", "contains"] v
  let name ← required readStr (field "name")
  let contains ← required readStr (field "contains")
  return ⟨name, contains⟩

def FilterCondition.ofJson (v : PyValue F) : Option FilterCondition := do
  let field ← recordFields ["methods", "path_exact", "path_prefix", "path_contains",
    "query_contains", "path_shape", "user_agent_contains", "headers", "signature"] v
  let methods ← withDefault [] (readList readStr) (field "methods")
  let pathExact ← withDefault none (readOption readStr) (field "path_exact")
  let pathPrefix ← withDefault none (readOption readStr) (field "path_prefix")
  let pathContains ← withDefault none (readOption readStr) (field "path_contains")
  let queryContains ← withDefault none (readOption readStr) (field "query_contains")
  let pathShape ← withDefault none (readOption readStr) (field "path_shape")
  let userAgentContains ← withDefault none (readOption readStr) (field "user_agent_contains")
  let headers ← withDefault [] (readList HeaderContains.ofJson) (field "headers")
  let signature ← withDefault none (readOption readStr) (field "signature")
  return ⟨methods, pathExact, pathPrefix, pathContains, queryContains, pathShape,
    userAgentContains, headers, signature⟩

def FilterAction.ofJson (v : PyValue F) : Option FilterAction := do
  let field ← recordFields ["kind", "status", "body"] v
  let kind ← withDefault (utf8 "block") readStr (field "kind")
  let status ← withDefault 403 (readUnsigned 16) (field "status")
  let body ← withDefault (utf8 "blocked\n") readStr (field "body")
  return ⟨kind, status, body⟩

def FilterRule.ofJson (v : PyValue F) : Option FilterRule := do
  let field ← recordFields ["id", "enabled", "adaptive", "priority", "ttl_seconds",
    "expires_at_unix_ms", "condition", "action"] v
  let id ← required readStr (field "id")
  let enabled ← withDefault true readBool (field "enabled")
  let adaptive ← withDefault false readBool (field "adaptive")
  let priority ← withDefault 0 (readUnsigned 32) (field "priority")
  let ttlSeconds ← withDefault none (readOption (readUnsigned 64)) (field "ttl_seconds")
  let expiresAtUnixMs ←
    withDefault none (readOption (readUnsigned 64)) (field "expires_at_unix_ms")
  let condition ← withDefault {} FilterCondition.ofJson (field "condition")
  let action ← withDefault {} FilterAction.ofJson (field "action")
  return ⟨id, enabled, adaptive, priority, ttlSeconds, expiresAtUnixMs, condition, action⟩

def FilterFile.ofJson (v : PyValue F) : Option FilterFile := do
  let field ← recordFields ["filters"] v
  let filters ← withDefault [] (readList FilterRule.ofJson) (field "filters")
  return ⟨filters⟩

end AlturaProt.Filter
