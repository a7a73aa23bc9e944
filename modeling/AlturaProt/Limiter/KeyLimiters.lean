import AlturaProt.Limiter.Limiters

/-!
# The limiters keyed by text

`KeyRateLimiter` (the signature and the path-shape limiter are two of them) and
`ShortTokenSiblingRateLimiter` keep one bucket per key in sharded maps. One
call is one lock section: a visit to the key's shard.
-/

namespace AlturaProt.Limiter

open Foundation

/-- A sharded map keyed by text. -/
abbrev KeyShards (T : Type) : Type := Shards SHARDS Str T

/-- A key that could not be tracked is not allowed. -/
def allowed : Option (Bool × Bool) → Bool
  | none => false
  | some (ok, _) => ok

/-! ## One bucket per key -/

structure KeyRateLimiter where
  rps : ℚ
  burst : ℕ
  maxTrackedKeys : ℕ

namespace KeyRateLimiter

def new (rps : ℚ) (burst maxTrackedKeys : ℕ) : KeyRateLimiter where
  rps := rps
  burst := burst
  maxTrackedKeys := max maxTrackedKeys 1

def fresh (l : KeyRateLimiter) (now : Instant) : KeyBucket where
  bucket := TokenBucket.new l.rps l.burst now
  lastSeen := now

def serve (now : Instant) (entry : KeyBucket) : KeyBucket × Bool :=
  (⟨(entry.bucket.allow now 1).1, now⟩, (entry.bucket.allow now 1).2)

/-- The lock section of a check. -/
def visit (l : KeyRateLimiter) (hash : Str → ℕ) (now : Instant) (key : Str)
    (shards : KeyShards KeyBucket) : KeyShards KeyBucket × Option (Bool × Bool) :=
  shards.visit (hashedShard hash) (fun q => ensureKeyShardCapacity q l.maxTrackedKeys now)
    (l.fresh now) (serve now) key

def check (l : KeyRateLimiter) (hash : Str → ℕ) (shards : KeyShards KeyBucket)
    (key : Str) (now : Instant) : KeyShards KeyBucket × Bool :=
  if l.rps ≤ 0 then (shards, true)
  else
    let visited := l.visit hash now key shards
    (visited.1, allowed visited.2)

end KeyRateLimiter

namespace SignatureRateLimiter

def new (cfg : HttpLimitConfig) : KeyRateLimiter :=
  KeyRateLimiter.new cfg.signatureRps cfg.signatureBurst cfg.maxTrackedSignatures

end SignatureRateLimiter

namespace PathShapeRateLimiter

def new (cfg : HttpLimitConfig) : KeyRateLimiter :=
  KeyRateLimiter.new cfg.pathShapeRps cfg.pathShapeBurst cfg.maxTrackedPathShapes

end PathShapeRateLimiter

/-! ## Short tokens under one parent path -/

structure ShortTokenSiblingRateLimiter where
  rps : ℚ
  burst : ℕ
  maxTrackedParents : ℕ

namespace ShortTokenSiblingRateLimiter

def new (cfg : HttpLimitConfig) : ShortTokenSiblingRateLimiter where
  rps := cfg.pathShapeRps
  burst := cfg.pathShapeBurst
  maxTrackedParents := max cfg.maxTrackedPathShapes 1

def fresh (l : ShortTokenSiblingRateLimiter) (now : Instant) : ShortTokenSiblingEntry where
  bucket := TokenBucket.new l.rps l.burst now
  distinctTokens := ∅
  tokenOrder := []
  lastSeen := now

/-- Forget the oldest tokens while there are too many. -/
def trim (distinct : Finset Str) : List Str → Finset Str × List Str
  | [] => (distinct, [])
  | oldest :: rest =>
    if SHORT_TOKEN_SIBLING_DISTINCT_CAP < distinct.card then
      trim (distinct.erase oldest) rest
    else (distinct, oldest :: rest)

/-- Add a token to the recent distinct ones of an entry. -/
def remember (token : Str) (entry : ShortTokenSiblingEntry) : ShortTokenSiblingEntry :=
  if token ∈ entry.distinctTokens then entry
  else
    let kept := trim (insert token entry.distinctTokens) (entry.tokenOrder ++ [token])
    { entry with distinctTokens := kept.1, tokenOrder := kept.2 }

/-- A parent with few distinct tokens passes even without budget. -/
def serve (now : Instant) (token : Str) (entry : ShortTokenSiblingEntry) :
    ShortTokenSiblingEntry × Bool :=
  let seen := remember token { entry with lastSeen := now }
  let spent := entry.bucket.allow now 1
  ({ seen with bucket := spent.1 },
    spent.2 || decide (seen.distinctTokens.card < SHORT_TOKEN_SIBLING_DISTINCT_THRESHOLD))

/-- The lock section of a check. -/
def visit (l : ShortTokenSiblingRateLimiter) (hash : Str → ℕ) (now : Instant)
    (parentShape token : Str) (shards : KeyShards ShortTokenSiblingEntry) :
    KeyShards ShortTokenSiblingEntry × Option (Bool × Bool) :=
  shards.visit (hashedShard hash)
    (fun q => ensureShortTokenParentShardCapacity q l.maxTrackedParents now)
    (l.fresh now) (serve now token) parentShape

def check (l : ShortTokenSiblingRateLimiter) (hash : Str → ℕ)
    (shards : KeyShards ShortTokenSiblingEntry) (parentShape token : Str)
    (now : Instant) : KeyShards ShortTokenSiblingEntry × Bool :=
  if l.rps ≤ 0 then (shards, true)
  else
    let visited := l.visit hash now parentShape token shards
    (visited.1, allowed visited.2)

@[simp] theorem remember_bucket (token : Str) (entry : ShortTokenSiblingEntry) :
    (remember token entry).bucket = entry.bucket := by
  unfold remember
  split <;> rfl

end ShortTokenSiblingRateLimiter

end AlturaProt.Limiter
