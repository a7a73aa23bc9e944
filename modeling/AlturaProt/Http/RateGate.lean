import AlturaProt.Foundation.Stages
import AlturaProt.Limiter.AdmissionBound

/-!
# The request-rate checks of `handle_http`

A request passes five rate dimensions one after the other: its signature, its
path shape, the short-token siblings of its path, its client (together with the
global bucket), and the trusted proxy it came through. Every dimension takes
its tokens when it admits, so a denial further down does not find them all in
place: `two_phase_admission_iff` says when it does.
-/

namespace AlturaProt.Http

open Foundation Limiter

/-! ## The five dimensions -/

/-- The rate dimensions of a request. -/
inductive Dimension where
  | signature
  | pathShape
  | shortTokenSibling
  | client
  | trustedProxy
deriving DecidableEq

/-- The limiters of the dimensions, as `HttpProxyState` holds them. -/
structure RateLimiters where
  signatureLimiter : KeyRateLimiter
  pathShapeLimiter : KeyRateLimiter
  shortTokenSiblingLimiter : ShortTokenSiblingRateLimiter
  limiter : RateLimiter
  trustedProxyLimiter : RateLimiter

def RateLimiters.new (cfg : HttpLimitConfig) : RateLimiters where
  signatureLimiter := SignatureRateLimiter.new cfg
  pathShapeLimiter := PathShapeRateLimiter.new cfg
  shortTokenSiblingLimiter := ShortTokenSiblingRateLimiter.new cfg
  limiter := RateLimiter.new cfg
  trustedProxyLimiter := RateLimiter.trustedProxyAggregate cfg

/-- What a dimension remembers. -/
abbrev Tracked : Dimension → Type
  | .signature => KeyShards KeyBucket
  | .pathShape => KeyShards KeyBucket
  | .shortTokenSibling => KeyShards ShortTokenSiblingEntry
  | .client => Shared IpBucket
  | .trustedProxy => Shared IpBucket

abbrev RateState : Type := ∀ d, Tracked d

def RateState.init (cfg : HttpLimitConfig) (now : Instant) : RateState
  | .signature => Shards.empty
  | .pathShape => Shards.empty
  | .shortTokenSibling => Shards.empty
  | .client => RateLimiter.init cfg now
  | .trustedProxy => RateLimiter.initTrustedProxyAggregate

/-- What the checks read of a request. -/
structure RateRequest where
  signature : Str
  pathShape : Str
  /-- parent shape and token, for a path that ends in a short token -/
  shortTokenParent : Option (Str × Str)
  clientIp : IpAddr
  peerIp : IpAddr

/-- The counters a refusal increments. -/
inductive RateStat where
  | httpRateLimited
  | httpSignatureRateLimited
  | httpPathShapeRateLimited
  | httpTrustedProxyRateLimited
deriving DecidableEq

/-- A `429`, with the counters it increments, the reason it reports to the
detector, and the path shape it reports it under if that is not the request's. -/
structure RateLimited where
  body : String
  stats : List RateStat
  reason : String
  observedShape : Option Str
deriving DecidableEq

/-- The hash functions that pick the shards. -/
structure Hashes where
  text : Str → ℕ
  ip : IpAddr → ℕ

def maybeSignatureRateLimitResponse (limiter : KeyRateLimiter) (h : Hashes)
    (s : KeyShards KeyBucket) (signature : Str) (now : Instant) :
    KeyShards KeyBucket × Option RateLimited :=
  let checked := limiter.check h.text s signature now
  if checked.2 then (checked.1, none)
  else (checked.1, some ⟨"signature rate limited\n",
    [.httpRateLimited, .httpSignatureRateLimited], "signature_rate_limited", none⟩)

def maybePathShapeRateLimitResponse (limiter : KeyRateLimiter) (h : Hashes)
    (s : KeyShards KeyBucket) (pathShape : Str) (now : Instant) :
    KeyShards KeyBucket × Option RateLimited :=
  let checked := limiter.check h.text s pathShape now
  if checked.2 then (checked.1, none)
  else (checked.1, some ⟨"path shape rate limited\n",
    [.httpRateLimited, .httpPathShapeRateLimited], "path_shape_rate_limited", some pathShape⟩)

/-- A path without a short token is not consulted about siblings. -/
def maybeShortTokenSiblingRateLimitResponse (limiter : ShortTokenSiblingRateLimiter)
    (h : Hashes) (s : KeyShards ShortTokenSiblingEntry)
    (shortTokenParent : Option (Str × Str)) (now : Instant) :
    KeyShards ShortTokenSiblingEntry × Option RateLimited :=
  match shortTokenParent with
  | none => (s, none)
  | some (parentShape, token) =>
    let checked := limiter.check h.text s parentShape token now
    if checked.2 then (checked.1, none)
    else (checked.1, some ⟨"path shape rate limited\n",
      [.httpRateLimited, .httpPathShapeRateLimited], "path_shape_rate_limited",
      some parentShape⟩)

def maybeRateLimitResponse (limiter : RateLimiter) (h : Hashes) (s : Shared IpBucket)
    (clientIp : IpAddr) (now : Instant) : Shared IpBucket × Option RateLimited :=
  let limit := limiter.check h.ip s clientIp now
  if limit.2.allowed then (limit.1, none)
  else (limit.1, some ⟨"rate limited\n", [.httpRateLimited],
    match limit.2.reason with
    | some .globalRate => "global_rate_limited"
    | some .perIpRate => "per_ip_rate_limited"
    | _ => "rate_limited", none⟩)

/-- A request straight from its client is not charged to a proxy. -/
def maybeTrustedProxyRateLimitResponse (limiter : RateLimiter) (h : Hashes)
    (s : Shared IpBucket) (clientIp peerIp : IpAddr) (now : Instant) :
    Shared IpBucket × Option RateLimited :=
  if clientIp = peerIp then (s, none)
  else
    let limit := limiter.check h.ip s peerIp now
    if limit.2.allowed then (limit.1, none)
    else (limit.1, some ⟨"trusted proxy rate limited\n",
      [.httpRateLimited, .httpTrustedProxyRateLimited], "trusted_proxy_rate_limited", none⟩)

/-- Consult one dimension; `clock` holds the time each of them reads. -/
def consult (ls : RateLimiters) (h : Hashes) (req : RateRequest)
    (clock : Dimension → Instant) : (d : Dimension) → Tracked d →
    Tracked d × Option RateLimited
  | .signature, s => maybeSignatureRateLimitResponse ls.signatureLimiter h s req.signature
      (clock .signature)
  | .pathShape, s => maybePathShapeRateLimitResponse ls.pathShapeLimiter h s req.pathShape
      (clock .pathShape)
  | .shortTokenSibling, s => maybeShortTokenSiblingRateLimitResponse
      ls.shortTokenSiblingLimiter h s req.shortTokenParent (clock .shortTokenSibling)
  | .client, s => maybeRateLimitResponse ls.limiter h s req.clientIp (clock .client)
  | .trustedProxy, s => maybeTrustedProxyRateLimitResponse ls.trustedProxyLimiter h s
      req.clientIp req.peerIp (clock .trustedProxy)

/-- The order in which `handle_http` consults the dimensions for a request that
is not for an admin endpoint. -/
def requestOrder : List Dimension :=
  [.signature, .pathShape, .shortTokenSibling, .client, .trustedProxy]

/-- The order for a request to an admin endpoint. -/
def adminOrder : List Dimension :=
  [.client, .trustedProxy, .signature, .pathShape, .shortTokenSibling]

/-- The rate checks of one request. -/
def checkRates (ls : RateLimiters) (h : Hashes) (order : List Dimension)
    (req : RateRequest) (clock : Dimension → Instant) (s : RateState) :
    RateState × Option (Dimension × RateLimited) :=
  runStages (consult ls h req clock) order s

/-! ## Buckets that keep their tokens -/

/-- The bucket a key has afterwards, if it has one, shows no fewer tokens than
the key could count on before. -/
def BucketKeeps (burst : ℕ) (now : Instant) (o o' : Option TokenBucket) : Prop :=
  ∀ b' ∈ o', TokenBucket.levelOf burst o now ≤ b'.level now

theorem bucketKeeps_refl (burst : ℕ) (now : Instant) (o : Option TokenBucket) :
    BucketKeeps burst now o o := by
  rintro b' hb'
  rw [Option.mem_def.mp hb']
  exact le_rfl

/-- Serving a key costs its bucket exactly when it is granted. -/
theorem bucketKeeps_iff_of_served {rate slack : ℚ} {burst : ℕ} {now : Instant}
    {o o' : Option TokenBucket} {granted : Bool}
    (h : TokenBucket.Served rate burst slack now o o' granted) :
    BucketKeeps burst now o o' ↔ granted = false := by
  have hnew : ((TokenBucket.new rate burst now).consume 1).level now <
      TokenBucket.effectiveCapacity burst := by
    have hlevel := TokenBucket.level_consume_refill (TokenBucket.new rate burst now) now 1
    rw [TokenBucket.refill_new, TokenBucket.level_new] at hlevel
    linarith
  cases h with
  | same => exact iff_of_true (bucketKeeps_refl burst now o) rfl
  | @refilled b => exact iff_of_true (by simp [BucketKeeps, TokenBucket.levelOf]) rfl
  | opened => exact iff_of_true (by simp [BucketKeeps, TokenBucket.levelOf]) rfl
  | evicted _ => exact iff_of_true (by simp [BucketKeeps]) rfl
  | @spent b _ => simp [BucketKeeps, TokenBucket.levelOf]
  | openedSpent => simpa [BucketKeeps, TokenBucket.levelOf] using hnew

/-- The global bucket shows no fewer tokens than before. -/
def GlobalKeeps (now : Instant) (o o' : Option TokenBucket) : Prop :=
  ∀ b ∈ o, ∀ b' ∈ o', b.level now ≤ b'.level now

/-- The buckets of a text-keyed map keep their tokens. -/
def MapKeeps {T : Type} (view : T → TokenBucket) (burst : ℕ) (h : Hashes) (now : Instant)
    (s s' : KeyShards T) : Prop :=
  ∀ k, BucketKeeps burst now ((s.get (hashedShard h.text) k).map view)
    ((s'.get (hashedShard h.text) k).map view)

/-- The global bucket and the buckets of all clients keep their tokens. -/
def LimiterKeeps (l : RateLimiter) (h : Hashes) (now : Instant) (s s' : Shared IpBucket) :
    Prop :=
  GlobalKeeps now s.global s'.global ∧
    ∀ k, BucketKeeps l.perIpBurst now (((l.gate h.ip).entry s k).map IpBucket.bucket)
      (((l.gate h.ip).entry s' k).map IpBucket.bucket)

/-- Every bucket of a dimension keeps its tokens, seen at the time the
dimension is consulted. -/
def Keeps (ls : RateLimiters) (h : Hashes) (clock : Dimension → Instant) :
    (d : Dimension) → Tracked d → Tracked d → Prop
  | .signature => MapKeeps KeyBucket.bucket ls.signatureLimiter.burst h (clock .signature)
  | .pathShape => MapKeeps KeyBucket.bucket ls.pathShapeLimiter.burst h (clock .pathShape)
  | .shortTokenSibling => MapKeeps ShortTokenSiblingEntry.bucket
      ls.shortTokenSiblingLimiter.burst h (clock .shortTokenSibling)
  | .client => LimiterKeeps ls.limiter h (clock .client)
  | .trustedProxy => LimiterKeeps ls.trustedProxyLimiter h (clock .trustedProxy)

theorem keeps_refl (ls : RateLimiters) (h : Hashes) (clock : Dimension → Instant)
    (d : Dimension) (s : Tracked d) : Keeps ls h clock d s s := by
  have hglobal : ∀ (now : Instant) (o : Option TokenBucket), GlobalKeeps now o o := by
    intro now o b hb b' hb'
    rw [Option.mem_unique hb hb']
  cases d with
  | signature => exact fun k => bucketKeeps_refl _ _ _
  | pathShape => exact fun k => bucketKeeps_refl _ _ _
  | shortTokenSibling => exact fun k => bucketKeeps_refl _ _ _
  | client => exact ⟨hglobal _ _, fun k => bucketKeeps_refl _ _ _⟩
  | trustedProxy => exact ⟨hglobal _ _, fun k => bucketKeeps_refl _ _ _⟩

/-! ## What an admission costs -/

/-- An admission by the dimension takes a token. A limiter with no rate set
takes none, and the sibling limiter lets a parent with few distinct tokens pass
when its bucket is empty. -/
def Charges (ls : RateLimiters) (h : Hashes) (req : RateRequest)
    (clock : Dimension → Instant) : (d : Dimension) → Tracked d → Prop
  | .signature, _ => 0 < ls.signatureLimiter.rps
  | .pathShape, _ => 0 < ls.pathShapeLimiter.rps
  | .shortTokenSibling, s => 0 < ls.shortTokenSiblingLimiter.rps ∧
      ∃ parent ∈ req.shortTokenParent, 1 ≤ TokenBucket.levelOf
        ls.shortTokenSiblingLimiter.burst
        ((s.get (hashedShard h.text) parent.1).map ShortTokenSiblingEntry.bucket)
        (clock .shortTokenSibling)
  | .client, s => 0 < ls.limiter.perIpRps ∨ s.global.isSome = true
  | .trustedProxy, s => req.clientIp ≠ req.peerIp ∧
      (0 < ls.trustedProxyLimiter.perIpRps ∨ s.global.isSome = true)

variable {h : Hashes} {now : Instant}

theorem mapKeeps_check_iff {l : KeyRateLimiter} {s : KeyShards KeyBucket} {key : Str}
    (hok : (l.check h.text s key now).2 = true) :
    MapKeeps KeyBucket.bucket l.burst h now s (l.check h.text s key now).1 ↔ ¬ 0 < l.rps := by
  by_cases hrps : 0 < l.rps
  · refine iff_of_false (fun hkeeps => ?_) (not_not.mpr hrps)
    have hserved := l.served h.text key hrps s (key, now)
    have hgranted : l.admits h.text key s (key, now) = true := by
      simp [KeyRateLimiter.admits, hok]
    rw [hgranted] at hserved
    exact absurd ((bucketKeeps_iff_of_served hserved).mp (hkeeps key)) (by simp)
  · refine iff_of_true ?_ hrps
    rw [KeyRateLimiter.check, if_pos (not_lt.mp hrps)]
    exact fun k => bucketKeeps_refl _ _ _

/-- The sibling limiter's map; eviction goes by the time an entry was last seen,
so nothing is known of the bucket that goes with it. -/
theorem meteredMap_sibling (l : ShortTokenSiblingRateLimiter) (token : Str) (now : Instant) :
    MeteredMap ShortTokenSiblingEntry.bucket l.rps l.burst
      (TokenBucket.effectiveCapacity l.burst) now
      (fun q => ensureShortTokenParentShardCapacity q l.maxTrackedParents now)
      (parentIsStale now) (l.fresh now) (ShortTokenSiblingRateLimiter.serve now token) where
  reclaimed q := reclaimed_ensureByStale _ _ q
  fresh := rfl
  visited _ := rfl
  evicted _ _ hwf := le_add_of_nonneg_left (hwf.level_nonneg now)

theorem mapKeeps_sibling_iff {l : ShortTokenSiblingRateLimiter}
    {s : KeyShards ShortTokenSiblingEntry} {parent token : Str}
    (hok : (l.check h.text s parent token now).2 = true) :
    MapKeeps ShortTokenSiblingEntry.bucket l.burst h now s
        (l.check h.text s parent token now).1 ↔
      ¬ (0 < l.rps ∧ 1 ≤ TokenBucket.levelOf l.burst
        ((s.get (hashedShard h.text) parent).map ShortTokenSiblingEntry.bucket) now) := by
  by_cases hrps : 0 < l.rps
  · have hm := meteredMap_sibling l token now
    have hcheck : l.check h.text s parent token now =
        ((l.visit h.text now parent token s).1, allowed (l.visit h.text now parent token s).2) := by
      rw [ShortTokenSiblingRateLimiter.check, if_neg (not_le.mpr hrps)]
    rw [hcheck] at hok ⊢
    rcases hm.visit_self (hashedShard h.text) s parent with ⟨hr, -⟩ | ⟨e, hr, hlevel, hserved⟩
    · rw [ShortTokenSiblingRateLimiter.visit, hr] at hok
      cases hok
    · have hself := bucketKeeps_iff_of_served hserved
      have hallow : (e.bucket.allow now 1).2 = false ↔ ¬ 1 ≤ e.bucket.level now := by
        unfold TokenBucket.allow TokenBucket.level
        split <;> simp_all
      rw [hallow, hlevel] at hself
      constructor
      · intro hkeeps hcharge
        exact hself.mp (hkeeps parent) hcharge.2
      · intro hfree k
        by_cases hk : k = parent
        · subst hk
          exact hself.mpr (fun hone => hfree ⟨hrps, hone⟩)
        · exact (bucketKeeps_iff_of_served (hm.visit_of_ne (hashedShard h.text) s hk)).mpr rfl
  · refine iff_of_true ?_ (fun hcharge => hrps hcharge.1)
    rw [ShortTokenSiblingRateLimiter.check, if_pos (not_lt.mp hrps)]
    exact fun k => bucketKeeps_refl _ _ _

theorem limiterKeeps_check_iff {l : RateLimiter} {s : Shared IpBucket} {ip : IpAddr}
    (hok : (l.check h.ip s ip now).2.allowed = true) :
    LimiterKeeps l h now s (l.check h.ip s ip now).1 ↔
      ¬ (0 < l.perIpRps ∨ s.global.isSome = true) := by
  have hfst : (l.check h.ip s ip now).1 = ((l.gate h.ip).call s ip now).1 :=
    l.next_eq h.ip s (ip, now)
  have hcall : ((l.gate h.ip).call s ip now).2 = .ok ((l.gate h.ip).key ip) := by
    have hgrants := l.admits_eq h.ip ((l.gate h.ip).key ip) s (ip, now)
    simp only [RateLimiter.admits, hok, Gate.grants, decide_true, Bool.and_self] at hgrants
    exact of_decide_eq_true hgrants.symm
  have hglobal := Gate.call_ok_global hcall
  rw [hfst]
  by_cases hrps : 0 < l.perIpRps
  · refine iff_of_false (fun hkeeps => ?_) (not_not.mpr (Or.inl hrps))
    have hserved := l.served h.ip ((l.gate h.ip).key ip) hrps s (ip, now)
    have hgranted : l.admits h.ip ((l.gate h.ip).key ip) s (ip, now) = true := by
      simp [RateLimiter.admits, hok]
    rw [hgranted, RateLimiter.next_eq] at hserved
    exact absurd ((bucketKeeps_iff_of_served hserved).mp (hkeeps.2 _)) (by simp)
  · have hentries := Gate.entry_call_of_not_perKey
      (show (l.gate h.ip).perKey = false from decide_eq_false hrps) s ip now
    cases hg : s.global with
    | none =>
      refine iff_of_true ⟨?_, fun k => ?_⟩ (by simp [hrps])
      · simp [GlobalKeeps, hg]
      · rw [hentries k]
        exact bucketKeeps_refl _ _ _
    | some b =>
      refine iff_of_false (fun hkeeps => ?_) (by simp)
      have hlevel := hkeeps.1 b hg (Gate.spentAt now b) (by rw [hglobal, hg]; rfl)
      rw [Gate.spentAt, TokenBucket.level_consume_refill] at hlevel
      linarith

/-- **The cost of an admission.** A dimension that admits keeps all its tokens
exactly when it does not charge. -/
theorem keeps_consult_iff {ls : RateLimiters} {req : RateRequest}
    {clock : Dimension → Instant} {d : Dimension} {s : Tracked d}
    (hok : (consult ls h req clock d s).2 = none) :
    Keeps ls h clock d s (consult ls h req clock d s).1 ↔ ¬ Charges ls h req clock d s := by
  cases d with
  | signature =>
    change (maybeSignatureRateLimitResponse _ h s _ _).2 = none at hok
    show MapKeeps _ _ h _ s (maybeSignatureRateLimitResponse _ h s _ _).1 ↔ _
    unfold maybeSignatureRateLimitResponse at hok ⊢
    dsimp only at hok ⊢
    split at hok
    · rename_i hc
      rw [if_pos hc]
      exact mapKeeps_check_iff hc
    · cases hok
  | pathShape =>
    change (maybePathShapeRateLimitResponse _ h s _ _).2 = none at hok
    show MapKeeps _ _ h _ s (maybePathShapeRateLimitResponse _ h s _ _).1 ↔ _
    unfold maybePathShapeRateLimitResponse at hok ⊢
    dsimp only at hok ⊢
    split at hok
    · rename_i hc
      rw [if_pos hc]
      exact mapKeeps_check_iff hc
    · cases hok
  | shortTokenSibling =>
    change (maybeShortTokenSiblingRateLimitResponse _ h s _ _).2 = none at hok
    show MapKeeps _ _ h _ s (maybeShortTokenSiblingRateLimitResponse _ h s _ _).1 ↔
      ¬ (_ ∧ ∃ parent ∈ req.shortTokenParent, _)
    unfold maybeShortTokenSiblingRateLimitResponse at hok ⊢
    cases hp : req.shortTokenParent with
    | none => exact iff_of_true (fun k => bucketKeeps_refl _ _ _) (by simp)
    | some parent =>
      rw [hp] at hok
      dsimp only at hok ⊢
      split at hok
      · rename_i hc
        rw [if_pos hc]
        simpa using mapKeeps_sibling_iff hc
      · cases hok
  | client =>
    change (maybeRateLimitResponse _ h s _ _).2 = none at hok
    show LimiterKeeps _ h _ s (maybeRateLimitResponse _ h s _ _).1 ↔ _
    unfold maybeRateLimitResponse at hok ⊢
    dsimp only at hok ⊢
    split at hok
    · rename_i hc
      rw [if_pos hc]
      exact limiterKeeps_check_iff hc
    · cases hok
  | trustedProxy =>
    change (maybeTrustedProxyRateLimitResponse _ h s _ _ _).2 = none at hok
    show LimiterKeeps _ h _ s (maybeTrustedProxyRateLimitResponse _ h s _ _ _).1 ↔ ¬ (_ ≠ _ ∧ _)
    unfold maybeTrustedProxyRateLimitResponse at hok ⊢
    dsimp only at hok ⊢
    split
    · rename_i heq
      exact iff_of_true (keeps_refl ls h clock .trustedProxy s) (fun hc => hc.1 heq)
    · rename_i hne
      rw [if_neg hne] at hok
      split at hok
      · rename_i hc
        rw [if_pos hc]
        simpa [hne] using limiterKeeps_check_iff hc
      · cases hok

/-! ## A denied request -/

theorem keeps_checkRates_iff (ls : RateLimiters) (h : Hashes) {order : List Dimension}
    (hnodup : order.Nodup) (req : RateRequest) (clock : Dimension → Instant) (s : RateState)
    {d : Dimension} {r : RateLimited}
    (hden : (checkRates ls h order req clock s).2 = some (d, r)) :
    (∀ e, e ≠ d → Keeps ls h clock e (s e) ((checkRates ls h order req clock s).1 e)) ↔
      ∀ e ∈ stagesBefore order d, ¬ Charges ls h req clock e (s e) := by
  have href := runStages_refused hnodup hden
  have hkeeps := keeps_iff_before hnodup s (keeps_refl ls h clock) hden
  unfold checkRates
  rw [hkeeps]
  constructor
  · intro hall e he
    exact (keeps_consult_iff (href.admitted e he)).mp (hall e he)
  · intro hall e he
    exact (keeps_consult_iff (href.admitted e he)).mpr (hall e he)

/-- A dimension denies the request from the state before it, and those consulted
before it admit the request. -/
def FirstToDeny (ls : RateLimiters) (h : Hashes) (req : RateRequest)
    (clock : Dimension → Instant) (s : RateState) (d : Dimension) : Prop :=
  (∀ e ∈ stagesBefore requestOrder d, (consult ls h req clock e (s e)).2 = none) ∧
    (consult ls h req clock d (s d)).2 ≠ none

theorem firstToDeny_iff {ls : RateLimiters} {req : RateRequest} {clock : Dimension → Instant}
    {s : RateState} {d : Dimension} :
    FirstToDeny ls h req clock s d ↔
      ∃ r, (checkRates ls h requestOrder req clock s).2 = some (d, r) := by
  have hmem : d ∈ requestOrder := by cases d <;> decide
  constructor
  · rintro ⟨hpass, hdeny⟩
    obtain ⟨r, hr⟩ := Option.ne_none_iff_exists'.mp hdeny
    exact ⟨r, (runStages_eq_some_iff (by decide)).mpr ⟨hmem, hpass, hr⟩⟩
  · rintro ⟨r, hr⟩
    obtain ⟨-, hpass, hdeny⟩ := (runStages_eq_some_iff (by decide)).mp hr
    exact ⟨hpass, by rw [hdeny]; simp⟩

/-- **Two-phase admission.** If a request is denied by one dimension, the
buckets of all others keep their tokens exactly when no dimension consulted
before the first that denies charges for its admission. -/
theorem two_phase_admission_iff (ls : RateLimiters) (h : Hashes) (req : RateRequest)
    (clock : Dimension → Instant) (s : RateState) :
    (∀ d r, (checkRates ls h requestOrder req clock s).2 = some (d, r) → ∀ e, e ≠ d →
      Keeps ls h clock e (s e) ((checkRates ls h requestOrder req clock s).1 e)) ↔
    (∀ d, FirstToDeny ls h req clock s d →
      ∀ e ∈ stagesBefore requestOrder d, ¬ Charges ls h req clock e (s e)) := by
  constructor
  · intro hkeeps d hfirst
    obtain ⟨r, hden⟩ := firstToDeny_iff.mp hfirst
    exact (keeps_checkRates_iff ls h (by decide) req clock s hden).mp (hkeeps d r hden)
  · intro hfree d r hden
    exact (keeps_checkRates_iff ls h (by decide) req clock s hden).mpr
      (hfree d (firstToDeny_iff.mpr ⟨r, hden⟩))

/-- Five requests of a signature, but only one of a path shape, at a time. -/
def tightShape : HttpLimitConfig :=
  { signatureRps := 1, signatureBurst := 5, pathShapeRps := 1, pathShapeBurst := 1 }

/-- A request of its own signature to a path of one common shape. -/
def toItems (signature : Str) : RateRequest where
  signature := signature
  pathShape := utf8 "/items/:int"
  shortTokenParent := none
  clientIp := .v4 0x0A000001
  peerIp := .v4 0x0A000001

/-- The rate checks of such a request at time `0`, all keys in one shard. -/
def checkItems (signature : Str) (s : RateState) :
    RateState × Option (Dimension × RateLimited) :=
  checkRates (RateLimiters.new tightShape) ⟨fun _ => 0, fun _ => 0⟩ requestOrder
    (toItems signature) (fun _ => 0) s

/-- The second request to the path shape is denied, and its signature has paid
for it. -/
theorem denied_shape_spends_signature_token :
    let s := (checkItems (utf8 "get-a") (RateState.init tightShape 0)).1
    (checkItems (utf8 "get-b") s).2.map Prod.fst = some .pathShape ∧
    ¬ Keeps (RateLimiters.new tightShape) ⟨fun _ => 0, fun _ => 0⟩ (fun _ => 0) .signature
      (s .signature) ((checkItems (utf8 "get-b") s).1 .signature) := by
  intro s
  refine ⟨by decide +kernel, fun hkeeps => ?_⟩
  have hlevel := hkeeps (utf8 "get-b") ⟨5, 4, 1, 0⟩ (by decide +kernel)
  exact absurd hlevel (by decide +kernel)

end AlturaProt.Http
