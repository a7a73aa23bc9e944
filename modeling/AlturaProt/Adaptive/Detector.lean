import AlturaProt.Limiter.Shards

/-!
# The adaptive detector's windows

`src/adaptive.rs` keeps one window per request signature and one per path
shape, in two sharded maps of the same kind as the limiters'. An observation is
one lock section: it visits the window of its key, counts, and asks the
window's bucket whether the key is over its threshold.
-/

namespace AlturaProt.Adaptive

open Foundation Limiter

/-! ## Constants and reasons -/

def MAX_SHAPE_SAMPLES_PER_SECOND : ℕ := 64
def adaptiveWindowIdle : ℚ := 120
def ADAPTIVE_WINDOW_EVICTION_SCAN_LIMIT : ℕ := 32

def strongReasons : List String :=
  ["rate_limited", "global_rate_limited", "per_ip_rate_limited", "signature_rate_limited",
    "path_shape_rate_limited", "trusted_proxy_rate_limited", "filter_block",
    "body_too_large"]

def isStrongReason (reason : String) : Bool := decide (reason ∈ strongReasons)

def shouldTrackPathShape (reason : String) : Bool :=
  reason == "observed" || isStrongReason reason

def shapeReason (reason : String) : String :=
  if reason ∈ strongReasons then reason else "path_shape_strong_evidence"

/-- `u64::saturating_add(1)`. -/
def saturatingSucc (n : ℕ) : ℕ := min (n + 1) (2 ^ 64 - 1)

/-! ## Windows -/

structure SignatureWindow where
  bucket : TokenBucket
  observedCount : ℕ
  lastEvent : Option Instant
  lastStrongEvent : Option Instant
  lastSeen : Instant

structure ShapeWindow where
  bucket : TokenBucket
  strongBucket : TokenBucket
  observedCount : ℕ
  strongCount : ℕ
  sampleWindowStart : Instant
  emittedSamples : ℕ
  lastSeen : Instant

structure Observation where
  count : ℕ
  activate : Bool
  emit : Bool
deriving DecidableEq

structure ShapeObservation where
  count : ℕ
  activate : Bool
  emit : Bool
  reason : String
  shape : Str
deriving DecidableEq

abbrev WindowShard (T : Type) : Type := KeyedQueue Str T

abbrev Windows (T : Type) : Type := Shards SHARDS Str T

structure AdaptiveDetectorConfig where
  enabled : Bool
  thresholdPerSecond : ℕ
  eventCooldown : ℚ
  maxSignatureWindows : ℕ
  maxPathShapeWindows : ℕ

def adaptiveShardCapacity (maxWindows : ℕ) : ℕ :=
  max ((max maxWindows 1 + (SHARDS - 1)) / SHARDS) 1

structure AdaptiveDetector where
  enabled : Bool
  thresholdPerSecond : ℕ
  eventCooldown : ℚ
  maxSignatureWindowsPerShard : ℕ
  maxPathShapeWindowsPerShard : ℕ

def AdaptiveDetector.new (cfg : AdaptiveDetectorConfig) : AdaptiveDetector where
  enabled := cfg.enabled
  thresholdPerSecond := max cfg.thresholdPerSecond 1
  eventCooldown := cfg.eventCooldown
  maxSignatureWindowsPerShard := adaptiveShardCapacity cfg.maxSignatureWindows
  maxPathShapeWindowsPerShard := adaptiveShardCapacity cfg.maxPathShapeWindows

def adaptiveActivationBurst (thresholdPerSecond : ℕ) : ℕ :=
  min (max (thresholdPerSecond - 1) 1) (2 ^ 32 - 1)

def adaptiveBucket (thresholdPerSecond : ℕ) (now : Instant) : TokenBucket :=
  TokenBucket.new thresholdPerSecond (adaptiveActivationBurst thresholdPerSecond) now

/-! ## Making room -/

def ensureWindowCapacity {T : Type} (canEvict : T → Bool) (capacity : ℕ)
    (windows : WindowShard T) : WindowShard T × Bool :=
  windows.reclaim capacity ADAPTIVE_WINDOW_EVICTION_SCAN_LIMIT canEvict

def ensureSignatureWindowCapacity (capacity : ℕ) (now : Instant)
    (windows : WindowShard SignatureWindow) : WindowShard SignatureWindow × Bool :=
  ensureWindowCapacity
    (fun window => decide (adaptiveWindowIdle ≤ saturatingDurationSince now window.lastSeen))
    capacity windows

def ensureShapeWindowCapacity (capacity : ℕ) (now : Instant)
    (windows : WindowShard ShapeWindow) : WindowShard ShapeWindow × Bool :=
  ensureWindowCapacity
    (fun window => decide (adaptiveWindowIdle ≤ saturatingDurationSince now window.lastSeen))
    capacity windows

/-! ## Observations -/

namespace AdaptiveDetector

variable (d : AdaptiveDetector)

/-- The cooldown since the last event is over, or there was none. -/
def cooled (now : Instant) (last : Option Instant) : Bool :=
  last.all (fun t => decide (d.eventCooldown ≤ saturatingDurationSince now t))

/-- The look at a window's bucket: at a threshold of one every observation is
pressure, and the bucket is not asked. -/
def pressure (bucket : TokenBucket) (now : Instant) : TokenBucket × Bool :=
  if d.thresholdPerSecond = 1 then (bucket, true)
  else ((bucket.allow now 1).1, !(bucket.allow now 1).2)

def newSignatureWindow (now : Instant) : SignatureWindow where
  bucket := adaptiveBucket d.thresholdPerSecond now
  observedCount := 0
  lastEvent := none
  lastStrongEvent := none
  lastSeen := now

def countSignature (strongReason : Bool) (now : Instant) (window : SignatureWindow) :
    SignatureWindow × Observation :=
  let count := saturatingSucc window.observedCount
  let asked := d.pressure window.bucket now
  let regularEmit := asked.2 && d.cooled now window.lastEvent
  let strongEmit := strongReason && asked.2 && d.cooled now window.lastStrongEvent
  ({ bucket := asked.1
     observedCount := count
     lastEvent := if regularEmit then some now else window.lastEvent
     lastStrongEvent := if strongEmit then some now else window.lastStrongEvent
     lastSeen := now },
    { count := count, activate := asked.2, emit := regularEmit || strongEmit })

/-- `observe_signature`; without room nothing is counted. -/
def observeSignature (hash : Str → ℕ) (windows : Windows SignatureWindow)
    (signature : Str) (reason : String) (now : Instant) : Windows SignatureWindow × Observation :=
  let visited := windows.visit (hashedShard hash)
    (ensureSignatureWindowCapacity d.maxSignatureWindowsPerShard now)
    (d.newSignatureWindow now) (d.countSignature (isStrongReason reason) now) signature
  (visited.1,
    match visited.2 with
    | none => { count := 0, activate := false, emit := false }
    | some (observation, _) => observation)

def newShapeWindow (now : Instant) : ShapeWindow where
  bucket := adaptiveBucket d.thresholdPerSecond now
  strongBucket := adaptiveBucket d.thresholdPerSecond now
  observedCount := 0
  strongCount := 0
  sampleWindowStart := now
  emittedSamples := 0
  lastSeen := now

/-- Strong evidence is counted and metered apart. -/
def strongPressure (strongEvidence : Bool) (now : Instant) (window : ShapeWindow) :
    TokenBucket × ℕ × Bool :=
  if strongEvidence then
    let asked := d.pressure window.strongBucket now
    (asked.1, saturatingSucc window.strongCount, asked.2)
  else (window.strongBucket, window.strongCount, false)

def countShape (pathShape : Str) (reason : String) (strongEvidence : Bool) (now : Instant)
    (window : ShapeWindow) : ShapeWindow × Option ShapeObservation :=
  let sampled := decide (1 ≤ saturatingDurationSince now window.sampleWindowStart)
  let samples := if sampled then 0 else window.emittedSamples
  let observedCount := saturatingSucc window.observedCount
  let asked := d.pressure window.bucket now
  let strong := d.strongPressure strongEvidence now window
  let emit := decide (samples < MAX_SHAPE_SAMPLES_PER_SECOND)
  let report := (asked.2 || strong.2.2) && (emit || strong.2.2)
  ({ bucket := asked.1
     strongBucket := strong.1
     observedCount := observedCount
     strongCount := strong.2.1
     sampleWindowStart := if sampled then now else window.sampleWindowStart
     emittedSamples := if report && emit then samples + 1 else samples
     lastSeen := now },
    if report then
      some { count := if strong.2.2 then strong.2.1 else observedCount
             activate := strong.2.2
             emit := emit
             reason := if strong.2.2 then shapeReason reason else "global_observed"
             shape := pathShape }
    else none)

/-- `observe_path_shape`; without room nothing is counted. -/
def observePathShape (hash : Str → ℕ) (windows : Windows ShapeWindow)
    (pathShape : Str) (strongEvidence : Bool) (reason : String) (now : Instant) :
    Windows ShapeWindow × Option ShapeObservation :=
  let visited := windows.visit (hashedShard hash)
    (ensureShapeWindowCapacity d.maxPathShapeWindowsPerShard now)
    (d.newShapeWindow now) (d.countShape pathShape reason strongEvidence now) pathShape
  (visited.1, visited.2.bind Prod.fst)

/-- The two window maps of a detector. -/
structure State where
  windows : Windows SignatureWindow
  shapeWindows : Windows ShapeWindow

def State.new : State := ⟨Shards.empty, Shards.empty⟩

/-- A lock section of the detector. -/
inductive Op where
  | signature (signature : Str) (reason : String) (now : Instant)
  | pathShape (pathShape : Str) (reason : String) (strongEvidence : Bool) (now : Instant)

def step (hash : Str → ℕ) (s : State) : Op → State
  | .signature signature reason now =>
    { s with windows := (d.observeSignature hash s.windows signature reason now).1 }
  | .pathShape pathShape reason strongEvidence now =>
    { s with shapeWindows :=
      (d.observePathShape hash s.shapeWindows pathShape strongEvidence reason now).1 }

/-! ## The shape of the maps -/

/-- Both maps are in shape. -/
def Shaped (hash : Str → ℕ) (s : State) : Prop :=
  s.windows.Placed (hashedShard hash) d.maxSignatureWindowsPerShard ∧
  s.shapeWindows.Placed (hashedShard hash) d.maxPathShapeWindowsPerShard

theorem shaped_step {hash : Str → ℕ} {s : State} (h : d.Shaped hash s) (op : Op) :
    d.Shaped hash (d.step hash s op) := by
  obtain ⟨hw, hs⟩ := h
  cases op with
  | signature signature reason now =>
    refine ⟨hw.visit (fun q => KeyedQueue.reclaimed_reclaim _ _ _ q) ?_ _ _ signature, hs⟩
    exact fun q => KeyedQueue.size_lt_of_reclaim
  | pathShape pathShape reason strongEvidence now =>
    refine ⟨hw, hs.visit (fun q => KeyedQueue.reclaimed_reclaim _ _ _ q) ?_ _ _ pathShape⟩
    exact fun q => KeyedQueue.size_lt_of_reclaim

theorem shaped_run (hash : Str → ℕ) (ops : List Op) :
    d.Shaped hash (ops.foldl (d.step hash) State.new) :=
  List.foldlRecOn ops (d.step hash) ⟨Shards.placed_empty _ _, Shards.placed_empty _ _⟩
    (fun _ h op _ => d.shaped_step h op)

end AdaptiveDetector

end AlturaProt.Adaptive
