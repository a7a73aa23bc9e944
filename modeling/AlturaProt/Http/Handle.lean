import AlturaProt.Adaptive.Events
import AlturaProt.Adaptive.Ideal
import AlturaProt.Http.RateGate
import AlturaProt.Http.Upstream

/-!
# The decision part of `handle_http`

Once a request that is not for an admin endpoint has passed the syntactic
checks, `handle_http` observes it, refuses a body that is announced as too
large, consults the rate dimensions and evaluates the filters. Each of the three
refusals is observed again, under its own reason.

The detector meters observations. A request that is not refused is observed once
and one that is refused twice, so the threshold counts requests only as long as
the requests of a signature are not refused: `activation_in_crowd`.
-/

namespace AlturaProt.Http

open Foundation Limiter Filter Adaptive

/-! ## The handler -/

/-- A request that reaches the detector, and the time it is handled at: on the
monotonic clock and in milliseconds of the system clock. -/
structure HttpRequest where
  ctx : RequestContext
  clientIp : IpAddr
  peerIp : IpAddr
  now : Instant
  unixMs : ℕ

namespace HttpRequest

def pathShape (req : HttpRequest) : Str := requestPathShape req.ctx.path

def rates (req : HttpRequest) : RateRequest where
  signature := req.ctx.signature
  pathShape := req.pathShape
  shortTokenParent := shortTokenParentShape req.ctx.path
  clientIp := req.clientIp
  peerIp := req.peerIp

end HttpRequest

/-- What `HttpProxyState` is configured with. -/
structure HttpProxy where
  limiters : RateLimiters
  hashes : Hashes
  detector : AdaptiveDetector
  windowHash : Str → ℕ
  activationTtl : Duration
  engine : FilterEngine
  maxBodyBytes : ℕ

/-- What the requests change. -/
structure ProxyState where
  rates : RateState
  windows : AdaptiveDetector.State
  engine : EngineState

inductive Outcome where
  | bodyTooLarge
  | rateLimited (limited : RateLimited)
  | filterBlock (decision : FilterDecision)
  /-- on to the circuit breaker and the upstream -/
  | passed
deriving DecidableEq

/-- A handled request: the evidence the detector activated on the way and how it
ended. -/
structure Handled where
  state : ProxyState
  activated : List Evidence
  outcome : Outcome

namespace HttpProxy

variable (P : HttpProxy)

/-- The engine after the activations of an observation. -/
def activateAll (req : HttpRequest) (engine : EngineState) (activated : List Evidence) :
    EngineState :=
  activated.foldl (fun engine evidence =>
    (P.engine.activate engine
      ⟨evidence, some P.activationTtl, req.unixMs, fun _ => req.unixMs⟩).1) engine

/-- The detector observes the request. -/
def observe (s : ProxyState) (req : HttpRequest) (reason : String) (pathShape : Str) :
    ProxyState × List Evidence :=
  let observed := P.detector.observeWithPathShape P.windowHash s.windows req.ctx reason
    pathShape req.now req.now
  ({ s with
      windows := observed.1
      engine := P.activateAll req s.engine observed.2.activated },
    observed.2.activated)

/-- The body is announced as longer than allowed. -/
def bodyTooLarge (req : HttpRequest) : Bool :=
  (contentLength req.ctx.headers).any
    (fun length => decide (0 < P.maxBodyBytes ∧ P.maxBodyBytes < length))

/-- A request that is refused is observed once more. -/
def refuse (s : ProxyState) (activated : List Evidence) (req : HttpRequest) (reason : String)
    (pathShape : Str) (outcome : Outcome) : Handled :=
  let observed := P.observe s req reason pathShape
  ⟨observed.1, activated ++ observed.2, outcome⟩

/-- `handle_http`, from the observation of a request to the evaluation of the
filters. -/
def handleHttp (s : ProxyState) (req : HttpRequest) : Handled :=
  let observed := P.observe s req "observed" req.pathShape
  if P.bodyTooLarge req then
    P.refuse observed.1 observed.2 req "body_too_large" req.pathShape .bodyTooLarge
  else
    let checked := checkRates P.limiters P.hashes requestOrder req.rates (fun _ => req.now)
      observed.1.rates
    let s' := { observed.1 with rates := checked.1 }
    match checked.2 with
    | some (_, limited) =>
      P.refuse s' observed.2 req limited.reason (limited.observedShape.getD req.pathShape)
        (.rateLimited limited)
    | none =>
      match FilterEngine.evaluate s'.engine req.ctx req.unixMs with
      | some decision =>
        P.refuse s' observed.2 req "filter_block" req.pathShape (.filterBlock decision)
      | none => ⟨s', observed.2, .passed⟩

/-- The state after a run of requests. -/
def handleAll (s : ProxyState) (run : List HttpRequest) : ProxyState :=
  run.foldl (fun s req => (P.handleHttp s req).state) s

/-- As it arrives, the request is not refused: its body is not announced as too
large, every rate dimension has a token for it, and no filter that is awake
matches it. -/
def Admitted (s : ProxyState) (req : HttpRequest) : Prop :=
  P.bodyTooLarge req = false ∧
  (checkRates P.limiters P.hashes requestOrder req.rates (fun _ => req.now) s.rates).2 = none ∧
  FilterEngine.evaluate s.engine req.ctx req.unixMs = none

instance (s : ProxyState) (req : HttpRequest) : Decidable (P.Admitted s req) :=
  inferInstanceAs (Decidable (_ ∧ _ ∧ _))

/-- How often the detector observes a request: once, or once more after a
refusal. If the request is admitted and its first observation activates nothing
there is no second. -/
theorem handleHttp_cases (s : ProxyState) (req : HttpRequest) :
    let observed := P.observe s req "observed" req.pathShape
    ((P.handleHttp s req).state.windows = observed.1.windows ∧
      (P.handleHttp s req).activated = observed.2) ∨
    (¬ (P.Admitted s req ∧ observed.2 = []) ∧
      ∃ s' reason pathShape, s'.windows = observed.1.windows ∧
        (P.handleHttp s req).state.windows = (P.observe s' req reason pathShape).1.windows ∧
        (P.handleHttp s req).activated = observed.2 ++ (P.observe s' req reason pathShape).2) := by
  intro observed
  unfold handleHttp
  dsimp only
  split
  · rename_i hlarge
    refine Or.inr ⟨fun h => ?_, observed.1, "body_too_large", req.pathShape, rfl, rfl, rfl⟩
    exact absurd (h.1.1.symm.trans hlarge) (by decide)
  · split
    · rename_i limited hlimited
      refine Or.inr ⟨fun h => ?_, { observed.1 with rates := _ }, limited.reason, _, rfl, rfl, rfl⟩
      exact absurd (h.1.2.1.symm.trans hlimited) (by simp)
    · split
      · rename_i decision hdecision
        refine Or.inr ⟨fun h => ?_, { observed.1 with rates := _ }, "filter_block", _, rfl, rfl,
          rfl⟩
        -- nothing was activated, so the filters are those the request met
        have hengine : observed.1.engine = s.engine := by
          show P.activateAll req s.engine observed.2 = s.engine
          rw [h.2]
          rfl
        have hawake : FilterEngine.evaluate observed.1.engine req.ctx req.unixMs = some decision :=
          hdecision
        rw [hengine, h.1.2.2] at hawake
        cases hawake
      · exact Or.inl ⟨rfl, rfl⟩

/-! ## What an observation does to one signature -/

theorem activate_of_signature_mem {ctx : RequestContext} {observation : Observation}
    {shaped : Option ShapeObservation} {signature : Str}
    (h : Evidence.signature signature ∈ activatedEvidence ctx observation shaped) :
    observation.activate = true := by
  unfold activatedEvidence at h
  rcases List.mem_append.mp h with h | h
  · split at h
    · assumption
    · cases h
  · split at h
    · split at h
      · cases List.mem_singleton.mp h
      · cases h
    · cases h

/-- The first observation of a request is no strong evidence: it activates the
signatures of the request or nothing. -/
theorem observe_observed (s : ProxyState) (req : HttpRequest) (pathShape : Str) :
    (P.observe s req "observed" pathShape).2 = [] ∨
      ∃ signature, Evidence.signature signature ∈ (P.observe s req "observed" pathShape).2 := by
  unfold observe AdaptiveDetector.observeWithPathShape
  dsimp only
  split
  · exact Or.inl rfl
  · have hweak := P.detector.activates_of_weak P.windowHash s.windows pathShape "observed" req.now
    rw [if_pos (by decide), show isStrongReason "observed" = false by decide]
    unfold activatedEvidence
    split
    · exact Or.inr ⟨req.ctx.signature, List.mem_append_left _ List.mem_cons_self⟩
    · refine Or.inl ?_
      split
      · rename_i shaped hshaped
        have hnone : shaped.activate = false := by
          rw [AdaptiveDetector.activates, hshaped] at hweak
          exact hweak
        rw [hnone]
        rfl
      · rfl

/-- What the detector remembers of a signature stands for a bucket whose missing
tokens are explained by the arrivals of requests with that signature. -/
def Metered (signature : Str) (t : Instant) (arrivals : List Instant)
    (windows : AdaptiveDetector.State) : Prop :=
  ∃ ideal, Tracks P.detector.thresholdPerSecond t
      (AdaptiveDetector.remembered P.windowHash windows (.signature signature)) ideal ∧
    Charged P.detector.thresholdPerSecond (idealCapacity P.detector.thresholdPerSecond)
      arrivals ideal

section Tracked

variable {P} (h2 : 2 ≤ P.detector.thresholdPerSecond) {s : ProxyState} {t : Instant}
  {req : HttpRequest} {signature : Str} {ideal : TokenBucket}

include h2

/-- An observation of a request leaves the ideal bucket of a signature alone and
activates nothing for it, or it is a request with that signature and the bucket
is asked: a signature is then activated only if the bucket has no token. -/
theorem tracks_observe (ht : t ≤ req.now)
    (h : Tracks P.detector.thresholdPerSecond t
      (AdaptiveDetector.remembered P.windowHash s.windows (.signature signature)) ideal)
    (reason : String) (pathShape : Str) :
    let observed := P.observe s req reason pathShape
    (Tracks P.detector.thresholdPerSecond req.now
        (AdaptiveDetector.remembered P.windowHash observed.1.windows (.signature signature))
        ideal ∧
      (req.ctx.signature = signature → ∀ x, Evidence.signature x ∉ observed.2)) ∨
    (req.ctx.signature = signature ∧
      Tracks P.detector.thresholdPerSecond req.now
        (AdaptiveDetector.remembered P.windowHash observed.1.windows (.signature signature))
        (ideal.allow req.now 1).1 ∧
      ((∃ x, Evidence.signature x ∈ observed.2) → (ideal.allow req.now 1).2 = false)) := by
  intro observed
  by_cases henabled : P.detector.enabled = true
  · have hon : (!P.detector.enabled) = false := by rw [henabled]; rfl
    have hwindows : AdaptiveDetector.remembered P.windowHash observed.1.windows
        (.signature signature) = AdaptiveDetector.remembered P.windowHash
          (P.detector.step P.windowHash s.windows
            (.signature req.ctx.signature reason req.now)) (.signature signature) := by
      simp only [observed, observe, AdaptiveDetector.observeWithPathShape, hon]
      rfl
    have hactivated : ∀ x, Evidence.signature x ∈ observed.2 → P.detector.activates P.windowHash
        s.windows (.signature req.ctx.signature reason req.now) = true := by
      intro x hx
      simp only [observed, observe, AdaptiveDetector.observeWithPathShape, hon] at hx
      exact activate_of_signature_mem hx
    obtain ⟨hanswer, hnext⟩ := AdaptiveDetector.tracks_step h2
      (.signature req.ctx.signature reason req.now) ht h
    rw [← hwindows] at hnext
    by_cases hsame : req.ctx.signature = signature
    · have hsubject : (AdaptiveDetector.Op.signature req.ctx.signature reason req.now).subject =
          .signature signature := congrArg _ hsame
      have hanswer := hanswer hsubject
      by_cases hroom : P.detector.hasRoom P.windowHash s.windows
          (.signature req.ctx.signature reason req.now) = true
      · refine Or.inr ⟨hsame, ?_, ?_⟩
        · rwa [if_pos ⟨hsubject, hroom⟩] at hnext
        · rintro ⟨x, hx⟩
          rw [hactivated x hx, hroom] at hanswer
          simpa [AdaptiveDetector.Op.feeds, AdaptiveDetector.Op.now] using hanswer.symm
      · rw [Bool.not_eq_true] at hroom
        refine Or.inl ⟨?_, fun _ x hx => ?_⟩
        · rwa [if_neg (fun hboth => absurd (hroom.symm.trans hboth.2) (by decide))] at hnext
        · rw [hactivated x hx, hroom] at hanswer
          cases hanswer
    · refine Or.inl ⟨?_, fun heq => absurd heq hsame⟩
      rwa [if_neg (fun hboth => hsame (AdaptiveDetector.Subject.signature.inj hboth.1))] at hnext
  · have hoff : (!P.detector.enabled) = true := by simpa using henabled
    refine Or.inl ⟨?_, fun _ x hx => ?_⟩
    · have hwindows : observed.1.windows = s.windows := by
        simp only [observed, observe, AdaptiveDetector.observeWithPathShape, hoff, if_true]
      rw [hwindows]
      exact h.wait ht
    · simp only [observed, observe, AdaptiveDetector.observeWithPathShape, hoff, if_true,
        List.not_mem_nil] at hx

/-! ## What a request does to one signature -/

/-- Requests with another signature do not count. -/
theorem Metered.other {arrivals : List Instant} (ht : t ≤ req.now)
    (hother : req.ctx.signature ≠ signature)
    (h : P.Metered signature t arrivals s.windows) :
    P.Metered signature req.now arrivals (P.handleHttp s req).state.windows := by
  obtain ⟨ideal, htracks, hcharged⟩ := h
  have hobserve : ∀ {s t}, t ≤ req.now → Tracks P.detector.thresholdPerSecond t
      (AdaptiveDetector.remembered P.windowHash s.windows (.signature signature)) ideal →
      ∀ reason pathShape, Tracks P.detector.thresholdPerSecond req.now
        (AdaptiveDetector.remembered P.windowHash (P.observe s req reason pathShape).1.windows
          (.signature signature)) ideal := by
    intro s t ht htracks reason pathShape
    rcases tracks_observe h2 ht htracks reason pathShape with ⟨hnext, -⟩ | ⟨hsame, -⟩
    · exact hnext
    · exact absurd hsame hother
  have hfirst := hobserve ht htracks "observed" req.pathShape
  rcases P.handleHttp_cases s req with ⟨hwindows, -⟩ | ⟨-, s', reason, pathShape, hs', hwindows, -⟩
  · rw [hwindows]
    exact ⟨ideal, hfirst, hcharged⟩
  · rw [hwindows]
    rw [← hs'] at hfirst
    exact ⟨ideal, hobserve le_rfl hfirst reason pathShape, hcharged⟩

/-- An admitted request with the signature counts once, and if it activates a
signature it is in a crowd. -/
theorem Metered.own {arrivals : List Instant} (ht : t ≤ req.now)
    (harrivals : ∀ a ∈ arrivals, a ≤ req.now) (hown : req.ctx.signature = signature)
    (hadmitted : P.Admitted s req) (h : P.Metered signature t arrivals s.windows) :
    P.Metered signature req.now (arrivals ++ [req.now]) (P.handleHttp s req).state.windows ∧
    ((∃ x, Evidence.signature x ∈ (P.handleHttp s req).activated) →
      Crowded (idealCapacity P.detector.thresholdPerSecond) P.detector.thresholdPerSecond
        (arrivals ++ [req.now]) req.now) := by
  obtain ⟨ideal, htracks, hcharged⟩ := h
  have hlast := htracks.ideal_last.trans ht
  have hasked := hcharged.allow htracks.ideal_wellFormed hlast
  have hcases := P.handleHttp_cases s req
  rcases P.observe_observed s req req.pathShape with hnone | ⟨x, hx⟩
  · -- nothing is activated, so the request is observed once
    rcases hcases with ⟨hwindows, hactivated⟩ | ⟨hnot, -⟩
    · rw [hwindows, hactivated, hnone]
      refine ⟨?_, by simp⟩
      rcases tracks_observe h2 ht htracks "observed" req.pathShape with ⟨hnext, -⟩ | ⟨-, hnext, -⟩
      · exact ⟨ideal, hnext, hcharged.mono _⟩
      · exact ⟨_, hnext, hasked⟩
    · exact absurd ⟨hadmitted, hnone⟩ hnot
  · -- the bucket was dry, and a second observation does not find it otherwise
    rcases tracks_observe h2 ht htracks "observed" req.pathShape with
      ⟨-, hquiet⟩ | ⟨-, hnext, hdry⟩
    · exact absurd hx (hquiet hown x)
    · have hdry := hdry ⟨x, hx⟩
      refine ⟨?_, fun _ => hcharged.crowded htracks.ideal_wellFormed hlast harrivals hdry⟩
      rcases hcases with ⟨hwindows, -⟩ | ⟨-, s', reason, pathShape, hs', hwindows, -⟩
      · rw [hwindows]
        exact ⟨_, hnext, hasked⟩
      · rw [hwindows]
        rw [← hs'] at hnext
        rcases tracks_observe h2 le_rfl hnext reason pathShape with ⟨hagain, -⟩ | ⟨-, hagain, -⟩
        · exact ⟨_, hagain, hasked⟩
        · rw [allow_again hdry] at hagain
          exact ⟨_, hagain, hasked⟩

end Tracked

/-! ## Runs of requests -/

/-- When the requests of a run with the given signature arrive. -/
def arrivalTimes (signature : Str) (run : List HttpRequest) : List Instant :=
  (run.filter (fun req => decide (req.ctx.signature = signature))).map HttpRequest.now

/-- Every request of the run with the given signature is admitted as it
arrives. -/
def AdmittedIn (signature : Str) : ProxyState → List HttpRequest → Prop
  | _, [] => True
  | s, req :: rest => (req.ctx.signature = signature → P.Admitted s req) ∧
      AdmittedIn signature (P.handleHttp s req).state rest

instance decidableAdmittedIn (signature : Str) :
    (s : ProxyState) → (run : List HttpRequest) → Decidable (P.AdmittedIn signature s run)
  | _, [] => .isTrue trivial
  | s, req :: rest =>
    have := decidableAdmittedIn signature (P.handleHttp s req).state rest
    inferInstanceAs (Decidable ((_ → _) ∧ _))

theorem admittedIn_append {signature : Str} {s : ProxyState} {before after : List HttpRequest}
    (h : P.AdmittedIn signature s (before ++ after)) :
    P.AdmittedIn signature s before ∧ P.AdmittedIn signature (P.handleAll s before) after := by
  induction before generalizing s with
  | nil => exact ⟨trivial, h⟩
  | cons req rest ih => exact ⟨⟨h.1, (ih h.2).1⟩, (ih h.2).2⟩

/-- **A run of requests.** At its end the missing tokens of a signature are still
explained by the arrivals of its requests. -/
theorem metered_run {P : HttpProxy} (h2 : 2 ≤ P.detector.thresholdPerSecond) {signature : Str}
    (run : List HttpRequest) {s : ProxyState} {t : Instant} {arrivals : List Instant}
    (hmono : (t :: run.map HttpRequest.now).Pairwise (· ≤ ·)) (harrivals : ∀ a ∈ arrivals, a ≤ t)
    (hadmitted : P.AdmittedIn signature s run)
    (h : P.Metered signature t arrivals s.windows) :
    P.Metered signature ((run.map HttpRequest.now).getLastD t)
      (arrivals ++ arrivalTimes signature run) (P.handleAll s run).windows := by
  induction run generalizing s t arrivals with
  | nil =>
    show P.Metered signature t (arrivals ++ []) s.windows
    rwa [List.append_nil]
  | cons req rest ih =>
    obtain ⟨hfirst, hrest⟩ := List.pairwise_cons.mp hmono
    have ht : t ≤ req.now := hfirst _ List.mem_cons_self
    have harrivals' : ∀ a ∈ arrivals, a ≤ req.now := fun a ha => (harrivals a ha).trans ht
    rw [List.map_cons, List.getLastD_cons, arrivalTimes, List.filter_cons]
    by_cases hown : req.ctx.signature = signature
    · rw [if_pos (decide_eq_true hown), List.map_cons, List.append_cons]
      refine ih hrest ?_ hadmitted.2 (h.own h2 ht harrivals' hown (hadmitted.1 hown)).1
      simpa [or_imp, forall_and] using harrivals'
    · rw [if_neg (by simpa using hown)]
      exact ih hrest harrivals' hadmitted.2 (h.other h2 ht hown)

theorem idealCapacity_eq {threshold : ℕ} (h2 : 2 ≤ threshold) (hburst : threshold - 1 < 2 ^ 32) :
    idealCapacity threshold = threshold - 1 := by
  have hburst' : adaptiveActivationBurst threshold = threshold - 1 := by
    unfold adaptiveActivationBurst
    omega
  unfold idealCapacity TokenBucket.effectiveCapacity
  rw [hburst', max_eq_left (by omega), Nat.cast_sub (by omega), Nat.cast_one]

/-- **A signature is activated only in a crowd.** In a run whose requests with a
given signature are all admitted as they arrive, the detector activates at such
a request only if, in some interval that ends there, more than the burst and the
threshold for every second of it arrived. -/
theorem activation_in_crowd (P : HttpProxy) (h2 : 2 ≤ P.detector.thresholdPerSecond)
    (hburst : P.detector.thresholdPerSecond - 1 < 2 ^ 32) (s : ProxyState)
    (hfresh : s.windows = AdaptiveDetector.State.new) (run : List HttpRequest)
    (hmono : (run.map HttpRequest.now).Pairwise (· ≤ ·)) (signature : Str)
    (hadmitted : P.AdmittedIn signature s run) :
    ∀ before req after, run = before ++ req :: after → req.ctx.signature = signature →
      (∃ x, Evidence.signature x ∈ (P.handleHttp (P.handleAll s before) req).activated) →
      Crowded (P.detector.thresholdPerSecond - 1) P.detector.thresholdPerSecond
        (arrivalTimes signature (before ++ [req])) req.now := by
  rintro before req after rfl hown hactivated
  -- the run starts with full buckets at the time of its first request
  obtain ⟨t, ht⟩ : ∃ t, (t :: (before ++ req :: after).map HttpRequest.now).Pairwise (· ≤ ·) := by
    cases before with
    | nil => exact ⟨req.now, by simpa using hmono⟩
    | cons first rest => exact ⟨first.now, by simpa using hmono⟩
  rw [List.map_append, List.map_cons, ← List.cons_append, List.pairwise_append] at ht
  obtain ⟨hbefore, hrest⟩ := P.admittedIn_append hadmitted
  have hstart : P.Metered signature t [] s.windows := by
    rw [hfresh]
    exact ⟨_, Tracks.start _ t, Charged.full _ t⟩
  have hrun := metered_run h2 before ht.1 (by simp) hbefore hstart
  have htimes : ∀ a ∈ t :: before.map HttpRequest.now, a ≤ req.now :=
    fun a ha => ht.2.2 a ha _ List.mem_cons_self
  have hlast := htimes _ List.getLastD_mem_cons
  have harrivals : ∀ a ∈ arrivalTimes signature before, a ≤ req.now := by
    intro a ha
    obtain ⟨q, hq, rfl⟩ := List.mem_map.mp ha
    exact htimes _ (List.mem_cons_of_mem _ (List.mem_map_of_mem (List.mem_of_mem_filter hq)))
  have hcrowd := (hrun.own h2 hlast harrivals hown (hrest.1 hown)).2 hactivated
  rw [idealCapacity_eq h2 hburst] at hcrowd
  simpa [arrivalTimes, hown] using hcrowd

/-- A proxy without filters and rate limits, with a threshold of two requests per
second. -/
def plainProxy : HttpProxy where
  limiters := RateLimiters.new {}
  hashes := ⟨fun _ => 0, fun _ => 0⟩
  detector := ⟨true, 2, 60, 8, 8⟩
  windowHash := fun _ => 0
  activationTtl := 60000000000
  engine := FilterEngine.new [] "filters.json" 60000000000
  maxBodyBytes := 1

def freshState : ProxyState := ⟨RateState.init {} 0, AdaptiveDetector.State.new, .empty⟩

/-- An upload that announces a body of the given length. -/
def upload (length : String) : HttpRequest where
  ctx := ⟨utf8 "POST", utf8 "/", none, [(utf8 "content-length", utf8 length)], utf8 "s"⟩
  clientIp := .v4 0x0A000001
  peerIp := .v4 0x0A000001
  now := 0
  unixMs := 0

theorem second_upload_in_crowd :
    Crowded ((2 : ℕ) - 1) (2 : ℕ) (arrivalTimes (utf8 "s") ([upload "1"] ++ [upload "1"])) 0 := by
  have hactivated : plainProxy.AdmittedIn (utf8 "s") freshState [upload "1", upload "1"] ∧
      Evidence.signature (utf8 "s") ∈ (plainProxy.handleHttp
        (plainProxy.handleAll freshState [upload "1"]) (upload "1")).activated := by
    decide +kernel
  exact activation_in_crowd plainProxy (by decide) (by decide) freshState rfl
    [upload "1", upload "1"] (by decide +kernel) (utf8 "s") hactivated.1 [upload "1"]
    (upload "1") [] rfl rfl ⟨_, hactivated.2⟩

/-- One upload that is too large is observed twice and activates its signature
alone. -/
theorem single_large_upload_activates :
    Evidence.signature (utf8 "s") ∈ (plainProxy.handleHttp freshState (upload "2")).activated ∧
    ¬ Crowded ((2 : ℕ) - 1) (2 : ℕ) (arrivalTimes (utf8 "s") [upload "2"]) 0 := by
  refine ⟨by decide +kernel, ?_⟩
  rintro ⟨seconds, hseconds, hcrowd⟩
  have hone : (arrivalTimes (utf8 "s") [upload "2"]).length = 1 := rfl
  have hle := List.length_filter_le (fun t => decide (0 - seconds ≤ t ∧ t ≤ 0))
    (arrivalTimes (utf8 "s") [upload "2"])
  rw [hone] at hle
  have hle' : (((arrivalTimes (utf8 "s") [upload "2"]).filter
      (fun t => decide (0 - seconds ≤ t ∧ t ≤ 0))).length : ℚ) ≤ 1 := by exact_mod_cast hle
  push_cast at hcrowd
  linarith

end HttpProxy

end AlturaProt.Http
