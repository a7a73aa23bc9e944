import AlturaProt.Server.Requests

/-!
# What holds of all requests

Results about the counters and the responses of the service of `Server.Requests`, in every
interleaving of any number of requests, polls of their bodies, reloads of the filters and
connections whose first head is checked.
-/

namespace AlturaProt.Server

open Foundation Foundation.Program Limiter Filter Adaptive Http

/-! ## Counters -/

/-- The counters that say how a request ended. -/
def verdictCounters : List HttpCounter :=
  [.headerLineRejected, .forwardedRejected, .methodRejected, .hostRejected, .framingRejected,
    .contentEncodingRejected, .expectRejected, .rangeRejected, .uriRejected, .bodyRejected,
    .rate .httpRateLimited, .blocked, .upstreamCircuitOpen, .upstreamInFlightRejected,
    .forward .httpUpstreamErrors, .forward .httpUpstreamTimeouts, .forward .httpProxied]

/-- The increments so far. -/
def CallStage.counted : CallStage → List HttpCounter
  | .arrived => []
  | .permits _ stats _ | .exchange _ stats _ => .total :: rewriteCounters stats
  | .refuse _ verdict _ _ | .answered verdict => .total :: verdict.counters
  | _ => [.total]

def ServiceTask.counted : ServiceTask → List HttpCounter
  | .call c => c.stage.counted ++ c.guarded
  | .prechecked (some refusal) => precheckCounters refusal
  | _ => []

/-- No counter tells of the verdict: an admin endpoint has answered, or the body of the request
failed, which the guard of the body counts. -/
def Verdict.uncounted : Verdict → Bool
  | .admin _ => true
  | .exchanged _ _ concluded => concluded.stats.isEmpty
  | _ => false

/-- The request is counted, and no counter tells yet how it ended. -/
def CallStage.unsettled : CallStage → Bool
  | .arrived => false
  | .refuse _ verdict _ _ | .answered verdict => verdict.uncounted
  | _ => true

def ServiceTask.unsettled : ServiceTask → Bool
  | .call c => c.stage.unsettled
  | _ => false

/-- The guard has counted the body of the request as too large. -/
def ServiceTask.cut : ServiceTask → Bool
  | .call c => decide (.bodyRejected ∈ c.guarded)
  | _ => false

/-- The first head of a connection has been refused for its framing or its target. -/
def ServiceTask.turnedAway : ServiceTask → Bool
  | .prechecked (some (.rejected _)) => true
  | .prechecked (some (.requestTargetRejected _)) => true
  | _ => false

/-- The counters that the guards of the bodies move. -/
def guardCounters : List HttpCounter :=
  [.bodyRejected, .bodyTimeouts, .bodyTooSlow, .requestTrailersRejected, .requestTrailersDropped,
    .forward .httpUpstreamBodyRejected, .upstreamBodyTimeouts, .upstreamBodyTooSlow,
    .upstreamTrailersRejected, .upstreamTrailersDropped]

/-- The counters of the rewrite tell of no verdict. -/
theorem rewriteCounters_fair (stats : ForwardingStats) (counters : List HttpCounter)
    (h : .total ∉ counters) :
    (rewriteCounters stats ++ counters).countP (· ∈ verdictCounters) =
        counters.countP (· ∈ verdictCounters) ∧
      HttpCounter.total ∉ rewriteCounters stats ++ counters := by
  constructor
  · simp [rewriteCounters, List.countP_replicate, verdictCounters]
  · simpa [rewriteCounters] using h

/-! ## Responses -/

/-- Values that are visible text. -/
def VisibleValues (headers : HeaderMap) : Prop :=
  ∀ field ∈ headers, field.2.all isVisibleAscii = true

/-- A response that ends the connection, is not kept by caches, and has values of visible text
only. -/
structure Generated.Closes (response : Generated) : Prop where
  closing : ∀ field ∈ closingHeaders, field ∈ response.headers
  values : VisibleValues response.headers

/-- It is an error of the client or of the server. -/
def Generated.IsError (response : Generated) : Prop := 400 ≤ response.status ∧ response.status ≤ 599

theorem visibleValues_nil : VisibleValues [] := nofun

variable {headers : HeaderMap} {α : Type} {counter : HttpCounter} {check : Except String α}
  {status : ℕ}

theorem visibleValues_append {others : HeaderMap} (h : VisibleValues headers)
    (ho : VisibleValues others) : VisibleValues (headers ++ others) :=
  List.forall_mem_append.mpr ⟨h, ho⟩

theorem visibleValues_closingHeaders : VisibleValues closingHeaders := by
  unfold VisibleValues
  decide

theorem visibleValues_retryAfter : VisibleValues retryAfter := by
  unfold VisibleValues
  decide

theorem closes_closing (h : VisibleValues headers) (status : ℕ) (body : String) :
    (closing status headers body).Closes where
  closing _ := List.mem_append_right _
  values := visibleValues_append h visibleValues_closingHeaders

theorem closes_earlyRejection {header : HeaderMap} (h : VisibleValues header) (status : ℕ)
    (body : Str) : (earlyRejectionResponse status body header).Closes where
  closing _ := List.mem_append_left _
  values := visibleValues_append visibleValues_closingHeaders h

theorem isError_statusFromU16 (h : 400 ≤ status ∧ status ≤ 599) :
    400 ≤ statusFromU16 status ∧ statusFromU16 status ≤ 599 := by
  have hvalid : statusFromU16 status = status := if_pos (by omega)
  rw [hvalid]
  exact h

theorem visible_allowedMethods (names : MethodNames) (methods : List String) :
    (allowedMethodsHeader names methods).all isVisibleAscii = true := by
  apply visible_intercalate
  intro word hword
  exact names.visible word (List.mem_filter.mp hword).2

/-! ## Checks that refuse -/

/-- The counters of the checks. -/
def vetoCounters : List HttpCounter := verdictCounters.take 9

/-- A check that fails is counted, and answered with an error. -/
structure Veto.Sound (veto : Veto) : Prop where
  counter : veto.counter ∈ vetoCounters
  closes : veto.response.Closes
  error : veto.response.IsError

/-- Whatever is refused is refused soundly. -/
def VetoesSoundly {α : Type} (x : Except Veto α) : Prop := ∀ veto, x = .error veto → veto.Sound

theorem VetoesSoundly.bind {β : Type} {x : Except Veto α} {f : α → Except Veto β}
    (hx : VetoesSoundly x) (hf : ∀ a, VetoesSoundly (f a)) : VetoesSoundly (x >>= f) := by
  intro veto hveto
  cases x with
  | error veto' =>
    cases hveto
    exact hx veto rfl
  | ok a => exact hf a veto hveto

theorem vetoesSoundly_vetoing {respond : String → Generated} (hcounter : counter ∈ vetoCounters)
    (hrespond : ∀ body, (respond body).Closes ∧ (respond body).IsError) :
    VetoesSoundly (Service.vetoing counter respond check) := by
  intro veto hveto
  cases check with
  | ok a => cases hveto
  | error reason =>
    cases hveto
    exact ⟨hcounter, (hrespond _).1, (hrespond _).2⟩

theorem vetoesSoundly_closing (hcounter : counter ∈ vetoCounters) (hheaders : VisibleValues headers)
    (hstatus : 400 ≤ status ∧ status ≤ 599) :
    VetoesSoundly (Service.vetoing counter (closing status headers) check) :=
  vetoesSoundly_vetoing hcounter fun body => ⟨closes_closing hheaders status body, hstatus⟩

theorem vetoesSoundly_rejecting (hcounter : counter ∈ vetoCounters)
    (hstatus : 400 ≤ status ∧ status ≤ 599) :
    VetoesSoundly (Service.rejecting counter status check) :=
  vetoesSoundly_vetoing hcounter fun _ =>
    ⟨closes_earlyRejection visibleValues_nil _ _, isError_statusFromU16 hstatus⟩

/-- **Every refusal of the checks is sound.** -/
theorem vetoesSoundly_vet (S : Service) (req : ClientRequest) : VetoesSoundly (S.vet req) := by
  unfold Service.vet
  refine .bind (vetoesSoundly_closing (by decide) visibleValues_nil (by decide)) fun _ => ?_
  refine .bind (vetoesSoundly_rejecting (by decide) (by decide)) fun _ => ?_
  refine .bind ?_ fun _ => ?_
  · intro veto hveto
    unfold rejectIf at hveto
    split_ifs at hveto
    · cases hveto
      have hstatus : 400 ≤ 405 ∧ 405 ≤ 599 := by decide
      refine ⟨List.mem_of_elem_eq_true rfl, closes_closing ?_ _ _, hstatus⟩
      exact List.forall_mem_singleton.mpr (visible_allowedMethods S.methods S.cfg.allowedMethods)
  refine .bind (vetoesSoundly_rejecting (by decide) (by decide)) fun _ => ?_
  refine .bind (vetoesSoundly_rejecting (by decide) (by decide)) fun _ => ?_
  refine .bind (vetoesSoundly_closing (by decide) visibleValues_nil (by decide)) fun _ => ?_
  have hidentity : VisibleValues [(utf8 "accept-encoding", utf8 "identity")] := by
    unfold VisibleValues
    decide
  refine .bind (vetoesSoundly_closing (by decide) hidentity (by decide)) fun _ => ?_
  refine .bind (vetoesSoundly_rejecting (by decide) (by decide)) fun _ => ?_
  refine .bind (vetoesSoundly_rejecting (by decide) (by decide)) fun _ => ?_
  refine .bind (vetoesSoundly_closing (by decide) visibleValues_nil (by decide)) fun _ => ?_
  exact nofun

/-! ## Sound verdicts -/

/-- A verdict moves one of the counters that tell of it, or none, and its response can be built
and ends the connection. -/
structure Verdict.Sound (verdict : Verdict) : Prop where
  fair : verdict.counters.countP (· ∈ verdictCounters) = (!verdict.uncounted).toNat
  total : HttpCounter.total ∉ verdict.counters
  closes : ∀ response, verdict.response = .generated response → response.Closes
  error : ∀ response, verdict.response = .generated response →
    (∀ answer, verdict ≠ .admin answer) → response.IsError

theorem sound_vetoed {veto : Veto} (h : veto.Sound) : (Verdict.vetoed veto).Sound := by
  have hmem : veto.counter ∈ verdictCounters := List.mem_of_mem_take h.counter
  refine ⟨?_, ?_, ?_, ?_⟩
  · simp [Verdict.counters, Verdict.uncounted, hmem]
  · intro htotal
    rw [Verdict.counters, List.mem_singleton] at htotal
    rw [← htotal] at hmem
    exact absurd hmem (by decide)
  · rintro response ⟨⟩
    exact h.closes
  · rintro response ⟨⟩ -
    exact h.error

theorem sound_admin (response : AdminResponse) : (Verdict.admin response).Sound := by
  refine ⟨rfl, by simp [Verdict.counters], ?_, ?_⟩
  · rintro _ ⟨⟩
    cases response <;> exact closes_earlyRejection visibleValues_nil _ _
  · intro _ _ hne
    exact absurd rfl (hne response)

/-- A refusal of the proxy's own, with counters that are known. -/
theorem sound_closing {verdict : Verdict} {body : String}
    (hresponse : verdict.response = .generated (closing status headers body))
    (hheaders : VisibleValues headers) (hstatus : 400 ≤ status ∧ status ≤ 599)
    (hfair : verdict.counters.countP (· ∈ verdictCounters) = (!verdict.uncounted).toNat)
    (htotal : HttpCounter.total ∉ verdict.counters) : verdict.Sound := by
  refine ⟨hfair, htotal, ?_, ?_⟩
  · intro response h
    rw [hresponse] at h
    cases h
    exact closes_closing hheaders status body
  · intro response h _
    rw [hresponse] at h
    cases h
    exact hstatus

theorem sound_bodyTooLarge : Verdict.bodyTooLarge.Sound :=
  sound_closing rfl visibleValues_nil (by decide) rfl (by decide)

theorem sound_circuitOpen : Verdict.circuitOpen.Sound :=
  sound_closing rfl visibleValues_retryAfter (by decide) rfl (by decide)

theorem sound_trustedProxyInFlight (stats : ForwardingStats) :
    (Verdict.trustedProxyInFlight stats).Sound :=
  have h := rewriteCounters_fair stats
    [.upstreamInFlightRejected, .trustedProxyInFlightRejected] (by decide)
  sound_closing rfl visibleValues_retryAfter (by decide) h.1 h.2

theorem sound_inFlight (stats : ForwardingStats) : (Verdict.inFlight stats).Sound :=
  have h := rewriteCounters_fair stats [.upstreamInFlightRejected] (by decide)
  sound_closing rfl visibleValues_retryAfter (by decide) h.1 h.2

theorem sound_notRewritten (stats : ForwardingStats) (err : String) :
    (Verdict.notRewritten stats err).Sound := by
  obtain ⟨hfair, htotal⟩ := rewriteCounters_fair stats [.blocked] (by decide)
  refine ⟨hfair, htotal, ?_, ?_⟩
  · rintro _ ⟨⟩
    exact closes_earlyRejection visibleValues_nil _ _
  · rintro _ ⟨⟩ -
    exact isError_statusFromU16 (show 400 ≤ 400 ∧ 400 ≤ 599 by decide)

/-- The counters of the refusals of the rate dimensions. -/
def rateStats : List (List RateStat) :=
  [[.httpRateLimited], [.httpRateLimited, .httpSignatureRateLimited],
    [.httpRateLimited, .httpPathShapeRateLimited],
    [.httpRateLimited, .httpTrustedProxyRateLimited]]

/-- A refusal of the rate dimensions is counted as one, and maybe once more for its dimension. -/
theorem stats_of_consult {ls : RateLimiters} {h : Hashes} {req : RateRequest}
    {clock : Dimension → Instant} {d : Dimension} {tracked tracked' : Tracked d}
    {limited : RateLimited} (hconsult : consult ls h req clock d tracked = (tracked', some limited)) :
    limited.stats ∈ rateStats := by
  cases d with
  | shortTokenSibling =>
    simp only [consult, maybeShortTokenSiblingRateLimitResponse] at hconsult
    split at hconsult
    · cases hconsult
    · split_ifs at hconsult
      · cases hconsult
      · cases hconsult
        simp [rateStats]
  | _ =>
    simp only [consult, maybeSignatureRateLimitResponse, maybePathShapeRateLimitResponse,
      maybeRateLimitResponse, maybeTrustedProxyRateLimitResponse] at hconsult
    split_ifs at hconsult <;> cases hconsult
    simp [rateStats]

theorem sound_rateLimited {limited : RateLimited} (h : limited.stats ∈ rateStats) :
    (Verdict.rateLimited limited).Sound := by
  refine sound_closing rfl visibleValues_retryAfter (by decide) ?_ ?_
  · have hall : ∀ stats ∈ rateStats, (stats.map HttpCounter.rate).countP (· ∈ verdictCounters) = 1 := by decide
    exact hall _ h
  · simp [Verdict.counters]

theorem sound_filterBlock {rule : FilterRule} (h : RuleOk rule) :
    (Verdict.filterBlock ⟨rule.id, rule.action.status, rule.action.body⟩).Sound := by
  have hid : rule.id.all isVisibleAscii = true :=
    List.all_eq_true.mpr fun b hb => isVisibleAscii_of_isAsciiGraphic (h.id.graphic b hb).1
  refine ⟨rfl, by simp [Verdict.counters], ?_, ?_⟩
  · rintro _ ⟨⟩
    exact closes_earlyRejection (List.forall_mem_singleton.mpr hid) _ _
  · rintro _ ⟨⟩ -
    exact isError_statusFromU16 h.action.status

theorem sound_of_concluded {concluded : Concluded} (stats : ForwardingStats) (out : Request)
    (hfair : (concluded.stats.map HttpCounter.forward).countP (· ∈ verdictCounters) =
      (!concluded.stats.isEmpty).toNat)
    (hstatus : ∀ status body, concluded.response = .generated status body →
      400 ≤ status ∧ status ≤ 599) :
    (Verdict.exchanged stats out concluded).Sound := by
  obtain ⟨hsame, htotal⟩ := rewriteCounters_fair stats (concluded.stats.map .forward) (by simp)
  refine ⟨hsame.trans hfair, htotal, ?_, ?_⟩
  · intro response hresponse
    rcases hcases : concluded.response with ⟨status, body⟩ | ⟨status, headers, body⟩
    · rw [Verdict.response, hcases] at hresponse
      cases hresponse
      exact closes_closing visibleValues_nil _ _
    · rw [Verdict.response, hcases] at hresponse
      cases hresponse
  · intro response hresponse _
    rcases hcases : concluded.response with ⟨status, body⟩ | ⟨status, headers, body⟩
    · rw [Verdict.response, hcases] at hresponse
      cases hresponse
      exact hstatus status body hcases
    · rw [Verdict.response, hcases] at hresponse
      cases hresponse

theorem sound_exchanged (cfg : ForwardConfig) (pathShape : Str) (nowMs : ℕ) (exchange : Exchange)
    (stats : ForwardingStats) (out : Request) :
    (Verdict.exchanged stats out (concludeExchange cfg pathShape nowMs exchange)).Sound := by
  unfold concludeExchange
  split
  · split
    · exact sound_of_concluded stats out rfl (by rintro _ _ ⟨⟩; decide)
    · split
      · exact sound_of_concluded stats out rfl (by rintro _ _ ⟨⟩; decide)
      · split
        · exact sound_of_concluded stats out rfl (by rintro _ _ ⟨⟩; decide)
        · exact sound_of_concluded stats out rfl (by rintro _ _ ⟨⟩)
  · split
    · rename_i error _
      refine sound_of_concluded stats out rfl ?_
      cases error <;> (rintro _ _ ⟨⟩; decide)
    · refine sound_of_concluded stats out ?_ (by rintro _ _ ⟨⟩; decide)
      split <;> rfl
  · exact sound_of_concluded stats out rfl (by rintro _ _ ⟨⟩; decide)

/-! ## One turn -/

def CallStage.Sound : CallStage → Prop
  | .refuse _ verdict _ _ | .answered verdict => verdict.Sound
  | _ => True

/-- The rules that decide have been validated. -/
def RulesOk (s : ServiceState) : Prop := ∀ runtime ∈ s.proxy.engine.rules, RuleOk runtime.rule

/-- The verdict is sound, and the guards of the bodies have counted at most one body as too large,
that of a request which has been sent. -/
structure Call.Sound (S : Service) (c : Call) : Prop where
  stage : c.stage.Sound
  guards : c.guarded ⊆ guardCounters
  once : c.guarded.count .bodyRejected +
    (c.upload.getD S.forwardConfig.requestBody).stats.toNat ≤ 1
  sent : c.guarded ≠ [] → c.stage.sent.isSome = true

def ServiceTask.Sound (S : Service) : ServiceTask → Prop
  | .call c => c.Sound S
  | .publish loaded _ => ∀ rule ∈ loaded, RuleOk rule
  | _ => True

section Turn

variable {S : Service} {s s' : ServiceState} {req : ClientRequest} {t : Tick}
  {stage stage' : CallStage} {c c' : Call}

theorem Moves.sound (h : Moves S s req t stage s' stage') (hrules : RulesOk s)
    (hs : stage.Sound) : stage'.Sound := by
  cases h with
  | veto hvet => exact sound_vetoed (vetoesSoundly_vet S req _ hvet)
  | adminLimited hconsult => exact sound_rateLimited (stats_of_consult hconsult)
  | limited hconsult => exact sound_rateLimited (stats_of_consult hconsult)
  | adminAnswer hanswer => exact sound_admin _
  | bodyTooLarge => exact sound_bodyTooLarge
  | blocked hblock =>
    obtain ⟨runtime, hmem, rfl, -⟩ := FilterEngine.evaluateRules_eq_some hblock
    exact sound_filterBlock (hrules runtime hmem)
  | refuse => exact hs
  | circuitOpen => exact sound_circuitOpen
  | notRewritten hrewrite => exact sound_notRewritten _ _
  | noTrustedProxyPermit => exact sound_trustedProxyInFlight _
  | noPermit => exact sound_inFlight _
  | concluded hend =>
    subst hend
    exact sound_exchanged _ _ _ _ _ _
  | _ => trivial

theorem Moves.sent (h : Moves S s req t stage s' stage') (hsent : stage.sent.isSome = true) :
    stage'.sent.isSome = true := by
  cases h with
  | concluded hend => rfl
  | _ => cases hsent

theorem sent_of_responseBody {body : ResponseGuardBody} (h : stage.responseBody = some body) :
    stage.sent.isSome = true := by
  cases stage with
  | answered verdict =>
    cases verdict with
    | exchanged stats out concluded => rfl
    | _ => cases h
  | _ => cases h

/-- Each failure of the body of a request costs its guard the counters. -/
theorem count_bodyRejected_upload (body : GuardedBody) (event : PollEvent (List LibraryError)) :
    ((body.pollFrame event).stats.map uploadCounter).count .bodyRejected +
      (body.pollFrame event).body.stats.toNat ≤ body.stats.toNat := by
  have hle : ((body.pollFrame event).stats.map uploadCounter).count .bodyRejected ≤
      (body.pollFrame event).stats.countP GuardStat.isFailure := by
    rw [List.count, List.countP_map]
    refine List.countP_mono_left fun stat _ hstat => ?_
    rcases stat with error | _
    · rfl
    · cases hstat
  calc ((body.pollFrame event).stats.map uploadCounter).count .bodyRejected +
        (body.pollFrame event).body.stats.toNat
      ≤ (body.pollFrame event).stats.countP GuardStat.isFailure +
        (body.pollFrame event).body.stats.toNat := Nat.add_le_add_right hle _
    _ = body.stats.toNat := body.failures_pollFrame event

theorem upload_subset (stats : List GuardStat) : stats.map uploadCounter ⊆ guardCounters := by
  intro counter hcounter
  obtain ⟨stat, -, rfl⟩ := List.mem_map.mp hcounter
  rcases stat with error | _
  · cases error <;> decide
  · decide

theorem download_subset (stats : List ResponseGuardStat) :
    stats.map downloadCounter ⊆ guardCounters := by
  intro counter hcounter
  obtain ⟨stat, -, rfl⟩ := List.mem_map.mp hcounter
  rcases stat with error | _
  · cases error <;> decide
  · decide

theorem bodyRejected_notMem_download (stats : List ResponseGuardStat) :
    HttpCounter.bodyRejected ∉ stats.map downloadCounter := by
  intro hmem
  obtain ⟨stat, -, hstat⟩ := List.mem_map.mp hmem
  rcases stat with error | _
  · cases error <;> cases hstat
  · cases hstat

theorem CallTurn.sound (h : CallTurn S s t c s' c') (hrules : RulesOk s) (hs : c.Sound S) :
    c'.Sound S := by
  cases h with
  | moved hmoves =>
    exact ⟨hmoves.sound hrules hs.stage, hs.guards, hs.once,
      fun hguarded => hmoves.sent (hs.sent hguarded)⟩
  | @upload out event hsent =>
    refine ⟨hs.stage, ?_, ?_, fun _ => by simp [Call.pollUpload, hsent]⟩
    · exact List.append_subset_of_subset_of_subset hs.guards (upload_subset _)
    · have hcount := count_bodyRejected_upload (c.upload.getD S.forwardConfig.requestBody) event
      have honce := hs.once
      simp only [Call.pollUpload, List.count_append, Option.getD_some]
      omega
  | @download body event hbody =>
    refine ⟨hs.stage, ?_, ?_, fun _ => sent_of_responseBody hbody⟩
    · exact List.append_subset_of_subset_of_subset hs.guards (download_subset _)
    · have hnone := List.count_eq_zero_of_not_mem
        (bodyRejected_notMem_download ((c.download.getD body).pollFrame event).stats)
      have honce := hs.once
      simp only [Call.pollDownload, List.count_append, hnone]
      exact honce

/-- Activations only change deadlines. -/
theorem rules_observe (P : HttpProxy) (s : ProxyState) (req : HttpRequest) (reason : String)
    (shape : Str) :
    (P.observe s req reason shape).1.engine.rules.map RuntimeRule.rule =
      s.engine.rules.map RuntimeRule.rule := by
  have hall : ∀ (activated : List Evidence) (engine : EngineState),
      (P.activateAll req engine activated).rules.map RuntimeRule.rule =
        engine.rules.map RuntimeRule.rule := by
    intro activated
    induction activated with
    | nil => exact fun _ => rfl
    | cons evidence rest ih =>
      intro engine
      exact (ih _).trans (FilterEngine.activateRules_rules P.engine _ 0 _ _)
  exact hall _ _

theorem Moves.rules (h : Moves S s req t stage s' stage') :
    s'.proxy.engine.rules.map RuntimeRule.rule = s.proxy.engine.rules.map RuntimeRule.rule := by
  cases h with
  | observe => exact rules_observe _ _ _ _ _
  | refuse => exact rules_observe _ _ _ _ _
  | _ => rfl

theorem CallTurn.rules (h : CallTurn S s t c s' c') :
    s'.proxy.engine.rules.map RuntimeRule.rule = s.proxy.engine.rules.map RuntimeRule.rule := by
  cases h with
  | moved hmoves => exact hmoves.rules
  | upload hsent => rfl
  | download hbody => rfl

theorem rulesOk_iff : RulesOk s ↔ ∀ rule ∈ s.proxy.engine.rules.map RuntimeRule.rule, RuleOk rule :=
  List.forall_mem_map.symm

/-- A turn counts what it adds to the increments of the request. -/
structure Counts (s s' : ServiceState) (before after : List HttpCounter) (counter : HttpCounter)
    (n : ℕ) : Prop where
  stats : s'.stats counter ≡ s.stats counter + n [MOD 2 ^ 64]
  counted : after.count counter = before.count counter + n

theorem counts_same (hstats : s'.stats = s.stats) (l : List HttpCounter) (counter : HttpCounter) :
    ∃ n, Counts s s' l l counter n := ⟨0, by rw [hstats, Nat.add_zero], rfl⟩

theorem counts_added {s₀ : ServiceState} (hstats : s₀.stats = s.stats) (l added : List HttpCounter)
    (counter : HttpCounter) : ∃ n, Counts s (s₀.count added) l (l ++ added) counter n := by
  refine ⟨added.count counter, ?_, List.count_append⟩
  rw [← hstats]
  exact Nat.mod_modEq _ _

theorem Moves.counts (h : Moves S s req t stage s' stage') (counter : HttpCounter) :
    ∃ n, Counts s s' stage.counted stage'.counted counter n := by
  cases h with
  | veto hvet => exact counts_added (by rfl) [] _ counter
  | admin hvet hadmin => exact counts_added (by rfl) [] _ counter
  | plain hvet hadmin => exact counts_added (by rfl) [] _ counter
  | adminLimited hconsult => exact counts_added (by rfl) [.total] _ counter
  | limited hconsult => exact counts_added (by rfl) [.total] _ counter
  | bodyTooLarge => exact counts_added (by rfl) [.total] _ counter
  | blocked hblock => exact counts_added (by rfl) [.total] _ counter
  | circuitOpen => exact counts_added (by rfl) [.total] _ counter
  | notRewritten hrewrite => exact counts_added (by rfl) [.total] _ counter
  | rewritten hrewrite => exact counts_added (by rfl) [.total] _ counter
  | noTrustedProxyPermit => exact counts_added (by rfl) (.total :: rewriteCounters _) _ counter
  | noPermit => exact counts_added (by rfl) (.total :: rewriteCounters _) _ counter
  | concluded hend => exact counts_added (by rfl) (.total :: rewriteCounters _) _ counter
  | _ => exact counts_same (by rfl) _ counter

theorem CallTurn.counts (h : CallTurn S s t c s' c') (counter : HttpCounter) :
    ∃ n, Counts s s' (c.stage.counted ++ c.guarded) (c'.stage.counted ++ c'.guarded) counter n := by
  cases h with
  | moved hmoves =>
    obtain ⟨n, hn⟩ := hmoves.counts counter
    refine ⟨n, hn.stats, ?_⟩
    rw [List.count_append, List.count_append]
    have hcounted := hn.counted
    simp only [Call.goto]
    omega
  | upload hsent =>
    simp only [Call.pollUpload, ← List.append_assoc]
    exact counts_added rfl _ _ counter
  | download hbody =>
    simp only [Call.pollDownload, ← List.append_assoc]
    exact counts_added rfl _ _ counter

end Turn

/-! ## All turns -/

section Run

variable {S : Service} {now : Instant} {s : Sys ServiceState ServiceTask}
  {tr : List (Turn ServiceState ServiceTask)}

/-- What holds of the service at any time. -/
structure Service.Holds (S : Service) (s : Sys ServiceState ServiceTask) : Prop where
  rules : RulesOk s.shared
  tasks : ∀ task ∈ s.procs, task.Sound S
  stats : ∀ counter, s.shared.stats counter ≡
    (s.procs.map fun task => task.counted.count counter).sum [MOD 2 ^ 64]

theorem service_holds_init (S : Service) (now : Instant) : S.Holds (S.init now) where
  rules := by
    intro runtime hmem
    cases hmem
  tasks := by
    intro task hmem
    cases hmem
  stats _ := rfl

theorem sound_ofArrival (S : Service) (a : Arrival) : (ServiceTask.ofArrival a).Sound S := by
  cases a with
  | request req =>
    refine ⟨trivial, List.nil_subset _, ?_, fun hguarded => absurd rfl hguarded⟩
    exact le_rfl
  | reload file => trivial
  | connection reads => trivial

theorem Service.Holds.spawn (h : S.Holds s) (a : Arrival) :
    S.Holds ⟨s.shared, s.procs ++ [S.program.start a]⟩ := by
  refine ⟨h.rules, ?_, ?_⟩
  · exact Everywhere.spawn (A := fun _ => ServiceTask.Sound S) h.tasks (sound_ofArrival S a)
  · intro counter
    have hzero : (S.program.start a).counted.count counter = 0 := by
      cases a <;> rfl
    simpa [hzero] using h.stats counter

/-- What a turn of a task does. -/
structure TaskTurn (S : Service) (s : ServiceState) (task : ServiceTask) (s' : ServiceState)
    (task' : ServiceTask) : Prop where
  rules : RulesOk s'
  sound : task'.Sound S
  counts : ∀ counter, ∃ n, Counts s s' task.counted task'.counted counter n

theorem taskTurn_of_step {s s' : ServiceState} {task task' : ServiceTask} {t : Tick}
    (hrules : RulesOk s) (hsound : task.Sound S) (h : task.step S s t = some (s', task')) :
    TaskTurn S s task s' task' := by
  cases task with
  | call c =>
    obtain ⟨⟨s'', c'⟩, hstep, hresult⟩ := Option.map_eq_some_iff.mp h
    cases hresult
    have hturn := turn_of_step hstep
    refine ⟨?_, hturn.sound hrules hsound, hturn.counts⟩
    rw [rulesOk_iff, hturn.rules, ← rulesOk_iff]
    exact hrules
  | reload file =>
    rw [ServiceTask.step] at h
    cases hprepare : S.engine.prepare S.platform file with
    | error err =>
      rw [hprepare] at h
      cases h
      exact ⟨hrules, trivial, counts_same (by rfl) []⟩
    | ok loaded =>
      rw [hprepare] at h
      cases h
      refine ⟨hrules, ?_, counts_same (by rfl) []⟩
      obtain ⟨runtime, -, -, hvalid, rfl⟩ := FilterEngine.prepare_eq_ok.mp hprepare
      intro rule hmem
      exact hvalid rule ((List.mem_insertionSort _).mp hmem)
  | publish loaded nowMs =>
    cases h
    refine ⟨?_, trivial, counts_same (by rfl) []⟩
    intro runtime hmem
    exact hsound runtime.rule (FilterEngine.mem_rules_publish hmem).1
  | done => cases h
  | connection reads =>
    obtain ⟨verdict, -, hresult⟩ := Option.map_eq_some_iff.mp h
    cases verdict with
    | ok stream =>
      cases hresult
      exact ⟨hrules, trivial, counts_same (by rfl) []⟩
    | error refusal =>
      cases hresult
      exact ⟨hrules, trivial, counts_added (by rfl) [] _⟩
  | prechecked refusal => cases h

theorem Service.Holds.turn (h : S.Holds s) {pid : ℕ} {task task' : ServiceTask}
    {sh : ServiceState} {t : Tick} (htask : s.procs[pid]? = some task)
    (hstep : task.step S s.shared t = some (sh, task')) :
    S.Holds ⟨sh, s.procs.set pid task'⟩ := by
  have hturn := taskTurn_of_step h.rules (h.tasks task (List.mem_of_getElem? htask)) hstep
  refine ⟨hturn.rules, ?_, ?_⟩
  · exact Everywhere.turn (A := fun _ => ServiceTask.Sound S) h.tasks hturn.sound
      fun _ _ _ _ hr => hr
  · intro counter
    obtain ⟨n, hcounts⟩ := hturn.counts counter
    exact tallied_turn (q := fun s : ServiceState => s.stats counter) (h.stats counter) htask
      hcounts.stats hcounts.counted

theorem service_holds (h : S.program.Run (S.init now) tr s) : S.Holds s :=
  h.invariant (service_holds_init S now) (fun _ a h => h.spawn a)
    fun _ _ _ _ _ _ h htask hstep => h.turn htask hstep

theorem Verdict.Sound.settles {verdict : Verdict} (h : verdict.Sound) :
    (HttpCounter.total :: verdict.counters).count .total =
      (HttpCounter.total :: verdict.counters).countP (· ∈ verdictCounters) +
        verdict.uncounted.toNat := by
  rw [List.count_cons_self, List.count_eq_zero_of_not_mem h.total, List.countP_cons, h.fair]
  cases verdict.uncounted <;> rfl

theorem settles_rewritten (stats : ForwardingStats) :
    (HttpCounter.total :: rewriteCounters stats).count .total =
      (HttpCounter.total :: rewriteCounters stats).countP (· ∈ verdictCounters) + 1 := by
  obtain ⟨hnone, htotal⟩ := rewriteCounters_fair stats [] List.not_mem_nil
  rw [List.append_nil] at hnone htotal
  rw [List.count_cons_self, List.count_eq_zero_of_not_mem htotal, List.countP_cons, hnone]
  rfl

/-- Of each request, `handle_http` moves one counter that tells how it ended, unless it is not
settled. -/
theorem CallStage.Sound.settles {stage : CallStage} (h : stage.Sound) :
    stage.counted.count .total =
      stage.counted.countP (· ∈ verdictCounters) + stage.unsettled.toNat := by
  cases stage with
  | refuse who verdict reason shape => exact Verdict.Sound.settles h
  | answered verdict => exact Verdict.Sound.settles h
  | permits who stats out => exact settles_rewritten stats
  | exchange who stats out => exact settles_rewritten stats
  | _ => rfl

/-- Of the counters of the guards, one tells of an end of requests as well. -/
theorem guarded_settles {guarded : List HttpCounter} (h : guarded ⊆ guardCounters) :
    guarded.count .total = 0 ∧
      guarded.countP (· ∈ verdictCounters) = guarded.count .bodyRejected := by
  have hguards : ∀ counter ∈ guardCounters, counter ≠ .total ∧
      (counter ∈ verdictCounters ↔ counter = .bodyRejected) := by decide
  constructor
  · refine List.count_eq_zero_of_not_mem fun hmem => ?_
    exact (hguards _ (h hmem)).1 rfl
  · refine List.countP_congr fun counter hmem => ?_
    simpa using (hguards counter (h hmem)).2

theorem count_bodyRejected_eq {guarded : List HttpCounter} (h : guarded.count .bodyRejected ≤ 1) :
    guarded.count .bodyRejected = (decide (HttpCounter.bodyRejected ∈ guarded)).toNat := by
  by_cases hmem : HttpCounter.bodyRejected ∈ guarded
  · have hpos := List.count_pos_iff.mpr hmem
    simp only [hmem, decide_true, Bool.toNat_true]
    omega
  · rw [List.count_eq_zero_of_not_mem hmem, decide_eq_false hmem]
    rfl

/-- What moves the counters that tell how requests ended: one increment for each request that is
settled, and one more for each body that is cut and each connection that is turned away. -/
theorem ServiceTask.Sound.settles {task : ServiceTask} (h : task.Sound S) :
    task.counted.count .total + task.cut.toNat + task.turnedAway.toNat =
      task.counted.countP (· ∈ verdictCounters) + task.unsettled.toNat := by
  cases task with
  | call c =>
    have hstage := CallStage.Sound.settles h.stage
    obtain ⟨htotal, hverdicts⟩ := guarded_settles h.guards
    have hcut := count_bodyRejected_eq (le_of_add_le_left h.once)
    simp only [ServiceTask.counted, ServiceTask.cut, ServiceTask.turnedAway,
      ServiceTask.unsettled, List.count_append, List.countP_append, htotal, hverdicts, hcut,
      hstage, Bool.toNat_false]
    omega
  | prechecked refusal =>
    rcases refusal with _ | refusal
    · rfl
    · cases refusal <;> rfl
  | _ => rfl

/-! ### Three requests -/

/-- The defaults of a listener, in front of `localUpstream`. -/
def shopConfig : Config.HttpConfig where
  listen := "0.0.0.0:8080"
  clientIp := Config.defaultClientIpConfig
  upstream := "http://127.0.0.1:9000"
  preserveHost := true
  adminPathPrefix := "/__altura"
  adminToken := none
  allowedMethods := Config.defaultHttpAllowedMethods
  allowMethodOverrideHeaders := false
  requireHostHeader := true
  maxHostBytes := 255
  allowedHosts := []
  listenBacklog := 4096
  acceptShards := 1
  maxHeaderBytes := 32768
  maxHeaderLineBytes := 8192
  maxHeaders := 100
  maxUriBytes := 8192
  maxQueryBytes := 4096
  maxQueryPairs := 128
  maxPathSegments := 64
  headerReadTimeoutMs := 5000
  downstreamKeepAlive := false
  downstreamWriteTimeoutMs := 15000
  upstreamTimeoutMs := 15000
  upstreamConnectTimeoutMs := 1000
  upstreamFailureThreshold := 8
  upstreamFailureOpenMs := 1000
  upstreamPoolIdleTimeoutMs := 30000
  upstreamPoolMaxIdlePerHost := 256
  upstreamMaxHeaderBytes := 32768
  upstreamMaxHeaderLineBytes := 8192
  upstreamMaxHeaders := 100
  upstreamBodyIdleTimeoutMs := 15000
  maxUpstreamBodyBytes := 104857600
  upstreamBodyMinRateBytesPerSecond := 512
  upstreamBodyMinRateGraceMs := 10000
  maxConnectionDurationSeconds := 120
  maxRequestsPerConnection := 1000
  maxBodyBytes := 10485760
  requestBodyIdleTimeoutMs := 10000
  requestBodyMinRateBytesPerSecond := 512
  requestBodyMinRateGraceMs := 10000
  allowCompressedRequestBodies := false
  allowChunkedRequestBodies := false
  allowExpectContinue := false
  maxRanges := 1
  forwardAcceptEncoding := false
  forwardRequestTrailers := false
  maxTrailerBytes := 8192
  maxTrailers := 32
  forwardResponseTrailers := false
  upstreamMaxTrailerBytes := 8192
  upstreamMaxTrailers := 32
  limits := {}

/-- No file holds a filter. -/
def noFilters : Platform where
  debug _ := ""
  decode _ := .ok ()
  blank _ := true
  parse _ := .ok ⟨[]⟩

def shopService : Service where
  cfg := shopConfig
  clientIp := ⟨utf8 "x-forwarded-for", [], 1024, 32⟩
  upstream := localUpstream
  checks := plainChecks
  authorities := crateAuthorities
  methods := tokenMethods
  blake3 := id
  hashes := ⟨fun _ => 0, fun _ => 0⟩
  windowHash _ := 0
  circuitHash _ := 0
  detector := AdaptiveDetector.new ⟨true, 300, 5, 8192, 8192⟩
  activationTtl := 60000000000
  engine := FilterEngine.new [] "filters.json" 60000000000
  platform := noFilters

/-- A request for a path of the shop. -/
def shopRequest (method path : String) : ClientRequest where
  method := utf8 method
  uri := ⟨none, none, some (utf8 path)⟩
  headers := [(utf8 "host", utf8 "shop.example"), (utf8 "accept-encoding", utf8 "gzip")]
  peerIp := .v4 0xCB007107

/-- Permits are there, and the upstream answers. -/
def plainTick : Tick := ⟨0, 1000, 1000, true, true, .response 200 [], none⟩

/-- A page, a check of the health and a method that is not allowed: the second request comes while
the first is at its rate dimensions. -/
def threeRequests : List (Arrival ⊕ ℕ × Tick) :=
  [.inl (.request (shopRequest "GET" "/a"))] ++ List.replicate 5 (.inr (0, plainTick)) ++
    [.inl (.request (shopRequest "GET" "/__altura/health")),
      .inl (.request (shopRequest "TRACE" "/a")), .inr (2, plainTick)] ++
    List.replicate 8 (.inr (1, plainTick)) ++ List.replicate 9 (.inr (0, plainTick))

/-- The state of a request that a schedule leads to. -/
def callAfter (S : Service) (schedule : List (Arrival ⊕ ℕ × Tick)) (pid : ℕ) :
    Option ((List (Turn ServiceState ServiceTask) × Sys ServiceState ServiceTask) × Call) :=
  (S.program.exec schedule ([], S.init 0)).bind fun now =>
    match now.2.procs[pid]? with
    | some (.call c) => some (now, c)
    | _ => none

theorem run_of_callAfter {S : Service} {schedule : List (Arrival ⊕ ℕ × Tick)} {pid : ℕ}
    {tr : List (Turn ServiceState ServiceTask)} {s : Sys ServiceState ServiceTask} {c : Call}
    (h : callAfter S schedule pid = some ((tr, s), c)) :
    S.program.Run (S.init 0) tr s ∧ s.procs[pid]? = some (.call c) := by
  obtain ⟨now, hexec, hcall⟩ := Option.bind_eq_some_iff.mp h
  split at hcall
  · rename_i c' hproc
    cases hcall
    exact ⟨run_of_exec schedule .refl hexec, hproc⟩
  · cases hcall

/-- The check that has refused the request. -/
def CallStage.refusal : CallStage → Option Veto
  | .answered (.vetoed veto) => some veto
  | _ => none

theorem CallStage.eq_of_refusal {stage : CallStage} {veto : Veto} (h : stage.refusal = some veto) :
    stage = .answered (.vetoed veto) := by
  unfold CallStage.refusal at h
  split at h
  · cases h
    rfl
  · cases h

/-! ### Counters and responses -/

/-- **Every response that `handle_http` makes itself can be built, and ends the connection.**
Whatever the requests and the filter files are, it never answers with a field value that could not
be sent: the names of the rules that block have been validated, and the methods that are shown
are methods. Each such response tells caches not to keep it and says that the connection is
closed, so that a body that was not read is never taken for a next request; and apart from those
of the admin endpoints they are errors. -/
theorem own_responses_close (h : S.program.Run (S.init now) tr s) {c : Call}
    (hc : ServiceTask.call c ∈ s.procs) {verdict : Verdict} (hend : c.stage = .answered verdict)
    {response : Generated} (hresponse : verdict.response = .generated response) :
    response.Closes ∧ (∀ field ∈ response.headers, S.checks.headerValue field.2 = true) ∧
      ((∀ answer, verdict ≠ .admin answer) → response.IsError) := by
  have hsound : c.Sound S := (service_holds h).tasks _ hc
  have hverdict := hsound.stage
  rw [hend] at hverdict
  have hcloses := hverdict.closes response hresponse
  refine ⟨hcloses, fun field hfield => ?_, hverdict.error response hresponse⟩
  exact S.checks.headerValue_visible field.2 (hcloses.values field hfield)

theorem own_responses_close_refused_method : ∃ tr s c veto,
    shopService.program.Run (shopService.init 0) tr s ∧ s.procs[2]? = some (.call c) ∧
      c.stage = .answered (.vetoed veto) ∧ veto.response.status = 405 ∧
      veto.response.Closes ∧ veto.response.IsError := by
  have hsome : ((callAfter shopService threeRequests 2).map fun now =>
      now.2.stage.refusal.map (·.response.status)) = some (some 405) := by decide +kernel
  obtain ⟨⟨⟨tr, s⟩, c⟩, hcall, hrefusal⟩ := Option.map_eq_some_iff.mp hsome
  obtain ⟨veto, hveto, hstatus⟩ := Option.map_eq_some_iff.mp hrefusal
  have hstage := CallStage.eq_of_refusal hveto
  obtain ⟨hrun, hproc⟩ := run_of_callAfter hcall
  have hends := own_responses_close hrun (List.mem_of_getElem? hproc) hstage rfl
  exact ⟨tr, s, c, veto, hrun, hproc, hstage, hstatus, hends.1,
    hends.2.2 fun _ hadmin => Verdict.noConfusion hadmin⟩

end Run

end AlturaProt.Server
