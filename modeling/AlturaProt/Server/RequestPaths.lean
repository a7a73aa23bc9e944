import AlturaProt.Server.RequestRuns

/-!
# The ways of requests

Results about single requests of the service of `Server.Requests` by the turns that they have
taken themselves, in every interleaving with all the others: what a request has behind it when it
is sent to the upstream, and which requests leave no trace.
-/

namespace AlturaProt.Server

open Foundation Foundation.Program Limiter Filter Adaptive Http

/-! ## What gets to the upstream -/

/-- There was such a turn. -/
def Behind (turns : List (Turn ServiceState ServiceTask))
    (P : Turn ServiceState ServiceTask → Prop) : Prop := ∃ turn ∈ turns, P turn

theorem Behind.later {turns : List (Turn ServiceState ServiceTask)}
    {P : Turn ServiceState ServiceTask → Prop} (h : Behind turns P)
    (d : Turn ServiceState ServiceTask) : Behind (turns ++ [d]) P := by
  obtain ⟨turn, hmem, hturn⟩ := h
  exact ⟨turn, List.mem_append_left _ hmem, hturn⟩

theorem behind_last (turns : List (Turn ServiceState ServiceTask))
    {P : Turn ServiceState ServiceTask → Prop} {d : Turn ServiceState ServiceTask} (h : P d) :
    Behind (turns ++ [d]) P :=
  ⟨d, List.mem_append_right _ (List.mem_singleton_self d), h⟩

/-- In this turn the request has gone from one stage to another, and a tick at which the turn goes
so has the property. -/
def Goes (S : Service) (req : ClientRequest) (stage stage' : CallStage) (P : Tick → Prop)
    (turn : Turn ServiceState ServiceTask) : Prop :=
  ∃ c t, c.req = req ∧ c.stage = stage ∧ turn.proc = .call c ∧ turn.proc' = .call (c.goto stage') ∧
    turn.proc.step S turn.before t = some (turn.after, turn.proc') ∧ P t

/-- The turn in which the request is at a rate dimension, and gets a token of it. -/
def Admitted (S : Service) (req : ClientRequest) (who : Vetted) (d : Dimension)
    (turn : Turn ServiceState ServiceTask) : Prop :=
  ∃ left, Goes S req (.rates who false (d :: left)) (.rates who false left) (fun t =>
    (consult S.proxy.limiters S.hashes (S.rates req who) (fun _ => t.now) d
      (turn.before.proxy.rates d)).2 = none) turn

/-- The turn in which the request is at the filters, and none that is awake matches it. -/
def Unfiltered (S : Service) (req : ClientRequest) (who : Vetted)
    (turn : Turn ServiceState ServiceTask) : Prop :=
  Goes S req (.filters who) (.circuit who) (fun t =>
    FilterEngine.evaluate turn.before.proxy.engine (S.context req) t.unixMs = none) turn

/-- The turn in which the request is at the circuit of its path shape, and that is closed. -/
def CircuitClosed (S : Service) (req : ClientRequest) (who : Vetted)
    (turn : Turn ServiceState ServiceTask) : Prop :=
  Goes S req (.circuit who) (.rewrite who) (fun t =>
    S.circuit.isOpen S.circuitHash turn.before.circuit (requestPathShape req.uri.path)
      t.circuitMs = false) turn

/-- The request has passed the checks and is not for an admin endpoint. -/
structure Plain (S : Service) (req : ClientRequest) (who : Vetted) : Prop where
  vet : S.vet req = .ok who
  admin : S.adminEndpoint req = none

/-- The request has also passed everything that the requests share. -/
structure Cleared (S : Service) (req : ClientRequest) (who : Vetted)
    (turns : List (Turn ServiceState ServiceTask)) : Prop extends Plain S req who where
  admitted : ∀ d ∈ requestOrder, Behind turns (Admitted S req who d)
  unfiltered : Behind turns (Unfiltered S req who)
  closed : Behind turns (CircuitClosed S req who)

theorem Cleared.later {S : Service} {req : ClientRequest} {who : Vetted}
    {turns : List (Turn ServiceState ServiceTask)} (h : Cleared S req who turns)
    (d : Turn ServiceState ServiceTask) : Cleared S req who (turns ++ [d]) where
  toPlain := h.toPlain
  admitted dim hdim := (h.admitted dim hdim).later d
  unfiltered := h.unfiltered.later d
  closed := h.closed.later d

/-- What a request has behind it, by the turns it has taken. -/
def Passed (S : Service) (req : ClientRequest) (turns : List (Turn ServiceState ServiceTask)) :
    CallStage → Prop
  | .arrived => True
  | .rates who true _ | .adminAnswer who => S.vet req = .ok who
  | .observe who | .body who => Plain S req who
  | .rates who false left => Plain S req who ∧
      ∃ passed, passed ++ left = requestOrder ∧
        ∀ d ∈ passed, Behind turns (Admitted S req who d)
  | .filters who => Plain S req who ∧ ∀ d ∈ requestOrder, Behind turns (Admitted S req who d)
  | .circuit who => Plain S req who ∧
      (∀ d ∈ requestOrder, Behind turns (Admitted S req who d)) ∧ Behind turns (Unfiltered S req who)
  | .rewrite who => Cleared S req who turns
  | .permits who stats out | .exchange who stats out =>
    Cleared S req who turns ∧ S.rewrite req who = (stats, .ok out)
  | .answered (.exchanged stats out _) =>
    ∃ who, Cleared S req who turns ∧ S.rewrite req who = (stats, .ok out)
  | .refuse _ (.exchanged _ _ _) _ _ => False
  | .refuse _ _ _ _ | .answered _ => True

theorem adminAnswer_eq_none_iff {S : Service} {req : ClientRequest} :
    S.adminAnswer req = none ↔ S.adminEndpoint req = none :=
  Option.map_eq_none_iff

section Turns

variable {S : Service} {c : Call} {t : Tick} {stage' : CallStage}
  {turns : List (Turn ServiceState ServiceTask)} {d : Turn ServiceState ServiceTask}

/-- The request goes on in this turn, at this tick. -/
structure Advances (S : Service) (c : Call) (t : Tick) (stage' : CallStage)
    (d : Turn ServiceState ServiceTask) : Prop where
  proc : d.proc = .call c
  proc' : d.proc' = .call (c.goto stage')
  step : d.proc.step S d.before t = some (d.after, d.proc')
  moves : Moves S d.before c.req t c.stage d.after stage'

theorem Advances.goes (h : Advances S c t stage' d) {stage : CallStage} (hstage : c.stage = stage)
    {P : Tick → Prop} (ht : P t) : Goes S c.req stage stage' P d :=
  ⟨c, t, rfl, hstage, h.proc, h.proc', h.step, ht⟩

/-- A turn adds to what is behind the request what its next stage asks for. -/
theorem Advances.passed (h : Advances S c t stage' d) (hpassed : Passed S c.req turns c.stage) :
    Passed S c.req (turns ++ [d]) stage' := by
  have hmoves := h.moves
  generalize hstage : c.stage = stage at hmoves hpassed
  generalize d.after = after at hmoves
  cases hmoves with
  | admin hvet hadmin => exact hvet
  | plain hvet hadmin => exact ⟨hvet, hadmin⟩
  | @admitted who admin dim left tracked hconsult =>
    cases admin with
    | true => exact hpassed
    | false =>
      obtain ⟨hplain, passed, horder, hadmitted⟩ := hpassed
      refine ⟨hplain, passed ++ [dim], by simpa using horder, ?_⟩
      intro other hother
      rcases List.mem_append.mp hother with hother | hother
      · exact (hadmitted other hother).later d
      · rw [List.mem_singleton.mp hother]
        exact behind_last turns ⟨left, h.goes hstage (congrArg Prod.snd hconsult)⟩
  | adminAdmitted => exact hpassed
  | ratesAdmitted =>
    obtain ⟨hplain, passed, horder, hadmitted⟩ := hpassed
    rw [List.append_nil] at horder
    subst horder
    exact ⟨hplain, fun dim hdim => (hadmitted dim hdim).later d⟩
  | noAnswer hanswer => exact ⟨hpassed, adminAnswer_eq_none_iff.mp hanswer⟩
  | observe => exact hpassed
  | bodyFits hfits => exact ⟨hpassed, [], rfl, nofun⟩
  | unfiltered hpass =>
    refine ⟨hpassed.1, fun dim hdim => (hpassed.2 dim hdim).later d, ?_⟩
    exact behind_last turns (h.goes hstage hpass)
  | circuitClosed hclosed =>
    obtain ⟨hplain, hadmitted, hunfiltered⟩ := hpassed
    refine ⟨hplain, fun dim hdim => (hadmitted dim hdim).later d, hunfiltered.later d, ?_⟩
    exact behind_last turns (h.goes hstage hclosed)
  | rewritten hrewrite => exact ⟨hpassed.later d, hrewrite⟩
  | permitted hproxy hpermit => exact ⟨hpassed.1.later d, hpassed.2⟩
  | concluded hend => exact ⟨_, hpassed.1.later d, hpassed.2⟩
  | @refuse who verdict reason shape =>
    cases verdict with
    | exchanged stats out concluded => exact hpassed.elim
    | _ => trivial
  | _ => trivial

/-- A poll of a body takes nothing away. -/
theorem Passed.later {req : ClientRequest} {stage : CallStage} (h : Passed S req turns stage)
    (hsent : stage.sent.isSome = true) (d : Turn ServiceState ServiceTask) :
    Passed S req (turns ++ [d]) stage := by
  cases stage with
  | exchange who stats out => exact ⟨h.1.later d, h.2⟩
  | answered verdict =>
    cases verdict with
    | exchanged stats out concluded =>
      obtain ⟨who, hcleared, hrewrite⟩ := h
      exact ⟨who, hcleared.later d, hrewrite⟩
    | _ => cases hsent
  | _ => cases hsent

end Turns

/-! ### The headers of what is sent -/

section Forwarded

variable {S : Service} {req : ClientRequest} {who : Vetted} {stats : ForwardingStats}
  {out : Request}

/-- The lines of a field that the proxy does not set go out as they came in, or not at all. -/
theorem lines_of_rewrite (h : S.rewrite req who = (stats, .ok out)) {name : Str}
    (hname : name ∉ proxyFields) :
    out.headers.getAll name = [] ∨ out.headers.getAll name = req.headers.getAll name := by
  have hout : (rewriteRequest S.checks ⟨req.uri, req.headers⟩ S.upstream (S.forwarding req who)
      ⟨0, 0⟩).2 = .ok out := congrArg Prod.snd h
  rw [getAll_rewriteRequest hout, forwardedLines_of_notMem hname]
  split
  · exact Or.inl rfl
  · exact Or.inr rfl

/-- A request is vetted by all of these. -/
structure Checked (S : Service) (method : Str) (headers : HeaderMap) : Prop where
  method : methodAllowed method S.cfg.allowedMethods = true
  override : validateMethodOverrideHeaders headers S.cfg.allowMethodOverrideHeaders = .ok ()
  framing : validateRequestFraming headers S.cfg.allowChunkedRequestBodies = .ok ()
  encoding : validateRequestContentEncoding headers S.cfg.allowCompressedRequestBodies = .ok ()
  expect : validateRequestExpect headers S.cfg.allowExpectContinue = .ok ()
  range : validateRequestRange headers S.cfg.maxRanges = .ok ()

/-- Dropping lines of fields keeps the checks passed. -/
theorem Checked.forwarded (h : Checked S req.method req.headers)
    (hrewrite : S.rewrite req who = (stats, .ok out)) : Checked S req.method out.headers := by
  have hkept : ∀ name : String, utf8 name ∉ proxyFields →
      out.headers.getAll (utf8 name) = [] ∨
        out.headers.getAll (utf8 name) = req.headers.getAll (utf8 name) :=
    fun _ hname => lines_of_rewrite hrewrite hname
  refine ⟨h.method, ?_, ?_, ?_, ?_, ?_⟩
  · rw [methodOverride_ok_iff]
    refine (methodOverride_ok_iff.mp h.override).imp_right fun hnone name hname => ?_
    have hown : ∀ name ∈ methodOverrideNames, name ∉ proxyFields := by decide
    rcases lines_of_rewrite hrewrite (hown name hname) with hgone | hsame
    · exact hgone
    · rw [hsame]
      exact hnone name hname
  · have hframed := validateFraming_ok_iff.mp h.framing
    have hlength := hkept "content-length" (by simp [proxyFields, utf8_inj])
    have hcoding := hkept "transfer-encoding" (by simp [proxyFields, utf8_inj])
    exact validateFraming_ok_iff.mpr (hframed.without hlength hcoding)
  · rw [contentEncoding_ok_iff]
    rcases hkept "content-encoding" (by simp [proxyFields, utf8_inj]) with hnone | hsame
    · exact Or.inl hnone
    · rw [hsame]
      exact contentEncoding_ok_iff.mp h.encoding
  · rw [expect_ok_iff]
    rcases hkept "expect" (by simp [proxyFields, utf8_inj]) with hnone | hsame
    · exact Or.inl hnone
    · rw [hsame]
      exact expect_ok_iff.mp h.expect
  · rw [validateRequestRange_ok_iff]
    rcases hkept "range" (by simp [proxyFields, utf8_inj]) with hnone | hsame
    · exact Or.inl hnone
    · rw [hsame]
      exact validateRequestRange_ok_iff.mp h.range

end Forwarded

/-! ### Requests that were sent -/

section Sent

variable {S : Service} {now : Instant} {s : Sys ServiceState ServiceTask}
  {tr : List (Turn ServiceState ServiceTask)}

/-- Every turn of a run is a step of its task. -/
theorem step_of_turn (h : S.program.Run (S.init now) tr s) :
    ∀ d ∈ tr, ∃ t, d.proc.step S d.before t = some (d.after, d.proc') :=
  h.forall_turns (I := fun _ => True) (fun _ => trivial)
    fun _ _ _ t _ _ _ _ hstep => ⟨t, hstep⟩

/-- The turn leaves the detector, the filters and the circuits alone. -/
def Unnoticed (d : Turn ServiceState ServiceTask) : Prop :=
  d.after.proxy.windows = d.before.proxy.windows ∧ d.after.proxy.engine = d.before.proxy.engine ∧
    d.after.circuit = d.before.circuit

/-- The turn leaves the rate dimensions alone as well. -/
def Untracked (d : Turn ServiceState ServiceTask) : Prop :=
  d.after.proxy = d.before.proxy ∧ d.after.circuit = d.before.circuit

theorem Untracked.unnoticed {d : Turn ServiceState ServiceTask} (h : Untracked d) : Unnoticed d :=
  ⟨congrArg ProxyState.windows h.1, congrArg ProxyState.engine h.1, h.2⟩

/-- What is known of a request by its own turns, if the turns of `handle_http` and the polls of its
bodies keep it. A poll leaves everything but counters as it is. -/
theorem own_turns {Q : List (Turn ServiceState ServiceTask) → Call → Prop}
    (h : S.program.Run (S.init now) tr s) (hstart : ∀ req, Q [] (.new req))
    (hmoved : ∀ ds d c t stage', Advances S c t stage' d → Q ds c → Q (ds ++ [d]) (c.goto stage'))
    (hpolled : ∀ (ds : List (Turn ServiceState ServiceTask)) d (c c' : Call), c'.req = c.req →
      c'.stage = c.stage → c.stage.sent.isSome = true → Untracked d → Q ds c → Q (ds ++ [d]) c')
    {pid : ℕ} {c : Call} (hc : s.procs[pid]? = some (.call c)) : Q (own pid tr) c := by
  refine (h.own_induction (Q := fun ds task => ∀ c, task = .call c → Q ds c) rfl ?_ ?_).1 pid _ hc c
    rfl
  · intro a c hstarted
    cases a with
    | request req =>
      cases hstarted
      exact hstart req
    | reload file => cases hstarted
    | connection reads => cases hstarted
  · intro ds d hd ih c' hproc'
    obtain ⟨t, hstep⟩ := step_of_turn h d hd
    obtain ⟨j, before, proc, after, proc'⟩ := d
    obtain rfl : proc' = .call c' := hproc'
    dsimp only at hstep
    cases proc with
    | call c =>
      obtain ⟨⟨s', c''⟩, hcall, hresult⟩ := Option.map_eq_some_iff.mp hstep
      cases hresult
      have hturn := turn_of_step hcall
      cases hturn with
      | moved hmoves => exact hmoved ds _ c t _ ⟨rfl, rfl, hstep, hmoves⟩ (ih c rfl)
      | upload hsent =>
        refine hpolled ds _ c _ rfl rfl (Option.isSome_iff_exists.mpr ⟨_, hsent⟩) ?_ (ih c rfl)
        exact ⟨rfl, rfl⟩
      | download hbody =>
        refine hpolled ds _ c _ rfl rfl (sent_of_responseBody hbody) ?_ (ih c rfl)
        exact ⟨rfl, rfl⟩
    | reload file =>
      rw [ServiceTask.step] at hstep
      split at hstep <;> cases hstep
    | publish loaded nowMs =>
      have htask : ServiceTask.done = .call c' := congrArg Prod.snd (Option.some.inj hstep)
      cases htask
    | done => cases hstep
    | connection reads =>
      obtain ⟨verdict, -, hresult⟩ := Option.map_eq_some_iff.mp hstep
      cases verdict <;> cases hresult
    | prechecked refusal => cases hstep

/-- Where a request is that `vet` refuses, with the turns it had. -/
def Vetoed (veto : Veto) (ds : List (Turn ServiceState ServiceTask)) (c : Call) : Prop :=
  c.stage = .arrived ∧ ds = [] ∨
    c.stage = .answered (.vetoed veto) ∧ ∃ d, ds = [d] ∧ Untracked d

/-- The first turn of a request that is vetoed, and there is no other. -/
theorem Advances.vetoed {c : Call} {t : Tick} {stage' : CallStage}
    {d : Turn ServiceState ServiceTask} (h : Advances S c t stage' d) {veto : Veto}
    (hvet : S.vet c.req = .error veto) {ds : List (Turn ServiceState ServiceTask)}
    (hds : Vetoed veto ds c) : Vetoed veto (ds ++ [d]) (c.goto stage') := by
  have hmoves := h.moves
  obtain ⟨hstage, rfl⟩ | ⟨hstage, -⟩ := hds
  · rw [hstage] at hmoves
    generalize hafter : d.after = after at hmoves
    cases hmoves with
    | veto hveto =>
      rw [hvet] at hveto
      cases hveto
      refine .inr ⟨rfl, d, rfl, ?_, ?_⟩
      · rw [hafter]
        rfl
      · rw [hafter]
        rfl
    | admin hok =>
      rw [hvet] at hok
      cases hok
    | plain hok =>
      rw [hvet] at hok
      cases hok
  · rw [hstage] at hmoves
    cases hmoves

theorem vetoed_of_run (h : S.program.Run (S.init now) tr s) {pid : ℕ} {c : Call}
    (hc : s.procs[pid]? = some (.call c)) {veto : Veto} (hvet : S.vet c.req = .error veto) :
    Vetoed veto (own pid tr) c := by
  refine own_turns (Q := fun ds c => S.vet c.req = .error veto → Vetoed veto ds c) h
    (fun _ _ => .inl ⟨rfl, rfl⟩) ?_ ?_ hc hvet
  · intro ds d c t stage' hadvances ih hvet
    exact hadvances.vetoed hvet (ih hvet)
  · -- a request that is vetoed has no body to poll
    intro ds d c c' hreq _ hsent _ ih hvet
    rw [hreq] at hvet
    obtain ⟨hstage, -⟩ | ⟨hstage, -⟩ := ih hvet <;> rw [hstage] at hsent <;> cases hsent

/-- Where a request for an admin endpoint can be. -/
def CallStage.WithAdmin : CallStage → Prop
  | .arrived | .rates _ true _ | .adminAnswer _ | .answered (.vetoed _)
  | .answered (.rateLimited _) | .answered (.admin _) => True
  | _ => False

theorem CallStage.WithAdmin.unsent {stage : CallStage} (h : stage.WithAdmin) :
    stage.sent = none := by
  unfold CallStage.WithAdmin at h
  split at h
  all_goals first | rfl | exact h.elim

theorem Moves.withAdmin {s s' : ServiceState} {req : ClientRequest} {t : Tick}
    {stage stage' : CallStage} (h : Moves S s req t stage s' stage') {endpoint : AdminEndpoint}
    (hadmin : S.adminEndpoint req = some endpoint) (hstage : stage.WithAdmin) :
    stage'.WithAdmin ∧ s'.proxy.windows = s.proxy.windows ∧ s'.proxy.engine = s.proxy.engine ∧
      s'.circuit = s.circuit := by
  cases h with
  | veto hvet => exact ⟨trivial, rfl, rfl, rfl⟩
  | admin hvet _ => exact ⟨trivial, rfl, rfl, rfl⟩
  | plain hvet hnone =>
    rw [hnone] at hadmin
    cases hadmin
  | @admitted who admin dim left tracked hconsult =>
    cases admin with
    | true => exact ⟨trivial, rfl, rfl, rfl⟩
    | false => exact hstage.elim
  | adminLimited hconsult => exact ⟨trivial, rfl, rfl, rfl⟩
  | adminAdmitted => exact ⟨trivial, rfl, rfl, rfl⟩
  | adminAnswer hanswer => exact ⟨trivial, rfl, rfl, rfl⟩
  | noAnswer hanswer =>
    rw [adminAnswer_eq_none_iff.mp hanswer] at hadmin
    cases hadmin
  | _ => exact hstage.elim

theorem withAdmin_of_run (h : S.program.Run (S.init now) tr s) {pid : ℕ} {c : Call}
    (hc : s.procs[pid]? = some (.call c)) {endpoint : AdminEndpoint}
    (hadmin : S.adminEndpoint c.req = some endpoint) :
    c.stage.WithAdmin ∧ ∀ d ∈ own pid tr, Unnoticed d := by
  refine own_turns
    (Q := fun ds c => S.adminEndpoint c.req = some endpoint →
      c.stage.WithAdmin ∧ ∀ d ∈ ds, Unnoticed d) h (fun _ _ => ⟨trivial, by simp⟩) ?_ ?_ hc hadmin
  · intro ds d c t stage' hadvances ih hadmin
    obtain ⟨hstage, hturns⟩ := ih hadmin
    obtain ⟨hstage', hturn⟩ := hadvances.moves.withAdmin hadmin hstage
    refine ⟨hstage', List.forall_mem_append.mpr ⟨hturns, ?_⟩⟩
    exact List.forall_mem_singleton.mpr hturn
  · intro ds d c c' hreq hstage _ huntracked ih hadmin
    rw [hreq] at hadmin
    obtain ⟨hadmin, hturns⟩ := ih hadmin
    refine ⟨hstage ▸ hadmin, List.forall_mem_append.mpr ⟨hturns, ?_⟩⟩
    exact List.forall_mem_singleton.mpr huntracked.unnoticed

/-- **Requests that leave no trace.** A request that `vet` refuses, for its header lines, the header
with the client's address, its method, the override of a method, its host, framing, content coding,
expectation, ranges or target, is answered in one turn of its own, and nothing but counters changes
in it, whatever the others do: no token is spent on it, and the detector, the filters and the
circuits do not hear of it. A request for an admin endpoint spends tokens, and that is all: it is
never observed, never filtered and never sent. -/
theorem refused_and_admin_leave_no_trace (h : S.program.Run (S.init now) tr s) {pid : ℕ} {c : Call}
    (hc : s.procs[pid]? = some (.call c)) :
    (∀ veto, S.vet c.req = .error veto → Vetoed veto (own pid tr) c) ∧
    (∀ endpoint, S.adminEndpoint c.req = some endpoint →
      c.stage.sent = none ∧ ∀ d ∈ own pid tr, Unnoticed d) := by
  refine ⟨fun veto hvet => vetoed_of_run h hc hvet, fun endpoint hadmin => ?_⟩
  obtain ⟨hstage, hturns⟩ := withAdmin_of_run h hc hadmin
  exact ⟨hstage.unsent, hturns⟩

theorem refused_and_admin_leave_no_trace_health : ∃ tr s c,
    shopService.program.Run (shopService.init 0) tr s ∧ s.procs[1]? = some (.call c) ∧
      (own 1 tr).length = 8 ∧ c.stage.sent = none ∧ ∀ d ∈ own 1 tr, Unnoticed d := by
  have hsome : ((callAfter shopService threeRequests 1).map fun now =>
      ((own 1 now.1.1).length, shopService.adminEndpoint now.2.req)) = some (8, some .health) := by
    decide +kernel
  obtain ⟨⟨⟨tr, s⟩, c⟩, hcall, hfacts⟩ := Option.map_eq_some_iff.mp hsome
  simp only [Prod.mk.injEq] at hfacts
  obtain ⟨hrun, hproc⟩ := run_of_callAfter hcall
  obtain ⟨hsent, hturns⟩ := (refused_and_admin_leave_no_trace hrun hproc).2 _ hfacts.2
  exact ⟨tr, s, c, hrun, hproc, hfacts.1, hsent, hturns⟩

end Sent

end AlturaProt.Server
