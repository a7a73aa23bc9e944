import AlturaProt.Filter.Engine

/-!
# Activations across reloads

Every deadline is kept twice: in the snapshot, where `evaluate` reads it, and in
the map that a reload carries over to the next snapshot. Runs of reloads and
activations keep the two copies equal, and the map never forgets a deadline that
is still ahead while its rule is published (`activation_survives_reloads`).

The map is keyed by rule id alone. A reload that publishes another rule under an
id with a live deadline hands the deadline to a rule nobody activated
(`reused_id_is_awake`); as long as reloads do not do that, an adaptive rule only
decides on evidence for itself (`adaptive_rules_dormant`).
-/

namespace AlturaProt.Filter

open Foundation

/-! ## Runs -/

/-- The operations that take the deadline lock. -/
inductive EngineOp where
  | reload (file : RuntimeFile) (nowMs : ℕ)
  | activate (call : ActivationCall)

namespace FilterEngine

variable (e : FilterEngine) (P : Platform)

def step (s : EngineState) : EngineOp → EngineState
  | .reload file nowMs => (e.reload P s file nowMs).1
  | .activate call => (e.activate s call).1

/-- The activations the loop over the snapshot performs, in order. -/
def activationsFrom (call : ActivationCall) : ℕ → List RuntimeRule → List Activation
  | _, [] => []
  | i, runtime :: rest =>
    (e.activation call i runtime).toList ++ activationsFrom call (i + 1) rest

/-- The activations of one operation. -/
def activations (s : EngineState) : EngineOp → List Activation
  | .reload _ _ => []
  | .activate call => e.activationsFrom call 0 s.rules

/-- The engine after a run of operations. -/
def run (s : EngineState) (ops : List EngineOp) : EngineState := ops.foldl (e.step P) s

/-! ## What an activation does -/

variable {e P} {call : ActivationCall} {i : ℕ} {rules : List RuntimeRule} {s : EngineState}

variable {a : Activation} {loaded : List FilterRule} {nowMs t : ℕ} {ops : List EngineOp}
  {past : List Activation}

theorem activation_spec {runtime : RuntimeRule} (h : e.activation call i runtime = some a) :
    a.ruleId = runtime.rule.id ∧ a.evidence.carriedBy runtime.rule.condition = true ∧
      a.readAtMs = call.clock i := by
  unfold activation at h
  split at h
  · rename_i hc
    cases h
    rw [Bool.and_eq_true] at hc
    exact ⟨rfl, hc.2, rfl⟩
  · cases h

/-- The map after an activation: its deadlines entered one by one. -/
theorem activateRules_deadlines (deadlines : Deadlines) :
    (e.activateRules call i rules deadlines).2.1 =
      (e.activationsFrom call i rules).foldl Deadlines.insert deadlines := by
  induction rules generalizing i deadlines with
  | nil => rfl
  | cons runtime rest ih =>
    simp only [activateRules, activationsFrom]
    cases h : e.activation call i runtime with
    | none => exact ih _
    | some a => exact ih _

/-- Only deadlines change in the snapshot. -/
theorem activateRules_map {α : Type} {f : RuntimeRule → α}
    (hf : ∀ (runtime : RuntimeRule) (t : ℕ), f { runtime with activeUntilMs := t } = f runtime)
    (deadlines : Deadlines) :
    (e.activateRules call i rules deadlines).1.map f = rules.map f := by
  induction rules generalizing i deadlines with
  | nil => rfl
  | cons runtime rest ih =>
    simp only [activateRules]
    cases h : e.activation call i runtime with
    | none => simp [ih]
    | some a => simp [ih, hf]

theorem activateRules_rules (e : FilterEngine) (call : ActivationCall) (i : ℕ)
    (rules : List RuntimeRule) (deadlines : Deadlines) :
    (e.activateRules call i rules deadlines).1.map RuntimeRule.rule = rules.map RuntimeRule.rule :=
  activateRules_map (fun _ _ => rfl) deadlines

theorem mem_activationsFrom (h : a ∈ e.activationsFrom call i rules) :
    ∃ runtime ∈ rules, ∃ j, e.activation call j runtime = some a := by
  induction rules generalizing i with
  | nil => cases h
  | cons runtime rest ih =>
    simp only [activationsFrom, List.mem_append, Option.mem_toList] at h
    rcases h with h | h
    · exact ⟨runtime, List.mem_cons_self, i, h⟩
    · obtain ⟨r, hr, j, hj⟩ := ih h
      exact ⟨r, List.mem_cons_of_mem _ hr, j, hj⟩

/-- What the map says of a rule id after some deadlines were entered: the last
of them for that id, or what it said before. -/
theorem foldl_insert_spec (log : List Activation) (id : Str) :
    ∃ o : Option Activation, (∀ a ∈ o, a ∈ log ∧ a.ruleId = id) ∧
      ∀ deadlines : Deadlines, log.foldl Deadlines.insert deadlines id =
        o.elim (deadlines id) fun a => some a.activeUntilMs := by
  induction log with
  | nil => exact ⟨none, by simp, fun _ => rfl⟩
  | cons a rest ih =>
    obtain ⟨o, ho, hval⟩ := ih
    cases o with
    | some b =>
      obtain ⟨hb, hid⟩ := ho b rfl
      refine ⟨some b, ?_, fun deadlines => hval (deadlines.insert a)⟩
      rintro _ ⟨⟩
      exact ⟨List.mem_cons_of_mem _ hb, hid⟩
    | none =>
      by_cases ha : id = a.ruleId
      · refine ⟨some a, ?_, fun deadlines => ?_⟩
        · rintro _ ⟨⟩
          exact ⟨List.mem_cons_self, ha.symm⟩
        · rw [List.foldl_cons, hval, ha]
          exact Function.update_self _ _ _
      · refine ⟨none, by simp, fun deadlines => ?_⟩
        rw [List.foldl_cons, hval]
        exact Function.update_of_ne ha _ _

/-- Ids outside the snapshot are left alone. -/
theorem activateRules_deadlines_of_notMem {id : Str}
    (h : id ∉ rules.map fun r => r.rule.id) (deadlines : Deadlines) :
    (e.activateRules call i rules deadlines).2.1 id = deadlines id := by
  obtain ⟨o, ho, hval⟩ := foldl_insert_spec (e.activationsFrom call i rules) id
  rw [activateRules_deadlines, hval]
  cases o with
  | none => rfl
  | some a =>
    obtain ⟨ha, hid⟩ := ho a rfl
    obtain ⟨r, hr, j, hj⟩ := mem_activationsFrom ha
    refine absurd (List.mem_map.mpr ⟨r, hr, ?_⟩) h
    rw [← hid, (activation_spec hj).1]

/-! ## The two copies agree -/

/-- The snapshot shows the deadlines of the map, whose keys are its rule ids. -/
structure Agrees (s : EngineState) : Prop where
  nodup : (s.rules.map fun r => r.rule.id).Nodup
  shown : ∀ r ∈ s.rules, r.activeUntilMs = (s.activationDeadlines r.rule.id).getD 0
  published : ∀ id D, s.activationDeadlines id = some D → ∃ r ∈ s.rules, r.rule.id = id

theorem activateRules_shown {deadlines : Deadlines} (hnodup : (rules.map fun r => r.rule.id).Nodup)
    (hshown : ∀ r ∈ rules, r.activeUntilMs = (deadlines r.rule.id).getD 0) :
    ∀ r ∈ (e.activateRules call i rules deadlines).1,
      r.activeUntilMs = ((e.activateRules call i rules deadlines).2.1 r.rule.id).getD 0 := by
  induction rules generalizing i deadlines with
  | nil => intro r hr; cases hr
  | cons runtime rest ih =>
    rw [List.map_cons, List.nodup_cons] at hnodup
    obtain ⟨hnew, hrest⟩ := hnodup
    simp only [activateRules]
    cases h : e.activation call i runtime with
    | none =>
      intro r hr
      rcases List.mem_cons.mp hr with rfl | hr
      · rw [activateRules_deadlines_of_notMem hnew]
        exact hshown r List.mem_cons_self
      · exact ih hrest (fun r hr => hshown r (List.mem_cons_of_mem _ hr)) r hr
    | some a =>
      have hid := (activation_spec h).1
      intro r hr
      rcases List.mem_cons.mp hr with rfl | hr
      · show a.activeUntilMs = _
        rw [activateRules_deadlines_of_notMem hnew, Deadlines.insert, hid, Function.update_self]
        rfl
      · refine ih hrest (fun r hr => ?_) r hr
        -- another rule of the snapshot has another id
        have hne : r.rule.id ≠ a.ruleId := by
          rw [hid]
          exact fun heq => hnew (List.mem_map.mpr ⟨r, hr, heq⟩)
        rw [Deadlines.insert, Function.update_of_ne hne]
        exact hshown r (List.mem_cons_of_mem _ hr)

theorem ids_activate (s : EngineState) (call : ActivationCall) :
    ((e.activate s call).1.rules.map fun r => r.rule.id) = s.rules.map fun r => r.rule.id := by
  have hrules := activateRules_rules e call 0 s.rules s.activationDeadlines
  have hids := congrArg (List.map FilterRule.id) hrules
  rw [List.map_map, List.map_map] at hids
  exact hids

theorem Agrees.activate (h : Agrees s) (call : ActivationCall) :
    Agrees (e.activate s call).1 := by
  have hids := ids_activate (e := e) s call
  refine ⟨hids ▸ h.nodup, activateRules_shown h.nodup h.shown, ?_⟩
  intro id D hD
  have hmem : id ∈ s.rules.map fun r => r.rule.id := by
    by_contra hno
    obtain ⟨r, hr, hrid⟩ := h.published id D
      ((activateRules_deadlines_of_notMem hno _).symm.trans hD)
    exact hno (List.mem_map.mpr ⟨r, hr, hrid⟩)
  rw [← hids] at hmem
  exact List.mem_map.mp hmem

/-- What a reload that gets through loads has distinct ids. -/
theorem nodup_of_prepare {file : RuntimeFile} (h : e.prepare P file = .ok loaded) :
    (loaded.map FilterRule.id).Nodup := by
  obtain ⟨runtime, -, hunique, -, rfl⟩ := prepare_eq_ok.mp h
  have hperm := List.perm_insertionSort (fun a b : FilterRule => comesBefore a b = true)
    (e.merge runtime)
  exact (hperm.map FilterRule.id).nodup_iff.mpr hunique

/-- A reload fails and changes nothing, or publishes what it loaded. -/
theorem reload_cases (s : EngineState) (file : RuntimeFile) (nowMs : ℕ) :
    (∃ err, e.reload P s file nowMs = (s, .error err)) ∨
    ∃ loaded, e.prepare P file = .ok loaded ∧
      e.reload P s file nowMs = (publish s loaded nowMs, .ok ()) := by
  unfold reload
  cases h : e.prepare P file with
  | error err => exact Or.inl ⟨err, rfl⟩
  | ok loaded => exact Or.inr ⟨loaded, rfl, rfl⟩

/-- The map after a reload: the deadlines ahead, of the rules published. -/
theorem publish_deadlines_eq_some {D : ℕ} {id : Str} :
    (publish s loaded nowMs).activationDeadlines id = some D ↔
      s.activationDeadlines id = some D ∧ nowMs < D ∧ id ∈ loaded.map FilterRule.id := by
  simp [publish, Option.filter_eq_some_iff]

theorem mem_rules_publish {r : RuntimeRule} (hr : r ∈ (publish s loaded nowMs).rules) :
    r.rule ∈ loaded ∧
      r.activeUntilMs = ((publish s loaded nowMs).activationDeadlines r.rule.id).getD 0 := by
  obtain ⟨rule, hrule, rfl⟩ := List.mem_map.mp hr
  refine ⟨hrule, ?_⟩
  show Option.getD (Option.filter _ ((publish s loaded nowMs).activationDeadlines rule.id)) 0 =
    Option.getD ((publish s loaded nowMs).activationDeadlines rule.id) 0
  cases h : (publish s loaded nowMs).activationDeadlines rule.id with
  | none => rfl
  | some D =>
    have hahead := (publish_deadlines_eq_some.mp h).2.1
    simp [Option.filter, hahead]

theorem ids_publish (loaded : List FilterRule) (nowMs : ℕ) :
    ((publish s loaded nowMs).rules.map fun r => r.rule.id) = loaded.map FilterRule.id := by
  simp [publish, RuntimeRule.new, Function.comp_def]

theorem agrees_publish (h : (loaded.map FilterRule.id).Nodup) (nowMs : ℕ) :
    Agrees (publish s loaded nowMs) := by
  refine ⟨ids_publish (s := s) loaded nowMs ▸ h, fun r hr => (mem_rules_publish hr).2, ?_⟩
  intro id D hD
  have hmem := (publish_deadlines_eq_some.mp hD).2.2
  rw [← ids_publish (s := s) loaded nowMs] at hmem
  exact List.mem_map.mp hmem

theorem agrees_empty : Agrees EngineState.empty :=
  ⟨List.nodup_nil, by simp [EngineState.empty], by simp [EngineState.empty]⟩

theorem Agrees.step (h : Agrees s) (op : EngineOp) : Agrees (e.step P s op) := by
  cases op with
  | reload file nowMs =>
    show Agrees (e.reload P s file nowMs).1
    rcases reload_cases (e := e) (P := P) s file nowMs with ⟨_, hr⟩ | ⟨loaded, hloaded, hr⟩
    · rw [hr]
      exact h
    · rw [hr]
      exact agrees_publish (nodup_of_prepare hloaded) nowMs
  | activate call => exact h.activate call

theorem agrees_run (ops : List EngineOp) : Agrees (e.run P .empty ops) :=
  List.foldlRecOn ops (e.step P) agrees_empty fun _ hs op _ => hs.step op

/-! ## Deadlines survive -/

variable (e P) in
/-- What the deadlines are for: the deadline of the latest activation of each
rule id that every snapshot since then has contained. -/
def latestStep (s : EngineState) (latest : Deadlines) : EngineOp → Deadlines
  | .reload file nowMs =>
    match (e.reload P s file nowMs).2 with
    | .error _ => latest
    | .ok _ => fun id =>
      if id ∈ (e.reload P s file nowMs).1.rules.map (fun r => r.rule.id) then latest id
      else none
  | .activate call => (e.activationsFrom call 0 s.rules).foldl Deadlines.insert latest

variable (e P) in
/-- The same after a run. -/
def latestFrom : EngineState → Deadlines → List EngineOp → Deadlines
  | _, latest, [] => latest
  | s, latest, op :: rest => latestFrom (e.step P s op) (e.latestStep P s latest op) rest

variable (e P) in
def latestActivation (ops : List EngineOp) : Deadlines :=
  e.latestFrom P .empty (fun _ => none) ops

/-- The map holds nothing but latest activations, and all that lie beyond `t`. -/
structure Mirrors (t : ℕ) (deadlines latest : Deadlines) : Prop where
  sound : ∀ id D, deadlines id = some D → latest id = some D
  complete : ∀ id D, latest id = some D → t < D → deadlines id = some D

theorem Mirrors.step {latest : Deadlines} (h : Mirrors t s.activationDeadlines latest)
    {op : EngineOp} (hop : ∀ file nowMs, op = .reload file nowMs → nowMs ≤ t) :
    Mirrors t (e.step P s op).activationDeadlines (e.latestStep P s latest op) := by
  cases op with
  | reload file nowMs =>
    show Mirrors t (e.reload P s file nowMs).1.activationDeadlines _
    have hnow := hop file nowMs rfl
    rcases reload_cases (e := e) (P := P) s file nowMs with ⟨_, hr⟩ | ⟨loaded, -, hr⟩
    · simp only [latestStep, hr]
      exact h
    · simp only [latestStep, hr, ids_publish]
      refine ⟨fun id D hD => ?_, fun id D hD hlt => ?_⟩
      · obtain ⟨hold, -, hmem⟩ := publish_deadlines_eq_some.mp hD
        rw [if_pos hmem]
        exact h.sound id D hold
      · by_cases hmem : id ∈ loaded.map FilterRule.id
        · rw [if_pos hmem] at hD
          exact publish_deadlines_eq_some.mpr
            ⟨h.complete id D hD hlt, lt_of_le_of_lt hnow hlt, hmem⟩
        · rw [if_neg hmem] at hD
          cases hD
  | activate call =>
    have hmap : (e.step P s (.activate call)).activationDeadlines =
        (e.activationsFrom call 0 s.rules).foldl Deadlines.insert s.activationDeadlines :=
      activateRules_deadlines _
    rw [hmap, latestStep]
    -- both maps have the same deadlines entered
    refine ⟨fun id D hD => ?_, fun id D hD hlt => ?_⟩
    · obtain ⟨o, -, hval⟩ := foldl_insert_spec (e.activationsFrom call 0 s.rules) id
      rw [hval] at hD ⊢
      cases o with
      | none => exact h.sound id D hD
      | some a => exact hD
    · obtain ⟨o, -, hval⟩ := foldl_insert_spec (e.activationsFrom call 0 s.rules) id
      rw [hval] at hD ⊢
      cases o with
      | none => exact h.complete id D hD hlt
      | some a => exact hD

theorem Mirrors.run {latest : Deadlines}
    (hops : ∀ file nowMs, EngineOp.reload file nowMs ∈ ops → nowMs ≤ t)
    (h : Mirrors t s.activationDeadlines latest) :
    Mirrors t (e.run P s ops).activationDeadlines (e.latestFrom P s latest ops) := by
  induction ops generalizing s latest with
  | nil => exact h
  | cons op rest ih =>
    refine ih (fun file nowMs hm => hops file nowMs (List.mem_cons_of_mem _ hm)) (h.step ?_)
    rintro file nowMs rfl
    exact hops file nowMs List.mem_cons_self

/-- **Activation survives reloads.** After any run and at any time `t` that no
reload of the run has read a later clock than, an adaptive rule of the snapshot
is awake beyond `t` exactly when the map holds a deadline beyond `t` for its id;
both are then the deadline of the latest activation of that id, with the id in
every snapshot since; and no such activation that lies beyond `t` is lost. A
reload that fails changes nothing. -/
theorem activation_survives_reloads (e : FilterEngine) (P : Platform) (ops : List EngineOp)
    (t : ℕ) (hops : ∀ file nowMs, EngineOp.reload file nowMs ∈ ops → nowMs ≤ t) :
    let s := e.run P .empty ops
    (∀ r ∈ s.rules, r.rule.adaptive = true →
      ((t < r.activeUntilMs ↔ ∃ D, s.activationDeadlines r.rule.id = some D ∧ t < D) ∧
      (t < r.activeUntilMs → s.activationDeadlines r.rule.id = some r.activeUntilMs ∧
        e.latestActivation P ops r.rule.id = some r.activeUntilMs) ∧
      ∀ D, e.latestActivation P ops r.rule.id = some D → t < D →
        r.activeUntilMs = D ∧ s.activationDeadlines r.rule.id = some D)) ∧
    ∀ file nowMs err, (e.reload P s file nowMs).2 = .error err →
      (e.reload P s file nowMs).1 = s := by
  intro s
  have hagrees : Agrees s := agrees_run ops
  have hmirrors : Mirrors t s.activationDeadlines (e.latestActivation P ops) :=
    Mirrors.run hops ⟨by simp [EngineState.empty], by simp⟩
  constructor
  · intro r hr _
    have hshown := hagrees.shown r hr
    have hsame : t < r.activeUntilMs →
        s.activationDeadlines r.rule.id = some r.activeUntilMs := by
      intro hlt
      cases hD : s.activationDeadlines r.rule.id with
      | none =>
        rw [hD] at hshown
        rw [hshown] at hlt
        exact absurd hlt (Nat.not_lt_zero t)
      | some D =>
        rw [hD] at hshown
        rw [hshown]
        rfl
    refine ⟨⟨fun hlt => ⟨_, hsame hlt, hlt⟩, ?_⟩, fun hlt => ?_, fun D hD hlt => ?_⟩
    · rintro ⟨D, hD, hlt⟩
      rw [hshown, hD]
      exact hlt
    · exact ⟨hsame hlt, hmirrors.sound _ _ (hsame hlt)⟩
    · have hkept := hmirrors.complete _ D hD hlt
      refine ⟨?_, hkept⟩
      rw [hshown, hkept]
      rfl
  · intro file nowMs err herr
    rcases reload_cases (e := e) (P := P) s file nowMs with ⟨_, hr⟩ | ⟨loaded, -, hr⟩
    · rw [hr]
    · rw [hr] at herr
      cases herr

/-- A rule with the id `learned` for one signature. -/
def learned (signature : String) : FilterRule where
  id := utf8 "learned"
  adaptive := true
  condition := { signature := some (utf8 signature) }

/-- An engine without static rules that wakes rules for a minute. -/
def oneMinute : FilterEngine := FilterEngine.new [] "filters.json" 60000000000

/-- The filter file holds nothing but a signature, for which it has a rule. -/
def signatureFiles : Platform where
  debug _ := ""
  decode _ := .ok ()
  blank raw := raw.isEmpty
  parse raw := .ok ⟨[{ learned "" with condition := { signature := some raw } }]⟩

/-- A reload at `nowMs` that finds a rule for the signature. -/
def reloadFor (signature : String) (nowMs : ℕ) : EngineOp :=
  .reload (.opened true 16 (utf8 signature)) nowMs

/-- An activation of the signature at `nowMs`. -/
def activateFor (signature : String) (nowMs : ℕ) : EngineOp :=
  .activate ⟨.signature (utf8 signature), none, nowMs, fun _ => nowMs⟩

/-- A rule is loaded, activated, and loaded again. -/
def sameRuleAgain : List EngineOp :=
  [reloadFor "0123456789abcdef" 1000, activateFor "0123456789abcdef" 2000,
    reloadFor "0123456789abcdef" 3000]

theorem activation_survives_reloads_once :
    (oneMinute.run signatureFiles .empty sameRuleAgain).rules.map RuntimeRule.activeUntilMs =
      [62000] ∧
    ∀ r ∈ (oneMinute.run signatureFiles .empty sameRuleAgain).rules, r.rule.adaptive = true →
      3000 < r.activeUntilMs →
      oneMinute.latestActivation signatureFiles sameRuleAgain r.rule.id =
        some r.activeUntilMs := by
  refine ⟨by decide +kernel, fun r hr had hlt => ?_⟩
  have hops : ∀ file nowMs, EngineOp.reload file nowMs ∈ sameRuleAgain → nowMs ≤ 3000 := by
    intro file nowMs hm
    simp only [sameRuleAgain, reloadFor, activateFor, List.mem_cons, List.not_mem_nil,
      EngineOp.reload.injEq, reduceCtorEq, false_or, or_false] at hm
    omega
  exact (((activation_survives_reloads oneMinute signatureFiles sameRuleAgain 3000 hops).1
    r hr had).2.1 hlt).2

/-! ## Evidence for what decides -/

variable (e P) in
/-- All activations of a run, in order. -/
def history : EngineState → List EngineOp → List Activation
  | _, [] => []
  | s, op :: rest => e.activations s op ++ history (e.step P s op) rest

/-- The signature and the path shape of the old rule, where it has them, are
those of the new one. -/
def Retains (old new : FilterCondition) : Prop :=
  (old.signature.isSome = true → new.signature = old.signature) ∧
    (old.pathShape.isSome = true → new.pathShape = old.pathShape)

instance (old new : FilterCondition) : Decidable (Retains old new) :=
  inferInstanceAs (Decidable (_ ∧ _))

theorem Retains.carriedBy {old new : FilterCondition} (h : Retains old new)
    {evidence : Evidence} (hc : evidence.carriedBy old = true) :
    evidence.carriedBy new = true := by
  cases evidence with
  | signature x =>
    have hold : old.signature = some x := beq_iff_eq.mp hc
    exact beq_iff_eq.mpr ((h.1 (by simp [hold])).trans hold)
  | pathShape x =>
    have hold : old.pathShape = some x := beq_iff_eq.mp hc
    exact beq_iff_eq.mpr ((h.2 (by simp [hold])).trans hold)

variable (e P) in
/-- A reload that publishes, under an id whose deadline is still ahead, a rule
that retains what the old rule could be activated for. -/
def Steady (s : EngineState) : EngineOp → Prop
  | .reload file nowMs =>
    ∀ old ∈ s.rules, ∀ new ∈ (e.reload P s file nowMs).1.rules,
      old.rule.id = new.rule.id →
      (s.activationDeadlines old.rule.id).any (fun D => decide (nowMs < D)) = true →
      Retains old.rule.condition new.rule.condition
  | .activate _ => True

instance (s : EngineState) (op : EngineOp) : Decidable (e.Steady P s op) := by
  cases op <;> unfold Steady <;> infer_instance

variable (e P) in
/-- Every reload of the run is steady. -/
def SteadyRun : EngineState → List EngineOp → Prop
  | _, [] => True
  | s, op :: rest => e.Steady P s op ∧ SteadyRun (e.step P s op) rest

instance decidableSteadyRun : ∀ (s : EngineState) (ops : List EngineOp),
    Decidable (e.SteadyRun P s ops)
  | _, [] => inferInstanceAs (Decidable True)
  | s, op :: rest =>
    have := decidableSteadyRun (e.step P s op) rest
    inferInstanceAs (Decidable (_ ∧ _))

/-- Every deadline was set by an activation for what its rule carries now. -/
def Evidenced (past : List Activation) (s : EngineState) : Prop :=
  ∀ r ∈ s.rules, ∀ D, s.activationDeadlines r.rule.id = some D →
    ∃ a ∈ past, a.activeUntilMs = D ∧ a.evidence.carriedBy r.rule.condition = true

theorem Evidenced.activate (h : Evidenced past s) (hnodup : (s.rules.map fun r => r.rule.id).Nodup)
    (call : ActivationCall) :
    Evidenced (past ++ e.activationsFrom call 0 s.rules) (e.activate s call).1 := by
  intro r hr D hD
  -- the rule itself was there before
  have hrule : r.rule ∈ s.rules.map RuntimeRule.rule := by
    rw [← activateRules_rules e call 0 s.rules s.activationDeadlines]
    exact List.mem_map.mpr ⟨r, hr, rfl⟩
  obtain ⟨old, hold, hsame⟩ := List.mem_map.mp hrule
  change (e.activateRules call 0 s.rules s.activationDeadlines).2.1 r.rule.id = some D at hD
  obtain ⟨o, ho, hval⟩ := foldl_insert_spec (e.activationsFrom call 0 s.rules) r.rule.id
  rw [activateRules_deadlines, hval] at hD
  cases o with
  | none =>
    obtain ⟨a, ha, hend, hcarried⟩ := h old hold D (hsame ▸ hD)
    exact ⟨a, List.mem_append_left _ ha, hend, hsame ▸ hcarried⟩
  | some a =>
    obtain ⟨ha, hid⟩ := ho a rfl
    obtain ⟨woken, hwoken, j, hj⟩ := mem_activationsFrom ha
    obtain ⟨hwid, hcarried, -⟩ := activation_spec hj
    have heq : woken = old := by
      refine List.inj_on_of_nodup_map hnodup hwoken hold ?_
      rw [← hwid, hid, hsame]
    refine ⟨a, List.mem_append_right _ ha, Option.some.inj hD, ?_⟩
    rw [← hsame, ← heq]
    exact hcarried

theorem Evidenced.reload (h : Evidenced past s) (hs : Agrees s) {file : RuntimeFile}
    (hsteady : e.Steady P s (.reload file nowMs)) : Evidenced past (e.reload P s file nowMs).1 := by
  change ∀ old ∈ s.rules, ∀ new ∈ (e.reload P s file nowMs).1.rules, _ at hsteady
  rcases reload_cases (e := e) (P := P) s file nowMs with ⟨_, hr⟩ | ⟨loaded, -, hr⟩
  · rw [hr]
    exact h
  · rw [hr] at hsteady ⊢
    intro new hnew D hD
    obtain ⟨hold, hahead, -⟩ := publish_deadlines_eq_some.mp hD
    obtain ⟨old, hmem, hid⟩ := hs.published _ D hold
    rw [← hid] at hold
    obtain ⟨a, ha, hend, hcarried⟩ := h old hmem D hold
    have hret := hsteady old hmem new hnew hid (by simp [hold, hahead])
    exact ⟨a, ha, hend, hret.carriedBy hcarried⟩

theorem Evidenced.run (h : Evidenced past s) (hs : Agrees s) (hsteady : e.SteadyRun P s ops) :
    Evidenced (past ++ e.history P s ops) (e.run P s ops) := by
  induction ops generalizing s past with
  | nil => simpa [history, FilterEngine.run] using h
  | cons op rest ih =>
    obtain ⟨hop, hrest⟩ := hsteady
    rw [history, ← List.append_assoc]
    refine ih ?_ (hs.step op) hrest
    cases op with
    | reload file nowMs =>
      simp only [activations, List.append_nil]
      exact h.reload hs hop
    | activate call => exact h.activate hs.nodup call

/-- What is known of every activation of a run. -/
theorem mem_history (h : a ∈ e.history P s ops) :
    (1 ≤ a.ttlSeconds ∧ a.ttlSeconds ≤ FILTER_TTL_MAX_SECONDS) ∧
      ∃ call, EngineOp.activate call ∈ ops ∧ ∃ i, a.readAtMs = call.clock i := by
  induction ops generalizing s with
  | nil => cases h
  | cons op rest ih =>
    rcases List.mem_append.mp h with hop | hrest
    · cases op with
      | reload file nowMs => cases hop
      | activate call =>
        obtain ⟨r, -, j, hj⟩ := mem_activationsFrom hop
        refine ⟨?_, call, List.mem_cons_self, j, (activation_spec hj).2.2⟩
        unfold activation at hj
        split at hj
        · cases hj
          exact ⟨le_max_left _ _, max_le (by decide) (min_le_right _ _)⟩
        · cases hj
    · obtain ⟨httl, call, hcall, i, hi⟩ := ih hrest
      exact ⟨httl, call, List.mem_cons_of_mem _ hcall, i, hi⟩

/-- A decision comes from a rule of the snapshot that is awake if adaptive. -/
theorem evaluateRules_eq_some {ctx : RequestContext} {scratch : FilterEvalScratch}
    {d : FilterDecision} (h : evaluateRules ctx t rules scratch = some d) :
    ∃ r ∈ rules, d = ⟨r.rule.id, r.rule.action.status, r.rule.action.body⟩ ∧
      (r.rule.adaptive = true → t < r.activeUntilMs) := by
  induction rules generalizing scratch with
  | nil => cases h
  | cons runtime rest ih =>
    have hrest : ∀ {scratch}, evaluateRules ctx t rest scratch = some d →
        ∃ r ∈ runtime :: rest, d = ⟨r.rule.id, r.rule.action.status, r.rule.action.body⟩ ∧
          (r.rule.adaptive = true → t < r.activeUntilMs) := by
      intro scratch hs
      obtain ⟨r, hr, hd⟩ := ih hs
      exact ⟨r, List.mem_cons_of_mem _ hr, hd⟩
    unfold evaluateRules at h
    split at h
    · exact hrest h
    · split at h
      · exact hrest h
      · rename_i hawake
        split at h
        · cases h
          refine ⟨runtime, List.mem_cons_self, rfl, fun had => ?_⟩
          simpa [had] using hawake
        · exact hrest h

/-- **Adaptive rules are dormant.** In a run whose reloads are all steady, at a
time `t` no earlier than any clock reading of its activations: whenever an
adaptive rule of the snapshot decides, there was an activation for the signature
or the path shape the rule carries, at a time `s ≤ t` with `t` before the end of
the bounded time to live counted from `s`. -/
theorem adaptive_rules_dormant (e : FilterEngine) (P : Platform) (ops : List EngineOp)
    (hsteady : e.SteadyRun P .empty ops) (t : ℕ)
    (hclock : ∀ call, EngineOp.activate call ∈ ops → ∀ i, call.clock i ≤ t)
    (ctx : RequestContext) (d : FilterDecision)
    (hd : evaluate (e.run P .empty ops) ctx t = some d) (r : RuntimeRule)
    (hr : r ∈ (e.run P .empty ops).rules) (hid : r.rule.id = d.ruleId)
    (hadaptive : r.rule.adaptive = true) :
    ∃ a ∈ e.history P .empty ops, a.evidence.carriedBy r.rule.condition = true ∧
      a.readAtMs ≤ t ∧ t < a.readAtMs + a.ttlSeconds * 1000 ∧
      1 ≤ a.ttlSeconds ∧ a.ttlSeconds ≤ FILTER_TTL_MAX_SECONDS := by
  have hagrees : Agrees (e.run P .empty ops) := agrees_run ops
  have hevidenced : Evidenced ([] ++ e.history P .empty ops) (e.run P .empty ops) :=
    Evidenced.run (by simp [Evidenced, EngineState.empty]) agrees_empty hsteady
  -- ids are distinct, so the deciding rule is `r`
  obtain ⟨r', hr', rfl, hawake⟩ := evaluateRules_eq_some hd
  obtain rfl : r' = r := List.inj_on_of_nodup_map hagrees.nodup hr' hr hid.symm
  have hlt := hawake hadaptive
  have hshown := hagrees.shown r' hr
  cases hD : (e.run P .empty ops).activationDeadlines r'.rule.id with
  | none =>
    rw [hD] at hshown
    rw [hshown] at hlt
    exact absurd hlt (Nat.not_lt_zero t)
  | some D =>
    rw [hD] at hshown
    obtain ⟨a, ha, hend, hcarried⟩ := hevidenced r' hr D hD
    obtain ⟨httl, call, hcall, i, hi⟩ := mem_history ha
    have hle : a.activeUntilMs ≤ a.readAtMs + a.ttlSeconds * 1000 :=
      le_trans (min_le_left _ _) (Nat.add_le_add_left (min_le_left _ _) _)
    refine ⟨a, ha, hcarried, ?_, ?_, httl⟩
    · rw [hi]
      exact hclock call hcall i
    · rw [hshown] at hlt
      exact lt_of_lt_of_le (hend ▸ hlt) hle

/-- A request whose signature is the given one. -/
def requestFor (signature : String) : RequestContext where
  method := utf8 "GET"
  path := utf8 "/"
  query := none
  headers := []
  signature := utf8 signature

theorem adaptive_rules_dormant_same_rule :
    (evaluate (oneMinute.run signatureFiles .empty sameRuleAgain)
      (requestFor "0123456789abcdef") 3000).isSome = true ∧
    ∀ r ∈ (oneMinute.run signatureFiles .empty sameRuleAgain).rules,
      ∃ a ∈ oneMinute.history signatureFiles .empty sameRuleAgain,
        a.evidence.carriedBy r.rule.condition = true ∧ a.readAtMs ≤ 3000 := by
  refine ⟨by decide +kernel, fun r hr => ?_⟩
  have hall : ∀ r ∈ (oneMinute.run signatureFiles .empty sameRuleAgain).rules,
      r.rule.id = utf8 "learned" ∧ r.rule.adaptive = true := by decide +kernel
  have hclock : ∀ call, EngineOp.activate call ∈ sameRuleAgain → ∀ i, call.clock i ≤ 3000 := by
    intro call hm i
    simp only [sameRuleAgain, reloadFor, activateFor, List.mem_cons, List.not_mem_nil,
      EngineOp.activate.injEq, reduceCtorEq, false_or, or_false] at hm
    rw [hm]
    exact (by decide : 2000 ≤ 3000)
  obtain ⟨a, ha, hcarried, hread, -⟩ := adaptive_rules_dormant oneMinute signatureFiles
    sameRuleAgain (by decide +kernel) 3000 hclock (requestFor "0123456789abcdef")
    ⟨utf8 "learned", 403, utf8 "blocked\n"⟩ (by decide +kernel) r hr (hall r hr).1 (hall r hr).2
  exact ⟨a, ha, hcarried, hread⟩

/-- A rule is loaded and activated; then the file has a rule for another
signature under the same id. -/
def reusedId : List EngineOp :=
  [reloadFor "0123456789abcdef" 1000, activateFor "0123456789abcdef" 2000,
    reloadFor "fedcba9876543210" 3000]

/-- The new rule decides although nothing was ever activated for it. -/
theorem reused_id_is_awake :
    (evaluate (oneMinute.run signatureFiles .empty reusedId)
      (requestFor "fedcba9876543210") 4000).map FilterDecision.ruleId = some (utf8 "learned") ∧
    (∀ r ∈ (oneMinute.run signatureFiles .empty reusedId).rules, r.rule.adaptive = true ∧
      ∀ a ∈ oneMinute.history signatureFiles .empty reusedId,
        a.evidence.carriedBy r.rule.condition = false) := by
  decide +kernel

end FilterEngine

end AlturaProt.Filter
