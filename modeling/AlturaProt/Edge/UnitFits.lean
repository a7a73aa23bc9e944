import AlturaProt.Edge.UnitText

/-!
# Units that the tool accepts

A unit fits the daemon if systemd waits longer for it to stop than it takes to shut
down, and if it may open as many files as its limits can use. The tool compares a
unit with what it reads from the document, so whether the units it accepts fit is a
question about the document (`accepted_units_fit_iff`): the grace period has to be
written, because the tool takes a missing one for zero and the daemon for two
seconds; the rounding of the durations must not lift one over the grace period; and
no descriptors that count may be hidden from the tool.
-/

namespace AlturaProt.Edge

open Foundation Foundation.PyText Python Config

/-! ## What is asked of a unit -/

/-- Longer than this many seconds. -/
def Duration.Exceeds : Duration → ℚ → Prop
  | .infinity, _ => True
  | .span number unit, q => q < number * unit.seconds

/-- The values of the unit, against the settings of the daemon. -/
structure ServiceFits (service : UnitSection) (cfg : AppConfig) (softLimit : ℕ) : Prop where
  stop : ∃ duration,
    readDuration (PyText.strip (firstSystemdValue service "TimeoutStopSec" "0")) = some duration ∧
      duration.Exceeds (cfg.runtime.shutdownGraceMs / 1000)
  nofile : ∃ limit,
    parseSystemdNofileHardLimit (firstSystemdValue service "LimitNOFILE" "0") = .ok limit ∧
      ∀ n ∈ limit, (estimateNofileCapacity cfg softLimit).required ≤ n

/-- The service section of the unit file fits. -/
def UnitFits (unit : ToolFile Text) (cfg : AppConfig) (softLimit : ℕ) : Prop :=
  ∃ content sections service, unit.content = some (.ok content) ∧
    parseSystemdUnit content = .ok sections ∧ sections.get "Service" = some service ∧
    ServiceFits service cfg softLimit

/-! ## What the tool reads of a document -/

/-- The member of the `runtime` object, if both are there. -/
def runtimeMember (doc : PyValue Double) (key : String) : Option (PyValue Double) :=
  (member doc "runtime").bind (member · key)

/-- The number of descriptors that the document asks for by name. -/
def writtenMinNofile (doc : PyValue Double) : ℤ :=
  match runtimeMember doc "min_nofile" with
  | some (.int z) => z
  | _ => 0

/-- A number of 64 bits is not too large for a double. -/
theorem nearest_of_u64 {q : ℚ} (hq : 0 ≤ q) (h : q ≤ 2 ^ 64) :
    nearest q ≤ 2 ^ 64 ∧ |nearest q| < 2 ^ 1024 := by
  have hle : nearest q ≤ 2 ^ 64 := by
    have hgrid := nearest_of_grid (z := 1) (e := 64) (by norm_num) (by norm_num)
    rw [Int.cast_one, one_mul, show (2 : ℚ) ^ (64 : ℤ) = 2 ^ 64 by norm_cast] at hgrid
    exact (nearest_mono hq h).trans_eq hgrid
  refine ⟨hle, ?_⟩
  rw [abs_of_nonneg (nearest_nonneg hq)]
  exact hle.trans_lt (pow_lt_pow_right₀ (by norm_num) (by norm_num))

theorem zero_divNat : (Double.ofRat (0 : ℕ)).divNat 1000 = Double.ofRat 0 := by
  rw [Nat.cast_zero, Double.ofRat_zero, Double.divNat, zero_div, Double.ofRat_zero]

theorem floatOfInt_natCast {n : ℕ} (h : n < 2 ^ 64) : floatOfInt n = .ok (Double.ofRat n) := by
  obtain ⟨-, hbounded⟩ := nearest_of_u64 (Nat.cast_nonneg n) (by exact_mod_cast h.le)
  delta floatOfInt
  rw [Int.cast_natCast, Double.ofRat_of_bounded hbounded]

variable {data : PyDict Double} {cfg : AppConfig} {env : CheckEnv} {texts : ToolTexts} {number : ℚ}
  {unit : TimeUnit} {nofile stop : Text}

theorem runtimeMember_of_runtimeOf {runtime : PyDict Double} (h : runtimeOf data = some runtime)
    (key : String) : runtimeMember (.dict data) key = runtime.lookup (py key) := by
  unfold runtimeOf PyDict.getD at h
  rw [runtimeMember, member_dict]
  cases hmember : data.lookup (py "runtime") with
  | none =>
    rw [hmember] at h
    cases h
  | some v =>
    rw [hmember] at h
    cases v with
    | dict items =>
      obtain rfl := Option.some.inj h
      rfl
    | _ => cases h

theorem runtimeMember_eq_none (h : runtimeOf data = none) (key : String) :
    runtimeMember (.dict data) key = none := by
  unfold runtimeOf PyDict.getD at h
  rw [runtimeMember, member_dict]
  cases hmember : data.lookup (py "runtime") with
  | none => rfl
  | some v =>
    rw [hmember] at h
    cases v with
    | dict items => cases h
    | _ => rfl

/-- A setting of the `runtime` object as both read it: written as a number, or absent
and the daemon's default. -/
theorem runtime_setting {runtime : PyDict Double} (hread : AppConfig.ofJson (.dict data) = some cfg)
    (hruntime : runtimeOf data = some runtime) :
    withDefault 0 readU64 (runtime.lookup (py "min_nofile")) = some cfg.runtime.minNofile ∧
      withDefault DEFAULT_RUNTIME_SHUTDOWN_GRACE_MS readU64
        (runtime.lookup (py "shutdown_grace_ms")) = some cfg.runtime.shutdownGraceMs := by
  obtain ⟨field, hfield, hreadRuntime, -⟩ := AppConfig.ofJson_eq_some hread
  obtain rfl := Option.some.inj hfield
  unfold runtimeOf PyDict.getD at hruntime
  cases hmember : data.lookup (py "runtime") with
  | none =>
    rw [hmember] at hruntime
    cases hruntime
  | some v =>
    rw [hmember] at hruntime
    cases v with
    | dict items =>
      obtain rfl := Option.some.inj hruntime
      simp only [hmember] at hreadRuntime
      obtain ⟨field, hfield, hsettings⟩ := RuntimeConfig.ofJson_eq_some hreadRuntime
      obtain rfl := Option.some.inj hfield
      exact hsettings
    | _ => cases hruntime

/-- A number that was written is an integer of 64 bits. -/
theorem int_of_read {fallback n : ℕ} {v : PyValue Double}
    (h : withDefault fallback readU64 (some v) = some n) : v = .int n ∧ n < 2 ^ 64 := by
  cases v with
  | int z =>
    obtain ⟨⟨hz, hlt⟩, hzn⟩ := (readUnsigned_eq_some (F := Double)).mp h
    have hn : z = n := by omega
    exact ⟨by rw [hn], by omega⟩
  | _ => cases h

/-- The grace period as the tool reads it: the daemon's if it is written, zero
otherwise. -/
def seenGrace (doc : PyValue Double) (cfg : AppConfig) : Double :=
  if (runtimeMember doc "shutdown_grace_ms").isSome then
    (Double.ofRat cfg.runtime.shutdownGraceMs).divNat 1000
  else Double.ofRat 0

theorem grace_of_accepted (hread : AppConfig.ofJson (.dict data) = some cfg) (path : String) :
    configShutdownGraceSeconds ⟨path, some (.ok (.dict data))⟩ =
      .ok (seenGrace (.dict data) cfg) := by
  simp only [seenGrace, configShutdownGraceSeconds, asDict, bind, Except.bind]
  cases hruntime : runtimeOf data with
  | none =>
    rw [runtimeMember_eq_none hruntime]
    rfl
  | some runtime =>
    obtain ⟨-, hgrace⟩ := runtime_setting hread hruntime
    rw [runtimeMember_of_runtimeOf hruntime]
    cases hlookup : runtime.lookup (py "shutdown_grace_ms") with
    | none =>
      have hzero : (floatOfInt 0).map (Double.divNat · 1000) = .ok (Double.ofRat 0) := by
        rw [← Nat.cast_zero, floatOfInt_natCast (by norm_num), ← zero_divNat]
        rfl
      simp only [graceOfRuntime, PyDict.getD, hlookup, Option.getD_none, hzero]
      rfl
    | some v =>
      rw [hlookup] at hgrace
      obtain ⟨rfl, hlt⟩ := int_of_read hgrace
      simp only [graceOfRuntime, PyDict.getD, hlookup, Option.getD_some, floatOfInt_natCast hlt]
      rfl

/-- It is finite. -/
theorem infinite_le_seenGrace (hread : AppConfig.ofJson (.dict data) = some cfg) :
    (Double.infinite false).le (seenGrace (.dict data) cfg) = false := by
  unfold seenGrace
  split_ifs with hwritten
  · have hlt : cfg.runtime.shutdownGraceMs < 2 ^ 64 := by
      cases hruntime : runtimeOf data with
      | none =>
        rw [runtimeMember_eq_none hruntime] at hwritten
        cases hwritten
      | some runtime =>
        rw [runtimeMember_of_runtimeOf hruntime] at hwritten
        obtain ⟨v, hlookup⟩ := Option.isSome_iff_exists.mp hwritten
        obtain ⟨-, hgrace⟩ := runtime_setting hread hruntime
        rw [hlookup] at hgrace
        exact (int_of_read hgrace).2
    have hnonneg : (0 : ℚ) ≤ cfg.runtime.shutdownGraceMs := Nat.cast_nonneg _
    obtain ⟨hle, hbounded⟩ := nearest_of_u64 hnonneg (by exact_mod_cast hlt.le)
    have hquotient : nearest (cfg.runtime.shutdownGraceMs : ℚ) / (1000 : ℕ) ≤ 2 ^ 64 :=
      (div_le_self (nearest_nonneg hnonneg) (by norm_num)).trans hle
    obtain ⟨-, hbounded'⟩ := nearest_of_u64
      (div_nonneg (nearest_nonneg hnonneg) (by norm_num)) hquotient
    rw [Double.ofRat_of_bounded hbounded, Double.divNat, Double.ofRat_of_bounded hbounded']
    rfl
  · rw [Double.ofRat_zero]
    rfl

theorem minNofile_of_accepted (hread : AppConfig.ofJson (.dict data) = some cfg) (path : String) :
    configMinNofile ⟨path, some (.ok (.dict data))⟩ =
      .ok (max MIN_SYSTEMD_LIMIT_NOFILE (writtenMinNofile (.dict data))) := by
  simp only [writtenMinNofile, configMinNofile, asDict, bind, Except.bind]
  cases hruntime : runtimeOf data with
  | none =>
    rw [runtimeMember_eq_none hruntime]
    rfl
  | some runtime =>
    obtain ⟨hnofile, -⟩ := runtime_setting hread hruntime
    rw [runtimeMember_of_runtimeOf hruntime]
    simp only [minNofileOfRuntime, PyDict.getD]
    cases hlookup : runtime.lookup (py "min_nofile") with
    | none => rfl
    | some v =>
      rw [hlookup] at hnofile
      obtain ⟨rfl, -⟩ := int_of_read hnofile
      rfl

/-! ## What an accepted unit says -/

/-- The budget that the tool compares a unit with. -/
def seenBudget (doc : PyValue Double) (cfg : AppConfig) : ℤ :=
  max (max MIN_SYSTEMD_LIMIT_NOFILE (writtenMinNofile doc))
    (cfg.descriptors - hiddenDescriptors doc cfg)

theorem nofileComplaints_eq_nil_iff (hread : AppConfig.ofJson (.dict data) = some cfg)
    (hvalid : cfg.validate env = .ok ()) (service : UnitSection) (path : String) :
    nofileComplaints service ⟨path, some (.ok (.dict data))⟩ = [] ↔
      disablesPool (.dict data) = false ∧
      ∃ limit, parseSystemdNofileHardLimit (firstSystemdValue service "LimitNOFILE" "0") =
          .ok limit ∧ ∀ n ∈ limit, seenBudget (.dict data) cfg ≤ n := by
  simp only [nofileComplaints, requirement_of_accepted hread hvalid, minNofile_of_accepted hread]
  cases parseSystemdNofileHardLimit (firstSystemdValue service "LimitNOFILE" "0") with
  | error err => simp
  | ok limit =>
    cases hpool : disablesPool (.dict data) with
    | true => simp
    | false =>
      cases limit with
      | none => simp
      | some n => simp [seenBudget]

theorem stopComplaints_eq_nil_iff (hread : AppConfig.ofJson (.dict data) = some cfg)
    (texts : ToolTexts) (service : UnitSection) (path : String) :
    stopComplaints texts service ⟨path, some (.ok (.dict data))⟩ = [] ↔
      ∃ duration,
        readDuration (PyText.strip (firstSystemdValue service "TimeoutStopSec" "0")) =
          some duration ∧ duration.toDouble.le (seenGrace (.dict data) cfg) = false := by
  simp only [stopComplaints, parseSystemdSeconds, grace_of_accepted hread]
  cases readDuration (PyText.strip (firstSystemdValue service "TimeoutStopSec" "0")) with
  | none => simp
  | some duration => simp

/-- A unit without complaints was read, and neither comparison complained. -/
theorem checks_of_accepted {unit : ToolFile Text} {config : ConfigFile}
    (h : validateSystemdUnit texts unit config = []) :
    ∃ content sections service, unit.content = some (.ok content) ∧
      parseSystemdUnit content = .ok sections ∧ sections.get "Service" = some service ∧
      nofileComplaints service config = [] ∧ stopComplaints texts service config = [] := by
  unfold validateSystemdUnit at h
  split at h
  · cases h
  · cases h
  rename_i content hcontent
  split at h
  · cases h
  rename_i sections hsections
  split at h
  · cases h
  rename_i service hservice
  simp only [serviceComplaints, List.append_eq_nil_iff] at h
  obtain ⟨⟨⟨⟨⟨⟨⟨⟨⟨-, hnofile⟩, hstop⟩, -⟩, -⟩, -⟩, -⟩, -⟩, -⟩, -⟩ := h
  exact ⟨content, sections, service, hcontent, hsections, hservice, hnofile, hstop⟩

/-- A document that is an array is no document for the tool. -/
theorem nofileComplaints_array {doc : PyValue Double} (harray : isArray doc = true)
    (service : UnitSection) (path : String) :
    nofileComplaints service ⟨path, some (.ok doc)⟩ ≠ [] := by
  cases doc with
  | list items =>
    simp only [nofileComplaints]
    cases parseSystemdNofileHardLimit (firstSystemdValue service "LimitNOFILE" "0") with
    | error err => simp
    | ok limit => simp [configNofileCapacityRequirement, asDict, bind, Except.bind]
  | _ => cases harray

/-! ## The condition on a document -/

/-- The grace period, written in any unit, is not read as a longer one. -/
def RoundsDown (graceMs : ℕ) : Prop :=
  ∀ unit : TimeUnit, (Duration.span (graceMs / 1000 / unit.seconds) unit).toDouble.le
    ((Double.ofRat graceMs).divNat 1000) = true

/-- No unit that stops the daemon too early gets past the tool. -/
def GraceIsTimed (doc : PyValue Double) (cfg : AppConfig) : Prop :=
  cfg.runtime.shutdownGraceMs = 0 ∨
    (runtimeMember doc "shutdown_grace_ms").isSome = true ∧
      RoundsDown cfg.runtime.shutdownGraceMs

/-- What is hidden from the tool makes no difference to the budget. -/
def BudgetIsSeen (doc : PyValue Double) (cfg : AppConfig) : Prop :=
  (min cfg.descriptors U64_MAX : ℕ) ≤ seenBudget doc cfg

theorem TimeUnit.seconds_pos (unit : TimeUnit) : 0 < unit.seconds := by
  cases unit <;> norm_num [TimeUnit.seconds]

theorem duration_facts :
    (∀ unit ∈ TimeUnit.all, (0 < nearest unit.seconds ∧ |nearest unit.seconds| < 2 ^ 1024) ∧
      (Duration.span ((2000 : ℕ) / 1000 / unit.seconds) unit).toDouble.le
        ((Double.ofRat (2000 : ℕ)).divNat 1000) = true) ∧
    (Duration.span 1 .ms).toDouble.le (Double.ofRat 0) = false ∧
    (Duration.span 1 .s).toDouble.le (Double.ofRat 0) = false := by
  decide +kernel

theorem TimeUnit.mem_all (unit : TimeUnit) : unit ∈ TimeUnit.all := by cases unit <;> decide

theorem TimeUnit.scale (unit : TimeUnit) :
    0 < nearest unit.seconds ∧ |nearest unit.seconds| < 2 ^ 1024 :=
  (duration_facts.1 unit unit.mem_all).1

theorem readNumber_nonneg {s rest : Text} (h : readNumber s = some (number, rest)) :
    0 ≤ number := by
  simp only [readNumber] at h
  split_ifs at h with hwhole
  split at h
  · split_ifs at h
    obtain ⟨rfl, -⟩ := Prod.mk.inj (Option.some.inj h)
    positivity
  · obtain ⟨rfl, -⟩ := Prod.mk.inj (Option.some.inj h)
    positivity

theorem readDuration_nonneg {token : Text} (h : readDuration token = some (.span number unit)) :
    0 ≤ number := by
  unfold readDuration at h
  split_ifs at h
  · cases h
  obtain ⟨⟨number', rest⟩, hnumber, h⟩ := Option.bind_eq_some_iff.mp h
  obtain ⟨unit', -, h⟩ := Option.bind_eq_some_iff.mp h
  obtain ⟨rfl, -⟩ := Duration.span.inj (Option.some.inj h)
  exact readNumber_nonneg hnumber

/-- A duration that is not longer is not read as longer than its equal. -/
theorem toDouble_le {q : ℚ} (hnumber : 0 ≤ number) (h : number * unit.seconds ≤ q) :
    (Duration.span number unit).toDouble.le (Duration.span (q / unit.seconds) unit).toDouble =
      true := by
  obtain ⟨hscale, hbounded⟩ := unit.scale
  simp only [Duration.toDouble, Double.ofRat_of_bounded hbounded]
  refine Double.mul_mono hscale (Double.ofRat_nonneg hnumber) (Double.ofRat_mono hnumber ?_)
  rwa [le_div_iff₀ unit.seconds_pos]

/-- **A unit that passes the comparison waits long enough.** -/
theorem exceeds_of_not_le {graceMs : ℕ} (hrounds : RoundsDown graceMs) {token : Text}
    {duration : Duration} (hread : readDuration token = some duration)
    (h : duration.toDouble.le ((Double.ofRat graceMs).divNat 1000) = false) :
    duration.Exceeds (graceMs / 1000) := by
  cases duration with
  | infinity => trivial
  | span number unit =>
    by_contra hshort
    have hle := toDouble_le (readDuration_nonneg hread) (not_lt.mp hshort)
    rw [Double.le_trans hle (hrounds unit)] at h
    cases h

theorem roundsDown_zero : RoundsDown 0 := by
  intro unit
  obtain ⟨-, hbounded⟩ := unit.scale
  rw [zero_divNat, Duration.toDouble, Nat.cast_zero, zero_div, zero_div, Double.ofRat_zero,
    Double.ofRat_of_bounded hbounded, Double.mul, zero_mul, Double.ofRat_zero]
  exact decide_eq_true (le_refl (0 : ℚ))

theorem fits_of_checks (hread : AppConfig.ofJson (.dict data) = some cfg)
    (hvalid : cfg.validate env = .ok ()) (hgrace : GraceIsTimed (.dict data) cfg)
    (hbudget : BudgetIsSeen (.dict data) cfg) {service : UnitSection} {path : String}
    (hnofile : nofileComplaints service ⟨path, some (.ok (.dict data))⟩ = [])
    (hstop : stopComplaints texts service ⟨path, some (.ok (.dict data))⟩ = []) (softLimit : ℕ) :
    ServiceFits service cfg softLimit := by
  obtain ⟨-, limit, hlimit, henough⟩ :=
    (nofileComplaints_eq_nil_iff hread hvalid service path).mp hnofile
  obtain ⟨duration, hduration, hlong⟩ :=
    (stopComplaints_eq_nil_iff hread texts service path).mp hstop
  refine ⟨⟨duration, hduration, ?_⟩, limit, hlimit, ?_⟩
  · rcases hgrace with hzero | ⟨hwritten, hrounds⟩
    · -- both readings of no grace period are zero
      rw [hzero]
      refine exceeds_of_not_le roundsDown_zero hduration ?_
      rw [seenGrace, hzero, zero_divNat, ite_self] at hlong
      rwa [zero_divNat]
    · rw [seenGrace, if_pos hwritten] at hlong
      exact exceeds_of_not_le hrounds hduration hlong
  · intro n hn
    rw [required_eq hvalid]
    exact_mod_cast hbudget.trans (henough n hn)

/-- A grace period that is not timed can be undercut. -/
theorem exists_short_duration {doc : PyValue Double} (h : ¬GraceIsTimed doc cfg) :
    ∃ d unit, IsDecimal d ∧
      d * TimeUnit.seconds unit ≤ cfg.runtime.shutdownGraceMs / 1000 ∧
      (Duration.span d unit).toDouble.le (seenGrace doc cfg) = false := by
  obtain ⟨hpos, hrounds⟩ := not_or.mp h
  unfold seenGrace
  split_ifs with hwritten
  · -- written, but read as a longer one in some unit
    have hrounds : ¬RoundsDown cfg.runtime.shutdownGraceMs := fun hr => hrounds ⟨hwritten, hr⟩
    obtain ⟨unit, hunit⟩ := not_forall.mp hrounds
    have hq : (0 : ℚ) ≤ cfg.runtime.shutdownGraceMs / 1000 / unit.seconds :=
      div_nonneg (by positivity) unit.seconds_pos.le
    obtain ⟨d, hdec, hd, hle, hnearest⟩ := exists_decimal_nearest hq
    refine ⟨d, unit, hdec, (le_div_iff₀ unit.seconds_pos).mp hle, ?_⟩
    have hsame := Double.ofRat_congr hq hd hnearest.symm
    simp only [Duration.toDouble] at hunit ⊢
    rw [hsame] at hunit
    exact eq_false_of_ne_true hunit
  · -- not written: a millisecond is longer than none
    refine ⟨1, .ms, ⟨1, 0, by norm_num⟩, ?_, ?_⟩
    · have hone : (1 : ℚ) ≤ cfg.runtime.shutdownGraceMs := by
        exact_mod_cast Nat.one_le_iff_ne_zero.mpr hpos
      norm_num [TimeUnit.seconds]
      linarith
    · exact duration_facts.2.1

/-! ## Some documents and values -/

/-- A document that writes the default grace period. -/
def timedDocument : PyValue Double :=
  jsonObject [("runtime", jsonObject [("shutdown_grace_ms", .int 2000)])]

def plainTexts : ToolTexts where
  quote := String.ofList
  general := fun _ => ""

theorem document_facts :
    acceptedWith timedDocument (fun cfg => cfg.runtime.shutdownGraceMs == 2000 &&
      cfg.descriptors == 256) = true ∧
    (runtimeMember timedDocument "shutdown_grace_ms").isSome = true ∧
    acceptedWith (jsonObject []) (fun cfg => cfg.runtime.shutdownGraceMs == 2000) = true ∧
    disablesPool (jsonObject []) = false := by
  decide +kernel

theorem roundsDown_default : RoundsDown 2000 := fun unit => (duration_facts.1 unit unit.mem_all).2

/-! ## A unit with given values

The unit below passes every check but the two comparisons, whatever is written for
the two values that are compared. -/

/-- Of the values with a choice, the first. -/
def templateService : UnitSection :=
  ((REQUIRED_SYSTEMD_SERVICE_VALUES.map fun entry => (entry.1, entry.2.headD "")) ++
    [("User", "altura-prot"), ("Group", "altura-prot"), ("ExecStart", "altura-prot"),
      ("TasksMax", "32768"), ("MemoryHigh", "2G"), ("MemoryMax", "2G"),
      ("ConfigurationDirectory", "altura-prot"), ("StateDirectory", "altura-prot"),
      ("LogsDirectory", "altura-prot"), ("AmbientCapabilities", "CAP_NET_BIND_SERVICE"),
      ("CapabilityBoundingSet", "CAP_NET_BIND_SERVICE"),
      ("RestrictAddressFamilies", "AF_UNIX AF_INET AF_INET6")]).map
    fun entry => (entry.1.toList, entry.2.toList)

/-- The two values that are compared. -/
def comparedEntries (nofile stop : Text) : UnitSection :=
  [("LimitNOFILE".toList, nofile), ("TimeoutStopSec".toList, stop)]

/-- The sections of the unit. -/
def comparedUnit (nofile stop : Text) : List (Text × UnitSection) :=
  [("Unit".toList, ["StartLimitIntervalSec", "StartLimitBurst"].map fun key => (key.toList, ['5'])),
    ("Install".toList, [("WantedBy".toList, "multi-user.target".toList)]),
    ("Service".toList, templateService ++ comparedEntries nofile stop)]

/-- The checks of the service section that look at neither of the two values. -/
def otherComplaints (service : UnitSection) : List String :=
  valueComplaints service ++ accountComplaints service ++ memoryComplaints service ++
    familyComplaints service ++ capabilityComplaints service ++ directoryComplaints service

theorem template_facts :
    ((comparedUnit [] []).all fun unit => isName unit.1 && unit.2.all isEntry) = true ∧
      otherComplaints templateService = [] ∧
      firstSystemdValue templateService "TasksMax" "0" = "32768".toList ∧
      REQUIRED_SYSTEMD_DIRECTIVES.all (hasKey (templateService ++ comparedEntries [] [])) = true ∧
      "multi-user.target".toList ∈ words "multi-user.target".toList := by
  decide +kernel

/-- No limit, and durations without and with an end. -/
theorem text_facts :
    (isValue "infinity".toList = true ∧
      parseSystemdNofileHardLimit "infinity".toList = .ok none ∧
      readDuration (PyText.strip "infinity".toList) = some .infinity) ∧
    isValue "1s".toList = true ∧ readDuration (PyText.strip "1s".toList) = some (.span 1 .s) := by
  decide +kernel

theorem firstSystemdValue_append (unit added : UnitSection) {key : String}
    (h : ∀ entry ∈ added, entry.1 ≠ key.toList) (fallback : String) :
    firstSystemdValue (unit ++ added) key fallback = firstSystemdValue unit key fallback := by
  have hadded : added.filter (fun entry => entry.1 == key.toList) = [] :=
    List.filter_eq_nil_iff.mpr fun entry hmem => by simpa using h entry hmem
  rw [firstSystemdValue, List.filter_append, hadded, List.append_nil, firstSystemdValue]

section Values

variable (service : UnitSection) (nofile stop : Text)

/-- Every other value stays what it was. -/
theorem firstSystemdValue_compared {key : String} (hnofile : key ≠ "LimitNOFILE")
    (hstop : key ≠ "TimeoutStopSec") (fallback : String) :
    firstSystemdValue (service ++ comparedEntries nofile stop) key fallback =
      firstSystemdValue service key fallback := by
  refine firstSystemdValue_append _ _ ?_ fallback
  simp only [comparedEntries, List.forall_mem_cons, ne_eq, String.toList_inj]
  exact ⟨Ne.symm hnofile, Ne.symm hstop, by simp⟩

theorem valueComplaints_compared :
    valueComplaints (service ++ comparedEntries nofile stop) = valueComplaints service := by
  refine List.flatMap_congr fun (key, allowed) hmem => ?_
  have hkeys : ∀ entry ∈ REQUIRED_SYSTEMD_SERVICE_VALUES,
      entry.1 ≠ "LimitNOFILE" ∧ entry.1 ≠ "TimeoutStopSec" := by
    simp [REQUIRED_SYSTEMD_SERVICE_VALUES]
  obtain ⟨h1, h2⟩ := hkeys _ hmem
  simp only [firstSystemdValue_compared _ _ _ h1 h2]

theorem otherComplaints_compared :
    otherComplaints (service ++ comparedEntries nofile stop) = otherComplaints service := by
  simp only [otherComplaints, valueComplaints_compared, accountComplaints, memoryComplaints,
    familyComplaints, capabilityComplaints, directoryComplaints, List.flatMap_cons,
    List.flatMap_nil]
  simp (disch := simp) only [firstSystemdValue_compared]

/-- Which keys there are does not depend on the values. -/
theorem directiveComplaints_compared
    (h : REQUIRED_SYSTEMD_DIRECTIVES.all (hasKey (service ++ comparedEntries [] [])) = true) :
    directiveComplaints (service ++ comparedEntries nofile stop) = [] := by
  have hall : REQUIRED_SYSTEMD_DIRECTIVES.filter
      (fun key => !hasKey (service ++ comparedEntries nofile stop) key) = [] := by
    refine List.filter_eq_nil_iff.mpr fun key hkey => ?_
    have hthere := List.all_eq_true.mp h key hkey
    simp only [hasKey, comparedEntries, List.any_append, List.any_cons, List.any_nil] at hthere ⊢
    rw [hthere]
    decide
  simp only [directiveComplaints, hall]
  rfl

theorem firstSystemdValue_nofile :
    firstSystemdValue (service ++ comparedEntries nofile stop) "LimitNOFILE" "0" = nofile := by
  simp [firstSystemdValue, comparedEntries, List.filter_append]

theorem firstSystemdValue_stop :
    firstSystemdValue (service ++ comparedEntries nofile stop) "TimeoutStopSec" "0" = stop := by
  simp [firstSystemdValue, comparedEntries, List.filter_append]

end Values

/-- What is read from the text of the unit. -/
theorem sections_unitText (hnofile : isValue nofile = true) (hstop : isValue stop = true) :
    ∃ sections, parseSystemdUnit (unitText (comparedUnit nofile stop)) = .ok sections ∧
      sections.get "Service" = some (templateService ++ comparedEntries nofile stop) ∧
      restartComplaints sections = [] ∧ installComplaints sections = [] := by
  obtain ⟨hwritten, -, -, -, htarget⟩ := template_facts
  have hentries : ∀ unit ∈ comparedUnit nofile stop,
      isName unit.1 = true ∧ unit.2.all isEntry = true := by
    simp only [comparedUnit, List.all_cons, List.all_nil, List.all_append, comparedEntries, isEntry,
      Bool.and_eq_true, List.forall_mem_cons] at hwritten ⊢
    simp_all
  have hnodup : ((comparedUnit nofile stop).map Prod.fst).Nodup := by
    simp [comparedUnit]
  refine ⟨_, parseSystemdUnit_unitText hentries, get_of_mem _ (by simp [comparedUnit]) hnodup,
    ?_, ?_⟩
  · rw [restartComplaints, get_of_mem (["StartLimitIntervalSec", "StartLimitBurst"].map
      fun key => (key.toList, ['5'])) (by simp [comparedUnit]) hnodup]
    simp [hasKey]
  · rw [installComplaints, get_of_mem [("WantedBy".toList, "multi-user.target".toList)]
      (by simp [comparedUnit]) hnodup]
    simp only [Option.getD_some, firstSystemdValue]
    simpa using htarget

/-- **The unit is accepted if the two comparisons are.** -/
theorem validate_unitText (hnofile : isValue nofile = true) (hstop : isValue stop = true)
    {config : ConfigFile}
    (hlimit : nofileComplaints (templateService ++ comparedEntries nofile stop) config = [])
    (htime : stopComplaints texts (templateService ++ comparedEntries nofile stop) config = [])
    (path : String) :
    validateSystemdUnit texts ⟨path, some (.ok (unitText (comparedUnit nofile stop)))⟩ config =
      [] := by
  obtain ⟨-, hothers, htasks, hkeys, -⟩ := template_facts
  have htask : taskComplaints texts (templateService ++ comparedEntries nofile stop) = [] := by
    have hint : PyText.int texts.quote "32768".toList = .ok 32768 := rfl
    simp only [taskComplaints, firstSystemdValue_compared _ _ _ (show "TasksMax" ≠ "LimitNOFILE" by
      simp) (show "TasksMax" ≠ "TimeoutStopSec" by simp), htasks, hint]
    decide
  have hother := (otherComplaints_compared templateService nofile stop).trans hothers
  simp only [otherComplaints, List.append_eq_nil_iff] at hother
  obtain ⟨⟨⟨⟨⟨hvalues, haccounts⟩, hmemory⟩, hfamilies⟩, hcaps⟩, hdirs⟩ := hother
  have hcomplaints :
      serviceComplaints texts (templateService ++ comparedEntries nofile stop) config = [] := by
    simp only [serviceComplaints, directiveComplaints_compared _ _ _ hkeys, hvalues, haccounts,
      hlimit, htime, htask, hmemory, hfamilies, hcaps, hdirs, List.append_nil]
  obtain ⟨sections, hparse, hfound, hrestart, hinstall⟩ := sections_unitText hnofile hstop
  simp only [validateSystemdUnit, hparse, hfound, hcomplaints, hrestart, hinstall, List.append_nil]

/-- If it fits, its two values do. -/
theorem serviceFits_of_unitText (hnofile : isValue nofile = true) (hstop : isValue stop = true)
    {path : String} {softLimit : ℕ}
    (h : UnitFits ⟨path, some (.ok (unitText (comparedUnit nofile stop)))⟩ cfg softLimit) :
    ServiceFits (templateService ++ comparedEntries nofile stop) cfg softLimit := by
  obtain ⟨content, sections, service, hcontent, hsections, hservice, hfits⟩ := h
  obtain ⟨sections', hparse, hfound, -⟩ := sections_unitText hnofile hstop
  obtain rfl := Except.ok.inj (Option.some.inj hcontent)
  obtain rfl := Except.ok.inj (hsections.symm.trans hparse)
  obtain rfl := Option.some.inj (hservice.symm.trans hfound)
  exact hfits

/-! ## Units that do not fit -/

/-- A duration that is too short, but is not read so, makes a unit that does not fit. -/
theorem exists_unfit_stop (hread : AppConfig.ofJson (.dict data) = some cfg)
    (hvalid : cfg.validate env = .ok ()) (hpool : disablesPool (.dict data) = false) {d : ℚ}
    (hd : IsDecimal d) (hshort : d * unit.seconds ≤ cfg.runtime.shutdownGraceMs / 1000)
    (hseen : (Duration.span d unit).toDouble.le (seenGrace (.dict data) cfg) = false)
    (texts : ToolTexts) (path unitPath : String) (softLimit : ℕ) :
    ∃ content, validateSystemdUnit texts ⟨unitPath, some (.ok content)⟩
        ⟨path, some (.ok (.dict data))⟩ = [] ∧
      ¬UnitFits ⟨unitPath, some (.ok content)⟩ cfg softLimit := by
  obtain ⟨whole, fraction, hwhole, hfraction, hwholeNe, hfractionNe, rfl⟩ :=
    exists_decimal_digits hd
  obtain ⟨⟨hunlimited, hinfinity, -⟩, -⟩ := text_facts
  have hvalue := isValue_durationText hwhole hfraction unit
  have hduration := readDuration_durationText hwhole hfraction hwholeNe hfractionNe unit
  refine ⟨unitText (comparedUnit "infinity".toList (durationText whole fraction unit)), ?_, ?_⟩
  · refine validate_unitText hunlimited hvalue ?_ ?_ unitPath
    · refine (nofileComplaints_eq_nil_iff hread hvalid _ path).mpr ⟨hpool, none, ?_, by simp⟩
      rw [firstSystemdValue_nofile, hinfinity]
    · refine (stopComplaints_eq_nil_iff hread texts _ path).mpr ⟨_, ?_, hseen⟩
      rw [firstSystemdValue_stop, strip_of_isValue hvalue, hduration]
  · intro hfits
    obtain ⟨⟨duration, hread', hexceeds⟩, -⟩ := serviceFits_of_unitText hunlimited hvalue hfits
    rw [firstSystemdValue_stop, strip_of_isValue hvalue, hduration] at hread'
    obtain rfl := Option.some.inj hread'
    exact absurd hexceeds (not_lt.mpr hshort)

/-- A limit that is enough for the tool and too low for the daemon. -/
theorem exists_unfit_nofile (hread : AppConfig.ofJson (.dict data) = some cfg)
    (hvalid : cfg.validate env = .ok ()) (hpool : disablesPool (.dict data) = false)
    (hbudget : ¬BudgetIsSeen (.dict data) cfg) (texts : ToolTexts) (path unitPath : String)
    (softLimit : ℕ) :
    ∃ content, validateSystemdUnit texts ⟨unitPath, some (.ok content)⟩
        ⟨path, some (.ok (.dict data))⟩ = [] ∧
      ¬UnitFits ⟨unitPath, some (.ok content)⟩ cfg softLimit := by
  have hlow : seenBudget (.dict data) cfg < (min cfg.descriptors U64_MAX : ℕ) := not_le.mp hbudget
  have hpos : (0 : ℤ) ≤ seenBudget (.dict data) cfg :=
    le_max_of_le_left (le_max_of_le_left (Int.natCast_nonneg _))
  obtain ⟨n, hn⟩ := Int.eq_ofNat_of_zero_le hpos
  rw [hn, Nat.cast_lt] at hlow
  have hbound : n < 10 ^ 20 := hlow.trans (lt_of_le_of_lt (min_le_right _ _) (by decide))
  have hdigits : ∀ d ∈ placeDigits 10 20 n, d < 10 := fun d => mem_placeDigits_lt (by decide)
  have hlimit : parseSystemdNofileHardLimit (digitText (placeDigits 10 20 n)) = .ok (some n) := by
    rw [parseSystemdNofileHardLimit_digitText hdigits ?_ ?_, placeValue_placeDigits,
      Nat.mod_eq_of_lt hbound]
    · rw [← List.length_pos_iff, length_placeDigits]
      decide
    · rw [length_placeDigits]
      decide
  obtain ⟨⟨hunlimited, -, hinfinity⟩, -⟩ := text_facts
  have hvalue := isValue_of_plain (plain_digitText hdigits)
  refine ⟨unitText (comparedUnit (digitText (placeDigits 10 20 n)) "infinity".toList), ?_, ?_⟩
  · refine validate_unitText hvalue hunlimited ?_ ?_ unitPath
    · refine (nofileComplaints_eq_nil_iff hread hvalid _ path).mpr ⟨hpool, some n, ?_, ?_⟩
      · rw [firstSystemdValue_nofile, hlimit]
      · rintro m ⟨⟩
        exact hn.le
    · refine (stopComplaints_eq_nil_iff hread texts _ path).mpr ⟨.infinity, ?_, ?_⟩
      · rw [firstSystemdValue_stop, hinfinity]
      · exact infinite_le_seenGrace hread
  · intro hfits
    obtain ⟨-, limit, hlimit', henough⟩ := serviceFits_of_unitText hvalue hunlimited hfits
    rw [firstSystemdValue_nofile, hlimit] at hlimit'
    obtain rfl := Except.ok.inj hlimit'
    have hle := henough n rfl
    rw [required_eq hvalid] at hle
    omega

/-! ## Accepted units fit -/

/-- **Every unit that the tool accepts fits the daemon exactly if** the tool accepts none
(the document is an array, or its idle pool is empty), or the grace period is timed and
the budget is seen. -/
theorem accepted_units_fit_iff {env : CheckEnv} {doc : PyValue Double} {cfg : AppConfig}
    (hread : AppConfig.ofJson doc = some cfg) (hvalid : cfg.validate env = .ok ())
    (texts : ToolTexts) (path : String) (softLimit : ℕ) :
    (∀ unit, validateSystemdUnit texts unit ⟨path, some (.ok doc)⟩ = [] →
        UnitFits unit cfg softLimit) ↔
      isArray doc = true ∨ disablesPool doc = true ∨
        GraceIsTimed doc cfg ∧ BudgetIsSeen doc cfg := by
  obtain ⟨field, hfield, -⟩ := AppConfig.ofJson_eq_some hread
  constructor
  · intro hall
    rcases dict_or_list_of_read hfield with ⟨data, rfl⟩ | harray
    · by_contra hcondition
      obtain ⟨-, hcondition⟩ := not_or.mp hcondition
      obtain ⟨hpool, hcondition⟩ := not_or.mp hcondition
      have hpool := Bool.eq_false_iff.mpr hpool
      rcases not_and_or.mp hcondition with hgrace | hbudget
      · obtain ⟨d, unit, hd, hshort, hseen⟩ := exists_short_duration hgrace
        obtain ⟨content, haccepted, hunfit⟩ := exists_unfit_stop hread hvalid hpool hd hshort
          hseen texts path "altura-prot.service" softLimit
        exact hunfit (hall _ haccepted)
      · obtain ⟨content, haccepted, hunfit⟩ := exists_unfit_nofile hread hvalid hpool hbudget
          texts path "altura-prot.service" softLimit
        exact hunfit (hall _ haccepted)
    · exact Or.inl harray
  · intro hcondition unit haccepted
    obtain ⟨content, sections, service, hcontent, hsections, hservice, hnofile, hstop⟩ :=
      checks_of_accepted haccepted
    refine ⟨content, sections, service, hcontent, hsections, hservice, ?_⟩
    rcases hcondition with harray | hpool | ⟨hgrace, hbudget⟩
    · exact absurd hnofile (nofileComplaints_array harray service path)
    · rcases dict_or_list_of_read hfield with ⟨data, rfl⟩ | harray
      · obtain ⟨hpool', -⟩ := (nofileComplaints_eq_nil_iff hread hvalid service path).mp hnofile
        rw [hpool] at hpool'
        cases hpool'
      · exact absurd hnofile (nofileComplaints_array harray service path)
    · rcases dict_or_list_of_read hfield with ⟨data, rfl⟩ | harray
      · exact fits_of_checks hread hvalid hgrace hbudget hnofile hstop softLimit
      · exact absurd hnofile (nofileComplaints_array harray service path)

/-- With the grace period written, no unit that is accepted stops the daemon early. -/
theorem units_fit_timed_document :
    ∃ cfg, AppConfig.ofJson timedDocument = some cfg ∧ cfg.validate plainEnv = .ok () ∧
      ∀ unit, validateSystemdUnit plainTexts unit ⟨"config.json", some (.ok timedDocument)⟩ = [] →
        UnitFits unit cfg 65536 := by
  obtain ⟨haccepted, hwritten, -⟩ := document_facts
  obtain ⟨cfg, hread, hvalid, hsettings⟩ := exists_of_acceptedWith haccepted
  obtain ⟨hgrace, hsum⟩ := (Bool.and_eq_true _ _).mp hsettings
  refine ⟨cfg, hread, hvalid,
    (accepted_units_fit_iff hread hvalid plainTexts "config.json" 65536).mpr
      (Or.inr (Or.inr ⟨Or.inr ⟨hwritten, ?_⟩, ?_⟩))⟩
  · rw [eq_of_beq hgrace]
    exact roundsDown_default
  · rw [BudgetIsSeen, eq_of_beq hsum]
    refine le_max_of_le_left (le_max_of_le_left ?_)
    exact_mod_cast (min_le_left 256 U64_MAX).trans (by norm_num [MIN_SYSTEMD_LIMIT_NOFILE])

/-- With nothing written, a unit that waits one second is accepted, and the daemon takes
two. -/
theorem hasty_unit_is_accepted :
    ∃ cfg, AppConfig.ofJson (jsonObject []) = some cfg ∧ cfg.validate plainEnv = .ok () ∧
      cfg.runtime.shutdownGraceMs = 2000 ∧
      validateSystemdUnit plainTexts
        ⟨"altura-prot.service", some (.ok (unitText (comparedUnit "infinity".toList "1s".toList)))⟩
        ⟨"config.json", some (.ok (jsonObject []))⟩ = [] ∧
      ¬UnitFits ⟨"altura-prot.service", some (.ok (unitText (comparedUnit "infinity".toList "1s".toList)))⟩
        cfg 65536 := by
  obtain ⟨-, -, haccepted, hpool⟩ := document_facts
  obtain ⟨cfg, hread, hvalid, hgrace⟩ := exists_of_acceptedWith haccepted
  have hgrace : cfg.runtime.shutdownGraceMs = 2000 := eq_of_beq hgrace
  obtain ⟨⟨hunlimited, hinfinity, -⟩, hvalue, hone⟩ := text_facts
  refine ⟨cfg, hread, hvalid, hgrace, ?_, ?_⟩
  · refine validate_unitText hunlimited hvalue ?_ ?_ _
    · refine (nofileComplaints_eq_nil_iff hread hvalid _ _).mpr ⟨hpool, none, ?_, by simp⟩
      rw [firstSystemdValue_nofile, hinfinity]
    · refine (stopComplaints_eq_nil_iff hread plainTexts _ _).mpr ⟨.span 1 .s, ?_, ?_⟩
      · rw [firstSystemdValue_stop, hone]
      · exact duration_facts.2.2
  · intro hfits
    obtain ⟨⟨duration, hduration, hexceeds⟩, -⟩ :=
      serviceFits_of_unitText hunlimited hvalue hfits
    rw [firstSystemdValue_stop, hone] at hduration
    obtain rfl := Option.some.inj hduration
    rw [Duration.Exceeds, hgrace] at hexceeds
    norm_num [TimeUnit.seconds] at hexceeds

end AlturaProt.Edge
