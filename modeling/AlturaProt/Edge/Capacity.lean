import AlturaProt.Config.Capacity

/-!
# The descriptor budget of the template validator

`config_nofile_capacity_requirement` of `tools/validate_edge_templates.py` derives
the daemon's descriptor budget a second time, from the JSON document itself and
with defaults of its own. It reads objects only: a table that is written as an
array is passed over, and a limits section that is one is taken for an empty one.

`requirement_of_accepted` compares the two for every document the daemon accepts:
the tool misses what `hiddenDescriptors` counts, and it refuses an idle pool of
size zero, which the daemon allows.
-/

namespace AlturaProt.Edge

open Foundation Python Config Limiter

/-! ## Files and values -/

/-- A file as the tool finds it: it may be missing, and reading it may raise. -/
structure ToolFile (α : Type) where
  path : String
  content : Option (Except String α)

abbrev ConfigFile : Type := ToolFile (PyValue Double)

def typeName : PyValue Double → String
  | .none => "NoneType"
  | .bool _ => "bool"
  | .int _ => "int"
  | .float _ => "float"
  | .str _ => "str"
  | .list _ => "list"
  | .dict _ => "dict"

/-- What has a `get` method; the error is the text of the exception. -/
def asDict : PyValue Double → Except String (PyDict Double)
  | .dict items => .ok items
  | v => .error s!"'{typeName v}' object has no attribute 'get'"

/-! ## The tool -/

def DEFAULT_ACCEPT_SHARDS : ℕ := 1
def DEFAULT_HTTP_MAX_CONNECTIONS : ℕ := 10000
def DEFAULT_HTTP_MAX_IN_FLIGHT_REQUESTS : ℕ := 8192
def DEFAULT_HTTP_UPSTREAM_POOL_MAX_IDLE_PER_HOST : ℕ := 256
def DEFAULT_TCP_MAX_CONNECTIONS : ℕ := 10000

def positiveIntConfigValue (value : PyValue Double) (fallback : ℕ) (label : String) :
    Except String ℤ :=
  match value with
  | .none => .ok fallback
  | .int z => if z ≤ 0 then .error (label ++ " must be greater than zero") else .ok z
  | _ => .error (label ++ " must be an integer")

def configCapacityValue (item : PyDict Double) (key : String) (fallback : ℕ) (label : String) :
    Except String ℤ :=
  positiveIntConfigValue (PyDict.getD item key .none) fallback label

/-- The running total and the complaints. -/
structure Tally where
  required : ℤ
  errors : List String

def Tally.add (t : Tally) (value : Except String ℤ) (weight : ℤ) : Tally :=
  match value with
  | .ok n => { t with required := t.required + n * weight }
  | .error complaint => { t with errors := t.errors ++ [complaint] }

def limitsOf (item : PyDict Double) : PyDict Double :=
  match PyDict.getD item "limits" .none with
  | .dict limits => limits
  | _ => []

def tallyHttp (http : PyDict Double) (t : Tally) : Tally :=
  let limits := limitsOf http
  let t := t.add (configCapacityValue http "accept_shards" DEFAULT_ACCEPT_SHARDS
    "http.accept_shards") 1
  let t := t.add (configCapacityValue limits "max_connections" DEFAULT_HTTP_MAX_CONNECTIONS
    "http.limits.max_connections") 1
  let t := t.add (configCapacityValue limits "max_in_flight_requests"
    DEFAULT_HTTP_MAX_IN_FLIGHT_REQUESTS "http.limits.max_in_flight_requests") 1
  t.add (configCapacityValue http "upstream_pool_max_idle_per_host"
    DEFAULT_HTTP_UPSTREAM_POOL_MAX_IDLE_PER_HOST "http.upstream_pool_max_idle_per_host") 1

def tallyTcp (idx : ℕ) (item : PyValue Double) (t : Tally) : Tally :=
  match item with
  | .dict item =>
    let t := t.add (configCapacityValue item "accept_shards" DEFAULT_ACCEPT_SHARDS
      s!"tcp[{idx}].accept_shards") 1
    t.add (configCapacityValue (limitsOf item) "max_connections" DEFAULT_TCP_MAX_CONNECTIONS
      s!"tcp[{idx}].limits.max_connections") 2
  | _ => t

def tallyTcps : ℕ → List (PyValue Double) → Tally → Tally
  | _, [], t => t
  | idx, item :: rest, t => tallyTcps (idx + 1) rest (tallyTcp idx item t)

def tallyHttpSection (v : PyValue Double) (t : Tally) : Tally :=
  match v with
  | .dict http => tallyHttp http t
  | _ => t

def tallyTcpSection (v : PyValue Double) (t : Tally) : Tally :=
  match v with
  | .list tcp => tallyTcps 0 tcp t
  | _ => t

def tallyDocument (data : PyDict Double) : Tally :=
  tallyTcpSection (PyDict.getD data "tcp" .none)
    (tallyHttpSection (PyDict.getD data "http" .none) ⟨NOFILE_BASE_RESERVE, []⟩)

/-- The budget, or complaints; the error is an exception that is not caught. -/
def configNofileCapacityRequirement (config : ConfigFile) :
    Except String (Option ℤ × List String) :=
  match config.content with
  | none => .ok (none, [])
  | some (.error err) => .ok (none, [s!"failed to read config {config.path}: {err}"])
  | some (.ok data) => do
      let t := tallyDocument (← asDict data)
      return if t.errors.isEmpty then (some t.required, []) else (none, t.errors)

/-! ## What the tool does not see -/

def isArray : PyValue Double → Bool
  | .list _ => true
  | _ => false

/-- A member of an object. -/
def member (v : PyValue Double) (key : String) : Option (PyValue Double) :=
  match v with
  | .dict items => items.lookup (py key)
  | _ => none

def limitsAreArray (v : PyValue Double) : Bool := (member v "limits").any isArray

/-- What an HTTP section written as an array has; of its limits, what they have
beyond the defaults. -/
def hiddenInHttp (v : PyValue Double) (http : HttpConfig) : ℤ :=
  if isArray v then http.descriptors
  else if limitsAreArray v then
    http.limits.maxConnections + http.limits.maxInFlightRequests -
      (DEFAULT_HTTP_MAX_CONNECTIONS + DEFAULT_HTTP_MAX_IN_FLIGHT_REQUESTS)
  else 0

def hiddenInTcp (v : PyValue Double) (tcp : TcpProxyConfig) : ℤ :=
  if isArray v then tcp.descriptors
  else if limitsAreArray v then
    (tcp.limits.maxConnections - DEFAULT_TCP_MAX_CONNECTIONS) * 2
  else 0

/-- The services as they are written. -/
def services (doc : PyValue Double) : List (PyValue Double) :=
  match member doc "tcp" with
  | some (.list items) => items
  | _ => []

/-- The descriptors of the tables that are written as arrays, beyond those that the
tool assumes for them. -/
def hiddenDescriptors (doc : PyValue Double) (cfg : AppConfig) : ℤ :=
  (cfg.http.elim 0 fun http => (member doc "http").elim 0 fun v => hiddenInHttp v http) +
    ((services doc).zipWith hiddenInTcp cfg.tcp).sum

/-- An HTTP section, written as an object, that asks for no idle connections. -/
def disablesPool (doc : PyValue Double) : Bool :=
  match (member doc "http").bind (member · "upstream_pool_max_idle_per_host") with
  | some (.int 0) => true
  | _ => false

/-! ## What the tool sees -/

theorem recordFields_dict (names : List String) (items : PyDict Double) :
    recordFields names (.dict items) = some fun name => items.lookup (py name) := rfl

theorem member_dict (items : PyDict Double) (key : String) :
    member (.dict items) key = items.lookup (py key) := rfl

variable {names : List String} {item data : PyDict Double} {key : String} {fallback : ℕ}
  {http : HttpConfig}

theorem dict_or_list_of_read {v : PyValue Double} {field : String → Option (PyValue Double)}
    (h : recordFields names v = some field) : (∃ items, v = .dict items) ∨ isArray v = true := by
  cases v with
  | dict items => exact Or.inl ⟨items, rfl⟩
  | list items => exact Or.inr rfl
  | _ => cases h

/-- A positive number is read alike by both. -/
theorem configCapacityValue_of_read {label : String} {n : ℕ}
    (h : withDefault fallback readUsize (item.lookup (py key)) = some n) (hn : 0 < n) :
    configCapacityValue item key fallback label = .ok n := by
  unfold configCapacityValue PyDict.getD
  cases hfield : item.lookup (py key) with
  | none =>
    rw [hfield] at h
    obtain rfl := Option.some.inj h
    rfl
  | some v =>
    rw [hfield] at h
    cases v with
    | int z =>
      obtain ⟨⟨hz, -⟩, hzn⟩ := (readUnsigned_eq_some (F := Double)).mp h
      have hpos : ¬z ≤ 0 := by omega
      simp only [Option.getD_some, positiveIntConfigValue, if_neg hpos]
      congr 1
      omega
    | _ => cases h

/-- Zero must have been written, and the tool complains. -/
theorem configCapacityValue_zero {label : String} (h : item.lookup (py key) = some (.int 0)) :
    configCapacityValue item key fallback label =
      .error (label ++ " must be greater than zero") := by
  simp [configCapacityValue, PyDict.getD, h, positiveIntConfigValue]

theorem lookup_of_read_zero (hfallback : fallback ≠ 0)
    (h : withDefault fallback readUsize (item.lookup (py key)) = some 0) :
    item.lookup (py key) = some (.int 0) := by
  cases hfield : item.lookup (py key) with
  | none =>
    rw [hfield] at h
    exact absurd (Option.some.inj h) hfallback
  | some v =>
    rw [hfield] at h
    cases v with
    | int z =>
      obtain ⟨⟨hz, -⟩, hzn⟩ := (readUnsigned_eq_some (F := Double)).mp h
      obtain rfl : z = 0 := by omega
      rfl
    | _ => cases h

/-- The limits of an object as the tool finds them: absent, an object or an array. -/
theorem limits_cases {L : Type} {fallback limits : L} {read : PyValue Double → Option L}
    (hrecord : ∀ {v l}, read v = some l → ∃ field, recordFields names v = some field)
    (h : withDefault fallback read (item.lookup (py "limits")) = some limits) :
    (limitsOf item = [] ∧ limitsAreArray (.dict item) = false ∧ limits = fallback) ∨
    (limitsAreArray (.dict item) = false ∧ read (.dict (limitsOf item)) = some limits) ∨
    (limitsOf item = [] ∧ limitsAreArray (.dict item) = true) := by
  simp only [limitsOf, limitsAreArray, member_dict, PyDict.getD]
  cases hfield : item.lookup (py "limits") with
  | none =>
    rw [hfield] at h
    exact Or.inl ⟨rfl, rfl, (Option.some.inj h).symm⟩
  | some v =>
    rw [hfield] at h
    obtain ⟨field, hv⟩ := hrecord h
    cases v with
    | dict items => exact Or.inr (Or.inl ⟨rfl, h⟩)
    | list items => exact Or.inr (Or.inr ⟨rfl, rfl⟩)
    | _ => cases hv

/-- A limit as the tool sees it. -/
theorem limit_of_read {L : Type} {fallback limits : L} {read : PyValue Double → Option L}
    (value : L → ℕ) (key label : String)
    (hrecord : ∀ {v l}, read v = some l → ∃ field, recordFields names v = some field ∧
      withDefault (value fallback) readUsize (field key) = some (value l))
    (h : withDefault fallback read (item.lookup (py "limits")) = some limits)
    (hpos : 0 < value limits) :
    configCapacityValue (limitsOf item) key (value fallback) label =
      .ok (if limitsAreArray (.dict item) then value fallback else value limits) := by
  have hempty : configCapacityValue [] key (value fallback) label = .ok (value fallback) := rfl
  rcases limits_cases (fun hv => (hrecord hv).imp fun _ hf => hf.1) h with
    ⟨hl, harray, rfl⟩ | ⟨harray, hread⟩ | ⟨hl, harray⟩
  · rw [hl, harray]
    exact hempty
  · obtain ⟨field, hfield, hvalue⟩ := hrecord hread
    obtain rfl := Option.some.inj hfield
    rw [harray, configCapacityValue_of_read hvalue hpos]
    rfl
  · rw [hl, harray]
    exact hempty

/-- The complaint about an idle pool of size zero. -/
def poolComplaint : String := "http.upstream_pool_max_idle_per_host must be greater than zero"

theorem tallyHttp_of_read (hread : HttpConfig.ofJson (.dict item) = some http)
    (hshards : 0 < http.acceptShards) (hconnections : 0 < http.limits.maxConnections)
    (hflight : 0 < http.limits.maxInFlightRequests) (t : Tally) :
    tallyHttp item t =
      ⟨t.required + (http.descriptors - hiddenInHttp (.dict item) http),
        t.errors ++ if http.upstreamPoolMaxIdlePerHost = 0 then [poolComplaint] else []⟩ := by
  obtain ⟨field, hfield, hreadShards, hreadPool, hreadLimits⟩ := HttpConfig.ofJson_eq_some hread
  obtain rfl := Option.some.inj hfield
  have h1 : configCapacityValue item "accept_shards" DEFAULT_ACCEPT_SHARDS
      "http.accept_shards" = .ok http.acceptShards :=
    configCapacityValue_of_read hreadShards hshards
  have h2 : configCapacityValue (limitsOf item) "max_connections" DEFAULT_HTTP_MAX_CONNECTIONS
      "http.limits.max_connections" = .ok (if limitsAreArray (.dict item) then
        DEFAULT_HTTP_MAX_CONNECTIONS else http.limits.maxConnections) :=
    limit_of_read HttpLimitConfig.maxConnections _ _ (fun hv => by
      obtain ⟨field, hfield, hvalue, -⟩ := readHttpLimitConfig_eq_some hv
      exact ⟨field, hfield, hvalue⟩) hreadLimits hconnections
  have h3 : configCapacityValue (limitsOf item) "max_in_flight_requests"
      DEFAULT_HTTP_MAX_IN_FLIGHT_REQUESTS "http.limits.max_in_flight_requests" =
        .ok (if limitsAreArray (.dict item) then DEFAULT_HTTP_MAX_IN_FLIGHT_REQUESTS
          else http.limits.maxInFlightRequests) :=
    limit_of_read HttpLimitConfig.maxInFlightRequests _ _ (fun hv => by
      obtain ⟨field, hfield, -, hvalue⟩ := readHttpLimitConfig_eq_some hv
      exact ⟨field, hfield, hvalue⟩) hreadLimits hflight
  have hsum : (http.acceptShards : ℤ) +
      (if limitsAreArray (.dict item) then (DEFAULT_HTTP_MAX_CONNECTIONS : ℤ)
        else http.limits.maxConnections) +
      (if limitsAreArray (.dict item) then (DEFAULT_HTTP_MAX_IN_FLIGHT_REQUESTS : ℤ)
        else http.limits.maxInFlightRequests) + http.upstreamPoolMaxIdlePerHost =
      http.descriptors - hiddenInHttp (.dict item) http := by
    simp only [hiddenInHttp, isArray, HttpConfig.descriptors]
    split <;> push_cast <;> ring
  simp only [tallyHttp, h1, h2, h3, ← hsum]
  by_cases hpool : http.upstreamPoolMaxIdlePerHost = 0
  · rw [hpool] at hreadPool ⊢
    rw [configCapacityValue_zero (lookup_of_read_zero (by decide) hreadPool)]
    simp only [Tally.add, if_pos, poolComplaint]
    congr 1
    push_cast
    ring
  · have h4 : configCapacityValue item "upstream_pool_max_idle_per_host"
        DEFAULT_HTTP_UPSTREAM_POOL_MAX_IDLE_PER_HOST "http.upstream_pool_max_idle_per_host" =
        .ok http.upstreamPoolMaxIdlePerHost :=
      configCapacityValue_of_read hreadPool (Nat.pos_of_ne_zero hpool)
    rw [h4, if_neg hpool]
    simp only [Tally.add, List.append_nil]
    congr 1
    ring

theorem tallyTcp_of_read {v : PyValue Double} {tcp : TcpProxyConfig}
    (hread : TcpProxyConfig.ofJson v = some tcp) (hshards : 0 < tcp.acceptShards)
    (hconnections : 0 < tcp.limits.maxConnections) (idx : ℕ) (t : Tally) :
    tallyTcp idx v t = ⟨t.required + (tcp.descriptors - hiddenInTcp v tcp), t.errors⟩ := by
  obtain ⟨field, hfield, hreadShards, hreadLimits⟩ := TcpProxyConfig.ofJson_eq_some hread
  cases v with
  | dict item =>
    obtain rfl := Option.some.inj hfield
    have h1 : configCapacityValue item "accept_shards" DEFAULT_ACCEPT_SHARDS
        s!"tcp[{idx}].accept_shards" = .ok tcp.acceptShards :=
      configCapacityValue_of_read hreadShards hshards
    have h2 : configCapacityValue (limitsOf item) "max_connections"
        DEFAULT_TCP_MAX_CONNECTIONS s!"tcp[{idx}].limits.max_connections" =
          .ok (if limitsAreArray (.dict item) then DEFAULT_TCP_MAX_CONNECTIONS
            else tcp.limits.maxConnections) :=
      limit_of_read TcpLimitConfig.maxConnections _ _
        (fun hv => readTcpLimitConfig_eq_some hv) hreadLimits hconnections
    simp only [tallyTcp, h1, h2, Tally.add, hiddenInTcp, isArray, TcpProxyConfig.descriptors]
    congr 1
    split <;> push_cast <;> ring
  | list items => simp [tallyTcp, hiddenInTcp, isArray]
  | _ => cases hfield

theorem tallyTcps_of_read {items : List (PyValue Double)} {tcp : List TcpProxyConfig}
    (hread : items.mapM TcpProxyConfig.ofJson = some tcp)
    (hcap : ∀ service ∈ tcp, 0 < service.acceptShards ∧ 0 < service.limits.maxConnections)
    (idx : ℕ) (t : Tally) :
    tallyTcps idx items t =
      ⟨t.required + ((tcp.map TcpProxyConfig.descriptors).sum -
        (items.zipWith hiddenInTcp tcp).sum), t.errors⟩ := by
  induction items generalizing tcp idx t with
  | nil =>
    obtain rfl := Option.some.inj hread
    simp [tallyTcps]
  | cons v rest ih =>
    rw [List.mapM_cons] at hread
    obtain ⟨service, hservice, hread⟩ := Option.bind_eq_some_iff.mp hread
    obtain ⟨others, hothers, hread⟩ := Option.bind_eq_some_iff.mp hread
    obtain rfl := Option.some.inj hread
    obtain ⟨hshards, hconnections⟩ := hcap service List.mem_cons_self
    rw [tallyTcps, tallyTcp_of_read hservice hshards hconnections,
      ih hothers fun x hx => hcap x (List.mem_cons_of_mem _ hx)]
    simp only [List.map_cons, List.sum_cons, List.zipWith_cons_cons]
    congr 1
    push_cast
    ring

/-- The pool is off exactly if the object has a zero. -/
theorem pool_eq_zero_iff (hread : HttpConfig.ofJson (.dict item) = some http) :
    http.upstreamPoolMaxIdlePerHost = 0 ↔
      item.lookup (py "upstream_pool_max_idle_per_host") = some (.int 0) := by
  obtain ⟨field, hfield, -, hreadPool, -⟩ := HttpConfig.ofJson_eq_some hread
  obtain rfl := Option.some.inj hfield
  constructor
  · intro hzero
    rw [hzero] at hreadPool
    exact lookup_of_read_zero (by decide) hreadPool
  · intro hlookup
    simp only [hlookup, withDefault_some] at hreadPool
    obtain ⟨-, hzero⟩ := (readUnsigned_eq_some (F := Double)).mp hreadPool
    exact hzero.symm

theorem disablesPool_dict (hmember : data.lookup (py "http") = some (.dict item))
    (hread : HttpConfig.ofJson (.dict item) = some http) :
    disablesPool (.dict data) = true ↔ http.upstreamPoolMaxIdlePerHost = 0 := by
  rw [pool_eq_zero_iff hread, disablesPool, member_dict, hmember, Option.bind_some, member_dict]
  split <;> simp_all

theorem tallyHttpSection_of_read {http : Option HttpConfig}
    (hread : withDefault none (readOption HttpConfig.ofJson) (data.lookup (py "http")) = some http)
    (hcap : ∀ h ∈ http, 0 < h.acceptShards ∧ 0 < h.limits.maxConnections ∧
      0 < h.limits.maxInFlightRequests) (t : Tally) :
    tallyHttpSection (PyDict.getD data "http" .none) t =
      ⟨t.required + ((http.elim 0 HttpConfig.descriptors : ℕ) -
        http.elim 0 fun h => (member (.dict data) "http").elim 0 fun v => hiddenInHttp v h),
        t.errors ++ if disablesPool (.dict data) then [poolComplaint] else []⟩ := by
  unfold PyDict.getD
  cases hmember : data.lookup (py "http") with
  | none =>
    rw [hmember] at hread
    obtain rfl := Option.some.inj hread
    simp [tallyHttpSection, disablesPool, member_dict, hmember]
  | some v =>
    rw [hmember] at hread
    have hpassed : ∀ (hidden : ℤ), isArray v = true ∨ v = .none →
        hidden = (http.elim 0 HttpConfig.descriptors : ℕ) →
        tallyHttpSection v t = ⟨t.required + ((http.elim 0 HttpConfig.descriptors : ℕ) - hidden),
          t.errors ++ if disablesPool (.dict data) then [poolComplaint] else []⟩ := by
      rintro hidden hshape rfl
      have hpool : disablesPool (.dict data) = false := by
        simp only [disablesPool, member_dict, hmember, Option.bind_some]
        cases v <;> simp_all [isArray, member]
      cases v <;> simp_all [isArray, tallyHttpSection]
    cases v with
    | none =>
      obtain rfl := Option.some.inj hread
      exact hpassed _ (Or.inr rfl) rfl
    | dict item =>
      obtain ⟨h, hh, rfl⟩ := Option.map_eq_some_iff.mp hread
      obtain ⟨hshards, hconnections, hflight⟩ := hcap h rfl
      simp only [Option.getD_some, tallyHttpSection, member_dict, hmember, Option.elim_some,
        tallyHttp_of_read hh hshards hconnections hflight, disablesPool_dict hmember hh]
    | list items =>
      obtain ⟨h, hh, rfl⟩ := Option.map_eq_some_iff.mp hread
      refine hpassed _ (Or.inl rfl) ?_
      simp [member_dict, hmember, hiddenInHttp, isArray]
    | _ => cases hread

theorem tallyTcpSection_of_read {tcp : List TcpProxyConfig}
    (hread : withDefault [] (readList TcpProxyConfig.ofJson) (data.lookup (py "tcp")) = some tcp)
    (hcap : ∀ service ∈ tcp, 0 < service.acceptShards ∧ 0 < service.limits.maxConnections)
    (t : Tally) :
    tallyTcpSection (PyDict.getD data "tcp" .none) t =
      ⟨t.required + ((tcp.map TcpProxyConfig.descriptors).sum -
        ((services (.dict data)).zipWith hiddenInTcp tcp).sum), t.errors⟩ := by
  unfold PyDict.getD services
  rw [member_dict]
  cases hmember : data.lookup (py "tcp") with
  | none =>
    rw [hmember] at hread
    obtain rfl := Option.some.inj hread
    simp [tallyTcpSection]
  | some v =>
    rw [hmember] at hread
    cases v with
    | list items => exact tallyTcps_of_read hread hcap 0 t
    | _ => cases hread

/-- **What the tool makes of an accepted document.** -/
theorem requirement_of_accepted {env : CheckEnv} {cfg : AppConfig}
    (hread : AppConfig.ofJson (.dict data) = some cfg) (hvalid : cfg.validate env = .ok ())
    (path : String) :
    configNofileCapacityRequirement ⟨path, some (.ok (.dict data))⟩ =
      .ok (if disablesPool (.dict data) then (none, [poolComplaint])
        else (some (cfg.descriptors - hiddenDescriptors (.dict data) cfg), [])) := by
  obtain ⟨hhttp, htcp⟩ := AppConfig.capacities_of_valid hvalid
  obtain ⟨field, hfield, -, hreadHttp, hreadTcp⟩ := AppConfig.ofJson_eq_some hread
  obtain rfl := Option.some.inj hfield
  have htally : tallyDocument data =
      ⟨cfg.descriptors - hiddenDescriptors (.dict data) cfg,
        if disablesPool (.dict data) then [poolComplaint] else []⟩ := by
    rw [tallyDocument, tallyHttpSection_of_read hreadHttp hhttp,
      tallyTcpSection_of_read hreadTcp htcp, AppConfig.descriptors, hiddenDescriptors,
      List.nil_append]
    congr 1
    push_cast
    ring
  show Except.ok (if (tallyDocument data).errors.isEmpty then
    (some (tallyDocument data).required, []) else (none, (tallyDocument data).errors)) = _
  rw [htally]
  cases disablesPool (.dict data) <;> rfl

/-! ## The two budgets -/

/-- **The two descriptor budgets agree exactly if** the document is an object, its
HTTP section does not ask for an empty pool, and the tables that are written as
arrays have together what the tool assumes for them. -/
theorem nofile_budgets_agree_iff {env : CheckEnv} {doc : PyValue Double} {cfg : AppConfig}
    (hread : AppConfig.ofJson doc = some cfg) (hvalid : cfg.validate env = .ok ())
    (hfits : cfg.descriptors < 2 ^ 64) (path : String) (softLimit : ℕ) :
    configNofileCapacityRequirement ⟨path, some (.ok doc)⟩ =
        .ok (some ((estimateNofileCapacity cfg softLimit).required : ℤ), []) ↔
      isArray doc = false ∧ disablesPool doc = false ∧ hiddenDescriptors doc cfg = 0 := by
  have hrequired : (estimateNofileCapacity cfg softLimit).required = cfg.descriptors := by
    rw [required_eq hvalid, U64_MAX]
    omega
  obtain ⟨field, hfield, -⟩ := AppConfig.ofJson_eq_some hread
  rw [hrequired]
  rcases dict_or_list_of_read hfield with ⟨data, rfl⟩ | harray
  · rw [requirement_of_accepted hread hvalid]
    cases hpool : disablesPool (.dict data) with
    | false => simp [isArray]
    | true => simp
  · cases doc with
    | list items => simp [isArray, configNofileCapacityRequirement, asDict, bind, Except.bind]
    | _ => cases harray

/-! ## Two documents -/

/-- The crate's parsers; messages in plain text. -/
def plainEnv : CheckEnv where
  uris := Http.httpCrate
  methods := Http.tokenMethods
  debug := asciiText
  showF64 := toString

def jsonText (s : String) : PyValue Double := .str (py s)

/-- An object with these members. -/
def jsonObject (members : List (String × PyValue Double)) : PyValue Double :=
  .dict (members.map fun entry => (py entry.1, entry.2))

/-- One HTTP listener with this pool size and one TCP service. -/
def proxyDocument (pool : ℕ) : PyValue Double :=
  jsonObject
    [("http", jsonObject
      [("listen", jsonText "127.0.0.1:8080"), ("upstream", jsonText "http://127.0.0.1:9000"),
        ("upstream_pool_max_idle_per_host", .int pool),
        ("limits", jsonObject [("max_connections", .int 100)])]),
      ("tcp", .list [jsonObject
        [("name", jsonText "ssh"), ("listen", jsonText "127.0.0.1:2222"),
          ("upstream", jsonText "127.0.0.1:22"), ("accept_shards", .int 2)]])]

/-- The daemon accepts a document, and this holds of what it reads. -/
def acceptedWith (doc : PyValue Double) (p : AppConfig → Bool) : Bool :=
  (AppConfig.ofJson doc).any fun cfg => decide (cfg.validate plainEnv = .ok ()) && p cfg

theorem exists_of_acceptedWith {doc : PyValue Double} {p : AppConfig → Bool}
    (h : acceptedWith doc p = true) :
    ∃ cfg, AppConfig.ofJson doc = some cfg ∧ cfg.validate plainEnv = .ok () ∧ p cfg = true := by
  obtain ⟨cfg, hcfg, hp⟩ := (Option.any_eq_true _ _).mp h
  obtain ⟨hvalid, hp⟩ := (Bool.and_eq_true _ _).mp hp
  exact ⟨cfg, hcfg, of_decide_eq_true hvalid, hp⟩

theorem proxyDocument_facts :
    (acceptedWith (proxyDocument 8) (fun cfg => cfg.descriptors == 28559 &&
      hiddenDescriptors (proxyDocument 8) cfg == 0) = true ∧
      disablesPool (proxyDocument 8) = false) ∧
    acceptedWith (proxyDocument 0) (fun cfg => cfg.descriptors == 28551) = true ∧
      disablesPool (proxyDocument 0) = true := by
  decide +kernel

/-- With a pool of eight both budgets are 28559. -/
theorem budgets_agree_with_pool :
    ∃ cfg, AppConfig.ofJson (proxyDocument 8) = some cfg ∧ cfg.validate plainEnv = .ok () ∧
      cfg.descriptors = 28559 ∧
      configNofileCapacityRequirement ⟨"config.json", some (.ok (proxyDocument 8))⟩ =
        .ok (some ((estimateNofileCapacity cfg 65536).required : ℤ), []) := by
  obtain ⟨⟨haccepted, hpool⟩, -⟩ := proxyDocument_facts
  obtain ⟨cfg, hread, hvalid, hsums⟩ := exists_of_acceptedWith haccepted
  obtain ⟨hsum, hhidden⟩ := (Bool.and_eq_true _ _).mp hsums
  have hsum := eq_of_beq hsum
  refine ⟨cfg, hread, hvalid, hsum, ?_⟩
  exact (nofile_budgets_agree_iff hread hvalid (by omega) "config.json" 65536).mpr
    ⟨rfl, hpool, eq_of_beq hhidden⟩

/-- Without idle connections the daemon needs 28551 descriptors, and the tool
complains. -/
theorem empty_pool_is_refused :
    ∃ cfg, AppConfig.ofJson (proxyDocument 0) = some cfg ∧ cfg.validate plainEnv = .ok () ∧
      (estimateNofileCapacity cfg 65536).required = 28551 ∧
      configNofileCapacityRequirement ⟨"config.json", some (.ok (proxyDocument 0))⟩ =
        .ok (none, [poolComplaint]) := by
  obtain ⟨-, haccepted, hpool⟩ := proxyDocument_facts
  obtain ⟨cfg, hread, hvalid, hsum⟩ := exists_of_acceptedWith haccepted
  refine ⟨cfg, hread, hvalid, ?_, ?_⟩
  · rw [required_eq hvalid, eq_of_beq hsum]
    rfl
  · have hresult := requirement_of_accepted hread hvalid "config.json"
    exact hresult

end AlturaProt.Edge
