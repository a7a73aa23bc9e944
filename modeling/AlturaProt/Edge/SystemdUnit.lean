import AlturaProt.Edge.Capacity
import AlturaProt.Foundation.PyText

/-!
# Checking a service unit

`validate_systemd_unit` of `tools/validate_edge_templates.py`: the unit file is read
line by line into sections, and its values are checked one after the other, two of
them against the daemon's configuration. The complaints are collected; a unit is
accepted if there are none.
-/

namespace AlturaProt.Edge

open Foundation Foundation.PyText Python Config

/-- Decoded text. -/
abbrev Text : Type := List Char

/-- How the tool writes values into its complaints. -/
structure ToolTexts where
  quote : Text → String
  general : Double → String

/-! ## The sections of a unit -/

/-- The sections that were opened, and their entries in the order of the file. -/
structure UnitSections where
  names : List Text
  entries : List (Text × Text × Text)
deriving DecidableEq

abbrev UnitSection : Type := List (Text × Text)

def UnitSections.get (sections : UnitSections) (name : String) : Option UnitSection :=
  if name.toList ∈ sections.names then
    some ((sections.entries.filter fun entry => entry.1 == name.toList).map Prod.snd)
  else none

/-- One line; the state has the current section. -/
def readUnitLine (state : Option Text × UnitSections) (rawLine : Text) :
    Except String (Option Text × UnitSections) :=
  let (current, sections) := state
  let line := strip (partition '#' rawLine).1
  if line.isEmpty then .ok state
  else if line.head? == some '[' && line.getLast? == some ']' then
    let name := strip (line.drop 1).dropLast
    .ok (some name, { sections with names := sections.names ++ [name] })
  else match current with
    | some name =>
      if '=' ∈ line then
        let (key, value) := partition '=' line
        let entry := (name, strip key, strip value)
        .ok (current, { sections with entries := sections.entries ++ [entry] })
      else .error ("invalid systemd unit line: " ++ String.ofList rawLine)
    | none => .error ("invalid systemd unit line: " ++ String.ofList rawLine)

def parseSystemdUnit (content : Text) : Except String UnitSections := do
  let (_, sections) ← (splitLines content).foldlM readUnitLine (none, ⟨[], []⟩)
  return sections

def hasKey (unit : UnitSection) (key : String) : Bool := unit.any fun entry => entry.1 == key.toList

/-- The last value counts. -/
def firstSystemdValue (unit : UnitSection) (key fallback : String) : Text :=
  ((unit.filter fun entry => entry.1 == key.toList).getLast?.map Prod.snd).getD fallback.toList

/-! ## Sizes, limits and durations -/

def sizeScale : Text → Option ℕ
  | [] => some 1
  | [unit] =>
    if unit ∈ ['K', 'k'] then some 1024
    else if unit ∈ ['M', 'm'] then some (1024 ^ 2)
    else if unit ∈ ['G', 'g'] then some (1024 ^ 3)
    else if unit ∈ ['T', 't'] then some (1024 ^ 4)
    else none
  | _ => none

def parseSystemdSize (value : Text) : Except String (Option ℕ) :=
  let token := strip value
  let number := token.takeWhile isDecimal
  if lower token = "infinity".toList then .ok none
  else match sizeScale (token.dropWhile isDecimal) with
    | some scale =>
      if number.isEmpty then .error ("invalid systemd size: " ++ String.ofList value)
      else (intOfDigits number).map fun n => some (n * scale)
    | none => .error ("invalid systemd size: " ++ String.ofList value)

/-- `none` is no limit. -/
def parseSystemdNofileHardLimit (value : Text) : Except String (Option ℕ) := do
  let invalid := "invalid systemd LimitNOFILE: " ++ String.ofList value
  let token := strip value
  let token ←
    if ':' ∈ token then
      match (token.splitOn ':').map PyText.strip with
      | [soft, hard] => if soft.isEmpty || hard.isEmpty then .error invalid else .ok hard
      | _ => .error invalid
    else .ok token
  if lower token = "infinity".toList then return none
  if token.isEmpty || !token.all isDecimal then .error invalid
  else (intOfDigits token).map some

inductive TimeUnit where
  | ms | s | sec | min | m | h | d | w | y
deriving DecidableEq

def TimeUnit.all : List TimeUnit := [.ms, .s, .sec, .min, .m, .h, .d, .w, .y]

def TimeUnit.name : TimeUnit → String
  | .ms => "ms"
  | .s => "s"
  | .sec => "sec"
  | .min => "min"
  | .m => "m"
  | .h => "h"
  | .d => "d"
  | .w => "w"
  | .y => "y"

def TimeUnit.seconds : TimeUnit → ℚ
  | .ms => 1 / 1000
  | .s => 1
  | .sec => 1
  | .min => 60
  | .m => 60
  | .h => 60 * 60
  | .d => 24 * 60 * 60
  | .w => 7 * 24 * 60 * 60
  | .y => 36525 / 100 * 24 * 60 * 60

/-- A duration as it is written. -/
inductive Duration where
  | infinity
  | span (number : ℚ) (unit : TimeUnit)
deriving DecidableEq

/-- Digits, possibly with a fraction, and what follows them. -/
def readNumber (s : Text) : Option (ℚ × Text) :=
  let whole := s.takeWhile isDecimal
  if whole.isEmpty then none
  else match s.dropWhile isDecimal with
    | '.' :: rest =>
      let fraction := rest.takeWhile isDecimal
      if fraction.isEmpty then none
      else some (digitsValue whole + digitsValue fraction / 10 ^ fraction.length,
        rest.dropWhile isDecimal)
    | rest => some (digitsValue whole, rest)

def readTimeUnit (s : Text) : Option TimeUnit :=
  if s.isEmpty then some .s else TimeUnit.all.find? fun unit => unit.name.toList == s

def readDuration (token : Text) : Option Duration :=
  if lower token = "infinity".toList then some .infinity
  else do
    let (number, rest) ← readNumber token
    let unit ← readTimeUnit rest
    return .span number unit

/-- The tool's number: the digits and the scale are rounded, then their product. -/
def Duration.toDouble : Duration → Double
  | .infinity => .infinite false
  | .span number unit => (Double.ofRat number).mul (Double.ofRat unit.seconds)

def parseSystemdSeconds (value : Text) : Except String Double :=
  match readDuration (strip value) with
  | some duration => .ok duration.toDouble
  | none => .error ("invalid systemd duration: " ++ String.ofList value)

/-! ## The daemon's settings as the tool reads them -/

def MIN_SYSTEMD_LIMIT_NOFILE : ℕ := 65536
def MAX_SYSTEMD_TASKS : ℕ := 32768

/-- `float(z)`. -/
def floatOfInt (z : ℤ) : Except String Double :=
  match Double.ofRat z with
  | .finite value exact bounded => .ok (.finite value exact bounded)
  | _ => .error "int too large to convert to float"

/-- The `runtime` object of a document, if it has one. -/
def runtimeOf (data : PyDict Double) : Option (PyDict Double) :=
  match PyDict.getD data "runtime" .none with
  | .dict runtime => some runtime
  | _ => none

def graceOfRuntime (runtime : PyDict Double) : Except String Double :=
  match PyDict.getD runtime "shutdown_grace_ms" (.int 0) with
  | .int z => (floatOfInt z).map (Double.divNat · 1000)
  | .bool b => .ok ((Double.ofRat b.toNat).divNat 1000)
  | .float x => .ok (x.divNat 1000)
  | _ => .ok (Double.ofRat 0)

def configShutdownGraceSeconds (config : ConfigFile) : Except String Double :=
  match config.content with
  | none => .ok (Double.ofRat 0)
  | some (.error err) => .error err
  | some (.ok data) => do
      match runtimeOf (← asDict data) with
      | some runtime => graceOfRuntime runtime
      | none => .ok (Double.ofRat 0)

def minNofileOfRuntime (runtime : PyDict Double) : ℤ :=
  match PyDict.getD runtime "min_nofile" (.int 0) with
  | .int z => max MIN_SYSTEMD_LIMIT_NOFILE z
  | .bool b => max MIN_SYSTEMD_LIMIT_NOFILE b.toNat
  | _ => MIN_SYSTEMD_LIMIT_NOFILE

def configMinNofile (config : ConfigFile) : Except String ℤ :=
  match config.content with
  | none => .ok MIN_SYSTEMD_LIMIT_NOFILE
  | some (.error err) => .error err
  | some (.ok data) => do
      match runtimeOf (← asDict data) with
      | some runtime => .ok (minNofileOfRuntime runtime)
      | none => .ok MIN_SYSTEMD_LIMIT_NOFILE

/-! ## The checks -/

/-- In the order in which they are checked; the allowed values are sorted. -/
def REQUIRED_SYSTEMD_SERVICE_VALUES : List (String × List String) :=
  [("Type", ["simple"]),
    ("Restart", ["always", "on-failure"]),
    ("NoNewPrivileges", ["true", "yes"]),
    ("PrivateTmp", ["true", "yes"]),
    ("PrivateDevices", ["true", "yes"]),
    ("ProtectSystem", ["strict"]),
    ("ProtectHome", ["read-only", "tmpfs", "true", "yes"]),
    ("ProtectKernelTunables", ["true", "yes"]),
    ("ProtectKernelModules", ["true", "yes"]),
    ("ProtectControlGroups", ["strict", "true", "yes"]),
    ("RestrictNamespaces", ["true", "yes"]),
    ("RestrictRealtime", ["true", "yes"]),
    ("RestrictSUIDSGID", ["true", "yes"]),
    ("LockPersonality", ["true", "yes"]),
    ("MemoryDenyWriteExecute", ["true", "yes"]),
    ("SystemCallArchitectures", ["native"])]

/-- Sorted, as missing ones are listed. -/
def REQUIRED_SYSTEMD_DIRECTIVES : List String :=
  ["AmbientCapabilities", "CapabilityBoundingSet", "ConfigurationDirectory", "ExecStart", "Group",
    "LimitNOFILE", "LogsDirectory", "MemoryHigh", "MemoryMax", "RestrictAddressFamilies",
    "StateDirectory", "TasksMax", "TimeoutStopSec", "User"]

def directiveComplaints (service : UnitSection) : List String :=
  let missing := REQUIRED_SYSTEMD_DIRECTIVES.filter fun key => !hasKey service key
  if missing.isEmpty then []
  else ["missing systemd service directives: " ++ ", ".intercalate missing]

/-- A list of plain words as Python prints it. -/
def reprWords (ws : List String) : String :=
  "[" ++ ", ".intercalate (ws.map fun w => "'" ++ w ++ "'") ++ "]"

def valueComplaints (service : UnitSection) : List String :=
  REQUIRED_SYSTEMD_SERVICE_VALUES.flatMap fun (key, allowed) =>
    let value := firstSystemdValue service key ""
    if value.isEmpty then [s!"missing systemd service directive: {key}"]
    else if lower value ∉ allowed.map String.toList then
      [s!"{key}={String.ofList value} is weaker than required values: {reprWords allowed}"]
    else []

def isRoot (account : Text) : Bool :=
  account.isEmpty || account == "root".toList || account == "0".toList

def accountComplaints (service : UnitSection) : List String :=
  (if isRoot (firstSystemdValue service "User" "") then
    ["systemd unit must run AlturaProt as a non-root User"] else []) ++
  (if isRoot (firstSystemdValue service "Group" "") then
    ["systemd unit must run AlturaProt as a non-root Group"] else [])

def nofileComplaints (service : UnitSection) (config : ConfigFile) : List String :=
  let rawNofile := firstSystemdValue service "LimitNOFILE" "0"
  let failed (err : String) := ["failed to read systemd LimitNOFILE: " ++ err]
  match parseSystemdNofileHardLimit rawNofile with
  | .error err => failed err
  | .ok nofile =>
    match configNofileCapacityRequirement config with
    | .error err => failed err
    | .ok (capacityRequired, capacityErrors) =>
      capacityErrors ++
        match configMinNofile config with
        | .error err => failed err
        | .ok minNofile =>
          let requiredNofile := capacityRequired.elim minNofile (max minNofile)
          match nofile with
          | some n =>
            if n < requiredNofile then
              [s!"LimitNOFILE={String.ofList rawNofile} hard limit {n} is lower than " ++
                s!"required descriptor budget {requiredNofile}"]
            else []
          | none => []

def stopComplaints (texts : ToolTexts) (service : UnitSection) (config : ConfigFile) :
    List String :=
  let failed (err : String) := ["failed to read systemd TimeoutStopSec: " ++ err]
  match parseSystemdSeconds (firstSystemdValue service "TimeoutStopSec" "0") with
  | .error err => failed err
  | .ok stopSeconds =>
    match configShutdownGraceSeconds config with
    | .error err => failed err
    | .ok shutdownGrace =>
      if stopSeconds.le shutdownGrace then
        [s!"TimeoutStopSec={texts.general stopSeconds}s must exceed " ++
          s!"runtime.shutdown_grace_ms {texts.general shutdownGrace}s"]
      else []

def taskComplaints (texts : ToolTexts) (service : UnitSection) : List String :=
  match PyText.int texts.quote (firstSystemdValue service "TasksMax" "0") with
  | .error err => ["failed to read systemd TasksMax: " ++ err]
  | .ok tasks =>
    if tasks ≤ 0 ∨ MAX_SYSTEMD_TASKS < tasks then
      [s!"TasksMax={tasks} must be positive and no higher than {MAX_SYSTEMD_TASKS}"]
    else []

def memoryComplaints (service : UnitSection) : List String :=
  let failed (err : String) := ["failed to read systemd memory limits: " ++ err]
  match parseSystemdSize (firstSystemdValue service "MemoryHigh" "") with
  | .error err => failed err
  | .ok memoryHigh =>
    match parseSystemdSize (firstSystemdValue service "MemoryMax" "") with
    | .error err => failed err
    | .ok memoryMax =>
      match memoryHigh, memoryMax with
      | some high, some max =>
        if max < high then ["MemoryHigh must be less than or equal to MemoryMax"] else []
      | _, _ => ["MemoryHigh and MemoryMax must be finite systemd memory limits"]

def familyComplaints (service : UnitSection) : List String :=
  let families := words (firstSystemdValue service "RestrictAddressFamilies" "")
  (if ["AF_UNIX", "AF_INET", "AF_INET6"].all fun family => family.toList ∈ families then []
    else ["RestrictAddressFamilies must allow AF_UNIX AF_INET AF_INET6 for " ++
      "logging, local sockets, and TCP proxying"]) ++
  (if ["AF_PACKET", "AF_NETLINK"].any fun family => family.toList ∈ families then
    ["RestrictAddressFamilies should not allow raw packet/netlink families"] else [])

def capabilityComplaints (service : UnitSection) : List String :=
  ["AmbientCapabilities", "CapabilityBoundingSet"].flatMap fun key =>
    let caps := words (firstSystemdValue service key "")
    if !caps.isEmpty && caps.all (· == "CAP_NET_BIND_SERVICE".toList) then []
    else [s!"{key} must be exactly CAP_NET_BIND_SERVICE so the proxy can bind " ++
      "privileged ports without broader root capabilities"]

def directoryComplaints (service : UnitSection) : List String :=
  ["StateDirectory", "LogsDirectory", "ConfigurationDirectory"].flatMap fun key =>
    if firstSystemdValue service key "" = "altura-prot".toList then []
    else [s!"{key} must be set to altura-prot"]

def restartComplaints (sections : UnitSections) : List String :=
  let unit := (sections.get "Unit").getD []
  ["StartLimitIntervalSec", "StartLimitBurst"].flatMap fun key =>
    if hasKey unit key then [] else [s!"missing [Unit] restart storm guard: {key}"]

def installComplaints (sections : UnitSections) : List String :=
  let install := (sections.get "Install").getD []
  if "multi-user.target".toList ∈ words (firstSystemdValue install "WantedBy" "") then []
  else ["systemd unit should install into multi-user.target"]

def serviceComplaints (texts : ToolTexts) (service : UnitSection) (config : ConfigFile) :
    List String :=
  directiveComplaints service ++ valueComplaints service ++ accountComplaints service ++
    nofileComplaints service config ++ stopComplaints texts service config ++
    taskComplaints texts service ++ memoryComplaints service ++ familyComplaints service ++
    capabilityComplaints service ++ directoryComplaints service

def validateSystemdUnit (texts : ToolTexts) (unit : ToolFile Text) (config : ConfigFile) :
    List String :=
  match unit.content with
  | none => [s!"missing systemd unit template: {unit.path}"]
  | some (.error err) => [err]
  | some (.ok content) =>
    match parseSystemdUnit content with
    | .error err => [err]
    | .ok sections =>
      match sections.get "Service" with
      | none => [s!"missing [Service] section in {unit.path}"]
      | some service =>
        serviceComplaints texts service config ++ restartComplaints sections ++
          installComplaints sections

end AlturaProt.Edge
