/-
  Hmn.Services.Discovery — reading services off the output of commands.

  Four parsers (`systemctl`, `docker ps`, `ss`, compose files) give records,
  records of one service are merged, and the configurations of two reverse
  proxies enrich the records behind their ports.  The model is
  `service_discovery.discover_services_from_text`.

  A document of `docker ps` may hold half of a surrogate pair; a record with
  such a text cannot be stored, and is not built here either.
-/
import Hmn.Framework.JsonRead
import Hmn.Framework.Lines
import Hmn.Framework.PosixPath
import Hmn.Framework.Regex
import Hmn.Services.Merge

namespace Hmn

open Framework Framework.Regex

/-! ## §1. Records of one service. -/

/-- `_normalize_name`. -/
def normalizeName (value : String) : String :=
  let normalized := Text.stripChar (Regex.sub (plus fun c => !(isAlnum c || c = '_' || c = '-'))
    (fun _ => ['-']) (Text.lower (Text.strip value))) '-'
  if normalized ≠ "" then normalized else "unknown"

/-- `_service_id`. -/
def serviceIdFor (nodeId name : String) : String := "svc_" ++ nodeId ++ "_" ++ normalizeName name

/-- `_merge_unique_strings`. -/
def mergeUniqueStrings (left right : List String) : List String :=
  (left ++ right).foldl (fun merged item =>
    let normalized := Text.strip item
    if normalized ≠ "" ∧ normalized ∉ merged then merged ++ [normalized] else merged) []

/-- `_add_or_merge`. -/
def addOrMerge (records : ServiceTable) (record : ServiceRecord) : Except PyError ServiceTable :=
  match records.find? record.serviceId with
  | none => .ok (records.upsert record)
  | some existing => do
    let metadata ← mergeMetadata existing.metadata record.metadata
    return records.upsert { existing with
      domains := mergeUniqueStrings existing.domains record.domains
      ports := mergeUniqueInts existing.ports record.ports
      deployPath := preferExisting existing.deployPath record.deployPath
      configPaths := mergeUniqueStrings existing.configPaths record.configPaths
      envPaths := mergeUniqueStrings existing.envPaths record.envPaths
      dataPaths := mergeUniqueStrings existing.dataPaths record.dataPaths
      healthCheckUrl := preferExisting existing.healthCheckUrl record.healthCheckUrl
      metadata := metadata }

/-! ## §2. `systemctl`. -/

/-- One turn of the loop of `_parse_systemd`. -/
def parseSystemdLine (nodeId line : String) : Option ServiceRecord :=
  let line := Text.strip line
  let line := if Text.startsWith line "●" then Text.strip (Text.removePrefix line "●") else line
  match Text.splitMax line 4 with
  | unit :: load :: active :: sub :: rest =>
    if Text.endsWith unit ".service" then
      let name := Text.removeSuffix unit ".service"
      some {
        serviceId := serviceIdFor nodeId name
        name := name
        nodeId := nodeId
        kind := "systemd"
        runtime := unit
        source := "discovery"
        metadata := [("systemd", .obj [("unit", .str unit), ("load", .str load),
          ("active", .str active), ("sub", .str sub), ("description", .str (rest.headD ""))])] }
    else none
  | _ => none

/-- `_parse_systemd`. -/
def parseSystemd (systemdOutput nodeId : String) : List ServiceRecord :=
  (Text.splitLines systemdOutput).filterMap (parseSystemdLine nodeId)

/-! ## §3. `docker ps`. -/

/-- `int` of so many digits that it raises. -/
def exceedsLimit (digits : Nat) : PyError :=
  .value ("Exceeds the limit (4300 digits) for integer string conversion: value has "
    ++ toString digits ++ " digits; use sys.set_int_max_str_digits() to increase the limit")

/-- `int` of a group that matched digits. -/
def intOfDigits (digits : List Char) : Except PyError Int :=
  match Text.parseInt (String.ofList digits) with
  | some n => .ok n
  | none => .error (exceedsLimit digits.length)

/-- `\d{1,3}`. -/
def octet : Regex := .seq (.one isDigit) (upTo isDigit 2)

def dockerPort : Regex :=
  all [
    opt (any (all [octet, lit ".", octet, lit ".", octet, lit ".", octet])
      [lit "::", all [opt (lit "["), lit ":::", opt (lit "]")], lit "0.0.0.0", lit "localhost",
        lit "127.0.0.1"]),
    lit ":", group 1 (plus isDigit), lit "->", plus isDigit, lit "/", any (lit "tcp") [lit "udp"]]

/-- `_extract_docker_ports`. -/
def extractDockerPorts (value : String) : Except PyError (List Int) := do
  let ports ← (dockerPort.findAll value).mapM fun found => intOfDigits (found.group 1)
  return mergeUniqueInts ports []

/-- A text with half of a surrogate pair. -/
def surrogatesNotAllowed : PyError := .value "'utf-8' codec can't encode: surrogates not allowed"

/-- `str(payload.get(key₁) or payload.get(key₂) or … or default)`. -/
def firstText (floatOf : List Char → PyFloat)
    (payload : List (JsonText.CodePoints × JsonText.Value)) (default : String) :
    List String → Except PyError String
  | [] => .ok default
  | key :: keys =>
    match (JsonText.get? payload key).filter (JsonText.Value.truthy floatOf) with
    | none => firstText floatOf payload default keys
    | some value =>
      match JsonText.toJson? floatOf value with
      | some v => .ok v.asStr
      | none => .error surrogatesNotAllowed

/-- One turn of the loop of `_parse_docker`. -/
def parseDockerLine (floatOf : List Char → PyFloat) (nodeId line : String) :
    Except PyError (Option ServiceRecord) :=
  let line := Text.strip line
  if line = "" then .ok none
  else
    match JsonText.read line with
    | .error .decode => .ok none
    | .error (.digits n) => .error (exceedsLimit n)
    | .ok (.obj payload) => do
      let name ← firstText floatOf payload "container" ["Names", "Name", "ID"]
      let name := Text.lstripChar name '/'
      let image ← firstText floatOf payload "" ["Image"]
      let portsText ← firstText floatOf payload "" ["Ports"]
      let ports ← extractDockerPorts portsText
      return some {
        serviceId := serviceIdFor nodeId name
        name := name
        nodeId := nodeId
        kind := "docker"
        runtime := image
        ports := ports
        source := "discovery"
        metadata := [("docker", .obj [("container_name", .str name), ("image", .str image),
          ("ports", .str portsText)])] }
    | .ok value => .error (.attribute ("'" ++ value.typeName ++ "' object has no attribute 'get'"))

/-- `_parse_docker`. -/
def parseDocker (floatOf : List Char → PyFloat) (dockerOutput nodeId : String) :
    Except PyError (List ServiceRecord) := do
  let records ← (Text.splitLines dockerOutput).mapM (parseDockerLine floatOf nodeId)
  return records.filterMap id

/-! ## §4. Compose files. -/

def url : Regex :=
  all [lit "http", opt (lit "s"), lit "://",
    plus fun c => !(Text.isSpace c || c = '\'' || c = '"' || c = ']' || c = ',' || c = ';')]

/-- `_extract_urls`. -/
def extractUrls (value : String) : List String :=
  (url.findAll value).map fun found => String.ofList found.text

/-- The line that starts a service: two blanks, its name and a colon. -/
def composeHeader : Regex :=
  all [lit "  ", plus fun c => isAlnum c || c = '_' || c = '.' || c = '-', lit ":",
    .star Text.isSpace, .dollar]

/-- The local variables of `_parse_compose`. -/
structure ComposeState where
  records : List ServiceRecord := []
  currentName : String := ""
  currentImage : String := ""
  envPaths : List String := []
  dataPaths : List String := []
  configPaths : List String := []
  healthCheckUrl : String := ""
  inEnvFile : Bool := false
  inVolumes : Bool := false
  inHealthcheck : Bool := false

namespace ComposeState

/-- `deploy_path`: where the first path lies. -/
def deployPath (s : ComposeState) : String :=
  match s.envPaths ++ s.dataPaths ++ s.configPaths with
  | [] => ""
  | candidate :: _ =>
    let deployPath := (PosixPath.ofString candidate).parent.text
    if Text.endsWith deployPath "/config" then (PosixPath.ofString deployPath).parent.text
    else deployPath

/-- `flush`. -/
def flush (nodeId : String) (s : ComposeState) : ComposeState :=
  if s.currentName = "" then s
  else
    { s with
      records := s.records ++ [{
        serviceId := serviceIdFor nodeId s.currentName
        name := s.currentName
        nodeId := nodeId
        kind := "compose"
        runtime := if s.currentImage ≠ "" then s.currentImage else "compose"
        deployPath := s.deployPath
        configPaths := s.configPaths
        envPaths := s.envPaths
        dataPaths := s.dataPaths
        healthCheckUrl := s.healthCheckUrl
        source := "discovery"
        metadata := ("compose", .obj [("service", .str s.currentName),
            ("image", .str s.currentImage)])
          :: if s.healthCheckUrl ≠ "" then [("health_check", .obj [("source", .str "compose")])]
            else [] }]
      currentName := ""
      currentImage := ""
      envPaths := []
      dataPaths := []
      configPaths := []
      healthCheckUrl := "" }

/-- The sections of a service that are read. -/
def enter (s : ComposeState) (inEnvFile inVolumes inHealthcheck : Bool) : ComposeState :=
  { s with inEnvFile := inEnvFile, inVolumes := inVolumes, inHealthcheck := inHealthcheck }

/-- The suffixes of a volume that is a file of configuration. -/
def configSuffixes : List String := [".conf", ".yaml", ".yml", ".json", ".toml", ".ini", ".env"]

/-- One turn of the loop of `_parse_compose`. -/
def readLine (nodeId : String) (s : ComposeState) (rawLine : String) : ComposeState :=
  let line := Text.rstrip rawLine
  let stripped := Text.strip line
  if stripped = "" then s
  else if composeHeader.matches_ line ∧ stripped ≠ "services:" then
    { (s.flush nodeId).enter false false false with
      currentName := Text.removeSuffix stripped ":" }
  else if s.currentName = "" then s
  else if Text.startsWith stripped "image:" then
    { s with currentImage := Text.strip (Text.after stripped ':') }
  else if stripped = "env_file:" then s.enter true false false
  else if stripped = "volumes:" then s.enter false true false
  else if stripped = "healthcheck:" then s.enter false false true
  else if Text.startsWith stripped "-" ∧ s.inEnvFile then
    { s with envPaths := s.envPaths ++ [Text.strip (Text.removePrefix stripped "-")] }
  else if Text.startsWith stripped "-" ∧ s.inVolumes then
    let hostPath := Text.strip (Text.before (Text.strip (Text.removePrefix stripped "-")) ':')
    if configSuffixes.any (Text.endsWith hostPath) then
      { s with configPaths := s.configPaths ++ [hostPath] }
    else { s with dataPaths := s.dataPaths ++ [hostPath] }
  else if s.inHealthcheck ∧ Text.contains stripped "http://" then
    match extractUrls stripped with
    | url :: _ => { s with healthCheckUrl := url }
    | [] => s
  else s

end ComposeState

/-- `_parse_compose`. -/
def parseCompose (composeOutput nodeId : String) : List ServiceRecord :=
  (((Text.splitLines composeOutput).foldl (ComposeState.readLine nodeId) {}).flush nodeId).records

/-! ## §5. `ss`. -/

/-- `_normalize_process_name`. -/
def normalizeProcessName (value : String) : String :=
  if value = "postgres" then "postgresql" else value

def processName : Regex := all [lit "\"", group 1 (plus (· ≠ '"')), lit "\""]

/-- One turn of the loop of `_parse_ports`. -/
def parsePortsLine (nodeId line : String) : Option ServiceRecord :=
  let line := Text.strip line
  if line = "" ∨ Text.startsWith line "State" ∨ ¬ Text.contains line "LISTEN" then none
  else
    match (Text.split line).find?
      (fun part => Text.contains part ":" ∧ ¬ Text.endsWith part ":*") with
    | none => none
    | some local_ =>
      let (address, portText) := Text.splitLast local_ ':'
      match Text.parseInt portText with
      | none => none
      | some port =>
        let process := match processName.search line with
          | some found => String.ofList (found.group 1)
          | none => "port-" ++ toString port
        let name := normalizeProcessName process
        some {
          serviceId := serviceIdFor nodeId name
          name := name
          nodeId := nodeId
          kind := "port"
          runtime := "ss"
          ports := [port]
          source := "discovery"
          metadata := [("listen_ports", .arr [.obj [("address", .str address),
            ("port", .int port), ("process", .str process)]])] }

/-- `_parse_ports`. -/
def parsePorts (portsOutput nodeId : String) : List ServiceRecord :=
  (Text.splitLines portsOutput).filterMap (parsePortsLine nodeId)

/-! ## §6. Reverse proxies. -/

/-- `_port_index(records).get(port)`: the first record with the port. -/
def portIndex (records : ServiceTable) (port : Int) : Option ServiceRecord :=
  records.rows.find? (fun record => port ∈ record.ports)

/-- A domain that leads to a port, as a proxy says. -/
structure Binding where
  domain : String
  targetPort : Int
  healthCheckUrl : String
  source : String
  scope : String

/-- `metadata`, with the health check of a proxy that has one. -/
def withHealthCheck (metadata : Dict) (b : Binding) : Except PyError Dict :=
  if b.healthCheckUrl ≠ "" then
    mergeMetadata metadata [("health_check", .obj [("source", .str b.source)])]
  else .ok metadata

/-- `bind`, for the record that had the port before the enrichment. -/
def bind_ (records : ServiceTable) (record : ServiceRecord) (b : Binding) :
    Except PyError ServiceTable := do
  let metadata ← mergeMetadata record.metadata [
    ("reverse_proxy", .obj [("source", .str b.source), ("domain", .str b.domain),
      ("target_port", .int b.targetPort)]),
    ("exposure", .obj [("scope", .str b.scope)])]
  let metadata ← withHealthCheck metadata b
  return records.upsert { record with
    domains := mergeUniqueStrings record.domains [b.domain]
    healthCheckUrl := preferExisting record.healthCheckUrl b.healthCheckUrl
    metadata := metadata }

def caddySite : Regex :=
  all [group 1 (plus fun c => isAlnum c || c = '_' || c = '.' || c = '-'), .star Text.isSpace,
    lit "\x7b", .starLazy (· ≠ '\x7d'), lit "reverse_proxy", plus Text.isSpace, lit "127.0.0.1:",
    group 2 (plus isDigit)]

/-- The bindings of a Caddyfile. -/
def caddyBindings (caddyOutput : String) : Except PyError (List Binding) :=
  (caddySite.findAll caddyOutput).mapM fun found => do
    let domain := String.ofList (found.group 1)
    let port ← intOfDigits (found.group 2)
    return {
      domain := domain
      targetPort := port
      healthCheckUrl := ""
      source := "caddy"
      scope := if Text.contains domain "status" then "status-page" else "public" }

def serverBlock : Regex :=
  all [lit "server", .star Text.isSpace, lit "\x7b", .starLazy fun _ => true, lit "\x7d"]

def serverName : Regex :=
  all [lit "server_name", plus Text.isSpace, group 1 (plus (· ≠ ';')), lit ";"]

def portNumber : Regex := all [lit ":", group 1 (plus isDigit)]

/-- The bindings of a server block of nginx. -/
def nginxBindings (block : String) : Except PyError (List Binding) :=
  let domainGroups := (serverName.findAll block).map fun found => String.ofList (found.group 1)
  match domainGroups, extractUrls block with
  | [], _ | _, [] => .ok []
  | _, targetUrl :: _ =>
    match portNumber.search targetUrl with
    | none => .ok []
    | some found => do
      let port ← intOfDigits (found.group 1)
      return (domainGroups.flatMap Text.split).map fun domain => {
        domain := domain
        targetPort := port
        healthCheckUrl := targetUrl
        source := "nginx"
        scope := "public" }

/-- The bindings of both proxies, in the order they are made. -/
def proxyBindings (caddyOutput nginxOutput : String) : Except PyError (List Binding) := do
  let caddy ← caddyBindings caddyOutput
  let nginx ← (serverBlock.findAll nginxOutput).mapM fun found =>
    nginxBindings (String.ofList found.text)
  return caddy ++ nginx.flatten

/-- `_apply_proxy_enrichment`: every binding finds its record among those
there were before the first of them. -/
def applyProxyEnrichment (records : ServiceTable) (bindings : List Binding) :
    Except PyError ServiceTable :=
  bindings.foldlM (fun enriched b =>
    match portIndex records b.targetPort with
    | none => .ok enriched
    | some target => bind_ enriched target b) records

/-! ## §7. Discovery. -/

/-- The output of the six commands. -/
structure CommandOutput where
  systemd : String
  docker : String
  ports : String
  compose : String
  caddy : String
  nginx : String

/-- `discover_services_from_text`. -/
def discoverServicesFromText (floatOf : List Char → PyFloat) (nodeId : String)
    (output : CommandOutput) : Except PyError (List ServiceRecord) := do
  let docker ← parseDocker floatOf output.docker nodeId
  let records ← (parseSystemd output.systemd nodeId ++ docker ++ parsePorts output.ports nodeId
    ++ parseCompose output.compose nodeId).foldlM addOrMerge .empty
  let bindings ← proxyBindings output.caddy output.nginx
  let records ← applyProxyEnrichment records bindings
  return records.rows.insertionSort (fun a b => a.serviceId ≤ b.serviceId)

end Hmn
