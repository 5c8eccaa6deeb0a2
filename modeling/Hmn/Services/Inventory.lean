/-
  Hmn.Services.Inventory — services of a node, from its inventory.

  Every container is a service; the domains of the reverse proxy are bound to
  the services behind their upstream ports; units, listeners nobody claimed
  and domains nobody has become services of their own.  The model is
  `discovery.discover_services`.
-/
import Hmn.Services.Discovery
import Hmn.Services.Registry

namespace Hmn

open Framework Framework.Regex

/-! ## §1. The inventory. -/

/-- What the discovery reads of a listener. -/
structure PortRecord where
  listen : String
  port : Int
  process : Option String := none

/-- What the discovery reads of a container. -/
structure ContainerRecord where
  name : String
  image : String
  ports : List String
  deriving DecidableEq

/-- What the discovery reads of a unit. -/
structure SystemdServiceRecord where
  name : String

/-- What the discovery reads of `NodeInventory`. -/
structure NodeInventory where
  node : String
  ports : List PortRecord := []
  containers : List ContainerRecord := []
  systemdServices : List SystemdServiceRecord := []
  reverseProxyDomains : List String := []
  /-- The upstream port of a domain. -/
  reverseProxyMappings : Table (Prod.fst : String × Int → String) := .empty

/-! ## §2. Containers. -/

def containerPort : Regex :=
  all [
    opt (all [
      any (all [plus isDigit, lit ".", plus isDigit, lit ".", plus isDigit, lit ".", plus isDigit])
        [lit "127.0.0.1", lit "0.0.0.0", lit "::"],
      lit ":"]),
    group 1 (plus isDigit), lit "->", plus isDigit, lit "/", any (lit "tcp") [lit "udp"]]

/-- `_container_host_ports`. -/
def containerHostPorts (container : ContainerRecord) : Except PyError (List Int) := do
  let ports ← container.ports.mapM fun mapping =>
    (containerPort.findAll mapping).mapM fun found => intOfDigits (found.group 1)
  return mergeUniqueInts ports.flatten []

def dockerServiceId (node name : String) : String := node ++ ":docker:" ++ name

def systemdServiceId (node name : String) : String := node ++ ":systemd:" ++ name

def unknownPortId (node : String) (port : Int) : String := node ++ ":unknown:port:" ++ toString port

def unknownDomainId (node domain : String) : String := node ++ ":unknown:domain:" ++ domain

/-- The warning about a container without published ports. -/
def noPublishedPorts (name : String) : String :=
  "docker container " ++ name ++ " has no published ports"

/-- The service of a container that publishes `hostPorts`, with its warning. -/
def containerService (node : String) (container : ContainerRecord) (hostPorts : List Int) :
    RegistryService where
  serviceId := dockerServiceId node container.name
  name := container.name
  node := node
  kind := "docker"
  ports := hostPorts
  runtime := some container.image
  source := "container:" ++ container.name
  warnings := if hostPorts = [] then [noPublishedPorts container.name] else []

/-- `_service_from_container`, with the warning that the loop adds. -/
def serviceFromContainer (node : String) (container : ContainerRecord) :
    Except PyError RegistryService := do
  let hostPorts ← containerHostPorts container
  return containerService node container hostPorts

/-! ## §3. Reverse-proxy domains. -/

/-- `_find_service_by_port`. -/
def findServiceByPort (registry : ServiceRegistry) (port : Int) : Option RegistryService :=
  registry.listServices.find? (fun service => port ∈ service.ports)

/-- `_unknown_service_for_upstream_port`. -/
def unknownServiceForUpstreamPort (inventory : NodeInventory) (upstreamPort : Int) :
    RegistryService where
  serviceId := unknownPortId inventory.node upstreamPort
  name := "port-" ++ toString upstreamPort
  node := inventory.node
  kind := "unknown"
  ports := [upstreamPort]
  runtime := (inventory.ports.find? (fun port => port.port = upstreamPort)).bind PortRecord.process
  source := "reverse-proxy"

/-- The record of a service that a domain is bound to. -/
def boundService (target : RegistryService) (domain : String) (upstreamPort : Int) :
    RegistryService where
  serviceId := target.serviceId
  name := target.name
  node := target.node
  kind := target.kind
  domains := [domain]
  ports := [upstreamPort]
  runtime := target.runtime
  source := target.source

/-- One turn of the loop of `_bind_reverse_proxy_domains`. -/
def bindMapping (inventory : NodeInventory) (registry : ServiceRegistry) (mapping : String × Int) :
    ServiceRegistry :=
  let target := (findServiceByPort registry mapping.2).getD
    (unknownServiceForUpstreamPort inventory mapping.2)
  registry.upsert (boundService target mapping.1 mapping.2)

/-- `_bind_reverse_proxy_domains`. -/
def bindReverseProxyDomains (inventory : NodeInventory) (registry : ServiceRegistry) :
    ServiceRegistry :=
  inventory.reverseProxyMappings.rows.foldl (bindMapping inventory) registry

/-! ## §4. What no container accounts for. -/

/-- `SYSTEMD_EXCLUDE_PREFIXES`. -/
def systemdExcludePrefixes : List String :=
  ["systemd-", "dbus.", "ssh.", "cron.", "rsyslog.", "getty@", "networking."]

/-- The services of the units that are not left out. -/
def systemdServices (inventory : NodeInventory) : List RegistryService :=
  (inventory.systemdServices.filter
    (fun unit => ¬ systemdExcludePrefixes.any (Text.startsWith unit.name))).map fun unit => {
      serviceId := systemdServiceId inventory.node unit.name
      name := Text.removeSuffix unit.name ".service"
      node := inventory.node
      kind := "systemd"
      runtime := some unit.name
      source := "systemd:" ++ unit.name }

/-- `_is_public_listener`. -/
def isPublicListener (port : PortRecord) : Bool := port.listen ∈ ["0.0.0.0", "::", "*"]

/-- The services of the public listeners on ports that are not claimed. -/
def listenerServices (inventory : NodeInventory) (claimedPorts : List Int) : List RegistryService :=
  (inventory.ports.filter (fun port => isPublicListener port ∧ port.port ∉ claimedPorts)).map
    fun port => {
      serviceId := unknownPortId inventory.node port.port
      name := "port-" ++ toString port.port
      node := inventory.node
      kind := "unknown"
      ports := [port.port]
      runtime := port.process
      source := "listener"
      warnings := ["bare public port " ++ toString port.port ++ " could not be attributed"] }

/-- The services of the domains that no service has. -/
def domainServices (inventory : NodeInventory) (knownDomains : List String) :
    List RegistryService :=
  (inventory.reverseProxyDomains.filter (· ∉ knownDomains)).map fun domain => {
    serviceId := unknownDomainId inventory.node domain
    name := domain
    node := inventory.node
    kind := "unknown"
    domains := [domain]
    runtime := none
    source := "reverse-proxy"
    warnings := ["domain " ++ domain ++ " could not be attributed to a service"] }

/-- `discover_services`. -/
def discoverServices (inventory : NodeInventory) : Except PyError ServiceRegistry := do
  let services ← inventory.containers.mapM (serviceFromContainer inventory.node)
  let registry := bindReverseProxyDomains inventory (.ofList services)
  let claimedPorts := (services ++ registry.listServices).flatMap RegistryService.ports
  let registry : ServiceRegistry := (systemdServices inventory
    ++ listenerServices inventory claimedPorts).foldl Table.upsert registry
  let knownDomains := registry.listServices.flatMap RegistryService.domains
  return (domainServices inventory knownDomains).foldl Table.upsert registry

end Hmn
