import Dispatch.Backend.Fault
import Dispatch.Json.Record
/-!
A cloud endpoint with the defaults of its virtual machines, the environment it may be read from, and the
parameters that a job may change.
-/
namespace Dispatch.Cloud

/-- An empty text is a setting left open. -/
structure Config where
  endpoint : String
  user : String
  password : String
  contextFiles : String := ""
  network : String := ""
  networkMask : String := ""
  networkGateway : String := ""
  networkDns : String := ""
  flavor : String := ""
  image : String := ""
  vmUser : String := ""
  vmKey : String := ""
  nfsServer : String := ""
  nfsMountPoint : String := ""
  bootAttempts : UInt32 := 30
  pollMillis : UInt64 := 1000
  deriving DecidableEq, Repr, Inhabited

namespace Config

def backendName : String := "Cloud"

def members (config : Config) : List (String × Json) := [
  ("endpoint", .string config.endpoint),
  ("user", .string config.user),
  ("user_password", .string config.password),
  ("context_init", .string config.contextFiles),
  ("virtual_net", .string config.network),
  ("virtual_net_mask", .string config.networkMask),
  ("virtual_net_gateway", .string config.networkGateway),
  ("virtual_net_dns", .string config.networkDns),
  ("default_flavor", .string config.flavor),
  ("vm_image", .string config.image),
  ("vm_user", .string config.vmUser),
  ("vm_user_key", .string config.vmKey),
  ("nfs_server", .string config.nfsServer),
  ("nfs_mount_point", .string config.nfsMountPoint),
  ("boot_attempts", .nat config.bootAttempts.toNat),
  ("poll_interval_ms", .nat config.pollMillis.toNat)]

def toJson (config : Config) : Json := .object config.members

def fieldNames : List String :=
  ["endpoint", "user", "user_password", "context_init", "virtual_net", "virtual_net_mask",
    "virtual_net_gateway", "virtual_net_dns", "default_flavor", "vm_image", "vm_user", "vm_user_key",
    "nfs_server", "nfs_mount_point", "boot_attempts", "poll_interval_ms"]

def ofJson? (json : Json) : Option Config := do
  let row ← Json.Row.open? fieldNames json
  let endpoint ← row.required "endpoint" Json.asString?
  let user ← row.required "user" Json.asString?
  let password ← row.required "user_password" Json.asString?
  let contextFiles ← row.required "context_init" Json.asString?
  let network ← row.required "virtual_net" Json.asString?
  let networkMask ← row.defaulted "virtual_net_mask" "" Json.asString?
  let networkGateway ← row.defaulted "virtual_net_gateway" "" Json.asString?
  let networkDns ← row.defaulted "virtual_net_dns" "" Json.asString?
  let flavor ← row.defaulted "default_flavor" "" Json.asString?
  let image ← row.defaulted "vm_image" "" Json.asString?
  let vmUser ← row.defaulted "vm_user" "" Json.asString?
  let vmKey ← row.defaulted "vm_user_key" "" Json.asString?
  let nfsServer ← row.defaulted "nfs_server" "" Json.asString?
  let nfsMountPoint ← row.defaulted "nfs_mount_point" "" Json.asString?
  let bootAttempts ← row.defaulted "boot_attempts" 30 Json.asUInt32?
  let pollMillis ← row.defaulted "poll_interval_ms" 1000 Json.asUInt64?
  return {
    endpoint, user, password, contextFiles, network, networkMask, networkGateway, networkDns, flavor, image,
    vmUser, vmKey, nfsServer, nfsMountPoint, bootAttempts, pollMillis }

/-- What is missing is left open. -/
def ofSparseJson? (json : Json) : Option Config :=
  let names := ["endpoint", "user", "user_password", "context_init", "virtual_net"]
  ofJson? (json.withDefaults (names.map fun name => (name, .string "")))

/-- A variable that must be set. -/
def requiredVariable (lookup : String → Option String) (name : String) : Except Backend.Fault String :=
  match lookup name with
  | some value => .ok value
  | none => .error (.invalidConfig backendName s!"{name} is not set")

/-- Reads the environment; the first variable that is missing is reported. -/
def ofEnvironment (lookup : String → Option String) : Except Backend.Fault Config := do
  let optional (name : String) : String := (lookup name).getD ""
  let endpoint ← requiredVariable lookup "GRID_CLOUD_ENDPOINT"
  let user ← requiredVariable lookup "GRID_CLOUD_USER"
  let password ← requiredVariable lookup "GRID_CLOUD_USER_PASSWORD"
  let contextFiles ← requiredVariable lookup "GRID_CLOUD_CONTEXT_INIT"
  let network ← requiredVariable lookup "GRID_CLOUD_VIRTUAL_NET"
  return {
    endpoint, user, password, contextFiles, network
    networkMask := optional "GRID_CLOUD_VIRTUAL_NET_MASK"
    networkGateway := optional "GRID_CLOUD_VIRTUAL_NET_GATEWAY"
    networkDns := optional "GRID_CLOUD_VIRTUAL_NET_DNS"
    flavor := optional "GRID_CLOUD_DEFAULT_FLAVOR"
    image := optional "GRID_CLOUD_VM_IMAGE"
    vmUser := optional "GRID_CLOUD_VM_USER"
    vmKey := optional "GRID_CLOUD_VM_USER_KEY"
    nfsServer := optional "GRID_CLOUD_NFS_SERVER"
    nfsMountPoint := optional "GRID_CLOUD_NFS_MOUNT_POINT" }

/-- Changes the setting that a parameter names. -/
def set (config : Config) (key value : String) : Except Backend.Fault Config :=
  match key with
  | "endpoint" => .ok { config with endpoint := value }
  | "user" => .ok { config with user := value }
  | "user-password" => .ok { config with password := value }
  | "vm-image" => .ok { config with image := value }
  | "vm-user" => .ok { config with vmUser := value }
  | "vm-key" => .ok { config with vmKey := value }
  | "vm-flavor" => .ok { config with flavor := value }
  | "nfs-server" => .ok { config with nfsServer := value }
  | "nfs-mountpoint" => .ok { config with nfsMountPoint := value }
  | unknown => .error (.invalidParameter s!"Unknown cloud parameter '{unknown}'")

/-- A word without an equals sign is skipped. -/
def applyWord (config : Config) (word : List Char) : Except Backend.Fault Config :=
  match Text.cut? '=' word with
  | some (key, value) => config.set (String.ofList key) (String.ofList value)
  | none => .ok config

/-- Applies the words between the spaces of a parameter text, in order. -/
def withParams (config : Config) (params : String) : Except Backend.Fault Config :=
  (Text.fields ' ' params.toList).foldlM applyWord config

/-- The credentials that go along with every call. -/
def sessionText (config : Config) : Except Backend.Fault String :=
  if config.user.isEmpty && config.password.isEmpty then
    .error (.invalidParameter "Cloud user name and password are both empty")
  else .ok s!"{config.user}:{config.password}"

/-- Whether a shared directory is mounted before the job starts. -/
def mountsNfs (config : Config) : Bool := !config.nfsServer.isEmpty && !config.nfsMountPoint.isEmpty

end Config

end Dispatch.Cloud
