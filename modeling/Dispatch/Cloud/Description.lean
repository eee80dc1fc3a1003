import Dispatch.Cloud.Config
import Dispatch.Job.Record
/-!
The description of a virtual machine that is asked for.
-/
namespace Dispatch.Cloud

def defaultCpus : Int32 := 1

def defaultMemory : Int32 := 512

def positiveOr (fallback value : Int32) : Int32 := if 0 < value then value else fallback

/-- The lines of the description, each with a line feed. -/
def descriptionLines (options : Job.Options) (config : Config) : List String :=
  let cpus := positiveOr defaultCpus options.cpus
  let memory := positiveOr defaultMemory options.memory
  [ "NAME=\"gridplane-vm\"",
    s!"CPU={cpus}",
    s!"VCPU={cpus}",
    s!"MEMORY={memory}",
    s!"DISK=[ IMAGE=\"{config.image}\", DRIVER=\"qcow2\" ]",
    "OS=[ ARCH=\"i686\", ROOT=\"sda1\", BOOT=\"hd,fd,cdrom,network\" ]",
    s!"NIC=[ NETWORK=\"{config.network}\" ]",
    "GRAPHICS=[ TYPE=\"vnc\", LISTEN=\"0.0.0.0\", KEYMAP=\"fr\" ]",
    "RAW=[",
    "  TYPE=\"kvm\",",
    "  DATA=\"<serial type='pty'><target port='0'/></serial>" ++
      "<console type='pty'><target type='serial' port='0'/></console>\" ]",
    "CONTEXT=[",
    "  HOSTNAME=\"vm-$VMID\",",
    "  NETWORK=\"YES\",",
    s!"  ETH0_IP=\"$NIC[IP, NETWORK=\\\"{config.network}\\\"]\",",
    s!"  ETH0_NETMASK=\"{config.networkMask}\",",
    s!"  ETH0_GATEWAY=\"{config.networkGateway}\",",
    s!"  ETH0_DNS=\"{config.networkDns}\",",
    s!"  FILES=\"{config.contextFiles}\",",
    "  TARGET=\"hdb\" ]" ]

/-- The image must be known, from the configuration or from the parameters of the job. -/
def describe (options : Job.Options) (config : Config) : Except Backend.Fault String :=
  if config.image.isEmpty then
    .error (.invalidConfig Config.backendName "No virtual machine image configured")
  else .ok (String.join ((descriptionLines options config).map (· ++ "\n")))

end Dispatch.Cloud
