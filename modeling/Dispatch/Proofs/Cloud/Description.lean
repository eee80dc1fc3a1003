import Dispatch.Cloud.Description
import Dispatch.Proofs.Cloud.Attributes
import Dispatch.Proofs.Cloud.Parameters
import Dispatch.Proofs.Text.Numeral
/-!
How the description of a virtual machine is read. Texts of the configuration stand in it between quotes as they
are; it has the structure that is meant, and gives back these texts, exactly if none of them holds a quote or a
backslash.
-/
namespace Dispatch.Cloud
open Attributes

/-! ### The description in parts -/

/-- The characters of texts one after the other. -/
def spelt (texts : List String) : List Char := texts.flatMap String.toList

/-- What is fixed behind the image, up to the next text of the configuration. -/
def afterImage : List Char :=
  spelt ["\", DRIVER=\"qcow2\" ]", "\n", "OS=[ ARCH=\"i686\", ROOT=\"sda1\", BOOT=\"hd,fd,cdrom,network\" ]", "\n",
    "NIC=[ NETWORK=\""]

/-- What is fixed behind the network, up to a value that holds no quote, -/
def beforeSerial : List Char :=
  spelt ["\" ]", "\n", "GRAPHICS=[ TYPE=\"vnc\", LISTEN=\"0.0.0.0\", KEYMAP=\"fr\" ]", "\n", "RAW=[", "\n",
    "  TYPE=\"kvm\",", "\n", "  DATA=\""]

/-- that value, -/
def serial : List Char :=
  spelt ["<serial type='pty'><target port='0'/></serial>",
    "<console type='pty'><target type='serial' port='0'/></console>"]

/-- and what is fixed behind it. -/
def afterSerial : List Char :=
  spelt ["\" ]", "\n", "CONTEXT=[", "\n", "  HOSTNAME=\"vm-$VMID\",", "\n", "  NETWORK=\"YES\",", "\n",
    "  ETH0_IP=\"$NIC[IP, NETWORK=\\\""]

def afterNetwork : List Char := beforeSerial ++ (serial ++ afterSerial)

/-- What is fixed behind the network where it stands within the value of another attribute. -/
def afterAddress : List Char := spelt ["\\\"]\",", "\n", "  ETH0_NETMASK=\""]

/-- What is fixed between the values of two settings, with the name of the second one. -/
def beforeSetting (name : String) : List Char := spelt ["\",", "\n", "  ", name, "=\""]

def afterFiles : List Char := spelt ["\",", "\n", "  TARGET=\"hdb\" ]", "\n"]

/-- The description from the image on. -/
def imagePart (config : Config) : List Char :=
  config.image.toList ++ (afterImage ++ (config.network.toList ++ (afterNetwork ++ (config.network.toList ++
    (afterAddress ++ (config.networkMask.toList ++ (beforeSetting "ETH0_GATEWAY" ++ (config.networkGateway.toList ++
      (beforeSetting "ETH0_DNS" ++ (config.networkDns.toList ++ (beforeSetting "FILES" ++ (config.contextFiles.toList ++
        afterFiles))))))))))))

/-- The description up to the image. -/
def sizePart (cpus memory : List Char) : List Char :=
  spelt ["NAME=\"gridplane-vm\"", "\n", "CPU="] ++ (cpus ++ (spelt ["\n", "VCPU="] ++ (cpus ++
    (spelt ["\n", "MEMORY="] ++ (memory ++ spelt ["\n", "DISK=[ IMAGE=\""])))))

/-- The lines of a description in one text. -/
def description (options : Job.Options) (config : Config) : String :=
  String.join ((descriptionLines options config).map (· ++ "\n"))

theorem toList_description (options : Job.Options) (config : Config) :
    (description options config).toList =
      sizePart (toString (positiveOr defaultCpus options.cpus).toInt).toList
        (toString (positiveOr defaultMemory options.memory).toInt).toList ++ imagePart config := by
  have serialLine : "  DATA=\"<serial type='pty'><target port='0'/></serial>" =
      "  DATA=\"" ++ "<serial type='pty'><target port='0'/></serial>" := rfl
  have consoleLine : "<console type='pty'><target type='serial' port='0'/></console>\" ]" =
      "<console type='pty'><target type='serial' port='0'/></console>" ++ "\" ]" := rfl
  have gatewayLine : "  ETH0_GATEWAY=\"" = "  " ++ "ETH0_GATEWAY" ++ "=\"" := rfl
  have dnsLine : "  ETH0_DNS=\"" = "  " ++ "ETH0_DNS" ++ "=\"" := rfl
  have filesLine : "  FILES=\"" = "  " ++ "FILES" ++ "=\"" := rfl
  simp only [description, descriptionLines, List.map_cons, List.map_nil, String.toList_join, List.flatMap_cons,
    List.flatMap_nil, serialLine, consoleLine, gatewayLine, dnsLine, filesLine, String.toList_append,
    List.append_assoc, List.append_nil, sizePart, imagePart, afterImage, afterNetwork, beforeSerial, serial,
    afterSerial, afterAddress, beforeSetting, afterFiles, spelt]
  rfl

/-! ### Reading it -/

theorem endsWord_of_mem_toString {n : Int} {c : Char} (member : c ∈ (toString n).toList) : endsWord c = false := by
  have digits {number : Nat} (digit : c ∈ Nat.toDigits 10 number) : endsWord c = false := by
    have isDigit : c.isDigit = true := Nat.isDigit_of_mem_toDigits (by decide) (by decide) digit
    have apart : ∀ other : Char, other.isDigit = false → c ≠ other := by
      rintro other letter rfl
      rw [isDigit] at letter
      cases letter
    simp [endsWord, isSeparator, apart]
  cases n with
  | ofNat n =>
    have text : (toString (Int.ofNat n)).toList = Nat.toDigits 10 n := Text.toList_toString n
    exact digits (text ▸ member)
  | negSucc n =>
    rw [Text.toList_toString_negSucc] at member
    rcases List.mem_cons.mp member with rfl | digit
    · rfl
    · exact digits digit

/-- A number behind an equals sign ends with the line. -/
theorem run_number (n : Int) {line : List Char} {next : Scan} {pieces : List Piece} (rest : List Char)
    (read : (Scan.outside []).run line = (next, pieces)) :
    (Scan.outside []).run ((toString n).toList ++ ('\n' :: line ++ rest)) =
      ((next.run rest).1, .bare (toString n).toList :: (pieces ++ (next.run rest).2)) := by
  have word : (Scan.outside []).run (toString n).toList = (.outside (toString n).toList, []) :=
    Scan.run_outside [] fun _ member => endsWord_of_mem_toString member
  have filled : bareWord (toString n).toList = [.bare (toString n).toList] := if_neg (Text.toString_int_ne_empty n)
  have ended : (Scan.outside (toString n).toList).step '\n' = (.outside [], bareWord (toString n).toList) := rfl
  rw [Scan.run_append_of_eq word, List.cons_append, Scan.run_cons, ended, filled, Scan.run_append_of_eq read]
  rfl

def named (name : String) : Piece := .name name.toList

def valued (text : String) : Piece := .value text.toList

/-- The pieces before the image. -/
def sizePieces (cpus memory : List Char) : List Piece :=
  [named "NAME", valued "gridplane-vm", named "CPU", .bare cpus, named "VCPU", .bare cpus, named "MEMORY", .bare memory,
    named "DISK", .opening, named "IMAGE"]

theorem run_sizePart (cpus memory : Int) :
    (Scan.outside []).run (sizePart (toString cpus).toList (toString memory).toList) =
      (.inside [], sizePieces (toString cpus).toList (toString memory).toList) := by
  have start : (Scan.outside []).run (spelt ["NAME=\"gridplane-vm\"", "\n", "CPU="]) =
      (.outside [], [named "NAME", valued "gridplane-vm", named "CPU"]) := rfl
  have cpuLine : (Scan.outside []).run "VCPU=".toList = (.outside [], [named "VCPU"]) := rfl
  have memoryLine : (Scan.outside []).run "MEMORY=".toList = (.outside [], [named "MEMORY"]) := rfl
  have diskLine : (Scan.outside []).run "DISK=[ IMAGE=\"".toList =
      (.inside [], [named "DISK", .opening, named "IMAGE"]) := rfl
  have line (text : String) : spelt ["\n", text] = '\n' :: text.toList := by simp [spelt]
  rw [sizePart, Scan.run_append_of_eq start, line, line, line, run_number cpus _ cpuLine,
    run_number cpus _ memoryLine, ← List.append_nil ('\n' :: "DISK=[ IMAGE=\"".toList), run_number memory [] diskLine]
  rfl

/-- The pieces between the image and the network. -/
def imagePieces : List Piece :=
  [named "DRIVER", valued "qcow2", .closing, named "OS", .opening, named "ARCH", valued "i686", named "ROOT",
    valued "sda1", named "BOOT", valued "hd,fd,cdrom,network", .closing, named "NIC", .opening, named "NETWORK"]

def graphicsPieces : List Piece :=
  [.closing, named "GRAPHICS", .opening, named "TYPE", valued "vnc", named "LISTEN", valued "0.0.0.0", named "KEYMAP",
    valued "fr", .closing, named "RAW", .opening, named "TYPE", valued "kvm", named "DATA"]

def contextPieces : List Piece :=
  [.closing, named "CONTEXT", .opening, named "HOSTNAME", valued "vm-$VMID", named "NETWORK", valued "YES",
    named "ETH0_IP"]

def networkPieces : List Piece := graphicsPieces ++ .value serial :: contextPieces

/-- The address asks for the network by its name, between quotes that are escaped. -/
def addressPieces (network : List Char) : List Piece :=
  [.value ("$NIC[IP, NETWORK=\"".toList ++ network ++ "\"]".toList), named "ETH0_NETMASK"]

theorem isTrail_afterImage : IsTrail afterImage (.inside []) imagePieces := by decide +kernel

theorem isTrail_afterNetwork : IsTrail afterNetwork (.inside "$NIC[IP, NETWORK=\"".toList) networkPieces := by
  have graphics : IsTrail beforeSerial (.inside []) graphicsPieces := by decide +kernel
  have context : IsTrail afterSerial (.inside "$NIC[IP, NETWORK=\"".toList) contextPieces := by decide +kernel
  have plain : IsOpaque serial := by decide +kernel
  have past := context.run_opaque plain [] []
  simp only [List.append_nil, List.nil_append, Scan.run] at past
  exact graphics.append past

/-- Any word without a backslash may stand before an equals sign. -/
theorem isTrail_beforeSetting {name : String}
    (plain : (name.toList.all fun c => !endsWord c && c != '\\') = true) :
    IsTrail (beforeSetting name) (.inside []) [named name] := by
  have chars : ∀ c ∈ name.toList, endsWord c = false ∧ c ≠ '\\' := by simpa using plain
  have unquoted : IsOpaque name.toList := by
    refine ⟨fun member => ?_, fun member => (chars _ member).2 rfl⟩
    cases (chars _ member).1
  let blanks := [',', '\n', ' ', ' ']
  let between := blanks ++ (name.toList ++ ['='])
  have opaqueBetween : IsOpaque between := by
    refine ⟨?_, ?_⟩
    · simpa [between, blanks] using unquoted.1
    · simpa [between, blanks] using unquoted.2
  have others : ∀ c ∈ between, decide (c ≠ '"') = true := fun c member =>
    decide_eq_true fun quote => opaqueBetween.1 (quote ▸ member)
  have tail : (beforeSetting name).tail = between ++ ['"'] := by
    simp only [between, List.append_assoc]
    rfl
  have sameGap : gap (beforeSetting name) = between := by
    rw [gap, tail, List.takeWhile_append_of_pos others]
    simp
  have nothing : beyond (beforeSetting name) = [] := by
    rw [beyond, tail, List.dropWhile_append_of_pos others]
    rfl
  refine ⟨?_, sameGap ▸ opaqueBetween, ?_, ?_⟩
  · rw [sameGap, nothing, ← tail]
    rfl
  · rw [sameGap]
    simp [between]
  · have begins : (Scan.outside []).run blanks = (.outside [], []) := rfl
    have goesOn : (Scan.outside []).run name.toList = (.outside name.toList, []) :=
      Scan.run_outside [] fun c member => (chars c member).1
    have ends : (Scan.outside name.toList).run (['='] ++ ['"']) = (.inside [], [named name]) := rfl
    rw [tail, List.append_assoc, List.append_assoc, Scan.run_append_of_eq begins, Scan.run_append_of_eq goesOn, ends]
    rfl

theorem isTrail_gateway : IsTrail (beforeSetting "ETH0_GATEWAY") (.inside []) [named "ETH0_GATEWAY"] :=
  isTrail_beforeSetting rfl

theorem isTrail_dns : IsTrail (beforeSetting "ETH0_DNS") (.inside []) [named "ETH0_DNS"] :=
  isTrail_beforeSetting rfl

theorem isTrail_files : IsTrail (beforeSetting "FILES") (.inside []) [named "FILES"] :=
  isTrail_beforeSetting rfl

theorem isTrail_afterFiles : IsTrail afterFiles (.outside []) [named "TARGET", valued "hdb", .closing] :=
  ⟨rfl, by decide, rfl, rfl⟩

/-- The address ends with the quotes behind the network. -/
theorem run_address {network : List Char} (plain : IsOpaque network) :
    (Scan.inside "$NIC[IP, NETWORK=\"".toList).run (network ++ afterAddress) =
      (.inside [], addressPieces network) := by
  have closed (address : List Char) : (Scan.inside address).run afterAddress =
      (.inside [], [.value (address ++ ['"'] ++ [']']), named "ETH0_NETMASK"]) := rfl
  rw [Scan.run_append_of_eq (Scan.run_inside _ plain), closed, List.append_assoc]
  rfl

/-! ### Structure and values -/

/-- The names and brackets that a description is meant to have. -/
def meantOutline : List Piece :=
  [named "NAME", named "CPU", named "VCPU", named "MEMORY",
    named "DISK", .opening, named "IMAGE", named "DRIVER", .closing,
    named "OS", .opening, named "ARCH", named "ROOT", named "BOOT", .closing,
    named "NIC", .opening, named "NETWORK", .closing,
    named "GRAPHICS", .opening, named "TYPE", named "LISTEN", named "KEYMAP", .closing,
    named "RAW", .opening, named "TYPE", named "DATA", .closing,
    named "CONTEXT", .opening, named "HOSTNAME", named "NETWORK", named "ETH0_IP", named "ETH0_NETMASK",
    named "ETH0_GATEWAY", named "ETH0_DNS", named "FILES", named "TARGET", .closing]

/-- A description with the structure that is meant, in which the texts of the configuration are the values read. -/
def IsFaithful (config : Config) (text : String) : Prop :=
  ∃ pieces, read text.toList = some pieces ∧ outline pieces = meantOutline ∧
    valueOf "DISK" "IMAGE" pieces = some config.image.toList ∧
    valueOf "NIC" "NETWORK" pieces = some config.network.toList ∧
    valueOf "CONTEXT" "ETH0_NETMASK" pieces = some config.networkMask.toList ∧
    valueOf "CONTEXT" "ETH0_GATEWAY" pieces = some config.networkGateway.toList ∧
    valueOf "CONTEXT" "ETH0_DNS" pieces = some config.networkDns.toList ∧
    valueOf "CONTEXT" "FILES" pieces = some config.contextFiles.toList

/-- None of the texts that a description takes from the configuration holds a quote or a backslash. -/
structure Config.IsOpaque (config : Config) : Prop where
  image : Attributes.IsOpaque config.image.toList
  network : Attributes.IsOpaque config.network.toList
  networkMask : Attributes.IsOpaque config.networkMask.toList
  networkGateway : Attributes.IsOpaque config.networkGateway.toList
  networkDns : Attributes.IsOpaque config.networkDns.toList
  contextFiles : Attributes.IsOpaque config.contextFiles.toList

/-- What a description from the image on is meant to be read as. -/
def imagePartPieces (config : Config) : List Piece :=
  .value config.image.toList :: (imagePieces ++ .value config.network.toList :: (networkPieces ++
    (addressPieces config.network.toList ++ .value config.networkMask.toList :: named "ETH0_GATEWAY" ::
      .value config.networkGateway.toList :: named "ETH0_DNS" :: .value config.networkDns.toList ::
        named "FILES" :: .value config.contextFiles.toList :: [named "TARGET", valued "hdb", .closing])))

theorem run_imagePart {config : Config} (plain : config.IsOpaque) :
    (Scan.inside []).run (imagePart config) = (.outside [], imagePartPieces config) := by
  have address := Scan.run_append_of_eq (run_address plain.network)
  rw [imagePart, isTrail_afterImage.run_opaque plain.image, isTrail_afterNetwork.run_opaque plain.network,
    ← List.append_assoc config.network.toList afterAddress, address, isTrail_gateway.run_opaque plain.networkMask,
    isTrail_dns.run_opaque plain.networkGateway, isTrail_files.run_opaque plain.networkDns,
    ← List.append_nil afterFiles, isTrail_afterFiles.run_opaque plain.contextFiles]
  rfl

/-- Texts that are read as they were put in are opaque. The first that is not would be read as another one. -/
theorem isOpaque_of_isFaithful {options : Job.Options} {config : Config}
    (faithful : IsFaithful config (description options config)) :
    config.IsOpaque := by
  obtain ⟨pieces, read, -, image, network, mask, gateway, dns, files⟩ := faithful
  rw [toList_description] at read
  have fromImage := (Continues.of_read read).past (run_sizePart _ _)
  have plainImage := fromImage.isOpaque isTrail_afterImage (fun _ _ => rfl) image
  have fromNetwork := fromImage.past_value isTrail_afterImage plainImage
  have plainNetwork := fromNetwork.isOpaque isTrail_afterNetwork (fun _ _ => rfl) network
  have fromAddress := fromNetwork.past_value isTrail_afterNetwork plainNetwork
  rw [← List.append_assoc config.network.toList] at fromAddress
  have fromMask := fromAddress.past (run_address plainNetwork)
  have plainMask := fromMask.isOpaque isTrail_gateway (fun _ _ => rfl) mask
  have fromGateway := fromMask.past_value isTrail_gateway plainMask
  have plainGateway := fromGateway.isOpaque isTrail_dns (fun _ _ => rfl) gateway
  have fromDns := fromGateway.past_value isTrail_dns plainGateway
  have plainDns := fromDns.isOpaque isTrail_files (fun _ _ => rfl) dns
  have fromFiles := fromDns.past_value isTrail_files plainDns
  rw [← List.append_nil afterFiles] at fromFiles
  have plainFiles := fromFiles.isOpaque isTrail_afterFiles (fun _ _ => rfl) files
  exact ⟨plainImage, plainNetwork, plainMask, plainGateway, plainDns, plainFiles⟩

theorem isFaithful_of_isOpaque (options : Job.Options) {config : Config} (plain : config.IsOpaque) :
    IsFaithful config (description options config) := by
  refine ⟨sizePieces (toString (positiveOr defaultCpus options.cpus).toInt).toList
    (toString (positiveOr defaultMemory options.memory).toInt).toList ++ imagePartPieces config, ?_, ?_⟩
  · rw [toList_description, Attributes.read, Scan.run_append_of_eq (run_sizePart _ _), run_imagePart plain]
    exact congrArg some (List.append_nil _)
  · exact ⟨rfl, rfl, rfl, rfl, rfl, rfl, rfl⟩

/-! ### Parameters of jobs -/

/-- The settings that no parameter of a job changes. -/
structure SameNetwork (first second : Config) : Prop where
  network : second.network = first.network
  networkMask : second.networkMask = first.networkMask
  networkGateway : second.networkGateway = first.networkGateway
  networkDns : second.networkDns = first.networkDns
  contextFiles : second.contextFiles = first.contextFiles

theorem sameNetwork_of_withParams {config changed : Config} {params : String}
    (accepted : config.withParams params = .ok changed) : SameNetwork config changed := by
  have same := Config.sameBackground_of_withParams accepted
  exact ⟨same.network, same.networkMask, same.networkGateway, same.networkDns, same.contextFiles⟩

/-- A description is read with the structure and the texts that are meant exactly if no text that is put into it
holds a quote or a backslash. Of these texts the parameters of a job choose the image only. -/
theorem description_is_faithful_iff {base config : Config} {params : String} (options : Job.Options)
    (accepted : base.withParams params = .ok config) (imaged : config.image ≠ "") :
    SameNetwork base config ∧
      ∃ text, describe options config = .ok text ∧ (IsFaithful config text ↔ config.IsOpaque) := by
  refine ⟨sameNetwork_of_withParams accepted, description options config, ?_, ?_⟩
  · have filled : config.image.isEmpty = false := by simpa using imaged
    rw [describe, filled]
    rfl
  · exact ⟨isOpaque_of_isFaithful, isFaithful_of_isOpaque options⟩

def privateNet : Config where
  endpoint := "http://one:2633/RPC2"
  user := "oneadmin"
  password := "secret"
  contextFiles := "/srv/init.sh"
  network := "private"

theorem description_of_image : privateNet.withParams "vm-image=42" = .ok { privateNet with image := "42" } ∧
    ∃ text, describe {} { privateNet with image := "42" } = .ok text ∧
      IsFaithful { privateNet with image := "42" } text := by
  have accepted : privateNet.withParams "vm-image=42" = .ok { privateNet with image := "42" } := by rfl
  obtain ⟨_, text, described, faithful⟩ := description_is_faithful_iff {} accepted (by decide)
  have plain : ({ privateNet with image := "42" } : Config).IsOpaque :=
    ⟨by decide, by decide, by decide, by decide, by decide, by decide⟩
  exact ⟨accepted, text, described, faithful.mpr plain⟩

/-- The network with an image whose name holds quotes, and with what is left of that name behind them. -/
def quotedImage : Config := { privateNet with image := "42\",DEV_PREFIX=\"vd" }

def lastOfImage : Config := { privateNet with image := "vd" }

/-- The quotes end the value of the image and begin another one. -/
theorem run_quotedImage : (Scan.inside []).run (imagePart quotedImage) =
    (.outside [], .value "42".toList :: named "DEV_PREFIX" :: imagePartPieces lastOfImage) := by
  have parts : "42\",DEV_PREFIX=\"vd" = "42\",DEV_PREFIX=\"" ++ "vd" := rfl
  have split : imagePart quotedImage = "42\",DEV_PREFIX=\"".toList ++ imagePart lastOfImage := by
    rw [imagePart, quotedImage, parts, String.toList_append, List.append_assoc]
    rfl
  have quotes : (Scan.inside []).run "42\",DEV_PREFIX=\"".toList =
      (.inside [], [.value "42".toList, named "DEV_PREFIX"]) := rfl
  have plain : lastOfImage.IsOpaque := ⟨by decide, by decide, by decide, by decide, by decide, by decide⟩
  rw [split, Scan.run_append_of_eq quotes, run_imagePart plain]
  rfl

/-- A quote in the name of the image lets a job add an attribute to its disk. -/
theorem image_adds_attribute :
    privateNet.withParams "vm-image=42\",DEV_PREFIX=\"vd" = .ok quotedImage ∧
      describe {} quotedImage = .ok (description {} quotedImage) ∧
      (read (description {} quotedImage).toList).map outline =
        some (meantOutline.takeWhile (· ≠ named "DRIVER") ++ named "DEV_PREFIX" ::
          meantOutline.dropWhile (· ≠ named "DRIVER")) ∧
      ¬ IsFaithful quotedImage (description {} quotedImage) := by
  have outlined : (read (description {} quotedImage).toList).map outline =
      some (meantOutline.takeWhile (· ≠ named "DRIVER") ++ named "DEV_PREFIX" ::
        meantOutline.dropWhile (· ≠ named "DRIVER")) := by
    rw [toList_description, Attributes.read, Scan.run_append_of_eq (run_sizePart _ _), run_quotedImage]
    rfl
  refine ⟨rfl, rfl, outlined, ?_⟩
  rintro ⟨pieces, read, meant, -⟩
  rw [read, Option.map_some, meant] at outlined
  have longer := congrArg List.length (Option.some.inj outlined)
  exact absurd longer (by decide)

end Dispatch.Cloud
