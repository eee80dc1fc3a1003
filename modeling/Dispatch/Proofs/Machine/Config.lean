import Dispatch.Machine.Config
import Dispatch.Proofs.Json.Rows
/-!
Machines are read back from their records, the members with defaults left out or not; and of machines with the same
identifier a registry gives the last one.
-/
namespace Dispatch

open Json (Omission Fits bind_of_eq_some)

/-! ### Which members have defaults -/

/-- The members with a default, of either kind of platform. No member that one kind must have has a default in the
other. -/
def Machine.Platform.isOptional : Omission := List.contains [
  [.member "port"], [.member "version"], [.member "identity"],
  [.member "virtual_net_mask"], [.member "virtual_net_gateway"], [.member "virtual_net_dns"],
  [.member "default_flavor"], [.member "vm_image"], [.member "vm_user"], [.member "vm_user_key"],
  [.member "nfs_server"], [.member "nfs_mount_point"], [.member "boot_attempts"], [.member "poll_interval_ms"]]

def Machine.isOptional : Omission
  | .member "backend" :: path => Platform.isOptional path
  | path => path = [.member "site"]

/-! ### Front-ends of clusters -/

theorem Batch.Scheduler.ofJson?_toJson (scheduler : Scheduler) : ofJson? scheduler.toJson = some scheduler :=
  Json.asOneOf?_string (by decide) (by cases scheduler <;> decide)

namespace Batch.Config

/-- What a front-end must have, and defaults for everything else. -/
def bare (config : Config) : Config :=
  { host := config.host, scheduler := config.scheduler, defaultUser := config.defaultUser }

/-- The configuration with the defaults of the members that are left out. -/
def resetting (omission : Omission) (config : Config) : Config where
  host := config.host
  port := omission.choose "port" config.bare.port config.port
  scheduler := config.scheduler
  version := omission.choose "version" config.bare.version config.version
  defaultUser := config.defaultUser
  identity := omission.choose "identity" config.bare.identity config.identity

theorem fits_members (config : Config) : ∀ member ∈ config.members, Fits 0 member.2 := by
  have port : config.port.toNat < UInt64.size := Nat.lt_trans config.port.toNat_lt_size (by decide)
  simp [members, Fits.string, Json.fits_nat port, Json.fits_ofOption_string, Scheduler.toJson]

theorem distinct_members (config : Config) : (Machine.Platform.tag :: config.members.map Prod.fst).Nodup := by
  change ["type", "host", "port", "scheduler", "version", "default_user", "identity"].Nodup
  decide

theorem readsAs (config : Config) {omission : Omission} (within : omission.Within Machine.Platform.isOptional) :
    (config.toJson.without omission).ReadsAs ofJson? (config.resetting omission) := by
  intro other reorders
  obtain ⟨row, opened, mirrors⟩ := Json.exists_row_of_reorders
    ["host", "port", "scheduler", "version", "default_user", "identity"] config.distinct_members.of_cons reorders
  have host : row.required "host" Json.asString? = some config.host :=
    mirrors.required_scalar rfl (within.keeps rfl) rfl rfl
  have port : row.defaulted "port" Shell.defaultPort Json.asUInt16? =
      some (omission.choose "port" config.bare.port config.port) :=
    mirrors.defaulted_scalar rfl _ rfl (Json.asUInt16?_toNat config.port)
  have scheduler : row.required "scheduler" Scheduler.ofJson? = some config.scheduler :=
    mirrors.required_scalar rfl (within.keeps rfl) rfl config.scheduler.ofJson?_toJson
  have version : row.defaulted "version" "" Json.asString? =
      some (omission.choose "version" config.bare.version config.version) :=
    mirrors.defaulted_scalar rfl _ rfl rfl
  have user : row.required "default_user" Json.asString? = some config.defaultUser :=
    mirrors.required_scalar rfl (within.keeps rfl) rfl rfl
  have identity : row.defaulted "identity" none (Json.Row.nullable Json.asString?) =
      some (omission.choose "identity" config.bare.identity config.identity) :=
    mirrors.defaulted_scalar rfl _ (Json.fits_ofOption_string config.identity).isScalar
      (Json.nullable_ofOption_string config.identity)
  rw [ofJson?, bind_of_eq_some opened, bind_of_eq_some host, bind_of_eq_some port, bind_of_eq_some scheduler,
    bind_of_eq_some version, bind_of_eq_some user, bind_of_eq_some identity]
  rfl

end Batch.Config

/-! ### Cloud endpoints -/

namespace Cloud.Config

/-- What an endpoint must have, and defaults for everything else. -/
def bare (config : Config) : Config :=
  { endpoint := config.endpoint, user := config.user, password := config.password,
    contextFiles := config.contextFiles, network := config.network }

/-- The configuration with the defaults of the members that are left out. -/
def resetting (omission : Omission) (config : Config) : Config where
  endpoint := config.endpoint
  user := config.user
  password := config.password
  contextFiles := config.contextFiles
  network := config.network
  networkMask := omission.choose "virtual_net_mask" config.bare.networkMask config.networkMask
  networkGateway := omission.choose "virtual_net_gateway" config.bare.networkGateway config.networkGateway
  networkDns := omission.choose "virtual_net_dns" config.bare.networkDns config.networkDns
  flavor := omission.choose "default_flavor" config.bare.flavor config.flavor
  image := omission.choose "vm_image" config.bare.image config.image
  vmUser := omission.choose "vm_user" config.bare.vmUser config.vmUser
  vmKey := omission.choose "vm_user_key" config.bare.vmKey config.vmKey
  nfsServer := omission.choose "nfs_server" config.bare.nfsServer config.nfsServer
  nfsMountPoint := omission.choose "nfs_mount_point" config.bare.nfsMountPoint config.nfsMountPoint
  bootAttempts := omission.choose "boot_attempts" config.bare.bootAttempts config.bootAttempts
  pollMillis := omission.choose "poll_interval_ms" config.bare.pollMillis config.pollMillis

theorem fits_members (config : Config) : ∀ member ∈ config.members, Fits 0 member.2 := by
  have attempts : config.bootAttempts.toNat < UInt64.size := Nat.lt_trans config.bootAttempts.toNat_lt_size (by decide)
  have millis : config.pollMillis.toNat < UInt64.size := config.pollMillis.toNat_lt_size
  simp [members, Fits.string, Json.fits_nat attempts, Json.fits_nat millis]

theorem distinct_members (config : Config) : (Machine.Platform.tag :: config.members.map Prod.fst).Nodup := by
  change ("type" :: fieldNames).Nodup
  decide

theorem readsAs (config : Config) {omission : Omission} (within : omission.Within Machine.Platform.isOptional) :
    (config.toJson.without omission).ReadsAs ofJson? (config.resetting omission) := by
  intro other reorders
  obtain ⟨row, opened, mirrors⟩ := Json.exists_row_of_reorders fieldNames config.distinct_members.of_cons reorders
  have text (name given : String) (found : Json.lookup name config.members = some (.string given))
      (must : Machine.Platform.isOptional.omits name = false) : row.required name Json.asString? = some given :=
    mirrors.required_scalar found (within.keeps must) rfl rfl
  have setting (name given : String) (found : Json.lookup name config.members = some (.string given)) :
      row.defaulted name "" Json.asString? = some (omission.choose name "" given) :=
    mirrors.defaulted_scalar found "" rfl rfl
  have endpoint := text "endpoint" config.endpoint rfl rfl
  have user := text "user" config.user rfl rfl
  have password := text "user_password" config.password rfl rfl
  have contextFiles := text "context_init" config.contextFiles rfl rfl
  have network := text "virtual_net" config.network rfl rfl
  have mask := setting "virtual_net_mask" config.networkMask rfl
  have gateway := setting "virtual_net_gateway" config.networkGateway rfl
  have dns := setting "virtual_net_dns" config.networkDns rfl
  have flavor := setting "default_flavor" config.flavor rfl
  have image := setting "vm_image" config.image rfl
  have vmUser := setting "vm_user" config.vmUser rfl
  have vmKey := setting "vm_user_key" config.vmKey rfl
  have server := setting "nfs_server" config.nfsServer rfl
  have mountPoint := setting "nfs_mount_point" config.nfsMountPoint rfl
  have attempts : row.defaulted "boot_attempts" 30 Json.asUInt32? =
      some (omission.choose "boot_attempts" config.bare.bootAttempts config.bootAttempts) :=
    mirrors.defaulted_scalar rfl _ rfl (Json.asUInt32?_toNat config.bootAttempts)
  have millis : row.defaulted "poll_interval_ms" 1000 Json.asUInt64? =
      some (omission.choose "poll_interval_ms" config.bare.pollMillis config.pollMillis) :=
    mirrors.defaulted_scalar rfl _ rfl (Json.asUInt64?_toNat config.pollMillis)
  rw [ofJson?, bind_of_eq_some opened, bind_of_eq_some endpoint, bind_of_eq_some user, bind_of_eq_some password,
    bind_of_eq_some contextFiles, bind_of_eq_some network, bind_of_eq_some mask, bind_of_eq_some gateway,
    bind_of_eq_some dns, bind_of_eq_some flavor, bind_of_eq_some image, bind_of_eq_some vmUser, bind_of_eq_some vmKey,
    bind_of_eq_some server, bind_of_eq_some mountPoint, bind_of_eq_some attempts, bind_of_eq_some millis]
  rfl

end Cloud.Config

/-! ### Platforms -/

namespace Machine.Platform

/-- The platform with the defaults of the members that are left out. -/
def resetting (omission : Omission) : Platform → Platform
  | batch config => .batch (config.resetting omission)
  | cloud config => .cloud (config.resetting omission)

/-- A tag and the members of the part that it selects. -/
def tagged (kind : String) (members : List (String × Json)) : Json := .object ((tag, .string kind) :: members)

theorem fits_tagged (kind : String) {members : List (String × Json)} (each : ∀ member ∈ members, Fits 0 member.2) :
    Fits 1 (tagged kind members) := by
  refine .object fun name value member => ?_
  rcases List.mem_cons.mp member with same | later
  · rw [(Prod.mk.inj same).2]
    exact .string kind
  · exact each _ later

theorem emptyAsNull_of_isScalar {json : Json} (scalar : json.isScalar = true) : emptyAsNull json = json := by
  cases json with
  | array | object => cases scalar
  | _ => rfl

/-- However the tag and the members are ordered, the part that the tag selects is read from the members. -/
theorem ofJson?_of_reorders {kind : String} {members : List (String × Json)}
    (distinct : (tag :: members.map Prod.fst).Nodup) (each : ∀ member ∈ members, Fits 0 member.2) {other : Json}
    (reorders : (tagged kind members).Reorders other) :
    ∃ body, (Json.object members).Reorders body ∧ ofJson? other = ofTagged? kind body := by
  obtain ⟨form, canonical⟩ := ((fits_tagged kind each).reorders reorders).canonical
  obtain ⟨others, rfl, names, parts⟩ := reorders.of_object distinct
  have distinct' : (others.map Prod.fst).Nodup := names.nodup_iff.mp distinct
  have tagged : tag ∈ others.map Prod.fst := names.mem_iff.mp List.mem_cons_self
  have once : Json.Row.occurrences tag others = 1 := by
    rw [Json.occurrences_eq_count, List.count_eq_one_of_mem distinct' tagged]
  have found : Json.lookup tag others = some (.string kind) := by
    obtain ⟨⟨_, given⟩, member, rfl⟩ := List.mem_map.mp tagged
    rw [Json.lookup_of_mem distinct' member, (parts _ _ given List.mem_cons_self member).eq_of_isScalar rfl]
  -- The members beside the tag are those of the part, and scalars, which stay as they are.
  have remaining := Json.reorders_filter reorders distinct
  have inner : Fits 1 (.object members) := .object fun name value member => each (name, value) member
  have plain : ∀ member ∈ others.filter fun member => member.1 ≠ tag, emptyAsNull member.2 = member.2 := by
    cases inner.reorders remaining with
    | object scalars => exact fun member present => emptyAsNull_of_isScalar (scalars _ _ present).isScalar
  have bodies : ((others.filter fun member => member.1 ≠ tag).map fun member => (member.1, emptyAsNull member.2)) =
      others.filter fun member => member.1 ≠ tag := by
    refine (List.map_congr_left fun member present => ?_).trans (List.map_id _)
    exact Prod.ext rfl (plain member present)
  have readable : guard (Json.object others).canonical?.isSome = some () := by
    rw [canonical]
    rfl
  have alone : guard (Json.Row.occurrences tag others = 1) = some () := if_pos once
  have named : (Json.lookup tag others).bind Json.asString? = some kind := by
    rw [found]
    rfl
  refine ⟨.object (others.filter fun member => member.1 ≠ tag), remaining, ?_⟩
  refine (bind_of_eq_some readable _).trans ((bind_of_eq_some alone _).trans ((bind_of_eq_some named _).trans ?_))
  exact congrArg (fun members => ofTagged? kind (.object members)) bodies

/-- A platform is read back from its tag and its members if its part is read back from the members. -/
theorem readsAs_tagged {omission : Omission} (within : omission.Within isOptional) {kind : String}
    {members : List (String × Json)} (distinct : (tag :: members.map Prod.fst).Nodup)
    (each : ∀ member ∈ members, Fits 0 member.2) {platform : Platform}
    (part : ((Json.object members).without omission).ReadsAs (ofTagged? kind) platform) :
    ((tagged kind members).without omission).ReadsAs ofJson? platform := by
  intro other reorders
  have kept : omission.omits tag = false := within.keeps rfl
  have shape : (tagged kind members).without omission = tagged kind (Json.withoutMembers omission members) := by
    simp [tagged, Json.without, Json.withoutMembers, kept]
  have distinct' : (tag :: (Json.withoutMembers omission members).map Prod.fst).Nodup := by
    rw [Json.names_withoutMembers]
    exact distinct.sublist (List.filter_sublist.cons_cons tag)
  have each' : ∀ member ∈ Json.withoutMembers omission members, Fits 0 member.2 := by
    intro member present
    obtain ⟨name, value⟩ := member
    obtain ⟨source, given, rfl⟩ := Json.mem_withoutMembers present
    exact (each _ given).without _
  rw [shape] at reorders
  obtain ⟨body, same, decoded⟩ := ofJson?_of_reorders distinct' each' reorders
  exact decoded.trans (part body same)

theorem readsAs (platform : Platform) {omission : Omission} (within : omission.Within isOptional) :
    (platform.toJson.without omission).ReadsAs ofJson? (platform.resetting omission) := by
  cases platform with
  | batch config =>
    refine readsAs_tagged within config.distinct_members config.fits_members fun body same => ?_
    exact congrArg (Option.map batch) (config.readsAs within body same)
  | cloud config =>
    refine readsAs_tagged within config.distinct_members config.fits_members fun body same => ?_
    exact congrArg (Option.map cloud) (config.readsAs within body same)

theorem fits (platform : Platform) : Fits 1 platform.toJson := by
  cases platform with
  | batch config => exact fits_tagged "batch" config.fits_members
  | cloud config => exact fits_tagged "cloud" config.fits_members

end Machine.Platform

/-! ### Machines -/

namespace Machine

/-- What a machine must have, and defaults for everything else. -/
def bare (machine : Machine) : Machine := { id := machine.id, name := machine.name, platform := machine.platform }

/-- The machine with the defaults of the members that are left out. -/
def resetting (omission : Omission) (machine : Machine) : Machine where
  id := machine.id
  name := machine.name
  site := omission.choose "site" machine.bare.site machine.site
  platform := machine.platform.resetting (omission.inside (.member "backend"))

/-- The members of the record of a machine. -/
def members (machine : Machine) : List (String × Json) := [
  ("machine_id", .string machine.id),
  ("name", .string machine.name),
  ("site", .string machine.site),
  ("backend", machine.platform.toJson)]

theorem distinct_members (machine : Machine) : (machine.members.map Prod.fst).Nodup := by
  change ["machine_id", "name", "site", "backend"].Nodup
  decide

theorem readsAs (machine : Machine) {omission : Omission} (within : omission.Within isOptional) :
    (machine.toJson.without omission).ReadsAs ofJson? (machine.resetting omission) := by
  intro other reorders
  obtain ⟨row, opened, mirrors⟩ := Json.exists_row_of_reorders
    ["machine_id", "name", "site", "backend"] machine.distinct_members reorders
  have id : row.required "machine_id" Json.asString? = some machine.id :=
    mirrors.required_scalar rfl (within.keeps rfl) rfl rfl
  have name : row.required "name" Json.asString? = some machine.name :=
    mirrors.required_scalar rfl (within.keeps rfl) rfl rfl
  have site : row.defaulted "site" "" Json.asString? = some (omission.choose "site" machine.bare.site machine.site) :=
    mirrors.defaulted_scalar rfl _ rfl rfl
  have platform : row.required "backend" Platform.ofJson? =
      some (machine.platform.resetting (omission.inside (.member "backend"))) :=
    mirrors.required rfl (within.keeps rfl) (machine.platform.readsAs (within.inside (.member "backend")))
  rw [ofJson?, bind_of_eq_some opened, bind_of_eq_some id, bind_of_eq_some name, bind_of_eq_some site,
    bind_of_eq_some platform]
  rfl

theorem fits (machine : Machine) : Fits 2 machine.toJson := by
  have each : ∀ member ∈ machine.members, Fits 1 member.2 := by simp [members, Fits.string, machine.platform.fits]
  exact .object fun name value member => each (name, value) member

end Machine

/-! ### The last of equal machines -/

namespace Registry

theorem get?_remove (registry : Registry) (gone id : String) :
    (registry.remove gone).get? id = if gone = id then none else registry.get? id := by
  rw [remove, get?, get?, List.find?_filter]
  split
  next same =>
    rw [List.find?_eq_none]
    intro machine _
    simp [same]
  next other =>
    refine congrArg (fun wanted => registry.machines.find? wanted) (funext fun machine => ?_)
    by_cases named : machine.id = id
    · simp [named, Ne.symm other]
    · simp [named]

theorem get?_put (registry : Registry) (machine : Machine) (id : String) :
    (registry.put machine).get? id = if machine.id = id then some machine else registry.get? id := by
  have before := get?_remove registry machine.id id
  rw [get?] at before
  rw [put, get?, List.find?_append, before]
  split
  next same => simp [same]
  next other => simp [other]

/-- What a machine that is put later says about an identifier replaces what stood there. -/
theorem get?_foldl_put (registry : Registry) (machines : List Machine) (id : String) :
    (machines.foldl put registry).get? id =
      (machines.filter fun machine => machine.id == id).getLast?.or (registry.get? id) := by
  induction machines generalizing registry with
  | nil => rfl
  | cons machine rest ih =>
    rw [List.foldl_cons, ih, get?_put, List.filter_cons]
    by_cases same : machine.id = id
    · simp only [same, beq_self_eq_true, if_true, List.getLast?_cons, Option.some_or]
      cases (rest.filter fun machine => machine.id == id).getLast? <;> rfl
    · simp [same]

/-- Of machines with the same identifier the last one is found. -/
theorem get?_ofList (machines : List Machine) (id : String) :
    (ofList machines).get? id = (machines.filter fun machine => machine.id == id).getLast? := by
  rw [ofList, get?_foldl_put]
  exact Option.or_none

end Registry

end Dispatch
