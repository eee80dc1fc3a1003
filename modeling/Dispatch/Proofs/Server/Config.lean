import Dispatch.Proofs.Json.Text
import Dispatch.Proofs.Machine.Config
import Dispatch.Server.Config
/-!
A configuration is read back from its record, and from the text of it. Members with defaults that are left out are
read as these defaults, at any depth.
-/
namespace Dispatch

open Json (Omission Fits bind_of_eq_some)

/-! ### Defaults of sessions -/

theorem ClosePolicy.ofJson?_toJson (policy : ClosePolicy) : ofJson? policy.toJson = some policy :=
  Json.asOneOf?_string (by decide) (by cases policy <;> decide)

namespace SessionDefaults

def members (defaults : SessionDefaults) : List (String × Json) :=
  [("close_policy", defaults.policy.toJson), ("timeout", .nat defaults.timeout.toNat)]

theorem fits (defaults : SessionDefaults) : Fits 1 defaults.toJson := by
  have timeout : defaults.timeout.toNat < UInt64.size := defaults.timeout.toNat_lt_size
  have each : ∀ member ∈ defaults.members, Fits 0 member.2 := by
    simp [members, ClosePolicy.toJson, Fits.string, Json.fits_nat timeout]
  exact .object fun name value member => each (name, value) member

theorem distinct_members (defaults : SessionDefaults) : (defaults.members.map Prod.fst).Nodup := by
  change ["close_policy", "timeout"].Nodup
  decide

/-- The defaults of sessions have no defaults themselves. -/
theorem readsAs (defaults : SessionDefaults) {omission : Omission} (policy : omission.omits "close_policy" = false)
    (timeout : omission.omits "timeout" = false) :
    (defaults.toJson.without omission).ReadsAs ofJson? defaults := by
  intro other reorders
  obtain ⟨row, opened, mirrors⟩ := Json.exists_row_of_reorders ["close_policy", "timeout"]
    defaults.distinct_members reorders
  have first : row.required "close_policy" ClosePolicy.ofJson? = some defaults.policy :=
    mirrors.required_scalar rfl policy rfl defaults.policy.ofJson?_toJson
  have second : row.required "timeout" Json.asUInt64? = some defaults.timeout :=
    mirrors.required_scalar rfl timeout rfl (Json.asUInt64?_toNat defaults.timeout)
  rw [ofJson?, bind_of_eq_some opened, bind_of_eq_some first, bind_of_eq_some second]
  rfl

end SessionDefaults

/-! ### Formats of identifiers -/

namespace Identifier

theorem Kind.distinct_names : (Kind.all.map Kind.name).Nodup := by decide

theorem Kind.name_injective : Function.Injective Kind.name :=
  fun first second => List.inj_on_of_nodup_map distinct_names first.mem_all second.mem_all

theorem Kind.ofJson?_name (kind : Kind) : ofJson? (.string kind.name) = some kind :=
  Json.asOneOf?_string distinct_names kind.mem_all

namespace Formats

/-- The formats of kinds as members of an object. -/
def entries (formats : Formats) : List (String × Json) :=
  Kind.all.filterMap fun kind => (formats.override kind).map fun format => (kind.name, .string format)

theorem mem_entries {formats : Formats} {name : String} {value : Json} :
    (name, value) ∈ formats.entries ↔
      ∃ kind format, formats.override kind = some format ∧ name = kind.name ∧ value = .string format := by
  rw [entries, List.mem_filterMap]
  constructor
  · rintro ⟨kind, _, same⟩
    obtain ⟨format, replaced, pair⟩ := Option.map_eq_some_iff.mp same
    exact ⟨kind, format, replaced, (Prod.mk.inj pair).1.symm, (Prod.mk.inj pair).2.symm⟩
  · rintro ⟨kind, format, replaced, rfl, rfl⟩
    exact ⟨kind, kind.mem_all, by rw [replaced]; rfl⟩

theorem distinct_entries (formats : Formats) : (formats.entries.map Prod.fst).Nodup := by
  have named : formats.entries.map Prod.fst =
      (Kind.all.filter fun kind => (formats.override kind).isSome).map Kind.name := by
    rw [entries]
    induction Kind.all with
    | nil => rfl
    | cons kind rest ih => cases replaced : formats.override kind <;> simp [replaced, ih]
  rw [named]
  exact Kind.distinct_names.sublist (List.filter_sublist.map _)

theorem eq_of_override {formats others : Formats} (same : ∀ kind, formats.override kind = others.override kind) :
    formats = others := by
  obtain ⟨override⟩ := formats
  obtain ⟨other⟩ := others
  exact congrArg Formats.mk (funext same)

/-- The last format that is given to a kind stays. -/
theorem overrides?_eq {members : List (String × Json)} (formats : Formats)
    (each : ∀ name value, (name, value) ∈ members → ∃ (kind : Kind) (format : String),
      name = kind.name ∧ value = .string format) :
    overrides? members formats = some
      { override := fun kind => ((Json.lookup kind.name members).bind Json.asString?).or (formats.override kind) } := by
  induction members generalizing formats with
  | nil => rfl
  | cons member rest ih =>
    obtain ⟨name, value⟩ := member
    obtain ⟨kind, format, rfl, rfl⟩ := each name value List.mem_cons_self
    have texts : ∀ name value, (name, value) ∈ rest → ∃ (kind : Kind) (format : String),
        name = kind.name ∧ value = .string format :=
      fun name value member => each name value (List.mem_cons_of_mem _ member)
    have read : overrides? ((kind.name, .string format) :: rest) formats =
        overrides? rest (formats.set kind format) := by
      rw [overrides?, Kind.ofJson?_name]
      rfl
    rw [read, ih _ texts]
    refine congrArg some (eq_of_override fun other => ?_)
    change ((Json.lookup other.name rest).bind Json.asString?).or ((formats.set kind format).override other) =
      ((Json.lookup other.name ((kind.name, .string format) :: rest)).bind Json.asString?).or (formats.override other)
    rw [Json.lookup]
    cases later : Json.lookup other.name rest with
    | none =>
      by_cases same : other = kind
      · simp [same, set, Json.asString?]
      · have different : kind.name ≠ other.name := fun names => same (Kind.name_injective names.symm)
        simp [same, different, set]
    | some given =>
      obtain ⟨_, text, _, rfl⟩ := texts _ _ (Json.mem_of_lookup later)
      rfl

theorem readsAs_entries (formats : Formats) : (Json.object formats.entries).ReadsAs
    (fun | .object members => overrides? members {} | _ => none) formats := by
  intro other reorders
  obtain ⟨others, rfl, names, parts⟩ := reorders.of_object formats.distinct_entries
  have distinct : (others.map Prod.fst).Nodup := names.nodup_iff.mp formats.distinct_entries
  have texts : ∀ name value, (name, value) ∈ others → ∃ (kind : Kind) (format : String),
      name = kind.name ∧ value = .string format := by
    intro name value member
    obtain ⟨⟨_, source⟩, present, rfl⟩ := List.mem_map.mp (names.mem_iff.mpr (List.mem_map_of_mem member))
    obtain ⟨kind, format, _, named, rfl⟩ := mem_entries.mp present
    exact ⟨kind, format, named, (parts _ _ value present member).eq_of_isScalar rfl⟩
  -- Names are distinct, so the last format of a kind is the only one.
  refine (overrides?_eq {} texts).trans (congrArg some (eq_of_override fun kind => ?_))
  change ((Json.lookup kind.name others).bind Json.asString?).or none = _
  rw [Option.or_none]
  cases replaced : formats.override kind with
  | none =>
    have absent : Json.lookup kind.name others = none := by
      rw [Json.lookup_eq_none_iff, ← names.mem_iff]
      intro named
      obtain ⟨⟨_, source⟩, present, same⟩ := List.mem_map.mp named
      obtain ⟨other, format, given, rfl, _⟩ := mem_entries.mp present
      rw [Kind.name_injective same, replaced] at given
      cases given
    rw [absent]
    rfl
  | some format =>
    have present : (kind.name, .string format) ∈ formats.entries := mem_entries.mpr ⟨kind, format, replaced, rfl, rfl⟩
    obtain ⟨⟨_, given⟩, member, rfl⟩ := List.mem_map.mp (names.mem_iff.mp (List.mem_map_of_mem present))
    rw [Json.lookup_of_mem distinct member, (parts _ _ given present member).eq_of_isScalar rfl]
    rfl

theorem fits_entries (formats : Formats) {name : String} {value : Json} (member : (name, value) ∈ formats.entries) :
    Fits 0 value := by
  obtain ⟨_, format, _, _, rfl⟩ := mem_entries.mp member
  exact .string format

theorem fits (formats : Formats) : Fits 2 formats.toJson := by
  refine .object fun name value member => ?_
  cases List.mem_singleton.mp member
  exact .object fun name value entry => fits_entries formats entry

/-- The formats, or none where they are left out. -/
def resetting (omission : Omission) (formats : Formats) : Formats := omission.choose "overrides" {} formats

/-- No format of a single kind has a default. -/
theorem readsAs (formats : Formats) {omission : Omission}
    (entire : ∀ name, (omission.inside (.member "overrides")).omits name = false) :
    (formats.toJson.without omission).ReadsAs ofJson? (formats.resetting omission) := by
  intro other reorders
  have distinct : ([("overrides", Json.object formats.entries)].map Prod.fst).Nodup := List.nodup_singleton _
  obtain ⟨row, opened, mirrors⟩ := Json.exists_row_of_reorders ["overrides"] distinct reorders
  have whole : (Json.object formats.entries).without (omission.inside (.member "overrides")) =
      .object formats.entries := by
    rw [Json.without, Json.withoutMembers_of_isScalar entire fun _ _ member => (fits_entries formats member).isScalar]
  have found : Json.lookup "overrides" [("overrides", Json.object formats.entries)] = some (.object formats.entries) :=
    rfl
  rw [ofJson?, bind_of_eq_some opened]
  refine mirrors.defaulted found ({} : Formats) ?_
  rw [whole]
  exact formats.readsAs_entries

end Formats

end Identifier

/-! ### Configurations of servers -/

namespace Server.Config

/-- The members with a default, at any depth. -/
def isOptional : Omission
  | .member "machines" :: .item _ :: path => Machine.isOptional path
  | path => List.contains [
      [.member "session"], [.member "id_formats"], [.member "id_formats", .member "overrides"], [.member "site"],
      [.member "machines"], [.member "monitor_interval_secs"], [.member "sweep_interval_secs"],
      [.member "staging_dir"]] path

/-- The machines of a list with the defaults of the members that are left out of each. -/
def resettingMachines (omission : Omission) (machines : List Machine) : List Machine :=
  machines.mapIdx fun place machine => machine.resetting (omission.inside (.item place))

/-- The configuration with the defaults of the members that are left out. -/
def resetting (omission : Omission) (config : Config) : Config :=
  let bare : Config := {}
  { session := omission.choose "session" bare.session config.session
    formats :=
      omission.choose "id_formats" bare.formats (config.formats.resetting (omission.inside (.member "id_formats")))
    site := omission.choose "site" bare.site config.site
    machines := omission.choose "machines" bare.machines
      (resettingMachines (omission.inside (.member "machines")) config.machines)
    monitorInterval := omission.choose "monitor_interval_secs" bare.monitorInterval config.monitorInterval
    sweepInterval := omission.choose "sweep_interval_secs" bare.sweepInterval config.sweepInterval
    stagingDir := omission.choose "staging_dir" bare.stagingDir config.stagingDir }

def members (config : Config) : List (String × Json) := [
  ("session", config.session.toJson),
  ("id_formats", config.formats.toJson),
  ("site", .string config.site),
  ("machines", Json.ofList Machine.toJson config.machines),
  ("monitor_interval_secs", .nat config.monitorInterval.toNat),
  ("sweep_interval_secs", .nat config.sweepInterval.toNat),
  ("staging_dir", Json.ofOption .string config.stagingDir)]

theorem distinct_members (config : Config) : (config.members.map Prod.fst).Nodup := by
  change ["session", "id_formats", "site", "machines", "monitor_interval_secs", "sweep_interval_secs",
    "staging_dir"].Nodup
  decide

theorem readsAs_machines (machines : List Machine) {omission : Omission}
    (within : ∀ place, (omission.inside (.item place)).Within Machine.isOptional) :
    ((Json.ofList Machine.toJson machines).without omission).ReadsAs (Json.asList? Machine.ofJson?)
      (resettingMachines omission machines) := by
  refine Json.readsAs_array ?_ fun place item value here there => ?_
  · rw [Json.length_withoutItems, List.length_map, resettingMachines, List.length_mapIdx]
  · rw [Json.getElem?_withoutItems, List.getElem?_map, Nat.zero_add] at here
    rw [resettingMachines, List.getElem?_mapIdx] at there
    obtain ⟨machine, present, rfl⟩ := Option.map_eq_some_iff.mp there
    rw [present] at here
    cases here
    exact machine.readsAs (within place)

theorem readsAs (config : Config) {omission : Omission} (within : omission.Within isOptional) :
    (config.toJson.without omission).ReadsAs ofJson? (config.resetting omission) := by
  intro other reorders
  obtain ⟨row, opened, mirrors⟩ := Json.exists_row_of_reorders
    ["session", "id_formats", "site", "machines", "monitor_interval_secs", "sweep_interval_secs", "staging_dir"]
    config.distinct_members reorders
  have session : row.defaulted "session" {} SessionDefaults.ofJson? =
      some (omission.choose "session" {} config.session) :=
    mirrors.defaulted rfl {} (config.session.readsAs ((within.inside (.member "session")).keeps rfl)
      ((within.inside (.member "session")).keeps rfl))
  have formats : row.defaulted "id_formats" {} Identifier.Formats.ofJson? =
      some (omission.choose "id_formats" {} (config.formats.resetting (omission.inside (.member "id_formats")))) :=
    mirrors.defaulted rfl {} (config.formats.readsAs fun name =>
      ((within.inside (.member "id_formats")).inside (.member "overrides")).keeps (by
        simp [Omission.omits, Omission.inside, isOptional]))
  have site : row.defaulted "site" "" Json.asString? = some (omission.choose "site" "" config.site) :=
    mirrors.defaulted_scalar rfl _ rfl rfl
  have machines : row.defaulted "machines" [] (Json.asList? Machine.ofJson?) =
      some (omission.choose "machines" []
        (resettingMachines (omission.inside (.member "machines")) config.machines)) :=
    mirrors.defaulted rfl [] (readsAs_machines config.machines fun place =>
      (within.inside (.member "machines")).inside (.item place))
  have monitor : row.defaulted "monitor_interval_secs" 30 Json.asUInt64? =
      some (omission.choose "monitor_interval_secs" 30 config.monitorInterval) :=
    mirrors.defaulted_scalar rfl _ rfl (Json.asUInt64?_toNat config.monitorInterval)
  have sweep : row.defaulted "sweep_interval_secs" 60 Json.asUInt64? =
      some (omission.choose "sweep_interval_secs" 60 config.sweepInterval) :=
    mirrors.defaulted_scalar rfl _ rfl (Json.asUInt64?_toNat config.sweepInterval)
  have staging : row.defaulted "staging_dir" none (Json.Row.nullable Json.asString?) =
      some (omission.choose "staging_dir" none config.stagingDir) :=
    mirrors.defaulted_scalar rfl _ (Json.fits_ofOption_string config.stagingDir).isScalar
      (Json.nullable_ofOption_string config.stagingDir)
  rw [ofJson?, bind_of_eq_some opened, bind_of_eq_some session, bind_of_eq_some formats, bind_of_eq_some site,
    bind_of_eq_some machines, bind_of_eq_some monitor, bind_of_eq_some sweep, bind_of_eq_some staging]
  rfl

theorem fits (config : Config) : Fits 4 config.toJson := by
  have session := config.session.fits.mono (by decide : 1 ≤ 3)
  have formats := config.formats.fits.mono (by decide : 2 ≤ 3)
  have machines : Fits 3 (Json.ofList Machine.toJson config.machines) := by
    refine .array fun item member => ?_
    obtain ⟨machine, _, rfl⟩ := List.mem_map.mp member
    exact machine.fits
  have monitor : config.monitorInterval.toNat < UInt64.size := config.monitorInterval.toNat_lt_size
  have sweep : config.sweepInterval.toNat < UInt64.size := config.sweepInterval.toNat_lt_size
  have each : ∀ member ∈ config.members, Fits 3 member.2 := by
    simp [members, session, formats, machines, Fits.string, Json.fits_nat monitor, Json.fits_nat sweep,
      Json.fits_ofOption_string]
  exact .object fun name value member => each (name, value) member

/-- A record with some members left out is read the same from its text. -/
theorem load_compact (path : String) (config : Config) {omission : Omission} (within : omission.Within isOptional)
    {json : Json} (written : (config.toJson.without omission).Reorders json) :
    load path json.compact = .ok (config.resetting omission) := by
  have shallow : Fits Json.Reader.depthLimit json :=
    ((config.fits.without omission).reorders written).mono (by decide)
  rw [load, Json.read?_compact shallow, Option.bind_some, config.readsAs within json written]

theorem resettingMachines_nothing (machines : List Machine) : resettingMachines .nothing machines = machines := by
  have same (machine : Machine) : machine.resetting .nothing = machine := by
    obtain ⟨id, name, site, platform⟩ := machine
    cases platform <;> rfl
  refine List.ext_getElem? fun place => ?_
  rw [resettingMachines, List.getElem?_mapIdx]
  cases machines[place]? with
  | none => rfl
  | some machine => exact congrArg some (same machine)

theorem resetting_nothing (config : Config) : config.resetting .nothing = config := by
  have machines : (config.resetting .nothing).machines = config.machines := resettingMachines_nothing config.machines
  obtain ⟨session, formats, site, listed, monitor, sweep, staging⟩ := config
  exact congrArg (fun listed => Config.mk session formats site listed monitor sweep staging) machines

/-- A configuration is read back from its record, and from the text of it, however the members are ordered. Without
some of the members that have defaults, at any depth, it is read with these defaults. Of the machines with the same
identifier its registry gives the last one. -/
theorem read_back_with_defaults (config : Config) :
    (∀ json, config.toJson.Reorders json →
      ofJson? json = some config ∧ ∀ path, load path json.compact = .ok config) ∧
    (∀ omission : Omission, omission.Within isOptional → ∀ json, (config.toJson.without omission).Reorders json →
      ofJson? json = some (config.resetting omission) ∧
        ∀ path, load path json.compact = .ok (config.resetting omission)) ∧
    ∀ id, config.registry.get? id = (config.machines.filter fun machine => machine.id == id).getLast? := by
  refine ⟨fun json written => ?_, fun omission within json written => ?_, Registry.get?_ofList config.machines⟩
  · have nothing : Omission.nothing.Within isOptional := nofun
    rw [← Json.without_nothing config.toJson] at written
    have read := config.readsAs nothing json written
    rw [resetting_nothing] at read
    refine ⟨read, fun path => ?_⟩
    rw [load_compact path config nothing written, resetting_nothing]
  · exact ⟨config.readsAs within json written, fun path => load_compact path config within written⟩

/-- Two machines with one identifier, a front-end and a cloud. -/
def twoMachines : Config where
  session := { policy := .onTimeout, timeout := 120 }
  formats := ({} : Identifier.Formats).set .job "$SITE_J_$CPT"
  site := "lyon"
  machines := [
    { id := "cluster", name := "Front", site := "lyon",
      platform := .batch { host := "front.example.org", port := 2222, scheduler := .slurm, defaultUser := "grid" } },
    { id := "cluster", name := "Cloud",
      platform := .cloud { endpoint := "https://cloud.example.org", user := "grid", password := "secret",
                           image := "debian", bootAttempts := 5 } }]
  stagingDir := some "/var/spool/grid"

/-- Some members of its record that have defaults. -/
def someMembers : List (List Json.Step) := [
  [.member "session"],
  [.member "id_formats", .member "overrides"],
  [.member "machines", .item 0, .member "site"],
  [.member "machines", .item 0, .member "backend", .member "port"],
  [.member "machines", .item 1, .member "backend", .member "boot_attempts"]]

theorem twoMachines_read_back :
    Omission.Within someMembers.contains isOptional ∧
    ofJson? twoMachines.toJson = some twoMachines ∧
    load "gridplane.json" (twoMachines.toJson.without someMembers.contains).compact = .ok
      { site := "lyon"
        machines := [
          { id := "cluster", name := "Front",
            platform := .batch { host := "front.example.org", scheduler := .slurm, defaultUser := "grid" } },
          { id := "cluster", name := "Cloud",
            platform := .cloud { endpoint := "https://cloud.example.org", user := "grid", password := "secret",
                                 image := "debian" } }]
        stagingDir := some "/var/spool/grid" } ∧
    (twoMachines.registry.get? "cluster").map Machine.name = some "Cloud" := by
  have optional : ∀ path ∈ someMembers, isOptional path = true := by decide
  have within : Omission.Within someMembers.contains isOptional :=
    fun path left => optional path (List.contains_iff_mem.mp left)
  obtain ⟨whole, partly, registered⟩ := read_back_with_defaults twoMachines
  have read := (partly _ within _ (.same _)).2 "gridplane.json"
  refine ⟨within, (whole _ (.same _)).1, read.trans rfl, ?_⟩
  rw [registered]
  rfl

end Server.Config

end Dispatch
