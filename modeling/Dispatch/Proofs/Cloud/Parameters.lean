import Dispatch.Cloud.Config
import Dispatch.Proofs.Text.Numeral
import Dispatch.Proofs.Text.Search
/-!
What the parameters of a job change. Each word without an equals sign is skipped, and each other word gives a value to
one of nine settings or has an unknown key. If there is an unknown key, the first one is told; otherwise every setting
has the last value that it is given, and nothing else changes. So parameters can be applied in parts, and again.
-/
namespace Dispatch.Cloud

/-- The parameters, each named for the setting that it changes. -/
inductive Parameter
  | endpoint
  | user
  | password
  | image
  | vmUser
  | vmKey
  | flavor
  | nfsServer
  | nfsMountPoint
  deriving DecidableEq, Repr

namespace Parameter

def key : Parameter → String
  | endpoint => "endpoint"
  | user => "user"
  | password => "user-password"
  | image => "vm-image"
  | vmUser => "vm-user"
  | vmKey => "vm-key"
  | flavor => "vm-flavor"
  | nfsServer => "nfs-server"
  | nfsMountPoint => "nfs-mountpoint"

def get (config : Config) : Parameter → String
  | endpoint => config.endpoint
  | user => config.user
  | password => config.password
  | image => config.image
  | vmUser => config.vmUser
  | vmKey => config.vmKey
  | flavor => config.flavor
  | nfsServer => config.nfsServer
  | nfsMountPoint => config.nfsMountPoint

def put (config : Config) (value : String) : Parameter → Config
  | endpoint => { config with endpoint := value }
  | user => { config with user := value }
  | password => { config with password := value }
  | image => { config with image := value }
  | vmUser => { config with vmUser := value }
  | vmKey => { config with vmKey := value }
  | flavor => { config with flavor := value }
  | nfsServer => { config with nfsServer := value }
  | nfsMountPoint => { config with nfsMountPoint := value }

variable {value : String} {setting other : Parameter} {word : List Char}

theorem key_injective (same : setting.key = other.key) : setting = other := by
  cases setting <;> cases other <;> first | rfl | exact absurd same (by decide)

theorem equals_not_mem_key (setting : Parameter) : '=' ∉ setting.key.toList := by cases setting <;> decide

theorem get_put_self (config : Config) (value : String) (setting : Parameter) :
    setting.get (setting.put config value) = value := by cases setting <;> rfl

theorem get_put_of_ne (config : Config) (value : String) (apart : setting ≠ other) :
    other.get (setting.put config value) = other.get config := by
  cases setting <;> cases other <;> first | rfl | exact absurd rfl apart

/-- The value that a word gives to a setting: all that follows its key and the equals sign behind it. -/
def valueOf? (setting : Parameter) (word : List Char) : Option String :=
  (Text.after? (setting.key.toList ++ ['=']) word).map String.ofList

/-- The value that is given to a setting last. -/
def lastValue? (setting : Parameter) (words : List (List Char)) : Option String :=
  (words.filterMap setting.valueOf?).getLast?

theorem valueOf?_eq_some :
    setting.valueOf? word = some value ↔ word = setting.key.toList ++ '=' :: value.toList := by
  rw [valueOf?, Option.map_eq_some_iff]
  constructor
  · intro given
    obtain ⟨after, found, same⟩ := given
    rw [← same, String.toList_ofList, Text.after?_eq_some.mp found, List.append_assoc, List.singleton_append]
  · intro written
    refine ⟨value.toList, Text.after?_eq_some.mpr ?_, String.ofList_toList⟩
    rw [written, List.append_assoc, List.singleton_append]

/-- A word gives a value to one setting at most. -/
theorem valueOf?_key (setting other : Parameter) (value : String) :
    other.valueOf? (setting.key.toList ++ '=' :: value.toList) = if setting = other then some value else none := by
  by_cases one : setting = other
  · rw [if_pos one, valueOf?_eq_some, one]
  · rw [if_neg one, Option.eq_none_iff_forall_ne_some]
    intro given same
    have cut : Text.cut? '=' (setting.key.toList ++ '=' :: value.toList) = some (setting.key.toList, value.toList) :=
      Text.cut?_eq_some.mpr ⟨rfl, setting.equals_not_mem_key⟩
    rw [Text.cut?_eq_some.mpr ⟨valueOf?_eq_some.mp same, other.equals_not_mem_key⟩, Option.some.injEq,
      Prod.mk.injEq, String.toList_inj] at cut
    exact one (key_injective cut.1.symm)

theorem valueOf?_of_plain (plain : '=' ∉ word) (setting : Parameter) : setting.valueOf? word = none := by
  rw [Option.eq_none_iff_forall_ne_some]
  intro value given
  rw [valueOf?_eq_some.mp given] at plain
  exact plain (List.mem_append_right _ List.mem_cons_self)

theorem lastValue?_append (setting : Parameter) (words more : List (List Char)) :
    setting.lastValue? (words ++ more) = (setting.lastValue? more).or (setting.lastValue? words) := by
  rw [lastValue?, List.filterMap_append, List.getLast?_append]
  rfl

theorem lastValue?_singleton (setting : Parameter) (word : List Char) :
    setting.lastValue? [word] = setting.valueOf? word := by
  unfold lastValue?
  cases given : setting.valueOf? word <;> simp [given]

end Parameter

/-- The settings that no parameter changes. -/
structure SameBackground (config changed : Config) : Prop where
  contextFiles : changed.contextFiles = config.contextFiles
  network : changed.network = config.network
  networkMask : changed.networkMask = config.networkMask
  networkGateway : changed.networkGateway = config.networkGateway
  networkDns : changed.networkDns = config.networkDns
  bootAttempts : changed.bootAttempts = config.bootAttempts
  pollMillis : changed.pollMillis = config.pollMillis

namespace SameBackground

variable {config changed next : Config}

theorem refl (config : Config) : SameBackground config config := ⟨rfl, rfl, rfl, rfl, rfl, rfl, rfl⟩

theorem symm (same : SameBackground config changed) : SameBackground changed config :=
  ⟨same.contextFiles.symm, same.network.symm, same.networkMask.symm, same.networkGateway.symm, same.networkDns.symm,
    same.bootAttempts.symm, same.pollMillis.symm⟩

theorem trans (front : SameBackground config next) (back : SameBackground next changed) :
    SameBackground config changed where
  contextFiles := back.contextFiles.trans front.contextFiles
  network := back.network.trans front.network
  networkMask := back.networkMask.trans front.networkMask
  networkGateway := back.networkGateway.trans front.networkGateway
  networkDns := back.networkDns.trans front.networkDns
  bootAttempts := back.bootAttempts.trans front.bootAttempts
  pollMillis := back.pollMillis.trans front.pollMillis

theorem put (config : Config) (value : String) (setting : Parameter) :
    SameBackground config (setting.put config value) := by
  cases setting <;> exact ⟨rfl, rfl, rfl, rfl, rfl, rfl, rfl⟩

end SameBackground

/-- The last value that the words give to a setting stands, and all else is as it was. -/
structure Follows (config : Config) (words : List (List Char)) (changed : Config) : Prop where
  settings : ∀ setting : Parameter, setting.get changed = (setting.lastValue? words).getD (setting.get config)
  background : SameBackground config changed

namespace Follows

variable {config changed next : Config} {words more : List (List Char)}

theorem nil (config : Config) : Follows config [] config := ⟨fun _ => rfl, .refl config⟩

theorem plain {word : List Char} (plain : '=' ∉ word) (config : Config) : Follows config [word] config := by
  refine ⟨fun setting => ?_, .refl config⟩
  rw [setting.lastValue?_singleton, Parameter.valueOf?_of_plain plain]
  rfl

theorem put (config : Config) (setting : Parameter) (value : String) :
    Follows config [setting.key.toList ++ '=' :: value.toList] (setting.put config value) := by
  refine ⟨fun other => ?_, .put config value setting⟩
  rw [other.lastValue?_singleton, setting.valueOf?_key]
  by_cases one : setting = other
  · rw [if_pos one, ← one, setting.get_put_self]
    rfl
  · rw [if_neg one, Parameter.get_put_of_ne config value one]
    rfl

theorem append (front : Follows config words next) (back : Follows next more changed) :
    Follows config (words ++ more) changed := by
  refine ⟨fun setting => ?_, front.background.trans back.background⟩
  rw [back.settings setting, front.settings setting, setting.lastValue?_append]
  cases setting.lastValue? more <;> rfl

/-- Words that have been followed already change nothing. -/
theorem again (first : Follows config words changed) : Follows changed words changed := by
  refine ⟨fun setting => ?_, .refl changed⟩
  cases last : setting.lastValue? words with
  | none => rfl
  | some value =>
    rw [first.settings setting, last]
    rfl

theorem unique (first : Follows config words changed) (second : Follows config words next) : changed = next := by
  have same (setting : Parameter) : setting.get changed = setting.get next :=
    (first.settings setting).trans (second.settings setting).symm
  have rest : SameBackground next changed := second.background.symm.trans first.background
  rw [Config.mk.injEq]
  exact ⟨same .endpoint, same .user, same .password, rest.contextFiles, rest.network, rest.networkMask,
    rest.networkGateway, rest.networkDns, same .flavor, same .image, same .vmUser, same .vmKey, same .nfsServer,
    same .nfsMountPoint, rest.bootAttempts, rest.pollMillis⟩

end Follows

/-- What stands in front of the first equals sign of the word is the key of no setting. -/
structure HasUnknownKey (word : List Char) (key : String) : Prop where
  written : ∃ value, word = key.toList ++ '=' :: value
  first : '=' ∉ key.toList
  unknown : ∀ setting : Parameter, key ≠ setting.key

/-- A word is skipped, or it gives a value to a setting, or its key is unknown. -/
theorem word_cases (word : List Char) : '=' ∉ word ∨
    (∃ (setting : Parameter) (value : String), word = setting.key.toList ++ '=' :: value.toList) ∨
      ∃ key, HasUnknownKey word key := by
  by_cases equals : '=' ∈ word
  · obtain ⟨front, value, written, first⟩ := List.eq_append_cons_of_mem equals
    by_cases keyed : ∃ setting : Parameter, String.ofList front = setting.key
    · obtain ⟨setting, same⟩ := keyed
      refine .inr (.inl ⟨setting, String.ofList value, ?_⟩)
      rw [← same, String.toList_ofList, String.toList_ofList, written]
    · refine .inr (.inr ⟨String.ofList front, ⟨value, ?_⟩, ?_, fun setting same => keyed ⟨setting, same⟩⟩)
      · rw [String.toList_ofList, written]
      · rwa [String.toList_ofList]
  · exact .inl equals

/-- The first unknown key, in reading order. -/
def IsFirstUnknown (words : List (List Char)) (key : String) : Prop :=
  ∃ before word after, words = before ++ word :: after ∧ HasUnknownKey word key ∧
    ∀ earlier ∈ before, ∀ other, ¬HasUnknownKey earlier other

/-- What is told of an unknown key. -/
def unknownParameter (key : String) : Backend.Fault := .invalidParameter s!"Unknown cloud parameter '{key}'"

namespace Config

variable {config changed : Config} {word : List Char} {words : List (List Char)} {key : String}

theorem set_key (config : Config) (setting : Parameter) (value : String) :
    config.set setting.key value = .ok (setting.put config value) := by cases setting <;> rfl

theorem set_unknown (unknown : ∀ setting : Parameter, key ≠ setting.key) (config : Config) (value : String) :
    config.set key value = .error (unknownParameter key) := by
  unfold set
  split
  next => exact absurd rfl (unknown .endpoint)
  next => exact absurd rfl (unknown .user)
  next => exact absurd rfl (unknown .password)
  next => exact absurd rfl (unknown .image)
  next => exact absurd rfl (unknown .vmUser)
  next => exact absurd rfl (unknown .vmKey)
  next => exact absurd rfl (unknown .flavor)
  next => exact absurd rfl (unknown .nfsServer)
  next => exact absurd rfl (unknown .nfsMountPoint)
  next => rfl

/-! ### One word -/

theorem applyWord_of_plain (plain : '=' ∉ word) (config : Config) : config.applyWord word = .ok config := by
  unfold applyWord
  rw [Text.cut?_of_absent plain]

theorem applyWord_key (config : Config) (setting : Parameter) (value : String) :
    config.applyWord (setting.key.toList ++ '=' :: value.toList) = .ok (setting.put config value) := by
  unfold applyWord
  rw [Text.cut?_eq_some.mpr ⟨rfl, setting.equals_not_mem_key⟩]
  simp only
  rw [String.ofList_toList, String.ofList_toList, set_key]

theorem applyWord_of_hasUnknownKey (rejected : HasUnknownKey word key) (config : Config) :
    config.applyWord word = .error (unknownParameter key) := by
  obtain ⟨value, written⟩ := rejected.written
  unfold applyWord
  rw [Text.cut?_eq_some.mpr ⟨written, rejected.first⟩]
  simp only
  rw [String.ofList_toList, set_unknown rejected.unknown]

theorem applyWord_of_known (known : ∀ key, ¬HasUnknownKey word key) (config : Config) :
    ∃ changed, config.applyWord word = .ok changed ∧ Follows config [word] changed := by
  rcases word_cases word with plain | ⟨setting, value, written⟩ | ⟨key, rejected⟩
  · exact ⟨config, applyWord_of_plain plain config, .plain plain config⟩
  · rw [written]
    exact ⟨setting.put config value, applyWord_key config setting value, .put config setting value⟩
  · exact absurd rejected (known key)

/-! ### Runs of words -/

theorem applyWords_of_known (known : ∀ word ∈ words, ∀ key, ¬HasUnknownKey word key) (config : Config) :
    ∃ changed, words.foldlM applyWord config = .ok changed ∧ Follows config words changed := by
  induction words generalizing config with
  | nil => exact ⟨config, rfl, .nil config⟩
  | cons word rest ih =>
    obtain ⟨next, applied, step⟩ := applyWord_of_known (known word List.mem_cons_self) config
    obtain ⟨changed, run, follows⟩ := ih (fun later member => known later (List.mem_cons_of_mem word member)) next
    refine ⟨changed, ?_, step.append follows⟩
    rw [List.foldlM_cons, applied]
    exact run

theorem applyWords_of_isFirstUnknown (first : IsFirstUnknown words key) (config : Config) :
    words.foldlM applyWord config = .error (unknownParameter key) := by
  obtain ⟨before, word, after, parted, rejected, known⟩ := first
  obtain ⟨next, applied, -⟩ := applyWords_of_known known config
  rw [parted, List.foldlM_append, applied]
  change (word :: after).foldlM applyWord next = _
  rw [List.foldlM_cons, applyWord_of_hasUnknownKey rejected]
  rfl

theorem exists_isFirstUnknown_or_known (words : List (List Char)) :
    (∃ key, IsFirstUnknown words key) ∨ ∀ word ∈ words, ∀ key, ¬HasUnknownKey word key := by
  induction words with
  | nil => exact .inr fun word member => absurd member List.not_mem_nil
  | cons word rest ih =>
    by_cases rejected : ∃ key, HasUnknownKey word key
    · obtain ⟨key, rejected⟩ := rejected
      exact .inl ⟨key, [], word, rest, rfl, rejected, fun earlier member => absurd member List.not_mem_nil⟩
    · have known (key : String) : ¬HasUnknownKey word key := fun unknown => rejected ⟨key, unknown⟩
      rcases ih with ⟨key, before, other, after, parted, unknown, earlier⟩ | others
      · refine .inl ⟨key, word :: before, other, after, by rw [parted, List.cons_append], unknown, ?_⟩
        exact List.forall_mem_cons.mpr ⟨known, earlier⟩
      · exact .inr (List.forall_mem_cons.mpr ⟨known, others⟩)

theorem withParams_eq_error {params : String} {fault : Backend.Fault} : config.withParams params = .error fault ↔
    ∃ key, IsFirstUnknown (Text.fields ' ' params.toList) key ∧ fault = unknownParameter key := by
  unfold withParams
  constructor
  · intro failed
    rcases exists_isFirstUnknown_or_known (Text.fields ' ' params.toList) with ⟨key, first⟩ | known
    · rw [applyWords_of_isFirstUnknown first] at failed
      exact ⟨key, first, (Except.error.inj failed).symm⟩
    · obtain ⟨changed, applied, -⟩ := applyWords_of_known known config
      rw [applied] at failed
      cases failed
  · intro rejected
    obtain ⟨key, first, same⟩ := rejected
    rw [same, applyWords_of_isFirstUnknown first]

theorem withParams_eq_ok {params : String} : config.withParams params = .ok changed ↔
    (∀ key, ¬IsFirstUnknown (Text.fields ' ' params.toList) key) ∧
      Follows config (Text.fields ' ' params.toList) changed := by
  unfold withParams
  constructor
  · intro applied
    rcases exists_isFirstUnknown_or_known (Text.fields ' ' params.toList) with ⟨key, first⟩ | known
    · rw [applyWords_of_isFirstUnknown first] at applied
      cases applied
    · obtain ⟨next, run, follows⟩ := applyWords_of_known known config
      rw [run] at applied
      cases applied
      refine ⟨fun key first => ?_, follows⟩
      rw [applyWords_of_isFirstUnknown first] at run
      cases run
  · intro accepted
    obtain ⟨known, follows⟩ := accepted
    rcases exists_isFirstUnknown_or_known (Text.fields ' ' params.toList) with ⟨key, first⟩ | known'
    · exact absurd first (known key)
    · obtain ⟨next, run, other⟩ := applyWords_of_known known' config
      rw [run, other.unique follows]

theorem sameBackground_of_withParams {params : String} (applied : config.withParams params = .ok changed) :
    SameBackground config changed := (withParams_eq_ok.mp applied).2.background

theorem withParams_append (config : Config) (params more : String) :
    config.withParams (params ++ " " ++ more) = (config.withParams params).bind (·.withParams more) := by
  have joined : (params ++ " " ++ more).toList = params.toList ++ ' ' :: more.toList := by
    rw [String.toList_append, String.toList_append, List.append_assoc]
    rfl
  unfold withParams
  rw [joined, Text.fields_append_separator, List.foldlM_append]
  rfl

theorem withParams_again (config : Config) (params : String) :
    (config.withParams params).bind (·.withParams params) = config.withParams params := by
  cases applied : config.withParams params with
  | error fault => rfl
  | ok changed =>
    obtain ⟨known, follows⟩ := withParams_eq_ok.mp applied
    exact withParams_eq_ok.mpr ⟨known, follows.again⟩

/-- Two texts of parameters with a space between them are applied one after the other, and a text that is applied again
changes nothing. Parameters are refused exactly if a key is unknown, and the first one is told; otherwise each of the
nine settings has the last value that it is given, with all that follows the first equals sign, and nothing else
changes. -/
theorem parameters_replay (config : Config) (params more : String) :
    config.withParams (params ++ " " ++ more) = (config.withParams params).bind (·.withParams more) ∧
      (config.withParams params).bind (·.withParams params) = config.withParams params ∧
      (∀ fault, config.withParams params = .error fault ↔
        ∃ key, IsFirstUnknown (Text.fields ' ' params.toList) key ∧ fault = unknownParameter key) ∧
      (∀ changed, config.withParams params = .ok changed ↔
        (∀ key, ¬IsFirstUnknown (Text.fields ' ' params.toList) key) ∧
          Follows config (Text.fields ' ' params.toList) changed) ∧
      ∀ setting word value, Parameter.valueOf? setting word = some value ↔
        word = setting.key.toList ++ '=' :: value.toList ∧ '=' ∉ setting.key.toList := by
  refine ⟨withParams_append config params more, withParams_again config params, fun fault => withParams_eq_error,
    fun changed => withParams_eq_ok, ?_⟩
  intro setting word value
  rw [Parameter.valueOf?_eq_some]
  exact (and_iff_left setting.equals_not_mem_key).symm

end Config

end Dispatch.Cloud
