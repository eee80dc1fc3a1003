import Dispatch.Json.Record
import Mathlib.Data.List.Nodup
/-!
Variants of a JSON value that say the same, or less: members in another order, at any depth, and members that are left
out. Both leave a value without unreadable parts, and no deeper than it was.
-/
namespace Dispatch.Json

/-! ### Members by their names -/

theorem lookup_eq_none_iff {name : String} {members : List (String × Json)} :
    lookup name members = none ↔ name ∉ members.map Prod.fst := by
  induction members with
  | nil => simp [lookup]
  | cons member rest ih =>
    obtain ⟨other, value⟩ := member
    rw [lookup, List.map_cons, List.mem_cons, not_or, ← ih]
    cases lookup name rest with
    | none => simp [eq_comm]
    | some later => simp

theorem lookup_cons_of_ne {name other : String} (different : other ≠ name) (value : Json)
    (rest : List (String × Json)) : lookup name ((other, value) :: rest) = lookup name rest := by
  rw [lookup]
  cases lookup name rest with
  | none => simp [different]
  | some later => rfl

theorem mem_of_lookup {name : String} {value : Json} {members : List (String × Json)}
    (found : lookup name members = some value) : (name, value) ∈ members := by
  induction members with
  | nil => cases found
  | cons member rest ih =>
    obtain ⟨other, first⟩ := member
    rw [lookup] at found
    split at found
    next later present =>
      cases found
      exact List.mem_cons_of_mem _ (ih present)
    next =>
      split at found
      next same =>
        cases found
        rw [same]
        exact List.mem_cons_self
      next => cases found

/-- Under distinct names each member is the one that is found. -/
theorem lookup_of_mem {name : String} {value : Json} {members : List (String × Json)}
    (distinct : (members.map Prod.fst).Nodup) (member : (name, value) ∈ members) :
    lookup name members = some value := by
  have present : lookup name members ≠ none := fun absent =>
    lookup_eq_none_iff.mp absent (List.mem_map_of_mem member)
  obtain ⟨found, same⟩ := Option.ne_none_iff_exists'.mp present
  have equal := List.inj_on_of_nodup_map distinct (mem_of_lookup same) member rfl
  rw [same, (Prod.mk.inj equal).2]

theorem occurrences_eq_count (name : String) (members : List (String × Json)) :
    Row.occurrences name members = (members.map Prod.fst).count name := by
  rw [Row.occurrences, ← List.countP_eq_length_filter, List.count, List.countP_map]
  rfl

/-! ### Members that are left out -/

/-- A step from a value to a part of it. -/
inductive Step
  | member (name : String)
  | item (place : Nat)
  deriving DecidableEq, Repr

/-- Which members are left out, by the paths to them. -/
abbrev Omission : Type := List Step → Bool

namespace Omission

def nothing : Omission := fun _ => false

def omits (omission : Omission) (name : String) : Bool := omission [.member name]

/-- The same inside a part. -/
def inside (omission : Omission) (step : Step) : Omission := fun path => omission (step :: path)

/-- A part of a value, or what stands for it where its member is left out. -/
def choose {α : Type} (omission : Omission) (name : String) (fallback given : α) : α :=
  if omission.omits name then fallback else given

/-- Nothing is left out that the other one does not leave out. -/
def Within (omission other : Omission) : Prop := ∀ path, omission path = true → other path = true

theorem Within.inside {omission other : Omission} (within : omission.Within other) (step : Step) :
    (omission.inside step).Within (other.inside step) :=
  fun path left => within (step :: path) left

theorem Within.keeps {omission other : Omission} (within : omission.Within other) {name : String}
    (kept : other.omits name = false) : omission.omits name = false := by
  cases left : omission.omits name with
  | false => rfl
  | true => exact absurd (within _ left) (Bool.eq_false_iff.mp kept)

end Omission

mutual

/-- A value without some of the members in it, at any depth. -/
def without (omission : Omission) : Json → Json
  | .array items => .array (withoutItems omission 0 items)
  | .object members => .object (withoutMembers omission members)
  | json => json

def withoutItems (omission : Omission) (place : Nat) : List Json → List Json
  | [] => []
  | item :: rest => without (omission.inside (.item place)) item :: withoutItems omission (place + 1) rest

def withoutMembers (omission : Omission) : List (String × Json) → List (String × Json)
  | [] => []
  | (name, value) :: rest =>
    if omission.omits name then withoutMembers omission rest
    else (name, without (omission.inside (.member name)) value) :: withoutMembers omission rest

end

section Without

variable {omission : Omission} {members : List (String × Json)}

theorem getElem?_withoutItems (omission : Omission) (start : Nat) (items : List Json) (place : Nat) :
    (withoutItems omission start items)[place]? =
      items[place]?.map (without (omission.inside (.item (start + place)))) := by
  induction items generalizing start place with
  | nil => simp [withoutItems]
  | cons item rest ih =>
    rw [withoutItems]
    cases place with
    | zero => rfl
    | succ place => rw [List.getElem?_cons_succ, List.getElem?_cons_succ, ih, Nat.add_right_comm, Nat.add_assoc]

theorem length_withoutItems (omission : Omission) (start : Nat) (items : List Json) :
    (withoutItems omission start items).length = items.length := by
  induction items generalizing start with
  | nil => rfl
  | cons item rest ih => rw [withoutItems, List.length_cons, List.length_cons, ih]

theorem names_withoutMembers (omission : Omission) (members : List (String × Json)) :
    (withoutMembers omission members).map Prod.fst =
      (members.map Prod.fst).filter fun name => !omission.omits name := by
  induction members with
  | nil => rfl
  | cons member rest ih =>
    obtain ⟨name, value⟩ := member
    rw [withoutMembers, List.map_cons, List.filter_cons]
    split
    next left => simp [left, ih]
    next kept => simp [kept, ih]

theorem distinct_withoutMembers (omission : Omission) (distinct : (members.map Prod.fst).Nodup) :
    ((withoutMembers omission members).map Prod.fst).Nodup := by
  rw [names_withoutMembers]
  exact distinct.filter _

/-- A member that is not left out is found without those that are left out of its own value. -/
theorem lookup_withoutMembers (omission : Omission) (name : String) (members : List (String × Json)) :
    lookup name (withoutMembers omission members) =
      if omission.omits name then none
      else (lookup name members).map (without (omission.inside (.member name))) := by
  induction members with
  | nil => simp [withoutMembers, lookup]
  | cons member rest ih =>
    obtain ⟨other, value⟩ := member
    rw [withoutMembers]
    by_cases same : other = name
    · subst same
      by_cases left : omission.omits other = true
      · rw [if_pos left, ih, if_pos left, if_pos left]
      · rw [if_neg left, lookup, ih, if_neg left, if_neg left, lookup]
        cases lookup other rest with
        | none => simp
        | some later => simp
    · rw [lookup_cons_of_ne same]
      split
      next => exact ih
      next => rw [lookup_cons_of_ne same, ih]

end Without

mutual

theorem without_nothing : (json : Json) → json.without .nothing = json
  | .null | .bool _ | .number _ | .string _ | .unreadable => rfl
  | .array items => congrArg Json.array (withoutItems_nothing 0 items)
  | .object members => congrArg Json.object (withoutMembers_nothing members)

theorem withoutItems_nothing (place : Nat) : (items : List Json) → withoutItems .nothing place items = items
  | [] => rfl
  | item :: rest => congrArg₂ List.cons (without_nothing item) (withoutItems_nothing (place + 1) rest)

theorem withoutMembers_nothing : (members : List (String × Json)) → withoutMembers .nothing members = members
  | [] => rfl
  | (name, value) :: rest =>
    congrArg₂ List.cons (congrArg (Prod.mk name) (without_nothing value)) (withoutMembers_nothing rest)

end

/-! ### Members in another order -/

/-- The same value with the members of objects in another order, at any depth. -/
inductive Reorders : Json → Json → Prop
  | same (json : Json) : Reorders json json
  | array {items others : List Json} (length : items.length = others.length)
      (each : ∀ (place : Nat) (item other : Json), items[place]? = some item → others[place]? = some other →
        Reorders item other) :
      Reorders (.array items) (.array others)
  | object {members others : List (String × Json)} (names : (members.map Prod.fst).Perm (others.map Prod.fst))
      (each : ∀ (name : String) (value other : Json), (name, value) ∈ members → (name, other) ∈ others →
        Reorders value other) :
      Reorders (.object members) (.object others)

/-- Not an array and not an object. -/
def isScalar : Json → Bool
  | .array _ | .object _ => false
  | _ => true

section Reorders

variable {json other : Json} {items : List Json} {members : List (String × Json)}

theorem Reorders.eq_of_isScalar (reorders : json.Reorders other) (scalar : json.isScalar = true) : other = json := by
  cases reorders with
  | same => rfl
  | array | object => cases scalar

theorem Reorders.of_array (reorders : (Json.array items).Reorders other) :
    ∃ others, other = .array others ∧ items.length = others.length ∧
      ∀ (place : Nat) (item value : Json), items[place]? = some item → others[place]? = some value →
        item.Reorders value := by
  cases reorders with
  | same =>
    refine ⟨items, rfl, rfl, fun place item value here there => ?_⟩
    rw [Option.some.inj (here.symm.trans there)]
    exact .same value
  | array length each => exact ⟨_, rfl, length, each⟩

/-- Under distinct names the value of each name is the one that it had, up to order. -/
theorem Reorders.of_object (reorders : (Json.object members).Reorders other) (distinct : (members.map Prod.fst).Nodup) :
    ∃ others, other = .object others ∧ (members.map Prod.fst).Perm (others.map Prod.fst) ∧
      ∀ (name : String) (value given : Json), (name, value) ∈ members → (name, given) ∈ others →
        value.Reorders given := by
  cases reorders with
  | same =>
    refine ⟨members, rfl, .refl _, fun name value given member present => ?_⟩
    have equal := List.inj_on_of_nodup_map distinct member present rfl
    rw [(Prod.mk.inj equal).2]
    exact .same given
  | object names each => exact ⟨_, rfl, names, each⟩

/-- Without its first member an object is reordered as it was with it. -/
theorem reorders_filter {first : String × Json} {others : List (String × Json)}
    (reorders : (Json.object (first :: members)).Reorders (.object others))
    (distinct : (first.1 :: members.map Prod.fst).Nodup) :
    (Json.object members).Reorders (.object (others.filter fun member => member.1 ≠ first.1)) := by
  obtain ⟨_, same, names, each⟩ := reorders.of_object distinct
  cases same
  have absent : first.1 ∉ members.map Prod.fst := (List.nodup_cons.mp distinct).1
  have left : ((first :: members).map Prod.fst).filter (· ≠ first.1) = members.map Prod.fst := by
    rw [List.map_cons, List.filter_cons_of_neg (by simp), List.filter_eq_self]
    intro name member
    exact decide_eq_true fun same => absent (same ▸ member)
  refine .object ?_ fun name value other member present =>
    each name value other (List.mem_cons_of_mem _ member) (List.mem_filter.mp present).1
  have remaining := names.filter (· ≠ first.1)
  rw [left, List.filter_map] at remaining
  exact remaining

end Reorders

/-! ### Values that fit -/

/-- Values whose texts can be read: integers of 64 bits only, nothing unreadable, and no more than so many arrays and
objects inside each other. -/
inductive Fits : Nat → Json → Prop
  | null {room : Nat} : Fits room .null
  | bool {room : Nat} (value : Bool) : Fits room (.bool value)
  | integer {room : Nat} {value : Int} (low : -Int.pow 2 63 ≤ value) (high : value < Int.pow 2 64) :
      Fits room (.number (.integer value))
  | string {room : Nat} (value : String) : Fits room (.string value)
  | array {room : Nat} {items : List Json} (each : ∀ item ∈ items, Fits room item) : Fits (room + 1) (.array items)
  | object {room : Nat} {members : List (String × Json)}
      (each : ∀ name value, (name, value) ∈ members → Fits room value) : Fits (room + 1) (.object members)

section Fits

variable {json other : Json} {room : Nat}

theorem fits_nat {n : Nat} (small : n < UInt64.size) : Fits room (.nat n) := by
  refine .integer ?_ ?_
  · exact Int.le_trans (by decide) (Int.natCast_nonneg n)
  · exact Int.ofNat_lt.mpr small

theorem fits_ofOption_string (text : Option String) : Fits room (ofOption .string text) := by
  cases text with
  | none => exact .null
  | some text => exact .string text

theorem Fits.isScalar (fits : Fits 0 json) : json.isScalar = true := by
  cases fits <;> rfl

theorem Fits.mono (fits : Fits room json) {more : Nat} (le : room ≤ more) : Fits more json := by
  induction fits generalizing more with
  | null => exact .null
  | bool value => exact .bool value
  | integer low high => exact .integer low high
  | string value => exact .string value
  | array _ ih =>
    obtain ⟨left, rfl⟩ := Nat.exists_eq_succ_of_ne_zero (Nat.ne_zero_of_lt le)
    exact .array fun item member => ih item member (Nat.le_of_succ_le_succ le)
  | object _ ih =>
    obtain ⟨left, rfl⟩ := Nat.exists_eq_succ_of_ne_zero (Nat.ne_zero_of_lt le)
    exact .object fun name value member => ih name value member (Nat.le_of_succ_le_succ le)

theorem Fits.reorders (fits : Fits room json) (reorders : json.Reorders other) : Fits room other := by
  induction fits generalizing other with
  | null =>
    rw [reorders.eq_of_isScalar rfl]
    exact .null
  | bool value =>
    rw [reorders.eq_of_isScalar rfl]
    exact .bool value
  | integer low high =>
    rw [reorders.eq_of_isScalar rfl]
    exact .integer low high
  | string value =>
    rw [reorders.eq_of_isScalar rfl]
    exact .string value
  | array _ ih =>
    obtain ⟨others, rfl, length, each⟩ := reorders.of_array
    refine .array fun item member => ?_
    obtain ⟨place, inside, rfl⟩ := List.getElem_of_mem member
    have before := length ▸ inside
    exact ih _ (List.getElem_mem before) (each place _ _ (List.getElem?_eq_getElem before)
      (List.getElem?_eq_getElem inside))
  | object own ih =>
    -- Each member of the other object has the name of a member here, and so a value that fits.
    cases reorders with
    | same => exact .object own
    | object names each =>
      refine .object fun name value member => ?_
      have named := names.mem_iff.mpr (List.mem_map_of_mem member)
      obtain ⟨⟨_, source⟩, present, rfl⟩ := List.mem_map.mp named
      exact ih _ source present (each _ source value present member)

theorem mem_withoutItems {omission : Omission} {start : Nat} {items : List Json} {item : Json}
    (member : item ∈ withoutItems omission start items) :
    ∃ part, ∃ source ∈ items, item = without part source := by
  obtain ⟨place, found⟩ := List.mem_iff_getElem?.mp member
  rw [getElem?_withoutItems] at found
  obtain ⟨source, present, rfl⟩ := Option.map_eq_some_iff.mp found
  exact ⟨_, source, List.mem_of_getElem? present, rfl⟩

theorem mem_withoutMembers {omission : Omission} {members : List (String × Json)} {name : String} {value : Json}
    (member : (name, value) ∈ withoutMembers omission members) :
    ∃ source, (name, source) ∈ members ∧ value = without (omission.inside (.member name)) source := by
  induction members with
  | nil => cases member
  | cons first rest ih =>
    obtain ⟨other, given⟩ := first
    rw [withoutMembers] at member
    split at member
    next =>
      obtain ⟨source, present, same⟩ := ih member
      exact ⟨source, List.mem_cons_of_mem _ present, same⟩
    next =>
      cases member with
      | head => exact ⟨given, List.mem_cons_self, rfl⟩
      | tail _ later =>
        obtain ⟨source, present, same⟩ := ih later
        exact ⟨source, List.mem_cons_of_mem _ present, same⟩

theorem Fits.without (omission : Omission) (fits : Fits room json) : Fits room (json.without omission) := by
  induction fits generalizing omission with
  | null => exact .null
  | bool value => exact .bool value
  | integer low high => exact .integer low high
  | string value => exact .string value
  | array _ ih =>
    refine .array fun item member => ?_
    obtain ⟨part, source, present, rfl⟩ := mem_withoutItems member
    exact ih source present part
  | object _ ih =>
    refine .object fun name value member => ?_
    obtain ⟨source, present, rfl⟩ := mem_withoutMembers member
    exact ih name source present _

theorem canonicalItems?_of_forall {items : List Json} (each : ∀ item ∈ items, ∃ form, item.canonical? = some form) :
    ∃ forms, canonicalItems? items = some forms := by
  induction items with
  | nil => exact ⟨[], rfl⟩
  | cons item rest ih =>
    obtain ⟨form, first⟩ := each item List.mem_cons_self
    obtain ⟨forms, later⟩ := ih fun other member => each other (List.mem_cons_of_mem _ member)
    exact ⟨form :: forms, by rw [canonicalItems?, first, later]; rfl⟩

theorem canonicalMembers?_of_forall {members : List (String × Json)}
    (each : ∀ name value, (name, value) ∈ members → ∃ form, value.canonical? = some form)
    (sorted : List (String × Json)) : ∃ forms, canonicalMembers? members sorted = some forms := by
  induction members generalizing sorted with
  | nil => exact ⟨sorted, rfl⟩
  | cons member rest ih =>
    obtain ⟨name, value⟩ := member
    obtain ⟨form, first⟩ := each name value List.mem_cons_self
    rw [canonicalMembers?, first]
    exact ih (fun other given present => each other given (List.mem_cons_of_mem _ present)) _

/-- A value that fits has a canonical form. -/
theorem Fits.canonical (fits : Fits room json) : ∃ form, json.canonical? = some form := by
  induction fits with
  | null | bool | integer | string => exact ⟨_, rfl⟩
  | array _ ih =>
    obtain ⟨forms, same⟩ := canonicalItems?_of_forall ih
    exact ⟨.array forms, by rw [canonical?, same]; rfl⟩
  | object _ ih =>
    obtain ⟨forms, same⟩ := canonicalMembers?_of_forall ih []
    exact ⟨.object forms, by rw [canonical?, same]; rfl⟩

end Fits

end Dispatch.Json
