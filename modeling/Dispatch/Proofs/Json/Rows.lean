import Dispatch.Proofs.Json.Variants
/-!
How the fields of a record are found again among the members of an object, in whatever order these are and with some
of them left out; and the values that are read back from scalars and from arrays.
-/
namespace Dispatch.Json

variable {α : Type} {decode : Json → Option α}

/-- However the members in it are ordered, the value is decoded as so. -/
def ReadsAs (json : Json) (decode : Json → Option α) (value : α) : Prop :=
  ∀ other, json.Reorders other → decode other = some value

/-! ### Scalars -/

section Scalars

theorem without_of_isScalar {json : Json} (scalar : json.isScalar = true) (omission : Omission) :
    json.without omission = json := by
  cases json with
  | array | object => cases scalar
  | _ => rfl

theorem withoutMembers_of_isScalar {omission : Omission} (kept : ∀ name, omission.omits name = false)
    {members : List (String × Json)} (scalars : ∀ name value, (name, value) ∈ members → value.isScalar = true) :
    withoutMembers omission members = members := by
  induction members with
  | nil => rfl
  | cons member rest ih =>
    obtain ⟨name, value⟩ := member
    have later := ih fun name value member => scalars name value (List.mem_cons_of_mem _ member)
    rw [withoutMembers, if_neg (Bool.eq_false_iff.mp (kept name)), later,
      without_of_isScalar (scalars name value List.mem_cons_self)]

theorem readsAs_of_isScalar {json : Json} {value : α} (scalar : json.isScalar = true)
    (decoded : decode json = some value) : json.ReadsAs decode value := by
  intro other reorders
  rw [reorders.eq_of_isScalar scalar, decoded]

theorem asInt?_nat {n limit : Nat} (le : n ≤ limit) : asInt? 0 limit (.nat n) = some (n : Int) := by
  simp [asInt?, nat, le]

theorem asUInt16?_toNat (n : UInt16) : asUInt16? (.nat n.toNat) = some n := by
  have read := asInt?_nat (Nat.le_sub_one_of_lt n.toNat_lt)
  have limit : Int.pow 2 16 - 1 = ((2 ^ 16 - 1 : Nat) : Int) := rfl
  rw [asUInt16?, limit, read]
  simp

theorem asUInt32?_toNat (n : UInt32) : asUInt32? (.nat n.toNat) = some n := by
  have read := asInt?_nat (Nat.le_sub_one_of_lt n.toNat_lt)
  have limit : Int.pow 2 32 - 1 = ((2 ^ 32 - 1 : Nat) : Int) := rfl
  rw [asUInt32?, limit, read]
  simp

theorem asUInt64?_toNat (n : UInt64) : asUInt64? (.nat n.toNat) = some n := by
  have read := asInt?_nat (Nat.le_sub_one_of_lt n.toNat_lt)
  have limit : Int.pow 2 64 - 1 = ((2 ^ 64 - 1 : Nat) : Int) := rfl
  rw [asUInt64?, limit, read]
  simp

theorem nullable_ofOption_string (text : Option String) :
    Row.nullable asString? (ofOption .string text) = some text := by
  cases text <;> rfl

/-- Under distinct names a value is found by its name. -/
theorem asOneOf?_string [BEq α] {values : List α} {name : α → String} (distinct : (values.map name).Nodup) {value : α}
    (member : value ∈ values) : asOneOf? values name (.string (name value)) = some value := by
  have found : values.find? (fun other => name other == name value) = some value := by
    obtain ⟨given, present⟩ := Option.isSome_iff_exists.mp
      (List.find?_isSome (p := fun other => name other == name value).mpr ⟨value, member, beq_self_eq_true _⟩)
    have same := List.find?_some present
    rw [present, List.inj_on_of_nodup_map distinct (List.mem_of_find?_eq_some present) member (eq_of_beq same)]
  exact found

end Scalars

/-! ### Arrays -/

theorem mapM_eq_some {β : Type} {f : β → Option α} {items : List β} {values : List α}
    (length : items.length = values.length)
    (each : ∀ (place : Nat) (item : β) (value : α), items[place]? = some item → values[place]? = some value →
      f item = some value) : items.mapM f = some values := by
  induction items generalizing values with
  | nil =>
    rw [List.length_eq_zero_iff.mp length.symm]
    rfl
  | cons item rest ih =>
    cases values with
    | nil => cases length
    | cons value others =>
      have first : f item = some value := each 0 item value rfl rfl
      have later := ih (Nat.succ.inj length) fun place other given here there =>
        each (place + 1) other given here there
      simp [List.mapM_cons, first, later]

theorem readsAs_array {items : List Json} {values : List α} (length : items.length = values.length)
    (each : ∀ (place : Nat) (item : Json) (value : α), items[place]? = some item → values[place]? = some value →
      item.ReadsAs decode value) : (Json.array items).ReadsAs (asList? decode) values := by
  intro other reorders
  obtain ⟨others, rfl, same, parts⟩ := reorders.of_array
  refine mapM_eq_some (same.symm.trans length) fun place given value here there => ?_
  have inside : place < items.length := by
    rw [same]
    exact (List.getElem?_eq_some_iff.mp here).1
  have source := List.getElem?_eq_getElem inside
  exact each place _ value source there given (parts place _ given source here)

/-! ### Records -/

/-- A row whose cells are the members of an object, in some order, without those that are left out. -/
structure Row.Mirrors (row : Row) (omission : Omission) (members : List (String × Json)) : Prop where
  absent : ∀ {name : String}, omission.omits name = true → row.cell? name = none
  present : ∀ {name : String} {value : Json}, lookup name members = some value → omission.omits name = false →
    ∃ cell, row.cell? name = some cell ∧ (value.without (omission.inside (.member name))).Reorders cell

section Records

/-- A field that is read is handed to what reads the others. -/
theorem bind_of_eq_some {β : Type} {field : Option α} {value : α} (read : field = some value) (next : α → Option β) :
    (field >>= next) = next value := by
  rw [read]
  rfl

variable {row : Row} {omission : Omission} {members : List (String × Json)}

/-- An object is opened as a record whose cells are its members. -/
theorem exists_row_of_reorders (names : List String) (distinct : (members.map Prod.fst).Nodup) {other : Json}
    (reorders : ((Json.object members).without omission).Reorders other) :
    ∃ row, Row.open? names other = some row ∧ row.Mirrors omission members := by
  have kept := distinct_withoutMembers omission distinct
  obtain ⟨others, rfl, same, parts⟩ := reorders.of_object kept
  have distinct' : (others.map Prod.fst).Nodup := same.nodup_iff.mp kept
  have once : (names.any fun name => 1 < Row.occurrences name others) = false := by
    rw [List.any_eq_false]
    intro name _
    rw [occurrences_eq_count, decide_eq_true_eq, Nat.not_lt]
    exact List.nodup_iff_count_le_one.mp distinct' name
  refine ⟨{ positional := false, cells := others }, by simp [Row.open?, once], ?_, ?_⟩
  · intro name left
    have source := lookup_withoutMembers omission name members
    rw [if_pos left, lookup_eq_none_iff, same.mem_iff] at source
    exact lookup_eq_none_iff.mpr source
  · intro name value found left
    have source : lookup name (withoutMembers omission members) =
        some (value.without (omission.inside (.member name))) := by
      rw [lookup_withoutMembers, found, left]
      rfl
    have named := same.mem_iff.mp (List.mem_map_of_mem (mem_of_lookup source))
    obtain ⟨⟨_, cell⟩, member, rfl⟩ := List.mem_map.mp named
    exact ⟨cell, lookup_of_mem distinct' member, parts _ _ cell (mem_of_lookup source) member⟩

variable {name : String} {given : Json} {value : α}

theorem Row.Mirrors.required (mirrors : row.Mirrors omission members) (found : lookup name members = some given)
    (kept : omission.omits name = false)
    (reads : (given.without (omission.inside (.member name))).ReadsAs decode value) :
    row.required name decode = some value := by
  obtain ⟨cell, here, reorders⟩ := mirrors.present found kept
  rw [Row.required, here, Option.bind_some, reads cell reorders]

theorem Row.Mirrors.defaulted (mirrors : row.Mirrors omission members) (found : lookup name members = some given)
    (fallback : α) (reads : (given.without (omission.inside (.member name))).ReadsAs decode value) :
    row.defaulted name fallback decode = some (omission.choose name fallback value) := by
  cases left : omission.omits name with
  | true => simp [Row.defaulted, mirrors.absent left, Omission.choose, left]
  | false =>
    obtain ⟨cell, here, reorders⟩ := mirrors.present found left
    simp [Row.defaulted, here, reads cell reorders, Omission.choose, left]

theorem Row.Mirrors.required_scalar (mirrors : row.Mirrors omission members) (found : lookup name members = some given)
    (kept : omission.omits name = false) (scalar : given.isScalar = true) (decoded : decode given = some value) :
    row.required name decode = some value := by
  refine mirrors.required found kept ?_
  rw [without_of_isScalar scalar]
  exact readsAs_of_isScalar scalar decoded

theorem Row.Mirrors.defaulted_scalar (mirrors : row.Mirrors omission members) (found : lookup name members = some given)
    (fallback : α) (scalar : given.isScalar = true) (decoded : decode given = some value) :
    row.defaulted name fallback decode = some (omission.choose name fallback value) := by
  refine mirrors.defaulted found fallback ?_
  rw [without_of_isScalar scalar]
  exact readsAs_of_isScalar scalar decoded

end Records

end Dispatch.Json
