import Dispatch.Cloud.Handle
import Dispatch.Proofs.Text.Numeral
/-!
Handles of jobs and their texts. The text joins the parts and escapes nothing, so it can be read back exactly if no
part holds the separator, and what is read from it is never anything but the handle itself.
-/
namespace Dispatch.Cloud

namespace Handle

/-- Neither the account nor the address, which are chosen by others, holds the separator. -/
def IsPlain (handle : Handle) : Prop := '@' ∉ handle.vmUser.toList ∧ '@' ∉ handle.vmAddress.toList

instance (handle : Handle) : Decidable handle.IsPlain := inferInstanceAs (Decidable (_ ∧ _))

/-- A handle of a machine with that number, with no part left empty. -/
structure IsOf (handle : Handle) (vm : Int) : Prop where
  vmId : handle.vmId = toString vm
  user : handle.vmUser ≠ ""
  address : handle.vmAddress ≠ ""

theorem toList_text (handle : Handle) : handle.text.toList = (toString handle.pid).toList ++
    '@' :: (handle.vmUser.toList ++ '@' :: (handle.vmAddress.toList ++ '@' :: handle.vmId.toList)) := by
  simp [text, String.toList_append, toString]

/-- The fault of a text that is no handle. -/
def malformed (text : String) : Backend.Fault :=
  .invalidParameter s!"Bad job handle '{text}': expected pid@vmUser@vmAddress@vmId"

theorem read_of_some {text : String} {handle : Handle} (read : read? text = some handle) :
    Handle.read text = .ok handle := by
  rw [Handle.read, read]

theorem read_of_none {text : String} (unread : read? text = none) : Handle.read text = .error (malformed text) := by
  rw [Handle.read, unread]
  rfl

variable {handle : Handle} {vm : Int}

theorem IsOf.read?_text (isOf : handle.IsOf vm) (plain : handle.IsPlain) : read? handle.text = some handle := by
  have number : '@' ∉ handle.vmId.toList := isOf.vmId ▸ Text.not_mem_toString_int vm
  have split : Text.fields '@' handle.text.toList =
      [(toString handle.pid).toList, handle.vmUser.toList, handle.vmAddress.toList, handle.vmId.toList] := by
    rw [toList_text, Text.fields_append (Text.not_mem_toString_uint32 _), Text.fields_append plain.1,
      Text.fields_append plain.2, Text.fields_of_absent number]
  have filled : handle.vmId.toList ≠ [] := isOf.vmId ▸ Text.toString_int_ne_empty vm
  have user : handle.vmUser.toList ≠ [] := fun empty => isOf.user (String.toList_inj.mp empty)
  have address : handle.vmAddress.toList ≠ [] := fun empty => isOf.address (String.toList_inj.mp empty)
  rw [read?, split]
  simp [user, address, filled, Text.readUInt32?_toString]

/-- A separator too many makes too many fields. -/
theorem read?_text_of_not_isPlain (others : ¬ handle.IsPlain) : read? handle.text = none := by
  have more : 4 < (Text.fields '@' handle.text.toList).length := by
    rw [Text.length_fields, toList_text]
    simp only [List.count_append, List.count_cons_self]
    by_cases user : '@' ∈ handle.vmUser.toList
    · have := List.count_pos_iff.mpr user
      omega
    · have address : '@' ∈ handle.vmAddress.toList :=
        Decidable.byContradiction fun absent => others ⟨user, absent⟩
      have := List.count_pos_iff.mpr address
      omega
  unfold read?
  split
  next split => simp [split] at more
  next => rfl

/-- The text of a handle is read as this handle or not at all. -/
theorem IsOf.eq_of_read (isOf : handle.IsOf vm) {other : Handle} (read : Handle.read handle.text = .ok other) :
    other = handle := by
  by_cases plain : handle.IsPlain
  · rw [read_of_some (isOf.read?_text plain)] at read
    exact (Except.ok.inj read).symm
  · rw [read_of_none (read?_text_of_not_isPlain plain)] at read
    cases read

theorem IsOf.readVmId (isOf : handle.IsOf vm) (low : -Int.pow 2 63 ≤ vm) (high : vm ≤ Int.pow 2 63 - 1) :
    readVmId handle.vmId = .ok vm := by
  rw [Cloud.readVmId, isOf.vmId, Text.readInt64?_toString low high]

theorem vmIdOf_text (handle : Handle) :
    vmIdOf handle.text = (do
      let job ← Handle.read handle.text
      Cloud.readVmId job.vmId) := by
  have joined : handle.text.toList.contains '@' = true := by
    rw [List.contains_iff_mem, toList_text]
    simp
  rw [vmIdOf, if_pos joined]

end Handle

/-- The machine of a handle that can be read is the one that the handle names. -/
theorem vmIdOf_of_read {text : String} {handle : Handle} (read : Handle.read text = .ok handle) :
    vmIdOf text = readVmId handle.vmId := by
  unfold vmIdOf
  split
  next =>
    rw [read]
    rfl
  next absent =>
    have single := Text.fields_of_absent fun member => absent (List.contains_iff_mem.mpr member)
    simp [Handle.read, Handle.read?, single] at read

end Dispatch.Cloud
