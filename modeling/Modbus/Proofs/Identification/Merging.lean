import Mathlib.Tactic.Common
import Modbus.Identification.Fragment

/-!
# What merging comes to

A client merges the pages of an identification one after the other, and each page object by object.
Page boundaries leave no trace in what it ends up with (`Identification.foldl_merge`): it is as if
the objects of all pages had been added in one go.  What adding objects comes to is then said for
each part of an identification: the standard objects, which `Identification.text?` names by their
ids, hold the text of the object that was added under their id (`text?_foldl_of_mem`,
`text?_foldl_of_ne`), and the vendor's own objects stand in the order in which they were added
(`extended_foldl`).
-/

namespace Modbus.Identification

variable {identification : Identification}

/-- **The text of a standard object.** -/
def text? (identification : Identification) : UInt8 → Option String
  | 0x00 => identification.vendorName
  | 0x01 => identification.productCode
  | 0x02 => identification.revision
  | 0x03 => identification.vendorUrl
  | 0x04 => identification.productName
  | 0x05 => identification.modelName
  | 0x06 => identification.applicationName
  | _ => none

/-! ## One object -/

lemma eq_of_standard {id : UInt8} (hid : id ≤ 0x06) :
    id = 0x00 ∨ id = 0x01 ∨ id = 0x02 ∨ id = 0x03 ∨ id = 0x04 ∨ id = 0x05 ∨ id = 0x06 := by
  rw [UInt8.le_iff_toNat_le] at hid
  simp only [← UInt8.toNat_inj, UInt8.reduceToNat] at hid ⊢
  omega

/-- **A standard object replaces the text under its id**, and no other. -/
lemma text?_add (object : Object) {id : UInt8} (hid : id ≤ 0x06) :
    (identification.add object).text? id
      = if object.id = id then some (Text.lossy object.data) else identification.text? id := by
  rcases eq_of_standard hid with rfl | rfl | rfl | rfl | rfl | rfl | rfl
  all_goals
    simp only [add]
    split <;> simp_all [text?]
    split_ifs <;> rfl

lemma extended_add (object : Object) :
    (identification.add object).extended
      = identification.extended ++ [object].filter fun added => Object.isExtended added.id := by
  simp only [add, List.filter_cons, List.filter_nil]
  split
  case h_8 => split_ifs <;> simp
  all_goals simp_all [Object.isExtended]

lemma add_individualAccess (object : Object) (access : Bool) :
    { identification with individualAccess := access }.add object
      = { identification.add object with individualAccess := access } := by
  simp only [add]
  split <;> first | rfl | (split_ifs <;> rfl)

/-! ## Many objects -/

lemma foldl_add_individualAccess (objects : List Object) (access : Bool) :
    objects.foldl add { identification with individualAccess := access }
      = { objects.foldl add identification with individualAccess := access } := by
  induction objects generalizing identification with
  | nil => rfl
  | cons object later ih => rw [List.foldl_cons, add_individualAccess, ih, List.foldl_cons]

lemma extended_foldl (objects : List Object) :
    (objects.foldl add identification).extended
      = identification.extended ++ objects.filter fun object => Object.isExtended object.id := by
  induction objects generalizing identification with
  | nil => simp
  | cons object later ih =>
      rw [List.foldl_cons, ih, extended_add, List.append_assoc, ← List.filter_append,
        List.singleton_append]

/-- An id that no object has keeps its text. -/
lemma text?_foldl_of_ne {objects : List Object} {id : UInt8} (hid : id ≤ 0x06)
    (hne : ∀ object ∈ objects, object.id ≠ id) :
    (objects.foldl add identification).text? id = identification.text? id := by
  induction objects generalizing identification with
  | nil => rfl
  | cons object later ih =>
      obtain ⟨hobject, hlater⟩ := List.forall_mem_cons.mp hne
      rw [List.foldl_cons, ih hlater, text?_add object hid, if_neg hobject]

/-- **An id that one object has** gets the text of that object. -/
lemma text?_foldl_of_mem {objects : List Object} {object : Object}
    (hsorted : objects.Pairwise fun a b => a.id < b.id) (hobject : object ∈ objects)
    (hid : object.id ≤ 0x06) :
    (objects.foldl add identification).text? object.id = some (Text.lossy object.data) := by
  induction objects generalizing identification with
  | nil => simp at hobject
  | cons first later ih =>
      obtain ⟨hfirst, hlater⟩ := List.pairwise_cons.mp hsorted
      rw [List.foldl_cons]
      rcases List.mem_cons.mp hobject with rfl | hin
      · rw [text?_foldl_of_ne hid fun other hother => (UInt8.ne_of_lt (hfirst other hother)).symm,
          text?_add object hid, if_pos rfl]
      · exact ih hlater hin

/-! ## Many pages -/

/-- **Page boundaries leave no trace.** -/
lemma foldl_merge (fragments : List Fragment) :
    fragments.foldl merge identification
      = { (fragments.flatMap Fragment.objects).foldl add identification with
          individualAccess := identification.individualAccess
            || fragments.any Fragment.individualAccess } := by
  induction fragments generalizing identification with
  | nil => simp
  | cons fragment later ih =>
      rw [List.foldl_cons, ih, List.flatMap_cons, List.foldl_append, merge]
      simp only [foldl_add_individualAccess, List.any_cons, Bool.or_assoc]

end Modbus.Identification
