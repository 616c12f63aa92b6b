import Modbus.Proofs.Identification.Paging

/-!
# What can be stored can be served

Objects are offered to an identity one after the other, and those with a reserved id or with too
many bytes are refused.  `Identity.object_offered` says what is stored in the end: under each id the
last of the objects that can be stored, as if the others had never been offered.

The size that is allowed for an object is what the smallest PDU leaves for it, so every table that
was filled in this way can be served in full (`Identity.servable_of_offers`).  A stream has a page
from wherever it is asked for (`Identity.Built.page_of_stream`), a single object has a page of its
own (`Identity.Built.page_individual`), and the level that a page states is that of the highest
category with an object (`Identity.Built.isHighest_level`).
-/

namespace Modbus

/-! ## Offers -/

/-- **An object that can be stored.** -/
def Object.isStorable (object : Object) : Bool :=
  !isReserved object.id && object.data.length ≤ maxObjectSize

namespace Identity

/-- **An object offered**: it is stored, or it is refused and nothing changes. -/
def offer (identity : Identity) (object : Object) : Identity :=
  match identity.set object.id object.data with
  | .ok after => after
  | .error _ => identity

/-- **The identity that has been offered objects**, one after the other. -/
def offered (offers : List Object) : Identity :=
  offers.foldl offer empty

variable {identity : Identity}

lemma set_of_storable {object : Object} (h : object.isStorable = true) :
    identity.set object.id object.data = .ok
      ⟨fun id => if id = object.id then some object.data else identity.object id⟩ := by
  simp only [Object.isStorable, Bool.and_eq_true, Bool.not_eq_true', decide_eq_true_eq] at h
  rw [set, if_neg (by simp [h.1]), if_neg (Nat.not_lt.mpr h.2)]

lemma set_of_refused {object : Object} (h : object.isStorable = false) :
    ∃ error, identity.set object.id object.data = .error error := by
  rw [set]
  split_ifs with hreserved hlarge
  · exact ⟨_, rfl⟩
  · exact ⟨_, rfl⟩
  · simp [Object.isStorable, hreserved, Nat.le_of_not_lt hlarge] at h

/-- **A refused offer leaves the table as it was**, and an accepted one changes a single entry. -/
lemma object_offer (identity : Identity) (object : Object) (id : UInt8) :
    (identity.offer object).object id
      = if object.isStorable ∧ object.id = id then some object.data else identity.object id := by
  cases h : object.isStorable with
  | true =>
      simp only [offer, set_of_storable h, true_and, eq_comm]
  | false =>
      obtain ⟨error, herror⟩ := @set_of_refused identity object h
      simp [offer, herror]

lemma object_foldl_offer (id : UInt8) : ∀ (offers : List Object) (identity : Identity),
    (offers.foldl offer identity).object id
      = (((offers.filter Object.isStorable).reverse.find? fun object => object.id == id).map
          Object.data).or (identity.object id)
  | [], _ => rfl
  | object :: later, identity => by
      rw [List.foldl_cons, object_foldl_offer id later, object_offer]
      cases h : object.isStorable with
      | false => simp [h]
      | true =>
          by_cases hid : object.id = id
          · simp [h, hid, List.find?_append]
          · simp [h, hid, List.find?_append]

/-- **What is stored in the end** is the last that can be stored under each id. -/
lemma object_offered (offers : List Object) (id : UInt8) :
    (offered offers).object id
      = ((offers.filter Object.isStorable).reverse.find? fun object => object.id == id).map
          Object.data := by
  rw [offered, object_foldl_offer]
  exact Option.or_none

/-- Offers build an identity. -/
lemma built_offered (offers : List Object) : (offered offers).Built := by
  suffices h : ∀ identity : Identity, identity.Built → (offers.foldl offer identity).Built from
    h empty .empty
  induction offers with
  | nil => exact fun _ h => h
  | cons object later ih =>
      intro identity h
      refine ih _ ?_
      cases hset : identity.set object.id object.data with
      | ok after =>
          rw [offer, hset]
          exact h.set hset
      | error error =>
          rw [offer, hset]
          exact h

/-! ## Single objects -/

lemma entries_self {id : UInt8} {data : Bytes} (h : identity.object id = some data) :
    identity.entries id id = [⟨id, data⟩] := by
  refine entries_eq_of_mem_iff (List.pairwise_singleton _ _) fun object => ?_
  rw [mem_entries, List.mem_singleton]
  constructor
  · rintro ⟨hstored, hfrom, hto⟩
    obtain rfl := UInt8.le_antisymm hfrom hto
    rw [Option.some.inj (h.symm.trans hstored)]
  · rintro rfl
    exact ⟨h, UInt8.le_refl _, UInt8.le_refl _⟩

/-- **A single object has a page of its own**, on which nothing follows. -/
lemma Built.page_individual (h : Built identity) {id : UInt8} {data : Bytes} {maxPdu : Nat}
    (hmax : Limit.maxPdu ≤ maxPdu) (hstored : identity.object id = some data) :
    identity.page .individual id maxPdu
      = .ok ⟨.individual, identity.conformity, false, 0x00, [⟨id, data⟩]⟩ := by
  have hentries := entries_self hstored
  have hfits : (⟨id, data⟩ : Object).size ≤ maxPdu - identificationHeader :=
    h.size_le (hentries ▸ List.mem_singleton_self _) hmax
  have hfilter := h.filter_entries id id
  rw [hentries] at hfilter
  simp only [page, start?, hstored, Category.lastObject, hentries, hfilter, Object.fitting,
    if_pos hfits]
  rfl

lemma page_of_missing {id : UInt8} (hmissing : identity.object id = none) (maxPdu : Nat) :
    identity.page .individual id maxPdu = .error .illegalDataAddress := by
  simp only [page, start?, hmissing]

/-! ## The level -/

/-- **The category that an object is of**: the first whose ceiling it does not exceed. -/
def categoryOf (id : UInt8) : Category :=
  if id ≤ Category.basic.lastObject id then .basic
  else if id ≤ Category.regular.lastObject id then .regular
  else .extended

/-- **The highest category that has a stored object**, and the basic one if nothing is stored. -/
structure IsHighest (identity : Identity) (category : Category) : Prop where
  reached : category = .basic ∨
    ∃ id data, identity.object id = some data ∧ categoryOf id = category
  highest : ∀ id data, identity.object id = some data → (categoryOf id).code ≤ category.code

lemma any_objects (test : UInt8 → Bool) :
    (identity.objects.any fun object => test object.id) = true ↔
      ∃ id data, identity.object id = some data ∧ test id = true := by
  have hlast (id : UInt8) : id ≤ 0xFF := UInt8.le_iff_toNat_le.mpr (Nat.le_of_lt_succ id.toNat_lt)
  rw [List.any_eq_true]
  constructor
  · rintro ⟨object, hobject, htest⟩
    exact ⟨object.id, object.data, (mem_entries.mp hobject).1, htest⟩
  · rintro ⟨id, data, hstored, htest⟩
    exact ⟨⟨id, data⟩, mem_entries.mpr ⟨hstored, UInt8.zero_le, hlast id⟩, htest⟩

/-- What is above the regular ceiling is reserved or a vendor's object. -/
lemma categoryOf_eq_extended {id : UInt8} (hplain : Object.isReserved id = false) :
    categoryOf id = .extended ↔ Object.isExtended id = true := by
  have hid : ¬ (7 ≤ id.toNat ∧ id.toNat ≤ 127) := by
    simpa [Object.isReserved, UInt8.le_iff_toNat_le] using hplain
  rw [categoryOf, Object.isExtended]
  split_ifs with hbasic hregular <;>
    simp [Category.lastObject, UInt8.le_iff_toNat_le] at * <;> omega

lemma categoryOf_eq_regular (id : UInt8) :
    categoryOf id = .regular ↔ (decide (0x03 ≤ id) && decide (id ≤ 0x06)) = true := by
  rw [categoryOf]
  split_ifs with hbasic hregular <;>
    simp [Category.lastObject, UInt8.le_iff_toNat_le] at * <;> omega

lemma code_categoryOf_le (id : UInt8) : (categoryOf id).code ≤ Category.extended.code := by
  rw [categoryOf]
  split_ifs <;> decide

/-- An object of neither of the higher categories is a basic one. -/
lemma categoryOf_eq_basic {id : UInt8} (hextended : categoryOf id ≠ .extended)
    (hregular : categoryOf id ≠ .regular) : categoryOf id = .basic := by
  rw [categoryOf] at *
  split_ifs at * with hbasic hwithin
  · rfl
  · exact absurd rfl hregular
  · exact absurd rfl hextended

/-- **The level is that of the highest category** with an object. -/
lemma Built.isHighest_level (h : Built identity) : IsHighest identity identity.level := by
  have hextended : (identity.objects.any fun object => Object.isExtended object.id) = true ↔
      ∃ id data, identity.object id = some data ∧ categoryOf id = .extended := by
    rw [any_objects]
    refine exists_congr fun id => exists_congr fun data => and_congr_right fun hstored => ?_
    rw [categoryOf_eq_extended (h.object hstored).1]
  have hregular : (identity.objects.any fun object =>
      decide (0x03 ≤ object.id) && decide (object.id ≤ 0x06)) = true ↔
        ∃ id data, identity.object id = some data ∧ categoryOf id = .regular := by
    simp only [any_objects fun id => decide (0x03 ≤ id) && decide (id ≤ 0x06),
      categoryOf_eq_regular]
  rw [level]
  split_ifs with hany hanyRegular
  · exact ⟨.inr (hextended.mp hany), fun id _ _ => code_categoryOf_le id⟩
  · have hnone := mt hextended.mpr hany
    refine ⟨.inr (hregular.mp hanyRegular), fun id data hstored => ?_⟩
    by_cases hid : categoryOf id = .regular
    · rw [hid]
      exact UInt8.le_refl _
    · rw [categoryOf_eq_basic (fun hother => hnone ⟨id, data, hstored, hother⟩) hid]
      decide
  · have hnone := mt hextended.mpr hany
    have hnoneRegular := mt hregular.mpr hanyRegular
    refine ⟨.inl rfl, fun id data hstored => ?_⟩
    rw [categoryOf_eq_basic (fun hother => hnone ⟨id, data, hstored, hother⟩)
      (fun hother => hnoneRegular ⟨id, data, hstored, hother⟩)]
    exact UInt8.le_refl _

/-! ## Serving -/

/-- **An identity that can be served**: what is stored fits, and every access to it gets the answer
that it should, in a PDU of the smallest size or a larger one. -/
structure Servable (identity : Identity) : Prop where
  stored : ∀ id data, identity.object id = some data →
    ¬ (0x07 ≤ id ∧ id ≤ 0x7F) ∧ data.length ≤ 244
  answered : ∀ category first maxPdu, Limit.maxPdu ≤ maxPdu → ∀ function,
    identity.answer category first maxPdu ≠ .exception function .slaveDeviceFailure
  single : ∀ id data maxPdu, Limit.maxPdu ≤ maxPdu → identity.object id = some data →
    identity.answer .individual id maxPdu
      = .identification ⟨.individual, identity.conformity, false, 0x00, [⟨id, data⟩]⟩
  missing : ∀ id maxPdu, identity.object id = none →
    identity.answer .individual id maxPdu
      = .exception Function.identify.code .illegalDataAddress
  level : ∃ category, identity.IsHighest category ∧ identity.conformity = 0x80 ||| category.code

lemma Built.servable (h : Built identity) : Servable identity where
  stored id data hstored := by
    obtain ⟨hplain, hsize⟩ := h.object hstored
    exact ⟨by simpa [Object.isReserved] using hplain, hsize⟩
  answered category first maxPdu hmax function := by
    by_cases hstream : category = .individual
    · subst hstream
      cases hstored : identity.object first with
      | none => simp [answer, page_of_missing hstored]
      | some data => simp [answer, h.page_individual hmax hstored]
    · obtain ⟨page, rest, hpage⟩ := h.page_of_stream hstream first hmax
      simp [answer, hpage.given]
  single id data maxPdu hmax hstored := by rw [answer, h.page_individual hmax hstored]
  missing id maxPdu hmissing := by rw [answer, page_of_missing hmissing]
  level := ⟨identity.level, h.isHighest_level, rfl⟩

/-- **Whatever is offered, what is stored can be served.**  An offer that is refused changes
nothing, under each id stands the last object offered that can be stored, and the identity answers
every access: a stream never fails, a single object is read in one page if it is there and is an
illegal address if it is not, and the conformity is that of the highest category with an object. -/
theorem servable_of_offers (offers : List Object) :
    (∀ object error, (offered offers).set object.id object.data = .error error →
      offered (offers ++ [object]) = offered offers) ∧
    (∀ id, (offered offers).object id
      = ((offers.filter Object.isStorable).reverse.find? fun object => object.id == id).map
          Object.data) ∧
    (offered offers).Servable := by
  refine ⟨fun object error hrefused => ?_, object_offered offers, (built_offered offers).servable⟩
  rw [offered, List.foldl_append, List.foldl_cons, List.foldl_nil, ← offered, offer, hrefused]

/-- The largest object that can be stored is read back in a PDU of the smallest size; one byte more
is refused, and so is a reserved id. -/
theorem largest_object_served :
    let largest : Object := ⟨0x80, List.replicate 244 0x41⟩
    let refused : Object := ⟨0x80, List.replicate 245 0x42⟩
    let identity := offered [largest, ⟨0x7F, []⟩, refused]
    (offered [largest, ⟨0x7F, []⟩]).set refused.id refused.data
        = .error (.outOfRange (.oversizedObject 0x80 245)) ∧
      identity = offered [largest, ⟨0x7F, []⟩] ∧
      identity.answer .individual 0x80 253
        = .identification ⟨.individual, identity.conformity, false, 0x00, [largest]⟩ := by
  intro largest refused identity
  have hrefused : (offered [largest, ⟨0x7F, []⟩]).set refused.id refused.data
      = .error (.outOfRange (.oversizedObject 0x80 245)) := by
    rw [set, if_neg (by decide), List.length_replicate, if_pos (by decide)]
  obtain ⟨hunchanged, hobject, hserved⟩ := servable_of_offers [largest, ⟨0x7F, []⟩]
  have hsame : identity = offered [largest, ⟨0x7F, []⟩] := hunchanged refused _ hrefused
  have hstored : (offered [largest, ⟨0x7F, []⟩]).object 0x80 = some largest.data := by
    rw [hobject]
    decide +kernel
  refine ⟨hrefused, hsame, ?_⟩
  rw [hsame]
  exact hserved.single 0x80 largest.data 253 (Nat.le_refl _) hstored

end Identity

end Modbus
