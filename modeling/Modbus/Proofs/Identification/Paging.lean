import Mathlib.Algebra.GroupWithZero.Nat
import Mathlib.Data.List.Sort
import Modbus.Response

/-!
# The pages of an identification

A device answers an access to its identification with as many objects as fit into one PDU and names
the object that the next access has to begin with.  `Identity.Pages` is the chain of pages that a
reader comes by who does as told, from a given object on.

The lemmas follow one page.  `Object.fitting_eq` says what is taken from a list of objects and what
is left, `Identity.page_of_stream` that a page of a stream is the beginning of what is stored from
its start on, and `Identity.entries_of_append` that the next page starts where this one stopped.
Each page takes at least one object, because no stored object is larger than the smallest PDU allows
(`Identity.Built`), so the chain ends, and it has every object once
(`Identity.Pages.flatMap_objects`).
-/

namespace Modbus

/-! ## As many objects as fit -/

namespace Object

/-- The bytes that objects take together. -/
def totalSize (objects : List Object) : Nat :=
  (objects.map size).sum

/-- **What is taken fits**, and what is left begins with the object that is named. -/
lemma fitting_eq : ∀ (room : Nat) (objects : List Object), ∃ taken rest,
    fitting room objects = (taken, rest.head?.map Object.id) ∧ objects = taken ++ rest ∧
      totalSize taken ≤ room
  | _, [] => ⟨[], [], rfl, rfl, Nat.zero_le _⟩
  | room, object :: later => by
      by_cases hfits : object.size ≤ room
      · obtain ⟨taken, rest, hfitting, hall, hsize⟩ := fitting_eq (room - object.size) later
        refine ⟨object :: taken, rest, ?_, ?_, ?_⟩
        · simp [fitting, hfits, hfitting]
        · rw [hall, List.cons_append]
        · simp only [totalSize, List.map_cons, List.sum_cons] at hsize ⊢
          omega
      · exact ⟨[], object :: later, by simp [fitting, hfits], rfl, Nat.zero_le _⟩

/-- An object that fits is taken. -/
lemma fitting_ne_nil {room : Nat} {object : Object} (later : List Object)
    (hfits : object.size ≤ room) : (fitting room (object :: later)).1 ≠ [] := by
  simp [fitting, hfits]

end Object

namespace Identity

variable {identity : Identity}

/-! ## What can be stored -/

/-- **An identity that objects were stored in**, one after the other. -/
inductive Built : Identity → Prop where
  | empty : Built Identity.empty
  | set {before after : Identity} {id : UInt8} {data : Bytes} (hbefore : Built before)
      (hset : before.set id data = .ok after) : Built after

lemma Built.object (h : Built identity) {id : UInt8} {data : Bytes}
    (hobject : identity.object id = some data) :
    Object.isReserved id = false ∧ data.length ≤ maxObjectSize := by
  induction h with
  | empty => simp [Identity.empty] at hobject
  | @set before after stored content hbefore hset ih =>
      simp only [Identity.set] at hset
      split_ifs at hset with hreserved hlarge
      simp only [Except.ok.injEq] at hset
      subst hset
      simp only at hobject
      split_ifs at hobject with hid
      · simp only [Option.some.injEq] at hobject
        subst hid hobject
        exact ⟨by simpa using hreserved, Nat.le_of_not_lt hlarge⟩
      · exact ih hobject

/-! ## The stored objects in order -/

lemma pairwise_allIds : allIds.Pairwise (· < ·) := by
  rw [allIds, List.pairwise_map]
  refine List.pairwise_lt_range.imp_of_mem fun {a b} ha hb hlt => ?_
  rw [List.mem_range] at ha hb
  rw [UInt8.lt_iff_toNat_lt, UInt8.toNat_ofNat', UInt8.toNat_ofNat']
  omega

lemma mem_allIds (id : UInt8) : id ∈ allIds :=
  List.mem_map.mpr ⟨id.toNat, List.mem_range.mpr id.toNat_lt, UInt8.ofNat_toNat⟩

lemma object?_eq_some {id : UInt8} {object : Object} :
    identity.object? id = some object ↔ object.id = id ∧ identity.object id = some object.data := by
  simp only [object?, Option.map_eq_some_iff]
  constructor
  · rintro ⟨data, hdata, rfl⟩
    exact ⟨rfl, hdata⟩
  · rintro ⟨rfl, hdata⟩
    exact ⟨object.data, hdata, rfl⟩

/-- **The entries are the stored objects** of a range. -/
lemma mem_entries {first last : UInt8} {object : Object} :
    object ∈ identity.entries first last ↔
      identity.object object.id = some object.data ∧ first ≤ object.id ∧ object.id ≤ last := by
  simp only [entries, List.mem_filterMap, List.mem_filter, mem_allIds, true_and, Bool.and_eq_true,
    decide_eq_true_eq, object?_eq_some]
  constructor
  · rintro ⟨id, hrange, rfl, hdata⟩
    exact ⟨hdata, hrange⟩
  · rintro ⟨hdata, hrange⟩
    exact ⟨object.id, hrange, rfl, hdata⟩

/-- **The entries go up.** -/
lemma pairwise_entries (identity : Identity) (first last : UInt8) :
    (identity.entries first last).Pairwise fun a b => a.id < b.id := by
  rw [entries, List.pairwise_filterMap]
  refine (pairwise_allIds.filter _).imp fun {a b} hlt x hx y hy => ?_
  rw [(object?_eq_some.mp hx).1, (object?_eq_some.mp hy).1]
  exact hlt

/-- A list that goes up is known by its members. -/
lemma entries_eq_of_mem_iff {first last : UInt8} {objects : List Object}
    (hsorted : objects.Pairwise fun a b => a.id < b.id)
    (h : ∀ object, object ∈ identity.entries first last ↔ object ∈ objects) :
    identity.entries first last = objects := by
  have : Std.Irrefl fun a b : Object => a.id < b.id := ⟨fun _ => UInt8.lt_irrefl _⟩
  have : Std.Antisymm fun a b : Object => a.id < b.id :=
    ⟨fun _ _ hlt hgt => absurd hlt (UInt8.lt_asymm hgt)⟩
  exact (pairwise_entries _ _ _).eq_of_mem_iff hsorted h

/-- **The entries from a later object on** are what is left from it on. -/
lemma entries_of_append {first last : UInt8} {taken later : List Object} {object : Object}
    (h : identity.entries first last = taken ++ object :: later) :
    identity.entries object.id last = object :: later := by
  have hsorted := identity.pairwise_entries first last
  rw [h, List.pairwise_append] at hsorted
  obtain ⟨-, hright, hacross⟩ := hsorted
  have hmem (other : Object) : other ∈ taken ++ object :: later ↔
      identity.object other.id = some other.data ∧ first ≤ other.id ∧ other.id ≤ last := by
    rw [← h, mem_entries]
  have hfirst := ((hmem object).mp (by simp)).2.1
  refine entries_eq_of_mem_iff hright fun other => ?_
  rw [mem_entries]
  constructor
  · rintro ⟨hstored, hfrom, hto⟩
    rcases List.mem_append.mp
      ((hmem other).mpr ⟨hstored, UInt8.le_trans hfirst hfrom, hto⟩) with hbefore | hin
    · exact absurd (hacross other hbefore object (List.mem_cons_self ..)) (UInt8.not_lt.mpr hfrom)
    · exact hin
  · intro hin
    obtain ⟨hstored, -, hto⟩ := (hmem other).mp (List.mem_append_right _ hin)
    refine ⟨hstored, ?_, hto⟩
    rcases List.mem_cons.mp hin with rfl | hlater
    · exact UInt8.le_refl _
    · exact UInt8.le_of_lt (List.rel_of_pairwise_cons hright hlater)

/-! ## One page -/

/-- **Where a stream begins** that asks for `first`: there if it can, else at the first object. -/
def streamStart (identity : Identity) (category : Category) (first : UInt8) : UInt8 :=
  if (identity.object first).isSome ∧ first ≤ category.lastObject first then first else 0x00

lemma start?_of_stream {category : Category} (hstream : category ≠ .individual) (first : UInt8) :
    identity.start? category first = some (identity.streamStart category first) := by
  cases hstored : identity.object first with
  | none => cases category <;> simp_all [start?, streamStart]
  | some data => cases category <;> simp_all [start?, streamStart, apply_ite]

/-- Nothing that is stored is reserved. -/
lemma Built.filter_entries (h : Built identity) (first last : UInt8) :
    (identity.entries first last).filter (fun object => !Object.isReserved object.id)
      = identity.entries first last := by
  rw [List.filter_eq_self]
  intro object hobject
  rw [(h.object (mem_entries.mp hobject).1).1]
  rfl

/-- **A page of a stream**: the beginning of what is stored from its start on, and where the rest
begins. -/
structure IsPage (identity : Identity) (category : Category) (first : UInt8) (maxPdu : Nat)
    (page : IdentificationReply) (rest : List Object) : Prop where
  given : identity.page category first maxPdu = .ok page
  entries : identity.entries (identity.streamStart category first) (category.lastObject first)
    = page.objects ++ rest
  more : page.moreFollows = rest.head?.isSome
  next : page.nextObject = (rest.head?.map Object.id).getD 0x00
  size : identificationHeader + Object.totalSize page.objects ≤ maxPdu
  some : rest ≠ [] → page.objects ≠ []
  category : page.category = category
  conformity : page.conformity = identity.conformity

/-- Every stored object fits into a page of its own. -/
lemma Built.size_le (h : Built identity) {first last : UInt8} {object : Object}
    (hobject : object ∈ identity.entries first last) {maxPdu : Nat}
    (hmax : Limit.maxPdu ≤ maxPdu) : object.size ≤ maxPdu - identificationHeader := by
  have hlarge := (h.object (mem_entries.mp hobject).1).2
  simp only [Object.size, identificationHeader, maxObjectSize, Limit.maxPdu] at *
  omega

/-- The page that what was taken makes. -/
lemma Built.page_eq (h : Built identity) {category : Category} (hstream : category ≠ .individual)
    {first : UInt8} {maxPdu : Nat} {taken rest : List Object}
    (hfitting : Object.fitting (maxPdu - identificationHeader)
      (identity.entries (identity.streamStart category first) (category.lastObject first))
        = (taken, rest.head?.map Object.id)) (hsome : rest ≠ [] → taken ≠ []) :
    identity.page category first maxPdu = .ok ⟨category, identity.conformity, rest.head?.isSome,
      (rest.head?.map Object.id).getD 0x00, taken⟩ := by
  simp only [page, start?_of_stream hstream, h.filter_entries, hfitting]
  cases rest with
  | nil => simp
  | cons object later =>
      obtain ⟨head, tail, rfl⟩ := List.exists_cons_of_ne_nil (hsome (List.cons_ne_nil _ _))
      simp

/-- **A stream always has a page.** -/
lemma Built.page_of_stream (h : Built identity) {category : Category}
    (hstream : category ≠ .individual) (first : UInt8) {maxPdu : Nat}
    (hmax : Limit.maxPdu ≤ maxPdu) :
    ∃ page rest, IsPage identity category first maxPdu page rest := by
  have hroom : identificationHeader ≤ maxPdu := Nat.le_trans (by decide) hmax
  obtain ⟨taken, rest, hfitting, hall, hsize⟩ :=
    Object.fitting_eq (maxPdu - identificationHeader)
      (identity.entries (identity.streamStart category first) (category.lastObject first))
  have hsome : rest ≠ [] → taken ≠ [] := by
    intro hrest
    obtain ⟨object, later, hstored⟩ := List.exists_cons_of_ne_nil
      (show identity.entries (identity.streamStart category first) (category.lastObject first) ≠ []
        by rw [hall]; exact List.append_ne_nil_of_right_ne_nil _ hrest)
    have hfits := h.size_le (hstored ▸ List.mem_cons_self ..) hmax
    have hfirst := Object.fitting_ne_nil later hfits
    rwa [← hstored, hfitting] at hfirst
  exact ⟨_, rest, h.page_eq hstream hfitting hsome, hall, rfl, rfl,
    by simp only; omega, hsome, rfl, rfl⟩

/-! ## The chain of pages -/

/-- **The pages that a reader comes by** who asks for `first` and goes on as long as a page says
that more follows, each time from the object it names. -/
inductive Pages (identity : Identity) (category : Category) (maxPdu : Nat) :
    UInt8 → List IdentificationReply → Prop where
  | last {first : UInt8} {page : IdentificationReply}
      (hpage : identity.page category first maxPdu = .ok page) (hmore : page.moreFollows = false) :
      Pages identity category maxPdu first [page]
  | next {first : UInt8} {page : IdentificationReply} {later : List IdentificationReply}
      (hpage : identity.page category first maxPdu = .ok page) (hmore : page.moreFollows = true)
      (hlater : Pages identity category maxPdu page.nextObject later) :
      Pages identity category maxPdu first (page :: later)

lemma lastObject_of_stream {category : Category} (hstream : category ≠ .individual)
    (first other : UInt8) : category.lastObject first = category.lastObject other := by
  cases category with
  | individual => exact absurd rfl hstream
  | _ => rfl

/-- **The rest of the stream is what the next page begins with.** -/
lemma IsPage.entries_next {category : Category} {first : UInt8} {maxPdu : Nat}
    {page : IdentificationReply} {rest : List Object}
    (h : IsPage identity category first maxPdu page rest) (hstream : category ≠ .individual)
    (hmore : page.moreFollows = true) :
    rest ≠ [] ∧ identity.streamStart category page.nextObject = page.nextObject ∧
      identity.entries page.nextObject (category.lastObject page.nextObject) = rest := by
  cases rest with
  | nil => simp [h.more] at hmore
  | cons object later =>
      have hnext : page.nextObject = object.id := h.next
      have hobject : object ∈ identity.entries (identity.streamStart category first)
          (category.lastObject first) := by
        rw [h.entries]
        simp
      obtain ⟨hstored, -, hlast⟩ := mem_entries.mp hobject
      rw [lastObject_of_stream hstream first object.id] at hlast
      refine ⟨List.cons_ne_nil _ _, ?_, ?_⟩
      · simp [hnext, streamStart, hstored, hlast]
      · rw [hnext, lastObject_of_stream hstream object.id first]
        exact entries_of_append h.entries

/-- Every page that is given is one of a stream. -/
lemma Built.isPage (h : Built identity) {category : Category} (hstream : category ≠ .individual)
    {first : UInt8} {maxPdu : Nat} (hmax : Limit.maxPdu ≤ maxPdu) {page : IdentificationReply}
    (hpage : identity.page category first maxPdu = .ok page) :
    ∃ rest, IsPage identity category first maxPdu page rest := by
  obtain ⟨other, rest, hother⟩ := h.page_of_stream hstream first hmax
  have hsame := hother.given.symm.trans hpage
  rw [Except.ok.injEq] at hsame
  exact ⟨rest, hsame ▸ hother⟩

/-- **The chain ends**: each page takes at least one object from what is left. -/
lemma Built.exists_pages (h : Built identity) {category : Category}
    (hstream : category ≠ .individual) {maxPdu : Nat} (hmax : Limit.maxPdu ≤ maxPdu)
    (first : UInt8) : ∃ pages, Pages identity category maxPdu first pages := by
  generalize hleft : (identity.entries (identity.streamStart category first)
    (category.lastObject first)).length = left
  induction left using Nat.strong_induction_on generalizing first with
  | _ left ih =>
    obtain ⟨page, rest, hpage⟩ := h.page_of_stream hstream first hmax
    cases hmore : page.moreFollows with
    | false => exact ⟨[page], .last hpage.given hmore⟩
    | true =>
        obtain ⟨hrest, hstart, hentries⟩ := hpage.entries_next hstream hmore
        have htaken := List.length_pos_iff.mpr (hpage.some hrest)
        rw [hpage.entries, List.length_append] at hleft
        obtain ⟨later, hlater⟩ := ih rest.length (by omega) page.nextObject
          (by rw [hstart, hentries])
        exact ⟨page :: later, .next hpage.given hmore hlater⟩

/-- **What the pages hold together** is what is stored from the start on. -/
lemma Pages.flatMap_objects {category : Category} {maxPdu : Nat} {first : UInt8}
    {pages : List IdentificationReply} (hpages : Pages identity category maxPdu first pages)
    (h : Built identity) (hstream : category ≠ .individual) (hmax : Limit.maxPdu ≤ maxPdu) :
    pages.flatMap IdentificationReply.objects
      = identity.entries (identity.streamStart category first) (category.lastObject first) := by
  induction hpages with
  | last hgiven hmore =>
      obtain ⟨rest, hpage⟩ := h.isPage hstream hmax hgiven
      have hrest : rest = [] := by simpa [hmore] using hpage.more
      simp [hpage.entries, hrest]
  | next hgiven hmore hlater ih =>
      obtain ⟨rest, hpage⟩ := h.isPage hstream hmax hgiven
      obtain ⟨-, hstart, hentries⟩ := hpage.entries_next hstream hmore
      rw [List.flatMap_cons, ih, hstart, hentries, hpage.entries]

lemma Pages.size_le {category : Category} {maxPdu : Nat} {first : UInt8}
    {pages : List IdentificationReply} (hpages : Pages identity category maxPdu first pages)
    (h : Built identity) (hstream : category ≠ .individual) (hmax : Limit.maxPdu ≤ maxPdu) :
    ∀ page ∈ pages, identificationHeader + Object.totalSize page.objects ≤ maxPdu := by
  induction hpages with
  | last hgiven hmore =>
      obtain ⟨rest, hpage⟩ := h.isPage hstream hmax hgiven
      simpa using hpage.size
  | next hgiven hmore hlater ih =>
      obtain ⟨rest, hpage⟩ := h.isPage hstream hmax hgiven
      simpa using ⟨hpage.size, ih⟩

/-- There is a page, and it tells what the identity conforms to. -/
lemma Pages.exists_conformity {category : Category} {maxPdu : Nat} {first : UInt8}
    {pages : List IdentificationReply} (hpages : Pages identity category maxPdu first pages)
    (h : Built identity) (hstream : category ≠ .individual) (hmax : Limit.maxPdu ≤ maxPdu) :
    ∃ page ∈ pages, page.conformity = identity.conformity := by
  cases hpages with
  | last hgiven _ =>
      obtain ⟨rest, hpage⟩ := h.isPage hstream hmax hgiven
      exact ⟨_, List.mem_cons_self .., hpage.conformity⟩
  | next hgiven _ _ =>
      obtain ⟨rest, hpage⟩ := h.isPage hstream hmax hgiven
      exact ⟨_, List.mem_cons_self .., hpage.conformity⟩

end Identity

/-! ## Pages on the line -/

namespace Response

lemma length_flatMap_record (objects : List Object) :
    (objects.flatMap record).length = Object.totalSize objects := by
  induction objects with
  | nil => rfl
  | cons object later ih =>
      rw [List.flatMap_cons, List.length_append, ih]
      simp only [record, counted, Object.totalSize, Object.size, List.map_cons, List.sum_cons,
        List.length_cons]
      omega

/-- The bytes of a page. -/
lemma length_identification (page : IdentificationReply) :
    (identification page).toPdu.length
      = identificationHeader + Object.totalSize page.objects := by
  simp only [toPdu, List.length_append, length_flatMap_record, identificationHeader,
    List.length_cons, List.length_nil]

end Response

end Modbus
