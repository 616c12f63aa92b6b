import Mathlib.Algebra.Order.BigOperators.Group.List
import Mathlib.Algebra.Order.Group.Nat
import Mathlib.Data.List.Infix
import Modbus.Proofs.Exchange
import Modbus.Proofs.Identification.Merging
import Modbus.Proofs.Identification.Records

/-!
# An identification from end to end

A client reads an identification page by page from a device that decides what goes into a page.
This file follows one page across the line (`IdentificationReply.Fits`, `Reply.fragment_page`,
`Reply.checkShape_page`), then one request of the client for it (`Client.fragment_against`), and
then, by induction on the chain of pages, the whole reading (`Client.identificationFrom_against`).
The chain never stalls, since each page names a later object than it was asked for
(`Identity.IsPage.lt_next`).

`Identity.Described` is what the client is meant to know in the end, and
`Identity.readInFull_of_built` that it does, for every identity that was stored object by object and
every framing.
-/

namespace Modbus

/-! ## A page across the line -/

/-- **A page that fits** into a PDU. -/
def IdentificationReply.Fits (page : IdentificationReply) : Prop :=
  identificationHeader + Object.totalSize page.objects ≤ Limit.maxPdu

/-- The page as it is received. -/
def IdentificationReply.fragment (page : IdentificationReply) : Fragment where
  individualAccess := page.conformity &&& 0x80 != 0
  moreFollows := page.moreFollows
  nextObject := page.nextObject
  objects := page.objects

namespace Object

lemma size_le_totalSize {objects : List Object} {object : Object} (h : object ∈ objects) :
    object.size ≤ totalSize objects :=
  List.le_sum_of_mem (List.mem_map_of_mem h)

lemma length_le_totalSize (objects : List Object) : objects.length ≤ totalSize objects := by
  rw [totalSize, ← objects.length_map size]
  refine List.length_le_sum_of_one_le _ fun taken htaken => ?_
  obtain ⟨object, -, rfl⟩ := List.mem_map.mp htaken
  simp only [size]
  omega

end Object

namespace Reply

/-- **A page that fits is read back.** -/
lemma fragment_page {page : IdentificationReply} (h : page.Fits) :
    fragment (Response.identification page).toPdu = .ok page.fragment := by
  have hcount := Object.length_le_totalSize page.objects
  simp only [IdentificationReply.Fits, identificationHeader, Limit.maxPdu] at h
  refine fragment_identification (by omega) fun object hobject => ?_
  have hsize := Object.size_le_totalSize hobject
  simp only [Object.size] at hsize
  omega

/-- A page has the shape of a reply to a request for its category. -/
lemma checkShape_page {page : IdentificationReply} (h : page.Fits) (object : UInt8) :
    checkShape (Request.identifyPdu page.category object) (Response.identification page).toPdu
      = .ok () := by
  have hpage := fragment_page h
  simp only [Response.toPdu, List.cons_append, List.nil_append] at hpage ⊢
  simp [checkShape, Function.ofCode?_code, hpage, categoryFault?, Request.identifyPdu]

end Reply

/-! ## One page asked for -/

/-- **A link to a device.**  The reply to a request comes back whole as long as the receiver can
tell where it ends. -/
def Attends (framing : Framing) (store : Store)
    (exchange : Bytes → (Bytes → Bool) → Result Bytes) : Prop :=
  ∀ request complete reply, (Responder.serve framing store request).1 = some reply →
    EndsAt complete reply → exchange request complete = .ok reply

/-- **A device answers an access to its identity**, and stays as it is. -/
lemma Responder.serve_identify (framing : Framing) {store : Store} {header : Header}
    (hunit : store.hasUnit header.unit = true) (category : Category) (object : UInt8) :
    serve framing store (framing.wrap header (Request.identifyPdu category object))
      = (some (framing.writeResponse header
          (store.identity.answer category object Limit.maxPdu)), store) := by
  simp only [serve, framing.readRequest_wrap header (Request.ofPdu_identifyPdu category object) rfl,
    Framing.heading_unit, Store.handle, hunit, Bool.not_true, Bool.false_eq_true, if_false,
    Option.map_some, Framing.writeResponse, Framing.wrap_heading]

/-- **A link that is read byte by byte**, until the bytes so far are complete. -/
def Responder.bytewise (framing : Framing) (store : Store) (request : Bytes)
    (complete : Bytes → Bool) : Result Bytes :=
  match (serve framing store request).1 with
  | none => .error .endOfStream
  | some reply =>
    match reply.inits.find? complete with
    | some received => .ok received
    | none => .error .endOfStream

lemma attends_bytewise (framing : Framing) (store : Store) :
    Attends framing store (Responder.bytewise framing store) := by
  intro request complete reply hserve hends
  have hfind : reply.inits.find? complete = some reply := by
    rw [List.find?_eq_some_iff_getElem]
    refine ⟨hends.whole, reply.length, by simp, by simp, fun index hindex => ?_⟩
    rw [List.getElem_inits, hends.before _ (List.take_prefix index reply) (by simpa using hindex)]
    rfl
  simp only [Responder.bytewise, hserve, hfind]

namespace Client

variable {codec : Codec} {unit : UnitId} {store : Store}
  {exchange : Bytes → (Bytes → Bool) → Result Bytes}

/-- **One page is asked for and received.** -/
lemma fragment_against {α : Type} (hunit : store.hasUnit unit = true)
    (hattends : Attends codec.framing store exchange) {object : UInt8}
    {page : IdentificationReply} (hfits : page.Fits)
    (hpage : store.identity.page page.category object Limit.maxPdu = .ok page)
    (next : Fragment → Operation α) :
    (fragment codec.framing unit page.category object >>= next).against exchange codec
      = (next page.fragment).against exchange
          (codec.request unit (Request.identifyPdu page.category object)).2 := by
  let header : Header := ⟨unit, some codec.transaction⟩
  let pdu := Request.identifyPdu page.category object
  let reply := codec.framing.writeResponse header (.identification page)
  have hanswer : store.identity.answer page.category object Limit.maxPdu
      = .identification page := by
    rw [Identity.answer, hpage]
  have hserve : (Responder.serve codec.framing store (codec.framing.wrap header pdu)).1
      = some reply := by
    rw [Responder.serve_identify codec.framing hunit, hanswer]
  have hshape := Reply.checkShape_page hfits object
  have hcode : (Response.identification page).toPdu.head? = some Function.identify.code := rfl
  have hlength : (Response.identification page).toPdu.length ≤ Limit.maxPdu := by
    rw [Response.length_identification]
    exact hfits
  have hpdu : (Response.identification page).toPdu ≠ [] := List.cons_ne_nil _ _
  have hshort : (Response.identification page).toPdu.length < 65535 := by
    simp only [Limit.maxPdu] at hlength
    omega
  have hexchange : exchange (codec.framing.wrap header pdu) codec.framing.responseComplete
      = .ok reply :=
    hattends _ _ _ hserve (codec.framing.responseEndsAt header hcode hshape hlength)
  have hvalid : codec.framing.validate (codec.framing.wrap header pdu) reply = .ok () :=
    codec.framing.validate_wrap header hpdu hshort (Reply.payload_code _ _) hshape
  have hread : codec.framing.readFragment reply = .ok page.fragment := by
    simp only [reply, Framing.readFragment, Framing.writeResponse,
      codec.framing.parse_wrap header hpdu hshort, Result.ok_bind]
    exact Reply.fragment_page hfits
  have hoperation := exchange_bind codec.framing unit pdu codec.framing.readFragment
  rw [fragment, hoperation]
  change (Operation.bind (.done (do
      let response ← exchange (codec.framing.wrap header pdu) codec.framing.responseComplete
      codec.framing.validate (codec.framing.wrap header pdu) response
      codec.framing.readFragment response)) next).against exchange _ = _
  rw [hexchange]
  simp only [Result.ok_bind, hvalid, hread]
  rfl

end Client

/-! ## The whole chain -/

namespace Identity

variable {identity : Identity}

/-- **A page names a later object** than it was asked for. -/
lemma IsPage.lt_next {category : Category} {first : UInt8} {maxPdu : Nat}
    {page : IdentificationReply} {rest : List Object}
    (h : IsPage identity category first maxPdu page rest)
    (hstart : identity.streamStart category first = first) (hmore : page.moreFollows = true) :
    first < page.nextObject := by
  cases rest with
  | nil => simp [h.more] at hmore
  | cons object later =>
      obtain ⟨taken, others, htaken⟩ := List.exists_cons_of_ne_nil (h.some (List.cons_ne_nil _ _))
      have hnext : page.nextObject = object.id := h.next
      have hentries : identity.entries first (category.lastObject first)
          = taken :: (others ++ object :: later) := by
        rw [← List.cons_append, ← htaken, ← h.entries, hstart]
      have hsorted := identity.pairwise_entries first (category.lastObject first)
      rw [hentries] at hsorted
      have hfirst := (mem_entries.mp (hentries ▸ List.mem_cons_self ..)).2.1
      have hlater : taken.id < object.id := List.rel_of_pairwise_cons hsorted (by simp)
      rw [hnext]
      exact UInt8.lt_of_le_of_lt hfirst hlater

end Identity

namespace Client

/-- **The chain is read to its end**, and every page is merged. -/
lemma identificationFrom_against {framing : Framing} {unit : UnitId} {store : Store}
    {exchange : Bytes → (Bytes → Bool) → Result Bytes} (hbuilt : store.identity.Built)
    (hunit : store.hasUnit unit = true) (hattends : Attends framing store exchange)
    {category : Category} (hstream : category ≠ .individual) {object : UInt8}
    {pages : List IdentificationReply}
    (hpages : Identity.Pages store.identity category Limit.maxPdu object pages)
    (hstart : store.identity.streamStart category object = object) :
    ∀ (codec : Codec) (before : Identification), codec.framing = framing →
      (identificationFrom framing unit category object before).against exchange codec
        = .ok ((pages.map IdentificationReply.fragment).foldl Identification.merge before) := by
  induction hpages with
  | last hgiven hmore =>
      rintro codec before rfl
      obtain ⟨rest, hpage⟩ := hbuilt.isPage hstream (Nat.le_refl _) hgiven
      obtain rfl := hpage.category
      rw [identificationFrom, fragment_against hunit hattends hpage.size hgiven]
      simp only [IdentificationReply.fragment, hmore]
      rfl
  | @next object page later hgiven hmore hlater ih =>
      rintro codec before rfl
      obtain ⟨rest, hpage⟩ := hbuilt.isPage hstream (Nat.le_refl _) hgiven
      obtain rfl := hpage.category
      have hadvance : ¬ page.fragment.nextObject ≤ object :=
        UInt8.not_le.mpr (hpage.lt_next hstart hmore)
      have hmoreFollows : page.fragment.moreFollows = true := hmore
      rw [identificationFrom, fragment_against hunit hattends hpage.size hgiven]
      simp only [hmoreFollows, if_true, if_neg hadvance]
      exact ih (hpage.entries_next hstream hmore).2.1 _ _ rfl

end Client

/-! ## What is known in the end -/

/-- **What a client is meant to know of an identity** that it has read up to a category. -/
structure Identity.Described (identity : Identity) (category : Category)
    (identification : Identification) : Prop where
  /-- A standard object within the category is known by its text. -/
  standard : ∀ id ≤ 0x06, identification.text? id
    = if id ≤ category.lastObject 0x00 then (identity.object id).map Text.lossy else none
  /-- The vendor's own objects are known in the order of their ids. -/
  ordered : identification.extended.Pairwise fun a b => a.id < b.id
  /-- They are all known if the category has them, and none of them otherwise. -/
  extended : ∀ object, object ∈ identification.extended ↔
    category = .extended ∧ 0x80 ≤ object.id ∧ identity.object object.id = some object.data
  individualAccess : identification.individualAccess = true

namespace Identity

variable {identity : Identity}

lemma streamStart_first (category : Category) : identity.streamStart category 0x00 = 0x00 := by
  simp [streamStart]

/-- Every page promises access to single objects. -/
lemma individualAccess_conformity (identity : Identity) :
    (identity.conformity &&& 0x80 != 0) = true := by
  rw [conformity]
  cases identity.level <;> rfl

/-- **The text of a standard object** after what is stored up to a ceiling was added. -/
lemma text?_entries {last id : UInt8} (hid : id ≤ 0x06) :
    ((identity.entries 0x00 last).foldl Identification.add {}).text? id
      = if id ≤ last then (identity.object id).map Text.lossy else none := by
  have hnone : Identification.text? {} id = none := by
    rcases Identification.eq_of_standard hid with rfl | rfl | rfl | rfl | rfl | rfl | rfl <;> rfl
  by_cases hstored : ∃ data, identity.object id = some data ∧ id ≤ last
  · obtain ⟨data, hdata, hlast⟩ := hstored
    have hmem : ⟨id, data⟩ ∈ identity.entries 0x00 last :=
      mem_entries.mpr ⟨hdata, UInt8.zero_le, hlast⟩
    rw [Identification.text?_foldl_of_mem (pairwise_entries _ _ _) hmem hid, if_pos hlast, hdata]
    rfl
  · have hne : ∀ object ∈ identity.entries 0x00 last, object.id ≠ id := by
      rintro object hobject rfl
      obtain ⟨hdata, -, hlast⟩ := mem_entries.mp hobject
      exact hstored ⟨_, hdata, hlast⟩
    rw [Identification.text?_foldl_of_ne hid hne, hnone]
    split_ifs with hlast
    · cases hdata : identity.object id with
      | none => rfl
      | some data => exact absurd ⟨data, hdata, hlast⟩ hstored
    · rfl

lemma mem_extended_entries {category : Category} (hstream : category ≠ .individual)
    (object : Object) :
    object ∈ (identity.entries 0x00 (category.lastObject 0x00)).filter
        (fun stored => Object.isExtended stored.id) ↔
      category = .extended ∧ 0x80 ≤ object.id ∧ identity.object object.id = some object.data := by
  have hbelow (ceiling : UInt8) (hceiling : ceiling < 0x80) :
      ¬ (object.id ≤ ceiling ∧ 0x80 ≤ object.id) := fun ⟨hle, hge⟩ =>
    absurd (UInt8.lt_of_lt_of_le hceiling hge) (UInt8.not_lt.mpr hle)
  have hlast : object.id ≤ 0xFF := UInt8.le_iff_toNat_le.mpr (Nat.le_of_lt_succ object.id.toNat_lt)
  have hfirst : 0x00 ≤ object.id := UInt8.zero_le
  simp only [List.mem_filter, mem_entries, Object.isExtended, decide_eq_true_eq, hfirst, true_and]
  cases category with
  | basic => have := hbelow 0x02 (by decide); simp only [Category.lastObject]; tauto
  | regular => have := hbelow 0x06 (by decide); simp only [Category.lastObject]; tauto
  | extended => simp only [Category.lastObject, hlast]; tauto
  | individual => exact absurd rfl hstream

/-- **Merged pages describe the identity** that they are pages of. -/
lemma Pages.described {category : Category} {pages : List IdentificationReply}
    (hpages : Pages identity category Limit.maxPdu 0x00 pages) (hbuilt : identity.Built)
    (hstream : category ≠ .individual) :
    Described identity category
      ((pages.map IdentificationReply.fragment).foldl Identification.merge {}) := by
  have hobjects := hpages.flatMap_objects hbuilt hstream (Nat.le_refl _)
  rw [streamStart_first] at hobjects
  have haccess : (pages.map IdentificationReply.fragment).any Fragment.individualAccess = true := by
    obtain ⟨page, hpage, hconformity⟩ := hpages.exists_conformity hbuilt hstream (Nat.le_refl _)
    rw [List.any_map, List.any_eq_true]
    refine ⟨page, hpage, ?_⟩
    rw [Function.comp_apply, IdentificationReply.fragment, hconformity]
    exact identity.individualAccess_conformity
  rw [Identification.foldl_merge, List.flatMap_map]
  simp only [IdentificationReply.fragment, hobjects]
  refine ⟨fun id hid => text?_entries hid, ?_, fun object => ?_, haccess⟩
  · rw [Identification.extended_foldl]
    exact (pairwise_entries _ _ _).filter _
  · rw [Identification.extended_foldl]
    exact mem_extended_entries hstream object

/-- **Reading an identity in full**, page by page and from end to end. -/
structure ReadInFull (identity : Identity) (category : Category) : Prop where
  /-- From wherever a stream is asked for, its pages come to an end, each of them fits, and together
  they have what is stored from the start of the stream up to the ceiling of its category, in
  ascending order and each object once. -/
  paged : ∀ (first : UInt8) (maxPdu : Nat), Limit.maxPdu ≤ maxPdu →
    ∃ pages, Pages identity category maxPdu first pages ∧
      (∀ page ∈ pages, (Response.identification page).toPdu.length ≤ maxPdu) ∧
      ((pages.flatMap IdentificationReply.objects).Pairwise fun a b => a.id < b.id) ∧
      ∀ object, object ∈ pages.flatMap IdentificationReply.objects ↔
        identity.object object.id = some object.data ∧
          identity.streamStart category first ≤ object.id ∧
          object.id ≤ category.lastObject first
  /-- Over a link to a device that has the identity, a client that reads the stream is told what it
  is meant to be told. -/
  told : ∀ (codec : Codec) (unit : UnitId) (store : Store)
    (exchange : Bytes → (Bytes → Bool) → Result Bytes),
    store.identity = identity → store.hasUnit unit = true →
      Attends codec.framing store exchange →
        ∃ identification, Described identity category identification ∧
          (Client.identification codec.framing unit category).against exchange codec
            = .ok identification

/-- **Whatever objects were stored, every stream category is read in full.** -/
theorem readInFull_of_built (hbuilt : identity.Built) {category : Category}
    (hstream : category ≠ .individual) : ReadInFull identity category where
  paged := by
    intro first maxPdu hmax
    obtain ⟨pages, hpages⟩ := hbuilt.exists_pages hstream hmax first
    refine ⟨pages, hpages, fun page hpage => ?_, ?_, fun object => ?_⟩
    · rw [Response.length_identification]
      exact hpages.size_le hbuilt hstream hmax page hpage
    · rw [hpages.flatMap_objects hbuilt hstream hmax]
      exact pairwise_entries _ _ _
    · rw [hpages.flatMap_objects hbuilt hstream hmax]
      exact mem_entries
  told := by
    rintro codec unit store exchange rfl hunit hattends
    obtain ⟨pages, hpages⟩ := hbuilt.exists_pages hstream (Nat.le_refl Limit.maxPdu) 0x00
    refine ⟨_, hpages.described hbuilt hstream, ?_⟩
    rw [Client.identification, if_neg hstream]
    exact Client.identificationFrom_against hbuilt hunit hattends hstream hpages
      (streamStart_first category) codec {} rfl

/-- A vendor's object that fills a page of its own, read behind a name, each reply byte by byte. -/
theorem name_and_large_object_readInFull :
    let named : Identity := { object := fun id => if id = 0x00 then some [0x41, 0x42] else none }
    let large : Bytes := List.replicate 244 0x2A
    let identity : Identity :=
      { object := fun id => if id = 0x80 then some large else named.object id }
    let store : Store := { ({} : Store).addUnit 17 with identity }
    Identity.empty.set 0x00 [0x41, 0x42] = .ok named ∧ named.set 0x80 large = .ok identity ∧
      (identity.page .extended 0x00 Limit.maxPdu).toOption.map IdentificationReply.nextObject
        = some 0x80 ∧
      ReadInFull identity .extended ∧
      ∃ identification, Described identity .extended identification ∧
        (Client.identification .rtu 17 .extended).against (Responder.bytewise .rtu store) ⟨.rtu, 1⟩
          = .ok identification := by
  intro named large identity store
  have hnamed : Identity.empty.set 0x00 [0x41, 0x42] = .ok named := rfl
  have hlength : large.length = maxObjectSize := List.length_replicate
  have hlarge : named.set 0x80 large = .ok identity := by
    rw [Identity.set, if_neg (by decide), if_neg (by rw [hlength]; exact Nat.lt_irrefl _)]
  have hread := readInFull_of_built ((Built.empty.set hnamed).set hlarge)
    (show Category.extended ≠ .individual by decide)
  refine ⟨hnamed, hlarge, by decide +kernel, hread, ?_⟩
  exact hread.told ⟨.rtu, 1⟩ 17 store (Responder.bytewise .rtu store) rfl rfl
    (attends_bytewise .rtu store)

end Identity

end Modbus
