import Modbus.Proofs.Identification.Paging
import Modbus.Proofs.Service

/-!
# Object records

An identification page carries its objects as records, one behind the other.  `Object.Records` says
which bytes are the records of which objects, without reading them: each object is its id, the
number of its bytes and the bytes.  The reader of a page takes the records one by one and may find
them cut off anywhere, or followed by more; `Reply.objects_eq_ok` says that it succeeds on the
records of as many objects as were announced and on nothing else.

Since a record tells its own length, the same bytes are the records of one list only
(`Object.Records.unique`), and the writer gives the records of every list whose objects are no
larger than a size byte can say (`Object.records_flatMap`).
-/

namespace Modbus

/-! ## The grammar -/

namespace Object

/-- **The records of objects**: for each of them its id, its size and its data. -/
inductive Records : List Object → Bytes → Prop where
  | nil : Records [] []
  | cons {id size : UInt8} {data rest : Bytes} {later : List Object}
      (hsize : data.length = size.toNat) (hlater : Records later rest) :
      Records (⟨id, data⟩ :: later) (id :: size :: (data ++ rest))

/-- **Bytes are the records of one list.** -/
lemma Records.unique {objects others : List Object} {bytes : Bytes} (h : Records objects bytes)
    (hothers : Records others bytes) : objects = others := by
  induction h generalizing others with
  | nil =>
      cases hothers
      rfl
  | @cons id size data rest later hsize hlater ih =>
      generalize hbytes : id :: size :: (data ++ rest) = bytes at hothers
      cases hothers with
      | nil => cases hbytes
      | cons hsize' hlater' =>
          simp only [List.cons.injEq] at hbytes
          obtain ⟨rfl, rfl, happend⟩ := hbytes
          -- The same size byte cuts both at the same place.
          obtain ⟨rfl, rfl⟩ := List.append_inj happend (hsize.trans hsize'.symm)
          rw [ih hlater']

/-- The bytes that records take. -/
lemma Records.length_eq {objects : List Object} {bytes : Bytes} (h : Records objects bytes) :
    bytes.length = totalSize objects := by
  induction h with
  | nil => rfl
  | cons hsize hlater ih =>
      simp only [List.length_cons, List.length_append, ih, totalSize, List.map_cons,
        List.sum_cons, size]
      omega

/-- **What the writer gives** are the records of its objects. -/
lemma records_flatMap : ∀ {objects : List Object},
    (∀ object ∈ objects, object.data.length ≤ 255) →
      Records objects (objects.flatMap Response.record)
  | [], _ => .nil
  | object :: later, h => by
      obtain ⟨hobject, hlater⟩ := List.forall_mem_cons.mp h
      have hsize := Request.toNat_ofNat_length (Nat.lt_succ_of_le hobject)
      exact .cons hsize.symm (records_flatMap hlater)

end Object

/-! ## The reader -/

namespace Reply

/-- **The reader accepts records**, as many as were announced, and nothing else. -/
lemma objects_eq_ok : ∀ {count : Nat} {bytes : Bytes} {found : List Object},
    objects count bytes = .ok found ↔ Object.Records found bytes ∧ found.length = count
  | 0, [], found => by
      constructor
      · intro h
        obtain rfl := Except.ok.inj h
        exact ⟨.nil, rfl⟩
      · rintro ⟨-, hlength⟩
        rw [List.length_eq_zero_iff.mp hlength]
        rfl
  | 0, first :: rest, found => by
      refine ⟨nofun, ?_⟩
      rintro ⟨hrecords, hlength⟩
      obtain rfl := List.length_eq_zero_iff.mp hlength
      cases hrecords
  | count + 1, [], found => by
      refine ⟨nofun, ?_⟩
      rintro ⟨⟨⟩, ⟨⟩⟩
  | count + 1, [id], found => by
      refine ⟨nofun, ?_⟩
      rintro ⟨⟨⟩, -⟩
  | count + 1, id :: size :: rest, found => by
      constructor
      · intro h
        rw [objects] at h
        split_ifs at h with hshort
        obtain ⟨later, hlater, rfl⟩ := Result.map_eq_ok.mp h
        obtain ⟨hrecords, hlength⟩ := objects_eq_ok.mp hlater
        have hsize : (rest.take size.toNat).length = size.toNat := by
          rw [List.length_take]
          omega
        have hall := @Object.Records.cons id _ _ _ _ hsize hrecords
        rw [List.take_append_drop] at hall
        exact ⟨hall, congrArg (· + 1) hlength⟩
      · rintro ⟨hrecords, hlength⟩
        cases hrecords with
        | @cons _ _ data rest later hsize hlater =>
            have hrest := objects_eq_ok.mpr ⟨hlater, Nat.succ.inj hlength⟩
            rw [objects, if_neg (by rw [List.length_append]; omega), ← hsize, List.take_left,
              List.drop_left, hrest]
            rfl

/-- **What is read of a page** is its header and the objects behind it. -/
lemma fragment_header (category conformity more next count : UInt8) (records : Bytes) :
    fragment (Function.identify.code :: Request.meiIdentification :: category :: conformity :: more
        :: next :: count :: records)
      = (objects count.toNat records).map fun objects =>
          ⟨conformity &&& 0x80 != 0, more == 0xFF, next, objects⟩ := by
  rw [fragment, payload_code, Result.ok_bind]
  simp only [ne_eq, not_true, if_false]
  cases objects count.toNat records <;> rfl

/-- **A page is read back** as long as its number of objects and their sizes fit into a byte. -/
lemma fragment_identification {page : IdentificationReply} (hcount : page.objects.length ≤ 255)
    (hsizes : ∀ object ∈ page.objects, object.data.length ≤ 255) :
    fragment (Response.identification page).toPdu
      = .ok ⟨page.conformity &&& 0x80 != 0, page.moreFollows, page.nextObject, page.objects⟩ := by
  have hnumber : (UInt8.ofNat page.objects.length).toNat = page.objects.length := by
    rw [UInt8.toNat_ofNat']
    omega
  have hobjects := objects_eq_ok.mpr ⟨Object.records_flatMap hsizes, rfl⟩
  have hmore : ((if page.moreFollows then 0xFF else 0x00 : UInt8) == 0xFF) = page.moreFollows := by
    cases page.moreFollows <;> rfl
  simp only [Response.toPdu, List.cons_append, List.nil_append]
  rw [fragment_header, hnumber, hobjects, hmore]
  rfl

/-- A PDU of seven bytes at least is a header and what follows it. -/
lemma exists_header {pdu : Bytes} (hlong : 7 ≤ pdu.length) :
    ∃ code mei category conformity more next count records,
      pdu = code :: mei :: category :: conformity :: more :: next :: count :: records := by
  match pdu, hlong with
  | code :: mei :: category :: conformity :: more :: next :: count :: records, _ =>
      exact ⟨code, mei, category, conformity, more, next, count, records, rfl⟩

/-- **Pages are read exactly.**  Whatever stands behind the header of an identification page, it is
read if and only if it is the records of as many objects as the last byte of the header announces;
these objects are found, in the order of the line, and there are no others that the same bytes could
be the records of.  What the writer makes of a page is read back, with its objects, its flag, its
next object and its promise of access to single objects, as long as neither the objects nor the
bytes of one of them are more than a byte can count. -/
theorem pages_read_exactly :
    (∀ (pdu : Bytes) (hlong : 7 ≤ pdu.length),
      pdu[0] = Function.identify.code → pdu[1] = Request.meiIdentification →
        ((∃ page, fragment pdu = .ok page) ↔
          ∃ objects, Object.Records objects (pdu.drop 7) ∧ objects.length = pdu[6].toNat) ∧
        ∀ page, fragment pdu = .ok page →
          ∀ objects, Object.Records objects (pdu.drop 7) ↔ objects = page.objects) ∧
      ∀ page : IdentificationReply, page.objects.length ≤ 255 →
        (∀ object ∈ page.objects, object.data.length ≤ 255) →
          fragment (Response.identification page).toPdu
            = .ok ⟨page.conformity &&& 0x80 != 0, page.moreFollows, page.nextObject,
                page.objects⟩ := by
  refine ⟨fun pdu hlong hcode hmei => ?_, fun page => fragment_identification⟩
  obtain ⟨code, mei, category, conformity, more, next, count, records, rfl⟩ := exists_header hlong
  obtain rfl : code = Function.identify.code := hcode
  obtain rfl : mei = Request.meiIdentification := hmei
  simp only [fragment_header, Result.map_eq_ok, objects_eq_ok]
  constructor
  · constructor
    · rintro ⟨page, objects, hobjects, -⟩
      exact ⟨objects, hobjects⟩
    · rintro ⟨objects, hobjects⟩
      exact ⟨_, objects, hobjects, rfl⟩
  · rintro page ⟨found, ⟨hrecords, -⟩, rfl⟩ objects
    constructor
    · exact fun hobjects => hobjects.unique hrecords
    · rintro rfl
      exact hrecords

/-- A name and an empty object on one page, and the largest object that a size byte can count on
another. -/
theorem name_and_largest_object_read :
    let pdu : Bytes := [0x2B, 0x0E, 0x01, 0x81, 0x00, 0x00, 2, 0, 2, 86, 88, 1, 0]
    let largest : IdentificationReply :=
      ⟨.individual, 0x83, true, 0x81, [⟨0x80, List.replicate 255 0x2A⟩]⟩
    (∃ page, fragment pdu = .ok page) ∧
      (∀ objects, Object.Records objects (pdu.drop 7) ↔ objects = [⟨0, [86, 88]⟩, ⟨1, []⟩]) ∧
      fragment (Response.identification largest).toPdu
        = .ok ⟨true, true, 0x81, [⟨0x80, List.replicate 255 0x2A⟩]⟩ := by
  intro pdu largest
  have hobjects : Object.Records [⟨0, [86, 88]⟩, ⟨1, []⟩] (pdu.drop 7) :=
    @Object.Records.cons 0 2 [86, 88] _ _ rfl (@Object.Records.cons 1 0 [] _ _ rfl .nil)
  obtain ⟨hread, hfound⟩ := pages_read_exactly.1 pdu (by decide) rfl rfl
  obtain ⟨page, hpage⟩ := hread.mpr ⟨_, hobjects, rfl⟩
  have hwritten := pages_read_exactly.2 largest (by decide) fun object hobject => by
    rw [List.mem_singleton.mp hobject, List.length_replicate]
  have haccess : (largest.conformity &&& 0x80 != 0) = true := by decide
  rw [haccess] at hwritten
  refine ⟨⟨page, hpage⟩, ?_, hwritten⟩
  rw [(hfound page hpage _).mp hobjects]
  exact hfound page hpage

end Reply

end Modbus
