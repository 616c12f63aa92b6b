import Modbus.Device
import Modbus.Proofs.Guarded.Requests
import Modbus.Proofs.Identification.Reading

/-!
# A device's replies by position

What a device does with a request it has read, with every step checked: handling it (`handle_eq`)
and writing the reply (`pdu_eq`).

Most of it has no step that could fail, since cells are looked up by their address.  A page of an
identification has two.  It is cut from the ordered table of objects by a range, whose ends must not
cross, and `start?_le` says that they do not, wherever a page is asked to begin.  The sizes of its
objects are added up, and those are small because the objects were stored one by one
(`Identity.Built`).

A reply is written into as many bytes as its bits need, and each bit is set in its byte
(`setBits_eq`).  The room that it takes is computed first; `Moderate` is the bound that the replies
to one request have.
-/

namespace Modbus.Guarded

/-! ## Pages of an identification -/

/-- The stored objects of a range; the ends of a range must not cross. -/
def stored (identity : Identity) (first last : UInt8) : Guarded (List Object) :=
  step (if first ≤ last then some (identity.entries first last) else none)

/-- **No page begins above its ceiling.** -/
lemma start?_le {identity : Identity} {category : Category} {first start : UInt8}
    (h : identity.start? category first = some start) : start ≤ category.lastObject first := by
  by_cases hstream : category = .individual
  · subst hstream
    cases hobject : identity.object first with
    | none => simp [Identity.start?, hobject] at h
    | some data =>
        simp only [Identity.start?, hobject, Option.some.injEq] at h
        exact h ▸ UInt8.le_refl _
  · rw [Identity.start?_of_stream hstream, Option.some.injEq, Identity.streamStart] at h
    split_ifs at h with hfirst
    · exact h ▸ hfirst.2
    · exact h ▸ UInt8.zero_le

/-- As many objects as fit behind `used` bytes, reserved ones passed over, and the id of the first
that does not fit. -/
def fitting (maxPdu : Nat) : Nat → List Object → Guarded (List Object × Option UInt8)
  | _, [] => return ([], none)
  | used, object :: rest => do
    if Object.isReserved object.id then fitting maxPdu used rest
    else
      let size ← plus 2 object.data.length
      let total ← plus used size
      if maxPdu < total then return ([], some object.id)
      else
        let (taken, next) ← fitting maxPdu total rest
        return (object :: taken, next)

lemma fitting_eq {maxPdu : Nat} (hmax : maxPdu < 2 ^ 16) : ∀ (used : Nat) (objects : List Object),
    used ≤ maxPdu → (∀ object ∈ objects, object.data.length ≤ maxObjectSize) →
      fitting maxPdu used objects = pure (Object.fitting (maxPdu - used)
        (objects.filter fun object => !Object.isReserved object.id))
  | _, [], _, _ => rfl
  | used, object :: rest, hused, hsizes => by
      obtain ⟨hobject, hrest⟩ := List.forall_mem_cons.mp hsizes
      rw [maxObjectSize] at hobject
      by_cases hreserved : Object.isReserved object.id = true
      · rw [fitting, if_pos hreserved, fitting_eq hmax used rest hused hrest,
          List.filter_cons_of_neg (by simp [hreserved])]
      · rw [fitting, if_neg hreserved, plus_eq (by omega), pure_bind, plus_eq (by omega), pure_bind,
          List.filter_cons_of_pos (by simp [hreserved]), Object.fitting]
        by_cases hfull : maxPdu < used + (2 + object.data.length)
        · rw [if_pos hfull, if_neg (by rw [Object.size]; omega)]
        · have hroom : maxPdu - used - object.size
              = maxPdu - (used + (2 + object.data.length)) := by
            rw [Object.size]
            omega
          rw [if_neg hfull, if_pos (by rw [Object.size]; omega), hroom,
            fitting_eq hmax _ rest (Nat.not_lt.mp hfull) hrest, pure_bind]

/-- The reply to an access to an identity. -/
def answer (identity : Identity) (category : Category) (first : UInt8) (maxPdu : Nat) :
    Guarded Response := do
  match identity.start? category first with
  | none => return .exception Function.identify.code .illegalDataAddress
  | some start =>
    match ← fitting maxPdu identificationHeader
        (← stored identity start (category.lastObject first)) with
    | ([], some _) => return .exception Function.identify.code .slaveDeviceFailure
    | (objects, next) =>
      return .identification {
        category
        conformity := identity.conformity
        moreFollows := next.isSome
        nextObject := next.getD 0x00
        objects }

lemma answer_eq {identity : Identity} (h : identity.Built) (category : Category) (first : UInt8) :
    answer identity category first Limit.maxPdu
      = pure (identity.answer category first Limit.maxPdu) := by
  rw [answer, Identity.answer, Identity.page]
  cases hstart : identity.start? category first with
  | none => rfl
  | some start =>
      have hsizes : ∀ object ∈ identity.entries start (category.lastObject first),
          object.data.length ≤ maxObjectSize :=
        fun object hobject => (h.object (Identity.mem_entries.mp hobject).1).2
      dsimp only
      rw [stored, if_pos (start?_le hstart), step_some, pure_bind,
        fitting_eq (by decide) _ _ (by decide) hsizes, pure_bind]
      rcases Object.fitting _ _ with ⟨_ | ⟨object, taken⟩, _ | next⟩ <;> rfl

/-- **Handling a request.**  Only an identification has steps to check: cells are looked up by their
address, and addresses wrap around. -/
def handle (store : Store) (unit : UnitId) (request : Request) : Guarded Handled := do
  match request with
  | .identify category object =>
    if !store.hasUnit unit then return ⟨none, store, []⟩
    else return ⟨some (← answer store.identity category object Limit.maxPdu), store, []⟩
  | request => return store.handle unit request

lemma handle_eq {store : Store} (h : store.identity.Built) (unit : UnitId) (request : Request) :
    handle store unit request = pure (store.handle unit request) := by
  cases request with
  | identify category object =>
      rw [handle, answer_eq h, pure_bind, Store.handle]
      split <;> rfl
  | _ => rfl

/-! ## Writing a reply -/

/-- Sets the bits that are on, the first of them at `index`. -/
def setBits : List Bool → Nat → Bytes → Guarded Bytes
  | [], _, bytes => return bytes
  | bit :: rest, index, bytes => do
    if bit then
      let byte ← byteAt bytes (index / 8)
      setBits rest (index + 1) (bytes.set (index / 8) (byte ||| (← mask (index % 8))))
    else setBits rest (index + 1) bytes

/-- **Eight bits to a byte**, first bit lowest. -/
def pack (bits : List Bool) : Guarded Bytes :=
  setBits bits 0 (List.replicate (Bits.bytesFor bits.length) 0)

lemma bit_set {bytes : Bytes} {byte : UInt8} {index : Nat} (hbyte : bytes[index / 8]? = some byte)
    (place : Nat) :
    Bits.bit (bytes.set (index / 8) (byte ||| 1 <<< UInt8.ofNat (index % 8))) place
      = (Bits.bit bytes place || decide (index = place)) := by
  have hinside : index / 8 < bytes.length := (List.getElem?_eq_some_iff.mp hbyte).1
  have hmask : ((1 : UInt8) <<< UInt8.ofNat (index % 8)).toNat = 2 ^ (index % 8) :=
    toNat_mask (Nat.mod_lt _ (by decide))
  by_cases hsame : index / 8 = place / 8
  · have hplace : index % 8 = place % 8 ↔ index = place := by omega
    simp only [Bits.bit, ← hsame, List.getElem?_set_self hinside, hbyte, UInt8.toNat_or, hmask,
      Nat.testBit_or, Nat.testBit_two_pow, hplace]
  · have hother : index ≠ place := fun h => hsame (by rw [h])
    simp only [Bits.bit, List.getElem?_set_ne hsame, decide_eq_false hother, Bool.or_false]

/-- The bits from `index` on are one bit there and the others after it. -/
lemma bitsFrom_cons (bit : Bool) (rest : List Bool) (index place : Nat) :
    (decide (index ≤ place) && (bit :: rest)[place - index]?.getD false)
      = ((decide (index = place) && bit)
        || (decide (index + 1 ≤ place) && rest[place - (index + 1)]?.getD false)) := by
  rcases Nat.lt_trichotomy place index with hbefore | rfl | hafter
  · simp [Nat.not_le.mpr hbefore, Nat.ne_of_gt hbefore, show ¬ index + 1 ≤ place by omega]
  · simp
  · obtain ⟨distance, rfl⟩ := Nat.exists_eq_add_of_lt hafter
    have hfirst : index + distance + 1 - index = distance + 1 := by omega
    have hother : index + distance + 1 - (index + 1) = distance := by omega
    rw [hfirst, hother, List.getElem?_cons_succ]
    simp [show index ≠ index + distance + 1 by omega, show index ≤ index + distance + 1 by omega]

/-- **Bits are set inside the bytes** as long as there are eight places for each byte. -/
lemma setBits_eq : ∀ (bits : List Bool) (index : Nat) (bytes : Bytes),
    index + bits.length ≤ 8 * bytes.length → ∃ packed, setBits bits index bytes = pure packed ∧
      packed.length = bytes.length ∧ ∀ place, Bits.bit packed place
        = (Bits.bit bytes place || (decide (index ≤ place) && bits[place - index]?.getD false))
  | [], index, bytes, _ => ⟨bytes, rfl, rfl, by simp⟩
  | bit :: rest, index, bytes, hroom => by
      simp only [List.length_cons] at hroom
      have hfrom := bitsFrom_cons bit rest index
      cases bit with
      | false =>
          obtain ⟨packed, hpacked, hlength, hbits⟩ := setBits_eq rest (index + 1) bytes (by omega)
          refine ⟨packed, hpacked, hlength, fun place => ?_⟩
          rw [hbits, hfrom, Bool.and_false, Bool.false_or]
      | true =>
          have hinside : index / 8 < bytes.length := by omega
          have hbyte := List.getElem?_eq_getElem hinside
          obtain ⟨packed, hpacked, hlength, hbits⟩ := setBits_eq rest (index + 1)
            (bytes.set (index / 8) (bytes[index / 8] ||| 1 <<< UInt8.ofNat (index % 8)))
            (by rw [List.length_set]; omega)
          refine ⟨packed, ?_, by rw [hlength, List.length_set], fun place => ?_⟩
          · rw [setBits, if_pos rfl, byteAt_eq hbyte, pure_bind, mask_eq (Nat.mod_lt _ (by decide)),
              pure_bind, hpacked]
          · rw [hbits, hfrom, bit_set hbyte, Bool.and_true, Bool.or_assoc]

lemma pack_eq (bits : List Bool) : pack bits = pure (Bits.pack bits) := by
  have hclear (place : Nat) :
      Bits.bit (List.replicate (Bits.bytesFor bits.length) 0) place = false := by
    rw [Bits.bit]
    split
    · rename_i byte hbyte
      obtain rfl := List.eq_of_mem_replicate (List.mem_of_getElem? hbyte)
      exact Nat.zero_testBit _
    · rfl
  obtain ⟨packed, hpacked, hlength, hbits⟩ :=
    setBits_eq bits 0 (List.replicate (Bits.bytesFor bits.length) 0) (by
      rw [List.length_replicate, Bits.bytesFor]
      omega)
  rw [pack, hpacked]
  refine congrArg pure (Bits.ext_bit ?_ fun place => ?_)
  · rw [hlength, List.length_replicate, Bits.length_pack]
  · rw [hbits, hclear, Bits.bit_pack]
    simp

/-- **Writing a reply.** -/
def pdu (response : Response) : Guarded Bytes := do
  match response with
  | .bits table values =>
    let packed ← pack values
    let _capacity ← plus 2 packed.length
    return table.code :: Response.counted packed
  | .words table values =>
    let size ← times values.length 2
    let _capacity ← plus 2 size
    return table.code :: UInt8.ofNat size :: Word.listToBytes values
  | response => return response.toPdu

/-- **A reply to one request**: no more cells than a count can name, and a page that fits. -/
def Moderate : Response → Prop
  | .bits _ values => values.length < 2 ^ 16
  | .words _ values => values.length < 2 ^ 16
  | .identification page => page.Fits
  | _ => True

lemma pdu_eq {response : Response} (h : Moderate response) :
    pdu response = pure response.toPdu := by
  cases response with
  | bits table values =>
      have hlength : (Bits.pack values).length < 2 ^ 16 := by
        simp only [Moderate] at h
        rw [Bits.length_pack, Bits.bytesFor]
        omega
      rw [pdu, pack_eq, pure_bind, plus_eq (by omega), pure_bind]
      rfl
  | words table values =>
      have hlength := Request.length_listToBytes values
      simp only [Moderate] at h
      rw [pdu, times_eq (by omega), pure_bind, plus_eq (by omega), pure_bind, Response.toPdu,
        Response.counted, hlength, Nat.mul_comm]
  | _ => rfl

lemma length_toPdu_lt {response : Response} (h : Moderate response) :
    response.toPdu.length < 2 ^ 18 := by
  cases response with
  | bits table values =>
      simp only [Moderate] at h
      simp only [Response.toPdu, Response.counted, List.length_cons, Bits.length_pack,
        Bits.bytesFor]
      omega
  | words table values =>
      simp only [Moderate] at h
      simp only [Response.toPdu, Response.counted, List.length_cons, Request.length_listToBytes]
      omega
  | identification page =>
      have hfits : identificationHeader + Object.totalSize page.objects ≤ Limit.maxPdu := h
      rw [Response.length_identification]
      exact Nat.lt_of_le_of_lt hfits (by decide)
  | _ => simp [Response.toPdu, Request.writeCoilPdu, Request.writeRegisterPdu]

/-- A page takes no more than the PDU it is made for. -/
lemma fits_of_page {identity : Identity} {category : Category} {first : UInt8}
    {page : IdentificationReply} (h : identity.page category first Limit.maxPdu = .ok page) :
    page.Fits := by
  simp only [Identity.page] at h
  split at h
  · cases h
  · rename_i start _
    obtain ⟨taken, rest, hfitting, -, hsize⟩ := Object.fitting_eq
      (Limit.maxPdu - identificationHeader)
      ((identity.entries start (category.lastObject first)).filter fun object =>
        !Object.isReserved object.id)
    rw [hfitting] at h
    split at h
    · cases h
    · rename_i objects next _ htaken
      obtain ⟨rfl, -⟩ := Prod.mk.inj htaken
      obtain rfl := Except.ok.inj h
      simp only [IdentificationReply.Fits, Limit.maxPdu, identificationHeader] at hsize ⊢
      omega

lemma moderate_answer (identity : Identity) (category : Category) (first : UInt8) :
    Moderate (identity.answer category first Limit.maxPdu) := by
  rw [Identity.answer]
  cases hpage : identity.page category first Limit.maxPdu with
  | ok page => exact fits_of_page hpage
  | error code => trivial

/-- **A device's replies are moderate.** -/
lemma moderate_of_handle {store : Store} {unit : UnitId} {request : Request} {response : Response}
    (h : (store.handle unit request).reply = some response) : Moderate response := by
  cases hunit : store.hasUnit unit with
  | false => simp [Store.handle, hunit] at h
  | true =>
      cases request with
      | readBits table start count =>
          simp only [Store.handle, hunit, Store.readBits, Option.map_map] at h
          obtain ⟨image, -, rfl⟩ := Option.map_eq_some_iff.mp h
          have hcount := count.toNat_lt
          simpa [Moderate] using hcount
      | readWords table start count =>
          simp only [Store.handle, hunit, Store.readWords, Option.map_map] at h
          obtain ⟨image, -, rfl⟩ := Option.map_eq_some_iff.mp h
          have hcount := count.toNat_lt
          simpa [Moderate] using hcount
      | identify category object =>
          simp only [Store.handle, hunit] at h
          obtain rfl := Option.some.inj h
          exact moderate_answer store.identity category object
      | _ =>
          simp only [Store.handle, hunit] at h
          obtain rfl := Option.some.inj h
          trivial

end Modbus.Guarded
