import Mathlib.Data.Nat.Bitwise
import Modbus.Proofs.Framing.Spelling
import Modbus.Proofs.Guarded.Steps

/-!
# Reply PDUs by position

The readers of reply PDUs with every index checked, each of them equal to the reader of the library:
`readData_eq`, `readBits_eq`, `readWords_eq`, `echo_eq`, `fragment_eq` and, for the shape of a whole
reply, `checkShape_eq`.

All of them begin with the function code, and where the reader gets past it the PDU is that code and
what follows it (`Reply.payload_eq_ok`); the rest is one comparison of lengths for each shape.  The
objects of an identification are the exception.  They have no fixed place, and the position in them
grows with sizes that the reply itself announces: `records_bind` carries the position along the
records, never past the end and never beyond what so many records can add up to.
-/

namespace Modbus.Guarded

/-! ## Bits and words -/

/-- The data of a read reply, as many bytes as it announces. -/
def readData (function : UInt8) (pdu : Bytes) : Guarded Bytes := do
  let _ ← within (Reply.payload function pdu)
  if pdu.length < 2 then throw (.framing .truncatedPdu)
  else
    let size ← byteAt pdu 1
    let data ← slice pdu 2 pdu.length
    if data.length ≠ size.toNat then
      throw (.framing (.declaredByteCount size.toNat data.length))
    else return data

lemma readData_eq (function : UInt8) (pdu : Bytes) :
    readData function pdu = within (Reply.data function pdu) := by
  refine bind_within fun rest hrest => ?_
  obtain rfl := Reply.payload_eq_ok hrest
  cases rest with
  | nil => rfl
  | cons size data =>
      have hlong : ¬ (function :: size :: data).length < 2 := Nat.not_lt.mpr (Nat.le_add_left _ _)
      rw [if_neg hlong, slice_length (Nat.not_lt.mp hlong)]
      by_cases hsize : data.length = size.toNat <;> simp [hsize]

/-- The first `count` bits, each behind its mask; a bit beyond the last byte is off. -/
def unpack (bytes : Bytes) (count : Nat) : Guarded (List Bool) :=
  (List.range count).mapM fun index =>
    match bytes[index / 8]? with
    | some byte => do return byte &&& (← mask (index % 8)) != 0
    | none => return false

lemma toNat_mask {place : Nat} (h : place < 8) :
    ((1 : UInt8) <<< UInt8.ofNat place).toNat = 2 ^ place := by
  have table : ∀ p : Fin 8, ((1 : UInt8) <<< UInt8.ofNat p.val).toNat = 2 ^ p.val := by decide
  exact table ⟨place, h⟩

/-- **A bit behind a mask** is the bit at the place of the mask. -/
lemma and_mask {place : Nat} (h : place < 8) (byte : UInt8) :
    (byte &&& 1 <<< UInt8.ofNat place != 0) = byte.toNat.testBit place := by
  have hzero : byte &&& 1 <<< UInt8.ofNat place = 0 ↔ byte.toNat.testBit place = false := by
    rw [← UInt8.toNat_inj, UInt8.toNat_and, toNat_mask h, Nat.and_two_pow]
    cases byte.toNat.testBit place <;> simp
  rw [Bool.eq_iff_iff, bne_iff_ne, ne_eq, hzero, Bool.not_eq_false]

lemma unpack_eq (bytes : Bytes) (count : Nat) :
    unpack bytes count = pure (Bits.unpack bytes count) := by
  have hbit : (fun index => match bytes[index / 8]? with
      | some byte => do return byte &&& (← mask (index % 8)) != 0
      | none => return false) = fun index => (pure (Bits.bit bytes index) : Guarded Bool) := by
    funext index
    rw [Bits.bit]
    cases bytes[index / 8]? with
    | none => rfl
    | some byte =>
        have hplace : index % 8 < 8 := Nat.mod_lt _ (by decide)
        simp only [mask_eq hplace, pure_bind, and_mask hplace]
  rw [unpack, hbit, List.mapM_pure, Bits.unpack]

/-- Bytes cut in two and two; a last odd byte is left out. -/
def pairs : Bytes → List Bytes
  | first :: second :: rest => [first, second] :: pairs rest
  | _ => []

lemma pairs_eq : ∀ data : Bytes, pairs data = (Word.listOfBytes data).map Word.toBytes
  | [] => rfl
  | [_] => rfl
  | first :: second :: rest => by
      rw [pairs, Word.listOfBytes, List.map_cons, Word.toBytes_ofBytes, pairs_eq rest]

/-- The word at the beginning of each of several pieces. -/
def words (pieces : List Bytes) : Guarded (List UInt16) :=
  pieces.mapM fun piece => word piece 0

lemma words_toBytes (values : List UInt16) : words (values.map Word.toBytes) = pure values := by
  have hword : (fun piece => word piece 0) ∘ Word.toBytes = fun value => pure (id value) := by
    funext value
    rw [Function.comp_apply, Word.toBytes, word_eq (by decide) rfl rfl, Word.ofBytes_high_low]
    rfl
  rw [words, List.mapM_map, hword, List.mapM_pure, List.map_id]

/-- The bits of a reply to a read of `count` bits. -/
def readBits (function : UInt8) (pdu : Bytes) (count : UInt16) : Guarded (List Bool) := do
  let data ← readData function pdu
  let expected := Bits.bytesFor count.toNat
  if data.length ≠ expected then throw (.framing (.bitByteCount expected count data.length))
  else unpack data count.toNat

lemma readBits_eq (function : UInt8) (pdu : Bytes) (count : UInt16) :
    readBits function pdu count = within (Reply.bits function pdu count) := by
  rw [readBits, readData_eq]
  refine bind_within fun data _ => ?_
  by_cases hlength : data.length = Bits.bytesFor count.toNat <;> simp [hlength, unpack_eq]

/-- The words of a reply to a read of `count` words. -/
def readWords (function : UInt8) (pdu : Bytes) (count : UInt16) : Guarded (List UInt16) := do
  let data ← readData function pdu
  if data.length < (← times count.toNat 2) then
    throw (.framing (.wordByteCount data.length count))
  else words ((pairs data).take count.toNat)

lemma readWords_eq (function : UInt8) (pdu : Bytes) (count : UInt16) :
    readWords function pdu count = within (Reply.words function pdu count) := by
  have hcount := count.toNat_lt
  rw [readWords, readData_eq]
  refine bind_within fun data _ => ?_
  rw [times_eq (by omega), pure_bind, Nat.mul_comm, pairs_eq, ← List.map_take, words_toBytes]
  by_cases hlength : data.length < 2 * count.toNat <;> simp [hlength]

/-! ## Echoes -/

/-- The two words that a PDU of five bytes has behind its function code. -/
def wordPair (pdu : Bytes) : Guarded (Option (UInt16 × UInt16)) := do
  if pdu.length ≠ 5 then return none
  else return some (← word pdu 1, ← word pdu 3)

lemma wordPair_eq (code : UInt8) (payload : Bytes) :
    wordPair (code :: payload)
      = pure (match Request.startAndCount payload with
          | some (first, second, []) => some (first, second)
          | _ => none) := by
  match payload with
  | [] | [_] | [_, _] | [_, _, _] | [_, _, _, _] => rfl
  | a :: b :: c :: d :: e :: later =>
      have hlong : (code :: a :: b :: c :: d :: e :: later).length ≠ 5 := by simp
      rw [wordPair, if_pos hlong]
      rfl

/-- The two words that a device echoes after a write. -/
def echo (function : UInt8) (pdu : Bytes) : Guarded (UInt16 × UInt16) := do
  let _ ← within (Reply.payload function pdu)
  match ← wordPair pdu with
  | some words => return words
  | none => throw (.framing (.echoLength pdu.length))

lemma echo_eq (function : UInt8) (pdu : Bytes) :
    echo function pdu = within (Reply.echo function pdu) := by
  refine bind_within fun rest hrest => ?_
  obtain rfl := Reply.payload_eq_ok hrest
  rw [wordPair_eq, pure_bind]
  rcases Request.startAndCount rest with _ | ⟨first, second, _ | ⟨next, later⟩⟩ <;> rfl

def coil (pdu : Bytes) : Guarded Coil := do
  let (address, word) ← echo Function.writeCoil.code pdu
  match coilState? word with
  | some on => return ⟨address, on⟩
  | none => throw (.framing (.coilValue word))

lemma coil_eq (pdu : Bytes) : coil pdu = within (Reply.coil pdu) := by
  rw [coil, echo_eq]
  refine bind_within fun (address, word) _ => ?_
  dsimp only
  cases coilState? word with
  | none => rfl
  | some on => rfl

def register (pdu : Bytes) : Guarded Register := do
  let (address, word) ← echo Function.writeRegister.code pdu
  return ⟨address, word⟩

lemma register_eq (pdu : Bytes) : register pdu = within (Reply.register pdu) := by
  rw [register, echo_eq]
  exact bind_within fun (address, word) _ => rfl

/-! ## Identification -/

/-- The records of `count` objects from `position` on, and where the last of them ends. -/
def records (pdu : Bytes) : Nat → Nat → Guarded (List Object × Nat)
  | 0, position => return ([], position)
  | count + 1, position => do
    let first ← plus position 2
    if pdu.length < first then throw (.framing .missingObject)
    else
      let id ← byteAt pdu position
      let size ← byteAt pdu (← plus position 1)
      let last ← plus first size.toNat
      if pdu.length < last then throw (.framing (.objectLength id))
      else
        let data ← slice pdu first last
        let (objects, ending) ← records pdu count last
        return (⟨id, data⟩ :: objects, ending)

/-- A value read up to `position`, unless something follows. -/
def closed {α : Type} (pdu : Bytes) (position : Nat) (value : α) : Guarded α := do
  if position ≠ pdu.length then
    throw (.framing (.trailingBytes (← minus pdu.length position)))
  else return value

lemma closed_eq {α : Type} {pdu : Bytes} {position : Nat} (h : position ≤ pdu.length) (value : α) :
    closed pdu position value
      = within ((Reply.objects 0 (pdu.drop position)).map fun _ => value) := by
  by_cases hend : position = pdu.length
  · rw [closed, if_neg (not_not_intro hend), hend, List.drop_length]
    rfl
  · have hlength : (pdu.drop position).length = pdu.length - position := List.length_drop
    have hmore : 0 < (pdu.drop position).length := by omega
    obtain ⟨next, later, hdrop⟩ := List.exists_cons_of_length_pos hmore
    rw [closed, if_pos hend, minus_eq h, pure_bind, ← hlength, hdrop]
    rfl

/-- **One record** is read where it stands: the position moves past it, or its size is too large
for what is left. -/
lemma records_succ {pdu rest : Bytes} {position : Nat} {id size : UInt8} (count : Nat)
    (hrecord : pdu.drop position = id :: size :: rest) (hbound : position < 2 ^ 31) :
    records pdu (count + 1) position
      = if rest.length < size.toNat then throw (.framing (.objectLength id))
        else do
          let (objects, ending) ← records pdu count (position + 2 + size.toNat)
          return (⟨id, rest.take size.toNat⟩ :: objects, ending) := by
  have hsize := size.toNat_lt
  have hlength : (pdu.drop position).length = pdu.length - position := List.length_drop
  rw [hrecord] at hlength
  simp only [List.length_cons] at hlength
  have hid : pdu[position]? = some id := by rw [← List.head?_drop, hrecord, List.head?_cons]
  have hnext : pdu[position + 1]? = some size := by
    rw [← List.getElem?_drop, hrecord]
    rfl
  rw [records, plus_eq (by omega), pure_bind, if_neg (by omega), byteAt_eq hid, pure_bind,
    plus_eq (by omega), pure_bind, byteAt_eq hnext, pure_bind, plus_eq (by omega), pure_bind]
  by_cases hshort : rest.length < size.toNat
  · rw [if_pos hshort, if_pos (by omega)]
  · have hrest : pdu.drop (position + 2) = rest := by
      rw [← List.drop_drop, hrecord]
      rfl
    have hlast : position + 2 + size.toNat ≤ pdu.length := by omega
    rw [if_neg hshort, if_neg (by omega), slice_eq (Nat.le_add_right _ _) hlast, pure_bind, hrest,
      Nat.add_sub_cancel_left]

/-- **The position in the records** moves past one record at a time.  It never passes the end, and
since a record takes at most 257 bytes, it never grows beyond what can be counted. -/
lemma records_bind {α : Type} (pdu : Bytes) : ∀ (count position : Nat) (change : List Object → α),
    position ≤ pdu.length → position + 257 * count < 2 ^ 31 →
      (records pdu count position >>= fun (objects, ending) => closed pdu ending (change objects))
        = within ((Reply.objects count (pdu.drop position)).map change)
  | 0, position, change, hinside, _ => by
      refine (closed_eq hinside (change [])).trans ?_
      cases pdu.drop position <;> rfl
  | count + 1, position, change, hinside, hbound => by
      have hlength : (pdu.drop position).length = pdu.length - position := List.length_drop
      match hrecord : pdu.drop position with
      | [] | [_] =>
          rw [hrecord] at hlength
          simp only [List.length_cons, List.length_nil] at hlength
          rw [records, plus_eq (by omega), pure_bind, if_pos (by omega)]
          rfl
      | id :: size :: rest =>
          have hsize := size.toNat_lt
          rw [hrecord] at hlength
          simp only [List.length_cons] at hlength
          rw [records_succ count hrecord (by omega), Reply.objects]
          by_cases hshort : rest.length < size.toNat
          · rw [if_pos hshort, if_pos hshort]
            rfl
          · -- the record just read goes in front of those that follow, which is a change of them
            have hlater := records_bind pdu count (position + 2 + size.toNat)
              (fun objects => change (⟨id, rest.take size.toNat⟩ :: objects)) (by omega) (by omega)
            rw [Nat.add_assoc, ← List.drop_drop, hrecord, Nat.add_comm 2, List.drop_succ_cons,
              List.drop_succ_cons] at hlater
            rw [if_neg hshort, if_neg hshort, bind_assoc, Nat.add_assoc, Nat.add_comm 2]
            simp only [pure_bind]
            rw [hlater]
            cases Reply.objects count (rest.drop size.toNat) <;> rfl

/-- One page of an identification. -/
def fragment (pdu : Bytes) : Guarded Fragment := do
  let _ ← within (Reply.payload Function.identify.code pdu)
  if pdu.length < identificationHeader then throw (.framing .truncatedPdu)
  else
    let mei ← byteAt pdu 1
    if mei ≠ Request.meiIdentification then throw (.framing (.meiMismatch mei))
    else
      let conformity ← byteAt pdu 3
      let more ← byteAt pdu 4
      let next ← byteAt pdu 5
      let count ← byteAt pdu 6
      let (objects, ending) ← records pdu count.toNat identificationHeader
      closed pdu ending {
        individualAccess := conformity &&& 0x80 != 0
        moreFollows := more == 0xFF
        nextObject := next
        objects }

lemma fragment_eq (pdu : Bytes) : fragment pdu = within (Reply.fragment pdu) := by
  refine bind_within fun rest hrest => ?_
  obtain rfl := Reply.payload_eq_ok hrest
  match rest with
  | [] | [_] | [_, _] | [_, _, _] | [_, _, _, _] | [_, _, _, _, _] => rfl
  | mei :: _ :: conformity :: more :: next :: count :: later =>
      have hcount := count.toNat_lt
      rw [if_neg (by simp [identificationHeader])]
      simp only [byteAt_succ, byteAt_zero, pure_bind]
      by_cases hmei : mei = Request.meiIdentification
      · rw [if_neg (not_not_intro hmei), if_neg (not_not_intro hmei),
          records_bind _ count.toNat identificationHeader (Fragment.mk _ _ _)
            (by simp [identificationHeader]) (by simp only [identificationHeader]; omega)]
        change within ((Reply.objects count.toNat later).map _) = _
        cases Reply.objects count.toNat later <;> rfl
      · rw [if_pos hmei, if_pos hmei]
        rfl

/-! ## The shape of a reply -/

/-- **The shape of a reply PDU.** -/
def checkShape (request pdu : Bytes) : Guarded Unit :=
  match pdu with
  | [] => throw (.framing .emptyPdu)
  | code :: _ =>
    match Function.ofCode? code with
    | some (.readBits _) | some (.readWords _) => do
      let _ ← readData code pdu
    | some .writeCoil | some .writeRegister | some .writeCoils | some .writeRegisters => do
      let _ ← echo code pdu
    | some .identify => do
      let _ ← fragment pdu
      match Reply.categoryFault? request pdu with
      | some fault => throw (.framing fault)
      | none => return ()
    | none => return ()

lemma checkShape_eq (request pdu : Bytes) :
    checkShape request pdu = within (Reply.checkShape request pdu) := by
  cases pdu with
  | nil => rfl
  | cons code rest =>
      simp only [checkShape, Reply.checkShape]
      cases Function.ofCode? code with
      | none => rfl
      | some function =>
          cases function with
          | readBits table => rw [readData_eq, map_within]
          | readWords table => rw [readData_eq, map_within]
          | identify =>
              rw [fragment_eq]
              refine bind_within fun _ _ => ?_
              cases Reply.categoryFault? request (code :: rest) <;> rfl
          | _ => rw [echo_eq, map_within]

end Modbus.Guarded
