import Modbus.Proofs.Guarded.Replies

/-!
# Request PDUs by position

The reader of request PDUs with every index checked (`Guarded.request`), equal to `Request.ofPdu`
(`request_eq`).  A request that breaks the rules is a request still, so `served_eq` has no error in
it: whatever the payload of a served function, the reader stays within it.

One step is neither an index nor a slice.  The last address of a range is its start and its count
less one, computed in 32 bits; by then the count is known not to be zero, and that is the hypothesis
of `addressed_eq`.
-/

namespace Modbus.Guarded

/-- A request whose range is at most as long as allowed, unless its last address is none. -/
def addressed (function : Function) (start count : UInt16) (request : Guarded Request) :
    Guarded Request := do
  let last ← minus (← plus start.toNat count.toNat) 1
  if 65535 < last then return .invalid function.code .illegalDataAddress
  else request

lemma addressed_eq {start count : UInt16} (h : 1 ≤ count.toNat) (function : Function)
    (request : Request) :
    addressed function start count (pure request)
      = pure (if Request.overflows start count then .invalid function.code .illegalDataAddress
          else request) := by
  have hstart := start.toNat_lt
  have hcount := count.toNat_lt
  have hlast : 65535 < start.toNat + count.toNat - 1 ↔ Request.overflows start count = true := by
    rw [Request.overflows, decide_eq_true_eq]
    omega
  rw [addressed, plus_eq (by omega), pure_bind, minus_eq (by omega), pure_bind]
  simp only [hlast]
  split <;> rfl

/-- A count that is in order is not zero. -/
lemma one_le_of_not {max count : UInt16} (h : ¬ (count < 1 ∨ max < count)) : 1 ≤ count.toNat := by
  rw [not_or, UInt16.not_lt, UInt16.le_iff_toNat_le] at h
  exact h.1

lemma checked_of_not {max count : UInt16} (h : ¬ (count < 1 ∨ max < count)) (function : Function)
    (start : UInt16) (request : Request) :
    Request.checked function max start count request
      = if Request.overflows start count then .invalid function.code .illegalDataAddress
        else request := by
  rw [Request.checked, Request.rangeFault?, if_neg h]
  split_ifs <;> rfl

/-! ## Reads -/

/-- A request that is a range and nothing else. -/
def readRange (function : Function) (max : UInt16) (make : UInt16 → UInt16 → Request)
    (pdu : Bytes) : Guarded Request := do
  match ← wordPair pdu with
  | some (start, count) =>
    if count < 1 ∨ max < count then return .invalid function.code .illegalDataValue
    else addressed function start count (pure (make start count))
  | none => return .invalid function.code .illegalDataValue

lemma readRange_eq (function : Function) (max : UInt16) (make : UInt16 → UInt16 → Request)
    (code : UInt8) (payload : Bytes) :
    readRange function max make (code :: payload)
      = pure (match Request.startAndCount payload with
          | some (start, count, []) => Request.checked function max start count (make start count)
          | _ => .invalid function.code .illegalDataValue) := by
  rw [readRange, wordPair_eq, pure_bind]
  rcases Request.startAndCount payload with _ | ⟨start, count, _ | ⟨next, later⟩⟩
  · rfl
  · dsimp only
    by_cases hcount : count < 1 ∨ max < count
    · rw [if_pos hcount, Request.checked, Request.rangeFault?, if_pos hcount]
    · rw [if_neg hcount, addressed_eq (one_le_of_not hcount), checked_of_not hcount]
  · rfl

/-! ## Writes -/

/-- The start, the count and the data of a write of several cells, if the count is in order, the
announced size is what so many cells need, and as much follows. -/
def writeHeader (max : UInt16) (bytesFor : Nat → Guarded Nat) (pdu : Bytes) :
    Guarded (Option (UInt16 × UInt16 × Bytes)) := do
  if pdu.length < 6 then return none
  else
    let start ← word pdu 1
    let count ← word pdu 3
    let size ← byteAt pdu 5
    let data ← slice pdu 6 pdu.length
    if count < 1 ∨ max < count then return none
    else if size.toNat ≠ (← bytesFor count.toNat) ∨ data.length ≠ size.toNat then return none
    else return some (start, count, data)

/-- A write of several cells. -/
def writeRange (function : Function) (max : UInt16) (bytesFor : Nat → Guarded Nat)
    (make : UInt16 → UInt16 → Bytes → Guarded Request) (pdu : Bytes) : Guarded Request := do
  match ← writeHeader max bytesFor pdu with
  | some (start, count, data) => addressed function start count (make start count data)
  | none => return .invalid function.code .illegalDataValue

lemma writeRange_eq {bytesFor : Nat → Guarded Nat} {needed : Nat → Nat}
    (hbytes : ∀ count : UInt16, bytesFor count.toNat = pure (needed count.toNat))
    {make : UInt16 → UInt16 → Bytes → Guarded Request} {made : UInt16 → UInt16 → Bytes → Request}
    (hmake : ∀ start count data, make start count data = pure (made start count data))
    (function : Function) (max : UInt16) (code : UInt8) (payload : Bytes) :
    writeRange function max bytesFor make (code :: payload)
      = pure (match Request.writePayload? needed payload with
          | some (start, count, data) =>
            Request.checked function max start count (made start count data)
          | none => .invalid function.code .illegalDataValue) := by
  match payload with
  | [] | [_] | [_, _] | [_, _, _] | [_, _, _, _] => rfl
  | a :: b :: c :: d :: size :: data =>
      have hlong : ¬ (code :: a :: b :: c :: d :: size :: data).length < 6 := by simp
      rw [writeRange, writeHeader, if_neg hlong, word_eq (by decide) rfl rfl, pure_bind,
        word_eq (by decide) rfl rfl, pure_bind, byteAt_eq rfl, pure_bind,
        slice_length (Nat.not_lt.mp hlong), pure_bind]
      simp only [Request.writePayload?, Request.startAndCount, List.drop_succ_cons, List.drop_zero]
      by_cases hcount : Word.ofBytes c d < 1 ∨ max < Word.ofBytes c d
      · rw [if_pos hcount]
        by_cases hsize : size.toNat = needed (Word.ofBytes c d).toNat ∧ data.length = size.toNat
        · rw [if_pos hsize]
          simp only [Request.checked, Request.rangeFault?, if_pos hcount, pure_bind]
        · rw [if_neg hsize, pure_bind]
      · rw [if_neg hcount, hbytes, pure_bind]
        by_cases hsize : size.toNat = needed (Word.ofBytes c d).toNat ∧ data.length = size.toNat
        · rw [if_neg (by tauto), if_pos hsize, pure_bind]
          simp only [hmake, addressed_eq (one_le_of_not hcount), checked_of_not hcount]
        · rw [if_pos (by tauto), if_neg hsize, pure_bind]

/-! ## Requests of fixed length -/

def writeCoil (pdu : Bytes) : Guarded Request := do
  match ← wordPair pdu with
  | some (address, word) =>
    match coilState? word with
    | some on => return .writeCoil ⟨address, on⟩
    | none => return .invalid Function.writeCoil.code .illegalDataValue
  | none => return .invalid Function.writeCoil.code .illegalDataValue

lemma writeCoil_eq (code : UInt8) (payload : Bytes) :
    writeCoil (code :: payload) = pure (Request.ofPayload .writeCoil payload) := by
  rw [writeCoil, wordPair_eq, pure_bind, Request.ofPayload]
  rcases Request.startAndCount payload with _ | ⟨address, word, _ | ⟨next, later⟩⟩
  · rfl
  · cases hword : coilState? word <;> simp [hword]
  · rfl

def writeRegister (pdu : Bytes) : Guarded Request := do
  match ← wordPair pdu with
  | some (address, word) => return .writeRegister ⟨address, word⟩
  | none => return .invalid Function.writeRegister.code .illegalDataValue

lemma writeRegister_eq (code : UInt8) (payload : Bytes) :
    writeRegister (code :: payload) = pure (Request.ofPayload .writeRegister payload) := by
  rw [writeRegister, wordPair_eq, pure_bind, Request.ofPayload]
  rcases Request.startAndCount payload with _ | ⟨address, word, _ | ⟨next, later⟩⟩ <;> rfl

def identify (pdu : Bytes) : Guarded Request := do
  if pdu[1]? ≠ some Request.meiIdentification then
    return .invalid Function.identify.code .illegalFunction
  else if pdu.length ≠ 4 then return .invalid Function.identify.code .illegalDataValue
  else
    match Category.ofCode? (← byteAt pdu 2) with
    | some category => return .identify category (← byteAt pdu 3)
    | none => return .invalid Function.identify.code .illegalDataValue

lemma identify_eq (code : UInt8) (payload : Bytes) :
    identify (code :: payload) = pure (Request.ofPayload .identify payload) := by
  match payload with
  | [] => rfl
  | [mei] | [mei, _] =>
      by_cases hmei : mei = Request.meiIdentification <;> simp [identify, Request.ofPayload, hmei]
  | [mei, read, object] =>
      by_cases hmei : mei = Request.meiIdentification
      · cases hread : Category.ofCode? read <;> simp [identify, Request.ofPayload, hmei, hread]
      · simp [identify, Request.ofPayload, hmei]
  | mei :: read :: object :: other :: later =>
      by_cases hmei : mei = Request.meiIdentification <;> simp [identify, Request.ofPayload, hmei]

/-! ## All requests -/

/-- The request of a served function. -/
def served (function : Function) (pdu : Bytes) : Guarded Request :=
  match function with
  | .readBits table => readRange function Limit.readBits (.readBits table) pdu
  | .readWords table => readRange function Limit.readWords (.readWords table) pdu
  | .writeCoil => writeCoil pdu
  | .writeRegister => writeRegister pdu
  | .writeCoils =>
    writeRange function Limit.writeCoils (fun count => pure (Bits.bytesFor count))
      (fun start count data => do
        return .writeCoils (Cell.sequence start (← unpack data count.toNat))) pdu
  | .writeRegisters =>
    writeRange function Limit.writeRegisters (fun count => times count 2)
      (fun start _ data => do
        return .writeRegisters (Cell.sequence start (← words (pairs data)))) pdu
  | .identify => identify pdu

/-- **No payload makes the reader of a served function leave it.** -/
lemma served_eq (function : Function) (code : UInt8) (payload : Bytes) :
    served function (code :: payload) = pure (Request.ofPayload function payload) := by
  cases function with
  | readBits table => exact readRange_eq _ _ _ _ _
  | readWords table => exact readRange_eq _ _ _ _ _
  | writeCoil => exact writeCoil_eq code payload
  | writeRegister => exact writeRegister_eq code payload
  | writeCoils =>
      refine writeRange_eq (fun _ => rfl) (fun start count data => ?_) _ _ _ _
      rw [unpack_eq, pure_bind]
  | writeRegisters =>
      refine writeRange_eq (fun count => ?_) (fun start _ data => ?_) _ _ _ _
      · have hcount := count.toNat_lt
        rw [times_eq (by omega), Nat.mul_comm]
      · rw [pairs_eq, words_toBytes, pure_bind]
  | identify => exact identify_eq code payload

/-- **Reading a request.** -/
def request (pdu : Bytes) : Guarded Request :=
  match pdu with
  | [] => throw (.framing .emptyPdu)
  | code :: _ =>
    match Function.ofCode? code with
    | some function => served function pdu
    | none => return .unsupported code

lemma request_eq (pdu : Bytes) : request pdu = within (Request.ofPdu pdu) := by
  cases pdu with
  | nil => rfl
  | cons code payload =>
      simp only [request, Request.ofPdu]
      cases Function.ofCode? code with
      | none => rfl
      | some function => exact served_eq function code payload

end Modbus.Guarded
