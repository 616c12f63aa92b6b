import Modbus.Response
import Modbus.Proofs.Result

/-!
# What a readable PDU looks like

A PDU is read by functions that refuse whatever does not fit: `Request.ofPdu` on the device's side,
`Reply.checkShape` on the client's.  This file turns their success into facts about the bytes.

**Requests.**  `Request.Layout function payload request` lists what the payload of a served request
can look like, one case for each function, with the limits that were checked.  Every request that
is read and not refused has such a layout (`Request.layout_of_served`), so later proofs take a
request apart by its layout and never open the reader again.  In particular a served request tells
how long its PDU was (`Request.length_of_ofPdu`).

**Replies.**  `Reply.checkShape` accepts a reply of a served function only if its length is what
its fields announce; `Reply.data_eq_ok`, `Reply.echo_eq_ok` and `Reply.fragment_layout` say it of
the three shapes that there are.
-/

namespace Modbus

namespace Request

/-! ## Requests -/

/-- **A request that a device serves**, as opposed to one it answers with an exception. -/
def isServed : Request → Bool
  | invalid _ _ => false
  | unsupported _ => false
  | _ => true

/-- The bytes of the PDU that a served request is read from. -/
def pduLength : Request → Nat
  | readBits _ _ _ => 5
  | readWords _ _ _ => 5
  | writeCoil _ => 5
  | writeRegister _ => 5
  | writeCoils coils => 6 + Bits.bytesFor coils.length
  | writeRegisters registers => 6 + 2 * registers.length
  | identify _ _ => 4
  | invalid _ _ => 0
  | unsupported _ => 0

/-- **The payload of a served request**, function by function. -/
inductive Layout : Function → Bytes → Request → Prop where
  | readBits {table : BitTable} {start count : UInt16}
      (hrange : rangeFault? Limit.readBits start count = none) :
      Layout (.readBits table) (Word.toBytes start ++ Word.toBytes count)
        (.readBits table start count)
  | readWords {table : WordTable} {start count : UInt16}
      (hrange : rangeFault? Limit.readWords start count = none) :
      Layout (.readWords table) (Word.toBytes start ++ Word.toBytes count)
        (.readWords table start count)
  | writeCoil {address word : UInt16} {on : Bool} (hword : coilState? word = some on) :
      Layout .writeCoil (Word.toBytes address ++ Word.toBytes word) (.writeCoil ⟨address, on⟩)
  | writeRegister {address word : UInt16} :
      Layout .writeRegister (Word.toBytes address ++ Word.toBytes word)
        (.writeRegister ⟨address, word⟩)
  | writeCoils {start count : UInt16} {size : UInt8} {data : Bytes}
      (hrange : rangeFault? Limit.writeCoils start count = none)
      (hsize : size.toNat = Bits.bytesFor count.toNat) (hdata : data.length = size.toNat) :
      Layout .writeCoils (Word.toBytes start ++ Word.toBytes count ++ size :: data)
        (.writeCoils (Cell.sequence start (Bits.unpack data count.toNat)))
  | writeRegisters {start count : UInt16} {size : UInt8} {data : Bytes}
      (hrange : rangeFault? Limit.writeRegisters start count = none)
      (hsize : size.toNat = 2 * count.toNat) (hdata : data.length = size.toNat) :
      Layout .writeRegisters (Word.toBytes start ++ Word.toBytes count ++ size :: data)
        (.writeRegisters (Cell.sequence start (Word.listOfBytes data)))
  | identify {code object : UInt8} {category : Category}
      (hcategory : Category.ofCode? code = some category) :
      Layout .identify [meiIdentification, code, object] (.identify category object)

lemma startAndCount_eq_some {payload rest : Bytes} {start count : UInt16}
    (h : startAndCount payload = some (start, count, rest)) :
    payload = Word.toBytes start ++ Word.toBytes count ++ rest := by
  unfold startAndCount at h
  split at h
  · simp only [Option.some.injEq, Prod.mk.injEq] at h
    obtain ⟨rfl, rfl, rfl⟩ := h
    simp [Word.toBytes]
  · exact absurd h (by simp)

@[simp] lemma startAndCount_toBytes (start count : UInt16) (rest : Bytes) :
    startAndCount (Word.toBytes start ++ (Word.toBytes count ++ rest))
      = some (start, count, rest) := by
  simp [startAndCount, Word.toBytes]

lemma writePayload?_eq_some {bytesFor : Nat → Nat} {payload data : Bytes} {start count : UInt16}
    (h : writePayload? bytesFor payload = some (start, count, data)) :
    ∃ size : UInt8, payload = Word.toBytes start ++ Word.toBytes count ++ size :: data ∧
      size.toNat = bytesFor count.toNat ∧ data.length = size.toNat := by
  unfold writePayload? at h
  split at h
  · rename_i start' count' size data' heq
    split_ifs at h with hsize
    simp only [Option.some.injEq, Prod.mk.injEq] at h
    obtain ⟨rfl, rfl, rfl⟩ := h
    exact ⟨size, startAndCount_eq_some heq, hsize⟩
  · exact absurd h (by simp)

lemma checked_of_served {function : Function} {max start count : UInt16} {request : Request}
    (h : (checked function max start count request).isServed = true) :
    checked function max start count request = request ∧
      rangeFault? max start count = none := by
  unfold checked at h ⊢
  split at h <;> simp_all [isServed]

/-- **A request that is read and not refused has a layout.** -/
lemma layout_of_served (function : Function) (payload : Bytes)
    (h : (ofPayload function payload).isServed = true) :
    Layout function payload (ofPayload function payload) := by
  cases function with
  | readBits table =>
      simp only [ofPayload] at h ⊢
      split at h
      · rename_i heq
        obtain ⟨hsame, hrange⟩ := checked_of_served h
        simp only [hsame]
        rw [startAndCount_eq_some heq, List.append_nil]
        exact .readBits hrange
      · simp [isServed] at h
  | readWords table =>
      simp only [ofPayload] at h ⊢
      split at h
      · rename_i heq
        obtain ⟨hsame, hrange⟩ := checked_of_served h
        simp only [hsame]
        rw [startAndCount_eq_some heq, List.append_nil]
        exact .readWords hrange
      · simp [isServed] at h
  | writeCoil =>
      simp only [ofPayload] at h ⊢
      split at h
      · rename_i heq
        split at h
        · rename_i on hword
          rw [startAndCount_eq_some heq, List.append_nil]
          exact .writeCoil hword
        · simp [isServed] at h
      · simp [isServed] at h
  | writeRegister =>
      simp only [ofPayload] at h ⊢
      split at h
      · rename_i heq
        rw [startAndCount_eq_some heq, List.append_nil]
        exact .writeRegister
      · simp [isServed] at h
  | writeCoils =>
      simp only [ofPayload] at h ⊢
      split at h
      · rename_i start count data heq
        obtain ⟨hsame, hrange⟩ := checked_of_served h
        obtain ⟨size, hpayload, hsize, hdata⟩ := writePayload?_eq_some heq
        simp only [hsame]
        rw [hpayload]
        exact .writeCoils hrange hsize hdata
      · simp [isServed] at h
  | writeRegisters =>
      simp only [ofPayload] at h ⊢
      split at h
      · rename_i start count data heq
        obtain ⟨hsame, hrange⟩ := checked_of_served h
        obtain ⟨size, hpayload, hsize, hdata⟩ := writePayload?_eq_some heq
        simp only [hsame]
        rw [hpayload]
        exact .writeRegisters hrange hsize hdata
      · simp [isServed] at h
  | identify =>
      simp only [ofPayload] at h ⊢
      split at h
      · simp [isServed] at h
      · rename_i mei rest
        by_cases hmei : mei = meiIdentification
        · rw [if_neg (not_not_intro hmei)] at h ⊢
          split at h
          · split at h
            · rename_i hcategory
              simp only [hmei]
              exact .identify hcategory
            · simp [isServed] at h
          · simp [isServed] at h
        · simp [hmei, isServed] at h

/-- **The layout of a served request**, with the function that its code names. -/
lemma layout_of_ofPdu {pdu : Bytes} {request : Request} (h : ofPdu pdu = .ok request)
    (hserved : request.isServed = true) :
    ∃ code payload function, pdu = code :: payload ∧ Function.ofCode? code = some function ∧
      Layout function payload request := by
  cases pdu with
  | nil => simp [ofPdu] at h
  | cons code payload =>
      simp only [ofPdu] at h
      split at h
      · rename_i function hfunction
        rw [Except.ok.injEq] at h
        subst h
        exact ⟨code, payload, function, rfl, hfunction, layout_of_served function payload hserved⟩
      · rw [Except.ok.injEq] at h
        subst h
        simp [isServed] at hserved

lemma length_listOfBytes : ∀ data : Bytes, (Word.listOfBytes data).length = data.length / 2
  | [] => rfl
  | [_] => by simp [Word.listOfBytes]
  | _ :: _ :: rest => by
      simp only [Word.listOfBytes, List.length_cons, length_listOfBytes rest]
      omega

lemma Layout.length_eq {function : Function} {payload : Bytes} {request : Request}
    (h : Layout function payload request) : payload.length + 1 = request.pduLength := by
  cases h with
  | readBits _ => rfl
  | readWords _ => rfl
  | writeCoil _ => rfl
  | writeRegister => rfl
  | writeCoils _ hsize hdata =>
      simp only [pduLength, List.length_append, Word.length_toBytes, List.length_cons,
        Cell.length_sequence, Bits.length_unpack]
      omega
  | writeRegisters _ hsize hdata =>
      simp only [pduLength, List.length_append, Word.length_toBytes, List.length_cons,
        Cell.length_sequence, length_listOfBytes]
      omega
  | identify _ => rfl

/-- **A served request tells the length of its PDU.** -/
lemma length_of_ofPdu {pdu : Bytes} {request : Request} (h : ofPdu pdu = .ok request)
    (hserved : request.isServed = true) : pdu.length = request.pduLength := by
  obtain ⟨code, payload, function, rfl, -, hlayout⟩ := layout_of_ofPdu h hserved
  exact hlayout.length_eq

/-- **A range is in order** when it is not empty, not too long and within the address space. -/
lemma rangeFault?_eq_none {max start count : UInt16} :
    rangeFault? max start count = none ↔
      1 ≤ count.toNat ∧ count.toNat ≤ max.toNat ∧ start.toNat + count.toNat ≤ 65536 := by
  simp only [rangeFault?, overflows, UInt16.lt_iff_toNat_lt, decide_eq_true_eq,
    show (1 : UInt16).toNat = 1 from rfl]
  split_ifs <;> simp <;> omega

/-- **The PDU of a served request** is shorter than the longest PDU. -/
lemma Layout.length_lt {function : Function} {payload : Bytes} {request : Request}
    (h : Layout function payload request) : payload.length + 1 < Limit.maxPdu := by
  have hcoils : Limit.writeCoils.toNat = 1968 := rfl
  have hregisters : Limit.writeRegisters.toNat = 123 := rfl
  cases h with
  | writeCoils hrange hsize hdata =>
      have hcount := (rangeFault?_eq_none.mp hrange).2.1
      simp only [Bits.bytesFor, List.length_append, Word.length_toBytes, List.length_cons,
        Limit.maxPdu] at *
      omega
  | writeRegisters hrange hsize hdata =>
      have hcount := (rangeFault?_eq_none.mp hrange).2.1
      simp only [List.length_append, Word.length_toBytes, List.length_cons, Limit.maxPdu]
      omega
  | _ => simp [Limit.maxPdu]

/-- **The PDU of a served request fits.** -/
lemma length_le_of_ofPdu {pdu : Bytes} {request : Request} (h : ofPdu pdu = .ok request)
    (hserved : request.isServed = true) : pdu.length ≤ Limit.maxPdu := by
  obtain ⟨code, payload, function, rfl, -, hlayout⟩ := layout_of_ofPdu h hserved
  exact Nat.le_of_lt hlayout.length_lt

end Request

/-! ## Replies -/

namespace Reply

lemma payload_eq_ok {function : UInt8} {pdu rest : Bytes} (h : payload function pdu = .ok rest) :
    pdu = function :: rest := by
  unfold payload at h
  split at h
  · simp at h
  · split_ifs at h with hcode hflag
    · simp_all
    · split at h <;> simp at h

/-- **A read reply** counts the bytes of its data. -/
lemma data_eq_ok {function : UInt8} {pdu bytes : Bytes} :
    data function pdu = .ok bytes ↔
      ∃ size : UInt8, pdu = function :: size :: bytes ∧ bytes.length = size.toNat := by
  constructor
  · intro h
    obtain ⟨rest, hrest, h⟩ := Result.bind_eq_ok.mp h
    split at h
    · simp at h
    · rename_i size held
      split_ifs at h with hsize
      simp only [Result.pure_eq, Except.ok.injEq] at h
      subst h
      exact ⟨size, payload_eq_ok hrest, hsize⟩
  · rintro ⟨size, rfl, hsize⟩
    simp [data, payload, hsize]

/-- **The reply to a write** is two words. -/
lemma echo_eq_ok {function : UInt8} {pdu : Bytes} {first second : UInt16} :
    echo function pdu = .ok (first, second) ↔
      pdu = function :: (Word.toBytes first ++ Word.toBytes second) := by
  constructor
  · intro h
    obtain ⟨rest, hrest, h⟩ := Result.bind_eq_ok.mp h
    split at h
    · rename_i heq
      simp only [Result.pure_eq, Except.ok.injEq, Prod.mk.injEq] at h
      obtain ⟨rfl, rfl⟩ := h
      rw [payload_eq_ok hrest, Request.startAndCount_eq_some heq, List.append_nil]
    · simp at h
  · rintro rfl
    simp [echo, payload, Word.toBytes, Request.startAndCount]

/-- **An identification page** is six bytes and as many object records as the last of them
counts. -/
lemma fragment_layout {pdu : Bytes} {page : Fragment} (h : fragment pdu = .ok page) :
    ∃ mei category conformity more next count records,
      pdu = Function.identify.code :: mei :: category :: conformity :: more :: next :: count
        :: records ∧ objects count.toNat records = .ok page.objects := by
  obtain ⟨rest, hrest, h⟩ := Result.bind_eq_ok.mp h
  split at h
  · rename_i mei category conformity more next count records
    split_ifs at h with hmei
    · simp at h
    · obtain ⟨held, hheld, h⟩ := Result.bind_eq_ok.mp h
      simp only [Result.pure_eq, Except.ok.injEq] at h
      subst h
      exact ⟨mei, category, conformity, more, next, count, records, payload_eq_ok hrest, hheld⟩
  · simp at h

end Reply

end Modbus
