import Modbus.Proofs.Proxy.Requests
import Modbus.Proofs.Server.Alignment

/-!
# The grammar of requests

Clients and devices check requests apart from each other: counts and limits, announced and actual
lengths, the two words that stand for a coil, the last address.  This file shows that they agree on
every PDU (`grammar_of_pdu`): what a device serves is what a client can send.

Two halves meet at the layout of a served request.  What a device serves can be made again, and
gives the PDU back that it was read from (`encode?_of_layout`); whatever a client makes is served
(`Serialized.served`).  Coils that do not fill their last byte leave bits unused, which clients clear
and devices do not look at (`Serialized.clearPadding_eq`, `ofPdu_clearPadding`), so that all of it holds
up to those bits.

What is not served is refused for a reason, and one of the reasons is told apart: a range that is in
order but for where it ends (`Fields`, `ofPayload_eq_address`).
-/

namespace Modbus

/-! ## Bytes that stand for what they are read as -/

lemma Category.code_of_ofCode? {code : UInt8} {category : Category}
    (h : ofCode? code = some category) : code = category.code := by
  unfold ofCode? at h
  split at h <;> first | (obtain rfl := Option.some.inj h; rfl) | exact absurd h nofun

lemma coilWord_of_coilState? {word : UInt16} {on : Bool} (h : coilState? word = some on) :
    word = coilWord on := by
  unfold coilState? at h
  split_ifs at h with hon hoff
  · obtain rfl := Option.some.inj h
    exact hon
  · obtain rfl := Option.some.inj h
    exact hoff

lemma Function.code_of_ofCode? {code : UInt8} {function : Function}
    (h : ofCode? code = some function) : code = function.code := by
  unfold ofCode? at h
  split at h <;> first | (obtain rfl := Option.some.inj h; rfl) | exact absurd h nofun

/-- As many words as there are pairs of bytes are the bytes that they were read from. -/
lemma Word.listToBytes_listOfBytes : ∀ data : Bytes, data.length % 2 = 0 →
    listToBytes (listOfBytes data) = data
  | [], _ => rfl
  | [_], hodd => absurd hodd (by simp)
  | first :: second :: rest, heven => by
      have hrest : rest.length % 2 = 0 := by
        simp only [List.length_cons] at heven
        omega
      have ih := listToBytes_listOfBytes rest hrest
      simp only [listToBytes] at ih
      simp [listOfBytes, listToBytes, toBytes, ih]

namespace Request

/-! ## What a client makes of a request -/

/-- **The PDU that a client makes of the arguments of a request**, if it accepts them. -/
def encode? : Request → Option Bytes
  | readBits table start count => (readPdu table.code start count).toOption
  | readWords table start count => (readPdu table.code start count).toOption
  | writeCoil coil => some (writeCoilPdu coil)
  | writeRegister register => some (writeRegisterPdu register)
  | writeCoils coils => (writeCoilsPdu coils).toOption
  | writeRegisters registers => (writeRegistersPdu registers).toOption
  | identify category object => some (identifyPdu category object)
  | invalid _ _ => none
  | unsupported _ => none

/-- **A PDU without padding**: in a write of several coils the bits of the last byte are cleared that
are no coil's. -/
def clearPadding : Bytes → Bytes
  | code :: a :: b :: high :: low :: size :: data =>
    if code = Function.writeCoils.code then
      code :: a :: b :: high :: low :: size
        :: Bits.clearUnused (Word.ofBytes high low).toNat data
    else code :: a :: b :: high :: low :: size :: data
  | pdu => pdu

lemma clearPadding_writeCoils (start count : UInt16) (size : UInt8) (data : Bytes) :
    clearPadding (Function.writeCoils.code
        :: (Word.toBytes start ++ Word.toBytes count ++ size :: data))
      = Function.writeCoils.code :: (Word.toBytes start ++ Word.toBytes count
          ++ size :: Bits.clearUnused count.toNat data) := by
  simp [clearPadding, Word.toBytes]

lemma clearPadding_of_ne {code : UInt8} (hcode : code ≠ Function.writeCoils.code)
    (payload : Bytes) : clearPadding (code :: payload) = code :: payload := by
  unfold clearPadding
  split
  · rename_i heq
    obtain ⟨rfl, rfl⟩ := List.cons.inj heq
    rw [if_neg hcode]
  · rfl

/-- **A device does not look at the padding.** -/
lemma ofPdu_clearPadding (pdu : Bytes) : ofPdu (clearPadding pdu) = ofPdu pdu := by
  unfold clearPadding
  split
  · rename_i code a b high low size data
    split_ifs with hcode
    · rw [hcode, ofPdu_code, ofPdu_code]
      simp only [ofPayload, writePayload?, startAndCount, Bits.length_clearUnused]
      by_cases hfits : size.toNat = Bits.bytesFor (Word.ofBytes high low).toNat ∧
          data.length = size.toNat
      · have hlength : data.length = Bits.bytesFor (Word.ofBytes high low).toNat :=
          hfits.2.trans hfits.1
        simp only [if_pos hfits, Bits.unpack_clearUnused hlength]
      · simp only [if_neg hfits]
    · rfl
  · rfl

/-! ## What is served can be made again -/

/-- The range of a sequence is the one that it was made for. -/
lemma range_sequence {α : Type} {max start count : UInt16} {values : List α}
    (hrange : rangeFault? max start count = none) (hvalues : values.length = count.toNat) :
    range (Cell.sequence start values) = (start, count) := by
  have hsome : 1 ≤ values.length := hvalues ▸ (rangeFault?_eq_none.mp hrange).1
  obtain ⟨first, rest, rfl⟩ := List.exists_cons_of_length_pos hsome
  rw [range, Cell.length_sequence, hvalues, UInt16.ofNat_toNat]
  rfl

/-- The PDU that is made of a sequence of cells is the one that announces them. -/
lemma batchPdu_sequence {α : Type} {function : Function} {max start count : UInt16} {size : UInt8}
    {values : List α} {data : Bytes} (hrange : rangeFault? max start count = none)
    (hvalues : values.length = count.toNat) (hsize : data.length = size.toNat) :
    batchPdu function (Cell.sequence start values) data
      = function.code :: (Word.toBytes start ++ Word.toBytes count ++ size :: data) := by
  rw [batchPdu_eq, range_sequence hrange hvalues, hsize, UInt8.ofNat_toNat]

/-- **What a device serves, a client makes again**, and it comes out as it was, without padding. -/
lemma encode?_of_layout {function : Function} {payload : Bytes} {request : Request}
    (h : Layout function payload request) :
    request.encode? = some (clearPadding (function.code :: payload)) := by
  cases h with
  | @readBits table start count hrange =>
      rw [encode?, readPdu_of_range (by cases table <;> rfl) hrange]
      rfl
  | @readWords table start count hrange =>
      rw [encode?, readPdu_of_range (by cases table <;> rfl) hrange]
      rfl
  | writeCoil hword =>
      rw [coilWord_of_coilState? hword]
      rfl
  | writeRegister => rfl
  | @writeCoils start count size data hrange hsize hdata =>
      have hpacked := Bits.pack_unpack (hdata.trans hsize)
      have hcleared : (Bits.clearUnused count.toNat data).length = size.toNat := by
        rw [Bits.length_clearUnused, hdata]
      rw [encode?, writeCoilsPdu, batch_sequence hrange (Bits.length_unpack data count.toNat),
        Result.ok_bind, Cell.map_value_sequence, hpacked,
        batchPdu_sequence hrange (Bits.length_unpack data count.toNat) hcleared,
        clearPadding_writeCoils]
      rfl
  | @writeRegisters start count size data hrange hsize hdata =>
      have hwords : (Word.listOfBytes data).length = count.toNat := by
        rw [length_listOfBytes]
        omega
      have hbytes : Word.listToBytes (Word.listOfBytes data) = data :=
        Word.listToBytes_listOfBytes data (by omega)
      rw [encode?, writeRegistersPdu, batch_sequence hrange hwords, Result.ok_bind,
        Cell.map_value_sequence, hbytes, batchPdu_sequence hrange hwords hdata,
        clearPadding_of_ne (by decide)]
      rfl
  | identify hcategory =>
      rw [Category.code_of_ofCode? hcategory]
      rfl

/-! ## What a client makes -/

/-- What a client makes of a request for memory is what it makes of the access. -/
lemma encode?_of_access {asked : Request} {access : Access} (haccess : asked.access? = some access) :
    asked.encode? = access.pdu.toOption := by
  cases asked with
  | identify category object => simp [access?] at haccess
  | invalid function fault => simp [access?] at haccess
  | unsupported function => simp [access?] at haccess
  | _ =>
      obtain rfl := Option.some.inj haccess
      rfl

lemma serialized_of_encode? {asked : Request} {pdu : Bytes} (h : asked.encode? = some pdu) :
    Serialized pdu := by
  cases haccess : asked.access? with
  | some access =>
      rw [encode?_of_access haccess] at h
      exact .access (Result.toOption_eq_some.mp h)
  | none =>
      cases asked with
      | identify category object =>
          obtain rfl := Option.some.inj h
          exact .identify category object
      | invalid function fault => simp [encode?] at h
      | unsupported function => simp [encode?] at h
      | _ => simp [access?] at haccess

/-- **A client clears the padding.** -/
lemma Serialized.clearPadding_eq {pdu : Bytes} (h : Serialized pdu) : clearPadding pdu = pdu := by
  cases h with
  | @access access pdu haccess =>
      cases access with
      | readBits table start count =>
          obtain ⟨rfl, -⟩ := readPdu_eq_ok haccess
          rfl
      | readWords table start count =>
          obtain ⟨rfl, -⟩ := readPdu_eq_ok haccess
          rfl
      | writeCoil coil =>
          obtain rfl := Except.ok.inj haccess
          rfl
      | writeRegister register =>
          obtain rfl := Except.ok.inj haccess
          rfl
      | writeCoils coils =>
          obtain ⟨sorted, hbatch, hpdu⟩ := Result.bind_eq_ok.mp haccess
          obtain rfl := Except.ok.inj hpdu
          have hcount : (range sorted).2.toNat = (sorted.map Cell.value).length := by
            rw [(batched_of_batch hbatch).count_toNat, List.length_map]
          rw [batchPdu_eq, clearPadding_writeCoils, hcount,
            ← Bits.pack_unpack (Bits.length_pack _), Bits.unpack_pack]
      | writeRegisters registers =>
          obtain ⟨sorted, -, hpdu⟩ := Result.bind_eq_ok.mp haccess
          obtain rfl := Except.ok.inj hpdu
          rw [batchPdu_eq, clearPadding_of_ne (by decide)]
  | identify category object => rfl

/-! ## What is refused -/

/-- **The fields of a request for a range of cells**: a payload that announces a start and a count,
and has the length that they ask for.  `max` is the number of cells that one request can ask for. -/
inductive Fields : Function → UInt16 → Bytes → UInt16 → UInt16 → Prop where
  | readBits {table : BitTable} {start count : UInt16} :
      Fields (.readBits table) Limit.readBits (Word.toBytes start ++ Word.toBytes count) start count
  | readWords {table : WordTable} {start count : UInt16} :
      Fields (.readWords table) Limit.readWords (Word.toBytes start ++ Word.toBytes count) start count
  | writeCoils {start count : UInt16} {size : UInt8} {data : Bytes}
      (hsize : size.toNat = Bits.bytesFor count.toNat) (hdata : data.length = size.toNat) :
      Fields .writeCoils Limit.writeCoils
        (Word.toBytes start ++ Word.toBytes count ++ size :: data) start count
  | writeRegisters {start count : UInt16} {size : UInt8} {data : Bytes}
      (hsize : size.toNat = 2 * count.toNat) (hdata : data.length = size.toNat) :
      Fields .writeRegisters Limit.writeRegisters
        (Word.toBytes start ++ Word.toBytes count ++ size :: data) start count

lemma writePayload?_fields {bytesFor : Nat → Nat} {start count : UInt16} {size : UInt8}
    {data : Bytes} (hsize : size.toNat = bytesFor count.toNat) (hdata : data.length = size.toNat) :
    writePayload? bytesFor (Word.toBytes start ++ Word.toBytes count ++ size :: data)
      = some (start, count, data) := by
  rw [List.append_assoc]
  simp only [writePayload?, startAndCount_toBytes]
  rw [if_pos ⟨hsize, hdata⟩]

/-- **With its fields in order** a request for a range is held to nothing but its range. -/
lemma ofPayload_of_fields {function : Function} {max start count : UInt16} {payload : Bytes}
    (h : Fields function max payload start count) :
    ∃ request : Request, request.isServed = true ∧
      ofPayload function payload = checked function max start count request := by
  cases h with
  | @readBits table =>
      refine ⟨.readBits table start count, rfl, ?_⟩
      simp [ofPayload, startAndCount, Word.toBytes]
  | @readWords table =>
      refine ⟨.readWords table start count, rfl, ?_⟩
      simp [ofPayload, startAndCount, Word.toBytes]
  | @writeCoils start count size data hsize hdata =>
      refine ⟨.writeCoils (Cell.sequence start (Bits.unpack data count.toNat)), rfl, ?_⟩
      rw [ofPayload, writePayload?_fields hsize hdata]
  | @writeRegisters start count size data hsize hdata =>
      refine ⟨.writeRegisters (Cell.sequence start (Word.listOfBytes data)), rfl, ?_⟩
      rw [ofPayload, writePayload?_fields (by exact hsize) hdata]

/-- **A range that is at fault for where it ends.** -/
lemma rangeFault?_eq_address {max start count : UInt16} :
    rangeFault? max start count = some .illegalDataAddress ↔
      1 ≤ count.toNat ∧ count.toNat ≤ max.toNat ∧ 65535 < start.toNat + count.toNat - 1 := by
  simp only [rangeFault?, overflows, UInt16.lt_iff_toNat_lt, decide_eq_true_eq,
    show (1 : UInt16).toNat = 1 from rfl]
  split_ifs <;> simp <;> omega

/-- **What becomes of a payload**: it is served, or refused for its range, with its fields in order,
or for another fault than the address. -/
inductive Verdict (function : Function) (payload : Bytes) : Request → Prop where
  | served {request : Request} (hserved : request.isServed = true) :
      Verdict function payload request
  | range {max start count : UInt16} {fault : ExceptionCode}
      (hfields : Fields function max payload start count)
      (hfault : rangeFault? max start count = some fault) :
      Verdict function payload (invalid function.code fault)
  | refused {fault : ExceptionCode} (hfault : fault ≠ .illegalDataAddress) :
      Verdict function payload (invalid function.code fault)

lemma Verdict.of_checked {function : Function} {max start count : UInt16} {payload : Bytes}
    {request : Request} (hfields : Fields function max payload start count)
    (hserved : request.isServed = true) :
    Verdict function payload (checked function max start count request) := by
  unfold checked
  split
  · rename_i fault hfault
    exact .range hfields hfault
  · exact .served hserved

lemma verdict_of_payload (function : Function) (payload : Bytes) :
    Verdict function payload (ofPayload function payload) := by
  have hvalue : ExceptionCode.illegalDataValue ≠ .illegalDataAddress := by decide
  have hfunction : ExceptionCode.illegalFunction ≠ .illegalDataAddress := by decide
  cases function with
  | readBits table =>
      simp only [ofPayload]
      split
      · rename_i heq
        rw [startAndCount_eq_some heq, List.append_nil]
        exact .of_checked .readBits rfl
      · exact .refused hvalue
  | readWords table =>
      simp only [ofPayload]
      split
      · rename_i heq
        rw [startAndCount_eq_some heq, List.append_nil]
        exact .of_checked .readWords rfl
      · exact .refused hvalue
  | writeCoil =>
      simp only [ofPayload]
      split
      · split
        · exact .served rfl
        · exact .refused hvalue
      · exact .refused hvalue
  | writeRegister =>
      simp only [ofPayload]
      split
      · exact .served rfl
      · exact .refused hvalue
  | writeCoils =>
      simp only [ofPayload]
      split
      · rename_i heq
        obtain ⟨size, hpayload, hsize, hdata⟩ := writePayload?_eq_some heq
        rw [hpayload]
        exact .of_checked (.writeCoils hsize hdata) rfl
      · exact .refused hvalue
  | writeRegisters =>
      simp only [ofPayload]
      split
      · rename_i heq
        obtain ⟨size, hpayload, hsize, hdata⟩ := writePayload?_eq_some heq
        rw [hpayload]
        exact .of_checked (.writeRegisters hsize hdata) rfl
      · exact .refused hvalue
  | identify =>
      simp only [ofPayload]
      split
      · exact .refused hfunction
      · split_ifs
        · exact .refused hfunction
        · split
          · split
            · exact .served rfl
            · exact .refused hvalue
          · exact .refused hvalue

/-- **A payload is refused for its address** exactly when nothing is wrong with it but that its range
runs past the last address. -/
lemma ofPayload_eq_address {function : Function} {payload : Bytes} :
    ofPayload function payload = invalid function.code .illegalDataAddress ↔
      ∃ max start count, Fields function max payload start count ∧
        rangeFault? max start count = some .illegalDataAddress := by
  constructor
  · intro h
    have hverdict := verdict_of_payload function payload
    rw [h] at hverdict
    cases hverdict with
    | served hserved => exact absurd hserved nofun
    | range hfields hfault => exact ⟨_, _, _, hfields, hfault⟩
    | refused hfault => exact absurd rfl hfault
  · rintro ⟨max, start, count, hfields, hfault⟩
    obtain ⟨request, -, hchecked⟩ := ofPayload_of_fields hfields
    rw [hchecked, checked, hfault]

/-! ## The grammar -/

/-- **What a client can send**, up to the padding. -/
def IsSent (pdu : Bytes) : Prop :=
  ∃ sent, Serialized sent ∧ clearPadding pdu = clearPadding sent

/-- **What a device makes of a PDU** with a given function code and payload. -/
structure Grammar (code : UInt8) (payload : Bytes) (request : Request) : Prop where
  /-- It is served exactly if a client can send it. -/
  served : request.isServed = true ↔ IsSent (code :: payload)
  /-- What is served, a client makes again: the same PDU without padding. -/
  remade : request.isServed = true → request.encode? = some (clearPadding (code :: payload))
  /-- It is unsupported exactly if its code is that of none of the functions. -/
  unsupported : request = .unsupported code ↔ ∀ function : Function, function.code ≠ code
  /-- Else, what is not served is invalid, and keeps its code. -/
  refused : request.isServed = false → ∀ function : Function, function.code = code →
    ∃ fault, request = .invalid code fault
  /-- It is at fault for its address exactly if nothing else is wrong with it than that the last
  address of its range is too large. -/
  address : request = .invalid code .illegalDataAddress ↔
    ∃ (function : Function) (max start count : UInt16), function.code = code ∧
      Fields function max payload start count ∧
        1 ≤ count.toNat ∧ count.toNat ≤ max.toNat ∧ 65535 < start.toNat + count.toNat - 1

/-- What a client can send is served, with whatever padding. -/
lemma IsSent.served {pdu : Bytes} {request : Request} (h : IsSent pdu)
    (hread : ofPdu pdu = .ok request) : request.isServed = true := by
  obtain ⟨sent, hsent, halike⟩ := h
  obtain ⟨other, hother, hserved⟩ := hsent.served
  have hsame : (.ok request : Result Request) = .ok other := by
    rw [← hread, ← hother, ← ofPdu_clearPadding pdu, halike, ofPdu_clearPadding]
  obtain rfl := Except.ok.inj hsame
  exact hserved

/-- **The grammar of the payloads of a function.** -/
lemma grammar_of_payload (function : Function) (payload : Bytes) :
    Grammar function.code payload (ofPayload function payload) := by
  have hread : ofPdu (function.code :: payload) = .ok (ofPayload function payload) :=
    ofPdu_code function payload
  have hverdict := verdict_of_payload function payload
  have hremade (hserved : (ofPayload function payload).isServed = true) :
      (ofPayload function payload).encode? = some (clearPadding (function.code :: payload)) :=
    encode?_of_layout (layout_of_served function payload hserved)
  refine ⟨⟨fun hserved => ?_, fun hsent => hsent.served hread⟩, hremade, ⟨fun h => ?_, fun h => ?_⟩,
    fun hrefused _ _ => ?_, ⟨fun h => ?_, fun h => ?_⟩⟩
  · exact ⟨_, serialized_of_encode? (hremade hserved),
      (serialized_of_encode? (hremade hserved)).clearPadding_eq.symm⟩
  · rw [h] at hverdict
    cases hverdict with
    | served hserved => exact absurd hserved nofun
  · exact absurd rfl (h function)
  · generalize ofPayload function payload = request at hverdict hrefused
    cases hverdict with
    | served hserved => simp [hserved] at hrefused
    | range _ _ => exact ⟨_, rfl⟩
    | refused _ => exact ⟨_, rfl⟩
  · obtain ⟨max, start, count, hfields, hfault⟩ := ofPayload_eq_address.mp h
    exact ⟨function, max, start, count, rfl, hfields, rangeFault?_eq_address.mp hfault⟩
  · obtain ⟨other, max, start, count, hcode, hfields, hends⟩ := h
    have hsame : other = function := Option.some.inj (by
      rw [← Function.ofCode?_code other, ← Function.ofCode?_code function, hcode])
    rw [hsame] at hfields
    exact ofPayload_eq_address.mpr ⟨max, start, count, hfields, rangeFault?_eq_address.mpr hends⟩

/-- **Every PDU with a function code is read, and clients and devices agree about it.** -/
theorem grammar_of_pdu (code : UInt8) (payload : Bytes) :
    ∃ request, ofPdu (code :: payload) = .ok request ∧ Grammar code payload request := by
  cases hcode : Function.ofCode? code with
  | some function =>
      obtain rfl := Function.code_of_ofCode? hcode
      exact ⟨_, ofPdu_code function payload, grammar_of_payload function payload⟩
  | none =>
      have hread : ofPdu (code :: payload) = .ok (.unsupported code) := by simp [ofPdu, hcode]
      have hnone (function : Function) : function.code ≠ code := by
        rintro rfl
        simp at hcode
      refine ⟨_, hread, ⟨by simp [isServed], fun hsent => hsent.served hread⟩, by simp [isServed],
        ⟨fun _ => hnone, fun _ => rfl⟩, fun _ function hsame => absurd hsame (hnone function),
        by simp, ?_⟩
      rintro ⟨function, -, -, -, hsame, -⟩
      exact absurd hsame (hnone function)

/-- Ten coils leave six bits unused. -/
example :
    let sent : Bytes := [0x0F, 0x00, 0x07, 0x00, 0x0A, 0x02, 0xFF, 0xFF]
    (ofPdu sent).toOption.bind encode?
      = some [0x0F, 0x00, 0x07, 0x00, 0x0A, 0x02, 0xFF, 0x03] := by
  cbv

end Request

end Modbus
