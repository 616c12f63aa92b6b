import Modbus.Proofs.PduShape

/-!
# Which replies answer a read

A read reply announces the bytes of its data, and the request said how many values it wants.  This
file says for every PDU and every count whether the client takes values from it, which they are, and
what it reports otherwise (`Reply.reads_of_count`).

The readers of bits and of words agree on the announced bytes (`Reply.data_eq_ok`) and on what a
refusal is (`Reply.Refused`).  They differ in one thing: bits are accepted only if the data has the
size that the count needs, words also if it has more, and then the first ones are taken
(`Reply.oversized_words_accepted`).
-/

namespace Modbus

/-! ## Values in their places -/

/-- **A bit of a reply** is found at its place in the data. -/
lemma Bits.place_of_unpack {data : Bytes} {count i : Nat} {value : Bool}
    (hsize : data.length = bytesFor count) (h : (unpack data count)[i]? = some value) :
    ∃ byte, data[i / 8]? = some byte ∧ value = byte.toNat.testBit (i % 8) := by
  obtain ⟨hi, -⟩ := List.getElem?_eq_some_iff.mp h
  rw [length_unpack] at hi
  rw [bytesFor] at hsize
  have hbyte := List.getElem?_eq_getElem (show i / 8 < data.length by omega)
  refine ⟨_, hbyte, ?_⟩
  rw [unpack, List.getElem?_map, List.getElem?_range hi, Option.map_some, bit, hbyte] at h
  exact (Option.some.inj h).symm

/-- **A word of a reply** is found at its place in the data, high byte first. -/
lemma Word.place_of_list : ∀ (data : Bytes) {i : Nat} {value : UInt16},
    (listOfBytes data)[i]? = some value →
      ∃ high low, data[2 * i]? = some high ∧ data[2 * i + 1]? = some low ∧
        value = ofBytes high low
  | [], i, _, h => by simp [listOfBytes] at h
  | [_], i, _, h => by simp [listOfBytes] at h
  | high :: low :: _, 0, _, h => ⟨high, low, rfl, rfl, (Option.some.inj h).symm⟩
  | _ :: _ :: rest, i + 1, _, h => Word.place_of_list rest h

namespace Reply

/-! ## Refusals -/

/-- **What is reported instead of values**: the code of an exception reply, which has the flag of
the function code set and a code behind it, and a framing fault for everything else. -/
inductive Refused (code : UInt8) : Bytes → Error → Prop where
  | exception (reason : UInt8) (rest : Bytes) :
      Refused code (Function.flagged code :: reason :: rest) (.exception code (.ofByte reason))
  | framing {pdu : Bytes} (fault : FramingFault)
      (h : ∀ reason rest, pdu ≠ Function.flagged code :: reason :: rest) :
      Refused code pdu (.framing fault)

variable {code : UInt8} {pdu rest bytes : Bytes} {error : Error}

lemma refused_payload (h : payload code pdu = .error error) : Refused code pdu error := by
  cases pdu with
  | nil =>
      obtain rfl := Except.error.inj h
      exact .framing _ (by simp)
  | cons first rest =>
      simp only [payload] at h
      split_ifs at h with hcode hflag
      · subst hflag
        cases rest with
        | nil =>
            obtain rfl := Except.error.inj h
            exact .framing _ (by simp)
        | cons reason rest =>
            obtain rfl := Except.error.inj h
            exact .exception reason rest
      · obtain rfl := Except.error.inj h
        exact .framing _ fun reason rest heq => hflag (List.cons.inj heq).1

/-- A reply with the right function code is no exception reply. -/
lemma refused_of_payload (hcode : Function.flagged code ≠ code) (h : payload code pdu = .ok rest)
    (fault : FramingFault) : Refused code pdu (.framing fault) := by
  obtain rfl := payload_eq_ok h
  exact .framing fault fun reason rest heq => hcode (List.cons.inj heq).1.symm

lemma refused_data (hcode : Function.flagged code ≠ code) (h : data code pdu = .error error) :
    Refused code pdu error := by
  cases hpayload : payload code pdu with
  | error fault =>
      rw [data, hpayload] at h
      obtain rfl := Except.error.inj h
      exact refused_payload hpayload
  | ok rest =>
      rw [data, hpayload, Result.ok_bind] at h
      cases rest with
      | nil =>
          obtain rfl := Except.error.inj h
          exact refused_of_payload hcode hpayload _
      | cons size held =>
          simp only [Result.pure_eq, Result.throw_eq] at h
          split_ifs at h
          obtain rfl := Except.error.inj h
          exact refused_of_payload hcode hpayload _

/-! ## Bits and words -/

lemma bits_eq (code : UInt8) (pdu : Bytes) (count : UInt16) :
    bits code pdu count = data code pdu >>= fun bytes =>
      if bytes.length = Bits.bytesFor count.toNat then .ok (Bits.unpack bytes count.toNat)
      else .error (.framing (.bitByteCount (Bits.bytesFor count.toNat) count bytes.length)) :=
  rfl

lemma words_eq (code : UInt8) (pdu : Bytes) (count : UInt16) :
    words code pdu count = data code pdu >>= fun bytes =>
      if 2 * count.toNat ≤ bytes.length then .ok ((Word.listOfBytes bytes).take count.toNat)
      else .error (.framing (.wordByteCount bytes.length count)) := by
  refine congrArg (data code pdu >>= ·) (funext fun bytes => ?_)
  by_cases henough : 2 * count.toNat ≤ bytes.length
  · rw [if_pos henough, if_neg (by omega)]
    rfl
  · rw [if_neg henough, if_pos (by omega)]
    rfl

/-- **A reader of counted data** takes its values from the data if there is enough of it. -/
lemma reads_of_data {α : Type} {read : Result α} {enough : Bytes → Prop} [DecidablePred enough]
    {values : Bytes → α} {fault : Bytes → FramingFault} (hcode : Function.flagged code ≠ code)
    (hread : read = data code pdu >>= fun bytes =>
      if enough bytes then .ok (values bytes) else .error (.framing (fault bytes))) :
    ((∃ found, read = .ok found) ↔
        ∃ size bytes, pdu = code :: size :: bytes ∧ bytes.length = size.toNat ∧ enough bytes) ∧
      (∀ found, read = .ok found → enough (pdu.drop 2) ∧ values (pdu.drop 2) = found) ∧
      ∀ error, read = .error error → Refused code pdu error := by
  subst hread
  cases hdata : data code pdu with
  | error fault =>
      rw [Result.error_bind]
      refine ⟨⟨by simp, ?_⟩, by simp, fun error h => ?_⟩
      · rintro ⟨size, bytes, hpdu, hsize, -⟩
        rw [data_eq_ok.mpr ⟨size, hpdu, hsize⟩] at hdata
        cases hdata
      · obtain rfl := Except.error.inj h
        exact refused_data hcode hdata
  | ok bytes =>
      obtain ⟨size, hpdu, hsize⟩ := data_eq_ok.mp hdata
      have hdrop : pdu.drop 2 = bytes := by rw [hpdu, List.drop_succ_cons, List.drop_one, List.tail_cons]
      rw [Result.ok_bind, hdrop]
      by_cases henough : enough bytes
      · rw [if_pos henough]
        exact ⟨⟨fun _ => ⟨size, bytes, hpdu, hsize, henough⟩, fun _ => ⟨_, rfl⟩⟩,
          fun found h => ⟨henough, Except.ok.inj h⟩, by simp⟩
      · rw [if_neg henough]
        refine ⟨⟨by simp, ?_⟩, by simp, fun error h => ?_⟩
        · rintro ⟨size', bytes', hpdu', -, henough'⟩
          rw [hpdu'] at hdrop
          exact absurd (hdrop ▸ henough') henough
        · obtain rfl := Except.error.inj h
          exact .framing _ fun reason rest heq => hcode (List.cons.inj (hpdu.symm.trans heq)).1.symm

/-- **Which replies answer a read.**  Whatever the PDU and whatever the count, bits are taken from
it exactly if it echoes the function code, announces as many bytes as follow, and these are as many
as the count needs.  For words it is enough that they are not fewer: a reply with more of them is
taken for one with fewer.  What is taken are as many values as were asked for, each from its place
in the data, and what is reported otherwise is the code of an exception reply or a framing fault. -/
theorem reads_of_count (pdu : Bytes) (count : UInt16) :
    (∀ table : BitTable,
      ((∃ values, bits table.code pdu count = .ok values) ↔
          ∃ size data, pdu = table.code :: size :: data ∧ data.length = size.toNat ∧
            data.length = Bits.bytesFor count.toNat) ∧
        (∀ values, bits table.code pdu count = .ok values →
          values.length = count.toNat ∧
            ∀ (i : Nat) value, values[i]? = some value →
              ∃ byte, (pdu.drop 2)[i / 8]? = some byte ∧ value = byte.toNat.testBit (i % 8)) ∧
        ∀ error, bits table.code pdu count = .error error → Refused table.code pdu error) ∧
      ∀ table : WordTable,
        ((∃ values, words table.code pdu count = .ok values) ↔
            ∃ size data, pdu = table.code :: size :: data ∧ data.length = size.toNat ∧
              2 * count.toNat ≤ data.length) ∧
          (∀ values, words table.code pdu count = .ok values →
            values.length = count.toNat ∧
              ∀ (i : Nat) value, values[i]? = some value →
                ∃ high low, (pdu.drop 2)[2 * i]? = some high ∧
                  (pdu.drop 2)[2 * i + 1]? = some low ∧ value = Word.ofBytes high low) ∧
          ∀ error, words table.code pdu count = .error error → Refused table.code pdu error := by
  constructor
  · intro table
    have hcode : Function.flagged table.code ≠ table.code := by cases table <;> decide
    obtain ⟨haccepted, htaken, hrefused⟩ := reads_of_data hcode (bits_eq table.code pdu count)
    refine ⟨haccepted, fun values h => ?_, hrefused⟩
    obtain ⟨hsize, rfl⟩ := htaken values h
    exact ⟨Bits.length_unpack _ _, fun i value => Bits.place_of_unpack hsize⟩
  · intro table
    have hcode : Function.flagged table.code ≠ table.code := by cases table <;> decide
    obtain ⟨haccepted, htaken, hrefused⟩ := reads_of_data hcode (words_eq table.code pdu count)
    refine ⟨haccepted, fun values h => ?_, hrefused⟩
    obtain ⟨hsize, rfl⟩ := htaken values h
    refine ⟨?_, fun i value hvalue => ?_⟩
    · rw [List.length_take, Request.length_listOfBytes]
      omega
    · obtain ⟨hi, -⟩ := List.getElem?_eq_some_iff.mp hvalue
      rw [List.length_take] at hi
      rw [List.getElem?_take_of_lt (by omega)] at hvalue
      exact Word.place_of_list _ hvalue

/-- Two registers in reply to a read of one are taken for one, where sixteen bits in reply to a read
of eight are refused. -/
theorem oversized_words_accepted :
    let pdu : Bytes := [0x03, 0x04, 0x00, 0x01, 0x00, 0x02]
    words WordTable.holdingRegisters.code pdu 1 = .ok [1] ∧
      (¬ ∃ size data, pdu = WordTable.holdingRegisters.code :: size :: data ∧
        data.length = size.toNat ∧ data.length = 2 * (1 : UInt16).toNat) ∧
      bits BitTable.coils.code [0x01, 0x02, 0xFF, 0x01] 8
        = .error (.framing (.bitByteCount 1 8 2)) := by
  intro pdu
  refine ⟨by decide, ?_, by decide⟩
  rintro ⟨size, data, hpdu, hsize, hexact⟩
  obtain ⟨-, hcounted⟩ := List.cons.inj hpdu
  obtain ⟨rfl, rfl⟩ := List.cons.inj hcounted
  exact absurd hexact (by decide)

end Reply

end Modbus
