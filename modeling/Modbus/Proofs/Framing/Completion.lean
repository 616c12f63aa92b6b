import Modbus.Framing
import Modbus.Proofs.PduShape

/-!
# Frames that show their own end

A link gives bytes in pieces, and the receiver has to tell from the bytes alone when a frame is
there.  `EndsAt complete frame` says that a predicate on the bytes received so far gets this right:
it holds of the whole frame and of nothing that comes before the last byte.  A `Cut` is one of the
ways in which the bytes can arrive.

The two kinds of framing do it in two ways.  Binary and network frames announce their length early;
an announcement never changes when more bytes follow (`Rtu.requestSize?_append`,
`Rtu.responseSize?_append`, `Tcp.size?_append`), so it is enough that the whole frame announces its
own length (`EndsAt.of_size`).  Character frames close with a byte that occurs nowhere before
(`Ascii.endsAt_frame`).
-/

namespace Modbus

/-- **A predicate on the bytes so far that holds of a frame, and of no beginning of it.** -/
structure EndsAt (complete : Bytes → Bool) (frame : Bytes) : Prop where
  whole : complete frame = true
  before : ∀ part, part <+: frame → part.length < frame.length → complete part = false

/-- **Bytes cut into reads**: none of them empty, and none larger than what one read takes in. -/
structure Cut (bytes : Bytes) (reads : List Bytes) : Prop where
  whole : reads.flatten = bytes
  some : ∀ chunk ∈ reads, chunk ≠ []
  fit : ∀ chunk ∈ reads, chunk.length ≤ Limit.readBuffer

lemma Cut.ne_nil {bytes : Bytes} {reads : List Bytes} (h : Cut bytes reads) (hbytes : bytes ≠ []) :
    reads ≠ [] := by
  rintro rfl
  exact hbytes h.whole.symm

/-- **A length that is announced once and for all** ends the frame that announces its own. -/
lemma EndsAt.of_size {size? : Bytes → Option Nat} {frame : Bytes}
    (hstable : ∀ part rest n, size? part = some n → size? (part ++ rest) = some n)
    (hsize : size? frame = some frame.length) :
    EndsAt (fun bytes => Rtu.reached (size? bytes) bytes) frame where
  whole := by simp [Rtu.reached, hsize]
  before := by
    rintro part ⟨rest, hrest⟩ hshort
    cases hpart : size? part with
    | none => rfl
    | some n =>
        have hframe := hstable part rest n hpart
        rw [hrest, hsize, Option.some.injEq] at hframe
        simp only [Rtu.reached, Option.any_some, decide_eq_false_iff_not]
        omega

/-! ## Announced lengths do not change -/

namespace Rtu

lemma recordsSize?_append : ∀ (count : Nat) (part rest : Bytes) (n : Nat),
    recordsSize? count part = some n → recordsSize? count (part ++ rest) = some n
  | 0, _, _, _, h => by simpa [recordsSize?] using h
  | count + 1, [], _, _, h => by simp [recordsSize?] at h
  | count + 1, [_], _, _, h => by simp [recordsSize?] at h
  | count + 1, id :: size :: part, rest, n, h => by
      obtain ⟨tail, htail, rfl⟩ : ∃ tail,
          recordsSize? count (part.drop size.toNat) = some tail ∧ 2 + size.toNat + tail = n := by
        simpa [recordsSize?] using h
      have hlater := recordsSize?_append count _ (rest.drop (size.toNat - part.length)) _ htail
      simp [recordsSize?, List.drop_append, hlater]

lemma identificationSize?_append {part : Bytes} {n : Nat} (rest : Bytes)
    (h : identificationSize? part = some n) : identificationSize? (part ++ rest) = some n := by
  unfold identificationSize? at h
  split at h
  · rename_i count records
    obtain ⟨size, hsize, rfl⟩ := Option.map_eq_some_iff.mp h
    simp [identificationSize?, recordsSize?_append _ _ rest _ hsize]
  · exact absurd h (by simp)

lemma responseSize?_append (part rest : Bytes) (n : Nat)
    (h : responseSize? part = some n) : responseSize? (part ++ rest) = some n := by
  unfold responseSize? at h
  split at h
  · rename_i unit code payload
    simp only [List.cons_append, responseSize?]
    split_ifs at h ⊢ with hflag
    · exact h
    · split at h <;> simp_all [identificationSize?_append]
      all_goals
        obtain ⟨size, hsize, rfl⟩ := h
        exact ⟨size, by simp [hsize], rfl⟩
  · exact absurd h (by simp)

lemma requestSize?_append (part rest : Bytes) (n : Nat)
    (h : requestSize? part = some n) : requestSize? (part ++ rest) = some n := by
  unfold requestSize? at h
  split at h
  · rename_i unit code payload
    simp only [List.cons_append, requestSize?]
    split at h <;> simp_all
    all_goals
      obtain ⟨size, hsize, rfl⟩ := h
      have hin : 4 < payload.length := (List.getElem?_eq_some_iff.mp hsize).1
      exact ⟨size, by rw [List.getElem?_append_left hin]; exact hsize, rfl⟩
  · exact absurd h (by simp)

end Rtu

lemma Tcp.size?_append (part rest : Bytes) (n : Nat)
    (h : Tcp.size? part = some n) : Tcp.size? (part ++ rest) = some n := by
  unfold Tcp.size? at h
  split at h
  · simpa [Tcp.size?] using h
  · exact absurd h (by simp)

/-! ## Whole frames announce their own length -/

namespace Rtu

@[simp] lemma length_frame (unit : UnitId) (pdu : Bytes) :
    (frame unit pdu).length = pdu.length + 3 := by
  simp [frame]

/-- **A served request** announces the length of its frame. -/
lemma requestSize?_frame (unit : UnitId) {pdu : Bytes} {request : Request}
    (hpdu : Request.ofPdu pdu = .ok request) (hserved : request.isServed = true) :
    requestSize? (frame unit pdu) = some (frame unit pdu).length := by
  obtain ⟨code, payload, function, rfl, hcode, hlayout⟩ := Request.layout_of_ofPdu hpdu hserved
  rw [length_frame]
  cases hlayout with
  | readBits _ => simp [frame, requestSize?, hcode]
  | readWords _ => simp [frame, requestSize?, hcode]
  | writeCoil _ => simp [frame, requestSize?, hcode]
  | writeRegister => simp [frame, requestSize?, hcode]
  | writeCoils _ _ hdata =>
      simp [frame, requestSize?, hcode, Word.toBytes, hdata]
      omega
  | writeRegisters _ _ hdata =>
      simp [frame, requestSize?, hcode, Word.toBytes, hdata]
      omega
  | identify _ => simp [frame, requestSize?, hcode]

/-- Object records take the bytes that their sizes add up to. -/
lemma recordsSize?_of_objects : ∀ (count : Nat) (records rest : Bytes) (objects : List Object),
    Reply.objects count records = .ok objects →
      recordsSize? count (records ++ rest) = some records.length
  | 0, [], _, _, _ => by simp [recordsSize?]
  | 0, _ :: _, _, _, h => by simp [Reply.objects] at h
  | count + 1, [], _, _, h => by simp [Reply.objects] at h
  | count + 1, [_], _, _, h => by simp [Reply.objects] at h
  | count + 1, id :: size :: records, rest, objects, h => by
      simp only [Reply.objects] at h
      split_ifs at h with hshort
      obtain ⟨later, hlater, -⟩ := Result.map_eq_ok.mp h
      have hrest := recordsSize?_of_objects count _ rest later hlater
      have hdrop : (records ++ rest).drop size.toNat = records.drop size.toNat ++ rest := by
        rw [List.drop_append_of_le_length (by omega)]
      simp only [List.cons_append, recordsSize?, hdrop, hrest, Option.map_some, List.length_cons,
        List.length_drop, Option.some.injEq]
      omega

/-- **A reply of the right shape** to a served function announces the length of its frame. -/
lemma responseSize?_frame (unit : UnitId) {requestPdu pdu : Bytes} {function : Function}
    (hcode : pdu.head? = some function.code) (hshape : Reply.checkShape requestPdu pdu = .ok ()) :
    responseSize? (frame unit pdu) = some (frame unit pdu).length := by
  obtain ⟨payload, rfl⟩ : ∃ payload, pdu = function.code :: payload := by
    cases pdu with
    | nil => simp at hcode
    | cons code payload => exact ⟨payload, by simpa using hcode⟩
  have hplain : Function.isFlagged function.code = false := by
    cases function with
    | readBits table => cases table <;> rfl
    | readWords table => cases table <;> rfl
    | _ => rfl
  have hdata : ∀ bytes, Reply.data function.code (function.code :: payload) = .ok bytes →
      ∃ size : UInt8, payload = size :: bytes ∧ bytes.length = size.toNat := by
    intro bytes h
    obtain ⟨size, hpdu, hsize⟩ := Reply.data_eq_ok.mp h
    exact ⟨size, List.tail_eq_of_cons_eq hpdu, hsize⟩
  have hecho : ∀ echoed, Reply.echo function.code (function.code :: payload) = .ok echoed →
      payload.length = 4 := by
    rintro ⟨first, second⟩ h
    rw [List.tail_eq_of_cons_eq (Reply.echo_eq_ok.mp h)]
    simp
  rw [length_frame]
  simp only [Reply.checkShape, Function.ofCode?_code] at hshape
  cases function with
  | readBits table =>
      obtain ⟨bytes, hbytes, -⟩ := Result.map_eq_ok.mp hshape
      obtain ⟨size, rfl, hsize⟩ := hdata bytes hbytes
      simp [frame, responseSize?, hplain, hsize]
      omega
  | readWords table =>
      obtain ⟨bytes, hbytes, -⟩ := Result.map_eq_ok.mp hshape
      obtain ⟨size, rfl, hsize⟩ := hdata bytes hbytes
      simp [frame, responseSize?, hplain, hsize]
      omega
  | identify =>
      obtain ⟨page, hpage, -⟩ := Result.bind_eq_ok.mp hshape
      obtain ⟨mei, category, conformity, more, next, count, records, hpdu, hrecords⟩ :=
        Reply.fragment_layout hpage
      rw [List.tail_eq_of_cons_eq hpdu]
      have hsize := recordsSize?_of_objects count.toNat records
      simp [frame, responseSize?, hplain, identificationSize?, hsize _ _ hrecords]
      omega
  | _ =>
      obtain ⟨echoed, hechoed, -⟩ := Result.map_eq_ok.mp hshape
      simp [frame, responseSize?, hplain, hecho echoed hechoed]

end Rtu

namespace Tcp

@[simp] lemma length_frame (transaction : UInt16) (unit : UnitId) (pdu : Bytes) :
    (frame transaction unit pdu).length = pdu.length + 7 := by
  simp [frame]
  omega

/-- **A frame whose length the field can hold** announces it. -/
lemma size?_frame (transaction : UInt16) (unit : UnitId) {pdu : Bytes}
    (hfits : pdu.length < 65535) :
    size? (frame transaction unit pdu) = some (frame transaction unit pdu).length := by
  rw [length_frame]
  simp [frame, size?, Word.toBytes, uncounted]
  omega

end Tcp

/-! ## Line ends -/

namespace Ascii

lemma mem_of_hasLineEnd : ∀ bytes : Bytes, hasLineEnd bytes = true → (0x0A : UInt8) ∈ bytes
  | [], h => by simp [hasLineEnd] at h
  | [_], h => by simp [hasLineEnd] at h
  | first :: second :: rest, h => by
      simp only [hasLineEnd, Bool.or_eq_true, beq_iff_eq] at h
      rcases h with hhere | hlater
      · simp only [closing, List.cons.injEq] at hhere
        simp [hhere.2.1]
      · exact List.mem_cons_of_mem _ (mem_of_hasLineEnd (second :: rest) hlater)

lemma hasLineEnd_append_closing : ∀ bytes : Bytes, hasLineEnd (bytes ++ closing) = true
  | [] => rfl
  | [_] => by simp [hasLineEnd, closing]
  | _ :: second :: rest => by
      have hlater := hasLineEnd_append_closing (second :: rest)
      rw [List.cons_append] at hlater
      simp [hasLineEnd, hlater]

lemma digit_ne_lineFeed {value : Nat} (h : value < 16) : Hex.digit value ≠ 0x0A := by
  have table : ∀ v : Fin 16, Hex.digit v.val ≠ 0x0A := by decide
  exact table ⟨value, h⟩

lemma lineFeed_not_mem_encode (bytes : Bytes) : (0x0A : UInt8) ∉ Hex.encode bytes := by
  intro hmem
  simp only [Hex.encode, List.mem_flatMap, Hex.pair, List.mem_cons, List.not_mem_nil,
    or_false] at hmem
  obtain ⟨byte, -, hhigh | hlow⟩ := hmem
  · exact digit_ne_lineFeed (by have := byte.toNat_lt; omega) hhigh.symm
  · exact digit_ne_lineFeed (by omega) hlow.symm

@[simp] lemma length_frame (unit : UnitId) (pdu : Bytes) :
    (frame unit pdu).length = 2 * pdu.length + 7 := by
  simp [frame, closing]
  omega

/-- **Characters between an opening and a closing** show their end as long as none of them is a
line feed: then the line feed is the last byte and occurs nowhere before. -/
lemma endsAt_of_lineFeed {digits : Bytes} (hdigits : (0x0A : UInt8) ∉ digits) :
    EndsAt complete (opening :: digits ++ closing) where
  whole := by
    have hend : hasLineEnd (opening :: digits ++ closing) = true := hasLineEnd_append_closing _
    have hlen : 3 ≤ (opening :: digits ++ closing).length := by simp [closing]
    simp only [complete, hend, hlen, decide_true, Bool.and_true]
  before := by
    intro part hpart hshort
    have hfront : opening :: digits ++ closing = opening :: digits ++ [0x0D] ++ [0x0A] := by
      simp [closing]
    rw [hfront, List.prefix_concat_iff] at hpart
    rcases hpart with hall | hpart
    · rw [hfront, hall] at hshort
      exact absurd hshort (Nat.lt_irrefl _)
    · have hnone : (0x0A : UInt8) ∉ part := by
        intro hmem
        have hmem := hpart.subset hmem
        simp only [List.mem_append, List.mem_cons, List.not_mem_nil, or_false] at hmem
        rcases hmem with (hopening | hdigit) | hreturn
        · exact absurd hopening (by decide)
        · exact hdigits hdigit
        · exact absurd hreturn (by decide)
      have hopen : hasLineEnd part ≠ true := fun hend => hnone (mem_of_hasLineEnd part hend)
      simp [complete, hopen]

/-- **Character frames show their end.** -/
lemma endsAt_frame (unit : UnitId) (pdu : Bytes) : EndsAt complete (frame unit pdu) :=
  endsAt_of_lineFeed (lineFeed_not_mem_encode _)

end Ascii

/-! ## All framings -/

namespace Framing

/-- **The frame of a served request** shows its end. -/
lemma requestEndsAt (framing : Framing) (header : Header) {pdu : Bytes} {request : Request}
    (hpdu : Request.ofPdu pdu = .ok request) (hserved : request.isServed = true) :
    EndsAt framing.requestComplete (framing.wrap header pdu) := by
  have hfits := Request.length_le_of_ofPdu hpdu hserved
  cases framing with
  | rtu => exact .of_size Rtu.requestSize?_append (Rtu.requestSize?_frame _ hpdu hserved)
  | ascii => exact Ascii.endsAt_frame _ _
  | tcp _ =>
      exact .of_size Tcp.size?_append (Tcp.size?_frame _ _ (by simp only [Limit.maxPdu] at hfits; omega))

/-- **The frame of a reply of the right shape** shows its end. -/
lemma responseEndsAt (framing : Framing) (header : Header) {requestPdu pdu : Bytes}
    {function : Function} (hcode : pdu.head? = some function.code)
    (hshape : Reply.checkShape requestPdu pdu = .ok ()) (hfits : pdu.length ≤ Limit.maxPdu) :
    EndsAt framing.responseComplete (framing.wrap header pdu) := by
  cases framing with
  | rtu => exact .of_size Rtu.responseSize?_append (Rtu.responseSize?_frame _ hcode hshape)
  | ascii => exact Ascii.endsAt_frame _ _
  | tcp _ =>
      exact .of_size Tcp.size?_append (Tcp.size?_frame _ _ (by simp only [Limit.maxPdu] at hfits; omega))

end Framing

end Modbus
