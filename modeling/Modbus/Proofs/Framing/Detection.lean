import Modbus.Proofs.Detection
import Modbus.Proofs.Framing.Spelling

/-!
# Which errors a serial line reveals

`Detection` says which errors the two checks see.  Here they are errors of a frame on the line.  A
binary frame is its checked bytes, so nothing is left to do.  A character frame is not: one wrong
character changes one digit of one byte, or one of the characters that no byte is spelled with, and
the character may be another digit of the same value.

What makes this short is that a frame can be taken apart only if it is, in upper case, one that
would be sent (`Ascii.parse_eq_ok`).  So an error that is overlooked leads, in upper case, from one
frame to another, and two frames differ in two characters at least (`Ascii.eq_of_same`), since
their bytes add up to the same.
-/

namespace Modbus

/-! ## Digits -/

namespace Hex

/-- **A digit has its value in either case.** -/
lemma value?_of_lower {character : UInt8} (h : 97 ≤ character.toNat ∧ character.toNat ≤ 102) :
    value? character = some (character.toNat - 87) ∧
      value? (upper character) = some (character.toNat - 87) := by
  have hupper : (upper character).toNat = character.toNat - 32 := by
    rw [upper, if_pos h, UInt8.toNat_ofNat']
    omega
  constructor
  · simp only [value?]
    rw [if_neg (by omega), if_neg (by omega), if_pos h]
  · simp only [value?, hupper]
    rw [if_neg (by omega), if_pos (by omega)]
    exact congrArg some (by omega)

@[simp] lemma value?_upper (character : UInt8) : value? (upper character) = value? character := by
  by_cases h : 97 ≤ character.toNat ∧ character.toNat ≤ 102
  · rw [(value?_of_lower h).1, (value?_of_lower h).2]
  · rw [upper, if_neg h]

lemma value?_of_upper {character : UInt8} {value : Nat} (hvalue : value < 16)
    (h : upper character = digit value) : value? character = some value := by
  rw [← value?_upper, h, value?_digit hvalue]

/-- A character has another in its case only if it is a digit. -/
lemma eq_of_upper {old character : UInt8} (h : upper character = old) :
    character = old ∨ ∃ digit, value? old = some digit ∧ value? character = some digit := by
  subst h
  by_cases hlower : 97 ≤ character.toNat ∧ character.toNat ≤ 102
  · exact .inr ⟨_, (value?_of_lower hlower).2, (value?_of_lower hlower).1⟩
  · exact .inl (if_neg hlower).symm

lemma digit_inj {a b : Nat} (ha : a < 16) (hb : b < 16) (h : digit a = digit b) : a = b := by
  have hvalue := value?_digit ha
  rw [h, value?_digit hb] at hvalue
  exact (Option.some.inj hvalue).symm

lemma map_upper_encode (bytes : Bytes) : (encode bytes).map upper = encode bytes :=
  (encode_of_decode (decode_encode bytes)).symm

/-- Digits that are, in upper case, those that are written are read. -/
lemma decodeFrom_of_upper : ∀ (bytes text : Bytes) (position : Nat),
    text.map upper = encode bytes → decodeFrom position text = .ok bytes
  | [], text, position, h => by
      obtain rfl := List.map_eq_nil_iff.mp h
      rfl
  | byte :: rest, text, position, h => by
      have hbyte := byte.toNat_lt
      rw [encode, List.flatMap_cons, ← encode, pair, List.cons_append] at h
      obtain ⟨first, text, rfl, hfirst, h⟩ := List.map_eq_cons_iff.mp h
      obtain ⟨second, text, rfl, hsecond, hrest⟩ := List.map_eq_cons_iff.mp h
      have hlater := decodeFrom_of_upper rest text (position + 2) hrest
      simp only [decodeFrom, value?_of_upper (by omega) hfirst,
        value?_of_upper (by omega) hsecond, hlater, Except.map]
      rw [Nat.div_add_mod, UInt8.ofNat_toNat]

lemma decode_of_upper {text bytes : Bytes} (h : text.map upper = encode bytes) :
    decode text = .ok bytes := by
  have hlength := congrArg List.length h
  rw [List.length_map, length_encode] at hlength
  rw [decode, if_neg (by omega), decodeFrom_of_upper bytes text 0 h]

/-- **The digits of a byte stand at twice its place.** -/
lemma getElem?_encode (bytes : Bytes) (place : Nat) :
    (encode bytes)[2 * place]? = bytes[place]?.map (fun byte => digit (byte.toNat / 16)) ∧
      (encode bytes)[2 * place + 1]? = bytes[place]?.map (fun byte => digit (byte.toNat % 16)) := by
  induction bytes generalizing place with
  | nil => exact ⟨rfl, rfl⟩
  | cons byte rest ih =>
      cases place with
      | zero => exact ⟨rfl, rfl⟩
      | succ place => exact ih place

/-- A byte is determined by its digits. -/
lemma getElem?_eq_of_encode {bytes other : Bytes} {place : Nat}
    (hfirst : (encode other)[2 * place]? = (encode bytes)[2 * place]?)
    (hsecond : (encode other)[2 * place + 1]? = (encode bytes)[2 * place + 1]?) :
    other[place]? = bytes[place]? := by
  rw [(getElem?_encode other place).1, (getElem?_encode bytes place).1] at hfirst
  rw [(getElem?_encode other place).2, (getElem?_encode bytes place).2] at hsecond
  cases hold : bytes[place]? with
  | none =>
      rw [hold] at hfirst
      exact Option.map_eq_none_iff.mp hfirst
  | some byte =>
      rw [hold] at hfirst hsecond
      obtain ⟨byte', hbyte', hhigh⟩ := Option.map_eq_some_iff.mp hfirst
      rw [hbyte'] at hsecond ⊢
      have hbound := byte.toNat_lt
      have hbound' := byte'.toNat_lt
      have hhigh := digit_inj (by omega) (by omega) hhigh
      have hlow := digit_inj (by omega) (by omega) (Option.some.inj hsecond)
      exact congrArg some (UInt8.toNat_inj.mp (by omega))

end Hex

/-! ## Binary frames -/

/-- A frame whose check is wrong is too short, or else it is the check that is reported. -/
lemma Rtu.parse_eq_error {adu : Bytes} (h : Checksum.crcMatches adu = false) :
    parse adu = .error (.framing
      (if adu.length < minFrame then .shortFrame .rtu adu.length else .checksum)) := by
  cases adu with
  | nil => rfl
  | cons unit rest =>
      by_cases hshort : rest.length < 3
      · have hlength : (unit :: rest).length < minFrame := by
          rw [List.length_cons, minFrame]
          omega
        rw [parse, split?, if_pos hshort, if_pos hlength]
      · have hlength : ¬ (unit :: rest).length < minFrame := by
          rw [List.length_cons, minFrame]
          omega
        rw [parse, split?, if_neg hshort, if_neg hlength, h]
        rfl

/-! ## Character frames -/

namespace Ascii

lemma map_upper_frame (unit : UnitId) (pdu : Bytes) :
    (frame unit pdu).map Hex.upper = frame unit pdu := by
  rw [frame, List.map_append, List.map_cons, Hex.map_upper_encode]
  rfl

/-- A text that is, in upper case, a frame is one but for the case of its digits. -/
lemma eq_of_upper {adu digits : Bytes} (h : adu.map Hex.upper = opening :: digits ++ closing) :
    ∃ text, adu = opening :: text ++ closing ∧ text.map Hex.upper = digits := by
  -- Neither end of a frame has another case.
  have hends {character old : UInt8} (hold : Hex.value? old = none)
      (hupper : Hex.upper character = old) : character = old := by
    rcases Hex.eq_of_upper hupper with hsame | ⟨digit, hdigit, -⟩
    · exact hsame
    · simp [hold] at hdigit
  obtain ⟨text, tail, rfl, htext, htail⟩ := List.map_eq_append_iff.mp h
  obtain ⟨first, text, rfl, hfirst, hdigits⟩ := List.map_eq_cons_iff.mp htext
  obtain ⟨cr, tail, rfl, hcr, htail⟩ := List.map_eq_cons_iff.mp htail
  obtain ⟨lf, tail, rfl, hlf, htail⟩ := List.map_eq_cons_iff.mp htail
  obtain rfl := List.map_eq_nil_iff.mp htail
  obtain rfl := hends (by decide) hfirst
  obtain rfl := hends (by decide) hcr
  obtain rfl := hends (by decide) hlf
  exact ⟨text, rfl, hdigits⟩

/-- Bytes are read from their digits in either case. -/
lemma body_of_upper {text bytes : Bytes} (hlong : 3 ≤ bytes.length)
    (htext : text.map Hex.upper = Hex.encode bytes) :
    body (opening :: text ++ closing) = .ok bytes := by
  have hlength := congrArg List.length htext
  rw [List.length_map, Hex.length_encode] at hlength
  have hframe : ¬ (opening :: text ++ closing).length < minFrame := by
    rw [List.length_append, List.length_cons, closing, minFrame]
    simp only [List.length_cons, List.length_nil]
    omega
  rw [body, if_neg hframe, isDelimited_append, digits_append, Hex.decode_of_upper htext]
  rfl

/-- **What can be taken apart is, in upper case, what would be sent.** -/
lemma parse_eq_ok {adu pdu : Bytes} {header : Header} :
    parse adu = .ok (header, pdu) ↔
      header.transaction = none ∧ pdu ≠ [] ∧ adu.map Hex.upper = frame header.unit pdu := by
  constructor
  · intro h
    obtain ⟨hnone, hpdu, hframe⟩ := frame_of_parse h
    exact ⟨hnone, hpdu, hframe.symm⟩
  · rintro ⟨hnone, hpdu, hframe⟩
    obtain ⟨unit, transaction⟩ := header
    subst hnone
    obtain ⟨text, rfl, htext⟩ := eq_of_upper hframe
    have hpos := List.length_pos_iff.mpr hpdu
    have hlong : 3 ≤ (unit :: pdu ++ [Checksum.lrc (unit :: pdu)]).length := by
      rw [List.length_append, List.length_cons, List.length_singleton]
      omega
    rw [parse, body_of_upper hlong htext, Result.ok_bind, split?_body unit hpdu]
    simp only [Checksum.lrcMatches_append_lrc (unit :: pdu), if_true]
    rfl

/-- The digits of a frame stand behind its opening. -/
lemma getElem?_frame (unit : UnitId) (pdu : Bytes) {i : Nat} (h : i < 2 * (pdu.length + 2)) :
    (frame unit pdu)[i + 1]?
      = (Hex.encode (unit :: pdu ++ [Checksum.lrc (unit :: pdu)]))[i]? := by
  have hlength : (Hex.encode (unit :: pdu ++ [Checksum.lrc (unit :: pdu)])).length
      = 2 * (pdu.length + 2) := by
    rw [Hex.length_encode, List.length_append, List.length_cons, List.length_singleton]
  have hbehind (digits : Bytes) (hi : i < digits.length) :
      (opening :: digits ++ closing)[i + 1]? = digits[i]? := by
    rw [List.cons_append, List.getElem?_cons_succ, List.getElem?_append_left hi]
  exact hbehind _ (by omega)

/-- **Two frames differ in more than one character**, if they differ. -/
lemma eq_of_same {unit other : UnitId} {pdu held : Bytes} {index : Nat}
    (hlength : held.length = pdu.length)
    (hsame : ∀ i, i ≠ index → (frame other held)[i]? = (frame unit pdu)[i]?) :
    other = unit ∧ held = pdu := by
  have hbody (first : UnitId) (rest : Bytes) :
      (first :: rest ++ [Checksum.lrc (first :: rest)]).length = rest.length + 2 := by
    rw [List.length_append, List.length_cons, List.length_singleton]
  have hdigits {i : Nat} (hi : i + 1 ≠ index) (hinside : i < 2 * (pdu.length + 2)) :
      (Hex.encode (other :: held ++ [Checksum.lrc (other :: held)]))[i]?
        = (Hex.encode (unit :: pdu ++ [Checksum.lrc (unit :: pdu)]))[i]? := by
    rw [← getElem?_frame other held (by omega), ← getElem?_frame unit pdu hinside]
    exact hsame (i + 1) hi
  have hothers (i : Nat) (hi : i ≠ (index - 1) / 2) :
      (other :: held ++ [Checksum.lrc (other :: held)])[i]?
        = (unit :: pdu ++ [Checksum.lrc (unit :: pdu)])[i]? := by
    by_cases hinside : i < pdu.length + 2
    · exact Hex.getElem?_eq_of_encode (hdigits (by omega) (by omega))
        (hdigits (by omega) (by omega))
    · rw [List.getElem?_eq_none (by rw [hbody]; omega),
        List.getElem?_eq_none (by rw [hbody]; omega)]
  have heq := Checksum.eq_of_lrcMatches (by rw [hbody, hbody, hlength]) hothers
    (Checksum.lrcMatches_append_lrc (unit :: pdu)) (Checksum.lrcMatches_append_lrc (other :: held))
  obtain ⟨hparts, -⟩ := List.append_inj' heq rfl
  exact List.cons.inj hparts

/-- **A wrong character is noticed**, unless it is the same digit in the other case. -/
lemma parse_set_eq_ok {unit : UnitId} {pdu : Bytes} {index : Nat} {old character : UInt8}
    {result : Header × Bytes} (hold : (frame unit pdu)[index]? = some old)
    (hother : character ≠ old) :
    parse ((frame unit pdu).set index character) = .ok result ↔
      pdu ≠ [] ∧ (∃ digit, Hex.value? old = some digit ∧ Hex.value? character = some digit) ∧
        result = (⟨unit, none⟩, pdu) := by
  obtain ⟨⟨found, transaction⟩, held⟩ := result
  obtain ⟨hindex, hvalue⟩ := List.getElem?_eq_some_iff.mp hold
  have hupper : ((frame unit pdu).set index character).map Hex.upper
      = (frame unit pdu).set index (Hex.upper character) := by
    rw [List.map_set, map_upper_frame]
  rw [parse_eq_ok, hupper]
  constructor
  · rintro ⟨hnone, hheld, hframe⟩
    have hlengths := congrArg List.length hframe
    rw [List.length_set, length_frame, length_frame] at hlengths
    have hsame (i : Nat) (hi : i ≠ index) : (frame found held)[i]? = (frame unit pdu)[i]? := by
      rw [← hframe, List.getElem?_set_ne (Ne.symm hi)]
    obtain ⟨rfl, rfl⟩ := eq_of_same (by omega) hsame
    have hthere := congrArg (·[index]?) hframe
    simp only [List.getElem?_set_self hindex, hold, Option.some.injEq] at hthere
    exact ⟨hheld, (Hex.eq_of_upper hthere).resolve_left hother,
      congrArg (fun number => (Header.mk found number, held)) hnone⟩
  · rintro ⟨hpdu, ⟨digit, hdigit, hcharacter⟩, heq⟩
    obtain ⟨hheader, rfl⟩ := Prod.mk.inj heq
    obtain ⟨rfl, rfl⟩ := Header.mk.inj hheader
    have hwritten := congrArg (·[index]?) (map_upper_frame found held)
    simp only [List.getElem?_map, hold, Option.map_some, Option.some.injEq] at hwritten
    refine ⟨rfl, hpdu, ?_⟩
    rw [← (Hex.digit_of_value? hcharacter).2, (Hex.digit_of_value? hdigit).2, hwritten, ← hvalue,
      List.set_getElem_self]

end Ascii

/-! ## Both serial framings -/

namespace Framing

/-- **What a serial line reveals.**  A binary frame that was intact is refused, with the reason,
once an error changes it in two neighbouring bytes at most or in an odd number of bits, wherever
that is.  A character frame with one character replaced by another is refused too, whatever the
character, unless it is the same digit in the other case; then the frame is still read as what was
sent. -/
theorem errors_detected :
    (∀ frame other : Bytes, Checksum.crcMatches frame = true →
        other.length = frame.length → other ≠ frame →
          ((∃ index, Checksum.DifferWithin index frame other) ∨
            Checksum.flips frame other % 2 = 1) →
            Checksum.crcMatches other = false ∧
              rtu.parse other = .error (.framing
                (if other.length < Rtu.minFrame then .shortFrame .rtu other.length
                  else .checksum))) ∧
      ∀ (header : Header) (pdu : Bytes) (index : Nat) (old character : UInt8),
        (ascii.wrap header pdu)[index]? = some old → character ≠ old →
          ∀ result, ascii.parse ((ascii.wrap header pdu).set index character) = .ok result ↔
            pdu ≠ [] ∧
              (∃ digit, Hex.value? old = some digit ∧ Hex.value? character = some digit) ∧
                result = (ascii.heading header, pdu) := by
  refine ⟨fun frame other hintact hlength hother herror => ?_,
    fun header pdu index old character hold hcharacter result =>
      Ascii.parse_set_eq_ok hold hcharacter⟩
  obtain ⟨hlong, hzero⟩ := Checksum.crcMatches_iff.mp hintact
  have hremainder : Checksum.crc other ≠ 0 := by
    rcases herror with ⟨index, hwithin⟩ | hodd
    · exact Checksum.crc_ne_zero_of_within hlong hzero hwithin hother
    · exact Checksum.crc_ne_zero_of_odd hzero hlength hodd
  have hfails : Checksum.crcMatches other = false :=
    Bool.eq_false_iff.mpr fun hmatches => hremainder (Checksum.crcMatches_iff.mp hmatches).2
  exact ⟨hfails, Rtu.parse_eq_error hfails⟩

/-- A burst across the end of a read request and into its check, three flipped bits far apart in
it, and one digit of a request on a line of characters in the other case. -/
theorem burst_and_flips_detected :
    let frame : Bytes := [0x01, 0x03, 0x00, 0x00, 0x00, 0x0A, 0xC5, 0xCD]
    let burst := (frame.set 5 0x0B).set 6 0xC4
    let flipped : Bytes := [0x00, 0x03, 0x80, 0x00, 0x00, 0x0A, 0xC5, 0xCC]
    let written := ascii.wrap ⟨0x2A, none⟩ [0x2B, 0x0E, 0x01, 0x00]
    (Checksum.crcMatches frame = true ∧ burst ≠ frame ∧ Checksum.DifferWithin 5 frame burst ∧
        Checksum.flips frame flipped % 2 = 1 ∧ written[12]? = some 0x43) ∧
      rtu.parse burst = .error (.framing .checksum) ∧
      rtu.parse flipped = .error (.framing .checksum) ∧
      ascii.parse (written.set 12 0x63) = .ok (⟨0x2A, none⟩, [0x2B, 0x0E, 0x01, 0x00]) := by
  intro frame burst flipped written
  have hintact : Checksum.crcMatches frame = true := by decide +kernel
  have hburst : burst ≠ frame := by decide
  have hflipped : flipped ≠ frame := by decide
  have hwithin : Checksum.DifferWithin 5 frame burst := ⟨rfl, fun i hfirst hsecond => by
    rw [List.getElem?_set_ne (Ne.symm hsecond), List.getElem?_set_ne (Ne.symm hfirst)]⟩
  have hodd : Checksum.flips frame flipped % 2 = 1 := by decide +kernel
  have hwritten : written[12]? = some 0x43 := by decide +kernel
  have hdigit : ∃ digit, Hex.value? 0x43 = some digit ∧ Hex.value? 0x63 = some digit :=
    ⟨12, by decide, by decide⟩
  obtain ⟨hbinary, hcharacters⟩ := errors_detected
  exact ⟨⟨hintact, hburst, hwithin, hodd, hwritten⟩,
    (hbinary frame burst hintact rfl hburst (.inl ⟨5, hwithin⟩)).2,
    (hbinary frame flipped hintact rfl hflipped (.inr hodd)).2,
    (hcharacters ⟨0x2A, none⟩ _ 12 _ 0x63 hwritten (by decide) _).mpr
      ⟨List.cons_ne_nil _ _, hdigit, rfl⟩⟩

end Framing

end Modbus
