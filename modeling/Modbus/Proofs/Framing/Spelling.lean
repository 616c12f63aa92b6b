import Modbus.Proofs.Framing.Acceptance

/-!
# Every accepted frame is the one that would be sent

`Wrapping` goes from a PDU to its frame and back.  This file goes the other way round: whatever the
bytes are that `Framing.parse` accepts, wrapping the parts again gives these bytes
(`Framing.wrap_of_parse`), so there is no second way to write a frame.  Character frames are the one
exception, since hexadecimal digits can be read in either case and are written in upper case;
`Framing.spelled` is the frame with that difference removed.

The work is in the character frames.  A digit that is read is the upper-case digit of its value
(`Hex.digit_of_value?`), so digits that are read are, in upper case, the digits that are written
(`Hex.encode_of_decode`), and the last byte that they spell is the check byte
(`Ascii.eq_of_split?`).
-/

namespace Modbus

/-! ## Digits in either case -/

namespace Hex

/-- The character in upper case, if it is a digit. -/
def upper (character : UInt8) : UInt8 :=
  if 97 ≤ character.toNat ∧ character.toNat ≤ 102 then UInt8.ofNat (character.toNat - 32)
  else character

/-- **A character that is read as a digit** is the digit that is written for its value. -/
lemma digit_of_value? {character : UInt8} {value : Nat} (h : value? character = some value) :
    value < 16 ∧ digit value = upper character := by
  have hbound := character.toNat_lt
  simp only [value?] at h
  split_ifs at h with hdecimal hupper hlower
  all_goals
    obtain rfl := Option.some.inj h
    refine ⟨by omega, UInt8.toNat_inj.mp ?_⟩
    simp only [digit, upper]
    split_ifs <;> simp only [UInt8.toNat_ofNat'] <;> omega

lemma pair_of_digits {high low : Nat} (hhigh : high < 16) (hlow : low < 16) :
    pair (UInt8.ofNat (16 * high + low)) = [digit high, digit low] := by
  have hbyte : (UInt8.ofNat (16 * high + low)).toNat = 16 * high + low := by
    rw [UInt8.toNat_ofNat']
    omega
  rw [pair, hbyte, show (16 * high + low) / 16 = high by omega,
    show (16 * high + low) % 16 = low by omega]

lemma encode_of_decodeFrom : ∀ (position : Nat) (text bytes : Bytes),
    decodeFrom position text = .ok bytes → encode bytes = text.map upper
  | _, [], _, h => by
      obtain rfl := Except.ok.inj h
      rfl
  | _, [_], _, h => by simp [decodeFrom] at h
  | position, first :: second :: rest, bytes, h => by
      simp only [decodeFrom] at h
      split at h
      · simp at h
      · simp at h
      · rename_i high low hhigh hlow
        obtain ⟨hhigh, hfirst⟩ := digit_of_value? hhigh
        obtain ⟨hlow, hsecond⟩ := digit_of_value? hlow
        cases hrest : decodeFrom (position + 2) rest with
        | error fault => simp [hrest, Except.map] at h
        | ok later =>
            have hlater := encode_of_decodeFrom (position + 2) rest later hrest
            rw [hrest] at h
            obtain rfl := Except.ok.inj h
            rw [encode] at hlater
            rw [encode, List.flatMap_cons, pair_of_digits hhigh hlow, hlater, hfirst, hsecond]
            rfl

/-- **Digits that are read** are those that are written, but for their case. -/
lemma encode_of_decode {text bytes : Bytes} (h : decode text = .ok bytes) :
    encode bytes = text.map upper := by
  simp only [decode] at h
  split_ifs at h
  exact encode_of_decodeFrom 0 text bytes h

end Hex

/-! ## Character frames -/

namespace Ascii

/-- **The check byte is determined** by what precedes it. -/
lemma eq_of_split? {bytes pdu : Bytes} {unit : UnitId} (hsplit : split? bytes = some (unit, pdu))
    (hcheck : Checksum.lrcMatches bytes = true) :
    pdu ≠ [] ∧ bytes = unit :: pdu ++ [Checksum.lrc (unit :: pdu)] := by
  cases bytes with
  | nil => simp [split?] at hsplit
  | cons first rest =>
      simp only [split?] at hsplit
      split_ifs at hsplit with hshort
      obtain ⟨rfl, rfl⟩ := Prod.mk.inj (Option.some.inj hsplit)
      have hlong : 2 ≤ rest.length := by omega
      have hrest : rest ≠ [] := List.ne_nil_of_length_pos (by omega)
      have hlast : (first :: rest).getLast? = some (rest.getLast hrest) := by
        rw [List.getLast?_eq_some_getLast (List.cons_ne_nil _ _), List.getLast_cons hrest]
      simp only [Checksum.lrcMatches, hlast, beq_iff_eq, List.dropLast_cons_of_ne_nil hrest]
        at hcheck
      refine ⟨List.ne_nil_of_length_pos (by rw [List.length_dropLast]; omega), ?_⟩
      rw [hcheck, List.cons_append, List.dropLast_concat_getLast]

/-- A frame that can be taken apart is, in upper case, the one that its unit and PDU are wrapped
in. -/
lemma frame_of_parse {adu pdu : Bytes} {header : Header} (h : parse adu = .ok (header, pdu)) :
    header.transaction = none ∧ pdu ≠ [] ∧ frame header.unit pdu = adu.map Hex.upper := by
  obtain ⟨bytes, hbody, hparts⟩ := Result.bind_eq_ok.mp h
  obtain ⟨digits, rfl, hdecode⟩ := eq_of_body hbody
  cases hsplit : split? bytes with
  | none => simp [hsplit] at hparts
  | some parts =>
      obtain ⟨unit, held⟩ := parts
      simp only [hsplit] at hparts
      split_ifs at hparts with hcheck
      obtain ⟨rfl, rfl⟩ := Prod.mk.inj (Except.ok.inj hparts)
      obtain ⟨hpdu, rfl⟩ := eq_of_split? hsplit hcheck
      refine ⟨rfl, hpdu, ?_⟩
      rw [frame, Hex.encode_of_decode hdecode]
      simp only [List.map_append, List.map_cons]
      rfl

end Ascii

/-! ## Binary and network frames -/

/-- The parts of an accepted binary frame. -/
lemma Rtu.header_of_parse {adu pdu : Bytes} {header : Header}
    (h : Rtu.parse adu = .ok (header, pdu)) : header.transaction = none ∧ pdu ≠ [] := by
  simp only [Rtu.parse] at h
  split at h
  · simp at h
  · rename_i unit held hsplit
    split_ifs at h
    obtain ⟨rfl, rfl⟩ := Prod.mk.inj (Except.ok.inj h)
    refine ⟨rfl, ?_⟩
    rintro rfl
    cases adu with
    | nil => simp [Rtu.split?] at hsplit
    | cons first rest =>
        simp only [Rtu.split?] at hsplit
        split_ifs at hsplit with hshort
        have hnone := congrArg List.length (Prod.mk.inj (Option.some.inj hsplit)).2
        simp only [List.length_take, List.length_nil] at hnone
        omega

/-- The words of a header are the bytes that they were read from. -/
lemma Word.toBytes_ofBytes (high low : UInt8) :
    Word.toBytes (Word.ofBytes high low) = [high, low] := by
  rw [Word.toBytes, Word.high_ofBytes, Word.low_ofBytes]

/-- **A network frame that can be taken apart** is the one that its parts are wrapped in: its
protocol identifier is zero and its length is the one announced. -/
lemma Tcp.frame_of_parse {adu pdu : Bytes} {header : Header}
    (h : Tcp.parse adu = .ok (header, pdu)) :
    header.transaction.isSome = true ∧ pdu ≠ [] ∧
      Tcp.frame (header.transaction.getD 0) header.unit pdu = adu := by
  simp only [Tcp.parse] at h
  split at h
  · simp at h
  · rename_i fields hsplit
    split_ifs at h with hprotocol hfollowing
    obtain ⟨rfl, rfl⟩ := Prod.mk.inj (Except.ok.inj h)
    simp only [ne_eq, not_not] at hprotocol hfollowing
    unfold Tcp.split? at hsplit
    split at hsplit
    · rename_i t₁ t₂ p₁ p₂ l₁ l₂ unit code rest
      obtain rfl := Option.some.inj hsplit
      have hlength : UInt16.ofNat ((code :: rest).length + 1) = Word.ofBytes l₁ l₂ := by
        rw [← UInt16.ofNat_toNat (x := Word.ofBytes l₁ l₂)]
        exact congrArg UInt16.ofNat hfollowing.symm
      refine ⟨rfl, List.cons_ne_nil _ _, ?_⟩
      simp only [Tcp.frame, hlength, ← hprotocol, Option.getD_some, Word.toBytes_ofBytes]
      rfl
    · simp at hsplit

/-! ## All framings -/

namespace Framing

/-- **The headers of a framing**: on a network link they number the exchange, on a serial line they
do not. -/
def Carries : Framing → Header → Prop
  | tcp _, header => header.transaction.isSome = true
  | _, header => header.transaction = none

/-- **A frame as it would be sent**: on a line of characters with its digits in upper case. -/
def spelled : Framing → Bytes → Bytes
  | ascii, adu => adu.map Hex.upper
  | _, adu => adu

lemma heading_of_carries {framing : Framing} {header : Header} (h : framing.Carries header) :
    framing.heading header = header := by
  obtain ⟨unit, transaction⟩ := header
  cases framing with
  | rtu => exact congrArg (Header.mk unit) h.symm
  | ascii => exact congrArg (Header.mk unit) h.symm
  | tcp _ =>
      obtain ⟨number, rfl⟩ := Option.isSome_iff_exists.mp h
      rfl

/-- **What can be taken apart is what would be sent.** -/
lemma wrap_of_parse {framing : Framing} {adu pdu : Bytes} {header : Header}
    (h : framing.parse adu = .ok (header, pdu)) :
    framing.Carries header ∧ pdu ≠ [] ∧ framing.wrap header pdu = framing.spelled adu := by
  cases framing with
  | rtu =>
      obtain ⟨hnone, hpdu⟩ := Rtu.header_of_parse h
      exact ⟨hnone, hpdu, (Rtu.eq_frame_of_parse h).symm⟩
  | ascii => exact Ascii.frame_of_parse h
  | tcp _ => exact Tcp.frame_of_parse h

/-- **Wrapping and taking apart are inverse to each other.**  In every framing, a PDU that a frame
can hold is found again in the frame of a request, with the unit and on a network link with the
number that the request took, and in the frame of a reply, with the whole header; and every frame
that can be taken apart is, but for the case of its digits, the one that its parts are wrapped in. -/
theorem wrap_parse_inverse (framing : Framing) :
    (∀ (transaction : UInt16) (unit : UnitId) (pdu : Bytes),
        1 ≤ pdu.length → pdu.length ≤ 65534 →
          framing.parse (Codec.request ⟨framing, transaction⟩ unit pdu).1
            = .ok (framing.heading ⟨unit, some transaction⟩, pdu)) ∧
      (∀ (header : Header) (pdu : Bytes), framing.Carries header →
        1 ≤ pdu.length → pdu.length ≤ 65534 →
          framing.parse (framing.wrap header pdu) = .ok (header, pdu)) ∧
      ∀ (adu pdu : Bytes) (header : Header), framing.parse adu = .ok (header, pdu) →
        framing.Carries header ∧ 1 ≤ pdu.length ∧
          framing.wrap header pdu = framing.spelled adu := by
  refine ⟨fun transaction unit pdu hsome hfits => ?_, fun header pdu hcarries hsome hfits => ?_,
    fun adu pdu header hparse => ?_⟩
  · exact framing.parse_wrap _ (List.length_pos_iff.mp hsome) (by omega)
  · have hparse := framing.parse_wrap header (List.length_pos_iff.mp hsome) (by omega)
    rwa [heading_of_carries hcarries] at hparse
  · obtain ⟨hcarries, hpdu, hwrap⟩ := wrap_of_parse hparse
    exact ⟨hcarries, List.length_pos_iff.mpr hpdu, hwrap⟩

/-- The request `:2A2B0E01009C` of a line of characters, written in lower case. -/
theorem lower_case_frame_rewrapped :
    let adu : Bytes := [0x3A, 0x32, 0x61, 0x32, 0x62, 0x30, 0x65, 0x30, 0x31, 0x30, 0x30, 0x39,
      0x63, 0x0D, 0x0A]
    let pdu : Bytes := [0x2B, 0x0E, 0x01, 0x00]
    (1 ≤ pdu.length ∧ pdu.length ≤ 65534 ∧ ascii.Carries ⟨0x2A, none⟩ ∧
        ascii.parse adu = .ok (⟨0x2A, none⟩, pdu)) ∧
      ascii.parse (Codec.request ⟨ascii, 7⟩ 0x2A pdu).1 = .ok (⟨0x2A, none⟩, pdu) ∧
      ascii.parse (ascii.wrap ⟨0x2A, none⟩ pdu) = .ok (⟨0x2A, none⟩, pdu) ∧
      ascii.wrap ⟨0x2A, none⟩ pdu = adu.map Hex.upper := by
  intro adu pdu
  have hsome : 1 ≤ pdu.length := by decide
  have hfits : pdu.length ≤ 65534 := by decide
  have hcarries : ascii.Carries ⟨0x2A, none⟩ := rfl
  have hparse : ascii.parse adu = .ok (⟨0x2A, none⟩, pdu) := by decide +kernel
  obtain ⟨hrequest, hresponse, hspelled⟩ := wrap_parse_inverse ascii
  exact ⟨⟨hsome, hfits, hcarries, hparse⟩, hrequest 7 0x2A pdu hsome hfits,
    hresponse _ pdu hcarries hsome hfits, (hspelled adu pdu _ hparse).2.2⟩

end Framing

end Modbus
