import Modbus.Proofs.Guarded.Replies

/-!
# Serial frames by position

Binary and character frames with every index checked, each function equal to the one of the library:
for binary frames `Binary.parse_eq`, `Binary.validate_eq`, `Binary.responseComplete_eq` and
`Binary.requestComplete_eq`, for character frames `Characters.parse_eq` and
`Characters.validate_eq`.

Both kinds have the unit first and their check last, and what lies between is cut out by one slice
(`inner`), whose ends would cross in a frame that is too short.  A binary frame is measured itself.
A character frame is measured in characters, and it takes the length of what they spell to know that
there are three bytes (`Characters.three_le_of_body`).

The length of a binary identification reply is found by adding up sizes from the line before it is
known whether so many bytes will come; `Binary.recordsEnd_eq` bounds what they add up to.
-/

namespace Modbus.Guarded

/-! ## Serial frames -/

/-- What a serial frame has between its unit and the last `trailing` bytes. -/
def inner (bytes : Bytes) (trailing : Nat) : Guarded Bytes := do
  slice bytes 1 (← minus bytes.length trailing)

lemma inner_eq {rest : Bytes} {trailing : Nat} (h : trailing ≤ rest.length) (first : UInt8) :
    inner (first :: rest) trailing = pure (rest.take (rest.length - trailing)) := by
  have hlast : rest.length + 1 - trailing = rest.length - trailing + 1 := by omega
  rw [inner, minus_eq (by rw [List.length_cons]; omega), pure_bind, List.length_cons, hlast,
    slice_eq (by omega) (by rw [List.length_cons]; omega)]
  rfl

/-- **Whether a reply answers a request** on a serial line, where both have their unit first and
`trailing` bytes of check last. -/
def validateSerial (trailing : Nat) (intact : Bytes → Guarded Bool) (request response : Bytes) :
    Guarded Unit := do
  let asked ← byteAt request 0
  let unit ← byteAt response 0
  if unit ≠ asked then throw (.framing (.unitMismatch asked unit))
  else
    let pdu ← inner response trailing
    let _ ← within (Reply.payload (← byteAt request 1) pdu)
    if !(← intact response) then throw (.framing .checksum)
    else checkShape (← inner request trailing) pdu

/-- The same reader on the lists that hold the PDUs. -/
lemma validateSerial_eq {trailing : Nat} {intact : Bytes → Guarded Bool} {isIntact : Bytes → Bool}
    (hintact : ∀ bytes, intact bytes = pure (isIntact bytes)) (asked code unit : UInt8)
    {request response : Bytes} (hrequest : trailing ≤ request.length)
    (hresponse : trailing ≤ response.length) :
    validateSerial trailing intact (asked :: code :: request) (unit :: response)
      = within (do
          let pdu := response.take (response.length - trailing)
          let requestPdu := (code :: request).take ((code :: request).length - trailing)
          if unit ≠ asked then throw (.framing (.unitMismatch asked unit))
          let _ ← Reply.payload (requestPdu.headD 0) pdu
          if !isIntact (unit :: response) then throw (.framing .checksum)
          Reply.checkShape requestPdu pdu) := by
  have hlonger : trailing ≤ (code :: request).length := Nat.le_succ_of_le hrequest
  have htake : (code :: request).length - trailing = request.length - trailing + 1 := by
    rw [List.length_cons]
    omega
  rw [validateSerial, inner_eq hresponse, inner_eq hlonger]
  simp only [byteAt_succ, byteAt_zero, pure_bind, hintact, checkShape_eq, htake,
    List.take_succ_cons, List.headD_cons]
  by_cases hunit : unit = asked
  · rw [if_neg (not_not_intro hunit), if_neg (not_not_intro hunit)]
    refine bind_within fun _ _ => ?_
    cases isIntact (unit :: response) <;> rfl
  · rw [if_pos hunit, if_pos hunit]
    rfl

namespace Binary

/-- **Taking a frame apart.** -/
def parse (adu : Bytes) : Guarded (Header × Bytes) := do
  if adu.length < Rtu.minFrame then throw (.framing (.shortFrame .rtu adu.length))
  else if !(← crcMatches adu) then throw (.framing .checksum)
  else return (⟨← byteAt adu 0, none⟩, ← inner adu 2)

/-- The bytes of a frame that is not too short. -/
lemma exists_of_minFrame {bytes : Bytes} (h : ¬ bytes.length < Rtu.minFrame) :
    ∃ unit code third fourth rest, bytes = unit :: code :: third :: fourth :: rest := by
  match bytes with
  | [] | [_] | [_, _] | [_, _, _] => exact absurd h (by simp [Rtu.minFrame])
  | unit :: code :: third :: fourth :: rest => exact ⟨unit, code, third, fourth, rest, rfl⟩

lemma split?_of_short {bytes : Bytes} (h : bytes.length < Rtu.minFrame) :
    Rtu.split? bytes = none := by
  match bytes with
  | [] | [_] | [_, _] | [_, _, _] => rfl
  | unit :: code :: third :: fourth :: rest =>
      simp only [List.length_cons, Rtu.minFrame] at h
      omega

lemma split?_cons (unit code third fourth : UInt8) (rest : Bytes) :
    Rtu.split? (unit :: code :: third :: fourth :: rest)
      = some (unit, (code :: third :: fourth :: rest).take
          ((code :: third :: fourth :: rest).length - 2)) := by
  have hlong : ¬ (code :: third :: fourth :: rest).length < 3 := by simp
  rw [Rtu.split?, if_neg hlong]

lemma parse_eq (adu : Bytes) : parse adu = within (Rtu.parse adu) := by
  by_cases hshort : adu.length < Rtu.minFrame
  · rw [parse, if_pos hshort, Rtu.parse, split?_of_short hshort]
    rfl
  · rw [parse, if_neg hshort, crcMatches_eq, pure_bind]
    obtain ⟨unit, code, third, fourth, rest, rfl⟩ := exists_of_minFrame hshort
    rw [inner_eq (by simp) unit, Rtu.parse, split?_cons]
    cases Checksum.crcMatches (unit :: code :: third :: fourth :: rest) <;> rfl

/-- **Whether a reply answers a request.** -/
def validate (request response : Bytes) : Guarded Unit :=
  if request.length < Rtu.minFrame then throw (.invalidArgument (.notAFrame .rtu))
  else if response.length < Rtu.minFrame then
    throw (.framing (.truncatedResponse response.length))
  else validateSerial 2 crcMatches request response

lemma validate_eq (request response : Bytes) :
    validate request response = within (Rtu.validate request response) := by
  by_cases hrequest : request.length < Rtu.minFrame
  · rw [validate, if_pos hrequest, Rtu.validate, split?_of_short hrequest]
    rfl
  · rw [validate, if_neg hrequest]
    obtain ⟨asked, code, third, fourth, later, rfl⟩ := exists_of_minFrame hrequest
    by_cases hresponse : response.length < Rtu.minFrame
    · rw [if_pos hresponse, Rtu.validate, split?_cons, split?_of_short hresponse]
      rfl
    · rw [if_neg hresponse]
      obtain ⟨unit, got, check, last, rest, rfl⟩ := exists_of_minFrame hresponse
      rw [validateSerial_eq crcMatches_eq asked code unit (by simp) (by simp), Rtu.validate,
        split?_cons, split?_cons]

/-! ### How long a frame is -/

/-- Where `count` object records from `position` on end, once all their sizes are known. -/
def recordsEnd (bytes : Bytes) : Nat → Nat → Guarded (Option Nat)
  | 0, position => return some position
  | count + 1, position => do
    match bytes[← plus position 1]? with
    | some size => recordsEnd bytes count (← plus position (← plus 2 size.toNat))
    | none => return none

/-- **The position in the records** grows by at most 257 for each of them, inside the bytes or
beyond. -/
lemma recordsEnd_eq (bytes : Bytes) : ∀ count position : Nat,
    position + 257 * count < 2 ^ 31 →
      recordsEnd bytes count position
        = pure ((Rtu.recordsSize? count (bytes.drop position)).map (position + ·))
  | 0, position, _ => rfl
  | count + 1, position, hbound => by
      rw [recordsEnd, plus_eq (by omega), pure_bind, ← List.getElem?_drop]
      match hdrop : bytes.drop position with
      | [] | [_] => rfl
      | _ :: size :: rest =>
          have hsize := size.toNat_lt
          have hrest : rest.drop size.toNat = bytes.drop (position + (2 + size.toNat)) := by
            rw [← List.drop_drop, hdrop, Nat.add_comm, List.drop_succ_cons, List.drop_succ_cons]
          have hlater := recordsEnd_eq bytes count (position + (2 + size.toNat)) (by omega)
          simp only [List.getElem?_cons_succ, List.getElem?_cons_zero]
          rw [plus_eq (by omega), pure_bind, plus_eq (by omega), pure_bind, hlater, ← hrest,
            Rtu.recordsSize?, Option.map_map]
          congr 2
          funext size
          simp only [Function.comp_apply]
          omega

lemma recordsSize?_le : ∀ (count : Nat) (records : Bytes) (size : Nat),
    Rtu.recordsSize? count records = some size → size ≤ 257 * count
  | 0, _, _, h => by
      obtain rfl := Option.some.inj h
      exact Nat.zero_le _
  | _ + 1, [], _, h => by simp [Rtu.recordsSize?] at h
  | _ + 1, [_], _, h => by simp [Rtu.recordsSize?] at h
  | count + 1, _ :: first :: rest, size, h => by
      have hfirst := first.toNat_lt
      obtain ⟨later, hlater, rfl⟩ := Option.map_eq_some_iff.mp h
      have hle := recordsSize?_le count _ later hlater
      omega

/-- The length of an identification reply, once all its sizes are known. -/
def identificationSize (bytes : Bytes) : Guarded (Option Nat) := do
  let first ← plus 1 identificationHeader
  if bytes.length < first then return none
  else
    let count ← byteAt bytes (← minus first 1)
    match ← recordsEnd bytes count.toNat first with
    | some ending => return some (← plus ending 2)
    | none => return none

lemma identificationSize_eq (unit code : UInt8) (rest : Bytes) :
    identificationSize (unit :: code :: rest) = pure (Rtu.identificationSize? rest) := by
  match rest with
  | [] | [_] | [_, _] | [_, _, _] | [_, _, _, _] | [_, _, _, _, _] => rfl
  | a :: b :: c :: d :: e :: count :: records =>
      have hcount := count.toNat_lt
      have hlong : ¬ (unit :: code :: a :: b :: c :: d :: e :: count :: records).length
          < 1 + identificationHeader := by simp [identificationHeader]
      have hending := recordsEnd_eq (unit :: code :: a :: b :: c :: d :: e :: count :: records)
        count.toNat (1 + identificationHeader) (by simp only [identificationHeader]; omega)
      rw [identificationSize, plus_eq (by decide), pure_bind, if_neg hlong, minus_eq (by decide),
        pure_bind, byteAt_eq rfl, pure_bind, hending, pure_bind, Rtu.identificationSize?]
      change (match (Rtu.recordsSize? count.toNat records).map (8 + ·) with
        | some ending => (plus ending 2 >>= fun size => pure (some size))
        | none => pure none) = _
      cases hrecords : Rtu.recordsSize? count.toNat records with
      | none => rfl
      | some size =>
          have hsize := recordsSize?_le count.toNat records size hrecords
          simp only [Option.map_some]
          rw [plus_eq (by omega), pure_bind, show 8 + size + 2 = 10 + size by omega]

/-- Whether the bytes of a reply are all there. -/
def responseComplete (bytes : Bytes) : Guarded Bool := do
  if bytes.length < Rtu.minFrame then return false
  else
    let code ← byteAt bytes 1
    if Function.isFlagged code then return decide (5 ≤ bytes.length)
    else
      match Function.ofCode? code with
      | some (.readBits _) | some (.readWords _) =>
        return decide ((← plus 5 (← byteAt bytes 2).toNat) ≤ bytes.length)
      | some .writeCoil | some .writeRegister | some .writeCoils | some .writeRegisters =>
        return decide (8 ≤ bytes.length)
      | some .identify => return Rtu.reached (← identificationSize bytes) bytes
      | none => return true

/-- Whether the bytes of a request are all there. -/
def requestComplete (bytes : Bytes) : Guarded Bool := do
  if bytes.length < Rtu.minFrame then return false
  else
    match Function.ofCode? (← byteAt bytes 1) with
    | some (.readBits _) | some (.readWords _) | some .writeCoil | some .writeRegister =>
      return decide (8 ≤ bytes.length)
    | some .writeCoils | some .writeRegisters =>
      if 7 ≤ bytes.length then
        return decide ((← plus 9 (← byteAt bytes 6).toNat) ≤ bytes.length)
      else return false
    | some .identify => return decide (7 ≤ bytes.length)
    | none => return true

lemma minFrame_le_of_map {α : Type} {count? : Option α} {base size : Nat} {counted : α → Nat}
    (hbase : Rtu.minFrame ≤ base) (h : (count?.map fun count => base + counted count) = some size) :
    Rtu.minFrame ≤ size := by
  obtain ⟨count, -, rfl⟩ := Option.map_eq_some_iff.mp h
  exact Nat.le_add_right_of_le hbase

lemma minFrame_le_identificationSize? {bytes : Bytes} {size : Nat}
    (h : Rtu.identificationSize? bytes = some size) : Rtu.minFrame ≤ size := by
  match bytes with
  | [] | [_] | [_, _] | [_, _, _] | [_, _, _, _] | [_, _, _, _, _] => cases h
  | _ :: _ :: _ :: _ :: _ :: count :: records => exact minFrame_le_of_map (by decide) h

/-- **No reply is announced to be shorter than the shortest frame.** -/
lemma minFrame_le_responseSize? {bytes : Bytes} {size : Nat}
    (h : Rtu.responseSize? bytes = some size) : Rtu.minFrame ≤ size := by
  match bytes with
  | [] | [_] => cases h
  | unit :: code :: rest =>
      simp only [Rtu.responseSize?] at h
      split_ifs at h with hflag
      · obtain rfl := Option.some.inj h
        decide
      · cases hfunction : Function.ofCode? code with
        | none =>
            rw [hfunction] at h
            obtain rfl := Option.some.inj h
            decide
        | some function =>
            rw [hfunction] at h
            cases function with
            | readBits _ | readWords _ => exact minFrame_le_of_map (by decide) h
            | identify => exact minFrame_le_identificationSize? h
            | _ =>
                obtain rfl := Option.some.inj h
                decide

lemma minFrame_le_requestSize? {bytes : Bytes} {size : Nat}
    (h : Rtu.requestSize? bytes = some size) : Rtu.minFrame ≤ size := by
  match bytes with
  | [] | [_] => cases h
  | unit :: code :: rest =>
      simp only [Rtu.requestSize?] at h
      cases hfunction : Function.ofCode? code with
      | none =>
          rw [hfunction] at h
          obtain rfl := Option.some.inj h
          decide
      | some function =>
          rw [hfunction] at h
          cases function with
          | writeCoils | writeRegisters => exact minFrame_le_of_map (by decide) h
          | _ =>
              obtain rfl := Option.some.inj h
              decide

lemma reached_eq_false {size? : Option Nat} {bytes : Bytes}
    (hsize : ∀ size, size? = some size → Rtu.minFrame ≤ size)
    (hshort : bytes.length < Rtu.minFrame) : Rtu.reached size? bytes = false := by
  cases size? with
  | none => rfl
  | some size =>
      have hmin := hsize size rfl
      exact decide_eq_false (by omega)

lemma responseComplete_eq (bytes : Bytes) :
    responseComplete bytes = pure (Rtu.responseComplete bytes) := by
  by_cases hshort : bytes.length < Rtu.minFrame
  · rw [responseComplete, if_pos hshort, Rtu.responseComplete,
      reached_eq_false (fun _ => minFrame_le_responseSize?) hshort]
  · rw [responseComplete, if_neg hshort]
    obtain ⟨unit, code, third, fourth, rest, rfl⟩ := exists_of_minFrame hshort
    have hthird := third.toNat_lt
    have hsum : plus 5 third.toNat = pure (5 + third.toNat) := plus_eq (by omega)
    simp only [byteAt_succ, byteAt_zero, pure_bind, identificationSize_eq, hsum,
      Rtu.responseComplete, Rtu.responseSize?]
    by_cases hflag : Function.isFlagged code = true
    · rw [if_pos hflag, if_pos hflag]
      rfl
    · rw [if_neg hflag, if_neg hflag]
      cases Function.ofCode? code with
      | none => simp [Rtu.reached]
      | some function => cases function <;> rfl

/-- The size byte of a write of several cells is looked at once it is there. -/
lemma writeComplete_eq (unit code third fourth : UInt8) (rest : Bytes) :
    (if 7 ≤ (unit :: code :: third :: fourth :: rest).length then do
        return decide ((← plus 9 (← byteAt rest 2).toNat)
          ≤ (unit :: code :: third :: fourth :: rest).length)
      else return false : Guarded Bool)
      = pure (Rtu.reached (rest[2]?.map fun size => 9 + size.toNat)
          (unit :: code :: third :: fourth :: rest)) := by
  match rest with
  | [] | [_] | [_, _] => rfl
  | _ :: _ :: size :: later =>
      have hsize := size.toNat_lt
      rw [if_pos (by simp), byteAt_succ, byteAt_succ, byteAt_zero, pure_bind, plus_eq (by omega),
        pure_bind]
      rfl

lemma requestComplete_eq (bytes : Bytes) :
    requestComplete bytes = pure (Rtu.requestComplete bytes) := by
  by_cases hshort : bytes.length < Rtu.minFrame
  · rw [requestComplete, if_pos hshort, Rtu.requestComplete,
      reached_eq_false (fun _ => minFrame_le_requestSize?) hshort]
  · rw [requestComplete, if_neg hshort]
    obtain ⟨unit, code, third, fourth, rest, rfl⟩ := exists_of_minFrame hshort
    simp only [byteAt_succ, byteAt_zero, pure_bind, Rtu.requestComplete, Rtu.requestSize?]
    cases Function.ofCode? code with
    | none => simp [Rtu.reached]
    | some function =>
        cases function with
        | writeCoils => exact writeComplete_eq unit code third fourth rest
        | writeRegisters => exact writeComplete_eq unit code third fourth rest
        | _ => rfl

end Binary

namespace Characters

/-- The bytes that a frame's digits spell, check included. -/
def body (adu : Bytes) : Guarded Bytes := do
  if adu.length < Ascii.minFrame then throw (.framing (.shortFrame .ascii adu.length))
  else
    let first ← byteAt adu 0
    if first ≠ Ascii.opening ∨ !Ascii.closing.isSuffixOf adu then throw (.framing .delimiters)
    else
      match Hex.decode (← inner adu 2) with
      | .ok bytes => return bytes
      | .error fault => throw (.framing (.hexDigits fault))

lemma isDelimited_cons (first : UInt8) (rest : Bytes) :
    (!Ascii.isDelimited (first :: rest)) = true ↔
      first ≠ Ascii.opening ∨ (!Ascii.closing.isSuffixOf (first :: rest)) = true := by
  have hclosing : Ascii.closing.isSuffixOf (first :: rest)
      = ((first :: rest).drop ((first :: rest).length - 2) == Ascii.closing) := by
    rw [Bool.eq_iff_iff, List.isSuffixOf_iff_suffix, List.suffix_iff_eq_drop, beq_iff_eq]
    exact eq_comm
  rw [hclosing, Ascii.isDelimited, Bool.not_and, Bool.or_eq_true]
  simp

lemma body_eq (adu : Bytes) : body adu = within (Ascii.body adu) := by
  by_cases hshort : adu.length < Ascii.minFrame
  · rw [body, Ascii.body, if_pos hshort, if_pos hshort]
    rfl
  · rw [body, Ascii.body, if_neg hshort, if_neg hshort]
    cases adu with
    | nil => exact absurd (by decide) hshort
    | cons first rest =>
        have hinside : 2 ≤ rest.length := by
          simp only [List.length_cons, Ascii.minFrame] at hshort
          omega
        rw [byteAt_zero, pure_bind]
        by_cases hbare : (!Ascii.isDelimited (first :: rest)) = true
        · rw [if_pos hbare, if_pos ((isDelimited_cons first rest).mp hbare)]
          rfl
        · rw [if_neg hbare, if_neg fun h => hbare ((isDelimited_cons first rest).mpr h),
            inner_eq hinside, pure_bind]
          change _ = within (match Hex.decode (rest.take (rest.length - 2)) with
            | .ok bytes => .ok bytes
            | .error fault => .error (.framing (.hexDigits fault)))
          cases Hex.decode (rest.take (rest.length - 2)) <;> rfl

/-- **Taking a frame apart.** -/
def parse (adu : Bytes) : Guarded (Header × Bytes) := do
  let bytes ← body adu
  if !Checksum.lrcMatches bytes then throw (.framing .checksum)
  else
    let pdu ← inner bytes 1
    return (⟨← byteAt bytes 0, none⟩, pdu)

/-- A frame that is not too short spells at least three bytes. -/
lemma three_le_of_body {adu bytes : Bytes} (h : Ascii.body adu = .ok bytes) :
    3 ≤ bytes.length := by
  have hlength := Ascii.length_of_body h
  have hlong : ¬ adu.length < Ascii.minFrame := by
    intro hshort
    rw [Ascii.body, if_pos hshort] at h
    cases h
  rw [Ascii.minFrame] at hlong
  omega

lemma exists_of_three {bytes : Bytes} (h : 3 ≤ bytes.length) :
    ∃ unit code third rest, bytes = unit :: code :: third :: rest := by
  match bytes with
  | [] | [_] | [_, _] => simp at h
  | unit :: code :: third :: rest => exact ⟨unit, code, third, rest, rfl⟩

lemma split?_cons (unit a b : UInt8) (rest : Bytes) :
    Ascii.split? (unit :: a :: b :: rest)
      = some (unit, (a :: b :: rest).take ((a :: b :: rest).length - 1)) := by
  rw [Ascii.split?, if_neg (by simp), List.dropLast_eq_take]

lemma parse_eq (adu : Bytes) : parse adu = within (Ascii.parse adu) := by
  rw [parse, body_eq]
  refine bind_within fun bytes hbody => ?_
  obtain ⟨unit, code, third, rest, rfl⟩ := exists_of_three (three_le_of_body hbody)
  rw [inner_eq (by simp), split?_cons]
  dsimp only
  cases Checksum.lrcMatches (unit :: code :: third :: rest) <;> rfl

/-- **Whether a reply answers a request.** -/
def validate (request response : Bytes) : Guarded Unit := do
  match (← outcome (body request)).toOption.filter fun bytes => 3 ≤ bytes.length with
  | none => throw (.invalidArgument (.notAFrame .ascii))
  | some asked =>
    let bytes ← body response
    if bytes.length < 3 then throw (.framing .truncatedPdu)
    else validateSerial 1 (fun bytes => return Checksum.lrcMatches bytes) asked bytes

lemma validate_eq (request response : Bytes) :
    validate request response = within (Ascii.validate request response) := by
  rw [validate, body_eq, outcome_within, pure_bind, Ascii.validate, Ascii.request?]
  cases hrequest : Ascii.body request with
  | error error => rfl
  | ok spelled =>
      have hlong : 3 ≤ spelled.length := three_le_of_body hrequest
      obtain ⟨asked, code, third, later, rfl⟩ := exists_of_three hlong
      simp only [Except.toOption, Option.filter_some, decide_eq_true hlong, if_true, split?_cons,
        body_eq]
      refine bind_within fun bytes hbody => ?_
      have hbytes : ¬ bytes.length < 3 := Nat.not_lt.mpr (three_le_of_body hbody)
      obtain ⟨unit, got, check, rest, rfl⟩ := exists_of_three (Nat.not_lt.mp hbytes)
      rw [if_neg hbytes, validateSerial_eq (fun _ => rfl) asked code unit (by simp) (by simp),
        split?_cons]

end Characters

end Modbus.Guarded
