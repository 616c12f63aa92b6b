import Modbus.Proofs.Guarded.Replies

/-!
# Network frames by position

Network frames with every index checked, each function equal to the one of the library
(`Network.parse_eq`, `Network.validate_eq`, `Network.complete_eq`).  All their fields have fixed
places, so one comparison with the length of the header covers every index that follows
(`Network.exists_of_header`).  Whether a frame is complete is asked before there is a header, and
rests on a comparison of its own.
-/

namespace Modbus.Guarded

namespace Network

/-- The bytes of a frame before its function code. -/
def header : Nat := 7

/-- The number of bytes announced to follow. -/
def following (bytes : Bytes) : Guarded Nat := do
  return (← word bytes 4).toNat

/-- **Taking a frame apart.** -/
def parse (adu : Bytes) : Guarded (Header × Bytes) := do
  if adu.length < header + 1 then throw (.framing (.shortFrame .tcp adu.length))
  else
    let protocol ← word adu 2
    if protocol ≠ 0 then throw (.framing (.protocolIdentifier protocol))
    else
      let announced ← following adu
      let present ← minus adu.length Tcp.uncounted
      if announced ≠ present then throw (.framing (.following announced present))
      else return (⟨← byteAt adu 6, some (← word adu 0)⟩, ← slice adu header adu.length)

/-- Whether the bytes of a frame are all there. -/
def complete (bytes : Bytes) : Guarded Bool := do
  if Tcp.uncounted ≤ bytes.length then
    return decide ((← plus Tcp.uncounted (← following bytes)) ≤ bytes.length)
  else return false

/-- Whether a reply has another transaction number than its request, if that is checked. -/
def transactionDiffers (checked : Bool) (request response : Bytes) : Guarded Bool := do
  if checked then return (← slice response 0 2) != (← slice request 0 2)
  else return false

/-- **Whether a reply answers a request.** -/
def validate (checked : Bool) (request response : Bytes) : Guarded Unit := do
  if request.length < header + 1 then throw (.invalidArgument (.notAFrame .tcp))
  else if response.length < header + 1 then
    throw (.framing (.truncatedResponse response.length))
  else if ← transactionDiffers checked request response then
    throw (.framing (.transactionMismatch (← slice request 0 2) (← slice response 0 2)))
  else if (← slice response 2 4) ≠ [0, 0] then throw (.framing .replyProtocolIdentifier)
  else
    let announced ← following response
    let present ← minus response.length Tcp.uncounted
    if announced ≠ present then throw (.framing (.following announced present))
    else
      let unit ← byteAt response 6
      let asked ← byteAt request 6
      if unit ≠ asked then throw (.framing (.unitMismatch asked unit))
      else
        let pdu ← slice response header response.length
        let _ ← within (Reply.payload (← byteAt request header) pdu)
        checkShape (← slice request header request.length) pdu

/-- The bytes of a frame that has a header and a function code. -/
lemma exists_of_header {bytes : Bytes} (h : ¬ bytes.length < header + 1) :
    ∃ t₁ t₂ p₁ p₂ l₁ l₂ unit code rest,
      bytes = t₁ :: t₂ :: p₁ :: p₂ :: l₁ :: l₂ :: unit :: code :: rest := by
  match bytes with
  | [] | [_] | [_, _] | [_, _, _] | [_, _, _, _] | [_, _, _, _, _] | [_, _, _, _, _, _]
  | [_, _, _, _, _, _, _] => exact absurd h (by simp [header])
  | t₁ :: t₂ :: p₁ :: p₂ :: l₁ :: l₂ :: unit :: code :: rest =>
      exact ⟨t₁, t₂, p₁, p₂, l₁, l₂, unit, code, rest, rfl⟩

lemma split?_of_short {bytes : Bytes} (h : bytes.length < header + 1) :
    Tcp.split? bytes = none := by
  match bytes with
  | [] | [_] | [_, _] | [_, _, _] | [_, _, _, _] | [_, _, _, _, _] | [_, _, _, _, _, _]
  | [_, _, _, _, _, _, _] => rfl
  | t₁ :: t₂ :: p₁ :: p₂ :: l₁ :: l₂ :: unit :: code :: rest =>
      simp only [List.length_cons, header] at h
      omega

lemma parse_eq (adu : Bytes) : parse adu = within (Tcp.parse adu) := by
  by_cases hshort : adu.length < header + 1
  · rw [parse, if_pos hshort, Tcp.parse, split?_of_short hshort]
    rfl
  · rw [parse, if_neg hshort]
    obtain ⟨t₁, t₂, p₁, p₂, l₁, l₂, unit, code, rest, rfl⟩ := exists_of_header hshort
    have hrest : header ≤ (t₁ :: t₂ :: p₁ :: p₂ :: l₁ :: l₂ :: unit :: code :: rest).length := by
      simp [header]
    have hpresent : minus (t₁ :: t₂ :: p₁ :: p₂ :: l₁ :: l₂ :: unit :: code :: rest).length
        Tcp.uncounted = pure ((code :: rest).length + 1) := minus_eq (by simp [Tcp.uncounted])
    rw [following, word_eq (by decide) rfl rfl, pure_bind, word_eq (by decide) rfl rfl, pure_bind,
      word_eq (by decide) rfl rfl, slice_length hrest]
    simp only [pure_bind, hpresent]
    exact ite_within _ fun _ => ite_within _ fun _ => rfl

lemma complete_eq (bytes : Bytes) : complete bytes = pure (Tcp.complete bytes) := by
  match bytes with
  | [] | [_] | [_, _] | [_, _, _] | [_, _, _, _] | [_, _, _, _, _] => rfl
  | _ :: _ :: _ :: _ :: l₁ :: l₂ :: rest =>
      have hlength := (Word.ofBytes l₁ l₂).toNat_lt
      rw [complete, if_pos (by simp [Tcp.uncounted]), following, word_eq (by decide) rfl rfl,
        pure_bind, pure_bind, plus_eq (by simp only [Tcp.uncounted]; omega), pure_bind]
      rfl

lemma ofBytes_inj {a b c d : UInt8} : Word.ofBytes a b = Word.ofBytes c d ↔ [a, b] = [c, d] := by
  refine ⟨fun h => ?_, fun h => ?_⟩
  · rw [← Word.toBytes_ofBytes a b, h, Word.toBytes_ofBytes]
  · simp only [List.cons.injEq, and_true] at h
    rw [h.1, h.2]

lemma validate_eq (checked : Bool) (request response : Bytes) :
    validate checked request response = within (Tcp.validate checked request response) := by
  by_cases hrequest : request.length < header + 1
  · rw [validate, if_pos hrequest, Tcp.validate, split?_of_short hrequest]
    rfl
  · rw [validate, if_neg hrequest]
    obtain ⟨t₁, t₂, p₁, p₂, l₁, l₂, asked, code, later, rfl⟩ := exists_of_header hrequest
    by_cases hresponse : response.length < header + 1
    · rw [if_pos hresponse, Tcp.validate, split?_of_short hresponse]
      rfl
    · rw [if_neg hresponse]
      obtain ⟨u₁, u₂, q₁, q₂, m₁, m₂, unit, got, rest, rfl⟩ := exists_of_header hresponse
      have hdiffers : transactionDiffers checked
          (t₁ :: t₂ :: p₁ :: p₂ :: l₁ :: l₂ :: asked :: code :: later)
          (u₁ :: u₂ :: q₁ :: q₂ :: m₁ :: m₂ :: unit :: got :: rest)
            = pure (checked && Word.ofBytes t₁ t₂ != Word.ofBytes u₁ u₂) := by
        have hbytes : ([u₁, u₂] != [t₁, t₂]) = (Word.ofBytes t₁ t₂ != Word.ofBytes u₁ u₂) := by
          rw [Bool.eq_iff_iff, bne_iff_ne, bne_iff_ne, ne_comm, ne_eq, ne_eq, ofBytes_inj]
        rw [← hbytes]
        cases checked <;> rfl
      have hpresent : minus (u₁ :: u₂ :: q₁ :: q₂ :: m₁ :: m₂ :: unit :: got :: rest).length
          Tcp.uncounted = pure ((got :: rest).length + 1) := minus_eq (by simp [Tcp.uncounted])
      have hprotocol : slice (u₁ :: u₂ :: q₁ :: q₂ :: m₁ :: m₂ :: unit :: got :: rest) 2 4
          = pure (Word.toBytes (Word.ofBytes q₁ q₂)) := by
        rw [slice_eq (by decide) (by simp), Word.toBytes_ofBytes]
        rfl
      rw [hdiffers, pure_bind, hprotocol, pure_bind, following, word_eq (by decide) rfl rfl,
        pure_bind, slice_length (by simp [header]), slice_length (by simp [header])]
      simp only [pure_bind, hpresent, Tcp.validate, Tcp.split?, Tcp.Fields.present, Result.throw_eq,
        Result.error_bind, Word.toBytes_ofBytes]
      by_cases hother : (checked && Word.ofBytes t₁ t₂ != Word.ofBytes u₁ u₂) = true
      · rw [if_pos hother, if_pos hother]
        rfl
      · rw [if_neg hother, if_neg hother]
        have hzero : [q₁, q₂] ≠ [0, 0] ↔ Word.ofBytes q₁ q₂ ≠ 0 := not_congr ofBytes_inj.symm
        simp only [hzero]
        refine ite_within _ fun _ => ite_within _ fun _ => ite_within _ fun _ => ?_
        exact bind_within fun _ _ => checkShape_eq _ _

end Network

end Modbus.Guarded
