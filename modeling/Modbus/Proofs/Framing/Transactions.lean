import Mathlib.Data.Nat.ModEq
import Modbus.Proofs.Framing.Independence

/-!
# Replies to other requests

On a network a reply that comes too late meets a request that it does not answer.  What tells it
apart is the number of the transaction: a codec counts its requests, a reply repeats the number of
the request it was made for, and the check compares it with the number of the request that waits.

The history of a codec is the list of frames that it has made, `Codec.frames`.  The request at a
position carries the codec's first number plus that position (`Codec.getElem?_frames`), where the
count starts again after 65536 requests, so two requests have one number exactly when their
positions are congruent (`Codec.number_eq_iff`).  Between requests with different numbers the check
never gets to anything but the number (`Tcp.validate_frame_of_ne`); between a request and its own
reply the header has nothing left to object to, and the judgement is that of units and PDUs, which
has no error of a header (`Reply.heedless_checkShape`).
-/

namespace Modbus

/-! ## Errors of a header -/

/-- **The errors that a header gives rise to**: a frame too short to have one, a wrong number, a
wrong protocol identifier, a wrong length, a wrong unit. -/
def Error.isOfHeader : Error → Bool
  | .invalidArgument (.notAFrame _) => true
  | .framing (.shortFrame _ _) => true
  | .framing (.truncatedResponse _) => true
  | .framing (.transactionMismatch _ _) => true
  | .framing (.protocolIdentifier _) => true
  | .framing .replyProtocolIdentifier => true
  | .framing (.following _ _) => true
  | .framing (.unitMismatch _ _) => true
  | _ => false

/-- A result that is not an error of a header. -/
def Result.Heedless {α : Type} (result : Result α) : Prop :=
  ∀ error, result = .error error → error.isOfHeader = false

namespace Result

variable {α β : Type}

lemma heedless_ok (value : α) : Heedless (.ok value) := nofun

lemma heedless_error {error : Error} (h : error.isOfHeader = false) :
    Heedless (.error error : Result α) := by
  rintro _ ⟨⟩
  exact h

lemma Heedless.bind {first : Result α} {next : α → Result β} (hfirst : Heedless first)
    (hnext : ∀ value, Heedless (next value)) : Heedless (first >>= next) := by
  cases first with
  | ok value => exact hnext value
  | error error => exact heedless_error (hfirst error rfl)

lemma Heedless.map {first : Result α} (h : Heedless first) (change : α → β) :
    Heedless (first.map change) := by
  cases first with
  | ok value => exact heedless_ok _
  | error error => exact heedless_error (h error rfl)

end Result

namespace Reply

open Result

lemma heedless_payload (function : UInt8) (pdu : Bytes) : Heedless (payload function pdu) := by
  fun_cases payload function pdu
  · exact heedless_error rfl
  · exact heedless_ok _
  · exact heedless_error rfl
  · exact heedless_error rfl
  · exact heedless_error rfl

lemma heedless_data (function : UInt8) (pdu : Bytes) : Heedless (data function pdu) := by
  refine (heedless_payload function pdu).bind fun payload => ?_
  cases payload with
  | nil => exact heedless_error rfl
  | cons size data =>
      dsimp only
      split_ifs
      · exact heedless_ok _
      · exact heedless_error rfl

lemma heedless_echo (function : UInt8) (pdu : Bytes) : Heedless (echo function pdu) := by
  refine (heedless_payload function pdu).bind fun payload => ?_
  split
  · exact heedless_ok _
  · exact heedless_error rfl

lemma heedless_objects (count : Nat) (bytes : Bytes) : Heedless (objects count bytes) := by
  fun_induction objects count bytes with
  | case1 => exact heedless_ok _
  | case2 => exact heedless_error rfl
  | case3 => exact heedless_error rfl
  | case4 count id size rest hlong ih => exact ih.map _
  | case5 => exact heedless_error rfl

lemma heedless_fragment (pdu : Bytes) : Heedless (fragment pdu) := by
  refine (heedless_payload _ pdu).bind fun payload => ?_
  split
  · split_ifs
    · exact heedless_error rfl
    · exact (heedless_objects _ _).bind fun objects => heedless_ok _
  · exact heedless_error rfl

lemma isOfHeader_of_categoryFault? {request pdu : Bytes} {fault : FramingFault}
    (h : categoryFault? request pdu = some fault) : (Error.framing fault).isOfHeader = false := by
  unfold categoryFault? at h
  split at h
  · split_ifs at h
    cases h
    rfl
  · simp at h

/-- **The shape of a PDU is judged without the header.** -/
lemma heedless_checkShape (request pdu : Bytes) : Heedless (checkShape request pdu) := by
  fun_cases checkShape request pdu
  · exact heedless_error rfl
  · exact (heedless_data _ _).map _
  · exact (heedless_data _ _).map _
  · exact (heedless_echo _ _).map _
  · exact (heedless_echo _ _).map _
  · exact (heedless_echo _ _).map _
  · exact (heedless_echo _ _).map _
  · refine (heedless_fragment _).bind fun _ => ?_
    split
    · rename_i fault hfault
      exact heedless_error (isOfHeader_of_categoryFault? hfault)
    · exact heedless_ok _
  · exact heedless_ok _

/-- The same unit being given, the judgement of a reply has no error of a header. -/
lemma heedless_verdict (unit : UnitId) (request pdu : Bytes) :
    Heedless (verdict unit unit request pdu) := by
  simp only [verdict, ne_eq, not_true, if_false]
  exact (heedless_payload _ pdu).bind fun _ => heedless_checkShape request pdu

end Reply

/-! ## Numbers -/

namespace Codec

/-- **The number of a request**, counted from the one that the codec frames next. -/
def number (codec : Codec) (position : Nat) : UInt16 :=
  codec.transaction + UInt16.ofNat position

/-- **The frames of requests**, made one after the other. -/
def frames (codec : Codec) : List (UnitId × Bytes) → List Bytes
  | [] => []
  | (unit, pdu) :: later =>
    let (frame, codec) := codec.request unit pdu
    frame :: codec.frames later

lemma number_succ (codec : Codec) (position : Nat) :
    ({ codec with transaction := codec.transaction + 1 } : Codec).number position
      = codec.number (position + 1) := by
  apply UInt16.toNat_inj.mp
  simp only [number, UInt16.toNat_add, UInt16.toNat_ofNat', UInt16.reduceToNat]
  omega

/-- **Each request has its number**, whatever the others were. -/
lemma getElem?_frames (codec : Codec) (asked : List (UnitId × Bytes)) (position : Nat) :
    (codec.frames asked)[position]? = asked[position]?.map fun (unit, pdu) =>
      codec.framing.wrap ⟨unit, some (codec.number position)⟩ pdu := by
  induction asked generalizing codec position with
  | nil => rfl
  | cons first later ih =>
      cases position with
      | zero => simp [frames, request, number]
      | succ position =>
          simp only [frames, request, List.getElem?_cons_succ, ih, number_succ]

/-- **Numbers repeat after 65536 requests**, and not before. -/
lemma number_eq_iff (codec : Codec) (m n : Nat) :
    codec.number m = codec.number n ↔ m ≡ n [MOD 65536] := by
  rw [← UInt16.toNat_inj]
  simp only [number, UInt16.toNat_add, UInt16.toNat_ofNat', Nat.ModEq]
  omega

end Codec

/-! ## The check -/

/-- **A reply with another number** is refused for its number and for nothing else. -/
lemma Tcp.validate_frame_of_ne {expected got : UInt16} (h : expected ≠ got) (asked from_ : UnitId)
    {request response : Bytes} (hrequest : request ≠ []) (hresponse : response ≠ []) :
    Tcp.validate true (Tcp.frame expected asked request) (Tcp.frame got from_ response)
      = .error (.framing (.transactionMismatch (Word.toBytes expected) (Word.toBytes got))) := by
  simp [Tcp.validate, Tcp.split?_frame _ _ hrequest, Tcp.split?_frame _ _ hresponse, h]

namespace Codec

/-- A PDU that there can be a frame of: not empty, and short enough for the length field. -/
def Framable (pdu : Bytes) : Prop :=
  1 ≤ pdu.length ∧ pdu.length ≤ 65534

lemma Framable.ne_nil {pdu : Bytes} (h : Framable pdu) : pdu ≠ [] :=
  List.ne_nil_of_length_pos h.1

/-- **Replies to other requests are refused.**  Take any history of a codec that checks numbers, and
a reply framed with the header of one of its requests.  Checked against another of them it is
refused for its number, unless a multiple of 65536 requests lies between the two; then, and when it
is checked against its own, it is judged by units and PDUs, so that its own request never finds
fault with its header. -/
theorem reply_refused_by_other_requests (codec : Codec) (hchecked : codec.framing = .tcp true)
    (asked : List (UnitId × Bytes)) {m n : Nat} {unitM unitN : UnitId} {pduM pduN reply : Bytes}
    (hm : asked[m]? = some (unitM, pduM)) (hn : asked[n]? = some (unitN, pduN))
    (hpduM : Framable pduM) (hpduN : Framable pduN) (hreply : Framable reply) :
    ∃ frameM frameN header,
      (codec.frames asked)[m]? = some frameM ∧ (codec.frames asked)[n]? = some frameN ∧
      codec.framing.parse frameM = .ok (header, pduM) ∧
      (¬ m ≡ n [MOD 65536] →
        codec.framing.validate frameN (codec.framing.wrap header reply)
          = .error (.framing (.transactionMismatch (Word.toBytes (codec.number n))
              (Word.toBytes (codec.number m))))) ∧
      (m ≡ n [MOD 65536] →
        codec.framing.validate frameN (codec.framing.wrap header reply)
          = Reply.verdict unitN unitM pduN reply) ∧
      (m = n → ∀ error,
        codec.framing.validate frameN (codec.framing.wrap header reply) = .error error →
          error.isOfHeader = false) := by
  have hfitsM : pduM.length < 65535 := Nat.lt_succ_of_le hpduM.2
  have hfitsReply : reply.length < 65535 := Nat.lt_succ_of_le hreply.2
  have hjudged (hsame : m ≡ n [MOD 65536]) :
      codec.framing.validate (codec.framing.wrap ⟨unitN, some (codec.number n)⟩ pduN)
          (codec.framing.wrap ⟨unitM, some (codec.number m)⟩ reply)
        = Reply.verdict unitN unitM pduN reply := by
    rw [(codec.number_eq_iff m n).mpr hsame]
    exact codec.framing.validate_wrap_eq _ _ _ hpduN.ne_nil hreply.ne_nil hfitsReply
  refine ⟨_, _, ⟨unitM, some (codec.number m)⟩, by rw [getElem?_frames, hm, Option.map_some],
    by rw [getElem?_frames, hn, Option.map_some], ?_, ?_, hjudged, ?_⟩
  · simp only [hchecked]
    exact Tcp.parse_frame _ _ hpduM.ne_nil hfitsM
  · intro hother
    have hnumbers : codec.number n ≠ codec.number m := by
      intro heq
      exact hother ((codec.number_eq_iff m n).mp heq.symm)
    simp only [hchecked]
    exact Tcp.validate_frame_of_ne hnumbers _ _ hpduN.ne_nil hreply.ne_nil
  · rintro rfl error herror
    rw [hjudged rfl] at herror
    rw [hm, Option.some.injEq, Prod.mk.injEq] at hn
    obtain ⟨rfl, rfl⟩ := hn
    exact Reply.heedless_verdict _ _ _ error herror

/-- Two requests on either side of the last number: the late reply to the first is refused by the
second, which accepts its own. -/
theorem late_reply_refused_at_last_number :
    let codec : Codec := ⟨.tcp true, 65535⟩
    let asked : List (UnitId × Bytes) :=
      [(17, [0x03, 0x00, 0x00, 0x00, 0x01]), (17, [0x03, 0x00, 0x09, 0x00, 0x01])]
    let reply : Bytes := [0x03, 0x02, 0x12, 0x34]
    ∃ first second header own,
      (codec.frames asked)[0]? = some first ∧ (codec.frames asked)[1]? = some second ∧
      codec.framing.parse first = .ok (header, [0x03, 0x00, 0x00, 0x00, 0x01]) ∧
      codec.framing.parse second = .ok (own, [0x03, 0x00, 0x09, 0x00, 0x01]) ∧
      codec.framing.validate second (codec.framing.wrap header reply)
        = .error (.framing (.transactionMismatch [0x00, 0x00] [0xFF, 0xFF])) ∧
      codec.framing.validate second (codec.framing.wrap own reply) = .ok () := by
  intro codec asked reply
  have hreply : Framable reply := ⟨by decide, by decide⟩
  have hsize : Framable [0x03, 0x00, 0x00, 0x00, 0x01] := ⟨by decide, by decide⟩
  have hsizeLater : Framable [0x03, 0x00, 0x09, 0x00, 0x01] := ⟨by decide, by decide⟩
  obtain ⟨first, second, header, hfirst, hsecond, hheader, hlate, -, -⟩ :=
    reply_refused_by_other_requests codec rfl asked (m := 0) (n := 1) rfl rfl hsize hsizeLater hreply
  obtain ⟨same, again, own, hsame, hagain, hown, -, hjudged, -⟩ :=
    reply_refused_by_other_requests codec rfl asked (m := 1) (n := 1) rfl rfl hsizeLater hsizeLater
      hreply
  obtain rfl : second = same := Option.some.inj (hsecond.symm.trans hsame)
  obtain rfl : second = again := Option.some.inj (hsecond.symm.trans hagain)
  exact ⟨first, second, header, own, hfirst, hsecond, hheader, hown,
    (hlate (by decide)).trans (by decide), (hjudged rfl).trans (by decide)⟩

end Codec

end Modbus
