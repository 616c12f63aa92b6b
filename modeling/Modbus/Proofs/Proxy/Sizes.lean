import Modbus.Proofs.Identification.Records
import Modbus.Proofs.Proxy.Answers

/-!
# How large the replies of a proxy are

What a proxy reads of a reply from behind, it writes again in front.  Values are as many as a
request may ask for and fit into a PDU, echoes and exceptions are short, but the objects of an
identification page are as many and as large as the device behind made them: the page is written
again with exactly as many bytes as it came with (`Request.length_of_interpret`).  Nobody on the way
looks at this size, so a reply that does not fit is one thing only, a page that did not fit behind
(`Proxy.sized_of_outcome`).

A frame around a PDU that does not fit is too long in every framing (`Framing.aduLength_le_iff`).
It can be taken apart all the same, unless the field of a network frame cannot say how long it is
(`Framing.parse_wrap_iff`).
-/

namespace Modbus

open Connection

/-! ## Frames around large PDUs -/

namespace Framing

/-- **Lengths of PDUs that a frame can tell.** -/
def CanTell : Framing → Nat → Prop
  | tcp _, length => length < 65535
  | _, _ => True

/-- A length field that is too narrow does not tell the length. -/
lemma not_parse_of_long {checked : Bool} {header parsed : Header} {pdu : Bytes} (hpdu : pdu ≠ [])
    (hlong : 65535 ≤ pdu.length) :
    (tcp checked).parse ((tcp checked).wrap header pdu) ≠ .ok (parsed, pdu) := by
  intro h
  obtain ⟨fields, hfields, -, hfollowing, -⟩ := Tcp.parse_eq_ok_iff.mp h
  rw [wrap, Tcp.split?_frame _ _ hpdu] at hfields
  obtain rfl := Option.some.inj hfields
  have hfits := (UInt16.ofNat (pdu.length + 1)).toNat_lt
  simp only [Tcp.Fields.present] at hfollowing
  omega

/-- **What is wrapped can be taken apart** exactly if the frame can tell its length. -/
lemma parse_wrap_iff (framing : Framing) (header : Header) {pdu : Bytes} (hpdu : pdu ≠ []) :
    framing.parse (framing.wrap header pdu) = .ok (framing.heading header, pdu) ↔
      framing.CanTell pdu.length := by
  cases framing with
  | rtu => exact iff_of_true (Rtu.parse_frame _ hpdu) trivial
  | ascii => exact iff_of_true (Ascii.parse_frame _ hpdu) trivial
  | tcp checked =>
      refine ⟨fun h => ?_, (tcp checked).parse_wrap header hpdu⟩
      by_contra hlong
      exact not_parse_of_long hpdu (Nat.le_of_not_lt hlong) h

end Framing

/-! ## PDUs of responses -/

lemma Response.toPdu_ne_nil (response : Response) : response.toPdu ≠ [] := by
  cases response <;> exact List.cons_ne_nil _ _

/-- **A page is as long as its objects and its header.** -/
lemma Reply.length_of_fragment {pdu : Bytes} {page : Fragment} (h : fragment pdu = .ok page) :
    pdu.length = identificationHeader + Object.totalSize page.objects := by
  obtain ⟨mei, category, conformity, more, next, count, records, rfl, hobjects⟩ :=
    fragment_layout h
  have hrecords := (objects_eq_ok.mp hobjects).1.length_eq
  simp only [List.length_cons, identificationHeader, hrecords]
  omega

/-- Whether a response is a page of an identification. -/
def Response.isPage : Response → Bool
  | .identification _ => true
  | _ => false

/-- **A response fits, or it is a page that is as long as the one that it is made of.** -/
lemma Request.length_of_interpret {request : Request} {response : Response} {asked pdu : Bytes}
    (hresent : request.resent? = some (.ok asked)) (h : request.interpret pdu = .ok response) :
    (response.isPage = false ∧ response.toPdu.length ≤ Limit.maxPdu) ∨
      (∃ category object, request = .identify category object) ∧ response.isPage = true ∧
        response.toPdu.length = pdu.length := by
  cases fulfilled_of_interpret h with
  | @bits table start count values hcount =>
      obtain ⟨-, hrange⟩ := readPdu_eq_ok (Option.some.inj hresent)
      rw [if_pos (by cases table <;> decide)] at hrange
      have hlimit := (rangeFault?_eq_none.mp hrange).2.1
      have : Limit.readBits.toNat = 2000 := rfl
      refine .inl ⟨rfl, ?_⟩
      simp only [Response.toPdu, Response.counted, List.length_cons, Bits.length_pack, hcount,
        Bits.bytesFor, Limit.maxPdu]
      omega
  | @words table start count values hcount =>
      obtain ⟨-, hrange⟩ := readPdu_eq_ok (Option.some.inj hresent)
      rw [if_neg (by cases table <;> decide)] at hrange
      have hlimit := (rangeFault?_eq_none.mp hrange).2.1
      have : Limit.readWords.toNat = 125 := rfl
      refine .inl ⟨rfl, ?_⟩
      simp only [Response.toPdu, Response.counted, List.length_cons, length_listToBytes, hcount,
        Limit.maxPdu]
      omega
  | coil coil => exact .inl ⟨rfl, show 5 ≤ Limit.maxPdu by decide⟩
  | register register => exact .inl ⟨rfl, show 5 ≤ Limit.maxPdu by decide⟩
  | coils coils => exact .inl ⟨rfl, show 5 ≤ Limit.maxPdu by decide⟩
  | registers registers => exact .inl ⟨rfl, show 5 ≤ Limit.maxPdu by decide⟩
  | @identification category object page hcategory =>
      obtain ⟨fragment, hfragment, hpage⟩ := Result.bind_eq_ok.mp h
      obtain rfl := Response.identification.inj (Except.ok.inj hpage)
      refine .inr ⟨⟨category, object, rfl⟩, rfl, ?_⟩
      rw [Response.length_identification, Reply.length_of_fragment hfragment]
      rfl

/-! ## What a call replies -/

namespace Proxy

/-- **The size of a reply of a proxy**: it fits, or it is a page that is as long as the PDU that came
back for the call `id`. -/
inductive Sized (framing : Framing) (unit : UnitId) (request : Request) (told : List Occurrence)
    (id : Nat) (response : Response) : Prop where
  | fits (hplain : response.isPage = false) (hfits : response.toPdu.length ≤ Limit.maxPdu)
  | page {category : Category} {object : UInt8} {transaction : UInt16} {bytes pdu : Bytes}
      (hrequest : request = .identify category object) (hpage : response.isPage = true)
      (hback : CameBack told id bytes) (hbears : framing.Bears unit transaction bytes pdu)
      (hlength : response.toPdu.length = pdu.length)

variable {σ : Type} {framing : Framing} {unit : UnitId} {transaction : UInt16} {request : Request}
  {told : List Occurrence} {id : Nat} {asked : Bytes} {response : Response}

lemma Sized.exception (request : Request) (code : ExceptionCode) :
    Sized framing unit request told id (request.exception code) :=
  .fits rfl (show 2 ≤ Limit.maxPdu by decide)

/-- A reply that was made of a result from the link. -/
lemma Sized.of_settles {result : Result Bytes} (hsent : request.resent? = some (.ok asked))
    (hcame : ∀ bytes, result = .ok bytes → CameBack told id bytes)
    (hsettles : Settles framing unit transaction request asked result response) :
    Sized framing unit request told id response := by
  cases hsettles with
  | @fulfilled bytes pdu response hvalid hbears hinterpret =>
      rcases Request.length_of_interpret hsent hinterpret with ⟨hplain, hfits⟩ |
        ⟨⟨category, object, rfl⟩, hpage, hlength⟩
      · exact .fits hplain hfits
      · exact .page rfl hpage (hcame bytes rfl) hbears hlength
  | refused hrefused => exact .exception _ _
  | failed hother => exact .exception _ _

/-- **Only a page can be too large.**  On any connection that is in use, a request that a proxy is
done with has a reply, and the reply fits or is as long as the page that came back for it. -/
lemma sized_of_outcome [Peer σ] (name : String) (timing : Timing) (framing : Framing)
    (wire : Wire σ) (before later : List (Happening Response)) (unit : UnitId)
    (request : Request) {outcome : Result Response} :
    let reached : Connection σ Response := (create name timing framing wire).runOver before
    let id := reached.calls.length
    let final := (Caller.start reached (handle framing unit request) false).2.runOver later
    final.outcome? id = some outcome →
      ∃ response, outcome = .ok response ∧
        Sized framing unit request (occurrences final.history) id response := by
  intro reached id final houtcome
  have hdone {response : Response} (hhandle : handle framing unit request = .done (.ok response)) :
      outcome = .ok response := by
    have hunasked :=
      unasked_of_outcome name timing framing wire before later false (.ok response) outcome
    rw [← hhandle] at hunasked
    exact (hunasked houtcome).1
  cases hresent : request.resent? with
  | none =>
      rcases @handle_of_unsent framing unit request hresent with ⟨function, code, rfl, hhandle⟩ |
        ⟨function, rfl, hhandle⟩
      · exact ⟨_, hdone hhandle, .exception (.invalid function code) code⟩
      · exact ⟨_, hdone hhandle, .exception (.unsupported function) .illegalFunction⟩
  | some sent =>
      cases sent with
      | error error => exact ⟨_, hdone (handle_of_unsendable hresent), .exception _ _⟩
      | ok asked =>
          let errand : Errand Response :=
            ⟨framing, unit, asked, framing.responseComplete, fun sent reply =>
              .ok (settled request (read framing request sent reply))⟩
          have hran := errand.ran_of_outcome name timing wire before later false outcome
          rw [show errand.operation = handle framing unit request from
            (handle_of_resent hresent).symm] at hran
          obtain ⟨transaction, result, -, rfl, hplain, hcame⟩ := hran houtcome
          exact ⟨_, rfl, .of_settles hresent (fun bytes => (hcame bytes).mpr)
            (settled_cases hresent hplain)⟩

end Proxy

end Modbus
