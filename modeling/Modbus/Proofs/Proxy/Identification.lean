import Modbus.Proofs.Identification.Reading
import Modbus.Proofs.Framing.Independence
import Modbus.Proofs.Proxy.Forwarding
import Modbus.Proofs.Proxy.Transparency

/-!
# Identifications behind a proxy

`Transparency` leaves requests for identification out, and this file says why.  A page that comes
back to a proxy is kept as a `Fragment`, which has no place for the level that the device conforms
to, and the page that goes out is made anew from it.  All of it survives but this one byte, which
comes to state the category that was asked for (`Response.restated`).  So a chain of proxies, of
whatever length, gives the page of its device with another conformity byte
(`Chain.Stands.identified`), and the two are the same only if the device was asked for the category
that it conforms to, which an access to a single object never does.

What the proxies rely on is `Response.Identifies`: that a page fits a PDU, is of the category that
was asked for and promises access to single objects.  The pages of a device are such, and so are
the pages that a proxy makes of them.
-/

namespace Modbus

/-! ## Pages and refusals -/

lemma Identity.page_eq_ok {identity : Identity} {category : Category} {first : UInt8} {maxPdu : Nat}
    {page : IdentificationReply} (h : identity.page category first maxPdu = .ok page) :
    page.category = category ∧ page.conformity = identity.conformity ∧
      Object.totalSize page.objects ≤ maxPdu - identificationHeader := by
  cases hstart : identity.start? category first with
  | none => simp [Identity.page, hstart] at h
  | some start =>
      simp only [Identity.page, hstart] at h
      obtain ⟨taken, rest, hfitting, -, hsize⟩ := Object.fitting_eq (maxPdu - identificationHeader)
        ((identity.entries start (category.lastObject first)).filter
          fun object => !Object.isReserved object.id)
      rw [hfitting] at h
      split at h
      · simp at h
      · rename_i hsame
        obtain ⟨rfl, rfl⟩ := Prod.mk.inj hsame
        obtain rfl := Except.ok.inj h
        exact ⟨rfl, rfl, hsize⟩

lemma Identity.page_eq_error {identity : Identity} {category : Category} {first : UInt8}
    {maxPdu : Nat} {code : ExceptionCode} (h : identity.page category first maxPdu = .error code) :
    ExceptionCode.ofByte code.toByte = code := by
  cases hstart : identity.start? category first with
  | none =>
      simp only [Identity.page, hstart, Except.error.injEq] at h
      obtain rfl := h
      rfl
  | some start =>
      simp only [Identity.page, hstart] at h
      split at h
      · obtain rfl := Except.error.inj h
        rfl
      · simp at h

namespace Response

/-- **A reply to an access to an identification** by a given category. -/
inductive Identifies (category : Category) : Response → Prop where
  | page {page : IdentificationReply} (hcategory : page.category = category) (hfits : page.Fits)
      (haccess : page.fragment.individualAccess = true) :
      Identifies category (.identification page)
  | refused {code : ExceptionCode} (hcode : ExceptionCode.ofByte code.toByte = code) :
      Identifies category (.exception Function.identify.code code)

/-- **A page that states the category that was asked for** as the level that the device conforms
to; an exception stays as it is. -/
def restated (category : Category) : Response → Response
  | .identification page => .identification { page with conformity := 0x80 ||| category.code }
  | response => response

end Response

/-- A device answers with a page or refuses. -/
lemma Identity.identifies (identity : Identity) (category : Category) (first : UInt8) :
    (identity.answer category first Limit.maxPdu).Identifies category := by
  cases hpage : identity.page category first Limit.maxPdu with
  | error code =>
      rw [Identity.answer, hpage]
      exact .refused (Identity.page_eq_error hpage)
  | ok page =>
      obtain ⟨hcategory, hconformity, hsize⟩ := Identity.page_eq_ok hpage
      rw [Identity.answer, hpage]
      refine .page hcategory ?_ ?_
      · simp only [IdentificationReply.Fits, identificationHeader, Limit.maxPdu] at hsize ⊢
        omega
      · rw [IdentificationReply.fragment, hconformity]
        exact identity.individualAccess_conformity

namespace Response.Identifies

variable {category : Category} {response : Response}

lemma restated (h : response.Identifies category) :
    (response.restated category).Identifies category := by
  cases h with
  | page hcategory hfits haccess =>
      have hpromised : ((0x80 ||| category.code) &&& 0x80 != 0) = true := by
        cases category <;> decide
      exact .page hcategory hfits hpromised
  | refused hcode => exact .refused hcode

lemma length_le (h : response.Identifies category) : response.toPdu.length ≤ Limit.maxPdu := by
  cases h with
  | page hcategory hfits haccess =>
      rw [length_identification]
      exact hfits
  | refused hcode => simp [toPdu, Limit.maxPdu]

lemma endsAt (h : response.Identifies category) (framing : Framing) (header : Header) :
    EndsAt framing.responseComplete (framing.writeResponse header response) := by
  have hlength := h.length_le
  cases h with
  | @page page hcategory hfits haccess =>
      have hcode : (identification page).toPdu.head? = some Function.identify.code := rfl
      exact framing.responseEndsAt header hcode
        (Reply.checkShape_page hfits 0) hlength
  | refused hcode =>
      cases framing with
      | rtu =>
          refine .of_size Rtu.responseSize?_append ?_
          rw [Framing.writeResponse, Framing.wrap, Rtu.length_frame]
          rfl
      | ascii => exact Ascii.endsAt_frame _ _
      | tcp checked => exact .of_size Tcp.size?_append (Tcp.size?_frame _ _ (by simp [toPdu]))

/-- **What a proxy makes of a reply** to a request for identification. -/
lemma settled (h : response.Identifies category) (framing : Framing) (unit : UnitId)
    (transaction : UInt16) (object : UInt8) :
    Proxy.settled (.identify category object)
        (Proxy.read framing (.identify category object)
          (framing.wrap ⟨unit, some transaction⟩ (Request.identifyPdu category object))
          (.ok (framing.writeResponse ⟨unit, some transaction⟩ response)))
      = response.restated category := by
  have hfits := h.length_le
  cases h with
  | @page page hcategory hpage haccess =>
      subst hcategory
      have hsome : (identification page).toPdu ≠ [] := List.cons_ne_nil _ _
      have hshort : (identification page).toPdu.length < 65535 := by
        simp only [Limit.maxPdu] at hfits
        omega
      have hvalid := framing.validate_wrap ⟨unit, some transaction⟩ hsome hshort
        (Reply.payload_code _ _) (Reply.checkShape_page hpage object)
      have hparse := framing.parse_wrap ⟨unit, some transaction⟩ hsome hshort
      have hread : Proxy.read framing (.identify page.category object)
          (framing.wrap ⟨unit, some transaction⟩ (Request.identifyPdu page.category object))
          (.ok (framing.writeResponse ⟨unit, some transaction⟩ (identification page)))
            = .ok (.identification (page.fragment.toReply page.category)) := by
        simp only [Proxy.read, Result.ok_bind, Framing.writeResponse]
        rw [Request.identifyPdu, hvalid, hparse]
        simp only [Result.ok_bind, Request.interpret, Reply.fragment_page hpage]
        rfl
      rw [hread]
      simp only [Proxy.settled, Fragment.toReply, Fragment.conformity, haccess, if_true]
      rfl
  | @refused code hcode =>
      have hvalid : framing.validate
          (framing.wrap ⟨unit, some transaction⟩ (Request.identifyPdu category object))
          (framing.wrap ⟨unit, some transaction⟩ (exception Function.identify.code code).toPdu)
            = .error (.exception Function.identify.code code) := by
        have hasked : Request.identifyPdu category object ≠ [] := List.cons_ne_nil _ _
        have hsome : (exception Function.identify.code code).toPdu ≠ [] := List.cons_ne_nil _ _
        have hshort : (exception Function.identify.code code).toPdu.length < 65535 := by
          simp [toPdu]
        rw [framing.validate_wrap_eq (some transaction) unit unit hasked hsome hshort,
          Reply.verdict, if_neg (not_not_intro rfl)]
        simp only [Request.identifyPdu, List.headD_cons, toPdu, Reply.payload, hcode]
        rfl
      have hread : Proxy.read framing (.identify category object)
          (framing.wrap ⟨unit, some transaction⟩ (Request.identifyPdu category object))
          (.ok (framing.writeResponse ⟨unit, some transaction⟩
            (exception Function.identify.code code)))
            = .error (.exception Function.identify.code code) := by
        simp only [Proxy.read, Result.ok_bind, Framing.writeResponse, hvalid]
        rfl
      rw [hread]
      rfl

end Response.Identifies

/-! ## Through a chain -/

/-- **A device answers a request for identification** and stays as it is. -/
lemma Device.answer_identify {device : Device} {unit : UnitId}
    (hunit : device.store.hasUnit unit = true) (category : Category) (object : UInt8) :
    device.answer unit (.identify category object)
      = (some (device.store.identity.answer category object Limit.maxPdu), device) := by
  simp [Device.answer, Device.handle, Store.handle, hunit]

namespace Chain

/-- **A proxy restates the page** that what is behind it gives. -/
lemma Stands.restates {hop : Hop} {rest : List Hop}
    {session : Session (Remote (handler rest) hop) Response} {device : Device} {unit : UnitId}
    {category : Category} {object : UInt8} {given : Response}
    (h : Stands (hop :: rest) session device) (hgiven : given.Identifies category)
    (hreply : (handler rest session.connection.wire.peer.serving.state unit
      (.identify category object)).1 = some given)
    (hbehind : Stands rest (handler rest session.connection.wire.peer.serving.state unit
      (.identify category object)).2 device) :
    (handler (hop :: rest) session unit (.identify category object)).1
        = some (given.restated category) ∧
      Stands (hop :: rest) (handler (hop :: rest) session unit (.identify category object)).2
        device := by
  obtain ⟨hquiet, hframing, hready, -⟩ := h
  obtain ⟨remote, hready', hstate, hanswering⟩ :=
    answering hready (Request.ofPdu_identifyPdu category object) rfl (hgiven.endsAt hop.framing)
      hgiven.length_le hreply session.connection.codec.transaction
  have hrequest : (session.connection.codec.request unit (Request.identifyPdu category object)).1
      = hop.framing.wrap ⟨unit, some session.connection.codec.transaction⟩
          (Request.identifyPdu category object) := by
    rw [Codec.request, hframing]
  have hsettled := hgiven.settled hop.framing unit session.connection.codec.transaction object
  rw [← hrequest] at hanswering hsettled
  obtain ⟨after, hcall, hquiet', hcodec, hpeer⟩ := Session.call_exchange hquiet
    (fun sent reply => .ok (Proxy.settled (.identify category object)
      (Proxy.read hop.framing (.identify category object) sent reply)))
    (hrequest ▸ hop.framing.wrap_ne_nil _ _) hanswering
  have hchain : handler (hop :: rest) session unit (.identify category object)
      = (some (given.restated category), after) := by
    show Hop.handler hop (handler rest) session unit _ = _
    rw [Hop.handler, Proxy.handle_of_resent rfl, hcall, hsettled]
    rfl
  have hframing' : after.connection.codec.framing = hop.framing := by
    rw [hcodec]
    exact hframing
  rw [hchain]
  refine ⟨rfl, hquiet', hframing', ?_⟩
  rw [hpeer]
  exact ⟨hready', hstate ▸ hbehind⟩

/-- What a chain makes of the reply of its device to a request for identification. -/
def restated : List Hop → Category → Response → Response
  | [], _, response => response
  | _ :: _, category, response => response.restated category

/-- **A chain gives the page of its device**, restated by its proxies. -/
lemma Stands.identified : ∀ {hops : List Hop} {state : State hops} {device : Device},
    Stands hops state device → ∀ {unit : UnitId}, device.store.hasUnit unit = true →
      ∀ (category : Category) (object : UInt8),
        (handler hops state unit (.identify category object)).1 = some (restated hops category
            (device.store.identity.answer category object Limit.maxPdu)) ∧
          Stands hops (handler hops state unit (.identify category object)).2 device
  | [], _, _, h, _, hunit, category, object => by
      obtain rfl := h
      have hanswer := Device.answer_identify hunit category object
      exact ⟨congrArg Prod.fst hanswer, congrArg Prod.snd hanswer⟩
  | _ :: rest, _, device, h, _, hunit, category, object => by
      obtain ⟨hreply, hbehind⟩ := h.2.2.2.identified hunit category object
      have hgiven := device.store.identity.identifies category object
      cases rest with
      | nil => exact h.restates hgiven hreply hbehind
      | cons next later =>
          obtain ⟨hchain, hstands⟩ := h.restates hgiven.restated hreply hbehind
          refine ⟨hchain.trans ?_, hstands⟩
          cases device.store.identity.answer category object Limit.maxPdu <;> rfl

/-- **One byte of a page depends on the proxies.**  A chain of proxies at rest in front of a device,
however many there are, passes an exception on as it is, and a page with nothing changed but its
conformity byte, which states the category that was asked for where the device states its own
level.  So the PDU is that of the device if and only if it is an exception or these two agree. -/
theorem identification_same_iff_level {hop : Hop} {rest : List Hop} {state : State (hop :: rest)}
    {device : Device} {unit : UnitId} (hstands : Stands (hop :: rest) state device)
    (hunit : device.store.hasUnit unit = true) (category : Category) (object : UInt8) :
    let chained := handler (hop :: rest) state unit (.identify category object)
    let direct := device.answer unit (.identify category object)
    ∃ proxied reply, chained.1 = some proxied ∧ direct.1 = some reply ∧
      (reply = proxied ∧ (∃ code, reply = .exception Function.identify.code code) ∨
        ∃ page, reply = .identification page ∧
          page.conformity = 0x80 ||| device.store.identity.level.code ∧
          proxied = .identification { page with conformity := 0x80 ||| category.code }) ∧
      (proxied.toPdu = reply.toPdu ↔
        (∃ code, reply = .exception Function.identify.code code) ∨
          device.store.identity.level = category) ∧
      Stands (hop :: rest) chained.2 direct.2 := by
  intro chained direct
  obtain ⟨hchained, hafter⟩ := hstands.identified hunit category object
  have hdirect := Device.answer_identify hunit category object
  refine ⟨_, _, hchained, congrArg Prod.fst hdirect, ?_, ?_,
    (congrArg Prod.snd hdirect).symm ▸ hafter⟩
  · cases hpage : device.store.identity.page category object Limit.maxPdu with
    | error code =>
        rw [Identity.answer, hpage]
        exact .inl ⟨rfl, code, rfl⟩
    | ok page =>
        rw [Identity.answer, hpage]
        exact .inr ⟨page, rfl, (Identity.page_eq_ok hpage).2.1, rfl⟩
  · cases hpage : device.store.identity.page category object Limit.maxPdu with
    | error code =>
        rw [Identity.answer, hpage]
        exact ⟨fun _ => .inl ⟨code, rfl⟩, fun _ => rfl⟩
    | ok page =>
        obtain ⟨hcategory, hconformity, -⟩ := Identity.page_eq_ok hpage
        have hlevel : 0x80 ||| category.code = page.conformity ↔
            device.store.identity.level = category := by
          rw [hconformity, Identity.conformity]
          cases device.store.identity.level <;> cases category <;> decide
        rw [Identity.answer, hpage, ← hlevel]
        simp [restated, Response.restated, Response.toPdu]

/-- A device with one object is asked for the basic category, which it conforms to. -/
theorem basic_name_passed_on_unchanged :
    let hop : Hop := ⟨"front", .serial, .rtu, .bytewise, .bytewise⟩
    let identity : Identity := { object := fun id => if id = 0x00 then some [0x41] else none }
    let device : Device := { store := { ({} : Store).addUnit 1 with identity } }
    (Stands [hop] (create [hop] device) device ∧ device.store.hasUnit 1 = true) ∧
      Identity.empty.set 0x00 [0x41] = .ok identity ∧
      (handler [hop] (create [hop] device) 1 (.identify .basic 0x00)).1.map Response.toPdu
        = some [0x2B, 0x0E, 0x01, 0x81, 0x00, 0x00, 1, 0x00, 1, 0x41] := by
  intro hop identity device
  have hstands := stands_create device [hop]
  obtain ⟨proxied, reply, hchained, hdirect, -, hsame, -⟩ :=
    @identification_same_iff_level hop [] _ device 1 hstands rfl .basic 0x00
  have hpdu := hsame.mpr (.inr (by decide +kernel))
  refine ⟨⟨hstands, rfl⟩, rfl, ?_⟩
  rw [hchained, Option.map_some, hpdu, ← Option.map_some, ← hdirect]
  decide +kernel

/-- **Asked for more than it conforms to**, the same device states the basic level and the proxy in
front of it the regular one. -/
theorem conformity_differs_behind_proxy :
    let hop : Hop := ⟨"front", .serial, .rtu, .bytewise, .bytewise⟩
    let identity : Identity := { object := fun id => if id = 0x00 then some [0x41] else none }
    let device : Device := { store := { ({} : Store).addUnit 1 with identity } }
    Identity.empty.set 0x00 [0x41] = .ok identity ∧
      (device.answer 1 (.identify .regular 0x00)).1.map Response.toPdu
        = some [0x2B, 0x0E, 0x02, 0x81, 0x00, 0x00, 1, 0x00, 1, 0x41] ∧
      (handler [hop] (create [hop] device) 1 (.identify .regular 0x00)).1.map Response.toPdu
        = some [0x2B, 0x0E, 0x02, 0x82, 0x00, 0x00, 1, 0x00, 1, 0x41] := by
  intro hop identity device
  have hdirect : (device.answer 1 (.identify .regular 0x00)).1.map Response.toPdu
      = some [0x2B, 0x0E, 0x02, 0x81, 0x00, 0x00, 1, 0x00, 1, 0x41] := by decide +kernel
  refine ⟨rfl, hdirect, ?_⟩
  have hunit : device.store.hasUnit 1 = true := rfl
  rw [((stands_create device [hop]).identified hunit .regular 0x00).1]
  decide +kernel

end Chain

end Modbus
