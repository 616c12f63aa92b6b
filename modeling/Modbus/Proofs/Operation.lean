import Modbus.Client
import Modbus.Proofs.Result

/-!
# Laws of operations

`Operation` is a free monad over two effects, so it satisfies the laws of a monad, and programs
written with `do` can be brought into a form in which the effects come first.  For one exchange
that form is `Client.exchange_bind`: frame the request, hand it to the link, and conclude from
whatever comes back.
-/

namespace Modbus

namespace Operation

variable {α β : Type}

lemma bind_pure_right (operation : Operation α) :
    operation.bind (fun value => .done (.ok value)) = operation := by
  induction operation with
  | done outcome => cases outcome <;> rfl
  | frame unit pdu next ih => exact congrArg (frame unit pdu) (funext ih)
  | invoke request complete next ih => exact congrArg (invoke request complete) (funext ih)

lemma bind_bind {γ : Type} (operation : Operation α) (first : α → Operation β)
    (second : β → Operation γ) :
    (operation.bind first).bind second = operation.bind fun value => (first value).bind second := by
  induction operation with
  | done outcome => cases outcome <;> rfl
  | frame unit pdu next ih => exact congrArg (frame unit pdu) (funext ih)
  | invoke request complete next ih => exact congrArg (invoke request complete) (funext ih)

instance : LawfulMonad Operation :=
  LawfulMonad.mk' Operation bind_pure_right (fun _ _ => rfl) bind_bind

@[simp] lemma ofResult_ok_bind (value : α) (next : α → Operation β) :
    (ofResult (.ok value) >>= next) = next value := rfl

@[simp] lemma pure_eq (value : α) : (pure value : Operation α) = ofResult (.ok value) := rfl

@[simp] lemma map_ofResult (change : α → β) (outcome : Result α) :
    change <$> ofResult outcome = ofResult (outcome >>= fun value => .ok (change value)) := by
  cases outcome <;> rfl

/-- Outcomes without effects chain like results. -/
lemma ofResult_bind (outcome : Result α) (next : α → Result β) :
    (ofResult outcome >>= fun value => ofResult (next value)) = ofResult (outcome >>= next) := by
  cases outcome <;> rfl

end Operation

/-- **One exchange, effects first.** -/
lemma Client.exchange_bind {β : Type} (framing : Framing) (unit : UnitId) (pdu : Bytes)
    (next : Bytes → Result β) :
    (Client.exchange framing unit pdu >>= fun response => Operation.ofResult (next response))
      = .frame unit pdu fun request => .invoke request framing.responseComplete fun reply =>
          .done (do
            let response ← reply
            framing.validate request response
            next response) := by
  have hreply (request : Bytes) (reply : Result Bytes) :
      ((Operation.ofResult reply >>= fun response => do
          Operation.ofResult (framing.validate request response)
          return response) >>= fun response => Operation.ofResult (next response))
        = Operation.done (do
            let response ← reply
            framing.validate request response
            next response) := by
    cases reply with
    | error error => rfl
    | ok response =>
        simp only [Operation.ofResult_ok_bind, Result.ok_bind]
        cases framing.validate request response <;> rfl
  exact congrArg (Operation.frame unit pdu) (funext fun request =>
    congrArg (Operation.invoke request framing.responseComplete) (funext (hreply request)))

end Modbus
