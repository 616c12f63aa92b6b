import Mathlib.Data.List.Forall2
import Modbus.Proofs.Server.Effects

/-!
# The reports of a device are a complete log

A device that is listened to reports each write that it confirms.  This file shows that nothing is
missing from these reports and nothing is in them that did not happen (`logged_of_requests`): after
any requests there is one report for each confirmed write, in the same order, and writing the
reported cells again, over the memory as it was before, gives the memory as it is now.

Here a write may be any list of cells, with gaps and repeated addresses, in contrast to `Effects`,
where a write is what one frame can hold.  So what is written later counts, and the order of the
reports matters (`Image.replay_append`).

The step is one request (`Store.handle_reported`); the run follows by recursion on the requests.
-/

namespace Modbus

/-! ## Runs of a device -/

/-- **A request that was handled**, with the response that it got. -/
structure Device.Entry where
  unit : UnitId
  request : Request
  response : Option Response

/-- Whether the request was a write that the response confirms. -/
def Device.Entry.isConfirmed (entry : Entry) : Bool :=
  entry.response.any Response.confirms

/-- **What requests come to** that are handled one after the other. -/
structure Device.History where
  entries : List Entry
  /-- The reports of all of them, as they were made. -/
  writes : List Notification
  /-- The device afterwards. -/
  device : Device

/-- **Requests handled one after the other.** -/
def Device.handleAll (device : Device) : List (UnitId × Request) → Device.History
  | [] => ⟨[], [], device⟩
  | (unit, request) :: rest =>
    let (response, writes, after) := device.handle unit request
    let later := after.handleAll rest
    ⟨⟨unit, request, response⟩ :: later.entries, writes ++ later.writes, later.device⟩

/-! ## Reports -/

/-- **The report of a confirmed write**: its unit and its cells, in the order in which they were
given. -/
inductive Device.Entry.ReportedAs : Entry → Notification → Prop where
  | coil (unit : UnitId) (coil : Coil) :
      ReportedAs ⟨unit, .writeCoil coil, some (.coilWritten coil)⟩ (.coils unit [coil])
  | register (unit : UnitId) (register : Register) :
      ReportedAs ⟨unit, .writeRegister register, some (.registerWritten register)⟩
        (.registers unit [register])
  | coils (unit : UnitId) (coils : List Coil) :
      ReportedAs
        ⟨unit, .writeCoils coils,
          some (.coilsWritten (Request.range coils).1 (Request.range coils).2)⟩
        (.coils unit coils)
  | registers (unit : UnitId) (registers : List Register) :
      ReportedAs
        ⟨unit, .writeRegisters registers,
          some (.registersWritten (Request.range registers).1 (Request.range registers).2)⟩
        (.registers unit registers)

lemma Device.Entry.ReportedAs.isConfirmed {entry : Entry} {report : Notification}
    (h : entry.ReportedAs report) : entry.isConfirmed = true := by
  cases h <;> rfl

namespace Notification

/-- The coils of a unit that a report names. -/
def coilsOf (unit : UnitId) : Notification → List Coil
  | .coils other cells => if other = unit then cells else []
  | .registers _ _ => []

/-- The registers of a unit that a report names. -/
def registersOf (unit : UnitId) : Notification → List Register
  | .coils _ _ => []
  | .registers other cells => if other = unit then cells else []

end Notification

/-- **Cells written over a table**, one after the other. -/
def rewritten {α : Type} (table : UInt16 → α) (cells : List (Cell α)) : UInt16 → α :=
  cells.foldl (fun table cell => Image.update table cell.address cell.value) table

/-- **A log replayed** over a unit: its reports in order, and of each report the cells in order. -/
def Image.replay (unit : UnitId) (image : Image) (log : List Notification) : Image :=
  { image with
    coil := rewritten image.coil (log.flatMap (Notification.coilsOf unit))
    holdingRegister :=
      rewritten image.holdingRegister (log.flatMap (Notification.registersOf unit)) }

lemma Image.replay_append (unit : UnitId) (image : Image) (log more : List Notification) :
    image.replay unit (log ++ more) = (image.replay unit log).replay unit more := by
  simp only [replay, rewritten, List.flatMap_append, List.foldl_append]

lemma Image.replay_nil (unit : UnitId) : (fun image : Image => image.replay unit []) = id := rfl

/-! ## One request -/

namespace Store

variable {store : Store} {unit : UnitId}

/-- Coils that are confirmed are in the memory as the report has them. -/
lemma unit_confirmCoils (h : store.hasUnit unit = true) (coils : List Coil) (reply : Response)
    (other : UnitId) :
    (store.confirmCoils unit coils reply).store.unit other
      = (store.unit other).map (Image.replay other · [.coils unit coils]) := by
  rw [confirmCoils, setCoils_eq_foldl h]
  by_cases hother : other = unit
  · subst hother
    simp [adjust, Image.replay, rewritten, Notification.coilsOf, Notification.registersOf]
  · simp [adjust, hother, Image.replay, rewritten, Notification.coilsOf, Notification.registersOf,
      Ne.symm hother]

lemma unit_confirmRegisters (h : store.hasUnit unit = true) (registers : List Register)
    (reply : Response) (other : UnitId) :
    (store.confirmRegisters unit registers reply).store.unit other
      = (store.unit other).map (Image.replay other · [.registers unit registers]) := by
  rw [confirmRegisters, setRegisters_eq_foldl h]
  by_cases hother : other = unit
  · subst hother
    simp [adjust, Image.replay, rewritten, Notification.coilsOf, Notification.registersOf]
  · simp [adjust, hother, Image.replay, rewritten, Notification.coilsOf, Notification.registersOf,
      Ne.symm hother]

/-- **One request**: either it is confirmed and reported, or it is neither.  In both cases the
memory afterwards is the memory before with the reports written over it. -/
lemma handle_reported (store : Store) (unit : UnitId) (request : Request) :
    let handled := store.handle unit request
    let entry : Device.Entry := ⟨unit, request, handled.reply⟩
    (∀ other, handled.store.unit other
        = (store.unit other).map (Image.replay other · handled.writes)) ∧
      ((entry.isConfirmed = false ∧ handled.writes = []) ∨
        ∃ report, entry.ReportedAs report ∧ handled.writes = [report]) := by
  intro handled entry
  by_cases hnone : request.order? = none ∨ store.hasUnit unit = false
  · obtain ⟨hstore, hwrites, hunconfirmed⟩ := handle_of_unordered hnone
    refine ⟨fun other => ?_, .inl ⟨?_, hwrites⟩⟩
    · rw [hstore, hwrites, Image.replay_nil, Option.map_id, id]
    · cases hreply : handled.reply with
      | none => simp only [entry, Device.Entry.isConfirmed, hreply, Option.any_none]
      | some response =>
          simp only [entry, Device.Entry.isConfirmed, hreply, Option.any_some]
          exact hunconfirmed response hreply
  · obtain ⟨horder, hunit⟩ := not_or.mp hnone
    have hknown : store.hasUnit unit = true := by simpa using hunit
    simp only [handled, entry, handle, hknown]
    cases request with
    | writeCoil coil =>
        exact ⟨unit_confirmCoils hknown _ _, .inr ⟨_, .coil unit coil, rfl⟩⟩
    | writeRegister register =>
        exact ⟨unit_confirmRegisters hknown _ _, .inr ⟨_, .register unit register, rfl⟩⟩
    | writeCoils coils =>
        exact ⟨unit_confirmCoils hknown _ _, .inr ⟨_, .coils unit coils, rfl⟩⟩
    | writeRegisters registers =>
        exact ⟨unit_confirmRegisters hknown _ _, .inr ⟨_, .registers unit registers, rfl⟩⟩
    | _ => exact absurd rfl horder

end Store

/-! ## Any requests -/

namespace Device

/-- **The memory after requests** is the memory before with the reports written over it. -/
lemma unit_handleAll (requests : List (UnitId × Request)) (store : Store) (other : UnitId) :
    let history := handleAll ⟨store, true⟩ requests
    history.device.store.unit other
      = (store.unit other).map (Image.replay other · history.writes) := by
  induction requests generalizing store with
  | nil => simp only [handleAll, Image.replay_nil, Option.map_id, id]
  | cons first rest ih =>
      obtain ⟨unit, request⟩ := first
      have hstep := (store.handle_reported unit request).1 other
      have hlater := ih (store.handle unit request).store
      simp only [handleAll, handle, if_true] at hlater ⊢
      rw [hlater, hstep, Option.map_map]
      exact congrArg (Option.map · _) (funext fun image => (image.replay_append other _ _).symm)

/-- **Each confirmed write has its report**, in the order in which they were made. -/
lemma reported_handleAll (requests : List (UnitId × Request)) (store : Store) :
    let history := handleAll ⟨store, true⟩ requests
    List.Forall₂ Entry.ReportedAs (history.entries.filter Entry.isConfirmed) history.writes := by
  induction requests generalizing store with
  | nil => exact .nil
  | cons first rest ih =>
      obtain ⟨unit, request⟩ := first
      have hlater := ih (store.handle unit request).store
      simp only [handleAll, handle, if_true] at hlater ⊢
      rcases (store.handle_reported unit request).2 with
        ⟨hunconfirmed, hnone⟩ | ⟨report, hreported, hone⟩
      · rw [hnone, List.filter_cons_of_neg (by simp [hunconfirmed])]
        exact hlater
      · rw [hone, List.filter_cons_of_pos hreported.isConfirmed]
        exact .cons hreported hlater

/-- **A log that is complete**: as many reports as confirmed writes, one for each and in their
order, and a memory that has changed by what they say and by nothing else. -/
structure Logged (before : Store) (history : Device.History) : Prop where
  reported : List.Forall₂ Entry.ReportedAs (history.entries.filter Entry.isConfirmed) history.writes
  coils : ∀ unit, (history.device.store.unit unit).map Image.coil
    = (before.unit unit).map fun image =>
      rewritten image.coil (history.writes.flatMap (Notification.coilsOf unit))
  registers : ∀ unit, (history.device.store.unit unit).map Image.holdingRegister
    = (before.unit unit).map fun image =>
      rewritten image.holdingRegister (history.writes.flatMap (Notification.registersOf unit))
  discreteInputs : ∀ unit, (history.device.store.unit unit).map Image.discreteInput
    = (before.unit unit).map Image.discreteInput
  inputRegisters : ∀ unit, (history.device.store.unit unit).map Image.inputRegister
    = (before.unit unit).map Image.inputRegister
  units : ∀ unit, history.device.store.hasUnit unit = before.hasUnit unit

/-- **The reports of a device that is listened to are a complete log**, whatever it is asked: reads
and writes, requests that break the rules or are not served, of units that exist and of others. -/
theorem logged_of_requests (store : Store) (requests : List (UnitId × Request)) :
    Logged store (handleAll ⟨store, true⟩ requests) := by
  have hunit := unit_handleAll requests store
  refine ⟨reported_handleAll requests store, ?_, ?_, ?_, ?_, ?_⟩
  all_goals intro unit
  · rw [hunit unit, Option.map_map]
    rfl
  · rw [hunit unit, Option.map_map]
    rfl
  · rw [hunit unit, Option.map_map]
    rfl
  · rw [hunit unit, Option.map_map]
    rfl
  · rw [Store.hasUnit, hunit unit, Option.isSome_map]
    rfl

end Device

end Modbus
