import Mathlib.Tactic.Common
import Modbus.Connection.State

/-!
# Calls that wait

A call that has handed over a request waits for the reply under a ticket.  `WaitsFor` says which call
waits for which ticket, and `Later` what becomes of calls with time: whoever waits has waited before,
and no mark of a caller is taken back.  Whatever is done to a call but handing over its request leads
to a later list of calls, and for each such change there is a lemma here.
-/

namespace Modbus

namespace Call

variable {α : Type}

/-- The ticket that a call waits for. -/
def ticket? (call : Call α) : Option Nat :=
  match call.progress with
  | .waiting ticket _ _ => some ticket
  | _ => none

lemma awaits_iff {call : Call α} {ticket : Nat} :
    call.awaits ticket = true ↔ call.ticket? = some ticket := by
  rw [awaits, ticket?]
  cases call.progress <;> simp

end Call

namespace Connection

variable {α : Type}

/-- The call `id` waits for the reply to a ticket. -/
def WaitsFor (calls : List (Call α)) (id ticket : Nat) : Prop :=
  ∃ call, calls[id]? = some call ∧ call.awaits ticket = true

lemma waitsFor_iff {calls : List (Call α)} {id ticket : Nat} :
    WaitsFor calls id ticket ↔ ∃ call, calls[id]? = some call ∧ call.ticket? = some ticket := by
  simp only [WaitsFor, Call.awaits_iff]

/-- **Calls some time later**: none waits that did not wait before, and no mark is taken back. -/
structure Later (before after : List (Call α)) : Prop where
  waits : ∀ id ticket, WaitsFor after id ticket → WaitsFor before id ticket
  cancelled : ∀ (id : Nat) (call : Call α), before[id]? = some call → call.cancelled = true →
    ∃ call', after[id]? = some call' ∧ call'.cancelled = true

namespace Later

variable {before after : List (Call α)}

lemma refl (calls : List (Call α)) : Later calls calls :=
  ⟨fun _ _ h => h, fun _ call hcall hcancelled => ⟨call, hcall, hcancelled⟩⟩

lemma trans {last : List (Call α)} (h : Later before after) (h' : Later after last) :
    Later before last where
  waits id ticket hwaits := h.waits id ticket (h'.waits id ticket hwaits)
  cancelled id call hcall hcancelled := by
    obtain ⟨middle, hmiddle, hmarked⟩ := h.cancelled id call hcall hcancelled
    exact h'.cancelled id middle hmiddle hmarked

/-- A new call does not wait yet. -/
lemma start (calls : List (Call α)) (cancelled : Bool) (operation : Operation α) :
    Later calls (calls ++ [⟨cancelled, .running operation⟩]) where
  waits := by
    rintro id ticket ⟨call, hcall, hawaits⟩
    rcases Nat.lt_or_ge id calls.length with hid | hid
    · rw [List.getElem?_append_left hid] at hcall
      exact ⟨call, hcall, hawaits⟩
    · rw [List.getElem?_append_right hid, List.getElem?_singleton] at hcall
      split_ifs at hcall
      rw [Option.some.injEq] at hcall
      simp [← hcall, Call.awaits] at hawaits
  cancelled := by
    intro id call hcall hcancelled
    refine ⟨call, ?_, hcancelled⟩
    rw [List.getElem?_append_left (List.getElem?_eq_some_iff.mp hcall).1]
    exact hcall

end Later

/-- What a changed call waits for. -/
lemma waitsFor_modify {calls : List (Call α)} {id other ticket : Nat} {change : Call α → Call α}
    (h : WaitsFor (calls.modify id change) other ticket) :
    (other ≠ id ∧ WaitsFor calls other ticket) ∨
      (other = id ∧ ∃ call, calls[id]? = some call ∧ (change call).awaits ticket = true) := by
  obtain ⟨call, hcall, hawaits⟩ := h
  rw [List.getElem?_modify] at hcall
  split_ifs at hcall with hid
  · obtain ⟨before, hbefore, rfl⟩ := Option.map_eq_some_iff.mp hcall
    exact .inr ⟨hid.symm, before, hid ▸ hbefore, hawaits⟩
  · exact .inl ⟨fun h => hid h.symm, call, by simpa using hcall, hawaits⟩

/-- **A call that changes** and does not come to wait. -/
lemma Later.modify {calls : List (Call α)} {id : Nat} {change : Call α → Call α}
    (hwaits : ∀ (call : Call α) ticket, (change call).awaits ticket = true →
      call.awaits ticket = true)
    (hcancelled : ∀ call : Call α, call.cancelled = true → (change call).cancelled = true) :
    Later calls (calls.modify id change) where
  waits := by
    intro other ticket h
    rcases waitsFor_modify h with ⟨-, hother⟩ | ⟨rfl, call, hcall, hawaits⟩
    · exact hother
    · exact ⟨call, hcall, hwaits call ticket hawaits⟩
  cancelled := by
    intro other call hcall hmarked
    rw [List.getElem?_modify, hcall]
    split_ifs
    · exact ⟨change call, rfl, hcancelled call hmarked⟩
    · exact ⟨call, rfl, hmarked⟩

/-- A call that stops waiting. -/
lemma Later.stop (calls : List (Call α)) (id : Nat) (progress : Progress α)
    (hprogress : ∀ ticket reply next, progress ≠ .waiting ticket reply next) :
    Later calls (calls.modify id fun call => { call with progress }) := by
  refine Later.modify (fun call ticket hawaits => ?_) fun _ h => h
  cases progress with
  | waiting own reply next => exact absurd rfl (hprogress own reply next)
  | _ => simp [Call.awaits] at hawaits

lemma getElem?_set_some {calls : List (Call α)} {id other : Nat} {call after found : Call α}
    (hcall : calls[id]? = some call) (hfound : (calls.set id after)[other]? = some found) :
    (other = id ∧ found = after) ∨ (other ≠ id ∧ calls[other]? = some found) := by
  by_cases hsame : other = id
  · subst hsame
    rw [List.getElem?_set_self (List.getElem?_eq_some_iff.mp hcall).1] at hfound
    exact .inl ⟨rfl, (Option.some.inj hfound).symm⟩
  · rw [List.getElem?_set_ne (Ne.symm hsame)] at hfound
    exact .inr ⟨hsame, hfound⟩

/-- A call replaced by one that waits for nothing else, and keeps its mark. -/
lemma Later.set {calls : List (Call α)} {id : Nat} {call after : Call α}
    (hcall : calls[id]? = some call)
    (hticket : ∀ ticket, after.ticket? = some ticket → call.ticket? = some ticket)
    (hcancelled : call.cancelled = true → after.cancelled = true) :
    Later calls (calls.set id after) where
  waits other ticket h := by
    obtain ⟨found, hfound, hwaits⟩ := waitsFor_iff.mp h
    rcases getElem?_set_some hcall hfound with ⟨rfl, rfl⟩ | ⟨-, hbefore⟩
    · exact waitsFor_iff.mpr ⟨call, hcall, hticket ticket hwaits⟩
    · exact waitsFor_iff.mpr ⟨found, hbefore, hwaits⟩
  cancelled other found hfound hmarked := by
    by_cases hsame : id = other
    · subst hsame
      obtain rfl : call = found := Option.some.inj (hcall.symm.trans hfound)
      exact ⟨after, List.getElem?_set_self (List.getElem?_eq_some_iff.mp hcall).1,
        hcancelled hmarked⟩
    · exact ⟨found, (List.getElem?_set_ne hsame).trans hfound, hmarked⟩

end Connection

end Modbus
