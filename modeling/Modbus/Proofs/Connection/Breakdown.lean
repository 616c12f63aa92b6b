import Mathlib.Data.List.Induction
import Modbus.Proofs.Connection.Accounts
import Modbus.Proofs.Connection.Spans

/-!
# A worker that breaks down

With a limited clock the worker may come to a sum that does not fit, and then it is gone.  In a run
with such a clock (`runWithin`) every happening is still an amendment of the docket
(`amendment_within`): a breakdown lets go of the request in the worker's hands, whose call takes that
for the end of the connection.

What is different is why the worker has stopped: because it was told to, or because it has broken
down (`stopped_of_runWithin`).  As long as the connection is in range it does not break down
(`not_brokenDown_of_inRange`), and the clock might as well have no limit (`runWithin_eq_runOver`).
-/

namespace Modbus.Connection

variable {σ α : Type}

/-! ## Runs with a limited clock -/

/-- What happens to a connection with a clock that tells microseconds up to the horizon. -/
def happenWithin [Peer σ] (horizon : Nat) (connection : Connection σ α) :
    Happening α → Connection σ α
  | .act action => connection.stepWithin horizon action
  | .whim whim => connection.indulge whim

/-- **A run with a limited clock**, over any link. -/
def runWithin [Peer σ] (horizon : Nat) (connection : Connection σ α)
    (happenings : List (Happening α)) : Connection σ α :=
  happenings.foldl (happenWithin horizon) connection

lemma runWithin_concat [Peer σ] (horizon : Nat) (connection : Connection σ α)
    (happenings : List (Happening α)) (happening : Happening α) :
    connection.runWithin horizon (happenings ++ [happening])
      = (connection.runWithin horizon happenings).happenWithin horizon happening := by
  rw [runWithin, List.foldl_append]
  rfl

/-- The worker breaks down, or the limit of the clock does not matter. -/
lemma happenWithin_cases [Peer σ] (horizon : Nat) (connection : Connection σ α)
    (happening : Happening α) :
    (∃ item, happening = .act .worker ∧ Worker.overflow? horizon connection = some item ∧
        connection.happenWithin horizon happening = Worker.breakDown connection item) ∨
      connection.happenWithin horizon happening = connection.happen happening := by
  cases happening with
  | whim whim => exact .inr rfl
  | act action =>
      cases action with
      | worker =>
          cases hoverflow : Worker.overflow? horizon connection with
          | none =>
              refine .inr ?_
              simp only [happenWithin, stepWithin, hoverflow]
              rfl
          | some item =>
              refine .inl ⟨item, rfl, rfl, ?_⟩
              simp only [happenWithin, stepWithin, hoverflow]
      | _ => exact .inr rfl

/-! ## Breaking down -/

/-- The worker breaks down over the request in its hands. -/
lemma item?_of_overflow? {horizon : Nat} {connection : Connection σ α} {item : Queued}
    (h : Worker.overflow? horizon connection = some item) :
    (phase connection.worker).item? = some item := by
  simp only [Worker.overflow?] at h
  split at h
  · rename_i hworker
    split_ifs at h
    rw [hworker]
    exact h
  · rename_i hworker
    split_ifs at h
    rw [hworker]
    exact h
  · cases h

lemma amendment_of_breakDown {connection : Connection σ α} {item : Queued}
    (hitem : (phase connection.worker).item? = some item) :
    Amendment connection.docket (Worker.breakDown connection item).docket := by
  have hdocket : (Worker.breakDown connection item).docket = { connection.docket with
      phase := .idle
      stopped := true
      calls := connection.docket.calls.modify item.call
        (Call.handed item.ticket (.error .disposed)) } := by
    rw [Worker.breakDown, docket_moveTo, docket_deliver]
    rfl
  rw [hdocket]
  exact .breakDown hitem

/-- **One happening is one amendment of the docket**, with a limited clock as well. -/
theorem amendment_within [Peer σ] (horizon : Nat) (connection : Connection σ α)
    (happening : Happening α) :
    Amendment connection.docket (connection.happenWithin horizon happening).docket := by
  rcases happenWithin_cases horizon connection happening with ⟨item, -, hoverflow, hafter⟩ | hafter
  · rw [hafter]
    exact amendment_of_breakDown (item?_of_overflow? hoverflow)
  · rw [hafter]
    exact amendment_of_happening connection happening

/-- **The worker broke down** in a run: at one of its moves a sum did not fit. -/
def BrokenDown [Peer σ] (horizon : Nat) (initial : Connection σ α)
    (happenings : List (Happening α)) : Prop :=
  ∃ before, before ++ [.act .worker] <+: happenings ∧
    (Worker.overflow? horizon (initial.runWithin horizon before)).isSome = true

/-- **Why the worker has stopped**: it was told to, or it broke down. -/
theorem stopped_of_runWithin [Peer σ] (horizon : Nat) {initial : Connection σ α}
    (hinitial : initial.worker ≠ .stopped) (happenings : List (Happening α))
    (hstopped : (initial.runWithin horizon happenings).worker = .stopped) :
    (initial.runWithin horizon happenings).shutdown = true ∨
      BrokenDown horizon initial happenings := by
  induction happenings using List.reverseRecOn with
  | nil => exact absurd hstopped hinitial
  | append_singleton happenings happening ih =>
      have hkept := (amendment_within horizon (initial.runWithin horizon happenings)
        happening).onward.shutdown
      rw [runWithin_concat] at hstopped ⊢
      rcases happenWithin_cases horizon (initial.runWithin horizon happenings) happening with
        ⟨item, rfl, hoverflow, hafter⟩ | hafter
      · exact .inr ⟨happenings, List.prefix_refl _, by rw [hoverflow]; rfl⟩
      · rw [hafter] at hstopped
        rcases stops_of_happening _ happening hstopped with hbefore | htold
        · rcases ih hbefore with htold | ⟨before, hprefix, hoverflow⟩
          · exact .inl (hkept htold)
          · exact .inr ⟨before, hprefix.trans (List.prefix_append _ _), hoverflow⟩
        · exact .inl (hkept htold)

/-! ## In range -/

/-- **In range the limit of the clock does not matter.** -/
theorem runWithin_eq_runOver [Peer σ] {horizon : Nat} {connection : Connection σ α}
    (h : InRange connection) (happenings : List (Happening α))
    (htimely : ∀ before happening, before ++ [happening] <+: happenings →
      Timely (connection.runOver before) happening)
    (hhorizon : ((connection.runOver happenings).now + UInt64.size) * 1000 ≤ horizon) :
    connection.runWithin horizon happenings = connection.runOver happenings := by
  induction happenings generalizing connection with
  | nil => rfl
  | cons happening happenings ih =>
      have hlater : connection.runOver (happening :: happenings)
          = (connection.happen happening).runOver happenings := rfl
      rw [hlater] at hhorizon ⊢
      have hnow : connection.now ≤ ((connection.happen happening).runOver happenings).now :=
        now_le_of_run (happening :: happenings) connection
      have hfirst : connection.happenWithin horizon happening = connection.happen happening := by
        have hfits : (connection.now + UInt64.size) * 1000 ≤ horizon :=
          Nat.le_trans (Nat.mul_le_mul_right 1000 (Nat.add_le_add_right hnow _)) hhorizon
        have hnone := overflow?_of_inRange h hfits
        rcases happenWithin_cases horizon connection happening with ⟨item, -, hsome, -⟩ | hafter
        · rw [hnone] at hsome
          cases hsome
        · exact hafter
      rw [runWithin, List.foldl_cons, hfirst]
      exact ih (h.of_happening (htimely [] happening (List.prefix_append _ _)))
        (fun before later hprefix => htimely (happening :: before) later
          (List.cons_prefix_cons.mpr ⟨rfl, hprefix⟩)) hhorizon

/-- **In range the worker does not break down.** -/
theorem not_brokenDown_of_inRange [Peer σ] {horizon : Nat} {initial : Connection σ α}
    (h : InRange initial) (happenings : List (Happening α))
    (htimely : ∀ before happening, before ++ [happening] <+: happenings →
      Timely (initial.runOver before) happening)
    (hhorizon : ((initial.runOver happenings).now + UInt64.size) * 1000 ≤ horizon) :
    ¬ BrokenDown horizon initial happenings := by
  rintro ⟨before, hprefix, hoverflow⟩
  obtain ⟨later, rfl⟩ := (List.prefix_append before [.act .worker]).trans hprefix
  have hearlier (earlier : List (Happening α)) (happening : Happening α)
      (hin : earlier ++ [happening] <+: before) : Timely (initial.runOver earlier) happening :=
    htimely earlier happening (hin.trans (List.prefix_append _ _))
  have hnow : (initial.runOver before).now ≤ (initial.runOver (before ++ later)).now := by
    rw [runOver, runOver, List.foldl_append]
    exact now_le_of_run later _
  have hfits : ((initial.runOver before).now + UInt64.size) * 1000 ≤ horizon :=
    Nat.le_trans (Nat.mul_le_mul_right 1000 (Nat.add_le_add_right hnow _)) hhorizon
  rw [runWithin_eq_runOver h before hearlier hfits,
    overflow?_of_inRange (InRange.of_run before initial h hearlier) hfits] at hoverflow
  cases hoverflow

end Modbus.Connection
