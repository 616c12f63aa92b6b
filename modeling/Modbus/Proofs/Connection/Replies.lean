import Modbus.Proofs.Connection.Moves

/-!
# Where replies come from

The bytes of a reply pass from the worker to the call that waits for them and are noted twice on the
way.  `Replied view ticket bytes` says that they are at one of these places.  There is one door
only, the worker handing over the result of an exchange (`Move.replied`); whatever is proved of
results there holds of every reply that a call gets.
-/

namespace Modbus.Connection

variable {σ α : Type}

/-- **A reply on its way to a call**, or arrived. -/
inductive Replied (view : View σ α) (ticket : Nat) (bytes : Bytes) : Prop where
  | delivered (h : Occurrence.delivered ticket (.ok bytes) ∈ view.ledger)
  | returned (h : Occurrence.returned ticket (.ok bytes) ∈ view.ledger)
  | waiting {next : Result Bytes → Operation α}
      (h : Progress.waiting ticket (some (.ok bytes)) next ∈ view.calls)

/-- A call that has a reply after a delivery had it before, or got it. -/
lemma mem_modify_delivered {calls : List (Progress α)} {id ticket own : Nat}
    {result reply : Result Bytes} {next : Result Bytes → Operation α}
    (h : Progress.waiting own (some reply) next ∈ calls.modify id (delivered ticket result)) :
    Progress.waiting own (some reply) next ∈ calls ∨ (own = ticket ∧ reply = result) := by
  obtain ⟨index, hindex⟩ := List.mem_iff_getElem?.mp h
  rw [List.getElem?_modify] at hindex
  split_ifs at hindex with hid
  · obtain ⟨before, hbefore, hchange⟩ := Option.map_eq_some_iff.mp hindex
    unfold delivered at hchange
    split at hchange
    · split_ifs at hchange with hticket
      · simp only [Progress.waiting.injEq, Option.some.injEq] at hchange
        obtain ⟨rfl, rfl, -⟩ := hchange
        exact .inr ⟨hticket, rfl⟩
      · simp at hchange
    · exact .inl (hchange ▸ List.mem_of_getElem? hbefore)
  · rw [id_map'] at hindex
    exact .inl (List.mem_of_getElem? hindex)

lemma mem_foldl_modify_delivered {error : Error} {own : Nat} {bytes : Bytes}
    {next : Result Bytes → Operation α} : ∀ (items : List Queued) (calls : List (Progress α)),
      Progress.waiting own (some (.ok bytes)) next ∈ items.foldl (fun calls item =>
        calls.modify item.call (delivered item.ticket (.error error))) calls →
      Progress.waiting own (some (.ok bytes)) next ∈ calls
  | [], _, h => h
  | item :: items, calls, h => by
      rcases mem_modify_delivered (mem_foldl_modify_delivered items _ h) with hbefore | ⟨-, hresult⟩
      · exact hbefore
      · exact absurd hresult (by simp)

/-- **The only source of replies** is the worker that hands over the result of an exchange. -/
lemma Move.replied [Peer σ] {v v' : View σ α} {label : Label α} (hmove : Move v label v')
    {ticket : Nat} {bytes : Bytes} (h : Replied v' ticket bytes) :
    Replied v ticket bytes ∨
      ∃ item, v.phase = .delivering item (.ok bytes) ∧ item.ticket = ticket := by
  have hsame {calls : List (Progress α)} {ledger : List Occurrence}
      (hcalls : ∀ next : Result Bytes → Operation α,
        Progress.waiting ticket (some (.ok bytes)) next ∈ calls →
          Progress.waiting ticket (some (.ok bytes)) next ∈ v.calls)
      (hdelivered : Occurrence.delivered ticket (.ok bytes) ∈ ledger →
        Occurrence.delivered ticket (.ok bytes) ∈ v.ledger)
      (hreturned : Occurrence.returned ticket (.ok bytes) ∈ ledger →
        Replied v ticket bytes)
      (hv' : v'.calls = calls ∧ v'.ledger = ledger) : Replied v ticket bytes := by
    obtain ⟨rfl, rfl⟩ := hv'
    cases h with
    | delivered hin => exact .delivered (hdelivered hin)
    | returned hin => exact hreturned hin
    | waiting hin => exact .waiting (hcalls _ hin)
  have hkept (hcalls : v'.calls = v.calls) (hledger : v'.ledger = v.ledger) :
      Replied v ticket bytes :=
    hsame (fun _ hin => hin) (fun hin => hin) .returned ⟨hcalls, hledger⟩
  have hset {id : Nat} {progress : Progress α}
      (hprogress : ∀ next : Result Bytes → Operation α,
        progress ≠ .waiting ticket (some (.ok bytes)) next)
      (next : Result Bytes → Operation α)
      (hin : Progress.waiting ticket (some (.ok bytes)) next ∈ v.calls.set id progress) :
      Progress.waiting ticket (some (.ok bytes)) next ∈ v.calls := by
    rcases List.mem_or_eq_of_mem_set hin with hbefore | hnew
    · exact hbefore
    · exact absurd hnew.symm (hprogress next)
  cases hmove with
  | deliver hphase =>
      cases h with
      | delivered hin =>
          rcases List.mem_append.mp hin with hbefore | hnew
          · exact .inl (.delivered hbefore)
          · simp only [List.mem_singleton, Occurrence.delivered.injEq] at hnew
            obtain ⟨rfl, rfl⟩ := hnew
            exact .inr ⟨_, hphase, rfl⟩
      | returned hin =>
          rcases List.mem_append.mp hin with hbefore | hnew
          · exact .inl (.returned hbefore)
          · simp at hnew
      | waiting hin =>
          rcases mem_modify_delivered hin with hbefore | ⟨hticket, hresult⟩
          · exact .inl (.waiting hbefore)
          · exact .inr ⟨_, hresult ▸ hphase, hticket.symm⟩
  | refuseQueued =>
      exact .inl (hsame (fun _ => mem_foldl_modify_delivered _ _) (fun hin => hin) .returned
        ⟨rfl, rfl⟩)
  | start operation =>
      refine .inl (hsame (fun _ hin => ?_) (fun hin => hin) .returned ⟨rfl, rfl⟩)
      rcases List.mem_append.mp hin with hbefore | hnew
      · exact hbefore
      · simp at hnew
  | finish _ => exact .inl (hsame (hset (by simp)) (fun hin => hin) .returned ⟨rfl, rfl⟩)
  | frame _ _ => exact .inl (hsame (hset (by simp)) (fun hin => hin) .returned ⟨rfl, rfl⟩)
  | refuse _ _ => exact .inl (hsame (hset (by simp)) (fun hin => hin) .returned ⟨rfl, rfl⟩)
  | drop _ => exact .inl (hsame (hset (by simp)) (fun hin => hin) .returned ⟨rfl, rfl⟩)
  | accept _ =>
      exact .inl (hsame (hset (by simp)) (fun hin => by simpa using hin)
        (fun hin => .returned (by simpa using hin)) ⟨rfl, rfl⟩)
  | leave hcall hresult _ =>
      refine .inl (hsame (hset (by simp)) (fun hin => by simpa using hin) (fun hin => ?_)
        ⟨rfl, rfl⟩)
      rcases List.mem_append.mp hin with hbefore | hnew
      · exact .returned hbefore
      · simp only [List.mem_singleton, Occurrence.returned.injEq] at hnew
        obtain ⟨rfl, rfl⟩ := hnew
        rcases hresult with hreply | ⟨error, herror⟩
        · exact .waiting (List.mem_of_getElem? (hreply ▸ hcall))
        · exact absurd herror (by simp)
  | send _ _ =>
      exact .inl (hsame (fun _ hin => hin) (fun hin => by simpa using hin)
        (fun hin => .returned (by simpa using hin)) ⟨rfl, rfl⟩)
  | rest => exact .inl h
  | take _ _ => exact .inl (hkept rfl rfl)
  | withdraw _ => exact .inl (hkept rfl rfl)
  | attempt _ _ _ => exact .inl (hkept rfl rfl)
  | fail _ _ _ => exact .inl (hkept rfl rfl)
  | read _ _ _ _ _ => exact .inl (hkept rfl rfl)
  | conclude _ => exact .inl (hkept rfl rfl)
  | abort _ => exact .inl (hkept rfl rfl)
  | unlink => exact .inl (hkept rfl rfl)

end Modbus.Connection
