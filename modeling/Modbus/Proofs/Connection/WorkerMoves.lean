import Modbus.Proofs.Connection.View

/-!
# The moves of the worker

One move of the worker is one move of the view (`Worker.move_of_step`).  The lemmas before it follow
the parts of the worker: the attempts to open the link, the wait that an interruption can end, the
queue, sending, reading and what comes after an exchange.
-/

namespace Modbus.Connection

variable {σ α : Type}

namespace Worker

variable {connection : Connection σ α} {item : Queued}

lemma view_attemptFailed (connection : Connection σ α) (item : Queued) (attempts : Attempts)
    (fault : TransportFault) :
    (attemptFailed connection item attempts fault).view
        = { connection.view with phase := .holding item } ∨
      (attemptFailed connection item attempts fault).view
        = { connection.view with phase := .ended item (.error (.transport fault)) } := by
  unfold attemptFailed
  split
  · exact .inl rfl
  · exact .inr rfl

/-- The end of an attempt opens the link, or leaves it as it is. -/
lemma view_attemptEnded (connection : Connection σ α) (item : Queued) (attempts : Attempts) :
    (attemptEnded connection item attempts).view
        = { connection.view with connected := true, phase := .holding item } ∨
      (attemptEnded connection item attempts).view
        = { connection.view with phase := .holding item } ∨
      ∃ fault, (attemptEnded connection item attempts).view
        = { connection.view with phase := .ended item (.error (.transport fault)) } := by
  by_cases hrefusals : connection.wire.refusals = 0
  · have hresult : connection.wire.open.result = .ok () := by simp [Wire.open, hrefusals]
    have hview : (connection.perform connection.wire.open).view
        = { connection.view with connected := true } := by
      rw [view_perform]
      simp [Wire.open, hrefusals, view, isDealing]
    simp only [attemptEnded, hresult]
    exact .inl (congrArg (fun view : View σ α => { view with phase := .holding item }) hview)
  · have hresult : connection.wire.open.result
        = .error (.connectionFailed "Simulated connection failure") := by
      simp [Wire.open, hrefusals]
    have hview : (connection.perform connection.wire.open).view = connection.view := by
      rw [view_perform]
      simp [Wire.open, hrefusals, view, isDealing]
    simp only [attemptEnded, hresult]
    rcases view_attemptFailed (connection.perform connection.wire.open) item attempts
      (.connectionFailed "Simulated connection failure") with hfailed | hfailed
    · exact .inr (.inl (by rw [hfailed, hview]))
    · exact .inr (.inr ⟨_, by rw [hfailed, hview]⟩)

lemma closes_of_interruption {error : Error} (h : connection.interruption? item = some error) :
    (error.needsReconnect || error == Error.disposed) = true := by
  obtain ⟨reason, -, rfl⟩ := Option.map_eq_some_iff.mp h
  cases reason <;> rfl

/-- Going on after a wait with the link held. -/
lemma move_of_resume [Peer σ] {continue_ : Option (Connection σ α)} {c' : Connection σ α}
    (htidy : connection.view.Tidy)
    (hphase : connection.view.phase = .holding item ∨
      ∃ received, connection.view.phase = .reading item received)
    (hcontinue : ∀ after, continue_ = some after → Move connection.view .silent after.view)
    (hstep : resumeExchange connection item continue_ = some c') :
    Move connection.view .silent c'.view := by
  unfold resumeExchange at hstep
  split at hstep
  · rename_i error hfired
    rw [Option.some.injEq] at hstep
    rw [← hstep, view_moveTo]
    exact .fail hphase (closes_of_interruption hfired) htidy.closed
  · exact hcontinue c' hstep

/-- An attempt that came to its end. -/
lemma move_of_attemptEnded [Peer σ] {attempts : Attempts} (htidy : connection.view.Tidy)
    (hphase : connection.view.phase = .holding item) :
    Move connection.view .silent (attemptEnded connection item attempts).view := by
  rcases view_attemptEnded connection item attempts with hview | hview | ⟨fault, hview⟩
  · rw [hview, ← hphase]
    exact .attempt hphase (.inl rfl) (by simp)
  · rw [hview, ← hphase]
    exact .rest
  · rw [hview]
    exact .fail (.inl hphase) rfl htidy.closed

lemma move_of_attemptFailed [Peer σ] {attempts : Attempts} {fault : TransportFault}
    (htidy : connection.view.Tidy) (hphase : connection.view.phase = .holding item) :
    Move connection.view .silent (attemptFailed connection item attempts fault).view := by
  rcases view_attemptFailed connection item attempts fault with hview | hview
  · rw [hview, ← hphase]
    exact .rest
  · rw [hview]
    exact .fail (.inl hphase) rfl htidy.closed

/-- An attempt begins with closing the link. -/
lemma move_of_beginAttempt [Peer σ] {attempts : Attempts} (htidy : connection.view.Tidy)
    (hphase : connection.view.phase = .holding item) :
    Move connection.view .silent (beginAttempt connection item attempts).view := by
  have hclosed : ((connection.perform connection.wire.close).note .attempted).view
      = { connection.view with connected := false, arriving := [] } := by
    rw [view_note, view_close connection htidy]
    simp [isDealing]
  simp only [beginAttempt]
  generalize (connection.perform connection.wire.close).note .attempted = closed at hclosed ⊢
  split_ifs with hdelay
  · rcases view_attemptEnded closed item attempts with hview | hview | ⟨fault, hview⟩
    · rw [hview, hclosed, ← hphase]
      exact .attempt hphase (.inr rfl) (by simp)
    · rw [hview, hclosed, ← hphase]
      exact .attempt hphase (.inr rfl) (by simp)
    · rw [hview, hclosed]
      exact .fail (.inl hphase) rfl (by simp)
  · rw [view_moveTo, hclosed]
    simp only [phase]
    rw [← hphase]
    exact .attempt hphase (.inr rfl) (by simp)

lemma move_of_fetch [Peer σ] {c' : Connection σ α} (hphase : connection.view.phase = .idle)
    (hstep : fetch? connection = some c') : Move connection.view .silent c'.view := by
  have hrest (later : Connection σ α) (hlater : later.view = { connection.view with phase := .idle }) :
      Move connection.view .silent later.view := by
    rw [hlater, ← hphase]
    exact .rest
  unfold fetch? at hstep
  split_ifs at hstep with hshutdown hwaiting
  · rw [Option.some.injEq] at hstep
    exact hrest c' (hstep ▸ rfl)
  · cases hitems : connection.queue.items with
    | nil =>
        have hpoll : connection.queue.poll
            = (none, { connection.queue with signal := ⟨false, .waiting⟩ }) := by
          simp [Queue.poll, hitems]
        simp only [hpoll, Option.some.injEq] at hstep
        subst hstep
        exact .rest
    | cons item rest =>
        have hpoll : connection.queue.poll = (some item, { connection.queue with
            items := rest, signal := connection.queue.signal.resume }) := by
          simp [Queue.poll, hitems]
        simp only [hpoll, Option.some.injEq] at hstep
        subst hstep
        exact .take hphase hitems

lemma move_of_send [Peer σ] (htidy : connection.view.Tidy)
    (hworker : connection.worker = .sending item) :
    Move connection.view (connection.label .worker) (send connection item).view := by
  have hphase : connection.view.phase = .holding item := by simp [view, hworker, phase]
  cases hopen : connection.wire.connected with
  | true =>
      have hview : (connection.perform (connection.wire.send item.request)).view
          = { connection.view with
              peer := (Peer.answer connection.view.peer item.request).2
              arriving := connection.view.arriving
                ++ (Peer.answer connection.view.peer item.request).1
              ledger := connection.view.ledger ++ [.wire (.sent item.request)] } := by
        rw [view_perform]
        simp [Wire.send, hopen, view, isDealing]
      have hresult : (connection.wire.send item.request).result = .ok item.request.length := by
        simp [Wire.send, hopen]
      simp only [label, hworker, hopen, if_true, send, hresult]
      rw [view_moveTo, hview]
      exact .send hphase hopen
  | false =>
      have hview : (connection.perform (connection.wire.send item.request)).view
          = connection.view := by
        rw [view_perform]
        simp [Wire.send, hopen, view]
      have hresult : (connection.wire.send item.request).result = .error .notConnected := by
        simp [Wire.send, hopen]
      simp only [label, hworker, hopen, Bool.false_eq_true, if_false, send, hresult]
      rw [view_moveTo, hview]
      exact .fail (.inl hphase) rfl htidy.closed

/-- The bytes of a chunk that one read takes, and what it leaves. -/
lemma take_append_left (size : Nat) (chunk : Bytes) (rest : List Bytes) :
    chunk.take size ++ (if size < chunk.length then chunk.drop size :: rest else rest).flatten
      = (chunk :: rest).flatten := by
  split_ifs with hlong
  · rw [List.flatten_cons, List.flatten_cons, ← List.append_assoc, List.take_append_drop]
  · rw [List.take_of_length_le (by omega), List.flatten_cons]

lemma move_of_receive [Peer σ] {received : Bytes} (htidy : connection.view.Tidy)
    (hworker : connection.worker = .receiving item received) :
    Move connection.view .silent (receive connection item received).view := by
  have hphase : connection.view.phase = .reading item received := by simp [view, hworker, phase]
  cases hopen : connection.wire.connected with
  | false =>
      have hview : (connection.perform (connection.wire.receive Limit.readBuffer)).view
          = connection.view := by
        rw [view_perform]
        simp [Wire.receive, hopen, view]
      have hresult : (connection.wire.receive Limit.readBuffer).result = .error .notConnected := by
        simp [Wire.receive, hopen]
      simp only [receive, hresult]
      rw [view_moveTo, hview]
      exact .fail (.inr ⟨received, hphase⟩) rfl htidy.closed
  | true =>
      cases harriving : connection.wire.arriving with
      | nil =>
          have hview : (connection.perform (connection.wire.receive Limit.readBuffer)).view
              = connection.view := by
            rw [view_perform]
            simp [Wire.receive, hopen, view, harriving]
          have hresult : (connection.wire.receive Limit.readBuffer).result = .ok none := by
            simp [Wire.receive, hopen, harriving]
          simp only [receive, hresult]
          rw [view_moveTo, hview]
          simp only [phase]
          rw [← hphase]
          exact .rest
      | cons chunk rest =>
          have hview : (connection.perform (connection.wire.receive Limit.readBuffer)).view
              = { connection.view with
                  arriving := if Limit.readBuffer < chunk.length
                    then chunk.drop Limit.readBuffer :: rest else rest } := by
            rw [view_perform]
            simp [Wire.receive, hopen, view, harriving, isDealing]
          have hresult : (connection.wire.receive Limit.readBuffer).result
              = .ok (some (chunk.take Limit.readBuffer)) := by
            simp [Wire.receive, hopen, harriving]
          have hall := take_append_left Limit.readBuffer chunk rest
          have hlater : (∀ other ∈ connection.view.arriving, other ≠ []) →
              ∀ other ∈ (if Limit.readBuffer < chunk.length
                then chunk.drop Limit.readBuffer :: rest else rest), other ≠ [] := by
            intro hsome other hother
            simp only [view, harriving, List.mem_cons, forall_eq_or_imp] at hsome
            split_ifs at hother with hlong
            · rcases List.mem_cons.mp hother with rfl | hrest
              · simpa using hlong
              · exact hsome.2 other hrest
            · exact hsome.2 other hother
          generalize (if Limit.readBuffer < chunk.length
            then chunk.drop Limit.readBuffer :: rest else rest) = later at hview hall hlater
          simp only [receive, hresult]
          cases htaken : chunk.take Limit.readBuffer with
          | nil =>
              simp only
              rw [view_moveTo, hview]
              exact .fail (.inr ⟨received, hphase⟩) rfl (fun hshut => by simp [view, hopen] at hshut)
          | cons first taken =>
              rw [htaken] at hall
              have hmove := Move.read hphase hopen (List.cons_ne_nil first taken)
                (by rw [hall]; simp only [view, harriving]) hlater
              by_cases hcomplete : item.complete (received ++ first :: taken) = true
              · simp only [hcomplete, if_true] at hmove ⊢
                rw [view_moveTo, hview]
                exact hmove
              · simp only [hcomplete, Bool.false_eq_true, if_false] at hmove ⊢
                rw [view_moveTo, hview]
                exact hmove

lemma move_of_conclude [Peer σ] {result : Result Bytes} (htidy : connection.view.Tidy)
    (hphase : connection.view.phase = .ended item result) :
    Move connection.view .silent (conclude connection item result).view := by
  cases result with
  | ok bytes => exact .conclude hphase
  | error error =>
      have hcloses := htidy.failed item error hphase
      have hview : (conclude connection item (.error error)).view
          = { connection.closeLink.view with phase := .delivering item (.error error) } := by
        simp only [conclude, hcloses, if_true]
        rfl
      rw [hview, view_closeLink connection htidy]
      exact .abort hphase

lemma move_of_deliver [Peer σ] {result : Result Bytes} {stage : Stage}
    (hphase : connection.view.phase = .delivering item result) (hstage : phase stage = .idle) :
    Move connection.view .silent
      (moveTo ((connection.deliver item result).note (.delivered item.ticket result)) stage).view := by
  rw [view_moveTo, view_note, view_deliver, hstage]
  exact .deliver hphase

/-- A stage of the same phase. -/
lemma move_of_moveTo [Peer σ] {stage : Stage} (hphase : connection.view.phase = phase stage) :
    Move connection.view .silent (moveTo connection stage).view := by
  rw [view_moveTo, ← hphase]
  exact .rest

/-- **A move of the worker** is a move of the view. -/
lemma move_of_step [Peer σ] {c' : Connection σ α} (htidy : connection.view.Tidy)
    (hstep : step? connection = some c') :
    Move connection.view (connection.label .worker) c'.view := by
  have hphase (stage : Stage) (hworker : connection.worker = stage) :
      connection.view.phase = phase stage := by rw [view, hworker]
  have hsilent (hworker : ∀ item, connection.worker ≠ .sending item) :
      connection.label .worker = .silent := by
    simp only [label]
  cases hworker : connection.worker with
  | fetching =>
      rw [hsilent (by simp [hworker])]
      simp only [step?, hworker] at hstep
      exact move_of_fetch (hphase _ hworker) hstep
  | fetched item =>
      rw [hsilent (by simp [hworker])]
      simp only [step?, hworker] at hstep
      split at hstep
      · rw [Option.some.injEq] at hstep
        exact hstep ▸ .withdraw (hphase _ hworker)
      · rw [Option.some.injEq] at hstep
        have hview : c'.view = { connection.view with phase := .holding item } := by
          rw [← hstep]
          by_cases hheld : (connection.link.request .worker).isHeldBy .worker = true
          · simp only [view, hheld, if_true, phase]
          · simp only [view, hheld, Bool.false_eq_true, if_false, phase]
        have hheld : connection.view.phase = .holding item := hphase _ hworker
        rw [hview, ← hheld]
        exact .rest
  | awaitingLink item =>
      have hheld : connection.view.phase = .holding item := hphase _ hworker
      rw [hsilent (by simp [hworker])]
      simp only [step?, hworker] at hstep
      split at hstep
      · rw [Option.some.injEq] at hstep
        exact hstep ▸ .withdraw hheld
      · split_ifs at hstep
        rw [Option.some.injEq] at hstep
        exact hstep ▸ move_of_moveTo hheld
  | linked item =>
      have hheld : connection.view.phase = .holding item := hphase _ hworker
      rw [hsilent (by simp [hworker])]
      have hview : c'.view = { connection.view with phase := .holding item } := by
        simp only [step?, hworker] at hstep
        split_ifs at hstep
        · rw [Option.some.injEq] at hstep
          exact hstep ▸ rfl
        · rw [Option.some.injEq] at hstep
          exact hstep ▸ rfl
      rw [hview, ← hheld]
      exact .rest
  | attempting item attempts =>
      rw [hsilent (by simp [hworker])]
      simp only [step?, hworker, Option.some.injEq] at hstep
      exact hstep ▸ move_of_beginAttempt htidy (hphase _ hworker)
  | opening item attempts opensAt expiresAt =>
      have hheld : connection.view.phase = .holding item := hphase _ hworker
      rw [hsilent (by simp [hworker])]
      simp only [step?, hworker] at hstep
      refine move_of_resume htidy (.inl hheld) (fun after hafter => ?_) hstep
      split_ifs at hafter
      · rw [Option.some.injEq] at hafter
        exact hafter ▸ move_of_attemptEnded htidy hheld
      · rw [Option.some.injEq] at hafter
        exact hafter ▸ move_of_attemptFailed htidy hheld
  | backingOff item attempts until_ =>
      have hheld : connection.view.phase = .holding item := hphase _ hworker
      rw [hsilent (by simp [hworker])]
      simp only [step?, hworker] at hstep
      refine move_of_resume htidy (.inl hheld) (fun after hafter => ?_) hstep
      split_ifs at hafter
      rw [Option.some.injEq] at hafter
      exact hafter ▸ move_of_moveTo hheld
  | sending item =>
      simp only [step?, hworker, Option.some.injEq] at hstep
      exact hstep ▸ move_of_send htidy hworker
  | receiving item received =>
      rw [hsilent (by simp [hworker])]
      simp only [step?, hworker, Option.some.injEq] at hstep
      exact hstep ▸ move_of_receive htidy hworker
  | stalled item received expiresAt =>
      have hreading : connection.view.phase = .reading item received := hphase _ hworker
      rw [hsilent (by simp [hworker])]
      simp only [step?, hworker] at hstep
      refine move_of_resume htidy (.inr ⟨received, hreading⟩) (fun after hafter => ?_) hstep
      split_ifs at hafter
      rw [Option.some.injEq] at hafter
      rw [← hafter, view_moveTo]
      exact .fail (.inr ⟨received, hreading⟩) rfl htidy.closed
  | concluding item result =>
      rw [hsilent (by simp [hworker])]
      simp only [step?, hworker, Option.some.injEq] at hstep
      exact hstep ▸ move_of_conclude htidy (hphase _ hworker)
  | delivering item result =>
      rw [hsilent (by simp [hworker])]
      simp only [step?, hworker, Option.some.injEq] at hstep
      refine hstep ▸ move_of_deliver (hphase _ hworker) ?_
      unfold afterDelivery
      split_ifs <;> rfl
  | guarding until_ =>
      have hidle : connection.view.phase = .idle := hphase _ hworker
      rw [hsilent (by simp [hworker])]
      simp only [step?, hworker] at hstep
      split_ifs at hstep
      · rw [Option.some.injEq] at hstep
        exact hstep ▸ move_of_moveTo hidle
      · rw [Option.some.injEq] at hstep
        exact hstep ▸ move_of_moveTo hidle
  | stopped => simp [step?, hworker] at hstep

end Worker

end Modbus.Connection
