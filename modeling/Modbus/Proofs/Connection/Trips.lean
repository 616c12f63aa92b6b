import Modbus.Proofs.Connection.Errand
import Modbus.Proofs.Operation

/-!
# The exchanges of a call

A program may go to the link any number of times, and what it asks for next may depend on what came
back before.  `Operation.Goes` says what it does: which frames it hands over, with which results it
goes on, and how it ends, whatever numbers its frames get and whatever comes back.  Programs that
follow one another go one after the other (`Operation.goes_bind`), and one exchange is one pair of a
frame and a result (`Client.goes_exchange`).

On a connection the call of a program is one of many.  `Underway` says that what lies behind it are
exchanges of its program, each of them with the ticket under which its request was accepted, and
that no other request of the call was accepted; whatever happens keeps that (`Underway.of_moves`).
So a call comes to an outcome to which its program goes by the exchanges that the history tells of
(`goes_of_outcome`), and until then it has no more requests accepted than its program can make
(`spared_of_run`).
-/

namespace Modbus

/-! ## What programs do -/

namespace Operation

variable {α β : Type} {framing : Framing}

/-- **What a program does**: the frames that it hands over with what comes back for each, and its
outcome.  The numbers of the frames are whatever others have left. -/
inductive Goes (framing : Framing) : Operation α → List (Bytes × Result Bytes) → Result α → Prop where
  | done (outcome : Result α) : Goes framing (.done outcome) [] outcome
  | frame {unit : UnitId} {pdu : Bytes} {next : Bytes → Operation α}
      {exchanges : List (Bytes × Result Bytes)} {outcome : Result α} (transaction : UInt16)
      (h : Goes framing (next (framing.wrap ⟨unit, some transaction⟩ pdu)) exchanges outcome) :
      Goes framing (.frame unit pdu next) exchanges outcome
  | invoke {request : Bytes} {complete : Bytes → Bool} {next : Result Bytes → Operation α}
      {exchanges : List (Bytes × Result Bytes)} {outcome : Result α} (reply : Result Bytes)
      (h : Goes framing (next reply) exchanges outcome) :
      Goes framing (.invoke request complete next) ((request, reply) :: exchanges) outcome

/-- **Every program ends**: there is a way to its end, though not a known one. -/
lemma exists_goes (framing : Framing) (operation : Operation α) :
    ∃ exchanges outcome, operation.Goes framing exchanges outcome := by
  induction operation with
  | done outcome => exact ⟨[], outcome, .done outcome⟩
  | frame unit pdu next ih =>
      obtain ⟨exchanges, outcome, h⟩ := ih (framing.wrap ⟨unit, some 0⟩ pdu)
      exact ⟨exchanges, outcome, .frame 0 h⟩
  | invoke request complete next ih =>
      obtain ⟨exchanges, outcome, h⟩ := ih (.error .cancelled)
      exact ⟨_, outcome, .invoke (.error .cancelled) h⟩

lemma goes_ofResult {known outcome : Result α} {exchanges : List (Bytes × Result Bytes)} :
    (ofResult known).Goes framing exchanges outcome ↔ exchanges = [] ∧ outcome = known := by
  constructor
  · rintro ⟨⟩
    exact ⟨rfl, rfl⟩
  · rintro ⟨rfl, rfl⟩
    exact .done _

lemma goes_frame {unit : UnitId} {pdu : Bytes} {next : Bytes → Operation α}
    {exchanges : List (Bytes × Result Bytes)} {outcome : Result α} :
    (frame unit pdu next).Goes framing exchanges outcome ↔
      ∃ transaction, (next (framing.wrap ⟨unit, some transaction⟩ pdu)).Goes framing exchanges
        outcome := by
  constructor
  · intro h
    cases h with
    | frame transaction h => exact ⟨transaction, h⟩
  · rintro ⟨transaction, h⟩
    exact .frame transaction h

lemma goes_invoke {request : Bytes} {complete : Bytes → Bool} {next : Result Bytes → Operation α}
    {exchanges : List (Bytes × Result Bytes)} {outcome : Result α} :
    (invoke request complete next).Goes framing exchanges outcome ↔
      ∃ reply later, exchanges = (request, reply) :: later ∧
        (next reply).Goes framing later outcome := by
  constructor
  · intro h
    cases h with
    | invoke reply h => exact ⟨reply, _, rfl, h⟩
  · rintro ⟨reply, later, rfl, h⟩
    exact .invoke reply h

/-- **Programs go one after the other**, unless the first ends with an error. -/
lemma goes_bind {operation : Operation α} {next : α → Operation β}
    {exchanges : List (Bytes × Result Bytes)} {outcome : Result β} :
    (operation >>= next).Goes framing exchanges outcome ↔
      (∃ error, operation.Goes framing exchanges (.error error) ∧ outcome = .error error) ∨
        ∃ first later value, exchanges = first ++ later ∧
          operation.Goes framing first (.ok value) ∧ (next value).Goes framing later outcome := by
  induction operation generalizing exchanges with
  | done known =>
      cases known with
      | error error =>
          constructor
          · intro h
            obtain ⟨rfl, rfl⟩ := goes_ofResult.mp h
            exact .inl ⟨error, .done _, rfl⟩
          · rintro (⟨_, ⟨⟩, rfl⟩ | ⟨_, _, _, _, ⟨⟩, _⟩)
            exact .done _
      | ok value =>
          constructor
          · intro h
            exact .inr ⟨[], exchanges, value, rfl, .done _, h⟩
          · rintro (⟨_, ⟨⟩, _⟩ | ⟨_, later, _, rfl, ⟨⟩, h⟩)
            exact h
  | frame unit pdu continue_ ih =>
      change (frame unit pdu fun adu => continue_ adu >>= next).Goes framing exchanges outcome ↔ _
      simp only [goes_frame, ih]
      constructor
      · rintro ⟨transaction, ⟨error, h, rfl⟩ | ⟨first, later, value, rfl, h, hnext⟩⟩
        · exact .inl ⟨error, ⟨transaction, h⟩, rfl⟩
        · exact .inr ⟨first, later, value, rfl, ⟨transaction, h⟩, hnext⟩
      · rintro (⟨error, ⟨transaction, h⟩, rfl⟩ |
          ⟨first, later, value, rfl, ⟨transaction, h⟩, hnext⟩)
        · exact ⟨transaction, .inl ⟨error, h, rfl⟩⟩
        · exact ⟨transaction, .inr ⟨first, later, value, rfl, h, hnext⟩⟩
  | invoke request complete continue_ ih =>
      change (invoke request complete fun reply => continue_ reply >>= next).Goes framing exchanges
        outcome ↔ _
      simp only [goes_invoke, ih]
      constructor
      · rintro ⟨reply, rest, rfl, ⟨error, h, rfl⟩ | ⟨first, later, value, rfl, h, hnext⟩⟩
        · exact .inl ⟨error, ⟨reply, rest, rfl, h⟩, rfl⟩
        · exact .inr ⟨(request, reply) :: first, later, value, rfl, ⟨reply, first, rfl, h⟩, hnext⟩
      · rintro (⟨error, ⟨reply, rest, rfl, h⟩, rfl⟩ |
          ⟨_, later, value, rfl, ⟨reply, first, rfl, h⟩, hnext⟩)
        · exact ⟨reply, rest, rfl, .inl ⟨error, h, rfl⟩⟩
        · exact ⟨reply, first ++ later, rfl, .inr ⟨first, later, value, rfl, h, hnext⟩⟩

/-- What is made of an outcome needs no exchange. -/
lemma goes_map {operation : Operation α} {change : α → β}
    {exchanges : List (Bytes × Result Bytes)} {outcome : Result β} :
    (change <$> operation).Goes framing exchanges outcome ↔
      ∃ known, operation.Goes framing exchanges known ∧ outcome = known.map change := by
  rw [← bind_pure_comp, goes_bind]
  constructor
  · rintro (⟨error, h, rfl⟩ | ⟨first, later, value, rfl, h, hnext⟩)
    · exact ⟨_, h, rfl⟩
    · obtain ⟨rfl, rfl⟩ := goes_ofResult.mp hnext
      exact ⟨_, by rwa [List.append_nil], rfl⟩
  · rintro ⟨(error | value), h, rfl⟩
    · exact .inl ⟨error, h, rfl⟩
    · exact .inr ⟨exchanges, [], value, (List.append_nil _).symm, h, .done _⟩

end Operation

/-- **One exchange** is one frame and what comes back for it. -/
lemma Client.goes_exchange {β : Type} {framing : Framing} {unit : UnitId} {pdu : Bytes}
    {next : Bytes → Result β} {exchanges : List (Bytes × Result Bytes)} {outcome : Result β} :
    (Client.exchange framing unit pdu >>= fun response =>
        Operation.ofResult (next response)).Goes framing exchanges outcome ↔
      ∃ transaction reply, exchanges = [(framing.wrap ⟨unit, some transaction⟩ pdu, reply)] ∧
        outcome = (do
          let response ← reply
          framing.validate (framing.wrap ⟨unit, some transaction⟩ pdu) response
          next response) := by
  rw [Client.exchange_bind, Operation.goes_frame]
  constructor
  · rintro ⟨transaction, hinvoke⟩
    obtain ⟨reply, later, rfl, hdone⟩ := Operation.goes_invoke.mp hinvoke
    obtain ⟨rfl, rfl⟩ := Operation.goes_ofResult.mp hdone
    exact ⟨transaction, reply, rfl, rfl⟩
  · rintro ⟨transaction, reply, rfl, rfl⟩
    exact ⟨transaction, .invoke reply (.done _)⟩

/-! ## What lies behind a call -/

/-- **An exchange of a call**: the frame that it handed over, the ticket under which its request was
accepted, unless it was refused, and what came back. -/
structure Trip where
  frame : Bytes
  ticket : Option Nat
  reply : Result Bytes

namespace Trip

def exchange (trip : Trip) : Bytes × Result Bytes :=
  (trip.frame, trip.reply)

/-- What is told of an exchange: its request was accepted under its ticket and came back with the
result; what was refused came back with an error. -/
def Told (told : List Occurrence) (id : Nat) (trip : Trip) : Prop :=
  match trip.ticket with
  | some ticket => .accepted ticket id ∈ told ∧ .returned ticket trip.reply ∈ told
  | none => ∃ error, trip.reply = .error error

lemma Told.mono {told later : List Occurrence} {id : Nat} {trip : Trip}
    (h : trip.Told told id) (hkept : told ⊆ later) : trip.Told later id := by
  unfold Told at h ⊢
  split at h
  · exact ⟨hkept h.1, hkept h.2⟩
  · exact h

end Trip

namespace Connection

variable {σ α : Type} {framing : Framing} {operation : Operation α} {frames : Bytes → Prop}
  {told : List Occurrence} {r r' : Roll α} {id : Nat} {trips : List Trip}
  {pending : Option Nat}

/-- **The exchanges behind a call** and the ticket that it waits for: nothing else was accepted. -/
structure Behind (frames : Bytes → Prop) (told : List Occurrence) (id : Nat)
    (trips : List Trip) (pending : Option Nat) : Prop where
  passed : ∀ trip ∈ trips, frames trip.frame ∧ trip.Told told id
  accepted : ∀ ticket, .accepted ticket id ∈ told →
    (∃ trip ∈ trips, trip.ticket = some ticket) ∨ pending = some ticket
  /-- Tickets were given out in the order of the exchanges. -/
  ordered : (trips.filterMap Trip.ticket ++ pending.toList).Pairwise (· < ·)

namespace Behind

lemma of_kept {later : List Occurrence} (h : Behind frames told id trips pending)
    (hkept : told ⊆ later)
    (haccepted : ∀ ticket, .accepted ticket id ∈ later → .accepted ticket id ∈ told) :
    Behind frames later id trips pending where
  passed trip htrip :=
    (h.passed trip htrip).imp_right fun htold => htold.mono hkept
  accepted ticket hticket := h.accepted ticket (haccepted ticket hticket)
  ordered := h.ordered

lemma of_apart (h : Behind frames r.told id trips pending) (hapart : Apart r r' id) :
    Behind frames r'.told id trips pending :=
  h.of_kept hapart.kept fun ticket => (hapart.accepted ticket).mp

/-- One exchange more is behind the call. -/
lemma concat (h : Behind frames told id trips pending) {trip : Trip}
    (hframe : frames trip.frame) (htold : trip.Told told id)
    (hpending : trip.ticket = pending) :
    Behind frames told id (trips ++ [trip]) none where
  passed other hother := by
    rcases List.mem_append.mp hother with hbefore | hlast
    · exact h.passed other hbefore
    · obtain rfl := List.mem_singleton.mp hlast
      exact ⟨hframe, htold⟩
  accepted ticket hticket := by
    refine .inl ?_
    rcases h.accepted ticket hticket with ⟨other, hother, hsame⟩ | hwaits
    · exact ⟨other, List.mem_append_left _ hother, hsame⟩
    · exact ⟨trip, by simp, hpending.trans hwaits⟩
  ordered := by
    have hone : [trip].filterMap Trip.ticket = pending.toList := by
      cases pending <;> simp [hpending]
    rw [List.filterMap_append, hone, Option.toList_none, List.append_nil]
    exact h.ordered

/-- A request of the call is accepted, under a ticket that nobody had before. -/
lemma accept (h : Behind frames r.told id trips none) (hnumbered : r.Numbered) :
    Behind frames (r.told ++ [.accepted r.nextTicket id]) id trips (some r.nextTicket) where
  passed trip htrip :=
    (h.passed trip htrip).imp_right fun htold =>
      htold.mono (List.subset_append_left _ _)
  accepted other hother := by
    rcases List.mem_append.mp hother with hbefore | hnew
    · exact .inl ((h.accepted other hbefore).resolve_right nofun)
    · obtain ⟨rfl, -⟩ := Occurrence.accepted.inj (List.mem_singleton.mp hnew)
      exact .inr rfl
  ordered := by
    have hbefore := h.ordered
    rw [Option.toList_none, List.append_nil] at hbefore
    refine List.pairwise_append.mpr ⟨hbefore, List.pairwise_singleton _ _, ?_⟩
    intro ticket hticket later hlater
    obtain ⟨trip, htrip, hsome⟩ := List.mem_filterMap.mp hticket
    have htold := (h.passed trip htrip).2
    rw [Trip.Told, hsome] at htold
    obtain rfl : r.nextTicket = later := Option.some.inj (Option.mem_toList.mp hlater)
    exact hnumbered.returned ticket trip.reply htold.2

end Behind

/-- **A program has come to another** by exchanges: what the other does, it does after them. -/
def Leads (framing : Framing) (operation : Operation α) (trips : List Trip)
    (current : Operation α) : Prop :=
  ∀ later outcome, current.Goes framing later outcome →
    operation.Goes framing (trips.map Trip.exchange ++ later) outcome

/-- **How far a call has come** with its program. -/
inductive Underway (framing : Framing) (operation : Operation α) (frames : Bytes → Prop)
    (told : List Occurrence) (id : Nat) : Progress α → Prop where
  | running {current : Operation α} {trips : List Trip}
      (hleads : Leads framing operation trips current)
      (hbehind : Behind frames told id trips none)
      (hframes : ∀ request complete next, current = .invoke request complete next →
        frames request) :
      Underway framing operation frames told id (.running current)
  | waiting {ticket : Nat} {reply : Option (Result Bytes)} {next : Result Bytes → Operation α}
      {trips : List Trip} {request : Bytes}
      (hleads : ∀ result,
        Leads framing operation (trips ++ [⟨request, some ticket, result⟩]) (next result))
      (hbehind : Behind frames told id trips (some ticket)) (hframe : frames request)
      (haccepted : .accepted ticket id ∈ told) :
      Underway framing operation frames told id (.waiting ticket reply next)
  | finished {outcome : Result α} {trips : List Trip}
      (hgoes : operation.Goes framing (trips.map Trip.exchange) outcome)
      (hbehind : Behind frames told id trips none) :
      Underway framing operation frames told id (.finished outcome)
  | dropped : Underway framing operation frames told id .dropped

namespace Underway

lemma of_apart {progress : Progress α} (h : Underway framing operation frames r.told id progress)
    (hapart : Apart r r' id) : Underway framing operation frames r'.told id progress := by
  cases h with
  | running hleads hbehind hframes => exact .running hleads (hbehind.of_apart hapart) hframes
  | waiting hleads hbehind hframe haccepted =>
      exact .waiting hleads (hbehind.of_apart hapart) hframe (hapart.kept haccepted)
  | finished hgoes hbehind => exact .finished hgoes (hbehind.of_apart hapart)
  | dropped => exact .dropped

/-- **Whatever happens to a call, it goes on with its program.** -/
lemma of_moves {progress after : Progress α}
    (h : Underway framing operation frames r.told id progress) (hnumbered : r.Numbered)
    (hframing : r.codec.framing = framing) (hmoves : Moves r r' id progress after)
    (hframes : ∀ request complete next, after = .running (.invoke request complete next) →
      frames request) :
    Underway framing operation frames r'.told id after := by
  have hnext {next : Operation α} (hafter : after = .running next) :
      ∀ request complete later, next = .invoke request complete later → frames request := by
    rintro request complete later rfl
    exact hframes request complete later hafter
  cases hmoves with
  | stay hapart => exact h.of_apart hapart
  | drop => exact .dropped
  | reply hapart hplain =>
      refine of_apart ?_ hapart
      cases h with
      | waiting hleads hbehind hframe haccepted => exact .waiting hleads hbehind hframe haccepted
  | finish hapart =>
      refine of_apart ?_ hapart
      cases h with
      | running hleads hbehind _ =>
          have hgoes := hleads [] _ (.done _)
          rw [List.append_nil] at hgoes
          exact .finished hgoes hbehind
  | frame hapart =>
      refine of_apart ?_ hapart
      cases h with
      | running hleads hbehind _ =>
          refine .running (fun later outcome hgoes => hleads later outcome ?_) hbehind (hnext rfl)
          rw [Codec.request, hframing] at hgoes
          exact .frame r.codec.transaction hgoes
  | @refuse request complete next error hapart hplain =>
      refine of_apart ?_ hapart
      cases h with
      | @running _ trips hleads hbehind hframe =>
          have hpassed : Behind frames r.told id (trips ++ [⟨request, none, .error error⟩]) none :=
            hbehind.concat (hframe _ _ _ rfl) ⟨error, rfl⟩ rfl
          refine .running (fun later outcome hgoes => ?_) hpassed (hnext rfl)
          simpa [Trip.exchange] using hleads _ _ (.invoke (.error error) hgoes)
  | accept htold hticket hwaits =>
      cases h with
      | @running _ trips hleads hbehind hframe =>
          have hposed : Behind frames r'.told id trips (some r.nextTicket) :=
            htold ▸ hbehind.accept hnumbered
          refine .waiting (fun result later outcome hgoes => ?_) hposed (hframe _ _ _ rfl)
            (by simp [htold])
          simpa [Trip.exchange] using hleads _ _ (.invoke result hgoes)
  | @leave ticket _ _ result hresult htold hticket hwaits =>
      cases h with
      | waiting hleads hbehind hframe haccepted =>
          have hkept : r.told ⊆ r'.told := htold ▸ List.subset_append_left _ _
          have hlater := hbehind.of_kept hkept fun other hother => by simpa [htold] using hother
          exact .running (hleads result)
            (hlater.concat hframe ⟨hkept haccepted, by simp [htold]⟩ rfl) (hnext rfl)

/-- **What a call has had accepted** is no more than its program can ask for. -/
lemma spared {progress : Progress α} (h : Underway framing operation frames told id progress)
    (hkept : progress ≠ .dropped) :
    ∃ (tickets : List Nat) (exchanges : _) (outcome : _),
      operation.Goes framing exchanges outcome ∧ tickets.length ≤ exchanges.length ∧
        ∀ ticket, .accepted ticket id ∈ told → ticket ∈ tickets := by
  have hmem {trips : List Trip} {pending : Option Nat}
      (hbehind : Behind frames told id trips pending) (ticket : Nat)
      (haccepted : .accepted ticket id ∈ told) :
      ticket ∈ trips.filterMap Trip.ticket ∨ pending = some ticket :=
    (hbehind.accepted ticket haccepted).imp_left List.mem_filterMap.mpr
  cases h with
  | @running current trips hleads hbehind _ =>
      obtain ⟨later, outcome, hgoes⟩ := current.exists_goes framing
      refine ⟨trips.filterMap Trip.ticket, _, outcome, hleads later outcome hgoes, ?_, ?_⟩
      · have := List.length_filterMap_le Trip.ticket trips
        simp only [List.length_append, List.length_map]
        omega
      · intro ticket haccepted
        exact (hmem hbehind ticket haccepted).resolve_right nofun
  | @waiting own _ next trips _ hleads hbehind _ _ =>
      obtain ⟨later, outcome, hgoes⟩ := (next (.error .cancelled)).exists_goes framing
      refine ⟨own :: trips.filterMap Trip.ticket, _, outcome, hleads _ later outcome hgoes,
        ?_, ?_⟩
      · have := List.length_filterMap_le Trip.ticket trips
        simp only [List.length_cons, List.length_append, List.length_map, List.length_nil]
        omega
      · intro ticket haccepted
        rcases hmem hbehind ticket haccepted with hbefore | hwaits
        · exact List.mem_cons_of_mem _ hbefore
        · exact Option.some.inj hwaits ▸ List.mem_cons_self ..
  | @finished outcome trips hgoes hbehind =>
      refine ⟨trips.filterMap Trip.ticket, _, outcome, hgoes, ?_, ?_⟩
      · have := List.length_filterMap_le Trip.ticket trips
        simp only [List.length_map]
        omega
      · intro ticket haccepted
        exact (hmem hbehind ticket haccepted).resolve_right nofun
  | dropped => exact absurd rfl hkept

end Underway

/-! ## Runs -/

lemma mem_told_roll {connection : Connection σ α} {occurrence : Occurrence}
    (h : tellsOfCall occurrence = true) :
    occurrence ∈ connection.roll.told ↔ occurrence ∈ occurrences connection.history := by
  simp [roll, h]

lemma Trip.told_roll {connection : Connection σ α} {trip : Trip} :
    trip.Told connection.roll.told id ↔ trip.Told (occurrences connection.history) id := by
  unfold Trip.Told
  split
  · rw [mem_told_roll rfl, mem_told_roll rfl]
  · rfl

/-- **The exchanges of a call in a run**, in the order in which it made them: their frames were
handed over, their results came back under their tickets, and the call had nothing else accepted. -/
structure Itinerary [Peer σ] (started : Connection σ α) (later : List (Happening α)) (id : Nat)
    (trips : List Trip) : Prop where
  passed : ∀ trip ∈ trips, HandsOver started later id trip.frame ∧
    trip.Told (occurrences (started.runOver later).history) id
  accepted : ∀ ticket, .accepted ticket id ∈ occurrences (started.runOver later).history →
    ∃ trip ∈ trips, trip.ticket = some ticket
  ordered : (trips.filterMap Trip.ticket).Pairwise (· < ·)

section Runs

variable [Peer σ] (name : String) (timing : Timing) (framing : Framing) (wire : Wire σ)
  (before later : List (Happening α)) (operation : Operation α) (cancelled : Bool)

/-- **Every call goes on with its program**, on a connection that has been used before. -/
lemma underway_of_run :
    let reached : Connection σ α := (create name timing framing wire).runOver before
    let id := reached.calls.length
    let started := (Caller.start reached operation cancelled).2
    let final := started.runOver later
    ∃ call, final.calls[id]? = some call ∧
      Underway framing operation (HandsOver started later id) final.roll.told id
        call.progress := by
  intro reached id started final
  have hfirst : Visits started later id (.running operation) :=
    ⟨[], later, ⟨cancelled, .running operation⟩, rfl, List.getElem?_concat_length, rfl⟩
  refine followed_of_start name timing wire before later operation cancelled
    (fun r => Underway framing operation (HandsOver started later id) r.told id) ?_ ?_
  · intro r hnone
    have hbehind : Behind (HandsOver started later id) r.told id [] none :=
      ⟨nofun, fun ticket haccepted => absurd ⟨ticket, haccepted⟩ hnone, .nil⟩
    have hleads : Leads framing operation [] operation := fun _ _ hgoes => hgoes
    exact .running hleads hbehind fun request complete next h => ⟨complete, next, h ▸ hfirst⟩
  · intro r r' progress after h hnumbered hframing hmove hvisits
    exact h.of_moves hnumbered hframing hmove fun request complete next hafter =>
      ⟨complete, next, hafter ▸ hvisits⟩

/-- **A call comes to what its program comes to**, by the trips that it made. -/
theorem goes_of_outcome :
    let reached : Connection σ α := (create name timing framing wire).runOver before
    let id := reached.calls.length
    let started := (Caller.start reached operation cancelled).2
    ∀ outcome, (started.runOver later).outcome? id = some outcome →
      ∃ trips, operation.Goes framing (trips.map Trip.exchange) outcome ∧
        Itinerary started later id trips := by
  intro reached id started outcome houtcome
  obtain ⟨call, hcall, hunderway⟩ :=
    underway_of_run name timing framing wire before later operation cancelled
  rw [outcome?, hcall, Option.map_some] at houtcome
  split at houtcome
  · rename_i got hprogress
    rw [← Option.some.inj houtcome]
    rw [Option.some.inj hprogress] at hunderway
    cases hunderway with
    | @finished _ trips hgoes hbehind =>
        refine ⟨trips, hgoes, fun trip htrip => ?_, fun ticket haccepted => ?_, ?_⟩
        · exact (hbehind.passed trip htrip).imp_right Trip.told_roll.mp
        · have hpassed := hbehind.accepted ticket ((mem_told_roll rfl).mpr haccepted)
          exact hpassed.resolve_right (Option.some_ne_none ticket).symm
        · simpa using hbehind.ordered
  · simp at houtcome

/-- **At every moment** a call that was not given up has had no more requests accepted than its
program can make. -/
theorem spared_of_run :
    let reached : Connection σ α := (create name timing framing wire).runOver before
    let id := reached.calls.length
    let started := (Caller.start reached operation cancelled).2
    let final := started.runOver later
    ∀ call, final.calls[id]? = some call → call.progress ≠ .dropped →
      ∃ (tickets : List Nat) (exchanges : _) (outcome : _),
        operation.Goes framing exchanges outcome ∧ tickets.length ≤ exchanges.length ∧
          ∀ ticket, .accepted ticket id ∈ occurrences final.history → ticket ∈ tickets := by
  intro reached id started final call hcall hkept
  obtain ⟨found, hfound, hunderway⟩ :=
    underway_of_run name timing framing wire before later operation cancelled
  obtain rfl : found = call := Option.some.inj (hfound.symm.trans hcall)
  obtain ⟨tickets, exchanges, outcome, hgoes, hlength, haccepted⟩ := hunderway.spared hkept
  exact ⟨tickets, exchanges, outcome, hgoes, hlength, fun ticket h =>
    haccepted ticket ((mem_told_roll rfl).mpr h)⟩

end Runs

end Connection

end Modbus
