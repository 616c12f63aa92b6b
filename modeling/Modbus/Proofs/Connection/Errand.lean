import Modbus.Connection.Schedule
import Modbus.Proofs.Connection.Roll

/-!
# A call with one exchange

A program that frames one request, hands it over and ends with what it makes of the result is an
`Errand`.  Its call has a short course: it is to be framed, to be handed over, waits for its reply,
is settled and is over, or it is given up on the way.  `Errand.Place` says for each of these places
what the history tells of the call there.  That every happening leads from one of them to one of
them (`Errand.Place.of_moves`) rests on what an update can do to one call (`Update.moves`) and on
the numbers that tickets and calls have (`Roll.Numbered`).

What an errand comes to is then known in the end (`Errand.ran_of_outcome`): its outcome is made of a
result that came from the link, for the frame that its call handed over (`HandsOver`), and if the
history tells of bytes that came back for the call, then they are that result (`Came`).
-/

namespace Modbus.Connection

variable {σ α : Type}

/-! ## What is told of a call -/

/-- A request of the call `id` was accepted. -/
def Accepted (told : List Occurrence) (id : Nat) : Prop :=
  ∃ ticket, .accepted ticket id ∈ told

/-- **Bytes that came back for the call** `id`: it had a request accepted under a ticket, and
stopped waiting for that ticket with them. -/
def CameBack (told : List Occurrence) (id : Nat) (bytes : Bytes) : Prop :=
  ∃ ticket, .accepted ticket id ∈ told ∧ .returned ticket (.ok bytes) ∈ told

/-- **The result to which the one exchange of a call came.** -/
inductive Came (r : Roll α) (id : Nat) : Result Bytes → Prop where
  | refused {error : Error} (hnone : ¬ Accepted r.told id) : Came r id (.error error)
  /-- Its request was accepted under a ticket for which nobody waits any more. -/
  | returned {ticket : Nat} {result : Result Bytes}
      (haccepted : ∀ other, .accepted other id ∈ r.told ↔ other = ticket)
      (hreturned : ∀ other, .returned ticket other ∈ r.told ↔ other = result)
      (hleft : ∀ other, ¬ WaitsFor r.calls other ticket) (hspent : ticket < r.nextTicket) :
      Came r id result

/-- What came back is the result of the exchange. -/
lemma Came.cameBack_iff {r : Roll α} {id : Nat} {result : Result Bytes} (h : Came r id result)
    (bytes : Bytes) : CameBack r.told id bytes ↔ result = .ok bytes := by
  cases h with
  | refused hnone =>
      refine ⟨?_, nofun⟩
      rintro ⟨ticket, haccepted, -⟩
      exact absurd ⟨ticket, haccepted⟩ hnone
  | @returned ticket _ haccepted hreturned _ _ =>
      constructor
      · rintro ⟨other, hother, hbytes⟩
        obtain rfl := (haccepted other).mp hother
        exact ((hreturned _).mp hbytes).symm
      · rintro rfl
        exact ⟨ticket, (haccepted ticket).mpr rfl, (hreturned _).mpr rfl⟩

/-! ## What happens to others -/

/-- **Nothing is told of the call** `id`: whatever else happens, no request of it is accepted, and
who stops waiting is somebody else. -/
structure Apart (r r' : Roll α) (id : Nat) : Prop where
  accepted : ∀ ticket, .accepted ticket id ∈ r'.told ↔ .accepted ticket id ∈ r.told
  kept : r.told ⊆ r'.told
  returned : ∀ ticket result, .returned ticket result ∈ r'.told →
    .returned ticket result ∈ r.told ∨ ∃ other, other ≠ id ∧ WaitsFor r.calls other ticket
  waits : ∀ other ticket, WaitsFor r'.calls other ticket →
    WaitsFor r.calls other ticket ∨ r.nextTicket ≤ ticket
  ticket : r.nextTicket ≤ r'.nextTicket

lemma Apart.not_accepted {r r' : Roll α} {id : Nat} (h : Apart r r' id)
    (hnone : ¬ Accepted r.told id) : ¬ Accepted r'.told id := by
  rintro ⟨ticket, haccepted⟩
  exact hnone ⟨ticket, (h.accepted ticket).mp haccepted⟩

/-- Where nobody comes to wait and nobody stops waiting. -/
lemma Apart.of_later {r r' : Roll α} {id : Nat} {news : List Occurrence}
    (htold : r'.told = r.told ++ news)
    (hnews : ∀ occurrence ∈ news, (∀ ticket call, occurrence ≠ .accepted ticket call) ∧
      ∀ ticket result, occurrence ≠ .returned ticket result)
    (hcalls : Later r.calls r'.calls) (hticket : r.nextTicket ≤ r'.nextTicket) :
    Apart r r' id where
  accepted ticket := by
    rw [htold, List.mem_append, or_iff_left]
    exact fun hnew => (hnews _ hnew).1 _ _ rfl
  kept := by
    rw [htold]
    exact List.subset_append_left _ _
  returned ticket result h := by
    rw [htold] at h
    rcases List.mem_append.mp h with hold | hnew
    · exact .inl hold
    · exact absurd rfl ((hnews _ hnew).2 ticket result)
  waits other ticket h := .inl (hcalls.waits other ticket h)
  ticket := hticket

/-- A call that is replaced by one that does not wait. -/
lemma Later.set_idle {calls : List (Call α)} {id : Nat} {call : Call α} {progress : Progress α}
    (hcall : calls[id]? = some call)
    (hprogress : ∀ ticket reply next, progress ≠ .waiting ticket reply next) :
    Later calls (calls.set id { call with progress }) := by
  refine .set hcall (fun ticket h => ?_) fun h => h
  cases progress with
  | waiting own reply next => exact absurd rfl (hprogress own reply next)
  | _ => simp [Call.ticket?] at h

/-- Who waits when the call `id` has changed. -/
lemma waitsFor_set {calls : List (Call α)} {id other ticket : Nat} {call after : Call α}
    (hcall : calls[id]? = some call) (h : WaitsFor (calls.set id after) other ticket) :
    (other = id ∧ after.ticket? = some ticket) ∨ (other ≠ id ∧ WaitsFor calls other ticket) := by
  obtain ⟨found, hfound, hticket⟩ := waitsFor_iff.mp h
  rcases getElem?_set_some hcall hfound with ⟨hsame, rfl⟩ | ⟨hother, hbefore⟩
  · exact .inl ⟨hsame, hticket⟩
  · exact .inr ⟨hother, waitsFor_iff.mpr ⟨found, hbefore, hticket⟩⟩

/-- Another call hands over its request. -/
lemma Apart.of_accept {r : Roll α} {id other : Nat} {call : Call α}
    {next : Result Bytes → Operation α} (hcall : r.calls[other]? = some call)
    (hother : other ≠ id) :
    Apart r { r with
      nextTicket := r.nextTicket + 1
      calls := r.calls.set other { call with progress := .waiting r.nextTicket none next }
      told := r.told ++ [.accepted r.nextTicket other] } id where
  accepted ticket := by simp [Ne.symm hother]
  kept := List.subset_append_left _ _
  returned ticket result h := .inl (by simpa using h)
  waits mine ticket h := by
    rcases waitsFor_set hcall h with ⟨-, hticket⟩ | ⟨-, hbefore⟩
    · exact .inr (Nat.le_of_eq (Option.some.inj hticket))
    · exact .inl hbefore
  ticket := Nat.le_succ _

/-- Another call stops waiting. -/
lemma Apart.of_leave {r : Roll α} {id other ticket : Nat} {call : Call α}
    {reply : Option (Result Bytes)} {next : Result Bytes → Operation α} {result : Result Bytes}
    (hcall : r.calls[other]? = some call) (hprogress : call.progress = .waiting ticket reply next)
    (hother : other ≠ id) :
    Apart r { r with
      calls := r.calls.set other { call with progress := .running (next result) }
      told := r.told ++ [.returned ticket result] } id where
  accepted own := by simp
  kept := List.subset_append_left _ _
  returned own got h := by
    rcases List.mem_append.mp h with hold | hnew
    · exact .inl hold
    · obtain ⟨rfl, -⟩ := Occurrence.returned.inj (List.mem_singleton.mp hnew)
      exact .inr ⟨other, hother, waitsFor_iff.mpr ⟨call, hcall, by rw [Call.ticket?, hprogress]⟩⟩
  waits mine own h := .inl ((Later.set_idle hcall (by simp)).waits mine own h)
  ticket := Nat.le_refl _

/-! ## What becomes of a call -/

/-- **What one update can do to the call** `id`, from one progress to the next. -/
inductive Moves (r r' : Roll α) (id : Nat) : Progress α → Progress α → Prop where
  | stay {progress : Progress α} (hapart : Apart r r' id) : Moves r r' id progress progress
  /-- It is handed a result. -/
  | reply {ticket : Nat} {result : Result Bytes} {next : Result Bytes → Operation α}
      (hapart : Apart r r' id) (hplain : Result.Plain result) :
      Moves r r' id (.waiting ticket none next) (.waiting ticket (some result) next)
  | finish {outcome : Result α} (hapart : Apart r r' id) :
      Moves r r' id (.running (.done outcome)) (.finished outcome)
  | frame {unit : UnitId} {pdu : Bytes} {next : Bytes → Operation α} (hapart : Apart r r' id) :
      Moves r r' id (.running (.frame unit pdu next))
        (.running (next (r.codec.request unit pdu).1))
  /-- Its request is refused. -/
  | refuse {request : Bytes} {complete : Bytes → Bool} {next : Result Bytes → Operation α}
      {error : Error} (hapart : Apart r r' id) (hplain : error.exceptionCode? = none) :
      Moves r r' id (.running (.invoke request complete next)) (.running (next (.error error)))
  | accept {request : Bytes} {complete : Bytes → Bool} {next : Result Bytes → Operation α}
      (htold : r'.told = r.told ++ [.accepted r.nextTicket id])
      (hticket : r'.nextTicket = r.nextTicket + 1)
      (hwaits : ∀ other ticket, WaitsFor r'.calls other ticket →
        (other = id ∧ ticket = r.nextTicket) ∨ WaitsFor r.calls other ticket) :
      Moves r r' id (.running (.invoke request complete next)) (.waiting r.nextTicket none next)
  | leave {ticket : Nat} {reply : Option (Result Bytes)} {next : Result Bytes → Operation α}
      {result : Result Bytes} (hresult : reply = some result ∨ Result.Plain result)
      (htold : r'.told = r.told ++ [.returned ticket result])
      (hticket : r'.nextTicket = r.nextTicket)
      (hwaits : ∀ other own, WaitsFor r'.calls other own →
        other ≠ id ∧ WaitsFor r.calls other own) :
      Moves r r' id (.waiting ticket reply next) (.running (next result))
  | drop {progress : Progress α} : Moves r r' id progress .dropped

/-- **Every update** does one of these things to each call that is there. -/
lemma Update.moves {r r' : Roll α} {id : Nat} {call : Call α} (hupdate : Update r r')
    (hcall : r.calls[id]? = some call) :
    ∃ after, r'.calls[id]? = some after ∧ Moves r r' id call.progress after.progress := by
  have hset (changed : Call α) : (r.calls.set id changed)[id]? = some changed :=
    List.getElem?_set_self (List.getElem?_eq_some_iff.mp hcall).1
  -- Where nothing is told and nobody comes to wait.
  have hapart (codec : Codec) {nextTicket : Nat} {calls : List (Call α)}
      (hcalls : Later r.calls calls) (hticket : r.nextTicket ≤ nextTicket) :
      Apart r ⟨codec, nextTicket, calls, r.told⟩ id :=
    .of_later (List.append_nil _).symm (by simp) hcalls hticket
  have hidle (codec : Codec) {other nextTicket : Nat} {found : Call α}
      (hfound : r.calls[other]? = some found) (progress : Progress α)
      (hprogress : ∀ ticket reply next, progress ≠ .waiting ticket reply next)
      (hticket : r.nextTicket ≤ nextTicket) :
      Apart r ⟨codec, nextTicket, r.calls.set other { found with progress }, r.told⟩ id :=
    hapart codec (.set_idle hfound hprogress) hticket
  -- What another call does leaves this one where it is.
  have hother {other : Nat} {changed : Call α} {later : Roll α} (hne : other ≠ id)
      (hcalls : later.calls = r.calls.set other changed) (hlater : Apart r later id) :
      ∃ after, later.calls[id]? = some after ∧ Moves r later id call.progress after.progress := by
    refine ⟨call, ?_, .stay hlater⟩
    rw [hcalls, List.getElem?_set_ne hne]
    exact hcall
  cases hupdate with
  | rest => exact ⟨call, hcall, .stay (hapart r.codec (.refl _) (Nat.le_refl _))⟩
  | @deliver item result hplain =>
      have hdelivered : Apart r { r with
          calls := r.calls.modify item.call (Call.handed item.ticket result)
          told := r.told ++ [.delivered item.ticket result] } id :=
        .of_later rfl (by simp) (.handed ..) (Nat.le_refl _)
      refine ⟨_, (List.getElem?_modify ..).trans (congrArg _ hcall), ?_⟩
      dsimp only
      split_ifs
      · rcases Docket.handed_cases item.ticket result call with hsame | ⟨next, hprogress, hhanded⟩
        · rw [hsame]
          exact .stay hdelivered
        · rw [hhanded, hprogress]
          exact .reply hdelivered hplain
      · exact .stay hdelivered
  | refuseQueued items =>
      have hrefused := hapart r.codec (.refused items r.calls) (Nat.le_refl _)
      obtain ⟨after, hafter, hcases⟩ := Docket.refused_cases items hcall
      refine ⟨after, hafter, ?_⟩
      rcases hcases with rfl | ⟨ticket, next, hprogress, rfl⟩
      · exact .stay hrefused
      · rw [hprogress]
        exact .reply hrefused (Result.plain_error rfl)
  | start operation cancelled =>
      exact ⟨call,
        (List.getElem?_append_left (List.getElem?_eq_some_iff.mp hcall).1).trans hcall,
        .stay (hapart r.codec (.start ..) (Nat.le_refl _))⟩
  | @cancel other found hfound =>
      have hmarked : Later r.calls (r.calls.set other { found with cancelled := true }) :=
        .set hfound (fun _ h => h) fun _ => rfl
      have hlater := hapart r.codec hmarked (Nat.le_refl _)
      rcases eq_or_ne other id with rfl | hne
      · obtain rfl := Option.some.inj (hcall.symm.trans hfound)
        exact ⟨_, hset _, .stay hlater⟩
      · exact hother hne rfl hlater
  | @finish other found outcome hfound hprogress =>
      have hlater := hidle r.codec hfound (.finished outcome) (by simp) (Nat.le_refl _)
      rcases eq_or_ne other id with rfl | hne
      · obtain rfl := Option.some.inj (hcall.symm.trans hfound)
        rw [hprogress]
        exact ⟨_, hset _, .finish hlater⟩
      · exact hother hne rfl hlater
  | @frame other found unit pdu next hfound hprogress =>
      have hlater := hidle (r.codec.request unit pdu).2 hfound
        (.running (next (r.codec.request unit pdu).1)) (by simp) (Nat.le_refl _)
      rcases eq_or_ne other id with rfl | hne
      · obtain rfl := Option.some.inj (hcall.symm.trans hfound)
        rw [hprogress]
        exact ⟨_, hset _, .frame hlater⟩
      · exact hother hne rfl hlater
  | @refuse other nextTicket found request complete next error hfound hprogress hplain hticket =>
      have hlater := hidle r.codec hfound (.running (next (.error error))) (by simp) hticket
      rcases eq_or_ne other id with rfl | hne
      · obtain rfl := Option.some.inj (hcall.symm.trans hfound)
        rw [hprogress]
        exact ⟨_, hset _, .refuse hlater hplain⟩
      · exact hother hne rfl hlater
  | @accept other found request complete next hfound hprogress =>
      rcases eq_or_ne other id with rfl | hne
      · obtain rfl := Option.some.inj (hcall.symm.trans hfound)
        rw [hprogress]
        refine ⟨_, hset _, .accept rfl rfl fun mine ticket hwaits => ?_⟩
        rcases waitsFor_set hcall hwaits with ⟨hsame, hticket⟩ | ⟨-, hbefore⟩
        · exact .inl ⟨hsame, (Option.some.inj hticket).symm⟩
        · exact .inr hbefore
      · exact hother hne rfl (.of_accept hfound hne)
  | @leave other ticket found reply next result hfound hprogress hresult =>
      rcases eq_or_ne other id with rfl | hne
      · obtain rfl := Option.some.inj (hcall.symm.trans hfound)
        rw [hprogress]
        refine ⟨_, hset _, .leave hresult rfl rfl fun mine own hwaits => ?_⟩
        rcases waitsFor_set hcall hwaits with ⟨-, hticket⟩ | hbefore
        · simp [Call.ticket?] at hticket
        · exact hbefore
      · exact hother hne rfl (.of_leave hfound hprogress hne)
  | @drop other found told hfound htold =>
      rcases eq_or_ne other id with rfl | hne
      · exact ⟨_, hset _, .drop⟩
      · refine hother hne rfl ?_
        rcases htold with rfl | ⟨ticket, rfl⟩
        · exact hidle r.codec hfound .dropped (by simp) (Nat.le_refl _)
        · exact .of_later rfl (by simp) (.set_idle hfound (by simp)) (Nat.le_refl _)

/-! ## Numbers -/

/-- **What a roll loses and gains** with an update: a request is accepted of a call that is there,
and who stops waiting has waited. -/
structure Roll.Grows (r r' : Roll α) : Prop where
  framing : r'.codec.framing = r.codec.framing
  ticket : r.nextTicket ≤ r'.nextTicket
  calls : r.calls.length ≤ r'.calls.length
  accepted : ∀ ticket id, .accepted ticket id ∈ r'.told →
    .accepted ticket id ∈ r.told ∨ id < r.calls.length
  returned : ∀ ticket result, .returned ticket result ∈ r'.told →
    .returned ticket result ∈ r.told ∨ ∃ id, WaitsFor r.calls id ticket

lemma length_refused (items : List Queued) (calls : List (Call α)) :
    (items.foldl (fun calls item =>
      calls.modify item.call (Call.handed item.ticket (.error .disposed))) calls).length
        = calls.length := by
  induction items generalizing calls with
  | nil => rfl
  | cons item items ih => exact (ih _).trans (List.length_modify ..)

lemma Update.grows {r r' : Roll α} (hupdate : Update r r') : r.Grows r' := by
  cases hupdate with
  | deliver hplain =>
      exact ⟨rfl, Nat.le_refl _, by simp, fun _ _ h => .inl (by simpa using h),
        fun _ _ h => .inl (by simpa using h)⟩
  | refuseQueued items =>
      exact ⟨rfl, Nat.le_refl _, Nat.le_of_eq (length_refused _ _).symm, fun _ _ h => .inl h,
        fun _ _ h => .inl h⟩
  | refuse hcall hprogress hplain hticket =>
      exact ⟨rfl, hticket, by simp, fun _ _ h => .inl h, fun _ _ h => .inl h⟩
  | @accept other call request complete next hcall hprogress =>
      refine ⟨rfl, Nat.le_succ _, by simp, fun ticket id h => ?_,
        fun _ _ h => .inl (by simpa using h)⟩
      rcases List.mem_append.mp h with hold | hnew
      · exact .inl hold
      · obtain ⟨-, rfl⟩ := Occurrence.accepted.inj (List.mem_singleton.mp hnew)
        exact .inr (List.getElem?_eq_some_iff.mp hcall).1
  | @leave other ticket call reply next result hcall hprogress hresult =>
      refine ⟨rfl, Nat.le_refl _, by simp, fun _ _ h => .inl (by simpa using h),
        fun own got h => ?_⟩
      rcases List.mem_append.mp h with hold | hnew
      · exact .inl hold
      · obtain ⟨rfl, -⟩ := Occurrence.returned.inj (List.mem_singleton.mp hnew)
        exact .inr ⟨other, waitsFor_iff.mpr ⟨call, hcall, by rw [Call.ticket?, hprogress]⟩⟩
  | drop hcall htold =>
      refine ⟨rfl, Nat.le_refl _, by simp, fun _ _ h => .inl ?_, fun _ _ h => .inl ?_⟩
      all_goals
        rcases htold with rfl | ⟨ticket, rfl⟩
        · exact h
        · simpa using h
  | _ =>
      exact ⟨rfl, Nat.le_refl _, by simp, fun _ _ h => .inl h, fun _ _ h => .inl h⟩

/-- What is told stays told. -/
lemma Update.told_subset {r r' : Roll α} (hupdate : Update r r') : r.told ⊆ r'.told := by
  cases hupdate with
  | deliver | accept | leave => exact List.subset_append_left _ _
  | drop hcall htold =>
      rcases htold with rfl | ⟨ticket, rfl⟩
      · exact List.Subset.refl _
      · exact List.subset_append_left _ _
  | _ => exact List.Subset.refl _

/-- **Tickets and calls are numbered in order**, and what is told of them is of numbers that were
given. -/
structure Roll.Numbered (r : Roll α) : Prop where
  waiting : ∀ id ticket, WaitsFor r.calls id ticket → ticket < r.nextTicket
  returned : ∀ ticket result, .returned ticket result ∈ r.told → ticket < r.nextTicket
  accepted : ∀ ticket id, .accepted ticket id ∈ r.told → id < r.calls.length

lemma Roll.Numbered.of_grows {r r' : Roll α} (h : r.Numbered) (hgrows : r.Grows r')
    (hwaiting : ∀ id ticket, WaitsFor r'.calls id ticket → ticket < r'.nextTicket) :
    r'.Numbered where
  waiting := hwaiting
  returned ticket result hreturned := by
    refine Nat.lt_of_lt_of_le ?_ hgrows.ticket
    rcases hgrows.returned ticket result hreturned with hold | ⟨id, hwaits⟩
    · exact h.returned ticket result hold
    · exact h.waiting id ticket hwaits
  accepted ticket id haccepted := by
    refine Nat.lt_of_lt_of_le ?_ hgrows.calls
    exact (hgrows.accepted ticket id haccepted).elim (h.accepted ticket id) fun hid => hid

/-! ## Errands -/

lemma Came.of_apart {r r' : Roll α} {id : Nat} {result : Result Bytes} (h : Came r id result)
    (hapart : Apart r r' id) : Came r' id result := by
  cases h with
  | refused hnone => exact .refused (hapart.not_accepted hnone)
  | @returned ticket _ haccepted hreturned hleft hspent =>
      refine .returned (fun other => (hapart.accepted other).trans (haccepted other))
        (fun other => ⟨fun h => ?_, fun h => hapart.kept ((hreturned other).mpr h)⟩)
        (fun other hwaits => ?_) (Nat.lt_of_lt_of_le hspent hapart.ticket)
      · rcases hapart.returned ticket other h with hold | ⟨mine, -, hwaits⟩
        · exact (hreturned other).mp hold
        · exact absurd hwaits (hleft mine)
      · rcases hapart.waits other ticket hwaits with hbefore | hnew
        · exact hleft other hbefore
        · exact absurd hspent (Nat.not_lt.mpr hnew)

/-- **A program with one exchange.**  It frames a PDU for a unit, hands the frame over and ends with
what it makes of the result. -/
structure Errand (α : Type) where
  framing : Framing
  unit : UnitId
  pdu : Bytes
  complete : Bytes → Bool
  conclude : Bytes → Result Bytes → Result α

namespace Errand

/-- The frame of an errand under a transaction number. -/
def frame (errand : Errand α) (transaction : UInt16) : Bytes :=
  errand.framing.wrap ⟨errand.unit, some transaction⟩ errand.pdu

/-- What an errand comes to with its frame made. -/
def handing (errand : Errand α) (sent : Bytes) : Operation α :=
  .invoke sent errand.complete fun reply => .done (errand.conclude sent reply)

def operation (errand : Errand α) : Operation α :=
  .frame errand.unit errand.pdu errand.handing

/-- **Where a call with an errand is**, what is told of it there, and that the number of its frame
is one of those `numbers` under which it was framed. -/
inductive Place (errand : Errand α) (numbers : UInt16 → Prop) (r : Roll α) (id : Nat) :
    Progress α → Prop where
  | posed (hnone : ¬ Accepted r.told id) : Place errand numbers r id (.running errand.operation)
  | framed {transaction : UInt16} (hnumber : numbers transaction) (hnone : ¬ Accepted r.told id) :
      Place errand numbers r id (.running (errand.handing (errand.frame transaction)))
  | waiting {transaction : UInt16} (hnumber : numbers transaction) {ticket : Nat}
      {reply : Option (Result Bytes)} (hplain : ∀ result, reply = some result → Result.Plain result)
      (haccepted : ∀ other, .accepted other id ∈ r.told ↔ other = ticket)
      (hreturned : ∀ result, .returned ticket result ∉ r.told)
      (halone : ∀ other, WaitsFor r.calls other ticket → other = id)
      (hspent : ticket < r.nextTicket) :
      Place errand numbers r id (.waiting ticket reply
        fun reply => .done (errand.conclude (errand.frame transaction) reply))
  | settled {transaction : UInt16} (hnumber : numbers transaction) {result : Result Bytes}
      (hplain : Result.Plain result) (hcame : Came r id result) :
      Place errand numbers r id
        (.running (.done (errand.conclude (errand.frame transaction) result)))
  | ended {transaction : UInt16} (hnumber : numbers transaction) {result : Result Bytes}
      (hplain : Result.Plain result) (hcame : Came r id result) :
      Place errand numbers r id (.finished (errand.conclude (errand.frame transaction) result))
  | dropped : Place errand numbers r id .dropped

namespace Place

variable {errand : Errand α} {numbers : UInt16 → Prop} {r r' : Roll α} {id : Nat} {call : Call α}

/-- What happens to others leaves a call where it is. -/
lemma of_apart {progress : Progress α} (h : errand.Place numbers r id progress)
    (hapart : Apart r r' id) : errand.Place numbers r' id progress := by
  cases h with
  | posed hnone => exact .posed (hapart.not_accepted hnone)
  | framed hnumber hnone => exact .framed hnumber (hapart.not_accepted hnone)
  | @waiting _ hnumber ticket reply hplain haccepted hreturned halone hspent =>
      refine .waiting hnumber hplain
        (fun other => (hapart.accepted other).trans (haccepted other)) (fun result h => ?_)
        (fun other hwaits => ?_) (Nat.lt_of_lt_of_le hspent hapart.ticket)
      · rcases hapart.returned ticket result h with hold | ⟨other, hother, hwaits⟩
        · exact hreturned result hold
        · exact hother (halone other hwaits)
      · rcases hapart.waits other ticket hwaits with hbefore | hnew
        · exact halone other hbefore
        · exact absurd hspent (Nat.not_lt.mpr hnew)
  | settled hnumber hplain hcame => exact .settled hnumber hplain (hcame.of_apart hapart)
  | ended hnumber hplain hcame => exact .ended hnumber hplain (hcame.of_apart hapart)
  | dropped => exact .dropped

/-- **What happens to a call with an errand** leads from one of its places to one of its places. -/
lemma of_moves {progress after : Progress α} (h : errand.Place numbers r id progress)
    (hnumbered : r.Numbered) (hframing : r.codec.framing = errand.framing)
    (hmoves : Moves r r' id progress after)
    (hnumbers : ∀ transaction,
      after = .running (errand.handing (errand.frame transaction)) → numbers transaction) :
    errand.Place numbers r' id after := by
  cases hmoves with
  | stay hapart => exact h.of_apart hapart
  | drop => exact .dropped
  | reply hapart hplain =>
      refine Place.of_apart ?_ hapart
      cases h with
      | waiting hnumber _ haccepted hreturned halone hspent =>
          refine .waiting hnumber ?_ haccepted hreturned halone hspent
          rintro _ ⟨⟩
          exact hplain
  | finish hapart =>
      refine Place.of_apart ?_ hapart
      cases h with
      | settled hnumber hplain hcame => exact .ended hnumber hplain hcame
  | frame hapart =>
      refine Place.of_apart ?_ hapart
      cases h with
      | posed hnone =>
          have hframed : (r.codec.request errand.unit errand.pdu).1
              = errand.frame r.codec.transaction := by
            rw [Codec.request, frame, hframing]
          rw [hframed] at hnumbers ⊢
          exact .framed (hnumbers _ rfl) hnone
  | refuse hapart hplain =>
      refine Place.of_apart ?_ hapart
      cases h with
      | framed hnumber hnone =>
          exact .settled hnumber (Result.plain_error hplain) (.refused hnone)
  | accept htold hticket hwaits =>
      cases h with
      | framed hnumber hnone =>
          -- Nobody has had this ticket before, and nothing has been told of it.
          refine .waiting hnumber nofun (fun other => ?_) (fun result hreturned => ?_)
            (fun other hmine => ?_) (hticket ▸ Nat.lt_succ_self _)
          · rw [htold, List.mem_append, or_iff_right fun hold => hnone ⟨other, hold⟩]
            simp
          · have hold : .returned r.nextTicket result ∈ r.told := by
              simpa [htold] using hreturned
            exact absurd (hnumbered.returned _ _ hold) (Nat.lt_irrefl _)
          · rcases hwaits other _ hmine with ⟨hsame, -⟩ | hbefore
            · exact hsame
            · exact absurd (hnumbered.waiting other _ hbefore) (Nat.lt_irrefl _)
  | leave hresult htold hticket hwaits =>
      cases h with
      | waiting hnumber hplain haccepted hreturned halone hspent =>
          refine .settled hnumber (hresult.elim (hplain _) fun h => h)
            (.returned (fun other => by simpa [htold] using haccepted other) (fun other => ?_)
              (fun other hmine => ?_) (hticket ▸ hspent))
          · rw [htold, List.mem_append, or_iff_right (hreturned other)]
            simp
          · obtain ⟨hother, hbefore⟩ := hwaits other _ hmine
            exact hother (halone other hbefore)

end Place

end Errand

/-! ## Runs -/

/-- **A connection in order**, whose frames are made in one framing. -/
structure Orderly (framing : Framing) (connection : Connection σ α) : Prop where
  accounts : connection.docket.Accounts
  numbered : connection.roll.Numbered
  framing : connection.codec.framing = framing

namespace Orderly

variable {framing : Framing} {connection later : Connection σ α}

lemma of_update (h : Orderly framing connection)
    (hamendment : Amendment connection.docket later.docket)
    (hupdate : Update connection.roll later.roll) : Orderly framing later := by
  have haccounts := h.accounts.of_amendment hamendment
  exact ⟨haccounts, h.numbered.of_grows hupdate.grows haccounts.tickets.bound,
    hupdate.grows.framing.trans h.framing⟩

lemma of_happening [Peer σ] (h : Orderly framing connection) (happening : Happening α) :
    Orderly framing (connection.happen happening) :=
  h.of_update (amendment_of_happening connection happening)
    (update_of_happening h.accounts happening)

lemma of_run [Peer σ] : ∀ (happenings : List (Happening α)) {connection : Connection σ α},
    Orderly framing connection → Orderly framing (connection.runOver happenings)
  | [], _, h => h
  | happening :: happenings, _, h => of_run happenings (h.of_happening happening)

lemma of_create (name : String) (timing : Timing) (framing : Framing) (wire : Wire σ) :
    Orderly framing (create name timing framing wire : Connection σ α) where
  accounts := accounts_create name timing framing wire
  numbered := by constructor <;> simp [roll, create, WaitsFor, occurrences]
  framing := rfl

end Orderly

/-- A call is at a place at some moment of a run. -/
def Visits [Peer σ] (connection : Connection σ α) (happenings : List (Happening α)) (id : Nat)
    (progress : Progress α) : Prop :=
  ∃ before after call, happenings = before ++ after ∧
    (connection.runOver before).calls[id]? = some call ∧ call.progress = progress

/-- **The frame that a call hands over** in a run. -/
def HandsOver [Peer σ] (connection : Connection σ α) (happenings : List (Happening α)) (id : Nat)
    (frame : Bytes) : Prop :=
  ∃ complete next, Visits connection happenings id (.running (.invoke frame complete next))

lemma Visits.cons [Peer σ] {connection : Connection σ α} {happening : Happening α}
    {happenings : List (Happening α)} {id : Nat} {progress : Progress α}
    (h : Visits (connection.happen happening) happenings id progress) :
    Visits connection (happening :: happenings) id progress := by
  obtain ⟨before, after, call, rfl, hcall, hprogress⟩ := h
  exact ⟨happening :: before, after, call, rfl, hcall, hprogress⟩

/-- **What every move of a call keeps, every run keeps.** -/
lemma followed_of_run [Peer σ] {framing : Framing} {id : Nat}
    {motive : Roll α → Progress α → Prop} :
    ∀ (happenings : List (Happening α)) (connection : Connection σ α) (call : Call α),
      Orderly framing connection → connection.calls[id]? = some call →
        motive connection.roll call.progress →
          (∀ r r' progress after, motive r progress → r.Numbered → r.codec.framing = framing →
            Moves r r' id progress after → Visits connection happenings id after →
              motive r' after) →
            ∃ after, (connection.runOver happenings).calls[id]? = some after ∧
              motive (connection.runOver happenings).roll after.progress
  | [], _, call, _, hcall, h, _ => ⟨call, hcall, h⟩
  | happening :: happenings, connection, call, horderly, hcall, h, hmoves => by
      have hupdate := update_of_happening horderly.accounts happening
      obtain ⟨after, hafter, hmove⟩ := hupdate.moves hcall
      have hvisits : Visits connection (happening :: happenings) id after.progress :=
        ⟨[happening], happenings, after, rfl, hafter, rfl⟩
      exact followed_of_run happenings (connection.happen happening) after
        (horderly.of_happening happening) hafter
        (hmoves _ _ _ _ h horderly.numbered horderly.framing hmove hvisits)
        fun r r' progress after h hnumbered hframing hmove hvisits =>
          hmoves r r' progress after h hnumbered hframing hmove hvisits.cons

/-- **A call from its start on**, on a connection that has been used before. -/
lemma followed_of_start [Peer σ] (name : String) (timing : Timing) {framing : Framing}
    (wire : Wire σ) (before later : List (Happening α)) (operation : Operation α)
    (cancelled : Bool) :
    let reached : Connection σ α := (create name timing framing wire).runOver before
    let id := reached.calls.length
    let started := (Caller.start reached operation cancelled).2
    let final := started.runOver later
    ∀ motive : Roll α → Progress α → Prop,
      (∀ r, ¬ Accepted r.told id → motive r (.running operation)) →
        (∀ r r' progress after, motive r progress → r.Numbered → r.codec.framing = framing →
          Moves r r' id progress after → Visits started later id after → motive r' after) →
          ∃ call, final.calls[id]? = some call ∧ motive final.roll call.progress := by
  intro reached id started final motive hstart hmoves
  have hreached : Orderly framing reached := (Orderly.of_create ..).of_run before
  have hstarted : Orderly framing started :=
    hreached.of_update (.start operation cancelled) (.start operation cancelled)
  have hcall : started.calls[id]? = some ⟨cancelled, .running operation⟩ :=
    List.getElem?_concat_length
  have hnone : ¬ Accepted started.roll.told id := by
    rintro ⟨ticket, haccepted⟩
    exact Nat.lt_irrefl _ (hreached.numbered.accepted ticket id haccepted)
  exact followed_of_run later started _ hstarted hcall (hstart _ hnone) hmoves

/-- **A call from its start to its outcome**, on a connection that has been used before. -/
lemma outcome_of_moves [Peer σ] (name : String) (timing : Timing) {framing : Framing}
    (wire : Wire σ) (before later : List (Happening α)) {operation : Operation α}
    (cancelled : Bool) {outcome : Result α} :
    let reached : Connection σ α := (create name timing framing wire).runOver before
    let id := reached.calls.length
    let started := (Caller.start reached operation cancelled).2
    let final := started.runOver later
    ∀ motive : Roll α → Progress α → Prop,
      (∀ r, ¬ Accepted r.told id → motive r (.running operation)) →
        (∀ r r' progress after, motive r progress → r.Numbered → r.codec.framing = framing →
          Moves r r' id progress after → Visits started later id after → motive r' after) →
          final.outcome? id = some outcome → motive final.roll (.finished outcome) := by
  intro reached id started final motive hstart hmoves houtcome
  obtain ⟨call, hfinal, hmotive⟩ :=
    followed_of_start name timing wire before later operation cancelled motive hstart hmoves
  rw [outcome?, hfinal, Option.map_some] at houtcome
  split at houtcome
  · rename_i got hprogress
    rw [← Option.some.inj houtcome, ← Option.some.inj hprogress]
    exact hmotive
  · simp at houtcome

lemma accepted_roll (connection : Connection σ α) (id : Nat) :
    Accepted connection.roll.told id ↔ Accepted (occurrences connection.history) id := by
  simp [Accepted, roll, tellsOfCall]

lemma cameBack_roll (connection : Connection σ α) (id : Nat) (bytes : Bytes) :
    CameBack connection.roll.told id bytes ↔
      CameBack (occurrences connection.history) id bytes := by
  simp [CameBack, roll, tellsOfCall]

/-- **What came back for a call** came back for it for good. -/
lemma Orderly.cameBack [Peer σ] {framing : Framing} {connection : Connection σ α} {id : Nat}
    {bytes : Bytes} (horderly : Orderly framing connection) (happening : Happening α)
    (h : CameBack (occurrences connection.history) id bytes) :
    CameBack (occurrences (connection.happen happening).history) id bytes := by
  rw [← cameBack_roll] at h ⊢
  have hsubset := (update_of_happening horderly.accounts happening).told_subset
  obtain ⟨ticket, haccepted, hreturned⟩ := h
  exact ⟨ticket, hsubset haccepted, hsubset hreturned⟩

/-- **What an errand comes to**: what it makes of a result that came from the link, for the frame
that it handed over.  Bytes came back for its call exactly if they are that result. -/
theorem Errand.ran_of_outcome [Peer σ] (errand : Errand α) (name : String) (timing : Timing)
    (wire : Wire σ) (before later : List (Happening α)) (cancelled : Bool) (outcome : Result α) :
    let reached : Connection σ α := (create name timing errand.framing wire).runOver before
    let id := reached.calls.length
    let started := (Caller.start reached errand.operation cancelled).2
    let final := started.runOver later
    final.outcome? id = some outcome →
      ∃ transaction result, HandsOver started later id (errand.frame transaction) ∧
        outcome = errand.conclude (errand.frame transaction) result ∧ Result.Plain result ∧
          ∀ bytes, CameBack (occurrences final.history) id bytes ↔ result = .ok bytes := by
  intro reached id started final houtcome
  let numbers (transaction : UInt16) : Prop :=
    HandsOver started later id (errand.frame transaction)
  have hplace : errand.Place numbers final.roll id (.finished outcome) := by
    refine outcome_of_moves name timing wire before later cancelled
      (fun r => errand.Place numbers r id) (fun _ hnone => .posed hnone) ?_ houtcome
    intro r r' progress after h hnumbered hframing hmove hvisits
    refine h.of_moves hnumbered hframing hmove fun transaction hafter => ?_
    subst hafter
    exact ⟨_, _, hvisits⟩
  cases hplace with
  | @ended transaction hnumber result hplain hcame =>
      refine ⟨transaction, result, hnumber, rfl, hplain, fun bytes => ?_⟩
      rw [← cameBack_roll]
      exact hcame.cameBack_iff bytes

/-- A call whose program is done at once, with no request accepted. -/
inductive Unasked (known : Result α) (r : Roll α) (id : Nat) : Progress α → Prop where
  | done (hnone : ¬ Accepted r.told id) : Unasked known r id (.running (.done known))
  | ended (hnone : ¬ Accepted r.told id) : Unasked known r id (.finished known)
  | dropped : Unasked known r id .dropped

lemma Unasked.of_moves {known : Result α} {r r' : Roll α} {id : Nat} {progress after : Progress α}
    (h : Unasked known r id progress) (hmoves : Moves r r' id progress after) :
    Unasked known r' id after := by
  cases h with
  | done hnone =>
      cases hmoves with
      | stay hapart => exact .done (hapart.not_accepted hnone)
      | finish hapart => exact .ended (hapart.not_accepted hnone)
      | drop => exact .dropped
  | ended hnone =>
      cases hmoves with
      | stay hapart => exact .ended (hapart.not_accepted hnone)
      | drop => exact .dropped
  | dropped =>
      cases hmoves <;> exact .dropped

/-- **A program that is done at once** comes to its outcome, and no request of it is accepted. -/
theorem unasked_of_outcome [Peer σ] (name : String) (timing : Timing) (framing : Framing)
    (wire : Wire σ) (before later : List (Happening α)) (cancelled : Bool)
    (known outcome : Result α) :
    let reached : Connection σ α := (create name timing framing wire).runOver before
    let id := reached.calls.length
    let final := (Caller.start reached (.done known) cancelled).2.runOver later
    final.outcome? id = some outcome →
      outcome = known ∧ ¬ Accepted (occurrences final.history) id := by
  intro reached id final houtcome
  have hunasked : Unasked known final.roll id (.finished outcome) :=
    outcome_of_moves name timing wire before later cancelled (fun r => Unasked known r id)
      (fun _ hnone => .done hnone) (fun _ _ _ _ h _ _ hmove _ => h.of_moves hmove) houtcome
  cases hunasked with
  | ended hnone => exact ⟨rfl, fun haccepted => hnone ((accepted_roll _ _).mpr haccepted)⟩

end Modbus.Connection
