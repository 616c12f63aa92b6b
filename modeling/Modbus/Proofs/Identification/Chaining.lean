import Mathlib.Data.List.Chain
import Mathlib.Data.List.Perm.Subperm
import Modbus.Proofs.Connection.Trips

/-!
# Identification chains end

The device decides where the next page of an identification begins, and a client that trusted it
would follow it for ever.  What a client does with a device that says whatever it likes is told by
its `Asking`s: which object it asked for, under which number, and what came back.  An `AskChain` is
such a list with the reasons for which it goes on and for which it ends.  The program that reads an
identification makes chains and nothing else (`Client.goes_identificationFrom`), and there is a
chain for every device (`AskChain.exists_chain`).

What everything rests on is that a chain goes on with higher objects only, of which there are 256.
-/

namespace Modbus

/-- **One request for a page** and what came back for it. -/
structure Asking where
  object : UInt8
  transaction : UInt16
  reply : Result Bytes

section Chains

variable (framing : Framing) (unit : UnitId) (category : Category)

namespace Asking

def frame (asking : Asking) : Bytes :=
  framing.wrap ⟨unit, some asking.transaction⟩ (Request.identifyPdu category asking.object)

def exchange (asking : Asking) : Bytes × Result Bytes :=
  (asking.frame framing unit category, asking.reply)

/-- The page that came back, if what came back is one. -/
def page (asking : Asking) : Result Fragment := do
  let response ← asking.reply
  framing.validate (asking.frame framing unit category) response
  framing.readFragment response

/-- **A request follows another** where its page sends the client, which has to be further on. -/
def Follows (asking next : Asking) : Prop :=
  ∃ page, asking.page framing unit category = .ok page ∧ page.moreFollows = true ∧
    asking.object < page.nextObject ∧ next.object = page.nextObject

/-- **The last request decides**: the outcome is its error if there is one, an error if its page
sends the client back, and otherwise the page is the last and the outcome is a value. -/
def Decides (last : Asking) (outcome : Result Identification) : Prop :=
  match last.page framing unit category with
  | .error error => outcome = .error error
  | .ok page =>
    if page.moreFollows then page.nextObject ≤ last.object ∧
      outcome = .error (.framing (.chainStalled page.nextObject last.object))
    else ∃ identification, outcome = .ok identification

end Asking

/-- **A chain of requests** for pages from `object` on, when earlier pages gave `before`. -/
inductive AskChain : UInt8 → Identification → List Asking → Result Identification → Prop where
  | failed {asking : Asking} {before : Identification} {error : Error}
      (hpage : asking.page framing unit category = .error error) :
      AskChain asking.object before [asking] (.error error)
  | last {asking : Asking} {before : Identification} {page : Fragment}
      (hpage : asking.page framing unit category = .ok page) (hmore : page.moreFollows = false) :
      AskChain asking.object before [asking] (.ok (before.merge page))
  | stalled {asking : Asking} {before : Identification} {page : Fragment}
      (hpage : asking.page framing unit category = .ok page) (hmore : page.moreFollows = true)
      (hback : page.nextObject ≤ asking.object) :
      AskChain asking.object before [asking]
        (.error (.framing (.chainStalled page.nextObject asking.object)))
  | next {asking : Asking} {before : Identification} {page : Fragment} {later : List Asking}
      {outcome : Result Identification}
      (hpage : asking.page framing unit category = .ok page) (hmore : page.moreFollows = true)
      (hon : asking.object < page.nextObject)
      (hlater : AskChain page.nextObject (before.merge page) later outcome) :
      AskChain asking.object before (asking :: later) outcome

/-- **What reading an identification comes to**, whatever the device says. -/
structure Chained (asked : List Asking) (outcome : Result Identification) : Prop where
  first : asked.head?.map Asking.object = some 0x00
  ascending : (asked.map Asking.object).Pairwise (· < ·)
  few : asked.length ≤ 256
  /-- Each request but the last got a page that leads to the next. -/
  follows : asked.IsChain (Asking.Follows framing unit category)
  decided : ∃ earlier last, asked = earlier ++ [last] ∧
    last.Decides framing unit category outcome
  /-- A value is made of all pages that came, one after the other. -/
  merged : ∀ identification, outcome = .ok identification →
    ∃ pages : List Fragment, asked.map (Asking.page framing unit category) = pages.map .ok ∧
      identification = pages.foldl Identification.merge {}

end Chains

variable {framing : Framing} {unit : UnitId} {category : Category}

/-! ## The program makes chains -/

namespace Client

lemma goes_fragment {object : UInt8} {exchanges : List (Bytes × Result Bytes)}
    {outcome : Result Fragment} :
    (fragment framing unit category object).Goes framing exchanges outcome ↔
      ∃ asking : Asking, asking.object = object ∧
        exchanges = [asking.exchange framing unit category] ∧
        outcome = asking.page framing unit category := by
  rw [fragment, goes_exchange]
  constructor
  · rintro ⟨transaction, reply, rfl, rfl⟩
    exact ⟨⟨object, transaction, reply⟩, rfl, rfl, rfl⟩
  · rintro ⟨asking, rfl, rfl, rfl⟩
    exact ⟨asking.transaction, asking.reply, rfl, rfl⟩

/-- **Reading an identification** makes a chain of requests, and any chain can be made. -/
lemma goes_identificationFrom (object : UInt8) (before : Identification)
    {exchanges : List (Bytes × Result Bytes)} {outcome : Result Identification} :
    (identificationFrom framing unit category object before).Goes framing exchanges outcome ↔
      ∃ asked, exchanges = asked.map (Asking.exchange framing unit category) ∧
        AskChain framing unit category object before asked outcome := by
  induction object, before using identificationFrom.induct generalizing exchanges with
  | case1 object before ih =>
      rw [identificationFrom, Operation.goes_bind]
      constructor
      · rintro (⟨error, hfragment, rfl⟩ | ⟨first, later, page, rfl, hfragment, hlater⟩)
        · obtain ⟨asking, rfl, rfl, hpage⟩ := goes_fragment.mp hfragment
          exact ⟨[asking], rfl, .failed hpage.symm⟩
        · obtain ⟨asking, rfl, rfl, hpage⟩ := goes_fragment.mp hfragment
          dsimp only at hlater
          split_ifs at hlater with hmore hback
          · obtain ⟨rfl, rfl⟩ := Operation.goes_ofResult.mp hlater
            exact ⟨[asking], rfl, .stalled hpage.symm hmore hback⟩
          · obtain ⟨asked, rfl, hchain⟩ := (ih page hback).mp hlater
            exact ⟨asking :: asked, rfl, .next hpage.symm hmore (UInt8.not_le.mp hback) hchain⟩
          · obtain ⟨rfl, rfl⟩ := Operation.goes_ofResult.mp hlater
            exact ⟨[asking], rfl, .last hpage.symm (Bool.eq_false_iff.mpr hmore)⟩
      · rintro ⟨asked, rfl, hchain⟩
        cases hchain with
        | @failed asking _ error hpage =>
            exact .inl ⟨error, goes_fragment.mpr ⟨asking, rfl, rfl, hpage.symm⟩, rfl⟩
        | @last asking _ page hpage hmore =>
            refine .inr ⟨_, [], page, rfl, goes_fragment.mpr ⟨asking, rfl, rfl, hpage.symm⟩, ?_⟩
            simp only [hmore, Bool.false_eq_true, if_false]
            exact .done _
        | @stalled asking _ page hpage hmore hback =>
            refine .inr ⟨_, [], page, rfl, goes_fragment.mpr ⟨asking, rfl, rfl, hpage.symm⟩, ?_⟩
            simp only [hmore, if_true, if_pos hback]
            exact .done _
        | @next asking _ page later _ hpage hmore hon hlater =>
            refine .inr ⟨[asking.exchange framing unit category], _, page, rfl,
              goes_fragment.mpr ⟨asking, rfl, rfl, hpage.symm⟩, ?_⟩
            have hback := UInt8.not_le.mpr hon
            simp only [hmore, if_true, if_neg hback]
            exact (ih page hback).mpr ⟨later, rfl, hlater⟩

end Client

/-! ## What chains are like -/

namespace AskChain

variable {object : UInt8} {before : Identification} {asked : List Asking}
  {outcome : Result Identification}

lemma head_object (h : AskChain framing unit category object before asked outcome) :
    asked.head?.map Asking.object = some object := by
  cases h <;> rfl

lemma isChain (h : AskChain framing unit category object before asked outcome) :
    asked.IsChain (Asking.Follows framing unit category) := by
  induction h with
  | failed _ => exact .singleton _
  | last _ _ => exact .singleton _
  | stalled _ _ _ => exact .singleton _
  | @next asking _ page later _ hpage hmore hon hlater ih =>
      cases later with
      | nil => exact .singleton _
      | cons next later =>
          have hnext : next.object = page.nextObject := by simpa using hlater.head_object
          exact .cons_cons ⟨page, hpage, hmore, hon, hnext⟩ ih

lemma decided (h : AskChain framing unit category object before asked outcome) :
    ∃ earlier last, asked = earlier ++ [last] ∧ last.Decides framing unit category outcome := by
  induction h with
  | @failed asking _ error hpage => exact ⟨[], asking, rfl, by simp [Asking.Decides, hpage]⟩
  | @last asking _ page hpage hmore =>
      exact ⟨[], asking, rfl, by simp [Asking.Decides, hpage, hmore]⟩
  | @stalled asking _ page hpage hmore hback =>
      exact ⟨[], asking, rfl, by simp [Asking.Decides, hpage, hmore, hback]⟩
  | @next asking _ page _ _ _ _ _ _ ih =>
      obtain ⟨earlier, last, rfl, hlast⟩ := ih
      exact ⟨asking :: earlier, last, rfl, hlast⟩

/-- **A value is the merge of all pages** that came. -/
lemma merged (h : AskChain framing unit category object before asked outcome)
    {identification : Identification} (hvalue : outcome = .ok identification) :
    ∃ pages : List Fragment, asked.map (Asking.page framing unit category) = pages.map .ok ∧
      identification = pages.foldl Identification.merge before := by
  induction h with
  | failed _ => simp at hvalue
  | stalled _ _ _ => simp at hvalue
  | @last asking _ page hpage _ =>
      exact ⟨[page], by simp [hpage], (Except.ok.inj hvalue).symm⟩
  | @next asking _ page _ _ hpage _ _ _ ih =>
      obtain ⟨pages, hpages, hmerge⟩ := ih hvalue
      exact ⟨page :: pages, by simp [hpage, hpages], hmerge⟩

/-- **There is a chain for every device**, whatever it makes of what it was sent before, and
whatever the numbers are. -/
lemma exists_chain (framing : Framing) (unit : UnitId) (category : Category) (object : UInt8)
    (before : Identification) (numbers : Nat → UInt16)
    (device : List (Bytes × Result Bytes) → Bytes → Result Bytes) :
    ∃ asked outcome, AskChain framing unit category object before asked outcome ∧
      ∀ earlier asking later, asked = earlier ++ asking :: later →
        asking.transaction = numbers earlier.length ∧
          asking.reply = device (earlier.map (Asking.exchange framing unit category))
            (asking.frame framing unit category) := by
  induction object, before using Client.identificationFrom.induct generalizing numbers device with
  | case1 object before ih =>
      let asking : Asking := ⟨object, numbers 0, device []
        (framing.wrap ⟨unit, some (numbers 0)⟩ (Request.identifyPdu category object))⟩
      -- A device that has answered once is a device that remembers one exchange more.
      have hcons (asked : List Asking)
          (hasked : ∀ earlier other later, asked = earlier ++ other :: later →
            other.transaction = numbers (earlier.length + 1) ∧
              other.reply = device (asking.exchange framing unit category
                  :: earlier.map (Asking.exchange framing unit category))
                (other.frame framing unit category)) :
          ∀ earlier other later, asking :: asked = earlier ++ other :: later →
            other.transaction = numbers earlier.length ∧
              other.reply = device (earlier.map (Asking.exchange framing unit category))
                (other.frame framing unit category) := by
        intro earlier other later hsplit
        cases earlier with
        | nil =>
            obtain ⟨rfl, -⟩ := List.cons.inj hsplit
            exact ⟨rfl, rfl⟩
        | cons first earlier =>
            obtain ⟨rfl, hrest⟩ := List.cons.inj hsplit
            exact hasked earlier other later hrest
      have halone := hcons [] (by simp)
      cases hpage : asking.page framing unit category with
      | error error => exact ⟨[asking], .error error, .failed hpage, halone⟩
      | ok page =>
          cases hmore : page.moreFollows with
          | false => exact ⟨[asking], _, .last hpage hmore, halone⟩
          | true =>
              by_cases hback : page.nextObject ≤ object
              · exact ⟨[asking], _, .stalled hpage hmore hback, halone⟩
              · obtain ⟨asked, outcome, hchain, hasked⟩ := ih page hback
                  (fun position => numbers (position + 1))
                  (fun past => device (asking.exchange framing unit category :: past))
                exact ⟨asking :: asked, outcome,
                  .next hpage hmore (UInt8.not_le.mp hback) hchain, hcons asked hasked⟩

end AskChain

/-- There are no more than 256 objects in ascending order. -/
lemma length_le_of_ascending {objects : List UInt8} (h : objects.Pairwise (· < ·)) :
    objects.length ≤ 256 := by
  have hbelow : objects.map UInt8.toNat ⊆ List.range 256 := by
    intro value hvalue
    obtain ⟨object, -, rfl⟩ := List.mem_map.mp hvalue
    exact List.mem_range.mpr object.toNat_lt
  have hnodup : (objects.map UInt8.toNat).Nodup :=
    List.pairwise_map.mpr (h.imp fun hlt => Nat.ne_of_lt (UInt8.lt_iff_toNat_lt.mp hlt))
  simpa using (hnodup.subperm hbelow).length_le

/-- **A chain from the first object on is what reading comes to.** -/
lemma AskChain.chained {asked : List Asking} {outcome : Result Identification}
    (h : AskChain framing unit category 0x00 {} asked outcome) :
    Chained framing unit category asked outcome := by
  have hascending : (asked.map Asking.object).Pairwise (· < ·) := by
    rw [List.pairwise_map]
    refine List.IsChain.pairwise (h.isChain.imp ?_)
    rintro asking next ⟨page, -, -, hon, hnext⟩
    rw [hnext]
    exact hon
  exact {
    first := h.head_object
    ascending := hascending
    few := by simpa using length_le_of_ascending hascending
    follows := h.isChain
    decided := h.decided
    merged := fun _ hvalue => h.merged hvalue }

namespace Client

/-- **What the program does** when it reads a stream: a chain from the first object on. -/
lemma goes_identification (hstream : category ≠ .individual)
    {exchanges : List (Bytes × Result Bytes)} {outcome : Result Identification} :
    (identification framing unit category).Goes framing exchanges outcome ↔
      ∃ asked, exchanges = asked.map (Asking.exchange framing unit category) ∧
        AskChain framing unit category 0x00 {} asked outcome := by
  rw [identification, if_neg hstream]
  exact goes_identificationFrom 0x00 {}

lemma length_exchanges_le (hstream : category ≠ .individual)
    {exchanges : List (Bytes × Result Bytes)} {outcome : Result Identification}
    (h : (identification framing unit category).Goes framing exchanges outcome) :
    exchanges.length ≤ 256 := by
  obtain ⟨asked, rfl, hchain⟩ := (goes_identification hstream).mp h
  simpa using hchain.chained.few

/-- **Reading an identification ends against any device.**  Whatever the device answers, in view of
all that it was sent before, the program comes to an end, and however it comes to one, it has asked
for ascending objects from the first on, at most 256 of them, has followed each page but the last to
where it leads, and ends as the last one decides; a value is the merge of all the pages.

On any connection, used before and shared with others, a call with this program has no more than
256 requests accepted, and if it comes to an outcome, then its trips are such a chain. -/
theorem identification_ends_against_any_device (framing : Framing) (unit : UnitId)
    (category : Category) (hstream : category ≠ .individual) :
    (∀ (numbers : Nat → UInt16) (device : List (Bytes × Result Bytes) → Bytes → Result Bytes),
      ∃ asked outcome,
        (identification framing unit category).Goes framing
          (asked.map (Asking.exchange framing unit category)) outcome ∧
        ∀ earlier asking later, asked = earlier ++ asking :: later →
          asking.transaction = numbers earlier.length ∧
            asking.reply = device (earlier.map (Asking.exchange framing unit category))
              (asking.frame framing unit category)) ∧
    (∀ exchanges outcome, (identification framing unit category).Goes framing exchanges outcome →
      ∃ asked, exchanges = asked.map (Asking.exchange framing unit category) ∧
        Chained framing unit category asked outcome) ∧
    (∀ (σ α : Type) [Peer σ] (name : String) (timing : Timing) (wire : Wire σ)
      (before later : List (Connection.Happening α)) (cancelled : Bool)
      (embed : Identification → α),
      let reached : Connection σ α := (Connection.create name timing framing wire).runOver before
      let id := reached.calls.length
      let started := (Connection.Caller.start reached
        (embed <$> identification framing unit category) cancelled).2
      let final := started.runOver later
      (∀ call, final.calls[id]? = some call → call.progress ≠ .dropped →
        ∃ tickets : List Nat, tickets.length ≤ 256 ∧
          ∀ ticket, .accepted ticket id ∈ Connection.occurrences final.history →
            ticket ∈ tickets) ∧
      ∀ outcome, final.outcome? id = some outcome →
        ∃ asked told trips, Chained framing unit category asked told ∧
          outcome = told.map embed ∧
          trips.map Trip.exchange = asked.map (Asking.exchange framing unit category) ∧
          Connection.Itinerary started later id trips) := by
  refine ⟨fun numbers device => ?_, fun exchanges outcome hgoes => ?_, ?_⟩
  · obtain ⟨asked, outcome, hchain, hasked⟩ :=
      AskChain.exists_chain framing unit category 0x00 {} numbers device
    exact ⟨asked, outcome, (goes_identification hstream).mpr ⟨asked, rfl, hchain⟩, hasked⟩
  · obtain ⟨asked, rfl, hchain⟩ := (goes_identification hstream).mp hgoes
    exact ⟨asked, rfl, hchain.chained⟩
  · intro σ α _ name timing wire before later cancelled embed reached id started final
    constructor
    · intro call hcall hkept
      obtain ⟨tickets, exchanges, outcome, hgoes, hlength, haccepted⟩ :=
        Connection.spared_of_run name timing framing wire before later
          (embed <$> identification framing unit category) cancelled call hcall hkept
      obtain ⟨told, htold, -⟩ := Operation.goes_map.mp hgoes
      exact ⟨tickets, Nat.le_trans hlength (length_exchanges_le hstream htold), haccepted⟩
    · intro outcome houtcome
      obtain ⟨trips, hgoes, hitinerary⟩ :=
        Connection.goes_of_outcome name timing framing wire before later
          (embed <$> identification framing unit category) cancelled outcome houtcome
      obtain ⟨told, htold, houtcome⟩ := Operation.goes_map.mp hgoes
      obtain ⟨asked, hasked, hchain⟩ := (goes_identification hstream).mp htold
      exact ⟨asked, told, trips, hchain.chained, houtcome, hasked, hitinerary⟩

/-- A device that sends the client back to the first object, over and over: its first page is the
last that it is asked for. -/
theorem identification_ends_against_stuck_device :
    let reply : Bytes := [0x11, 0x2B, 0x0E, 0x01, 0x01, 0xFF, 0x00, 0x00, 0x16, 0xEB]
    Category.basic ≠ .individual ∧
      ∃ asking : Asking, asking.object = 0x00 ∧ asking.reply = .ok reply ∧
        (identification .rtu 17 .basic).Goes .rtu [asking.exchange .rtu 17 .basic]
          (.error (.framing (.chainStalled 0x00 0x00))) := by
  intro reply
  have hstream : Category.basic ≠ .individual := by decide
  obtain ⟨hdevices, hruns, -⟩ := identification_ends_against_any_device .rtu 17 .basic hstream
  obtain ⟨given, outcome, hgoes, hgiven⟩ := hdevices (fun _ => 1) fun _ _ => .ok reply
  obtain ⟨asked, hasked, hchained⟩ := hruns _ outcome hgoes
  rw [hasked] at hgoes
  have hreplies : ∀ asking ∈ asked, asking.reply = .ok reply := by
    intro asking hasking
    have hexchange : asking.exchange .rtu 17 .basic ∈ given.map (Asking.exchange .rtu 17 .basic) :=
      hasked ▸ List.mem_map_of_mem hasking
    obtain ⟨other, hother, hsame⟩ := List.mem_map.mp hexchange
    obtain ⟨earlier, later, rfl⟩ := List.append_of_mem hother
    rw [← (Prod.mk.inj hsame).2]
    exact (hgiven earlier other later rfl).2
  have hnumber (transaction : UInt16) : Asking.page .rtu 17 .basic ⟨0x00, transaction, .ok reply⟩
      = Asking.page .rtu 17 .basic ⟨0x00, 1, .ok reply⟩ := rfl
  have hpage (transaction : UInt16) : Asking.page .rtu 17 .basic ⟨0x00, transaction, .ok reply⟩
      = .ok { moreFollows := true } := (hnumber transaction).trans (by decide +kernel)
  obtain ⟨first, rest, rfl⟩ : ∃ first rest, asked = first :: rest := by
    cases asked with
    | nil => simpa using hchained.first
    | cons first rest => exact ⟨first, rest, rfl⟩
  obtain ⟨object, transaction, answer⟩ := first
  obtain rfl : object = 0x00 := by simpa using hchained.first
  obtain rfl : answer = .ok reply := hreplies _ (List.mem_cons_self ..)
  obtain rfl : rest = [] := by
    cases rest with
    | nil => rfl
    | cons next rest =>
        obtain ⟨page, hfirst, -, hon, -⟩ := hchained.follows.rel
        rw [hpage, Except.ok.injEq] at hfirst
        subst hfirst
        exact absurd hon (UInt8.lt_irrefl 0x00)
  obtain ⟨earlier, last, hlast, hdecided⟩ := hchained.decided
  obtain ⟨rfl, rfl⟩ : earlier = [] ∧ last = ⟨0x00, transaction, .ok reply⟩ := by
    cases earlier with
    | nil => exact ⟨rfl, (List.cons.inj hlast).1.symm⟩
    | cons _ earlier => simp at hlast
  simp only [Asking.Decides, hpage, if_true] at hdecided
  rw [hdecided.2] at hgoes
  exact ⟨hstream, _, rfl, rfl, hgoes⟩

end Client

end Modbus
