import Modbus.Proofs.Server.Alignment

/-!
# How a serving loop finds back to requests

What a loop holds back can be the beginning of anything: of a request, of noise, of a frame that
announces more bytes than any frame has.  Requests that come in after it are taken for its
continuation.  This file shows that the loop gets rid of it, whatever it is.

Two facts carry the argument.  What is held back is never a complete request and never more than
the longest frame (`Server.Holdable`); one move of the loop keeps this (`Server.holdable_of_step?`),
so every run does (`Serving.holdable_readAll`).  And a request that comes in as one read meets one
of two fates: it is added to what is held back, which cannot happen for long since that is bounded,
or with it nothing is held back any more (`Server.absorb_cases`).  From then on every request is
read, asked and answered on its own (`Serving.servesEach_of_clear`).
-/

namespace Modbus

/-! ## What is held back -/

/-- **Bytes that a loop may hold back**: no complete request, and no more than the longest frame. -/
structure Server.Holdable (framing : Framing) (pending : Bytes) : Prop where
  incomplete : framing.requestComplete pending = false
  bounded : pending.length ≤ framing.maxAdu

namespace Server

lemma holdable_nil (framing : Framing) : Holdable framing [] where
  incomplete := by cases framing <;> rfl
  bounded := Nat.zero_le _

/-- Whatever was held back before a read, what is held back after it may be. -/
lemma holdable_absorb (framing : Framing) (pending chunk : Bytes) :
    Holdable framing (absorb framing pending chunk).1 := by
  simp only [absorb]
  split_ifs with hcomplete hlong
  · split <;> exact holdable_nil framing
  · exact holdable_nil framing
  · exact ⟨by simpa using hcomplete, Nat.le_of_not_lt hlong⟩

/-- **One move of the loop** keeps what is held back within its bounds. -/
lemma holdable_of_step? {server moved : Server} {asked : Option (UnitId × Request)}
    (hmove : server.step? = some (moved, asked)) (h : Holdable server.framing server.pending) :
    Holdable moved.framing moved.pending := by
  simp only [step?] at hmove
  split at hmove
  · simp at hmove
  split at hmove
  · obtain ⟨rfl, -⟩ := Prod.mk.inj (Option.some.inj hmove)
    exact h
  split at hmove
  · split at hmove
    · obtain ⟨rfl, -⟩ := Prod.mk.inj (Option.some.inj hmove)
      exact h
    · simp at hmove
  -- Only a read changes what is held back.
  · split at hmove
    all_goals
      obtain ⟨rfl, -⟩ := Prod.mk.inj (Option.some.inj hmove)
      exact holdable_absorb _ _ _

/-- Answers do not touch what is held back. -/
lemma holdable_answer {server : Server} (response : Option Response)
    (h : Holdable server.framing server.pending) :
    Holdable (server.answer response).framing (server.answer response).pending := by
  simp only [answer]
  split
  · split_ifs <;> exact h
  · exact h

end Server

namespace Serving

variable {σ : Type}

lemma holdable_settleWithin (handle : Handler σ) (moves : Nat) (serving : Serving σ)
    (h : Server.Holdable serving.server.framing serving.server.pending) :
    Server.Holdable (serving.settleWithin handle moves).server.framing
      (serving.settleWithin handle moves).server.pending := by
  induction moves generalizing serving with
  | zero => exact h
  | succ moves ih =>
      simp only [settleWithin]
      split
      · rename_i moved hmove
        refine ih moved ?_
        simp only [step?] at hmove
        split at hmove
        · simp at hmove
        · rename_i server hserver
          obtain rfl := Option.some.inj hmove
          exact Server.holdable_of_step? hserver h
        · rename_i server unit request hserver
          obtain rfl := Option.some.inj hmove
          exact Server.holdable_answer _ (Server.holdable_of_step? hserver h)
      · exact h

/-- **After any reads** what is held back is within its bounds. -/
lemma holdable_readAll (handle : Handler σ) (reads : List Bytes) (serving : Serving σ)
    (h : Server.Holdable serving.server.framing serving.server.pending) :
    Server.Holdable (serving.readAll handle reads).server.framing
      (serving.readAll handle reads).server.pending := by
  induction reads generalizing serving with
  | nil => exact h
  | cons chunk reads ih =>
      refine ih _ (holdable_settleWithin handle _ _ ?_)
      simp only [Server.write]
      split_ifs <;> exact h

/-- A loop that waited before reads waits after them, and has kept its framing. -/
lemma waiting_readAll (handle : Handler σ) (reads : List Bytes)
    (hsome : ∀ chunk ∈ reads, chunk ≠ [])
    (hfit : ∀ chunk ∈ reads, chunk.length ≤ Limit.readBuffer) (serving : Serving σ)
    (hwaiting : serving.server.Waiting) :
    (serving.readAll handle reads).server.Waiting ∧
      (serving.readAll handle reads).server.framing = serving.server.framing := by
  induction reads generalizing serving with
  | nil => exact ⟨hwaiting, rfl⟩
  | cons chunk reads ih =>
      have hread := read_eq handle hwaiting (hsome chunk (List.mem_cons_self ..))
        (hfit chunk (List.mem_cons_self ..))
      rw [readAll, List.foldl_cons, hread]
      obtain ⟨hafter, hframing⟩ := ih
        (fun other hother => hsome other (List.mem_cons_of_mem _ hother))
        (fun other hother => hfit other (List.mem_cons_of_mem _ hother)) _
        (waiting_taken handle hwaiting _ _)
      refine ⟨hafter, hframing.trans ?_⟩
      cases (Server.absorb serving.server.framing serving.server.pending chunk).2 <;> rfl

end Serving

/-! ## Requests that are one read each -/

/-- **A request comes in as one read**, in every framing. -/
lemma Posted.length_frame_le_readBuffer (framing : Framing) (posted : Posted) :
    (posted.frame framing).length ≤ Limit.readBuffer := by
  obtain ⟨code, payload, function, hpdu, -, hlayout⟩ :=
    Request.layout_of_ofPdu posted.decoded posted.isServed
  have hshort := hlayout.length_lt
  rw [Posted.frame, Framing.length_wrap, hpdu, List.length_cons]
  simp only [Limit.maxPdu, Limit.readBuffer] at hshort ⊢
  cases framing <;> simp only [Framing.aduLength] <;> omega

namespace Serving

variable {σ : Type}

/-- One request read at once. -/
def readPosted (handle : Handler σ) (serving : Serving σ) (posted : Posted) : Serving σ :=
  serving.read handle (posted.frame serving.server.framing)

/-- **Requests read one by one**, each of them at once. -/
def readEach (handle : Handler σ) (serving : Serving σ) (posted : List Posted) : Serving σ :=
  posted.foldl (readPosted handle) serving

/-- **A request served on its own.**  The handler is asked it, its reply is written and nothing
else, and nothing is held back. -/
structure Serves (handle : Handler σ) (posted : Posted) (before after : Serving σ) : Prop where
  asked : after.asked = before.asked ++ [(posted.header.unit, posted.request)]
  written : after.server.outbox = before.server.outbox
    ++ Handler.reply before.server.framing posted.header
        (handle before.state posted.header.unit posted.request).1
  state : after.state = (handle before.state posted.header.unit posted.request).2
  cleared : after.server.pending = []

/-- Every one of the requests is served on its own. -/
def ServesEach (handle : Handler σ) : Serving σ → List Posted → Prop
  | _, [] => True
  | serving, posted :: rest =>
    Serves handle posted serving (serving.readPosted handle posted) ∧
      ServesEach handle (serving.readPosted handle posted) rest

/-- **Requests that are swallowed**: they are added to what is held back, and nothing else
happens. -/
structure Swallows (handle : Handler σ) (serving : Serving σ) (posted : List Posted) : Prop where
  held : serving.readEach handle posted =
    { serving with server := { serving.server with
        pending := serving.server.pending
          ++ (posted.map (Posted.frame serving.server.framing)).flatten } }
  bounded : serving.server.pending.length
    + (posted.map (Posted.frame serving.server.framing)).flatten.length
      ≤ serving.server.framing.maxAdu

/-- **What becomes of requests** that are read one by one. -/
inductive Recovers (handle : Handler σ) (serving : Serving σ) : List Posted → Prop where
  /-- Nothing is held back, and they are served. -/
  | clear {kept : List Posted} (hclear : serving.server.pending = [])
      (hserved : serving.ServesEach handle kept) : Recovers handle serving kept
  /-- They are too few to get rid of what is held back. -/
  | few {front : List Posted} (hheld : serving.server.pending ≠ [])
      (hfront : serving.Swallows handle front) : Recovers handle serving front
  /-- Some are swallowed, with the next one nothing is held back any more, and all the others are
  served. -/
  | found {front kept : List Posted} {last : Posted} (hheld : serving.server.pending ≠ [])
      (hfront : serving.Swallows handle front)
      (hclear : (serving.readEach handle (front ++ [last])).server.pending = [])
      (hserved : (serving.readEach handle (front ++ [last])).ServesEach handle kept) :
      Recovers handle serving (front ++ last :: kept)

variable {handle : Handler σ} {serving : Serving σ}

/-- What one request does to a waiting loop. -/
lemma readPosted_eq (handle : Handler σ) (hwaiting : serving.server.Waiting) (posted : Posted) :
    serving.readPosted handle posted = serving.taken handle
      (Server.absorb serving.server.framing serving.server.pending
        (posted.frame serving.server.framing)).1
      (Server.absorb serving.server.framing serving.server.pending
        (posted.frame serving.server.framing)).2 :=
  read_eq handle hwaiting (posted.frame_ne_nil _) (posted.length_frame_le_readBuffer _)

lemma waiting_readPosted (handle : Handler σ) (hwaiting : serving.server.Waiting) (posted : Posted) :
    (serving.readPosted handle posted).server.Waiting := by
  rw [readPosted_eq handle hwaiting]
  exact waiting_taken handle hwaiting _ _

/-- **A loop that holds nothing back** serves the next request on its own. -/
lemma serves_of_clear (hwaiting : serving.server.Waiting) (hclear : serving.server.pending = [])
    (posted : Posted) : Serves handle posted serving (serving.readPosted handle posted) := by
  have habsorb := Server.absorb_whole (posted.endsAt serving.server.framing)
    (posted.readRequest_frame serving.server.framing)
    (List.nil_append (posted.frame serving.server.framing))
  rw [readPosted_eq handle hwaiting, hclear, habsorb]
  constructor
  · simp only [taken, Framing.heading_unit]
  · simp only [taken, Framing.heading_unit, Handler.reply_heading]
  · simp only [taken, Framing.heading_unit]
  · rfl

/-- **A loop that holds nothing back** serves all requests that come in one by one. -/
lemma servesEach_of_clear : ∀ (posted : List Posted) (serving : Serving σ),
    serving.server.Waiting → serving.server.pending = [] → serving.ServesEach handle posted
  | [], _, _, _ => trivial
  | first :: rest, _, hwaiting, hclear =>
      have hserves := serves_of_clear hwaiting hclear first
      ⟨hserves, servesEach_of_clear rest _ (waiting_readPosted handle hwaiting first)
        hserves.cleared⟩

/-- No request is swallowed yet. -/
lemma swallows_nil (h : Server.Holdable serving.server.framing serving.server.pending) :
    serving.Swallows handle [] where
  held := by simp only [readEach, List.foldl_nil, List.map_nil, List.flatten_nil, List.append_nil]
  bounded := by simpa using h.bounded

/-- The loop that holds back a request as well. -/
def holding (serving : Serving σ) (posted : Posted) : Serving σ :=
  { serving with server := { serving.server with
      pending := serving.server.pending ++ posted.frame serving.server.framing } }

/-- One more request is swallowed before the others. -/
lemma Swallows.cons {first : Posted} {rest : List Posted}
    (hread : serving.readPosted handle first = serving.holding first)
    (h : (serving.holding first).Swallows handle rest) :
    serving.Swallows handle (first :: rest) where
  held := by
    rw [readEach, List.foldl_cons, hread]
    refine h.held.trans ?_
    simp only [holding, List.map_cons, List.flatten_cons, List.append_assoc]
  bounded := by
    have hbounded := h.bounded
    simp only [holding, List.length_append] at hbounded
    simp only [List.map_cons, List.flatten_cons, List.length_append]
    omega

/-- **From bytes that are held back, a loop finds back to requests.** -/
lemma recovers_of_held : ∀ (posted : List Posted) (serving : Serving σ),
    serving.server.Waiting → Server.Holdable serving.server.framing serving.server.pending →
      serving.server.pending ≠ [] → serving.Recovers handle posted
  | [], _, _, hbounds, hheld => .few hheld (swallows_nil hbounds)
  | first :: rest, serving, hwaiting, hbounds, hheld => by
      have hread := readPosted_eq handle hwaiting first
      have hwaits := waiting_readPosted handle hwaiting first
      have hcleared : (serving.readPosted handle first).server.pending = [] →
          serving.Recovers handle ([] ++ first :: rest) := fun hclear =>
        .found hheld (swallows_nil hbounds) hclear (servesEach_of_clear rest _ hwaits hclear)
      -- Either the read leaves nothing held back, or the request has been added to it.
      rcases Server.absorb_cases serving.server.framing serving.server.pending
          (first.frame serving.server.framing) with ⟨request, -, habsorb⟩ | habsorb | habsorb
      · exact hcleared (by rw [hread, habsorb]; rfl)
      · exact hcleared (by rw [hread, habsorb]; rfl)
      · have hholding : serving.readPosted handle first = serving.holding first := by
          rw [hread, habsorb]
          rfl
        have hbounds' := Server.holdable_absorb serving.server.framing serving.server.pending
          (first.frame serving.server.framing)
        rw [habsorb] at hbounds'
        rw [hholding] at hwaits
        have hheld' : (serving.holding first).server.pending ≠ [] :=
          List.append_ne_nil_of_left_ne_nil hheld _
        cases recovers_of_held rest (serving.holding first) hwaits hbounds' hheld' with
        | clear hclear _ => exact absurd hclear hheld'
        | few _ hfront => exact .few hheld (.cons hholding hfront)
        | @found front kept last _ hfront hclear hserved =>
            rw [← List.cons_append]
            refine .found hheld (.cons hholding hfront) ?_ ?_
            · rw [List.cons_append, readEach, List.foldl_cons, hholding]
              exact hclear
            · rw [List.cons_append, readEach, List.foldl_cons, hholding]
              exact hserved

/-- **A serving loop recovers from any garbage.**  Whatever bytes have come in, and in whatever
reads, what is held back is at most the longest frame and no complete request.  If requests follow
that are one read each, then some of them, of no more bytes than the longest frame, and one more may
be lost; every other one is asked as it was sent and gets exactly its own reply. -/
theorem recovers_of_cut (handle : Handler σ) (framing : Framing) (state : σ) (bytes : Bytes)
    (reads : List Bytes) (hcut : Cut bytes reads) (posted : List Posted) :
    let reached := (start framing state).readAll handle reads
    (reached.server.framing = framing ∧ reached.server.pending.length ≤ framing.maxAdu ∧
        framing.requestComplete reached.server.pending = false) ∧
      reached.Recovers handle posted := by
  intro reached
  obtain ⟨hwaiting, hframing⟩ := waiting_readAll handle reads hcut.some hcut.fit
    (start framing state) (waiting_start framing state)
  have hheld := holdable_readAll handle reads (start framing state)
    (Server.holdable_nil framing)
  have hbounds : Server.Holdable framing reached.server.pending := by
    rw [hframing] at hheld
    exact hheld
  refine ⟨⟨hframing, hbounds.bounded, hbounds.incomplete⟩, ?_⟩
  by_cases hclear : reached.server.pending = []
  · exact .clear hclear (servesEach_of_clear posted reached hwaiting hclear)
  · exact recovers_of_held posted reached hwaiting hheld hclear

/-- Two reads that leave a beginning of a frame behind, and two requests after it. -/
theorem recovers_after_beginning :
    let bytes : Bytes := [0x3A, 0x30, 0x31]
    let reads : List Bytes := [[0x3A], [0x30, 0x31]]
    let device : Device := { store := ({} : Store).addUnit 1 }
    let first : Posted := ⟨⟨1, none⟩, [0x03, 0, 0, 0, 1], .readWords .holdingRegisters 0 1,
      @Request.Serialized.access (.readWords .holdingRegisters 0 1) _ rfl, rfl⟩
    let second : Posted := ⟨⟨1, none⟩, [0x03, 0, 1, 0, 1], .readWords .holdingRegisters 1 1,
      @Request.Serialized.access (.readWords .holdingRegisters 1 1) _ rfl, rfl⟩
    (Cut bytes reads ∧ ((start .ascii device).readAll Device.answer reads).server.pending = bytes) ∧
      let reached := (start .ascii device).readAll Device.answer reads
      (reached.server.framing = .ascii ∧ reached.server.pending.length ≤ Framing.ascii.maxAdu ∧
          Framing.ascii.requestComplete reached.server.pending = false) ∧
        reached.Recovers Device.answer [first, second] := by
  intro bytes reads device first second
  have hcut : Cut bytes reads := ⟨by decide, by decide, by decide⟩
  have hheld : ((start .ascii device).readAll Device.answer reads).server.pending = bytes := by
    decide +kernel
  exact ⟨⟨hcut, hheld⟩,
    recovers_of_cut Device.answer .ascii device bytes reads hcut [first, second]⟩

end Serving

end Modbus
