import Modbus.Proofs.Connection.Receiving
import Modbus.Proofs.Server.Serving

/-!
# Completeness does not depend on the reads

A receiver asks after each read whether the bytes so far are a frame, and reads are cut as the link
pleases.  What makes the answer independent of the cuts is that it is `Lasting`: bytes that are
complete stay so, whatever follows.  This is not a property of frames but of all bytes, and the
framings have it for the two reasons that also make frames show their end: an announced length does
not change when more bytes follow (`Lasting.of_size`), and a line end does not go away
(`Ascii.hasLineEnd_append`).

A lasting predicate is true from one length of the stream on and never before
(`Lasting.complete_take_iff`), and that length, `completesAt?`, is a matter of the stream alone.
Testing at the ends of reads only, one stops with the first read that reaches it
(`Lasting.firstBoundary`).  `readsNeeded?` is such a loop and nothing else; the worker that reads a
reply and the server that puts a request together are shown to be instances of it.
-/

namespace Modbus

/-- **A predicate on the bytes so far that stays true** when more bytes follow. -/
def Lasting (complete : Bytes → Bool) : Prop :=
  ∀ part more, complete part = true → complete (part ++ more) = true

/-- The length of the first complete beginning of a stream, if it has one. -/
def completesAt? (complete : Bytes → Bool) (stream : Bytes) : Option Nat :=
  (List.range (stream.length + 1)).find? fun length => complete (stream.take length)

/-- **A loop that tests at the ends of reads**: how many reads it takes until the bytes are
complete, if they become so. -/
def readsNeeded? (complete : Bytes → Bool) : Bytes → List Bytes → Option Nat
  | _, [] => none
  | received, chunk :: reads =>
    if complete (received ++ chunk) then some 1
    else (readsNeeded? complete (received ++ chunk) reads).map (· + 1)

/-- **The first boundary at or after a length**, counted in reads. -/
structure FirstBoundary (reads : List Bytes) (length count : Nat) : Prop where
  within : count ≤ reads.length
  reached : length ≤ (reads.take count).flatten.length
  before : ∀ fewer < count, (reads.take fewer).flatten.length < length

/-! ## The first complete beginning -/

section Prefixes

variable {complete : Bytes → Bool} {stream : Bytes} {length : Nat}

lemma completesAt?_eq_some : completesAt? complete stream = some length ↔
    complete (stream.take length) = true ∧ length ≤ stream.length ∧
      ∀ shorter < length, complete (stream.take shorter) = false := by
  simp only [completesAt?, List.find?_range_eq_some, List.mem_range, Nat.lt_succ_iff,
    Bool.not_eq_true']

lemma completesAt?_eq_none : completesAt? complete stream = none ↔
    ∀ shorter ≤ stream.length, complete (stream.take shorter) = false := by
  simp only [completesAt?, List.find?_eq_none, List.mem_range, Nat.lt_succ_iff, Bool.not_eq_true]

/-- **Complete from one length on**, and never before. -/
lemma Lasting.complete_take_iff (hlasting : Lasting complete) :
    complete (stream.take length) = true ↔ ∃ first ∈ completesAt? complete stream, first ≤ length := by
  constructor
  · intro hcomplete
    cases hfirst : completesAt? complete stream with
    | none =>
        have hnever := completesAt?_eq_none.mp hfirst (min length stream.length) (Nat.min_le_right ..)
        rw [← List.take_eq_take_min, hcomplete] at hnever
        exact absurd hnever.symm Bool.false_ne_true
    | some first =>
        refine ⟨first, rfl, Nat.le_of_not_lt fun hshorter => ?_⟩
        have hbefore := (completesAt?_eq_some.mp hfirst).2.2 length hshorter
        rw [hcomplete] at hbefore
        exact absurd hbefore.symm Bool.false_ne_true
  · rintro ⟨first, hfirst, hle⟩
    have hpart : stream.take first ++ (stream.take length).drop first = stream.take length := by
      have hsplit := List.take_append_drop first (stream.take length)
      rwa [List.take_take, Nat.min_eq_left hle] at hsplit
    rw [← hpart]
    exact hlasting _ _ (completesAt?_eq_some.mp hfirst).1

/-- A whole stream is complete when a beginning of it is. -/
lemma Lasting.completesAt?_eq_none_iff (hlasting : Lasting complete) :
    completesAt? complete stream = none ↔ complete stream = false := by
  rw [← Bool.not_eq_true, ← List.take_length (l := stream), hlasting.complete_take_iff,
    List.take_length]
  constructor
  · rintro hnone ⟨first, hfirst, -⟩
    rw [hnone] at hfirst
    exact absurd hfirst (Option.not_mem_none first)
  · intro hnever
    cases hfirst : completesAt? complete stream with
    | none => rfl
    | some first => exact absurd ⟨first, hfirst, (completesAt?_eq_some.mp hfirst).2.1⟩ hnever

/-- **What follows does not move the first complete beginning.** -/
lemma completesAt?_append (h : completesAt? complete stream = some length) (more : Bytes) :
    completesAt? complete (stream ++ more) = some length := by
  obtain ⟨hcomplete, hwithin, hbefore⟩ := completesAt?_eq_some.mp h
  refine completesAt?_eq_some.mpr ⟨?_, by simp; omega, ?_⟩
  · rwa [List.take_append_of_le_length hwithin]
  · intro shorter hshorter
    rw [List.take_append_of_le_length (by omega)]
    exact hbefore shorter hshorter

end Prefixes

/-! ## Reads of a stream -/

section Reads

variable {complete : Bytes → Bool} {reads : List Bytes} {length : Nat}

lemma flatten_take_eq_take (reads : List Bytes) (count : Nat) :
    (reads.take count).flatten = reads.flatten.take (reads.take count).flatten.length := by
  have hsplit : reads.flatten = (reads.take count).flatten ++ (reads.drop count).flatten := by
    rw [← List.flatten_append, List.take_append_drop]
  rw [hsplit, List.take_left]

/-- At the end of a read the bytes are complete when there are enough of them. -/
lemma Lasting.complete_reads_iff (hlasting : Lasting complete)
    (hfirst : completesAt? complete reads.flatten = some length) (count : Nat) :
    complete (reads.take count).flatten = true ↔ length ≤ (reads.take count).flatten.length := by
  rw [flatten_take_eq_take, hlasting.complete_take_iff, hfirst, ← flatten_take_eq_take]
  simp

lemma FirstBoundary.unique {first second : Nat} (hfirst : FirstBoundary reads length first)
    (hsecond : FirstBoundary reads length second) : first = second := by
  rcases Nat.lt_trichotomy first second with hlt | heq | hgt
  · exact absurd hfirst.reached (Nat.not_le.mpr (hsecond.before first hlt))
  · exact heq
  · exact absurd hsecond.reached (Nat.not_le.mpr (hfirst.before second hgt))

/-- The loop stops with the first read after which the bytes are complete. -/
lemma readsNeeded?_eq_some {reads : List Bytes} {received : Bytes} {count : Nat}
    (h : readsNeeded? complete received reads = some count) :
    count ≤ reads.length ∧ complete (received ++ (reads.take count).flatten) = true ∧
      ∀ fewer < count, 0 < fewer → complete (received ++ (reads.take fewer).flatten) = false := by
  induction reads generalizing received count with
  | nil => simp [readsNeeded?] at h
  | cons chunk reads ih =>
      rw [readsNeeded?] at h
      split_ifs at h with hcomplete
      · obtain rfl : 1 = count := Option.some.inj h
        refine ⟨by simp, by simpa using hcomplete, ?_⟩
        intro fewer hfewer hpos
        omega
      · obtain ⟨later, hlater, rfl⟩ := Option.map_eq_some_iff.mp h
        obtain ⟨hwithin, hthen, hbefore⟩ := ih hlater
        refine ⟨Nat.succ_le_succ hwithin, by simpa using hthen, ?_⟩
        intro fewer hfewer hpos
        rcases fewer with _ | _ | fewer
        · omega
        · simpa using hcomplete
        · simpa using hbefore (fewer + 1) (by omega) (by omega)

/-- The loop stops when the bytes that it is given become complete. -/
lemma readsNeeded?_isSome (hlasting : Lasting complete) {reads : List Bytes} {received : Bytes}
    (hreceived : complete received = false) :
    (readsNeeded? complete received reads).isSome = complete (received ++ reads.flatten) := by
  induction reads generalizing received with
  | nil => simp [readsNeeded?, hreceived]
  | cons chunk reads ih =>
      rw [readsNeeded?, List.flatten_cons, ← List.append_assoc]
      split_ifs with hcomplete
      · exact (hlasting _ _ hcomplete).symm
      · rw [Option.isSome_map, ih (Bool.eq_false_iff.mpr hcomplete)]

/-- **The loop stops at the first boundary at or after the first complete beginning.** -/
lemma Lasting.firstBoundary (hlasting : Lasting complete) (hnothing : complete [] = false)
    (hfirst : completesAt? complete reads.flatten = some length) :
    ∃ count, readsNeeded? complete [] reads = some count ∧ FirstBoundary reads length count := by
  have hwhole : complete reads.flatten = true := by
    rw [← Bool.not_eq_false, ← hlasting.completesAt?_eq_none_iff, hfirst]
    exact Option.some_ne_none length
  have hstops : (readsNeeded? complete [] reads).isSome = true := by
    rw [readsNeeded?_isSome hlasting hnothing, List.nil_append, hwhole]
  obtain ⟨count, hcount⟩ := Option.isSome_iff_exists.mp hstops
  obtain ⟨hwithin, hcomplete, hbefore⟩ := readsNeeded?_eq_some hcount
  refine ⟨count, hcount, hwithin, (hlasting.complete_reads_iff hfirst count).mp hcomplete, ?_⟩
  intro fewer hfewer
  refine Nat.lt_of_not_le fun hle => ?_
  have hearly := (hlasting.complete_reads_iff hfirst fewer).mpr hle
  rcases Nat.eq_zero_or_pos fewer with rfl | hpos
  · rw [List.take_zero, List.flatten_nil, hnothing] at hearly
    exact Bool.false_ne_true hearly
  · have hlate := hbefore fewer hfewer hpos
    rw [List.nil_append, hearly] at hlate
    exact absurd hlate.symm Bool.false_ne_true

lemma Lasting.readsNeeded?_eq_none (hlasting : Lasting complete) (hnothing : complete [] = false)
    (hnever : completesAt? complete reads.flatten = none) :
    readsNeeded? complete [] reads = none := by
  rw [← Option.not_isSome_iff_eq_none, readsNeeded?_isSome hlasting hnothing, List.nil_append,
    hlasting.completesAt?_eq_none_iff.mp hnever]
  exact Bool.false_ne_true

/-- **Byte by byte** the loop stops at the very length. -/
lemma Lasting.readsNeeded?_singletons (hlasting : Lasting complete) (hnothing : complete [] = false)
    (stream : Bytes) :
    readsNeeded? complete [] (stream.map ([·])) = completesAt? complete stream := by
  have hflatten : ∀ bytes : Bytes, (bytes.map ([·])).flatten = bytes := by
    intro bytes
    rw [← List.flatMap_def, List.flatMap_singleton']
  cases hfirst : completesAt? complete stream with
  | none => exact hlasting.readsNeeded?_eq_none hnothing (by rwa [hflatten])
  | some length =>
      rw [← hflatten stream] at hfirst
      obtain ⟨count, hcount, hboundary⟩ := hlasting.firstBoundary hnothing hfirst
      rw [hflatten] at hfirst
      have hwithin := (completesAt?_eq_some.mp hfirst).2.1
      have hexact : FirstBoundary (stream.map ([·])) length length := by
        refine ⟨by simpa using hwithin, ?_, ?_⟩
        · rw [← List.map_take, hflatten, List.length_take]
          omega
        · intro fewer hfewer
          rw [← List.map_take, hflatten, List.length_take]
          omega
      rw [hcount, hboundary.unique hexact]

end Reads

/-! ## All framings -/

/-- **A length announced once and for all** makes for a lasting predicate. -/
lemma Lasting.of_size {size? : Bytes → Option Nat}
    (hstable : ∀ part more size, size? part = some size → size? (part ++ more) = some size) :
    Lasting fun bytes => Rtu.reached (size? bytes) bytes := by
  intro part more hcomplete
  obtain ⟨size, hsize, hreached⟩ : ∃ size, size? part = some size ∧ size ≤ part.length := by
    simpa [Rtu.reached, Option.any_eq_true] using hcomplete
  have hlater := hstable part more size hsize
  simp only [Rtu.reached, hlater, Option.any_some, decide_eq_true_eq, List.length_append]
  omega

lemma Ascii.hasLineEnd_append : ∀ part more : Bytes,
    Ascii.hasLineEnd part = true → Ascii.hasLineEnd (part ++ more) = true
  | [], _, h => by simp [Ascii.hasLineEnd] at h
  | [_], _, h => by simp [Ascii.hasLineEnd] at h
  | first :: second :: rest, more, h => by
      simp only [List.cons_append, Ascii.hasLineEnd, Bool.or_eq_true] at h ⊢
      exact h.imp_right (Ascii.hasLineEnd_append (second :: rest) more)

lemma Ascii.complete_lasting : Lasting Ascii.complete := by
  intro part more hcomplete
  simp only [Ascii.complete, Bool.and_eq_true, decide_eq_true_eq, List.length_append] at hcomplete ⊢
  exact ⟨by omega, Ascii.hasLineEnd_append part more hcomplete.2⟩

namespace Framing

/-- **A complete reply stays complete**, whatever its bytes. -/
lemma responseComplete_lasting (framing : Framing) : Lasting framing.responseComplete := by
  cases framing with
  | rtu => exact .of_size Rtu.responseSize?_append
  | ascii => exact Ascii.complete_lasting
  | tcp _ => exact .of_size Tcp.size?_append

/-- **A complete request stays complete**, whatever its bytes. -/
lemma requestComplete_lasting (framing : Framing) : Lasting framing.requestComplete := by
  cases framing with
  | rtu => exact .of_size Rtu.requestSize?_append
  | ascii => exact Ascii.complete_lasting
  | tcp _ => exact .of_size Tcp.size?_append

lemma responseComplete_nil (framing : Framing) : framing.responseComplete [] = false := by
  cases framing <;> rfl

lemma requestComplete_nil (framing : Framing) : framing.requestComplete [] = false := by
  cases framing <;> rfl

end Framing

/-! ## The loops that read -/

/-- **The worker reads as the loop does**: it hands over what it has read when the loop stops, and
reads on when the loop does not. -/
lemma Connection.run_receiving {σ α : Type} [Peer σ] {item : Queued} :
    ∀ (reads : List Bytes) (connection : Connection σ α) (received : Bytes),
      (∀ chunk ∈ reads, chunk ≠ []) → (∀ chunk ∈ reads, chunk.length ≤ Limit.readBuffer) →
      connection.worker = .receiving item received → connection.wire.connected = true →
      connection.wire.arriving = reads →
      let stop := readsNeeded? item.complete received reads
      let after := connection.run (List.replicate (stop.getD reads.length) .worker)
      after.worker = stop.elim (.receiving item (received ++ reads.flatten))
          (fun count => .concluding item (.ok (received ++ (reads.take count).flatten))) ∧
        after.wire.arriving = reads.drop (stop.getD reads.length)
  | [], connection, received, _, _, hworker, _, harriving => by
      simp [readsNeeded?, run, hworker, harriving]
  | chunk :: reads, connection, received, hsome, hfit, hworker, hopen, harriving => by
      obtain ⟨hwire, hnext⟩ := step_receiving connection hworker hopen harriving
        (hsome chunk (by simp)) (hfit chunk (by simp))
      by_cases hcomplete : item.complete (received ++ chunk) = true
      · rw [if_pos hcomplete] at hnext
        simp [readsNeeded?, hcomplete, run, hnext, hwire]
      · rw [if_neg hcomplete] at hnext
        have hlater := run_receiving reads (connection.step .worker) (received ++ chunk)
          (fun other hother => hsome other (List.mem_cons_of_mem _ hother))
          (fun other hother => hfit other (List.mem_cons_of_mem _ hother)) hnext
          (by rw [hwire]; exact hopen) (by rw [hwire])
        rw [readsNeeded?, if_neg hcomplete]
        cases hstop : readsNeeded? item.complete (received ++ chunk) reads with
        | none => simpa [hstop, run, List.replicate_succ] using hlater
        | some count => simpa [hstop, run, List.replicate_succ] using hlater

/-- **The server puts requests together as the loop does**, as long as what it holds back may be
held back. -/
lemma Server.absorbed_eq {framing : Framing} : ∀ (reads : List Bytes) (pending : Bytes),
    (∀ part, part <+: pending ++ reads.flatten → framing.requestComplete part = false →
      part.length ≤ framing.maxAdu) →
    Server.absorbed framing pending reads =
      (readsNeeded? framing.requestComplete pending reads).elim [] fun count =>
        (framing.readRequest (pending ++ (reads.take count).flatten)).toOption.toList
          ++ Server.absorbed framing [] (reads.drop count)
  | [], _, _ => rfl
  | chunk :: reads, pending, hheld => by
      rw [readsNeeded?]
      split_ifs with hcomplete
      · cases hread : framing.readRequest (pending ++ chunk) <;>
          simp [Server.absorbed, Server.absorb, hcomplete, hread, Except.toOption]
      · have hshort : ¬ framing.maxAdu < (pending ++ chunk).length :=
          Nat.not_lt.mpr (hheld _ ⟨reads.flatten, by simp⟩ (Bool.eq_false_iff.mpr hcomplete))
        have hlater := Server.absorbed_eq reads (pending ++ chunk) (by simpa using hheld)
        rw [Server.absorbed, Server.absorb, if_neg hcomplete, if_neg hshort]
        simp only [Option.toList_none, List.nil_append, hlater]
        cases readsNeeded? framing.requestComplete (pending ++ chunk) reads <;> simp

/-! ## Reading in whatever pieces -/

/-- **A test that may be made at the ends of reads**, for every stream and every way to cut it. -/
structure Incremental (complete : Bytes → Bool) : Prop where
  lasting : ∀ part more, complete part = true → complete (part ++ more) = true
  /-- Complete from one length of the stream on, and never before. -/
  prefixes : ∀ stream length,
    complete (stream.take length) = true ↔ ∃ first ∈ completesAt? complete stream, first ≤ length
  /-- That length is the same when more of the stream is there. -/
  extended : ∀ stream more length, completesAt? complete stream = some length →
    completesAt? complete (stream ++ more) = some length
  /-- Byte by byte the loop stops at that length. -/
  singletons : ∀ stream : Bytes,
    readsNeeded? complete [] (stream.map ([·])) = completesAt? complete stream
  /-- Cut in any other way, it stops at the first boundary at or after that length. -/
  stops : ∀ reads length, completesAt? complete reads.flatten = some length →
    ∃ count, readsNeeded? complete [] reads = some count ∧ FirstBoundary reads length count
  never : ∀ reads, completesAt? complete reads.flatten = none → readsNeeded? complete [] reads = none

lemma Lasting.incremental {complete : Bytes → Bool} (hlasting : Lasting complete)
    (hnothing : complete [] = false) : Incremental complete where
  lasting := hlasting
  prefixes _ _ := hlasting.complete_take_iff
  extended _ more _ h := completesAt?_append h more
  singletons := hlasting.readsNeeded?_singletons hnothing
  stops _ _ := hlasting.firstBoundary hnothing
  never _ := hlasting.readsNeeded?_eq_none hnothing

example : readsNeeded? Framing.rtu.responseComplete []
    [[0x11, 0x83], [0x02, 0xC1], [0x34, 0x00], [0x00]] = some 3 := by decide

/-- **The worker concludes at the first boundary** at or after the first complete beginning of what
arrives, with all that was read until then; without such a beginning it has read everything. -/
lemma Connection.concludes_at_boundary {σ α : Type} [Peer σ] (connection : Connection σ α)
    {item : Queued} {reads : List Bytes} (htest : Incremental item.complete)
    (hsome : ∀ chunk ∈ reads, chunk ≠ []) (hfit : ∀ chunk ∈ reads, chunk.length ≤ Limit.readBuffer)
    (hworker : connection.worker = .receiving item []) (hopen : connection.wire.connected = true)
    (harriving : connection.wire.arriving = reads) :
    (∀ length, completesAt? item.complete reads.flatten = some length →
      ∃ count, FirstBoundary reads length count ∧
        (connection.run (List.replicate count .worker)).worker
            = .concluding item (.ok (reads.take count).flatten) ∧
        (connection.run (List.replicate count .worker)).wire.arriving = reads.drop count) ∧
    (completesAt? item.complete reads.flatten = none →
      (connection.run (List.replicate reads.length .worker)).worker
          = .receiving item reads.flatten ∧
        (connection.run (List.replicate reads.length .worker)).wire.arriving = []) := by
  have hrun := run_receiving reads connection [] hsome hfit hworker hopen harriving
  constructor
  · intro length hfirst
    obtain ⟨count, hcount, hboundary⟩ := htest.stops reads length hfirst
    simp only [hcount, Option.getD_some, Option.elim_some, List.nil_append] at hrun
    exact ⟨count, hboundary, hrun⟩
  · intro hnever
    simpa only [htest.never reads hnever, Option.getD_none, Option.elim_none, List.nil_append,
      List.drop_length] using hrun

/-- **The server takes a request at the first boundary** at or after the first complete beginning of
the stream, and begins anew behind it. -/
lemma Server.takes_at_boundary (framing : Framing) {reads : List Bytes} {length : Nat}
    (htest : Incremental framing.requestComplete)
    (hfirst : completesAt? framing.requestComplete reads.flatten = some length)
    (hfits : length ≤ framing.maxAdu) :
    ∃ count, FirstBoundary reads length count ∧
      Server.absorbed framing [] reads =
        (framing.readRequest (reads.take count).flatten).toOption.toList
          ++ Server.absorbed framing [] (reads.drop count) := by
  obtain ⟨count, hcount, hboundary⟩ := htest.stops reads length hfirst
  have hheld : ∀ part, part <+: [] ++ reads.flatten → framing.requestComplete part = false →
      part.length ≤ framing.maxAdu := by
    intro part hpart hopen
    rw [List.nil_append] at hpart
    have hshort : ¬ length ≤ part.length := by
      intro hle
      have hcomplete := (htest.prefixes reads.flatten part.length).mpr ⟨length, hfirst, hle⟩
      rw [← List.prefix_iff_eq_take.mp hpart, hopen] at hcomplete
      exact Bool.false_ne_true hcomplete
    omega
  have habsorbed := absorbed_eq reads [] hheld
  simp only [hcount, Option.elim_some, List.nil_append] at habsorbed
  exact ⟨count, hboundary, habsorbed⟩

/-- A stream that is short and never complete is held back. -/
lemma Server.absorbed_of_never (framing : Framing) {reads : List Bytes}
    (htest : Incremental framing.requestComplete)
    (hnever : completesAt? framing.requestComplete reads.flatten = none)
    (hfits : reads.flatten.length ≤ framing.maxAdu) : Server.absorbed framing [] reads = [] := by
  have hheld (part : Bytes) (hpart : part <+: [] ++ reads.flatten)
      (_ : framing.requestComplete part = false) : part.length ≤ framing.maxAdu :=
    Nat.le_trans hpart.length_le hfits
  have habsorbed := absorbed_eq reads [] hheld
  rwa [htest.never reads hnever] at habsorbed

/-- **Completeness does not depend on the reads.**  Under every framing the tests for a complete
reply and for a complete request stay true on all bytes, whole frames or not, when more bytes
follow; so a stream has one length at which it becomes complete, and a loop that tests at the ends
of reads only stops at the first boundary at or after it.  The worker that reads a reply is such a
loop, and so is the server, up to the length at which it gives up on what it holds back. -/
theorem Framing.completeness_independent_of_reads (framing : Framing) :
    Incremental framing.responseComplete ∧ Incremental framing.requestComplete ∧
    (∀ (σ α : Type) [Peer σ] (connection : Connection σ α) (item : Queued) (reads : List Bytes),
      item.complete = framing.responseComplete →
      (∀ chunk ∈ reads, chunk ≠ [] ∧ chunk.length ≤ Limit.readBuffer) →
      connection.worker = .receiving item [] → connection.wire.connected = true →
      connection.wire.arriving = reads →
      (∀ length, completesAt? framing.responseComplete reads.flatten = some length →
        ∃ count, FirstBoundary reads length count ∧
          (connection.run (List.replicate count .worker)).worker
              = .concluding item (.ok (reads.take count).flatten) ∧
          (connection.run (List.replicate count .worker)).wire.arriving = reads.drop count) ∧
      (completesAt? framing.responseComplete reads.flatten = none →
        (connection.run (List.replicate reads.length .worker)).worker
            = .receiving item reads.flatten ∧
          (connection.run (List.replicate reads.length .worker)).wire.arriving = [])) ∧
    (∀ reads length, completesAt? framing.requestComplete reads.flatten = some length →
      length ≤ framing.maxAdu →
      ∃ count, FirstBoundary reads length count ∧
        Server.absorbed framing [] reads =
          (framing.readRequest (reads.take count).flatten).toOption.toList
            ++ Server.absorbed framing [] (reads.drop count)) ∧
    (∀ reads, completesAt? framing.requestComplete reads.flatten = none →
      reads.flatten.length ≤ framing.maxAdu → Server.absorbed framing [] reads = []) := by
  have hresponse := (framing.responseComplete_lasting).incremental framing.responseComplete_nil
  have hrequest := (framing.requestComplete_lasting).incremental framing.requestComplete_nil
  refine ⟨hresponse, hrequest, ?_, ?_, ?_⟩
  · intro σ α _ connection item reads hitem hreads hworker hopen harriving
    rw [← hitem]
    exact connection.concludes_at_boundary (hitem ▸ hresponse) (fun chunk h => (hreads chunk h).1)
      (fun chunk h => (hreads chunk h).2) hworker hopen harriving
  · intro reads length hfirst hfits
    exact Server.takes_at_boundary framing hrequest hfirst hfits
  · intro reads hnever hfits
    exact Server.absorbed_of_never framing hrequest hnever hfits

end Modbus
