import Modbus.Proofs.Server.Serving
import Modbus.Proofs.Service

/-!
# When a serving loop answers every request

Clients write requests one after the other, and the loop reads whatever has arrived.  It looks at
its bytes once for each read, and takes all of them for one frame.  So it answers every request when
no read goes past the end of a request, and this file shows that it does so in no other case.

One direction follows a frame through its reads: it shows its end (`EndsAt`), so it is held back
until it is whole and then taken (`Server.absorbed_frame`).  The other direction counts.  A request
that was asked tells the length of the bytes it was read from, so the requests that were asked
cannot need more bytes than were read (`Server.need_le`); if all requests were asked, they need all
the bytes, none was dropped, and the reads behind each request are exactly its frame.
-/

namespace Modbus

/-! ## Requests on a line -/

/-- **The PDUs that a client's serialisers make.** -/
inductive Request.Serialized : Bytes → Prop where
  | access {access : Access} {pdu : Bytes} (h : access.pdu = .ok pdu) : Serialized pdu
  | identify (category : Category) (object : UInt8) :
      Serialized (Request.identifyPdu category object)

lemma Request.Serialized.served {pdu : Bytes} (h : Request.Serialized pdu) :
    ∃ request, Request.ofPdu pdu = .ok request ∧ request.isServed = true := by
  cases h with
  | access haccess =>
      obtain ⟨request, response, hserved⟩ := Access.served_of_pdu haccess {}
      exact ⟨request, hserved.read, hserved.served⟩
  | identify category object =>
      exact ⟨.identify category object, Request.ofPdu_identifyPdu category object, rfl⟩

/-- **A request that a client puts on the line**, and what a device reads in it. -/
structure Posted where
  header : Header
  pdu : Bytes
  request : Request
  serialized : Request.Serialized pdu
  decoded : Request.ofPdu pdu = .ok request

namespace Posted

/-- The bytes on the line. -/
def frame (framing : Framing) (posted : Posted) : Bytes :=
  framing.wrap posted.header posted.pdu

lemma isServed (posted : Posted) : posted.request.isServed = true := by
  obtain ⟨request, hread, hserved⟩ := posted.serialized.served
  have hsame := hread.symm.trans posted.decoded
  rw [Except.ok.injEq] at hsame
  rw [← hsame]
  exact hserved

lemma endsAt (framing : Framing) (posted : Posted) :
    EndsAt framing.requestComplete (posted.frame framing) :=
  framing.requestEndsAt _ posted.decoded posted.isServed

lemma readRequest_frame (framing : Framing) (posted : Posted) :
    framing.readRequest (posted.frame framing)
      = .ok (framing.heading posted.header, posted.request) :=
  framing.readRequest_wrap _ posted.decoded posted.isServed

lemma length_frame (framing : Framing) (posted : Posted) :
    (posted.frame framing).length = framing.aduLength posted.request.pduLength :=
  Framing.length_of_readRequest (posted.readRequest_frame framing) posted.isServed

lemma length_frame_le (framing : Framing) (posted : Posted) :
    (posted.frame framing).length ≤ framing.maxAdu :=
  framing.length_wrap_le _ (Request.length_le_of_ofPdu posted.decoded posted.isServed)

lemma frame_ne_nil (framing : Framing) (posted : Posted) : posted.frame framing ≠ [] :=
  framing.wrap_ne_nil _ _

end Posted

namespace Server

variable {framing : Framing}

/-! ## Counting -/

/-- What becomes of a read: a request, nothing, or bytes held back. -/
lemma absorb_cases (framing : Framing) (pending chunk : Bytes) :
    (∃ request, framing.readRequest (pending ++ chunk) = .ok request ∧
        absorb framing pending chunk = ([], some request)) ∨
      absorb framing pending chunk = ([], none) ∨
      absorb framing pending chunk = (pending ++ chunk, none) := by
  simp only [absorb]
  split_ifs
  · cases hread : framing.readRequest (pending ++ chunk) with
    | ok request => exact .inl ⟨request, rfl, rfl⟩
    | error error => exact .inr (.inl rfl)
  · exact .inr (.inl rfl)
  · exact .inr (.inr rfl)

/-- **The first request that is asked** comes from some of the reads, which have at least the bytes
it needs; the others come from the reads after those. -/
lemma absorbed_eq_cons {first : Header × Request} {rest : List (Header × Request)}
    (hserved : first.2.isServed = true) : ∀ (reads : List Bytes) (pending : Bytes),
      absorbed framing pending reads = first :: rest →
        ∃ before after, reads = before ++ after ∧ absorbed framing [] after = rest ∧
          framing.aduLength first.2.pduLength ≤ pending.length + before.flatten.length
  | [], _, h => by simp [absorbed] at h
  | chunk :: reads, pending, h => by
      rcases absorb_cases framing pending chunk with
        ⟨request, hread, habsorb⟩ | habsorb | habsorb
      · rw [absorbed, habsorb] at h
        obtain ⟨rfl, rfl⟩ := List.cons.inj h
        refine ⟨[chunk], reads, rfl, rfl, ?_⟩
        have hlen := Framing.length_of_readRequest hread hserved
        simp only [List.length_append, List.flatten_cons, List.flatten_nil, List.append_nil]
          at hlen ⊢
        omega
      · rw [absorbed, habsorb] at h
        obtain ⟨before, after, rfl, hafter, hneed⟩ := absorbed_eq_cons hserved reads [] h
        refine ⟨chunk :: before, after, rfl, hafter, ?_⟩
        simp only [List.length_nil, List.flatten_cons, List.length_append] at hneed ⊢
        omega
      · rw [absorbed, habsorb] at h
        obtain ⟨before, after, rfl, hafter, hneed⟩ :=
          absorbed_eq_cons hserved reads (pending ++ chunk) h
        refine ⟨chunk :: before, after, rfl, hafter, ?_⟩
        simp only [List.flatten_cons, List.length_append] at hneed ⊢
        omega

/-- The bytes that the frames of requests take up. -/
def need (framing : Framing) : List (Header × Request) → Nat
  | [] => 0
  | request :: rest => framing.aduLength request.2.pduLength + need framing rest

/-- **Requests that are asked need no more bytes than were read.** -/
lemma need_le : ∀ (requests : List (Header × Request)) (reads : List Bytes),
    absorbed framing [] reads = requests → (∀ request ∈ requests, request.2.isServed = true) →
      need framing requests ≤ reads.flatten.length
  | [], _, _, _ => Nat.zero_le _
  | first :: rest, reads, h, hserved => by
      obtain ⟨before, after, rfl, hafter, hneed⟩ :=
        absorbed_eq_cons (hserved first (List.mem_cons_self ..)) reads [] h
      have hlater := need_le rest after hafter
        fun request hrequest => hserved request (List.mem_cons_of_mem _ hrequest)
      simp only [need, List.length_nil, List.flatten_append, List.length_append] at hneed ⊢
      omega

/-- Requests that clients serialised need the bytes of their frames. -/
lemma need_eq {requests : List (Header × Request)} {posted : List Posted}
    (h : requests.map Prod.snd = posted.map Posted.request) :
    need framing requests = (posted.map (Posted.frame framing)).flatten.length := by
  induction posted generalizing requests with
  | nil =>
      rw [List.map_eq_nil_iff.mp h]
      rfl
  | cons head posted ih =>
      obtain ⟨first, rest, rfl, hfirst, hrest⟩ := List.map_eq_cons_iff.mp h
      rw [need, ih hrest, hfirst, List.map_cons, List.flatten_cons, List.length_append,
        head.length_frame]

/-- **Reads that make up the frames of requests** give those requests. -/
lemma absorbed_of_aligned : ∀ (posted : List Posted) (groups : List (List Bytes)),
    (∀ group ∈ groups, ∀ chunk ∈ group, chunk ≠ []) →
    groups.map List.flatten = posted.map (Posted.frame framing) →
      absorbed framing [] groups.flatten
        = posted.map fun posted => (framing.heading posted.header, posted.request)
  | [], [], _, _ => rfl
  | first :: posted, group :: groups, hsome, h => by
      obtain ⟨hframe, hrest⟩ := List.cons.inj h
      have hgroup : group ≠ [] := by
        rintro rfl
        exact first.frame_ne_nil framing hframe.symm
      have hlater := absorbed_of_aligned posted groups
        (fun other hother => hsome other (List.mem_cons_of_mem _ hother)) hrest
      rw [List.flatten_cons, absorbed_frame (first.endsAt framing) (first.readRequest_frame framing)
        (first.length_frame_le framing) _ group [] hgroup (hsome group (List.mem_cons_self ..))
        hframe, hlater]
      rfl

/-- **If all requests are asked**, the reads make up their frames. -/
lemma aligned_of_absorbed : ∀ (posted : List Posted) (reads : List Bytes),
    (∀ chunk ∈ reads, chunk ≠ []) →
    reads.flatten = (posted.map (Posted.frame framing)).flatten →
    (absorbed framing [] reads).map Prod.snd = posted.map Posted.request →
      ∃ groups : List (List Bytes), groups.flatten = reads ∧
        groups.map List.flatten = posted.map (Posted.frame framing)
  | [], reads, hsome, hbytes, _ => by
      have hnone : reads = [] := by
        cases reads with
        | nil => rfl
        | cons chunk reads =>
            simp only [List.map_nil, List.flatten_nil, List.flatten_cons,
              List.append_eq_nil_iff] at hbytes
            exact absurd hbytes.1 (hsome chunk (List.mem_cons_self ..))
      exact ⟨[], hnone.symm, rfl⟩
  | first :: posted, reads, hsome, hbytes, hasked => by
      obtain ⟨request, rest, habsorbed, hrequest, hrest⟩ := List.map_eq_cons_iff.mp hasked
      obtain ⟨before, after, rfl, hafter, hneed⟩ := absorbed_eq_cons
        (by rw [hrequest]; exact first.isServed) reads [] habsorbed
      have hserved : ∀ request ∈ rest, request.2.isServed = true := by
        intro request hmem
        have hsecond : request.2 ∈ posted.map Posted.request :=
          hrest ▸ List.mem_map.mpr ⟨request, hmem, rfl⟩
        obtain ⟨other, -, hother⟩ := List.mem_map.mp hsecond
        exact hother ▸ other.isServed
      have htotal := need_le rest after hafter hserved
      rw [need_eq hrest] at htotal
      have hlength := congrArg List.length hbytes
      simp only [List.flatten_append, List.length_append, List.map_cons, List.flatten_cons,
        first.length_frame framing, List.length_nil, hrequest] at hlength hneed
      have hcut : before.flatten = first.frame framing ∧
          after.flatten = (posted.map (Posted.frame framing)).flatten := by
        rw [List.flatten_append, List.map_cons, List.flatten_cons] at hbytes
        exact List.append_inj hbytes (by rw [first.length_frame]; omega)
      obtain ⟨groups, hgroups, hframes⟩ := aligned_of_absorbed posted after
        (fun chunk hchunk => hsome chunk (List.mem_append_right _ hchunk)) hcut.2
        (by rw [hafter]; exact hrest)
      refine ⟨before :: groups, ?_, ?_⟩
      · rw [List.flatten_cons, hgroups]
      · rw [List.map_cons, List.map_cons, hcut.1, hframes]

end Server

/-! ## The loop -/

namespace Serving

variable {σ : Type}

lemma replies_heading (handle : Handler σ) (framing : Framing) (posted : List Posted) (state : σ) :
    handle.replies framing state
        (posted.map fun posted => (framing.heading posted.header, posted.request))
      = handle.replies framing state
        (posted.map fun posted => (posted.header, posted.request)) := by
  induction posted generalizing state with
  | nil => rfl
  | cons first posted ih =>
      simp only [List.map_cons, Handler.replies, Framing.heading_unit, Handler.reply_heading, ih]

/-- **A serving loop answers every request exactly when no read goes past the end of one.**  For any
handler, any requests that clients serialise and any way to read their frames: the handler is asked
all of them, in order and once each, and all the replies are written, if and only if the reads fall
into groups that are one frame each. -/
theorem answers_all_iff_aligned (handle : Handler σ) (framing : Framing) (state : σ)
    (posted : List Posted) (reads : List Bytes)
    (hreads : Cut (posted.map (Posted.frame framing)).flatten reads) :
    let served := (start framing state).readAll handle reads
    (served.asked = posted.map (fun posted => (posted.header.unit, posted.request)) ∧
      served.server.outbox = handle.replies framing state
        (posted.map fun posted => (posted.header, posted.request))) ↔
      ∃ groups : List (List Bytes), groups.flatten = reads ∧
        groups.map List.flatten = posted.map (Posted.frame framing) := by
  intro served
  obtain ⟨hasked, houtbox, -⟩ := readAll_eq handle reads hreads.some hreads.fit
    (start framing state) (waiting_start framing state)
  constructor
  · rintro ⟨hall, -⟩
    refine Server.aligned_of_absorbed posted reads hreads.some hreads.whole ?_
    have hrequests := congrArg (List.map Prod.snd) (hasked.symm.trans hall)
    simpa [start, Function.comp_def] using hrequests
  · rintro ⟨groups, rfl, hframes⟩
    have habsorbed := Server.absorbed_of_aligned posted groups
      (fun group hgroup chunk hchunk =>
        hreads.some chunk (List.mem_flatten.mpr ⟨group, hgroup, hchunk⟩)) hframes
    have habsorbed' : Server.absorbed (start framing state).server.framing
        (start framing state).server.pending groups.flatten
          = posted.map fun posted => (framing.heading posted.header, posted.request) := habsorbed
    rw [habsorbed'] at hasked houtbox
    refine ⟨?_, ?_⟩
    · rw [hasked, List.map_map]
      simp [start, Function.comp_def]
    · rw [houtbox]
      exact replies_heading handle framing posted state

/-- **Two requests in one read** are not both answered: there is no way to make two groups of one
read. -/
theorem one_read_of_two_requests :
    let first : Posted := ⟨⟨1, some 1⟩, [0x03, 0, 0, 0, 1], .readWords .holdingRegisters 0 1,
      @Request.Serialized.access (.readWords .holdingRegisters 0 1) _ rfl, rfl⟩
    let second : Posted := ⟨⟨1, some 2⟩, [0x03, 0, 1, 0, 1], .readWords .holdingRegisters 1 1,
      @Request.Serialized.access (.readWords .holdingRegisters 1 1) _ rfl, rfl⟩
    let posted := [first, second]
    let reads := [(posted.map (Posted.frame (.tcp true))).flatten]
    let served := (start (.tcp true) ({} : Device)).readAll Device.answer reads
    Cut (posted.map (Posted.frame (.tcp true))).flatten reads ∧
      ¬ (served.asked = posted.map (fun posted => (posted.header.unit, posted.request)) ∧
        served.server.outbox = Device.answer.replies (.tcp true) {}
          (posted.map fun posted => (posted.header, posted.request))) := by
  intro first second posted reads served
  have hcut : Cut (posted.map (Posted.frame (.tcp true))).flatten reads :=
    ⟨by decide, by decide, by decide⟩
  refine ⟨hcut, fun hall => ?_⟩
  obtain ⟨groups, hgroups, hframes⟩ :=
    (answers_all_iff_aligned Device.answer (.tcp true) {} posted reads hcut).mp hall
  have hsome : ∀ group ∈ groups, group ≠ [] := by
    rintro _ hgroup rfl
    have hframe : ([] : Bytes) ∈ groups.map List.flatten := List.mem_map.mpr ⟨[], hgroup, rfl⟩
    rw [hframes] at hframe
    obtain ⟨request, -, hrequest⟩ := List.mem_map.mp hframe
    exact request.frame_ne_nil _ hrequest
  have hcount := congrArg List.length hframes
  have hreads := congrArg List.length hgroups
  rw [List.length_map, List.length_map] at hcount
  match groups, hcount with
  | [one, other], _ =>
      have hone := List.length_pos_iff.mpr (hsome one (by simp))
      have hother := List.length_pos_iff.mpr (hsome other (by simp))
      simp only [List.flatten_cons, List.flatten_nil, List.length_append, List.length_nil, reads,
        List.length_cons] at hreads
      omega

end Serving

end Modbus
