import Modbus.Connection.Step
import Modbus.Proofs.Framing.Completion

/-!
# Reading a reply

The worker reads chunk after chunk until the bytes so far are a whole reply.  Over a reply that
shows its end (`EndsAt`) it stops at the last byte, however the reply is cut, and leaves what lies
behind it unread (`Connection.receive_reply`).
-/

namespace Modbus.Connection

variable {σ α : Type} [Peer σ]

/-- **One read of a chunk** that one read takes in as a whole. -/
lemma step_receiving (connection : Connection σ α) {item : Queued} {received chunk : Bytes}
    {later : List Bytes} (hworker : connection.worker = .receiving item received)
    (hopen : connection.wire.connected = true) (harriving : connection.wire.arriving = chunk :: later)
    (hsome : chunk ≠ []) (hfit : chunk.length ≤ Limit.readBuffer) :
    (connection.step .worker).wire = { connection.wire with arriving := later } ∧
      (connection.step .worker).worker =
        if item.complete (received ++ chunk) then .concluding item (.ok (received ++ chunk))
        else .receiving item (received ++ chunk) := by
  obtain ⟨first, rest, rfl⟩ := List.exists_cons_of_ne_nil hsome
  have htake : (first :: rest).take Limit.readBuffer = first :: rest := List.take_of_length_le hfit
  have hwhole : ¬ Limit.readBuffer < (first :: rest).length := Nat.not_lt.mpr hfit
  simp only [step, Worker.step?, hworker, Worker.receive, Wire.receive, hopen, if_true, harriving,
    htake, hwhole, if_false, Option.getD_some]
  split_ifs <;> exact ⟨rfl, rfl⟩

/-- **The worker stops at the last byte of a reply**, whatever arrives behind it. -/
lemma receive_reply {item : Queued} {reply : Bytes} (hends : EndsAt item.complete reply)
    (behind : List Bytes) : ∀ (reads : List Bytes) (connection : Connection σ α) (received : Bytes),
      reads ≠ [] → (∀ chunk ∈ reads, chunk ≠ []) →
      (∀ chunk ∈ reads, chunk.length ≤ Limit.readBuffer) → received ++ reads.flatten = reply →
      connection.worker = .receiving item received → connection.wire.connected = true →
      connection.wire.arriving = reads ++ behind →
        (connection.run (List.replicate reads.length .worker)).worker
            = .concluding item (.ok reply) ∧
          (connection.run (List.replicate reads.length .worker)).wire.arriving = behind
  | [], _, _, hreads, _, _, _, _, _, _ => absurd rfl hreads
  | [chunk], connection, received, _, hsome, hfit, hreply, hworker, hopen, harriving => by
      obtain ⟨hwire, hnext⟩ := step_receiving connection hworker hopen harriving
        (hsome chunk (by simp)) (hfit chunk (by simp))
      have hwhole : received ++ chunk = reply := by simpa using hreply
      rw [hwhole, if_pos hends.whole] at hnext
      refine ⟨hnext, ?_⟩
      exact congrArg Wire.arriving hwire
  | chunk :: next :: rest, connection, received, _, hsome, hfit, hreply, hworker, hopen,
      harriving => by
      obtain ⟨hwire, hnext⟩ := step_receiving connection hworker hopen harriving
        (hsome chunk (by simp)) (hfit chunk (by simp))
      have hlonger := List.length_pos_iff.mpr (hsome next (by simp))
      have hpart : received ++ chunk <+: reply := ⟨(next :: rest).flatten, by rw [← hreply]; simp⟩
      have hshort : (received ++ chunk).length < reply.length := by
        rw [← hreply]
        simp only [List.length_append, List.flatten_cons]
        omega
      rw [hends.before _ hpart hshort, if_neg Bool.false_ne_true] at hnext
      exact receive_reply hends behind (next :: rest) (connection.step .worker)
        (received ++ chunk) (List.cons_ne_nil _ _)
        (fun other hother => hsome other (List.mem_cons_of_mem _ hother))
        (fun other hother => hfit other (List.mem_cons_of_mem _ hother))
        (by rw [← hreply]; simp) hnext (by rw [hwire]; exact hopen) (by rw [hwire]; rfl)

end Modbus.Connection
