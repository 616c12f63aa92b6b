import Modbus.Client
import Modbus.Proofs.Memory
import Modbus.Proofs.Result

/-!
# Batches of cells

A write of several cells takes them in any order, sorts them and refuses addresses that repeat or
leave a gap.  `Request.Batched max cells sorted` is what acceptance gives: the cells sorted are a
sequence from their first address on, within the limit and within the address space.

The sort compares addresses as numbers while a sequence counts with words, which start again at
zero.  That the two agree is `Request.sequence_of_addressFault?`: a step upwards by one does not
start again.  The client computes the range it expects to be confirmed without sorting, as the
lowest address and the number of the cells; `Batched.written_eq` says that this is the range that
was sent.
-/

namespace Modbus.Request

variable {α : Type}

/-- **What it means that a batch was accepted.** -/
structure Batched (max : UInt16) (cells sorted : List (Cell α)) : Prop where
  perm : sorted.Perm cells
  some : sorted ≠ []
  short : sorted.length ≤ max.toNat
  space : (range sorted).1.toNat + sorted.length ≤ 65536
  consecutive : Cell.sequence (range sorted).1 (sorted.map Cell.value) = sorted

/-- **Ascending addresses without a gap** are those of a sequence. -/
lemma sequence_of_addressFault? : ∀ (first : Cell α) (rest : List (Cell α)),
    (first :: rest).Pairwise (fun a b => a.address ≤ b.address) →
    addressFault? ((first :: rest).map Cell.address) = none →
      first.address.toNat + (first :: rest).length ≤ 65536 ∧
        Cell.sequence first.address ((first :: rest).map Cell.value) = first :: rest
  | first, [], _, _ => by
      have hbound := first.address.toNat_lt
      simp only [List.length_cons, List.length_nil, List.map_cons, List.map_nil, Cell.sequence]
      exact ⟨by omega, trivial⟩
  | first, second :: rest, hsorted, hfault => by
      simp only [List.map_cons, addressFault?] at hfault
      split_ifs at hfault with hsame hgap
      have hnext : second.address = first.address + 1 := not_not.mp hgap
      have hle : first.address.toNat ≤ second.address.toNat :=
        UInt16.le_iff_toNat_le.mp (List.rel_of_pairwise_cons hsorted (List.mem_cons_self ..))
      have hne : first.address.toNat ≠ second.address.toNat :=
        fun h => hsame (UInt16.toNat_inj.mp h)
      have hstep : second.address.toNat = first.address.toNat + 1 := by
        rw [hnext, UInt16.toNat_add] at hle hne ⊢
        simp only [UInt16.reduceToNat] at hle hne ⊢
        have hbound := first.address.toNat_lt
        omega
      obtain ⟨hspace, hsequence⟩ :=
        sequence_of_addressFault? second rest hsorted.of_cons hfault
      refine ⟨?_, ?_⟩
      · simp only [List.length_cons] at hspace ⊢
        omega
      · rw [List.map_cons, Cell.sequence, ← hnext, hsequence]

/-- The addresses of a sequence follow each other. -/
lemma addressFault?_sequence : ∀ (start : UInt16) (values : List α),
    start.toNat + values.length ≤ 65536 →
      addressFault? ((Cell.sequence start values).map Cell.address) = none
  | _, [], _ => rfl
  | _, [_], _ => rfl
  | start, first :: second :: rest, hspace => by
      have hlater := addressFault?_sequence (start + 1) (second :: rest) (by
        simp only [List.length_cons] at hspace ⊢
        rw [UInt16.toNat_add]
        simp only [UInt16.reduceToNat]
        omega)
      have hstep : start ≠ start + 1 := by
        simp only [List.length_cons] at hspace
        intro hsame
        have hnat := congrArg UInt16.toNat hsame
        rw [UInt16.toNat_add] at hnat
        simp only [UInt16.reduceToNat] at hnat
        omega
      simp only [Cell.sequence, List.map_cons, addressFault?, if_neg hstep, ne_eq, not_true_eq_false,
        if_false]
      exact hlater

/-- The cells of a batch as it sorts them. -/
def ascending (cells : List (Cell α)) : List (Cell α) :=
  cells.mergeSort fun a b => a.address ≤ b.address

lemma perm_ascending (cells : List (Cell α)) : (ascending cells).Perm cells :=
  List.mergeSort_perm cells _

lemma pairwise_ascending (cells : List (Cell α)) :
    (ascending cells).Pairwise fun a b => a.address ≤ b.address := by
  have htrans : ∀ a b c : Cell α, decide (a.address ≤ b.address) →
      decide (b.address ≤ c.address) → decide (a.address ≤ c.address) := by
    intro a b c hab hbc
    simp only [decide_eq_true_eq] at *
    exact UInt16.le_trans hab hbc
  have htotal : ∀ a b : Cell α, decide (a.address ≤ b.address) || decide (b.address ≤ a.address) := by
    intro a b
    simp only [Bool.or_eq_true, decide_eq_true_eq]
    exact UInt16.le_total ..
  simpa only [ascending, decide_eq_true_eq] using List.pairwise_mergeSort htrans htotal cells

/-- **Acceptance of a batch.** -/
lemma batched_of_batch {max : UInt16} {cells accepted : List (Cell α)}
    (h : batch max cells = .ok accepted) : Batched max cells accepted := by
  unfold batch at h
  split_ifs at h with hempty hmany
  simp only at h
  split at h
  · simp at h
  · rename_i hfault
    obtain rfl : ascending cells = accepted := Except.ok.inj h
    have hperm := perm_ascending cells
    have hlen := hperm.length_eq
    cases hsorted : ascending cells with
    | nil => exact absurd (hsorted ▸ hperm).symm.eq_nil hempty
    | cons first rest =>
        obtain ⟨hspace, hsequence⟩ := sequence_of_addressFault? first rest
          (hsorted ▸ pairwise_ascending cells) (hsorted ▸ hfault)
        rw [hsorted] at hperm hlen
        exact ⟨hperm, List.cons_ne_nil _ _, by omega, hspace, hsequence⟩

namespace Batched

variable {max : UInt16} {cells sorted : List (Cell α)}

lemma map_address (h : Batched max cells sorted) :
    sorted.map (fun cell => cell.address.toNat)
      = List.range' (range sorted).1.toNat sorted.length := by
  have haddresses := Cell.map_address_sequence (range sorted).1 (sorted.map Cell.value)
    (by rw [List.length_map]; exact h.space)
  rwa [h.consecutive, List.length_map] at haddresses

/-- No address is written twice. -/
lemma nodup (h : Batched max cells sorted) : (cells.map Cell.address).Nodup := by
  have hnumbers : ((sorted.map Cell.address).map UInt16.toNat).Nodup := by
    rw [List.map_map]
    exact h.map_address ▸ List.nodup_range' ..
  exact (h.perm.map Cell.address).nodup_iff.mp (.of_map _ hnumbers)

/-- The count that travels is the number of the cells. -/
lemma count_toNat (h : Batched max cells sorted) :
    (range sorted).2.toNat = sorted.length := by
  have hbound := max.toNat_lt
  have hshort := h.short
  rw [range, UInt16.toNat_ofNat']
  omega

lemma foldl_min_eq {lowest : UInt16} : ∀ (cells : List (Cell α)) (sofar : UInt16),
    lowest ≤ sofar → (∀ cell ∈ cells, lowest ≤ cell.address) →
    (sofar = lowest ∨ ∃ cell ∈ cells, cell.address = lowest) →
      cells.foldl (fun sofar cell => min sofar cell.address) sofar = lowest
  | [], sofar, _, _, hreached => by
      simpa using hreached
  | cell :: rest, sofar, hsofar, hcells, hreached => by
      have hcell := hcells cell (List.mem_cons_self ..)
      have hmin : min sofar cell.address
          = if sofar ≤ cell.address then sofar else cell.address := rfl
      rw [List.foldl_cons, hmin]
      refine foldl_min_eq rest _ (by split_ifs <;> assumption)
        (fun other hother => hcells other (List.mem_cons_of_mem _ hother)) ?_
      rcases hreached with rfl | ⟨other, hother, haddress⟩
      · exact .inl (if_pos hcell)
      · rcases List.mem_cons.mp hother with rfl | hlater
        · refine .inl ?_
          rw [haddress]
          split_ifs with hle
          · exact UInt16.le_antisymm hle hsofar
          · rfl
        · exact .inr ⟨other, hlater, haddress⟩

/-- The range begins at or below every address of the batch. -/
lemma lowest_le (h : Batched max cells sorted) : ∀ cell ∈ cells, (range sorted).1 ≤ cell.address := by
  intro cell hcell
  have hmem : cell.address.toNat ∈ sorted.map (fun cell => cell.address.toNat) :=
    List.mem_map.mpr ⟨cell, h.perm.symm.subset hcell, rfl⟩
  rw [h.map_address, List.mem_range'_1] at hmem
  exact UInt16.le_iff_toNat_le.mpr hmem.1

lemma exists_lowest (h : Batched max cells sorted) :
    ∃ cell ∈ cells, cell.address = (range sorted).1 := by
  obtain ⟨first, rest, hsorted⟩ := List.exists_cons_of_ne_nil h.some
  refine ⟨first, h.perm.subset (hsorted ▸ List.mem_cons_self ..), ?_⟩
  rw [hsorted]
  rfl

/-- **The range that the client expects** is the range that it sent. -/
lemma written_eq (h : Batched max cells sorted) : Client.written cells = range sorted := by
  have hmax : (range sorted).1 ≤ 0xFFFF := by
    have hbound := (range sorted).1.toNat_lt
    rw [UInt16.le_iff_toNat_le]
    simp only [UInt16.reduceToNat]
    omega
  rw [Client.written, foldl_min_eq cells 0xFFFF hmax h.lowest_le (.inr h.exists_lowest)]
  simp only [range, h.perm.length_eq]

end Batched

end Modbus.Request
