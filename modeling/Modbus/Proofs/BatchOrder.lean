import Mathlib.Data.List.Perm.Subperm
import Mathlib.Data.List.Sort
import Modbus.Proofs.Service

/-!
# The order of a batch

A write of several cells takes them in any order.  What it does is to sort them and to look at the
addresses of neighbours, one pair after the other, and the addresses and the values are put in order
by separate passes.  This file says what that comes to with no order at all: which batches are
accepted is a matter of the set of their addresses (`Contiguous`, `batch_eq_ok_iff`), and the
outcome is the same for every permutation (`batch_perm`).

In one direction an accepted batch is a sequence, which `Batch` knows.  In the other, as many
distinct addresses as there are numbers between the smallest and the largest are all of these
numbers (`Contiguous.map_address`), and neighbours among them differ by one.
-/

namespace Modbus.Request

variable {α : Type} {max : UInt16} {cells other : List (Cell α)}

/-! ## Which batches are accepted -/

/-- **A batch without repetition and without a gap**: no two addresses are the same, and there are
as many as from the smallest to the largest. -/
structure Contiguous (cells : List (Cell α)) : Prop where
  distinct : (cells.map Cell.address).Nodup
  filled : ∃ smallest ∈ cells.map Cell.address, ∃ largest ∈ cells.map Cell.address,
    (∀ address ∈ cells.map Cell.address, smallest ≤ address ∧ address ≤ largest) ∧
      largest.toNat - smallest.toNat + 1 = cells.length

lemma Batched.contiguous {sorted : List (Cell α)} (h : Batched max cells sorted) :
    Contiguous cells := by
  obtain ⟨first, hfirst, hsmallest⟩ := h.exists_lowest
  have hsome := List.length_pos_iff.mpr h.some
  have hlength := h.perm.length_eq
  -- The last number of the range is the address of some cell.
  obtain ⟨last, hlast, hlargest⟩ : ∃ last ∈ sorted,
      last.address.toNat = (range sorted).1.toNat + (sorted.length - 1) := by
    have hmem : (range sorted).1.toNat + (sorted.length - 1)
        ∈ sorted.map fun cell => cell.address.toNat := by
      rw [h.map_address, List.mem_range'_1]
      omega
    exact List.mem_map.mp hmem
  refine ⟨h.nodup, first.address, List.mem_map_of_mem hfirst, last.address,
    List.mem_map_of_mem (h.perm.subset hlast), fun address haddress => ?_, ?_⟩
  · obtain ⟨cell, hcell, rfl⟩ := List.mem_map.mp haddress
    have hmem : cell.address.toNat ∈ sorted.map fun cell => cell.address.toNat :=
      List.mem_map.mpr ⟨cell, h.perm.symm.subset hcell, rfl⟩
    rw [h.map_address, List.mem_range'_1] at hmem
    rw [hsmallest, UInt16.le_iff_toNat_le, UInt16.le_iff_toNat_le]
    omega
  · rw [hsmallest]
    omega

/-- **The addresses of a contiguous batch**, in order, are consecutive numbers. -/
lemma Contiguous.map_address (h : Contiguous cells) :
    ∃ first : UInt16, first.toNat + cells.length ≤ 65536 ∧
      (ascending cells).map (fun cell => cell.address.toNat)
        = List.range' first.toNat cells.length := by
  obtain ⟨smallest, hsmallest, largest, -, hbounds, hcount⟩ := h.filled
  have hperm := perm_ascending cells
  have hnodup : ((ascending cells).map fun cell => cell.address.toNat).Nodup := by
    have haddresses := (hperm.map Cell.address).nodup_iff.mpr h.distinct
    have hnumbers := haddresses.map (f := UInt16.toNat) fun _ _ => UInt16.toNat_inj.mp
    rwa [List.map_map] at hnumbers
  have hsubset : ((ascending cells).map fun cell => cell.address.toNat)
      ⊆ List.range' smallest.toNat cells.length := by
    intro number hnumber
    obtain ⟨cell, hcell, rfl⟩ := List.mem_map.mp hnumber
    obtain ⟨hlow, hhigh⟩ := hbounds cell.address (List.mem_map_of_mem (hperm.subset hcell))
    rw [UInt16.le_iff_toNat_le] at hlow hhigh
    rw [List.mem_range'_1]
    omega
  -- As many distinct numbers as there are places fill all of them.
  have hfilled := (hnodup.subperm hsubset).perm_of_length_le (by simp [hperm.length_eq])
  refine ⟨smallest, ?_, hfilled.eq_of_pairwise' (r := (· ≤ ·)) ?_ List.pairwise_le_range'⟩
  · have hbound := largest.toNat_lt
    have hle := UInt16.le_iff_toNat_le.mp (hbounds smallest hsmallest).2
    omega
  · rw [List.pairwise_map]
    exact (pairwise_ascending cells).imp UInt16.le_iff_toNat_le.mp

/-- In a contiguous batch no two neighbours are at fault. -/
lemma Contiguous.addressFault? (h : Contiguous cells) :
    addressFault? ((ascending cells).map Cell.address) = none := by
  obtain ⟨first, hspace, haddresses⟩ := h.map_address
  have hlength : ((ascending cells).map Cell.value).length = cells.length := by
    rw [List.length_map, (perm_ascending cells).length_eq]
  have hsame : (ascending cells).map Cell.address
      = (Cell.sequence first ((ascending cells).map Cell.value)).map Cell.address := by
    refine List.map_injective_iff.mpr (fun _ _ => UInt16.toNat_inj.mp) ?_
    rw [List.map_map, List.map_map]
    refine haddresses.trans (Eq.symm ?_)
    rw [← hlength]
    exact Cell.map_address_sequence first _ (hlength ▸ hspace)
  rw [hsame]
  exact addressFault?_sequence first _ (hlength ▸ hspace)

lemma batch_of_some (hsome : cells ≠ []) (hshort : cells.length ≤ max.toNat) :
    batch max cells = match addressFault? ((ascending cells).map Cell.address) with
      | some fault => .error (.invalidArgument fault)
      | none => .ok (ascending cells) := by
  rw [batch, if_neg hsome, if_neg (Nat.not_lt.mpr hshort)]
  rfl

/-- **The batches that are accepted**, with no word about their order. -/
lemma batch_eq_ok_iff : (∃ sorted, batch max cells = .ok sorted) ↔
    cells ≠ [] ∧ cells.length ≤ max.toNat ∧ Contiguous cells := by
  constructor
  · rintro ⟨sorted, h⟩
    have hbatched := batched_of_batch h
    refine ⟨?_, hbatched.perm.length_eq ▸ hbatched.short, hbatched.contiguous⟩
    rintro rfl
    exact hbatched.some hbatched.perm.eq_nil
  · rintro ⟨hsome, hshort, hcontiguous⟩
    rw [batch_of_some hsome hshort, hcontiguous.addressFault?]
    exact ⟨_, rfl⟩

/-! ## The same outcome in any order -/

/-- The addresses of a batch in order do not depend on the order in which it is given. -/
lemma map_address_ascending (hperm : cells.Perm other) :
    (ascending cells).map Cell.address = (ascending other).map Cell.address := by
  have hordered (cells : List (Cell α)) :
      ((ascending cells).map Cell.address).Pairwise (· ≤ ·) := by
    rw [List.pairwise_map]
    exact pairwise_ascending cells
  have hsame := ((perm_ascending cells).trans (hperm.trans (perm_ascending other).symm)).map
    Cell.address
  exact hsame.eq_of_pairwise (fun _ _ _ _ => UInt16.le_antisymm) (hordered cells) (hordered other)

/-- Nor do its cells, unless two of them have the same address. -/
lemma ascending_eq_of_perm (hdistinct : (cells.map Cell.address).Nodup)
    (hperm : cells.Perm other) : ascending cells = ascending other := by
  have hcells := perm_ascending cells
  have hother := hperm.trans (perm_ascending other).symm
  refine (hcells.trans hother).eq_of_pairwise (fun first second hfirst hsecond hle hge => ?_)
    (pairwise_ascending cells) (pairwise_ascending other)
  exact eq_of_address_eq hdistinct (hcells.subset hfirst) (hother.symm.subset hsecond)
    (UInt16.le_antisymm hle hge)

/-- **A batch comes to the same in any order**, accepted or not. -/
lemma batch_perm (hperm : cells.Perm other) : batch max cells = batch max other := by
  by_cases hsome : cells = []
  · obtain rfl : other = [] := (hsome ▸ hperm).nil_eq.symm
    rw [hsome]
  · have hother : other ≠ [] := fun hnil => hsome (hnil ▸ hperm).eq_nil
    by_cases hshort : cells.length ≤ max.toNat
    · have hshort' : other.length ≤ max.toNat := hperm.length_eq ▸ hshort
      rw [batch_of_some hsome hshort, batch_of_some hother hshort', map_address_ascending hperm]
      cases hfault : addressFault? ((ascending other).map Cell.address) with
      | some fault => rfl
      | none =>
          have haccepted : batch max other = .ok (ascending other) := by
            rw [batch_of_some hother hshort', hfault]
          have hdistinct := (batched_of_batch haccepted).nodup
          rw [ascending_eq_of_perm ((hperm.map Cell.address).nodup_iff.mpr hdistinct) hperm]
    · have hlong := Nat.lt_of_not_le hshort
      rw [batch, if_neg hsome, if_pos hlong, batch, if_neg hother,
        if_pos (hperm.length_eq ▸ hlong), hperm.length_eq]

/-! ## Writes of several cells -/

/-- **What a write of several cells comes to**, for a writer of PDUs that takes at most `limit`
cells and for the request that a device reads in its PDUs. -/
structure BatchLaw (limit : Nat) (write : List (Cell α) → Result Bytes)
    (request : List (Cell α) → Request) : Prop where
  accepted : ∀ cells, (∃ pdu, write cells = .ok pdu) ↔
    cells ≠ [] ∧ cells.length ≤ limit ∧ Contiguous cells
  unordered : ∀ cells other, cells.Perm other → write cells = write other
  empty : write [] = .error (.invalidArgument .emptyBatch)
  overlong : ∀ cells, limit < cells.length → ∃ fault, write cells = .error (.outOfRange fault)
  /-- An address that repeats, or one that is left out. -/
  unfit : ∀ cells, cells.length ≤ limit → ¬ Contiguous cells →
    ∃ fault, write cells = .error (.invalidArgument fault)
  /-- The device reads the same cells, each with its value, by ascending addresses. -/
  decoded : ∀ cells pdu, write cells = .ok pdu →
    ∃ sorted, sorted.Perm cells ∧ (sorted.Pairwise fun a b => a.address < b.address) ∧
      ofPdu pdu = .ok (request sorted)

lemma Batched.pairwise {sorted : List (Cell α)} (h : Batched max cells sorted) :
    sorted.Pairwise fun a b => a.address < b.address := by
  have hnumbers : (sorted.map fun cell => cell.address.toNat).Pairwise (· < ·) := by
    rw [h.map_address]
    exact List.pairwise_lt_range'
  rw [List.pairwise_map] at hnumbers
  exact hnumbers.imp UInt16.lt_iff_toNat_lt.mpr

variable (max) in
lemma batchLaw_of_batch {write : List (Cell α) → Result Bytes} {layout : List (Cell α) → Bytes}
    {request : List (Cell α) → Request}
    (hwrite : ∀ cells, write cells = batch max cells >>= fun sorted => .ok (layout sorted))
    (hread : ∀ cells sorted, Batched max cells sorted →
      ofPdu (layout sorted) = .ok (request sorted)) :
    BatchLaw max.toNat write request where
  accepted cells := by
    rw [← batch_eq_ok_iff, hwrite]
    cases batch max cells with
    | error error => simp
    | ok sorted => simp
  unordered cells other hperm := by rw [hwrite, hwrite, batch_perm hperm]
  empty := by
    rw [hwrite, batch, if_pos rfl]
    rfl
  overlong cells hlong := by
    have hsome : cells ≠ [] := List.ne_nil_of_length_pos (by omega)
    rw [hwrite, batch, if_neg hsome, if_pos hlong]
    exact ⟨_, rfl⟩
  unfit cells hshort hunfit := by
    by_cases hsome : cells = []
    · rw [hwrite, batch, if_pos hsome]
      exact ⟨_, rfl⟩
    · have hrefused : ¬ ∃ sorted, batch max cells = .ok sorted :=
        fun h => hunfit (batch_eq_ok_iff.mp h).2.2
      rw [hwrite]
      rw [batch_of_some hsome hshort] at hrefused ⊢
      cases hfault : addressFault? ((ascending cells).map Cell.address) with
      | some fault => exact ⟨fault, rfl⟩
      | none => exact absurd ⟨_, by rw [hfault]⟩ hrefused
  decoded cells pdu h := by
    rw [hwrite] at h
    obtain ⟨sorted, hbatch, hpdu⟩ := Result.bind_eq_ok.mp h
    have hbatched := batched_of_batch hbatch
    obtain rfl := Except.ok.inj hpdu
    exact ⟨sorted, hbatched.perm, hbatched.pairwise, hread cells sorted hbatched⟩

/-- **Batches are accepted, refused and sent with no regard to their order**, up to 1968 coils and up
to 123 registers. -/
theorem batches_in_any_order :
    BatchLaw 1968 writeCoilsPdu .writeCoils ∧ BatchLaw 123 writeRegistersPdu .writeRegisters :=
  ⟨batchLaw_of_batch Limit.writeCoils (fun _ => rfl) fun _ _ h =>
      (Access.served_writeCoils {} h).read,
    batchLaw_of_batch Limit.writeRegisters (fun _ => rfl) fun _ _ h =>
      (Access.served_writeRegisters {} h).read⟩

/-- The last three registers, in two orders. -/
theorem last_registers_in_two_orders :
    let first : List Register := [⟨65534, 2⟩, ⟨65535, 3⟩, ⟨65533, 1⟩]
    let second : List Register := [⟨65535, 3⟩, ⟨65533, 1⟩, ⟨65534, 2⟩]
    ∃ pdu, writeRegistersPdu first = .ok pdu ∧ writeRegistersPdu second = .ok pdu ∧
      ofPdu pdu = .ok (.writeRegisters [⟨65533, 1⟩, ⟨65534, 2⟩, ⟨65535, 3⟩]) := by
  intro first second
  have hlaw := batches_in_any_order.2
  have hfirst : writeRegistersPdu first
      = .ok [0x10, 0xFF, 0xFD, 0, 3, 6, 0, 1, 0, 2, 0, 3] := by
    simp [first, writeRegistersPdu, batch, List.mergeSort]
    rfl
  refine ⟨_, hfirst, ?_, by decide⟩
  rw [← hlaw.unordered first second (by decide), hfirst]

end Modbus.Request
