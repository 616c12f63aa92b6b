import Mathlib.Data.List.Nodup
import Mathlib.Data.List.Range
import Mathlib.Tactic.Common
import Modbus.Store

/-!
# Ranges of memory

A client asks for a range of cells or writes a batch of them; a device reads and updates a table of
65536 cells one by one, with addresses that start again at zero.  This file states what both mean
without the recursion of either.

* `Covers table start count cells`: the cells stand at `count` addresses from `start` on, counted
  as numbers and so without starting again, and hold what the table holds there.
* `overlay table cells`: the table that reads as the cells where there is one, and as before
  everywhere else.

`covers_sequence` and `foldl_update` are the two bridges: from reading cell after cell to `Covers`,
and from updating cell after cell to `overlay`, in any order, as long as no address is repeated.
-/

namespace Modbus

variable {α : Type}

/-! ## Reading -/

/-- **The cells of a range**, at ascending addresses none of which starts again at zero. -/
def Covers (table : UInt16 → α) (start count : UInt16) (cells : List (Cell α)) : Prop :=
  cells.map (fun cell => cell.address.toNat) = List.range' start.toNat count.toNat ∧
    ∀ cell ∈ cells, cell.value = table cell.address

namespace Cell

/-- The addresses of a sequence that stays within the address space. -/
lemma map_address_sequence : ∀ (start : UInt16) (values : List α),
    start.toNat + values.length ≤ 65536 →
      (sequence start values).map (fun cell => cell.address.toNat)
        = List.range' start.toNat values.length
  | _, [], _ => rfl
  | start, _ :: [], _ => by simp [sequence]
  | start, value :: next :: rest, hspace => by
      simp only [List.length_cons] at hspace
      have hstep : (start + 1).toNat = start.toNat + 1 := by
        rw [UInt16.toNat_add]
        simp only [UInt16.reduceToNat]
        omega
      have hlater := map_address_sequence (start + 1) (next :: rest)
        (by simp only [List.length_cons]; omega)
      rw [sequence, List.map_cons, hlater, hstep]
      simp [List.range'_succ]

lemma sequence_append (start : UInt16) (front back : List α) :
    sequence start (front ++ back)
      = sequence start front ++ sequence (start + UInt16.ofNat front.length) back := by
  induction front generalizing start with
  | nil => simp [sequence]
  | cons value rest ih =>
      have hstep : start + 1 + UInt16.ofNat rest.length
          = start + UInt16.ofNat (rest.length + 1) := by
        rw [UInt16.add_assoc, UInt16.ofNat_add, UInt16.add_comm 1]
        rfl
      simp only [List.cons_append, sequence, ih, List.length_cons, hstep]

end Cell

/-- One more cell read. -/
lemma read_succ (table : UInt16 → α) (start : UInt16) (count : Nat) :
    Image.read table start (count + 1)
      = Image.read table start count ++ [table (start + UInt16.ofNat count)] := by
  simp [Image.read, List.range_succ]

@[simp] lemma length_read (table : UInt16 → α) (start : UInt16) (count : Nat) :
    (Image.read table start count).length = count := by
  simp [Image.read]

/-- Every cell that is read holds what the table holds at its address. -/
lemma value_of_mem_sequence_read (table : UInt16 → α) (start : UInt16) (count : Nat) :
    ∀ cell ∈ Cell.sequence start (Image.read table start count),
      cell.value = table cell.address := by
  induction count with
  | zero => simp [Image.read, Cell.sequence]
  | succ count ih =>
      intro cell hcell
      rw [read_succ, Cell.sequence_append, length_read, List.mem_append] at hcell
      rcases hcell with hbefore | hlast
      · exact ih cell hbefore
      · simp only [Cell.sequence, List.mem_singleton] at hlast
        rw [hlast]

/-- **Reading cell after cell** covers a range that stays within the address space. -/
lemma covers_sequence (table : UInt16 → α) {start count : UInt16}
    (hspace : start.toNat + count.toNat ≤ 65536) :
    Covers table start count (Cell.sequence start (Image.read table start count.toNat)) := by
  refine ⟨?_, value_of_mem_sequence_read table start count.toNat⟩
  rw [Cell.map_address_sequence start _ (by rw [length_read]; exact hspace), length_read]

/-! ## Writing -/

/-- **A table with cells laid over it.** -/
def overlay (table : UInt16 → α) (cells : List (Cell α)) : UInt16 → α :=
  fun address =>
    match cells.find? fun cell => cell.address = address with
    | some cell => cell.value
    | none => table address

/-- Two cells of a batch at one address are the same. -/
lemma eq_of_address_eq {cells : List (Cell α)} (hnodup : (cells.map Cell.address).Nodup)
    {first second : Cell α} (hfirst : first ∈ cells) (hsecond : second ∈ cells)
    (h : first.address = second.address) : first = second :=
  List.inj_on_of_nodup_map hnodup hfirst hsecond h

lemma overlay_of_mem (table : UInt16 → α) {cells : List (Cell α)} {cell : Cell α}
    (hnodup : (cells.map Cell.address).Nodup) (hmem : cell ∈ cells) :
    overlay table cells cell.address = cell.value := by
  cases hfind : cells.find? fun other => other.address = cell.address with
  | none =>
      have hnone := List.find?_eq_none.mp hfind cell hmem
      simp at hnone
  | some found =>
      have haddress : found.address = cell.address := by
        simpa using List.find?_some hfind
      have hsame := eq_of_address_eq hnodup (List.mem_of_find?_eq_some hfind) hmem haddress
      rw [overlay, hfind, hsame]

lemma overlay_of_notMem (table : UInt16 → α) {cells : List (Cell α)} {address : UInt16}
    (h : ∀ cell ∈ cells, cell.address ≠ address) :
    overlay table cells address = table address := by
  have hnone : (cells.find? fun cell => cell.address = address) = none := by
    rw [List.find?_eq_none]
    simpa using h
  rw [overlay, hnone]

/-- The order of a batch does not matter. -/
lemma overlay_perm (table : UInt16 → α) {cells sorted : List (Cell α)}
    (hperm : cells.Perm sorted) (hnodup : (cells.map Cell.address).Nodup) :
    overlay table cells = overlay table sorted := by
  have hnodup' := (hperm.map Cell.address).nodup_iff.mp hnodup
  funext address
  by_cases h : ∃ cell ∈ cells, cell.address = address
  · obtain ⟨cell, hmem, rfl⟩ := h
    rw [overlay_of_mem table hnodup hmem, overlay_of_mem table hnodup' (hperm.subset hmem)]
  · push Not at h
    rw [overlay_of_notMem table h,
      overlay_of_notMem table fun cell hcell => h cell (hperm.symm.subset hcell)]

/-- **Updating cell after cell** lays the cells over the table. -/
lemma foldl_update (table : UInt16 → α) {cells : List (Cell α)}
    (hnodup : (cells.map Cell.address).Nodup) :
    cells.foldl (fun table cell => Image.update table cell.address cell.value) table
      = overlay table cells := by
  induction cells generalizing table with
  | nil => rfl
  | cons cell rest ih =>
      rw [List.map_cons, List.nodup_cons] at hnodup
      obtain ⟨hfresh, hrest⟩ := hnodup
      rw [List.foldl_cons, ih _ hrest]
      funext address
      by_cases haddress : address = cell.address
      · subst haddress
        rw [overlay_of_notMem _ fun other hother h =>
          hfresh (List.mem_map.mpr ⟨other, hother, h⟩)]
        simp [Image.update, overlay]
      · simp only [overlay, List.find?_cons, Ne.symm haddress, decide_false, Image.update,
          if_neg haddress]

end Modbus
