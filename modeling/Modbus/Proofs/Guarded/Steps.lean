import Mathlib.Algebra.Group.Nat.Defs
import Mathlib.Data.List.Basic
import Modbus.Checksum
import Modbus.Proofs.Result

/-!
# Reading by position

The readers of this library take lists apart by their shape, so none of them has an index that could
be wrong.  A reader that works on a buffer goes by position: it compares a length once, and every
index, slice and subtraction that follows relies on that comparison, wherever it stands.

`Guarded` is such a reader with each of these steps checked.  It comes to a value or to an error, as
any reader does, or it leaves its bytes, which is `none`; `Guarded.within` is the reader that does
not.  The readers by position are written in this monad, in the files beside this one, and each is
equal to `within` what the reader of the library comes to.  What has no step to check, such as a
look-up that may find nothing, they take from the library as it is.

The steps are `byteAt`, `slice` and `word` for bytes, and `plus`, `times`, `minus` and `mask` for
the numbers that positions are made of.  The lemmas say when a step stays within; `bind_within` and
`ite_within` put readers that stay within together.
-/

namespace Modbus

/-- **A reader whose steps are checked.**  `none` is a step that leaves the bytes, or the numbers,
at hand. -/
abbrev Guarded (α : Type) : Type := ExceptT Error Option α

namespace Guarded

variable {α β : Type}

/-- The reader that stays within its bytes and comes to `result`. -/
def within (result : Result α) : Guarded α :=
  ExceptT.mk (some result)

/-- A step that leaves the bytes unless there is a value. -/
def step (value? : Option α) : Guarded α :=
  ExceptT.mk (value?.map .ok)

/-- What a reader comes to, as a value. -/
def outcome (reader : Guarded α) : Guarded (Result α) :=
  ExceptT.mk (reader.run.map .ok)

/-! ## The steps -/

def byteAt (bytes : Bytes) (index : Nat) : Guarded UInt8 :=
  step bytes[index]?

/-- A sum of 32 bits, the width in which sizes and addresses are added. -/
def plus (a b : Nat) : Guarded Nat :=
  step (if a + b < 2 ^ 32 then some (a + b) else none)

def times (a b : Nat) : Guarded Nat :=
  step (if a * b < 2 ^ 32 then some (a * b) else none)

def minus (a b : Nat) : Guarded Nat :=
  step (if b ≤ a then some (a - b) else none)

/-- The byte with one bit set, counted from the lowest. -/
def mask (place : Nat) : Guarded UInt8 :=
  step (if place < 8 then some (1 <<< UInt8.ofNat place) else none)

/-- The bytes from `first` up to, and without, `last`. -/
def slice (bytes : Bytes) (first last : Nat) : Guarded Bytes :=
  step (if first ≤ last ∧ last ≤ bytes.length then some ((bytes.drop first).take (last - first))
    else none)

/-- The word whose first byte is at `offset`. -/
def word (bytes : Bytes) (offset : Nat) : Guarded UInt16 := do
  return Word.ofBytes (← byteAt bytes offset) (← byteAt bytes (← plus offset 1))

/-! ## Staying within -/

@[simp] lemma run_within (result : Result α) : (within result).run = some result := rfl

@[simp] lemma within_ok (value : α) : (within (.ok value)) = pure value := rfl

@[simp] lemma within_error (error : Error) :
    (within (.error error) : Guarded α) = throw error := rfl

@[simp] lemma step_some (value : α) : step (some value) = pure value := rfl

@[simp] lemma outcome_within (result : Result α) : outcome (within result) = pure result := rfl

/-- **Readers that stay within can follow each other.** -/
lemma bind_within {result : Result α} {next : α → Guarded β} {after : α → Result β}
    (h : ∀ value, result = .ok value → next value = within (after value)) :
    (within result >>= next) = within (result >>= after) := by
  cases result with
  | ok value => exact h value rfl
  | error error => rfl

/-- A reader that refuses what its successor relies on. -/
lemma ite_within {refused : Prop} [Decidable refused] (error : Error) {reader : Guarded α}
    {result : Result α} (h : ¬ refused → reader = within result) :
    (if refused then throw error else reader)
      = within (if refused then .error error else result) := by
  by_cases hrefused : refused
  · rw [if_pos hrefused, if_pos hrefused, within_error]
  · rw [if_neg hrefused, if_neg hrefused, h hrefused]

lemma map_within (result : Result α) (change : α → β) :
    (within result >>= fun value => pure (change value)) = within (result.map change) := by
  cases result with
  | ok value => rfl
  | error error => rfl

lemma byteAt_eq {bytes : Bytes} {index : Nat} {byte : UInt8} (h : bytes[index]? = some byte) :
    byteAt bytes index = pure byte := by
  rw [byteAt, h, step_some]

@[simp] lemma byteAt_zero (byte : UInt8) (rest : Bytes) : byteAt (byte :: rest) 0 = pure byte := rfl

@[simp] lemma byteAt_succ (byte : UInt8) (rest : Bytes) (index : Nat) :
    byteAt (byte :: rest) (index + 1) = byteAt rest index := rfl

lemma plus_eq {a b : Nat} (h : a + b < 2 ^ 32) : plus a b = pure (a + b) := by
  rw [plus, if_pos h, step_some]

lemma times_eq {a b : Nat} (h : a * b < 2 ^ 32) : times a b = pure (a * b) := by
  rw [times, if_pos h, step_some]

lemma minus_eq {a b : Nat} (h : b ≤ a) : minus a b = pure (a - b) := by
  rw [minus, if_pos h, step_some]

lemma mask_eq {place : Nat} (h : place < 8) : mask place = pure (1 <<< UInt8.ofNat place) := by
  rw [mask, if_pos h, step_some]

lemma slice_eq {bytes : Bytes} {first last : Nat} (hfirst : first ≤ last)
    (hlast : last ≤ bytes.length) :
    slice bytes first last = pure ((bytes.drop first).take (last - first)) := by
  rw [slice, if_pos ⟨hfirst, hlast⟩, step_some]

/-- A slice whose ends cross. -/
example : slice [0x01, 0x02, 0x03] 2 1 = ExceptT.mk none := rfl

/-- The rest of the bytes. -/
lemma slice_length {bytes : Bytes} {first : Nat} (h : first ≤ bytes.length) :
    slice bytes first bytes.length = pure (bytes.drop first) := by
  rw [slice_eq h (Nat.le_refl _), List.take_of_length_le (Nat.le_of_eq List.length_drop)]

lemma word_eq {bytes : Bytes} {offset : Nat} {high low : UInt8} (hoffset : offset < 2 ^ 31)
    (hhigh : bytes[offset]? = some high) (hlow : bytes[offset + 1]? = some low) :
    word bytes offset = pure (Word.ofBytes high low) := by
  rw [word, byteAt_eq hhigh, pure_bind, plus_eq (by omega), pure_bind, byteAt_eq hlow, pure_bind]

/-! ## The cyclic redundancy check -/

/-- Whether the last two bytes of a frame are the trailer of what precedes them. -/
def crcMatches (frame : Bytes) : Guarded Bool := do
  if frame.length < 2 then return false
  else
    let middle ← minus frame.length 2
    let body ← slice frame 0 middle
    let trailer ← slice frame middle frame.length
    return Checksum.crcTrailer body == [← byteAt trailer 0, ← byteAt trailer 1]

lemma crcMatches_eq (frame : Bytes) : crcMatches frame = pure (Checksum.crcMatches frame) := by
  by_cases hshort : frame.length < 2
  · simp [crcMatches, Checksum.crcMatches, hshort, Nat.not_le.mpr hshort]
  · have htrailer : (frame.drop (frame.length - 2)).length = 2 := by
      rw [List.length_drop]
      omega
    obtain ⟨low, high, hbytes⟩ := List.length_eq_two.mp htrailer
    rw [crcMatches, if_neg hshort, minus_eq (by omega), pure_bind,
      slice_eq (Nat.zero_le _) (by omega), slice_length (by omega), hbytes]
    simp [Checksum.crcMatches, hbytes, Nat.not_lt.mp hshort]

end Guarded

end Modbus
