import Modbus.Bytes

/-!
# Text in bytes

Identification objects carry text as UTF-8, and a device may send anything.  `Text.lossy` reads
every byte string: each well-formed sequence becomes its character, and each maximal stretch that
begins like a sequence and stops short of one becomes a single replacement character.

`Text.step` decides what stands at the head of a byte string; `lossy` only repeats it.
-/

namespace Modbus.Text

/-- What stands at the head of a byte string. -/
inductive Head where
  /-- A well-formed sequence for the character with this code point. -/
  | scalar (code : Nat)
  /-- Bytes that no well-formed sequence starts with. -/
  | malformed
deriving DecidableEq, Repr

/-- The bytes that can follow a lead byte in its sequence. -/
def isContinuation (byte : UInt8) : Bool :=
  0x80 ≤ byte && byte ≤ 0xBF

/-- The range of the second byte: four lead bytes narrow it, so that no character has two
spellings, no surrogate has one, and nothing lies beyond the last plane. -/
def secondRange (lead : UInt8) : UInt8 × UInt8 :=
  if lead = 0xE0 then (0xA0, 0xBF)
  else if lead = 0xED then (0x80, 0x9F)
  else if lead = 0xF0 then (0x90, 0xBF)
  else if lead = 0xF4 then (0x80, 0x8F)
  else (0x80, 0xBF)

def followsLead (lead byte : UInt8) : Bool :=
  (secondRange lead).1 ≤ byte && byte ≤ (secondRange lead).2

/-- The six low bits that a continuation byte carries. -/
def payload (byte : UInt8) : Nat :=
  byte.toNat % 64

/-- **The head of a byte string**: what the sequence led by `lead` is, and what remains after it.
A malformed head is as long as the stretch that could still have become a sequence. -/
def step (lead : UInt8) (rest : Bytes) : Head × Bytes :=
  if lead ≤ 0x7F then (.scalar lead.toNat, rest)
  else if 0xC2 ≤ lead ∧ lead ≤ 0xDF then
    match rest with
    | b :: rest₁ =>
      if isContinuation b then (.scalar (lead.toNat % 32 * 64 + payload b), rest₁)
      else (.malformed, rest)
    | [] => (.malformed, [])
  else if 0xE0 ≤ lead ∧ lead ≤ 0xEF then
    match rest with
    | b :: rest₁ =>
      if followsLead lead b then
        match rest₁ with
        | c :: rest₂ =>
          if isContinuation c then
            (.scalar ((lead.toNat % 16 * 64 + payload b) * 64 + payload c), rest₂)
          else (.malformed, rest₁)
        | [] => (.malformed, [])
      else (.malformed, rest)
    | [] => (.malformed, [])
  else if 0xF0 ≤ lead ∧ lead ≤ 0xF4 then
    match rest with
    | b :: rest₁ =>
      if followsLead lead b then
        match rest₁ with
        | c :: rest₂ =>
          if isContinuation c then
            match rest₂ with
            | d :: rest₃ =>
              if isContinuation d then
                (.scalar (((lead.toNat % 8 * 64 + payload b) * 64 + payload c) * 64 + payload d),
                  rest₃)
              else (.malformed, rest₂)
            | [] => (.malformed, [])
          else (.malformed, rest₁)
        | [] => (.malformed, [])
      else (.malformed, rest)
    | [] => (.malformed, [])
  else (.malformed, rest)

/-- The head of a byte string takes at least its lead byte. -/
theorem length_step_le (lead : UInt8) (rest : Bytes) : (step lead rest).2.length ≤ rest.length := by
  unfold step
  repeat' split
  all_goals simp_all only [List.length_cons, List.length_nil]
  all_goals omega

def Head.toChar : Head → Char
  | .scalar code => Char.ofNat code
  | .malformed => '\uFFFD'

def lossyChars : Bytes → List Char
  | [] => []
  | lead :: rest => (step lead rest).1.toChar :: lossyChars (step lead rest).2
termination_by bytes => bytes.length
decreasing_by exact Nat.lt_succ_of_le (length_step_le lead rest)

/-- **Lossy reading.**  Every byte string as text, with one replacement character for each maximal
malformed stretch. -/
def lossy (bytes : Bytes) : String :=
  String.ofList (lossyChars bytes)

end Modbus.Text
