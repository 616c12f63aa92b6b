import Mathlib.Algebra.Group.Nat.Defs
import Modbus.Bits

/-!
# Packed bits can be read back

`Bits.pack` and `Bits.unpack` are written apart: one fills bytes by recursion on the bits, the
other asks for one bit after the other.  What ties them is the value of a single bit.
`testBit_packByte` says which bits one byte holds, `bit_pack` carries that over the bytes of a
whole list, and `unpack_pack` is the law that the rest of the development uses.

In the other direction something is lost: the high bits of the last byte that no bit of the list has
a place in.  `clearUnused` clears them, and `pack_unpack` says that nothing else is lost.
-/

namespace Modbus.Bits

/-- A byte of at most eight bits does not overflow, so its value is the binary number it spells. -/
lemma packByte_lt : ∀ bits : List Bool, bits.length ≤ 8 →
    (packByte bits).toNat < 2 ^ bits.length
  | [], _ => by simp [packByte]
  | bit :: rest, hlen => by
      simp only [List.length_cons] at hlen
      have hrest := packByte_lt rest (by omega)
      have hpow : 2 ^ rest.length ≤ 2 ^ 7 := Nat.pow_le_pow_right (by omega) (by omega)
      have hstep : 2 ^ (rest.length + 1) = 2 * 2 ^ rest.length := by rw [Nat.pow_succ]; omega
      simp only [packByte, List.length_cons, UInt8.toNat_add, UInt8.toNat_mul]
      cases bit <;> simp <;> omega

lemma toNat_packByte_cons (bit : Bool) (rest : List Bool) (hlen : rest.length ≤ 7) :
    (packByte (bit :: rest)).toNat = bit.toNat + 2 * (packByte rest).toNat := by
  have hrest := packByte_lt rest (by omega)
  have hpow : 2 ^ rest.length ≤ 2 ^ 7 := Nat.pow_le_pow_right (by omega) hlen
  simp only [packByte, UInt8.toNat_add, UInt8.toNat_mul]
  cases bit <;> simp <;> omega

/-- **The bits of one byte** are the bits it was packed from, and clear above them. -/
lemma testBit_packByte : ∀ (bits : List Bool) (index : Nat), bits.length ≤ 8 →
    (packByte bits).toNat.testBit index = bits[index]?.getD false
  | [], index, _ => by simp [packByte]
  | bit :: rest, index, hlen => by
      simp only [List.length_cons] at hlen
      rw [toNat_packByte_cons bit rest (by omega)]
      cases index with
      | zero =>
          have hparity : (bit.toNat + 2 * (packByte rest).toNat) % 2 = bit.toNat := by
            cases bit <;> simp only [Bool.toNat_false, Bool.toNat_true] <;> omega
          rw [Nat.testBit_zero, hparity]
          cases bit <;> rfl
      | succ index =>
          have hhalf : (bit.toNat + 2 * (packByte rest).toNat) / 2 = (packByte rest).toNat := by
            cases bit <;> simp only [Bool.toNat_false, Bool.toNat_true] <;> omega
          rw [Nat.testBit_succ, hhalf, testBit_packByte rest index (by omega)]
          simp

/-- **A bit of a packed list** is the bit of the list, wherever the byte boundaries fall. -/
lemma bit_pack (bits : List Bool) (index : Nat) :
    bit (pack bits) index = bits[index]?.getD false := by
  fun_induction pack bits generalizing index with
  | case1 => simp [bit]
  | case2 first rest ih =>
      by_cases hindex : index < 8
      · have hbyte : index / 8 = 0 := by omega
        have hinner : index % 8 = index := by omega
        simp only [bit, hbyte, hinner, List.getElem?_cons_zero]
        have hbits : (first :: rest.take 7).length ≤ 8 := Nat.succ_le_succ (List.length_take_le ..)
        rw [testBit_packByte _ _ hbits]
        cases index with
        | zero => simp
        | succ index => simp [show index < 7 by omega]
      · have hbyte : index / 8 = (index - 8) / 8 + 1 := by omega
        have hinner : index % 8 = (index - 8) % 8 := by omega
        have hlater := ih (index - 8)
        simp only [bit] at hlater
        obtain ⟨before, rfl⟩ : ∃ before, index = before + 1 := ⟨index - 1, by omega⟩
        simp only [bit, hbyte, hinner, List.getElem?_cons_succ]
        rw [hlater, List.getElem?_drop]
        congr 2
        omega

/-- **Bits survive packing.** -/
@[simp] theorem unpack_pack (bits : List Bool) : unpack (pack bits) bits.length = bits := by
  apply List.ext_getElem
  · simp
  · intro index _ hindex
    simp [unpack, bit_pack, hindex]

/-! ## The unused bits of the last byte -/

/-- A byte with only its lowest bits left. -/
def keepLow (bits : Nat) (byte : UInt8) : UInt8 :=
  UInt8.ofNat (byte.toNat % 2 ^ bits)

/-- **Bytes that hold `count` bits, with the unused high bits of the last byte cleared.**  It is the
last byte that has between one and eight bits in use. -/
def clearUnused (count : Nat) (data : Bytes) : Bytes :=
  data.modify (data.length - 1) (keepLow ((count + 7) % 8 + 1))

@[simp] lemma length_clearUnused (count : Nat) (data : Bytes) :
    (clearUnused count data).length = data.length := by
  simp [clearUnused]

lemma testBit_keepLow (bits : Nat) (byte : UInt8) (index : Nat) :
    (keepLow bits byte).toNat.testBit index
      = (decide (index < bits) && byte.toNat.testBit index) := by
  have hle : byte.toNat % 2 ^ bits ≤ byte.toNat := Nat.mod_le _ _
  have hbyte : (keepLow bits byte).toNat = byte.toNat % 2 ^ bits := by
    rw [keepLow, UInt8.toNat_ofNat']
    exact Nat.mod_eq_of_lt (Nat.lt_of_le_of_lt hle byte.toNat_lt)
  rw [hbyte, Nat.testBit_mod_two_pow]

/-- **Bytes are the same** if they are as many and have the same bits. -/
lemma ext_bit {data other : Bytes} (hlength : data.length = other.length)
    (hbit : ∀ index, bit data index = bit other index) : data = other := by
  refine List.ext_getElem hlength fun index hdata hother => UInt8.toNat_inj.mp ?_
  refine Nat.eq_of_testBit_eq fun place => ?_
  by_cases hplace : place < 8
  · have hbyte : (8 * index + place) / 8 = index := by omega
    have hinner : (8 * index + place) % 8 = place := by omega
    simpa [bit, hbyte, hinner, hdata, hother] using hbit (8 * index + place)
  · have hhigh (byte : UInt8) : byte.toNat.testBit place = false :=
      Nat.testBit_lt_two_pow
        (Nat.lt_of_lt_of_le byte.toNat_lt (Nat.pow_le_pow_right (by omega) (Nat.not_lt.mp hplace)))
    rw [hhigh, hhigh]

/-- **Only the bits beyond `count` are cleared.** -/
lemma bit_clearUnused {count : Nat} {data : Bytes} (hlength : data.length = bytesFor count)
    (index : Nat) : bit (clearUnused count data) index = (decide (index < count) && bit data index) := by
  rw [bytesFor] at hlength
  simp only [bit, clearUnused, List.getElem?_modify]
  cases hbyte : data[index / 8]? with
  | none => simp
  | some byte =>
      have hinside : index / 8 < data.length := (List.getElem?_eq_some_iff.mp hbyte).1
      by_cases hlast : data.length - 1 = index / 8
      · have hused : index % 8 < (count + 7) % 8 + 1 ↔ index < count := by omega
        simp [hlast, testBit_keepLow, hused]
      · have hused : index < count := by omega
        simp [hlast, hused]

/-- The bits in use are read all the same. -/
lemma unpack_clearUnused {count : Nat} {data : Bytes} (hlength : data.length = bytesFor count) :
    unpack (clearUnused count data) count = unpack data count := by
  refine List.map_congr_left fun index hindex => ?_
  rw [bit_clearUnused hlength, decide_eq_true (List.mem_range.mp hindex), Bool.true_and]

/-- **Bytes survive unpacking**, but for the unused bits of the last one. -/
theorem pack_unpack {count : Nat} {data : Bytes} (hlength : data.length = bytesFor count) :
    pack (unpack data count) = clearUnused count data := by
  refine ext_bit ?_ fun index => ?_
  · rw [length_pack, length_unpack, length_clearUnused, hlength]
  · rw [bit_pack, bit_clearUnused hlength]
    by_cases hindex : index < count <;> simp [unpack, hindex]

end Modbus.Bits
