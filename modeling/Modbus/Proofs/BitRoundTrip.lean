import Modbus.Proofs.Guarded.Serving

/-!
# Bits there and back

Packing loses nothing, and adds as many clear bits as fill up the last byte.  So bits come back from
their bytes, and bytes come back from their bits with those places cleared.  `clearUnused` clears
them by keeping the lowest bits of the byte; `clearUnused_eq_and` does so by a mask, which is all
ones moved down by as many places as are unused.

Bytes may also be filled bit by bit in place, and read with a mask for each bit.  `Guarded.pack` and
`Guarded.unpack` do so, with every index and every shift checked.
-/

namespace Modbus.Bits

/-! ## Clearing by a mask -/

/-- All ones, moved down by `unused` places. -/
lemma toNat_lowMask {unused : Nat} (h : unused < 8) :
    ((0xFF : UInt8) >>> UInt8.ofNat unused).toNat = 2 ^ (8 - unused) - 1 := by
  have table : ∀ u : Fin 8, ((0xFF : UInt8) >>> UInt8.ofNat u.val).toNat = 2 ^ (8 - u.val) - 1 := by
    decide
  exact table ⟨unused, h⟩

lemma keepLow_eq_and {unused : Nat} (h : unused < 8) (byte : UInt8) :
    keepLow (8 - unused) byte = byte &&& 0xFF >>> UInt8.ofNat unused := by
  apply UInt8.toNat_inj.mp
  rw [UInt8.toNat_and, toNat_lowMask h, Nat.and_two_pow_sub_one_eq_mod, keepLow, UInt8.toNat_ofNat']
  exact Nat.mod_eq_of_lt (Nat.lt_of_le_of_lt (Nat.mod_le _ _) byte.toNat_lt)

/-- **The unused bits are those beyond `count`** in all the bytes, and all of them are high bits of
the last one. -/
lemma clearUnused_eq_and {count : Nat} {data : Bytes} (hlength : data.length = bytesFor count) :
    clearUnused count data
      = data.modify (data.length - 1) (· &&& 0xFF >>> UInt8.ofNat (8 * data.length - count)) := by
  rw [bytesFor] at hlength
  rcases Nat.eq_zero_or_pos data.length with hempty | hbytes
  · rw [List.length_eq_zero_iff.mp hempty]
    rfl
  · have hused : (count + 7) % 8 + 1 = 8 - (8 * data.length - count) := by omega
    have hunused : 8 * data.length - count < 8 := by omega
    rw [clearUnused, hused]
    exact congrArg _ (funext (keepLow_eq_and hunused))

/-! ## There and back -/

/-- **Bits come back from their bytes, and bytes from their bits**, but for the unused high bits of
the last byte, which are cleared.  All this is so as well where bytes are filled bit by bit in place
and read with a mask for each bit. -/
theorem packing_there_and_back :
    (∀ bits : List Bool,
      unpack (pack bits) bits.length = bits ∧ (pack bits).length = (bits.length + 7) / 8) ∧
    (∀ (data : Bytes) (count : Nat), data.length = (count + 7) / 8 →
      pack (unpack data count)
        = data.modify (data.length - 1) (· &&& 0xFF >>> UInt8.ofNat (8 * data.length - count))) ∧
    (∀ bits : List Bool, Guarded.pack bits = pure (pack bits)) ∧
    ∀ (data : Bytes) (count : Nat), Guarded.unpack data count = pure (unpack data count) := by
  refine ⟨fun bits => ⟨unpack_pack bits, length_pack bits⟩, fun data count hlength => ?_,
    Guarded.pack_eq, Guarded.unpack_eq⟩
  rw [pack_unpack hlength, clearUnused_eq_and hlength]

/-- Two bytes that hold ten bits: six bits of the second are unused. -/
theorem ten_bits_there_and_back :
    ([0xCD, 0xFD] : Bytes).length = (10 + 7) / 8 ∧ pack (unpack [0xCD, 0xFD] 10) = [0xCD, 0x01] :=
  have hlength : ([0xCD, 0xFD] : Bytes).length = (10 + 7) / 8 := by decide
  ⟨hlength, (packing_there_and_back.2.1 _ _ hlength).trans (by decide)⟩

/-- The first bit is the lowest of the first byte. -/
example : pack [true, false, true, true, false, false, true, true, true, false] = [0xCD, 0x01] := by
  cbv

end Modbus.Bits
