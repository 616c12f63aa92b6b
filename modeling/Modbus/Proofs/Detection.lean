import Mathlib.Data.List.Basic
import Mathlib.Data.Nat.Bitwise
import Modbus.Checksum

/-!
# What the checks detect

**Remainders.**  A binary frame with its check at the end leaves no remainder
(`Checksum.crcMatches_iff`), so an error is overlooked only if it leaves none either.  Two
properties of the polynomial decide which errors do.  Its highest term is set, so a shift loses
nothing (`Checksum.crcBit_eq_zero`); two bytes are one word that is added to the remainder before
sixteen shifts (`Checksum.crcByte_crcByte`), and no two words do the same to it.  An error within
two neighbouring bytes is therefore seen there, and whatever follows keeps the difference
(`Checksum.crc_ne_zero_of_within`).  And an odd number of its terms are set, so a shift keeps the
parity of the remainder (`Checksum.ones_crcBit`) and the whole remainder has the parity of the frame
(`Checksum.ones_crc`): an odd number of flipped bits leaves an odd remainder.  All of it rests on a
shift being linear in exclusive or (`Checksum.crcBit_xor`).

**Sums.**  The bytes of a character frame add up to zero (`Checksum.lrcMatches_iff`), and with one
byte replaced they do not (`Checksum.lrcMatches_set`).
-/

namespace Modbus

/-! ## Set bits -/

namespace Bits

/-- The number of set bits among the lowest ones. -/
def ones (width value : Nat) : Nat :=
  (List.range width).countP value.testBit

/-- The number of set bits in a list of bytes. -/
def onesIn (bytes : Bytes) : Nat :=
  (bytes.map fun byte => ones 8 byte.toNat).sum

lemma ones_succ (width value : Nat) :
    ones (width + 1) value = ones width value + (value.testBit width).toNat := by
  rw [ones, ones, List.range_succ, List.countP_append, List.countP_singleton]
  cases value.testBit width <;> rfl

lemma ones_of_lt {width value : Nat} (h : value < 2 ^ width) :
    ones (width + 1) value = ones width value := by
  rw [ones_succ, Nat.testBit_lt_two_pow h]
  rfl

/-- Halving drops the lowest bit. -/
lemma ones_half (width value : Nat) :
    ones width (value / 2) + value % 2 = ones (width + 1) value := by
  induction width with
  | zero =>
      rw [ones_succ, Nat.testBit_zero]
      rcases Nat.mod_two_eq_zero_or_one value with h | h <;> simp [ones, h]
  | succ width ih =>
      rw [ones_succ, ones_succ (width + 1), ← ih, Nat.testBit_succ]
      omega

/-- **Exclusive or adds parities.** -/
lemma ones_xor (width a b : Nat) :
    ones width (a ^^^ b) % 2 = (ones width a + ones width b) % 2 := by
  induction width with
  | zero => rfl
  | succ width ih =>
      rw [ones_succ, ones_succ, ones_succ, Nat.testBit_xor]
      cases a.testBit width <;> cases b.testBit width <;> simp <;> omega

/-- A byte has no set bits above its eighth. -/
lemma ones_byte (byte : UInt8) : ones 16 byte.toNat = ones 8 byte.toNat := by
  have hwide (width : Nat) (hwidth : 8 ≤ width) : ones width byte.toNat = ones 8 byte.toNat := by
    induction width, hwidth using Nat.le_induction with
    | base => rfl
    | succ width hwidth ih =>
        have hbound : byte.toNat < 2 ^ width :=
          Nat.lt_of_lt_of_le byte.toNat_lt (Nat.pow_le_pow_right (by decide) hwidth)
        rw [ones_of_lt hbound, ih]
  exact hwide 16 (by decide)

@[simp] lemma onesIn_cons (byte : UInt8) (rest : Bytes) :
    onesIn (byte :: rest) = ones 8 byte.toNat + onesIn rest := by
  rw [onesIn, onesIn, List.map_cons, List.sum_cons]

end Bits

/-- A word is its two bytes. -/
lemma Word.ofBytes_inj {a b c d : UInt8} : Word.ofBytes a b = Word.ofBytes c d ↔ a = c ∧ b = d := by
  constructor
  · intro h
    have hhigh := congrArg Word.high h
    have hlow := congrArg Word.low h
    rw [Word.high_ofBytes, Word.high_ofBytes] at hhigh
    rw [Word.low_ofBytes, Word.low_ofBytes] at hlow
    exact ⟨hhigh, hlow⟩
  · rintro ⟨rfl, rfl⟩
    rfl

namespace Checksum

/-! ## One shift of the remainder -/

lemma and_one_eq_one {remainder : UInt16} : remainder &&& 1 = 1 ↔ remainder.toNat % 2 = 1 := by
  rw [← UInt16.toNat_inj, UInt16.toNat_and]
  show remainder.toNat &&& 1 = 1 ↔ _
  rw [Nat.and_one_is_mod]

/-- A shift, as a number. -/
lemma toNat_crcBit (remainder : UInt16) :
    (crcBit remainder).toNat
      = if remainder.toNat % 2 = 1 then (remainder.toNat / 2) ^^^ 0xA001
        else remainder.toNat / 2 := by
  have hhalf : (remainder >>> 1).toNat = remainder.toNat / 2 := by
    rw [UInt16.toNat_shiftRight]
    exact Nat.shiftRight_one remainder.toNat
  simp only [crcBit, and_one_eq_one]
  split_ifs
  · rw [UInt16.toNat_xor, hhalf]
    rfl
  · exact hhalf

/-- **A shift is linear.** -/
lemma crcBit_xor (a b : UInt16) : crcBit (a ^^^ b) = crcBit a ^^^ crcBit b := by
  apply UInt16.toNat_inj.mp
  rw [UInt16.toNat_xor, toNat_crcBit, toNat_crcBit, toNat_crcBit, UInt16.toNat_xor,
    Nat.xor_div_two]
  by_cases ha : a.toNat % 2 = 1 <;> by_cases hb : b.toNat % 2 = 1 <;>
    simp only [Nat.xor_mod_two_eq_one, ha, hb, not_true, not_false_iff, iff_self, iff_true,
      iff_false, if_true, if_false]
  · rw [Nat.xor_assoc, Nat.xor_left_comm 0xA001, Nat.xor_self, Nat.xor_zero]
  · rw [Nat.xor_right_comm]
  · rw [Nat.xor_assoc]

/-- **A shift loses nothing**: the highest bit of what it leaves tells whether the polynomial was
subtracted. -/
lemma crcBit_eq_zero {remainder : UInt16} (h : crcBit remainder = 0) : remainder = 0 := by
  have hbound := remainder.toNat_lt
  have hzero : (crcBit remainder).toNat = 0 := by rw [h]; rfl
  rw [toNat_crcBit] at hzero
  apply UInt16.toNat_inj.mp
  split_ifs at hzero with hodd
  · have hhalf : remainder.toNat / 2 = 0xA001 := Nat.xor_eq_zero_iff.mp hzero
    omega
  · show remainder.toNat = 0
    omega

/-- A shift keeps the parity. -/
lemma ones_crcBit (remainder : UInt16) :
    Bits.ones 16 (crcBit remainder).toNat % 2 = Bits.ones 16 remainder.toNat % 2 := by
  have hhalf := Bits.ones_half 16 remainder.toNat
  rw [Bits.ones_of_lt remainder.toNat_lt] at hhalf
  rw [toNat_crcBit]
  split_ifs with hodd
  · have hpolynomial : Bits.ones 16 0xA001 = 3 := by decide
    rw [Bits.ones_xor, hpolynomial]
    omega
  · omega

/-! ## Several shifts -/

lemma crcBits_add (first second : Nat) (remainder : UInt16) :
    crcBits (first + second) remainder = crcBits second (crcBits first remainder) := by
  induction first generalizing remainder with
  | zero => rw [Nat.zero_add, crcBits]
  | succ first ih => rw [Nat.succ_add, crcBits, ih, crcBits]

lemma crcBits_xor (count : Nat) (a b : UInt16) :
    crcBits count (a ^^^ b) = crcBits count a ^^^ crcBits count b := by
  induction count generalizing a b with
  | zero => rfl
  | succ count ih => rw [crcBits, crcBit_xor, ih, crcBits, crcBits]

lemma crcBits_eq_zero {count : Nat} {remainder : UInt16} (h : crcBits count remainder = 0) :
    remainder = 0 := by
  induction count generalizing remainder with
  | zero => exact h
  | succ count ih => exact crcBit_eq_zero (ih h)

lemma crcBits_zero (count : Nat) : crcBits count 0 = 0 := by
  induction count with
  | zero => rfl
  | succ count ih => rw [crcBits, show crcBit 0 = 0 from rfl, ih]

lemma crcBits_inj {count : Nat} {a b : UInt16} (h : crcBits count a = crcBits count b) :
    a = b := by
  rw [← UInt16.xor_eq_zero_iff, ← crcBits_xor] at h
  exact UInt16.xor_eq_zero_iff.mp (crcBits_eq_zero h)

lemma ones_crcBits (count : Nat) (remainder : UInt16) :
    Bits.ones 16 (crcBits count remainder).toNat % 2 = Bits.ones 16 remainder.toNat % 2 := by
  induction count generalizing remainder with
  | zero => rfl
  | succ count ih => rw [crcBits, ih, ones_crcBit]

/-- Low bits that are clear are shifted out, and nothing else happens. -/
lemma crcBits_of_clear (count value : Nat) (h : value * 2 ^ count < 65536) :
    crcBits count (UInt16.ofNat (value * 2 ^ count)) = UInt16.ofNat value := by
  induction count with
  | zero => rw [Nat.pow_zero, Nat.mul_one, crcBits]
  | succ count ih =>
      rw [Nat.pow_succ, ← Nat.mul_assoc] at h ⊢
      have hbelow : value * 2 ^ count < 65536 := by omega
      have hshift : crcBit (UInt16.ofNat (value * 2 ^ count * 2))
          = UInt16.ofNat (value * 2 ^ count) := by
        apply UInt16.toNat_inj.mp
        rw [toNat_crcBit, UInt16.toNat_ofNat_of_lt' h, UInt16.toNat_ofNat_of_lt' hbelow,
          if_neg (by omega)]
        omega
      rw [crcBits, hshift, ih hbelow]

/-! ## Bytes -/

/-- A word is its two bytes, each in its place. -/
lemma ofBytes_eq_xor (high low : UInt8) :
    Word.ofBytes high low = UInt16.ofNat (high.toNat * 2 ^ 8) ^^^ low.toUInt16 := by
  have hhigh := high.toNat_lt
  have hlow := low.toNat_lt
  have hplaces : high.toNat * 2 ^ 8 + low.toNat = (high.toNat * 2 ^ 8) ^^^ low.toNat := by
    have hdiv := Nat.xor_div_two_pow (a := high.toNat * 2 ^ 8) (b := low.toNat) (n := 8)
    have hmod := Nat.xor_mod_two_pow (a := high.toNat * 2 ^ 8) (b := low.toNat) (n := 8)
    rw [Nat.mul_div_cancel _ (by decide), Nat.div_eq_of_lt hlow, Nat.xor_zero] at hdiv
    rw [Nat.mul_mod_left, Nat.mod_eq_of_lt hlow, Nat.zero_xor] at hmod
    rw [← Nat.div_add_mod ((high.toNat * 2 ^ 8) ^^^ low.toNat) (2 ^ 8), hdiv, hmod, Nat.mul_comm]
  apply UInt16.toNat_inj.mp
  rw [Word.ofBytes, UInt16.toNat_xor, UInt16.toNat_ofNat', UInt16.toNat_ofNat',
    UInt8.toNat_toUInt16, Nat.mod_eq_of_lt (by omega), Nat.mod_eq_of_lt (by omega)]
  exact hplaces

/-- **Two bytes are one word**, with the later byte on top. -/
lemma crcByte_crcByte (remainder : UInt16) (first second : UInt8) :
    crcByte (crcByte remainder first) second
      = crcBits 16 (remainder ^^^ Word.ofBytes second first) := by
  have hbound := second.toNat_lt
  have hlater : crcBits 8 (UInt16.ofNat (second.toNat * 2 ^ 8)) = second.toUInt16 := by
    rw [crcBits_of_clear 8 second.toNat (by omega)]
    apply UInt16.toNat_inj.mp
    rw [UInt16.toNat_ofNat', UInt8.toNat_toUInt16]
    omega
  have hfirst : crcBits 8 (remainder ^^^ Word.ofBytes second first)
      = crcByte remainder first ^^^ second.toUInt16 := by
    rw [ofBytes_eq_xor, UInt16.xor_comm (UInt16.ofNat _), ← UInt16.xor_assoc, crcBits_xor, hlater,
      crcByte]
  rw [show (16 : Nat) = 8 + 8 from rfl, crcBits_add, hfirst, crcByte]

lemma crcByte_inj {a b : UInt16} {byte : UInt8} (h : crcByte a byte = crcByte b byte) : a = b :=
  UInt16.xor_left_inj byte.toUInt16 |>.mp (crcBits_inj h)

/-- Whatever follows keeps two remainders apart. -/
lemma foldl_crcByte_inj {bytes : Bytes} {a b : UInt16}
    (h : bytes.foldl crcByte a = bytes.foldl crcByte b) : a = b := by
  induction bytes generalizing a b with
  | nil => exact h
  | cons byte rest ih => exact crcByte_inj (ih h)

lemma crc_append (first second : Bytes) :
    crc (first ++ second) = second.foldl crcByte (crc first) :=
  List.foldl_append

lemma ones_crcByte (remainder : UInt16) (byte : UInt8) :
    Bits.ones 16 (crcByte remainder byte).toNat % 2
      = (Bits.ones 16 remainder.toNat + Bits.ones 8 byte.toNat) % 2 := by
  rw [crcByte, ones_crcBits, UInt16.toNat_xor, Bits.ones_xor, UInt8.toNat_toUInt16,
    Bits.ones_byte]

lemma ones_foldl_crcByte (bytes : Bytes) (remainder : UInt16) :
    Bits.ones 16 (bytes.foldl crcByte remainder).toNat % 2
      = (Bits.ones 16 remainder.toNat + Bits.onesIn bytes) % 2 := by
  induction bytes generalizing remainder with
  | nil => rfl
  | cons byte rest ih =>
      have hbyte := ones_crcByte remainder byte
      rw [List.foldl_cons, ih, Bits.onesIn_cons]
      omega

/-- **The remainder has the parity of the frame.** -/
lemma ones_crc (bytes : Bytes) :
    Bits.ones 16 (crc bytes).toNat % 2 = Bits.onesIn bytes % 2 := by
  have hinitial : Bits.ones 16 (0xFFFF : UInt16).toNat = 16 := by decide
  rw [crc, ones_foldl_crcByte, hinitial]
  omega

/-! ## Remainders of whole frames -/

/-- **An intact frame leaves no remainder.** -/
lemma crcMatches_iff {frame : Bytes} :
    crcMatches frame = true ↔ 2 ≤ frame.length ∧ crc frame = 0 := by
  simp only [crcMatches, Bool.and_eq_true, decide_eq_true_eq, beq_iff_eq]
  refine and_congr_right fun hlong => ?_
  obtain ⟨low, high, htrailer⟩ :
      ∃ low high, frame.drop (frame.length - 2) = [low, high] :=
    List.length_eq_two.mp (by rw [List.length_drop]; omega)
  have hframe : crc frame
      = crcBits 16 (crc (frame.take (frame.length - 2)) ^^^ Word.ofBytes high low) := by
    conv_lhs => rw [← List.take_append_drop (frame.length - 2) frame]
    rw [crc_append, htrailer, ← crcByte_crcByte]
    rfl
  rw [htrailer, hframe, crcTrailer, List.cons.injEq, List.cons.injEq]
  constructor
  · rintro ⟨rfl, rfl, -⟩
    rw [Word.ofBytes_high_low, UInt16.xor_self, crcBits_zero]
  · intro hzero
    rw [UInt16.xor_eq_zero_iff.mp (crcBits_eq_zero hzero), Word.low_ofBytes, Word.high_ofBytes]
    exact ⟨rfl, rfl, rfl⟩

/-- **Two frames that differ at most in two neighbouring bytes**, the first of them at `index`. -/
structure DifferWithin (index : Nat) (frame other : Bytes) : Prop where
  length : other.length = frame.length
  same : ∀ i, i ≠ index → i ≠ index + 1 → other[i]? = frame[i]?

/-- The two bytes, and what stands around them in both frames. -/
lemma DifferWithin.exists_eq {index : Nat} {frame other : Bytes}
    (h : DifferWithin index frame other) (hlong : 2 ≤ frame.length) :
    ∃ before first second first' second' after,
      frame = before ++ first :: second :: after ∧
        other = before ++ first' :: second' :: after := by
  have hlength := h.length
  -- At the end of a frame the two bytes are its last two.
  obtain ⟨place, hplace, hsame⟩ :
      ∃ place, place + 2 ≤ frame.length ∧
        ∀ i, i ≠ place → i ≠ place + 1 → other[i]? = frame[i]? := by
    refine ⟨min index (frame.length - 2), by omega, fun i hfirst hsecond => ?_⟩
    by_cases hinside : i = index ∨ i = index + 1
    · rw [List.getElem?_eq_none (by omega), List.getElem?_eq_none (by omega)]
    · exact h.same i (by omega) (by omega)
  have hbefore : other.take place = frame.take place := by
    apply List.ext_getElem?
    intro i
    rw [List.getElem?_take, List.getElem?_take]
    split_ifs
    · exact hsame i (by omega) (by omega)
    · rfl
  have hafter : other.drop (place + 2) = frame.drop (place + 2) := by
    apply List.ext_getElem?
    intro i
    rw [List.getElem?_drop, List.getElem?_drop]
    exact hsame _ (by omega) (by omega)
  have hcut {bytes : Bytes} (hbytes : bytes.length = frame.length) :
      ∃ first second, bytes = bytes.take place ++ first :: second :: bytes.drop (place + 2) := by
    refine ⟨bytes[place], bytes[place + 1], ?_⟩
    rw [← List.drop_eq_getElem_cons, ← List.drop_eq_getElem_cons, List.take_append_drop]
  obtain ⟨first, second, hframe⟩ := hcut rfl
  obtain ⟨first', second', hother⟩ := hcut hlength
  rw [hbefore, hafter] at hother
  exact ⟨_, first, second, first', second', _, hframe, hother⟩

/-- **An error within two neighbouring bytes leaves a remainder.** -/
lemma crc_ne_zero_of_within {index : Nat} {frame other : Bytes} (hlong : 2 ≤ frame.length)
    (hintact : crc frame = 0) (hwithin : DifferWithin index frame other) (hother : other ≠ frame) :
    crc other ≠ 0 := by
  obtain ⟨before, first, second, first', second', after, rfl, rfl⟩ := hwithin.exists_eq hlong
  intro hzero
  have hremainder (low high : UInt8) : crc (before ++ low :: high :: after)
      = after.foldl crcByte (crcBits 16 (crc before ^^^ Word.ofBytes high low)) := by
    rw [crc_append, List.foldl_cons, List.foldl_cons, crcByte_crcByte]
  rw [hremainder] at hintact hzero
  have hword : Word.ofBytes second' first' = Word.ofBytes second first :=
    (UInt16.xor_right_inj _).mp (crcBits_inj (foldl_crcByte_inj (hzero.trans hintact.symm)))
  obtain ⟨rfl, rfl⟩ := Word.ofBytes_inj.mp hword
  exact hother rfl

/-- **A frame with one byte replaced is not intact.** -/
lemma crcMatches_set {frame : Bytes} {index : Nat} {old value : UInt8}
    (hintact : crcMatches frame = true) (hold : frame[index]? = some old) (hvalue : value ≠ old) :
    crcMatches (frame.set index value) = false := by
  obtain ⟨hlong, hzero⟩ := crcMatches_iff.mp hintact
  obtain ⟨hindex, rfl⟩ := List.getElem?_eq_some_iff.mp hold
  have hwithin : DifferWithin index frame (frame.set index value) :=
    ⟨List.length_set, fun i hi _ => List.getElem?_set_ne (Ne.symm hi)⟩
  have hother : frame.set index value ≠ frame := by
    intro heq
    have hthere := congrArg (·[index]?) heq
    simp only [List.getElem?_set_self hindex, List.getElem?_eq_getElem hindex] at hthere
    exact hvalue (Option.some.inj hthere)
  rw [Bool.eq_false_iff]
  intro hmatches
  exact crc_ne_zero_of_within hlong hzero hwithin hother (crcMatches_iff.mp hmatches).2

/-- **How many bits differ** in two frames of the same length. -/
def flips (frame other : Bytes) : Nat :=
  (List.zipWith (fun byte byte' => Bits.ones 8 (byte ^^^ byte').toNat) frame other).sum

lemma flips_mod_two : ∀ {frame other : Bytes}, other.length = frame.length →
    flips frame other % 2 = (Bits.onesIn frame + Bits.onesIn other) % 2
  | [], [], _ => rfl
  | byte :: frame, byte' :: other, h => by
      have ih := flips_mod_two (Nat.succ.inj h)
      have hbyte := Bits.ones_xor 8 byte.toNat byte'.toNat
      rw [← UInt8.toNat_xor] at hbyte
      rw [flips, List.zipWith_cons_cons, List.sum_cons, ← flips, Bits.onesIn_cons,
        Bits.onesIn_cons]
      omega

/-- **An odd number of flipped bits leaves a remainder.** -/
lemma crc_ne_zero_of_odd {frame other : Bytes} (hintact : crc frame = 0)
    (hlength : other.length = frame.length) (hodd : flips frame other % 2 = 1) :
    crc other ≠ 0 := by
  intro hzero
  have hframe := ones_crc frame
  have hother := ones_crc other
  have hnone : Bits.ones 16 (0 : UInt16).toNat = 0 := by decide
  rw [hintact, hnone] at hframe
  rw [hzero, hnone] at hother
  rw [flips_mod_two hlength] at hodd
  omega

/-! ## Sums -/

lemma foldl_add (bytes : Bytes) (initial : UInt8) :
    bytes.foldl (· + ·) initial = initial + sum bytes := by
  induction bytes generalizing initial with
  | nil => exact (UInt8.add_zero initial).symm
  | cons byte rest ih =>
      rw [sum, List.foldl_cons, List.foldl_cons, ih, ih, UInt8.zero_add, UInt8.add_assoc]

lemma sum_append (first second : Bytes) : sum (first ++ second) = sum first + sum second := by
  have hsplit : sum (first ++ second) = second.foldl (· + ·) (sum first) := List.foldl_append
  rw [hsplit, foldl_add]

lemma sum_cons (byte : UInt8) (rest : Bytes) : sum (byte :: rest) = byte + sum rest := by
  rw [sum, List.foldl_cons, UInt8.zero_add, foldl_add]

lemma sum_singleton (byte : UInt8) : sum [byte] = byte := by
  rw [sum_cons]
  exact UInt8.add_zero byte

lemma lrc_eq_neg (bytes : Bytes) : lrc bytes = -sum bytes := by
  have hones (value : UInt8) : value ^^^ 0xFF = ~~~value := by
    rw [show (0xFF : UInt8) = -1 from rfl, UInt8.xor_neg_one]
  rw [lrc, hones, UInt8.neg_eq_not_add]

/-- **The bytes of an intact frame add up to zero.** -/
lemma lrcMatches_iff {bytes : Bytes} : lrcMatches bytes = true ↔ bytes ≠ [] ∧ sum bytes = 0 := by
  rcases List.eq_nil_or_concat' bytes with rfl | ⟨body, check, rfl⟩
  · exact ⟨nofun, fun h => absurd rfl h.1⟩
  · have hmatches : lrcMatches (body ++ [check]) = (-sum body == check) := by
      rw [lrcMatches, List.getLast?_concat, List.dropLast_concat, ← lrc_eq_neg]
    rw [hmatches, beq_iff_eq, sum_append, sum_singleton]
    constructor
    · rintro rfl
      exact ⟨List.append_ne_nil_of_right_ne_nil body (List.cons_ne_nil _ []),
        UInt8.add_right_neg _⟩
    · rintro ⟨-, hzero⟩
      rw [← UInt8.zero_add (-sum body), ← hzero, UInt8.add_comm (sum body), UInt8.add_assoc,
        UInt8.add_right_neg, UInt8.add_zero]

/-- **A frame with one byte replaced does not add up to zero.** -/
lemma lrcMatches_set {bytes : Bytes} {index : Nat} {old value : UInt8}
    (hintact : lrcMatches bytes = true) (hold : bytes[index]? = some old) (hvalue : value ≠ old) :
    lrcMatches (bytes.set index value) = false := by
  obtain ⟨hindex, rfl⟩ := List.getElem?_eq_some_iff.mp hold
  have hparts (byte : UInt8) : sum (bytes.take index ++ byte :: bytes.drop (index + 1))
      = byte + (sum (bytes.take index) + sum (bytes.drop (index + 1))) := by
    rw [sum_append, sum_cons, ← UInt8.add_assoc, UInt8.add_comm _ byte, UInt8.add_assoc]
  have hzero : sum (bytes.take index ++ bytes[index] :: bytes.drop (index + 1)) = 0 := by
    rw [← List.drop_eq_getElem_cons, List.take_append_drop]
    exact (lrcMatches_iff.mp hintact).2
  rw [Bool.eq_false_iff]
  intro hmatches
  have hother := (lrcMatches_iff.mp hmatches).2
  rw [List.set_eq_take_append_cons_drop, if_pos hindex, hparts] at hother
  rw [hparts] at hzero
  exact hvalue ((UInt8.add_left_inj _).mp (hother.trans hzero.symm))

/-- **Two intact frames differ in more than one byte**, if they differ. -/
lemma eq_of_lrcMatches {bytes other : Bytes} {index : Nat} (hlength : other.length = bytes.length)
    (hsame : ∀ i, i ≠ index → other[i]? = bytes[i]?) (hintact : lrcMatches bytes = true)
    (hmatches : lrcMatches other = true) : other = bytes := by
  by_cases hindex : index < bytes.length
  · have hset : other = bytes.set index other[index] := by
      apply List.ext_getElem?
      intro i
      by_cases hi : i = index
      · subst hi
        rw [List.getElem?_set_self hindex, List.getElem?_eq_getElem]
      · rw [List.getElem?_set_ne (Ne.symm hi), hsame i hi]
    by_cases hvalue : other[index] = bytes[index]
    · rw [hset, hvalue, List.set_getElem_self]
    · have hfails := lrcMatches_set hintact (List.getElem?_eq_getElem hindex) hvalue
      rw [← hset, hmatches] at hfails
      exact absurd hfails (by decide)
  · apply List.ext_getElem?
    intro i
    by_cases hi : i = index
    · rw [List.getElem?_eq_none (by omega), List.getElem?_eq_none (by omega)]
    · exact hsame i hi

end Checksum

end Modbus
