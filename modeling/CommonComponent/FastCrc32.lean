import CommonComponent.Crc32Lookup
import CommonComponent.FueledLoop
import CommonComponent.ProtoMsgCodec
import Mathlib.Tactic

/-!
# The checksum

`fast_crc32.cpp` computes one checksum in eight ways: bit by bit, by half bytes,
by bytes, and by slices of four, eight and sixteen bytes with the inner loop
unrolled or not.  The words are read as a little-endian machine reads them.

Every way is the fold of one register step over the bytes.  The way with
prefetching compares the length with a sum that may wrap around; where it does,
the loop may run into memory behind the data, and exactly then it has no result.
-/

namespace CommonComponent
namespace FastCrc32

open ReflectedCrc

/-! ## One byte at a time -/

/-- One pass of the loop over `j`; `-int32_t(crc & 1)` is a mask of ones or zeros. -/
def crc32Bit (crc : UInt32) : UInt32 :=
  (crc >>> 1) ^^^ ((0 - (crc &&& 1)) &&& polynomial)

def bitwiseByte (crc : UInt32) (byte : UInt8) : UInt32 :=
  crc32Bit^[8] (crc ^^^ byte.toUInt32)

def halfBytes (crc : UInt32) (byte : UInt8) : UInt32 :=
  let lookup := fun i : UInt32 => crc32Lookup16.getD i.toNat 0
  let crc := lookup ((crc ^^^ byte.toUInt32) &&& 0x0F) ^^^ (crc >>> 4)
  lookup ((crc ^^^ (byte >>> 4).toUInt32) &&& 0x0F) ^^^ (crc >>> 4)

def tableByte (crc : UInt32) (byte : UInt8) : UInt32 :=
  (crc >>> 8) ^^^ crc32Lookup 0 ((crc &&& 0xFF) ^^^ byte.toUInt32)

/-- `crc32_bitwise`. -/
def crc32Bitwise (data : Bytes) (previousCrc32 : UInt32) : UInt32 :=
  ~~~data.foldl bitwiseByte (~~~previousCrc32)

/-- `crc32_halfbyte`. -/
def crc32HalfByte (data : Bytes) (previousCrc32 : UInt32) : UInt32 :=
  ~~~data.foldl halfBytes (~~~previousCrc32)

/-- `crc32_1byte`. -/
def crc32OneByte (data : Bytes) (previousCrc32 : UInt32) : UInt32 :=
  ~~~data.foldl tableByte (~~~previousCrc32)

/-! ## Several bytes at a time -/

/-- `current[i]` of a pointer to 32-bit words. -/
def wordAt (current : Bytes) (i : ℕ) : UInt32 :=
  let byte := fun j => (current.getD (4 * i + j) 0).toBitVec
  UInt32.ofBitVec (byte 3 ++ byte 2 ++ byte 1 ++ byte 0)

/-- The look-ups of the four bytes of a word, the top one in row `slice`. -/
def wordLookup (slice : ℕ) (word : UInt32) : UInt32 :=
  crc32Lookup slice ((word >>> 24) &&& 0xFF) ^^^
    crc32Lookup (slice + 1) ((word >>> 16) &&& 0xFF) ^^^
    crc32Lookup (slice + 2) ((word >>> 8) &&& 0xFF) ^^^
    crc32Lookup (slice + 3) (word &&& 0xFF)

def slicingBy4 (crc : UInt32) (current : Bytes) : UInt32 :=
  let one := wordAt current 0 ^^^ crc
  wordLookup 0 one

def slicingBy8 (crc : UInt32) (current : Bytes) : UInt32 :=
  let one := wordAt current 0 ^^^ crc
  let two := wordAt current 1
  wordLookup 0 two ^^^ wordLookup 4 one

def slicingBy16 (crc : UInt32) (current : Bytes) : UInt32 :=
  let one := wordAt current 0 ^^^ crc
  let two := wordAt current 1
  let three := wordAt current 2
  let four := wordAt current 3
  wordLookup 0 four ^^^ wordLookup 4 three ^^^ wordLookup 8 two ^^^ wordLookup 12 one

/-- The inner `for` loop: `times` blocks of `size` bytes each. -/
def unrolled (size : ℕ) (block : UInt32 → Bytes → UInt32) :
    ℕ → UInt32 → Bytes → UInt32
  | 0, crc, _ => crc
  | times + 1, crc, current =>
      unrolled size block times (block crc current) (current.drop size)

/-- The outer `while` loop, with a bound on its passes: the register and the bytes
that are left. -/
def whileBlocks (bytesAtOnce : ℕ) (block : UInt32 → Bytes → UInt32) :
    ℕ → UInt32 → Bytes → UInt32 × Bytes
  | 0, crc, current => (crc, current)
  | fuel + 1, crc, current =>
      if bytesAtOnce ≤ current.length then
        whileBlocks bytesAtOnce block fuel (block crc current) (current.drop bytesAtOnce)
      else (crc, current)

/-- The frame of the slicing algorithms: blocks, then single bytes. -/
def crc32Blocks (bytesAtOnce : ℕ) (block : UInt32 → Bytes → UInt32) (data : Bytes)
    (previousCrc32 : UInt32) : UInt32 :=
  let (crc, currentChar) :=
    whileBlocks bytesAtOnce block data.length (~~~previousCrc32) data
  ~~~currentChar.foldl tableByte crc

/-- `crc32_4bytes`. -/
def crc32FourBytes : Bytes → UInt32 → UInt32 := crc32Blocks 4 slicingBy4

/-- `crc32_8bytes`. -/
def crc32EightBytes : Bytes → UInt32 → UInt32 := crc32Blocks 8 slicingBy8

/-- `crc32_4x8bytes`. -/
def crc32FourTimesEightBytes : Bytes → UInt32 → UInt32 :=
  crc32Blocks (8 * 4) (unrolled 8 slicingBy8 4)

/-- `crc32_16bytes`. -/
def crc32SixteenBytes : Bytes → UInt32 → UInt32 :=
  crc32Blocks (16 * 4) (unrolled 16 slicingBy16 4)

/-- The loop of `crc32_16bytes_prefetch`.  Its guard is computed in `size_t`, and a
pass with fewer bytes left than it takes reads behind the data. -/
def prefetchBlocks (ahead : ℕ) : ℕ → UInt32 → Bytes → Option (UInt32 × Bytes)
  | 0, crc, current => some (crc, current)
  | fuel + 1, crc, current =>
      if (16 * 4 + ahead) % 2 ^ 64 ≤ current.length then
        if current.length < 16 * 4 then none
        else prefetchBlocks ahead fuel (unrolled 16 slicingBy16 4 crc current)
          (current.drop (16 * 4))
      else some (crc, current)

/-- `crc32_16bytes_prefetch`, unless it reads behind the data. -/
def crc32SixteenBytesPrefetch (data : Bytes) (previousCrc32 : UInt32)
    (prefetchAhead : ℕ) : Option UInt32 :=
  (prefetchBlocks prefetchAhead (data.length + 1) (~~~previousCrc32) data).map
    fun (crc, currentChar) => ~~~currentChar.foldl tableByte crc

/-- `crc32_fast`. -/
def crc32Fast (data : Bytes) (previousCrc32 : UInt32) : UInt32 :=
  crc32SixteenBytes data previousCrc32

/-- `FastCRC32`. -/
def fastCRC32 (data : Bytes) (previousCrc32 : UInt32) : UInt32 :=
  crc32Fast data previousCrc32

/-! ## The register step -/

theorem crc32Bit_toBitVec (crc : UInt32) :
    (crc32Bit crc).toBitVec = bitStep polynomial.toBitVec crc.toBitVec := by
  have hlow : (crc &&& 1).toBitVec =
      BitVec.setWidth 32 (BitVec.ofBool (crc.toBitVec.getLsbD 0)) := by
    rw [UInt32.toBitVec_and]
    exact BitVec.and_one_eq_setWidth_ofBool_getLsbD
  rw [crc32Bit, UInt32.toBitVec_xor, UInt32.toBitVec_and, UInt32.toBitVec_sub, hlow, bitStep]
  cases crc.toBitVec.getLsbD 0
  · simp
  · rw [show (UInt32.toBitVec 0 - BitVec.setWidth 32 (BitVec.ofBool true)) =
      BitVec.allOnes 32 from rfl, BitVec.allOnes_and]
    rfl

theorem crc32Bits_toBitVec (n : ℕ) (crc : UInt32) :
    (crc32Bit^[n] crc).toBitVec = (bitStep polynomial.toBitVec)^[n] crc.toBitVec := by
  induction n generalizing crc with
  | zero => rfl
  | succ n ih => rw [Function.iterate_succ_apply, ih, crc32Bit_toBitVec,
      Function.iterate_succ_apply]

theorem bitwiseByte_toBitVec (crc : UInt32) (byte : UInt8) :
    (bitwiseByte crc byte).toBitVec =
      feed polynomial.toBitVec crc.toBitVec byte.toBitVec :=
  crc32Bits_toBitVec 8 _

theorem foldl_bitwiseByte_toBitVec (data : Bytes) (crc : UInt32) :
    (data.foldl bitwiseByte crc).toBitVec =
      (data.map UInt8.toBitVec).foldl (feed polynomial.toBitVec) crc.toBitVec := by
  induction data generalizing crc with
  | nil => rfl
  | cons byte data ih => rw [List.foldl_cons, ih, bitwiseByte_toBitVec]; rfl

theorem and_low_mask (x : BitVec 32) (n : ℕ) :
    x &&& BitVec.ofNat 32 (2 ^ n - 1) = (x.setWidth n).setWidth 32 := by
  apply BitVec.eq_of_getLsbD_eq
  intro i hi
  simp only [BitVec.getLsbD_and, BitVec.getLsbD_ofNat, Nat.testBit_two_pow_sub_one,
    BitVec.getLsbD_setWidth, hi, decide_true, Bool.true_and]
  exact Bool.and_comm _ _

theorem toNat_and_low_mask_lt (x : BitVec 32) (n : ℕ) :
    (x &&& BitVec.ofNat 32 (2 ^ n - 1)).toNat < 2 ^ n := by
  rw [and_low_mask, BitVec.toNat_setWidth, BitVec.toNat_setWidth]
  exact Nat.lt_of_le_of_lt (Nat.mod_le _ _) (Nat.mod_lt _ (by positivity))

/-- A look-up at the low byte of a word. -/
theorem crc32Lookup_low {k : ℕ} (hk : k < 16) (x : UInt32) :
    (crc32Lookup k (x &&& 0xFF)).toBitVec =
      slice polynomial.toBitVec k (x.toBitVec.setWidth 8) := by
  have hmask : (x &&& 0xFF).toBitVec = (x.toBitVec.setWidth 8).setWidth 32 :=
    and_low_mask x.toBitVec 8
  have hlt : (x &&& 0xFF).toNat < 256 := toNat_and_low_mask_lt x.toBitVec 8
  rw [crc32Lookup_toBitVec hk hlt, hmask,
    BitVec.setWidth_setWidth_of_le _ (by decide), BitVec.setWidth_eq]

/-- A look-up of half a byte, for a word at its low end. -/
theorem crc32Lookup16_low (x : UInt32) :
    (crc32Lookup16.getD (x &&& 0x0F).toNat 0).toBitVec =
      (bitStep polynomial.toBitVec)^[4] ((x.toBitVec.setWidth 4).setWidth 32) := by
  have hmask : (x &&& 0x0F).toBitVec = (x.toBitVec.setWidth 4).setWidth 32 :=
    and_low_mask x.toBitVec 4
  have hlt : (x &&& 0x0F).toNat < 16 := toNat_and_low_mask_lt x.toBitVec 4
  rw [crc32Lookup16_toBitVec hlt, hmask]

/-- A byte in a word has moved out after eight places. -/
theorem byte_shift_out (byte : UInt8) : byte.toUInt32.toBitVec >>> 8 = 0#32 := by
  apply BitVec.eq_of_toNat_eq
  have := byte.toNat_lt
  simp [BitVec.toNat_ushiftRight, Nat.shiftRight_eq_div_pow]
  omega

theorem tableByte_eq_bitwiseByte (crc : UInt32) (byte : UInt8) :
    tableByte crc byte = bitwiseByte crc byte := by
  have hindex : (crc &&& 0xFF) ^^^ byte.toUInt32 = (crc ^^^ byte.toUInt32) &&& 0xFF := by
    apply UInt32.toNat_inj.mp
    have hbyte : byte.toNat &&& 0xFF = byte.toNat :=
      Nat.and_two_pow_sub_one_of_lt_two_pow byte.toNat_lt
    have hmask : (0xFF : UInt32).toNat = 0xFF := rfl
    simp only [UInt32.toNat_xor, UInt32.toNat_and, UInt8.toNat_toUInt32, hmask,
      Nat.and_xor_distrib_right, hbyte]
  apply UInt32.toBitVec_inj.mp
  rw [bitwiseByte_toBitVec, feed, bitSteps_slice polynomial.toBitVec _ 0, tableByte, hindex,
    UInt32.toBitVec_xor, crc32Lookup_low (by decide), BitVec.ushiftRight_xor_distrib]
  change _ = _ ^^^ (crc.toBitVec >>> 8 ^^^ byte.toUInt32.toBitVec >>> 8)
  rw [byte_shift_out, BitVec.xor_zero, BitVec.xor_comm]
  rfl

theorem foldl_tableByte (data : Bytes) (crc : UInt32) :
    data.foldl tableByte crc = data.foldl bitwiseByte crc := by
  have htable : tableByte = bitwiseByte := by
    funext crc byte
    exact tableByte_eq_bitwiseByte crc byte
  rw [htable]

/-- Two half bytes: each look-up is four steps, less the part of the byte that is
still to be fed in. -/
theorem halfBytes_eq_bitwiseByte (crc : UInt32) (byte : UInt8) :
    halfBytes crc byte = bitwiseByte crc byte := by
  have hlook : ∀ x : UInt32, crc32Lookup16.getD (x &&& 0x0F).toNat 0 =
      crc32Bit^[4] x ^^^ (x >>> 4) := by
    intro x
    apply UInt32.toBitVec_inj.mp
    rw [crc32Lookup16_low, UInt32.toBitVec_xor, crc32Bits_toBitVec,
      bitSteps_split polynomial.toBitVec x.toBitVec 4, BitVec.xor_assoc]
    change _ = _ ^^^ (x.toBitVec >>> 4 ^^^ x.toBitVec >>> 4)
    rw [BitVec.xor_self, BitVec.xor_zero]
  have hshift : ∀ x y : UInt32, (x ^^^ y) >>> 4 = x >>> 4 ^^^ y >>> 4 := by
    intro x y
    apply UInt32.toBitVec_inj.mp
    exact BitVec.ushiftRight_xor_distrib _ _ 4
  have hhigh : (byte >>> 4).toUInt32 = byte.toUInt32 >>> 4 := by
    apply UInt32.toNat_inj.mp
    rw [UInt32.toNat_shiftRight, UInt8.toNat_toUInt32, UInt8.toNat_toUInt32,
      UInt8.toNat_shiftRight]
    rfl
  have hout : byte.toUInt32 >>> 4 >>> 4 = 0 := by
    apply UInt32.toBitVec_inj.mp
    have := byte_shift_out byte
    rwa [BitVec.shiftRight_add _ 4 4] at this
  set four := crc32Bit^[4] (crc ^^^ byte.toUInt32) with hfour
  have hfirst : four ^^^ (crc ^^^ byte.toUInt32) >>> 4 ^^^ crc >>> 4 =
      four ^^^ byte.toUInt32 >>> 4 := by
    rw [hshift, UInt32.xor_assoc, UInt32.xor_comm (crc >>> 4), UInt32.xor_assoc,
      UInt32.xor_self, UInt32.xor_zero]
  have hsecond : four ^^^ byte.toUInt32 >>> 4 ^^^ byte.toUInt32 >>> 4 = four := by
    rw [UInt32.xor_assoc, UInt32.xor_self, UInt32.xor_zero]
  simp only [halfBytes, hlook, ← hfour, hhigh]
  rw [hfirst, hsecond, hshift, hout, UInt32.xor_zero, UInt32.xor_assoc, UInt32.xor_self,
    UInt32.xor_zero, hfour, ← Function.iterate_add_apply]
  rfl

/-! ## A word at a time -/

/-- The look-ups of a word are its steps, counted to the end of the block. -/
theorem wordLookup_toBitVec {k : ℕ} (hk : k + 3 < 16) (word : UInt32) :
    (wordLookup k word).toBitVec =
      (bitStep polynomial.toBitVec)^[8 * (k + 4)] word.toBitVec := by
  have hout : word.toBitVec >>> 32 = 0#32 := by
    apply BitVec.eq_of_getLsbD_eq
    intro i hi
    simp
  rw [bitSteps_slice polynomial.toBitVec _ (k + 3), bitSteps_slice polynomial.toBitVec _ (k + 2),
    bitSteps_slice polynomial.toBitVec _ (k + 1), bitSteps_slice polynomial.toBitVec _ k]
  simp only [← BitVec.shiftRight_add, Nat.reduceAdd]
  rw [hout, bitSteps_zero, BitVec.xor_zero, wordLookup, UInt32.toBitVec_xor,
    UInt32.toBitVec_xor, UInt32.toBitVec_xor, crc32Lookup_low (by omega),
    crc32Lookup_low (by omega), crc32Lookup_low (by omega), crc32Lookup_low hk]
  change slice _ k ((word.toBitVec >>> 24).setWidth 8) ^^^
    slice _ (k + 1) ((word.toBitVec >>> 16).setWidth 8) ^^^
    slice _ (k + 2) ((word.toBitVec >>> 8).setWidth 8) ^^^ _ = _
  ac_rfl

/-- Four bytes are fed in as the word that a little-endian machine reads. -/
theorem foldl_word (crc : UInt32) {current : Bytes} (hlen : 4 ≤ current.length) :
    ((current.take 4).foldl bitwiseByte crc).toBitVec =
      (bitStep polynomial.toBitVec)^[32] (crc ^^^ wordAt current 0).toBitVec := by
  match current, hlen with
  | b0 :: b1 :: b2 :: b3 :: rest, _ =>
      rw [foldl_bitwiseByte_toBitVec, ← feedBits_bytes _ (by decide),
        feedBits_eq_word _ _ (by simp)]
      congr 1
      rw [UInt32.toBitVec_xor]
      congr 1
      apply BitVec.eq_of_getLsbD_eq
      intro i hi
      change _ = (b3.toBitVec ++ b2.toBitVec ++ b1.toBitVec ++ b0.toBitVec).getLsbD i
      simp only [getLsbD_word, hi, decide_true, Bool.true_and, BitVec.getLsbD_append,
        List.take_succ_cons, List.take_zero, List.map_cons, List.map_nil,
        List.flatMap_cons, List.flatMap_nil, List.append_nil, List.getD_eq_getElem?_getD,
        List.getElem?_append, length_bitsOf]
      split_ifs <;> simp only [*, if_true, if_false, getD_bitsOf]

theorem wordAt_drop (current : Bytes) (i j : ℕ) :
    wordAt (current.drop (4 * i)) j = wordAt current (i + j) := by
  simp only [wordAt, List.getD_eq_getElem?_getD, List.getElem?_drop,
    show ∀ k, 4 * i + (4 * j + k) = 4 * (i + j) + k by intro k; ring]

/-! ## Blocks -/

/-- A block of the given size does what its bytes do one after the other. -/
def BlockOk (size : ℕ) (block : UInt32 → Bytes → UInt32) : Prop :=
  ∀ crc current, size ≤ current.length →
    block crc current = (current.take size).foldl bitwiseByte crc

/-- The bytes of the words that a block has read, and what is left of the block. -/
theorem foldl_take_add (crc : UInt32) (current : Bytes) (m n : ℕ) :
    (current.take (m + n)).foldl bitwiseByte crc =
      ((current.drop m).take n).foldl bitwiseByte ((current.take m).foldl bitwiseByte crc) := by
  rw [List.take_add, List.foldl_append]

/-- The first word of a block is moved on to the end of the block, and the rest
starts from an empty register. -/
theorem foldl_words (crc : UInt32) {current : Bytes} (n : ℕ)
    (hlen : 4 + 4 * n ≤ current.length) :
    ((current.take (4 + 4 * n)).foldl bitwiseByte crc).toBitVec =
      (bitStep polynomial.toBitVec)^[8 * (4 * n + 4)] (wordAt current 0 ^^^ crc).toBitVec ^^^
        (((current.drop 4).take (4 * n)).foldl bitwiseByte 0).toBitVec := by
  have hrest : ((current.drop 4).take (4 * n)).length = 4 * n := by
    rw [List.length_take, List.length_drop]
    omega
  set first := (current.take 4).foldl bitwiseByte crc with hfirst
  have hmoved := foldl_feed_xor polynomial.toBitVec
    (((current.drop 4).take (4 * n)).map UInt8.toBitVec) first.toBitVec 0#32
  rw [List.length_map, hrest, BitVec.xor_zero, hfirst, foldl_word crc (by omega),
    ← Function.iterate_add_apply, ← foldl_word crc (by omega),
    ← foldl_bitwiseByte_toBitVec] at hmoved
  rw [foldl_take_add, hmoved, UInt32.xor_comm, foldl_bitwiseByte_toBitVec]
  rfl

theorem slicingBy4_ok : BlockOk 4 slicingBy4 := by
  intro crc current hlen
  apply UInt32.toBitVec_inj.mp
  rw [foldl_word crc hlen, slicingBy4, wordLookup_toBitVec (by decide), UInt32.xor_comm]

theorem slicingBy8_ok : BlockOk 8 slicingBy8 := by
  intro crc current hlen
  have hrest : 4 ≤ (current.drop 4).length := by rw [List.length_drop]; omega
  apply UInt32.toBitVec_inj.mp
  rw [foldl_words crc 1 hlen, ← slicingBy4_ok 0 _ hrest, slicingBy8, slicingBy4,
    UInt32.toBitVec_xor, wordLookup_toBitVec (k := 4) (by decide), wordAt_drop current 1 0,
    UInt32.xor_zero, BitVec.xor_comm]

theorem slicingBy16_ok : BlockOk 16 slicingBy16 := by
  intro crc current hlen
  have hthree : 4 + 4 * 2 ≤ (current.drop 4).length := by rw [List.length_drop]; omega
  have htwo : 8 ≤ ((current.drop 4).drop 4).length := by
    rw [List.length_drop, List.length_drop]
    omega
  have hwords : ∀ i, wordAt ((current.drop 4).drop 4) i = wordAt current (2 + i) := by
    intro i
    rw [List.drop_drop]
    exact wordAt_drop current 2 i
  apply UInt32.toBitVec_inj.mp
  rw [foldl_words crc 3 hlen, foldl_words 0 2 hthree, ← slicingBy8_ok 0 _ htwo, slicingBy16,
    slicingBy8, hwords, hwords, wordAt_drop current 1 0]
  simp only [UInt32.toBitVec_xor, UInt32.xor_zero]
  rw [wordLookup_toBitVec (k := 8) (by decide), wordLookup_toBitVec (k := 12) (by decide),
    UInt32.toBitVec_xor]
  ac_rfl

theorem unrolled_ok {size : ℕ} {block : UInt32 → Bytes → UInt32} (hblock : BlockOk size block)
    (times : ℕ) : BlockOk (size * times) (unrolled size block times) := by
  induction times with
  | zero => intro crc current _; simp [unrolled]
  | succ times ih =>
      intro crc current hlen
      rw [Nat.mul_succ] at hlen
      rw [unrolled, ih _ _ (by rw [List.length_drop]; omega), hblock _ _ (by omega),
        Nat.mul_succ, Nat.add_comm, foldl_take_add]

/-- The loop over blocks leaves less than a block, and the bytes that are left go on
from the register to where all the bytes lead. -/
theorem whileBlocks_spec {bytesAtOnce : ℕ} {block : UInt32 → Bytes → UInt32}
    (hblock : BlockOk bytesAtOnce block) (fuel : ℕ) (crc : UInt32) (current : Bytes) :
    (whileBlocks bytesAtOnce block fuel crc current).2.foldl bitwiseByte
        (whileBlocks bytesAtOnce block fuel crc current).1 =
      current.foldl bitwiseByte crc := by
  induction fuel generalizing crc current with
  | zero => rfl
  | succ fuel ih =>
      rw [whileBlocks]
      split
      · rename_i hlen
        rw [ih, hblock _ _ hlen, ← List.foldl_append, List.take_append_drop]
      · rfl

theorem crc32Blocks_eq {bytesAtOnce : ℕ} {block : UInt32 → Bytes → UInt32}
    (hblock : BlockOk bytesAtOnce block) (data : Bytes) (previousCrc32 : UInt32) :
    crc32Blocks bytesAtOnce block data previousCrc32 = crc32Bitwise data previousCrc32 := by
  rw [crc32Blocks, crc32Bitwise, ← whileBlocks_spec hblock data.length]
  exact congrArg (~~~ ·) (foldl_tableByte _ _)

/-- The guard of the prefetching loop wraps around, and the loop comes to a point
where it allows a pass with too few bytes. -/
def ReadsBehind (length prefetchAhead : ℕ) : Prop :=
  2 ^ 64 ≤ 16 * 4 + prefetchAhead ∧ 16 * 4 + prefetchAhead - 2 ^ 64 ≤ length % (16 * 4)

theorem readsBehind_sub {length ahead : ℕ} (hlen : 16 * 4 ≤ length) :
    ReadsBehind (length - 16 * 4) ahead ↔ ReadsBehind length ahead := by
  rw [ReadsBehind, ReadsBehind, ← Nat.mod_eq_sub_mod hlen]

theorem prefetchBlocks_eq_none_iff {ahead : ℕ} (hahead : ahead < 2 ^ 64) {fuel : ℕ}
    (crc : UInt32) {current : Bytes} (hfuel : current.length < fuel) :
    prefetchBlocks ahead fuel crc current = none ↔ ReadsBehind current.length ahead := by
  induction fuel generalizing crc current with
  | zero => omega
  | succ fuel ih =>
      rw [prefetchBlocks]
      split
      · rename_i hguard
        split
        · rename_i hshort
          refine iff_of_true rfl ?_
          rw [ReadsBehind, Nat.mod_eq_of_lt hshort]
          omega
        · rename_i hlen
          rw [ih _ (by rw [List.length_drop]; omega), List.length_drop,
            readsBehind_sub (by omega)]
      · rename_i hguard
        refine iff_of_false (by simp) ?_
        rintro ⟨hwrap, hle⟩
        have := Nat.mod_le current.length (16 * 4)
        omega

theorem foldl_of_prefetchBlocks {ahead fuel : ℕ} {crc crc' : UInt32} {current rest : Bytes}
    (hrun : prefetchBlocks ahead fuel crc current = some (crc', rest)) :
    rest.foldl bitwiseByte crc' = current.foldl bitwiseByte crc := by
  induction fuel generalizing crc current with
  | zero => cases hrun; rfl
  | succ fuel ih =>
      rw [prefetchBlocks] at hrun
      split at hrun
      · split at hrun
        · cases hrun
        · rename_i hlen
          rw [ih hrun, unrolled_ok slicingBy16_ok 4 _ _ (by omega), ← List.foldl_append,
            List.take_append_drop]
      · cases hrun
        rfl

/-! ## The ways agree -/

/-- **One checksum.**  All the ways give what the bitwise one gives, for every data
and every checksum to go on from; the way with prefetching does so unless its guard
wraps around and lets it read behind the data. -/
theorem crc32_ways_agree (data : Bytes) (previousCrc32 : UInt32) :
    let crc := crc32Bitwise data previousCrc32
    crc32HalfByte data previousCrc32 = crc ∧ crc32OneByte data previousCrc32 = crc ∧
      crc32FourBytes data previousCrc32 = crc ∧ crc32EightBytes data previousCrc32 = crc ∧
      crc32FourTimesEightBytes data previousCrc32 = crc ∧
      fastCRC32 data previousCrc32 = crc ∧
      ∀ prefetchAhead < 2 ^ 64,
        crc32SixteenBytesPrefetch data previousCrc32 prefetchAhead =
          if 2 ^ 64 ≤ 64 + prefetchAhead ∧ 64 + prefetchAhead - 2 ^ 64 ≤ data.length % 64
          then none else some crc := by
  have hhalf : halfBytes = bitwiseByte := by
    funext crc byte
    exact halfBytes_eq_bitwiseByte crc byte
  refine ⟨?_, ?_, ?_, ?_, ?_, ?_, ?_⟩
  · rw [crc32HalfByte, hhalf, crc32Bitwise]
  · rw [crc32OneByte, foldl_tableByte, crc32Bitwise]
  · exact crc32Blocks_eq slicingBy4_ok data previousCrc32
  · exact crc32Blocks_eq slicingBy8_ok data previousCrc32
  · exact crc32Blocks_eq (unrolled_ok slicingBy8_ok 4) data previousCrc32
  · exact crc32Blocks_eq (unrolled_ok slicingBy16_ok 4) data previousCrc32
  · intro prefetchAhead hahead
    have hnone := prefetchBlocks_eq_none_iff hahead (~~~previousCrc32)
      (Nat.lt_succ_self data.length)
    rw [crc32SixteenBytesPrefetch]
    split
    · rename_i hreads
      rw [hnone.mpr hreads]
      rfl
    · rename_i hreads
      cases hrun : prefetchBlocks prefetchAhead (data.length + 1) (~~~previousCrc32) data with
      | none => exact absurd (hnone.mp hrun) hreads
      | some left =>
          obtain ⟨crc', rest⟩ := left
          have hfold := foldl_of_prefetchBlocks hrun
          simp only [Option.map_some, foldl_tableByte, hfold, crc32Bitwise]

theorem fastCRC32_eq (data : Bytes) (previousCrc32 : UInt32) :
    fastCRC32 data previousCrc32 = crc32Bitwise data previousCrc32 :=
  crc32Blocks_eq (unrolled_ok slicingBy16_ok 4) data previousCrc32

/-- Going on from the checksum of a front part. -/
theorem fastCRC32_append (front back : Bytes) (previousCrc32 : UInt32) :
    fastCRC32 back (fastCRC32 front previousCrc32) =
      fastCRC32 (front ++ back) previousCrc32 := by
  simp only [fastCRC32_eq, crc32Bitwise, UInt32.not_not, List.foldl_append]

/-- The checksum with the default argument is the one that `crc32_bitwise` gives
from nothing. -/
theorem fastCRC32_zero (data : Bytes) :
    fastCRC32 data 0 = CommonComponent.crc32Bitwise data := by
  have hbit : ∀ crc : UInt32, crc32Bit crc =
      if crc &&& 1 = 1 then (crc >>> 1) ^^^ 0xEDB88320 else crc >>> 1 := by
    intro crc
    have hlow : crc &&& 1 = 0 ∨ crc &&& 1 = 1 := by
      have : (crc &&& 1).toNat = crc.toNat % 2 := by
        rw [UInt32.toNat_and]
        exact Nat.and_one_is_mod _
      obtain h | h := Nat.mod_two_eq_zero_or_one crc.toNat
      · exact .inl (UInt32.toNat_inj.mp (this.trans h))
      · exact .inr (UInt32.toNat_inj.mp (this.trans h))
    obtain h | h := hlow
    · simp [crc32Bit, h]
    · rw [crc32Bit, h, if_pos rfl]
      have : (0 - 1 : UInt32) &&& polynomial = polynomial := by decide
      rw [this]
      rfl
  have hbyte : bitwiseByte = fun crc byte => (fun crc : UInt32 =>
      if crc &&& 1 = 1 then (crc >>> 1) ^^^ 0xEDB88320 else crc >>> 1)^[8]
        (crc ^^^ byte.toUInt32) := by
    funext crc byte
    rw [bitwiseByte, funext hbit]
  rw [fastCRC32_eq, crc32Bitwise, hbyte]
  exact (UInt32.xor_neg_one (a := _)).symm

/-! ## Files -/

/-- What `fopen(path, "r")` opens: the bytes that can be read, and whether a read
error stands behind them, as it does at once for a directory. -/
structure OpenFile where
  content : Bytes
  readError : Bool

/-- What lies at a path: nothing, something that does not open, or something that
does. -/
inductive PathEntry where
  | missing
  | unopenable
  | openable (file : OpenFile)

/-- The stream in the loop of `FileFastCRC32`, with the checksum so far. -/
structure FileCrc where
  rest : Bytes
  eof : Bool
  fileCrc32 : UInt32

/-- One pass of the loop.  `fread` gives fewer bytes than asked for at the end of
the file and at an error; only the first is seen by `feof`. -/
def filePass (readError : Bool) (s : FileCrc) : UInt32 ⊕ FileCrc :=
  if s.eof then .inl s.fileCrc32
  else
    let tmp := s.rest.take 4096
    .inr
      { rest := s.rest.drop 4096
        eof := !readError && decide (tmp.length < 4096)
        fileCrc32 := if 0 < tmp.length then crc32Fast tmp s.fileCrc32 else s.fileCrc32 }

/-- `FileFastCRC32` with a bound on the passes of its loop; no path stands for the
null pointer. -/
def fileFastCRC32 {Path : Type*} (fs : Path → PathEntry) (filePath : Option Path)
    (fuel : ℕ) : Option UInt32 :=
  match filePath with
  | none => some 0
  | some path =>
      match fs path with
      | .missing => some 0
      | .unopenable => some 0
      | .openable file =>
          FueledLoop.loop (fun _ => filePass file.readError) fuel 0
            { rest := file.content, eof := false, fileCrc32 := 0 }

/-- Without a read error the loop ends at the end of the file, with the checksum of
all that was read. -/
theorem filePass_ends (s : FileCrc) (k : ℕ) (heof : s.eof = false) :
    FueledLoop.Ends (fun _ => filePass false) k s (fastCRC32 s.rest s.fileCrc32) := by
  induction hn : s.rest.length using Nat.strong_induction_on generalizing s k with
  | _ n ih =>
      have hcrc : (if 0 < (s.rest.take 4096).length then crc32Fast (s.rest.take 4096) s.fileCrc32
          else s.fileCrc32) = fastCRC32 (s.rest.take 4096) s.fileCrc32 := by
        split
        · rfl
        · rename_i hempty
          rw [List.length_eq_zero_iff.mp (Nat.eq_zero_of_not_pos hempty), fastCRC32_eq,
            crc32Bitwise, List.foldl_nil, UInt32.not_not]
      have hpass : filePass false s = .inr
          { rest := s.rest.drop 4096, eof := decide ((s.rest.take 4096).length < 4096)
            fileCrc32 := fastCRC32 (s.rest.take 4096) s.fileCrc32 } := by
        simp only [filePass, heof, Bool.false_eq_true, if_false, Bool.not_false, Bool.true_and,
          hcrc]
      refine .pass hpass ?_
      by_cases hshort : (s.rest.take 4096).length < 4096
      · have hall : s.rest.take 4096 = s.rest := by
          rw [List.length_take] at hshort
          exact List.take_of_length_le (by omega)
        refine .leave ?_
        rw [filePass, if_pos (decide_eq_true hshort), hall]
      · have hlen : 4096 ≤ s.rest.length := by
          rw [List.length_take] at hshort
          omega
        have hrest := ih (n - 4096) (by omega)
          { rest := s.rest.drop 4096, eof := decide ((s.rest.take 4096).length < 4096)
            fileCrc32 := fastCRC32 (s.rest.take 4096) s.fileCrc32 } (k + 1)
          (by simpa using hlen) (by simp [hn])
        rwa [fastCRC32_append, List.take_append_drop] at hrest

/-- With a read error `feof` never holds, and the loop has no other exit. -/
theorem filePass_not_ends (s : FileCrc) (k : ℕ) (heof : s.eof = false) (crc : UInt32) :
    ¬FueledLoop.Ends (fun _ => filePass true) k s crc := by
  have hpass : ∀ (_ : ℕ) (s : FileCrc), s.eof = false →
      ∃ s', filePass true s = .inr s' ∧ s'.eof = false :=
    fun _ s heof => ⟨_, by simp only [filePass, heof]; rfl, by simp⟩
  exact FueledLoop.not_ends_of_inv hpass k heof crc

/-- The bytes of the file at a path, none when there is no such file. -/
def contentOf {Path : Type*} (fs : Path → PathEntry) (filePath : Option Path) : Bytes :=
  match filePath.map fs with
  | some (.openable file) => file.content
  | _ => []

/-- **Checksum of a file.**  `FileFastCRC32` returns unless a read error stands in
the file, and it returns the checksum of the whole content, whatever the pieces it
was read in; for a path without a file that is the checksum of nothing, 0. -/
theorem fileFastCRC32_returns_iff {Path : Type*} (fs : Path → PathEntry)
    (filePath : Option Path) (crc : UInt32) :
    (∃ fuel, fileFastCRC32 fs filePath fuel = some crc) ↔
      (∀ path ∈ filePath, ∀ file, fs path = .openable file → file.readError = false) ∧
        crc = crc32Bitwise (contentOf fs filePath) 0 := by
  have hnothing : crc32Bitwise [] 0 = 0 := by decide
  cases filePath with
  | none =>
      simp only [fileFastCRC32, contentOf, Option.map_none, hnothing, exists_const]
      simp [@eq_comm _ crc]
  | some path =>
      cases hentry : fs path with
      | missing => simp [fileFastCRC32, contentOf, hentry, hnothing, @eq_comm _ crc]
      | unopenable => simp [fileFastCRC32, contentOf, hentry, hnothing, @eq_comm _ crc]
      | openable file =>
          have hrun : ∀ fuel, fileFastCRC32 fs (some path) fuel =
              FueledLoop.loop (fun _ => filePass file.readError) fuel 0
                { rest := file.content, eof := false, fileCrc32 := 0 } := by
            intro fuel
            rw [fileFastCRC32, hentry]
          simp only [hrun, contentOf, Option.map_some, hentry]
          cases herror : file.readError with
          | true =>
              refine iff_of_false (filePass_not_ends _ 0 rfl crc) ?_
              rintro ⟨hnone, -⟩
              exact absurd (hnone path rfl file hentry) (by simp [herror])
          | false =>
              have hends := filePass_ends ⟨file.content, false, 0⟩ 0 rfl
              rw [fastCRC32_eq] at hends
              constructor
              · intro hreturns
                refine ⟨?_, FueledLoop.Ends.unique hreturns hends⟩
                rintro path' ⟨⟩ file' hfile'
                rw [hentry] at hfile'
                cases hfile'
                exact herror
              · rintro ⟨-, rfl⟩
                exact hends

end FastCrc32
end CommonComponent
