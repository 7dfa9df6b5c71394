import IotCtrl.BitCrc
import IotCtrl.Modbus

/-!
# The tables of `modbus_rtu.c` against the bit-by-bit check

`CRC_sub` keeps the register in two bytes: `CRC_Hi`, which meets the message, is the low byte of
the reference's register and `CRC_Lo` its high byte.  The tables hold the eight shifts of every
byte in that order, so `exchange` returns the reference's register and `get_CRC` its two bytes
swapped.

* `crcSub_eq_crc` — the loop is the reference's, from any initial value;
* `getCRC_eq_crc16` — `get_CRC` swaps the reference;
* `getCRC_eq_iff` — a frame passes the receiver's comparison when its check is zero.
-/

namespace IotCtrl

open ByteMemory

/-- The polynomial of CRC-16/Modbus, reflected. -/
def crcPoly : U16 := 0xA001

/-- CRC-16/Modbus, bit by bit. -/
def crc16 (bytes : List U8) : U16 := BitCrc.crc crcPoly 0xFFFF bytes

def swapBytes (c : U16) : U16 := le16 (hi c) (lo c)

@[simp] theorem lo_swapBytes (c : U16) : lo (swapBytes c) = hi c := lo_le16 _ _

@[simp] theorem hi_swapBytes (c : U16) : hi (swapBytes c) = lo c := hi_le16 _ _

@[simp] theorem swapBytes_swapBytes (c : U16) : swapBytes (swapBytes c) = c := by
  rw [swapBytes, lo_swapBytes, hi_swapBytes, le16_lo_hi]

/-- The polynomial's top bit is set. -/
theorem crcPoly_top : crcPoly.getLsbD (16 - 1) = true := by decide

/-- The polynomial has three ones. -/
theorem crcPoly_odd : BitCrc.parity crcPoly = true := by decide

/-! ## The tables -/

/-- Every entry of the two tables is the eight shifts of its index. -/
theorem table_entry : ∀ i < 256,
    le16 (crcHi.getD i 0) (crcLo.getD i 0) =
      BitCrc.byteStep crcPoly 0#16 (BitVec.ofNat 8 i) := by
  decide +kernel

theorem table_byte (i : U8) :
    le16 (crcHi.getD i.toNat 0) (crcLo.getD i.toNat 0) = BitCrc.byteStep crcPoly 0#16 i := by
  have hentry := table_entry i.toNat i.isLt
  rwa [BitVec.ofNat_toNat, BitVec.setWidth_eq] at hentry

/-- Adding to the low byte of a half-word. -/
theorem le16_xor_low (l h x : U8) : le16 (l ^^^ x) h = le16 x h ^^^ l.setWidth 16 := by
  ext i hi'
  simp only [le16, BitVec.getElem_or, BitVec.getElem_xor, BitVec.getElem_setWidth,
    BitVec.getElem_shiftLeft, BitVec.getLsbD_xor]
  by_cases h8 : i < 8
  · simp only [h8, decide_true, Bool.not_true, Bool.false_and, Bool.or_false]
    exact Bool.xor_comm _ _
  · have hx : x.getLsbD i = false := BitVec.getLsbD_of_ge _ _ (Nat.not_lt.mp h8)
    have hl : l.getLsbD i = false := BitVec.getLsbD_of_ge _ _ (Nat.not_lt.mp h8)
    rw [hx, hl, Bool.xor_false, Bool.xor_false]

theorem le16_ushiftRight (l h : U8) : le16 l h >>> 8 = h.setWidth 16 := by
  apply BitVec.eq_of_getLsbD_eq
  intro i hi'
  simp only [le16, BitVec.getLsbD_ushiftRight, BitVec.getLsbD_or, BitVec.getLsbD_setWidth,
    BitVec.getLsbD_shiftLeft, Nat.add_sub_cancel_left, BitVec.getLsbD_of_ge l (8 + i) (by omega)]
  by_cases h8 : i < 8
  · simp [hi', show 8 + i < 16 by omega]
  · rw [BitVec.getLsbD_of_ge h i (Nat.not_lt.mp h8)]
    simp

/-- One turn of the loop of `CRC_sub` is one byte of the reference. -/
theorem crcStep_register (c : U8 × U8) (b : U8) :
    le16 (crcStep c b).1 (crcStep c b).2 = BitCrc.byteStep crcPoly (le16 c.1 c.2) b := by
  have hlow : (le16 c.1 c.2).setWidth 8 = c.1 := lo_le16 _ _
  rw [BitCrc.byteStep_eq_table, hlow, le16_ushiftRight, ← table_byte, crcStep, le16_xor_low]

theorem foldl_crcStep_register (bytes : List U8) (c : U8 × U8) :
    le16 (bytes.foldl crcStep c).1 (bytes.foldl crcStep c).2 =
      BitCrc.crc crcPoly (le16 c.1 c.2) bytes := by
  induction bytes generalizing c with
  | nil => rfl
  | cons b bytes ih => rw [List.foldl_cons, ih, crcStep_register, BitCrc.crc_cons]

/-- **`CRC_sub`.**  The initial value is read with its bytes swapped, and the result is swapped
back without `exchange`. -/
theorem crcSub_eq_crc (bytes : List U8) (initVal : U16) :
    crcSub bytes initVal true = BitCrc.crc crcPoly (swapBytes initVal) bytes ∧
      crcSub bytes initVal false = swapBytes (BitCrc.crc crcPoly (swapBytes initVal) bytes) := by
  have hfold := foldl_crcStep_register bytes (hi initVal, lo initVal)
  constructor
  · exact hfold
  · rw [swapBytes, swapBytes, ← hfold, hi_le16, lo_le16]
    rfl

theorem getCRC_eq_crc16 (bytes : List U8) : getCRC bytes = swapBytes (crc16 bytes) :=
  (crcSub_eq_crc bytes 0xFFFF).2

/-! ## Frames -/

theorem pack_bitsOf_pair (x y : U8) :
    BitCrc.pack 16 (BitCrc.bitsOf x ++ BitCrc.bitsOf y) = le16 x y := by
  apply BitVec.eq_of_getLsbD_eq
  intro i hi'
  rw [BitCrc.getLsbD_pack, decide_eq_true hi', Bool.true_and, le16, BitVec.getLsbD_or,
    BitVec.getLsbD_setWidth, BitVec.getLsbD_shiftLeft, BitVec.getLsbD_setWidth]
  by_cases h8 : i < 8
  · rw [List.getD_append _ _ _ _ (by rwa [BitCrc.length_bitsOf]), BitCrc.getD_bitsOf]
    simp [h8, hi']
  · rw [List.getD_append_right _ _ _ _ (by rw [BitCrc.length_bitsOf]; omega),
      BitCrc.length_bitsOf, BitCrc.getD_bitsOf, BitVec.getLsbD_of_ge x i (Nat.not_lt.mp h8)]
    simp [h8, hi', show i - 8 < 16 by omega]

/-- Two bytes behind a body clear the check when they are the body's own, low byte first. -/
theorem crc16_append_eq_zero_iff (body : List U8) (x y : U8) :
    crc16 (body ++ [x, y]) = 0 ↔ crc16 body = le16 x y := by
  have hlen : (BitCrc.bitsOf x ++ BitCrc.bitsOf y).length ≤ 16 := by
    rw [List.length_append, BitCrc.length_bitsOf, BitCrc.length_bitsOf]
  have hpair (c : U16) : BitCrc.crc crcPoly c [x, y] =
      BitCrc.feedAll crcPoly c (BitCrc.bitsOf x ++ BitCrc.bitsOf y) := by
    rw [BitCrc.crc_eq_feedAll (by decide), BitCrc.messageBits_cons, BitCrc.messageBits_cons,
      BitCrc.messageBits_nil, List.append_nil]
  rw [crc16, BitCrc.crc_append, hpair]
  exact (BitCrc.feedAll_eq_zero_iff crcPoly_top _ hlen).trans (by rw [pack_bitsOf_pair, crc16])

/-- **The receiver's comparison.**  The body's `get_CRC` is the two bytes behind it, high byte
first, when the check of the whole frame is zero. -/
theorem getCRC_eq_iff (body : List U8) (x y : U8) :
    getCRC body = le16 y x ↔ crc16 (body ++ [x, y]) = 0 := by
  rw [crc16_append_eq_zero_iff, getCRC_eq_crc16]
  constructor
  · intro h
    rw [← swapBytes_swapBytes (crc16 body), h, swapBytes, hi_le16, lo_le16]
  · intro h
    rw [h, swapBytes, hi_le16, lo_le16]

/-- A frame closed with its own checksum. -/
theorem crc16_withCrc (bytes : List U8) : crc16 (withCrc bytes) = 0 := by
  rw [withCrc, ← getCRC_eq_iff, le16_lo_hi]

/-- **The tables compute CRC-16/Modbus.**  `get_CRC` returns it with its bytes swapped, so the
high byte, sent first, is the reference's low byte; `CRC_sub` with `exchange` set returns it
unswapped; and behind its own checksum a string checks to zero. -/
theorem getCRC_refines_crc16 (bytes : List U8) :
    getCRC bytes = swapBytes (crc16 bytes) ∧
      hi (getCRC bytes) = lo (crc16 bytes) ∧
      crcSub bytes 0xFFFF true = crc16 bytes ∧
      getCRC (withCrc bytes) = 0 := by
  refine ⟨getCRC_eq_crc16 bytes, ?_, (crcSub_eq_crc bytes 0xFFFF).1, ?_⟩
  · rw [getCRC_eq_crc16, hi_swapBytes]
  · rw [getCRC_eq_crc16, crc16_withCrc]
    rfl

end IotCtrl
