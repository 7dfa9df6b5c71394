import Mathlib.Algebra.GroupWithZero.Nat
import Mathlib.Data.List.Basic
import Mathlib.Tactic.SplitIfs

/-!
# Byte memory and little-endian words

A buffer is the memory from its address on: a total map from offsets to bytes,
so that a read past the last byte written returns whatever lies there instead
of a made-up value.  `write` and `read` are block copies, and `wordAt` is the
half-word a little-endian core loads from a byte offset.

The rules used by programs over this memory:

* `read_write`, `read_write_append`, `write_of_lt` — what a copy changes;
* `read_congr` — a read depends on the bytes it covers only;
* `wordAt_bytesOf` — storing half-words and loading them back;
* `xorFold_set_ne` — an exclusive-or checksum sees every single error.
-/

namespace ByteMemory

abbrev Byte := BitVec 8
abbrev Word := BitVec 16

/-- The bytes from an address on. -/
abbrev Mem := Nat → Byte

/-- Copy `bs` to offset `off`. -/
def write (m : Mem) (off : Nat) (bs : List Byte) : Mem := fun i =>
  if off ≤ i ∧ i < off + bs.length then bs.getD (i - off) 0 else m i

/-- The `n` bytes from offset `off` on. -/
def read (m : Mem) (off n : Nat) : List Byte :=
  (List.range n).map fun i => m (off + i)

@[simp] theorem length_read (m : Mem) (off n : Nat) : (read m off n).length = n := by
  simp [read]

@[simp] theorem getElem_read (m : Mem) (off n i : Nat) (h : i < (read m off n).length) :
    (read m off n)[i] = m (off + i) := by
  simp [read]

@[simp] theorem write_nil (m : Mem) (off : Nat) : write m off [] = m := by
  funext i
  simp only [write, List.length_nil, Nat.add_zero]
  rw [if_neg (by omega)]

/-- A copy leaves the bytes before it alone. -/
theorem write_of_lt (m : Mem) (bs : List Byte) {off i : Nat} (h : i < off) :
    write m off bs i = m i := by
  rw [write, if_neg (by omega)]

/-- The bytes of a copy are where it put them. -/
theorem write_getElem (m : Mem) (bs : List Byte) (off : Nat) {i : Nat} (h : i < bs.length) :
    write m off bs (off + i) = bs[i] := by
  rw [write, if_pos (by omega), Nat.add_sub_cancel_left]
  simp [h]

/-- Reads that cover the same bytes agree. -/
theorem read_congr {m m' : Mem} {off n : Nat}
    (h : ∀ i, i < n → m (off + i) = m' (off + i)) : read m off n = read m' off n := by
  apply List.map_congr_left
  intro i hi
  exact h i (List.mem_range.mp hi)

/-- Reads that agree cover the same bytes. -/
theorem eq_of_read_eq {m m' : Mem} {off n i : Nat} (h : read m off n = read m' off n)
    (hi : i < n) : m (off + i) = m' (off + i) := by
  have hget := congrArg (fun bs : List Byte => bs[i]?) h
  simpa [read, hi] using hget

theorem read_add (m : Mem) (off a b : Nat) :
    read m off (a + b) = read m off a ++ read m (off + a) b := by
  simp only [read, List.range_add, List.map_append, List.map_map]
  congr 1
  apply List.map_congr_left
  intro i _
  simp [Nat.add_assoc]

/-- The beginning of a read. -/
theorem read_take (m : Mem) (off : Nat) {n k : Nat} (h : n ≤ k) :
    (read m off k).take n = read m off n := by
  obtain ⟨r, rfl⟩ := Nat.exists_eq_add_of_le h
  rw [read_add]
  exact List.take_left' (length_read m off n)

/-- Reading a copy back. -/
@[simp] theorem read_write (m : Mem) (off : Nat) (bs : List Byte) :
    read (write m off bs) off bs.length = bs := by
  apply List.ext_getElem
  · simp
  · intro i h₁ h₂
    rw [getElem_read, write_getElem]

/-- A copy right behind a block extends the block. -/
theorem read_write_append (m : Mem) (off : Nat) (bs : List Byte) :
    read (write m off bs) 0 (off + bs.length) = read m 0 off ++ bs := by
  rw [read_add, Nat.zero_add, read_write]
  congr 1
  apply read_congr
  intro i hi
  rw [Nat.zero_add]
  exact write_of_lt m bs hi

/-- The memory that starts with `bs` and goes on as `rest`. -/
def prepend (bs : List Byte) (rest : Mem) : Mem := fun i =>
  if h : i < bs.length then bs[i] else rest i

theorem prepend_of_lt {bs : List Byte} {rest : Mem} {i : Nat} (h : i < bs.length) :
    prepend bs rest i = bs[i] := by
  simp [prepend, h]

theorem prepend_of_le {bs : List Byte} {rest : Mem} {i : Nat} (h : bs.length ≤ i) :
    prepend bs rest i = rest i := by
  simp [prepend, Nat.not_lt.mpr h]

/-! ## Half-words -/

/-- Low byte of a half-word. -/
def lo (w : Word) : Byte := w.setWidth 8

/-- High byte of a half-word. -/
def hi (w : Word) : Byte := (w >>> 8).setWidth 8

/-- The half-word with the given low and high byte. -/
def le16 (l h : Byte) : Word := l.setWidth 16 ||| (h.setWidth 16 <<< 8)

@[simp] theorem le16_lo_hi (w : Word) : le16 (lo w) (hi w) = w := by
  ext i hi'
  simp only [le16, lo, hi, BitVec.getElem_or, BitVec.getElem_setWidth,
    BitVec.getElem_shiftLeft, BitVec.getLsbD_setWidth, BitVec.getLsbD_ushiftRight]
  by_cases h8 : i < 8
  · simp [h8, BitVec.getLsbD_eq_getElem hi']
  · have hs : 8 + (i - 8) = i := by omega
    have hlt : i - 8 < 8 := by omega
    simp [h8, hs, hlt, BitVec.getLsbD_eq_getElem hi']

@[simp] theorem lo_le16 (l h : Byte) : lo (le16 l h) = l := by
  ext i hi'
  simp [lo, le16]

@[simp] theorem hi_le16 (l h : Byte) : hi (le16 l h) = h := by
  ext i hi'
  simp [hi, le16, hi', show 8 + i < 16 by omega]

/-- The half-word loaded from byte offset `off`. -/
def wordAt (m : Mem) (off : Nat) : Word := le16 (m off) (m (off + 1))

/-- The byte image of a sequence of half-words. -/
def bytesOf (w : Nat → Word) : Mem := fun i =>
  if i % 2 = 0 then lo (w (i / 2)) else hi (w (i / 2))

/-- **Storing half-words and loading them back.**  Memory that holds the image of
`n` half-words from `off` on loads each of them. -/
theorem wordAt_bytesOf {m : Mem} {w : Nat → Word} {off n k : Nat}
    (hm : ∀ i, i < 2 * n → m (off + i) = bytesOf w i) (hk : k < n) :
    wordAt m (off + 2 * k) = w k := by
  have hlo : m (off + 2 * k) = lo (w k) := by
    rw [hm (2 * k) (by omega), bytesOf, if_pos (by omega)]
    congr 2
    omega
  have hhi : m (off + 2 * k + 1) = hi (w k) := by
    rw [Nat.add_assoc, hm (2 * k + 1) (by omega), bytesOf, if_neg (by omega)]
    congr 2
    omega
  rw [wordAt, hlo, hhi, le16_lo_hi]

/-- A load depends on its two bytes only. -/
theorem wordAt_congr {m m' : Mem} {off : Nat}
    (h₀ : m off = m' off) (h₁ : m (off + 1) = m' (off + 1)) :
    wordAt m off = wordAt m' off := by
  rw [wordAt, wordAt, h₀, h₁]

/-! ## Exclusive-or checksums -/

/-- Fold a block of bytes into `b` by exclusive or. -/
def xorFold (b : Byte) (bs : List Byte) : Byte := bs.foldl (· ^^^ ·) b

/-- The first byte matters. -/
theorem xorFold_ne_of_init {b b' : Byte} (h : b ≠ b') (bs : List Byte) :
    xorFold b bs ≠ xorFold b' bs := by
  induction bs generalizing b b' with
  | nil => exact h
  | cons x xs ih => exact ih fun heq => h ((BitVec.xor_left_inj x).mp heq)

/-- **Single errors.**  Changing one byte of a block changes its checksum. -/
theorem xorFold_set_ne (b : Byte) {bs : List Byte} {i : Nat} {x : Byte} (hi : i < bs.length)
    (hx : x ≠ bs[i]) : xorFold b (bs.set i x) ≠ xorFold b bs := by
  induction bs generalizing b i with
  | nil => exact absurd hi (Nat.not_lt_zero i)
  | cons y ys ih =>
      cases i with
      | zero => exact xorFold_ne_of_init (fun heq => hx ((BitVec.xor_right_inj b).mp heq)) ys
      | succ i => exact ih (b ^^^ y) (Nat.lt_of_succ_lt_succ hi) hx

end ByteMemory
