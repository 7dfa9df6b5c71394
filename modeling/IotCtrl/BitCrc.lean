import Mathlib.Logic.Function.Iterate
import Mathlib.Data.List.GetD

/-!
# Reflected cyclic redundancy checks, bit by bit

A register of `w` bits takes the bits of a message one at a time: the bit is added to the lowest
place, the register moves down, and `poly` is added where a one fell out.  Addition is exclusive
or throughout, so the register is linear in what it is fed.

* `feedAll_eq_iterate` — up to `w` bits may be added at once, before the shifts;
* `feedAll_eq_zero_iff` — the only `w` bits that clear a register are its own;
* `feedAll_burst_ne` — an error confined to `w` places shows, when `poly` has its top bit set;
* `feedAll_odd_ne` — an odd number of errors shows, when `poly` has an odd number of ones;
* `byteStep_eq_feedAll`, `byteStep_eq_table` — a whole byte at once, and from a table;
* `crc_corrupt` — what an error adds to the check of a message.
-/

namespace BitCrc

variable {w : Nat}

/-- The register moved down one place. -/
def shift (poly c : BitVec w) : BitVec w :=
  if c.getLsbD 0 then (c >>> 1) ^^^ poly else c >>> 1

/-- Up to `w` bits as a register, the first bit lowest. -/
def pack (w : Nat) (bits : List Bool) : BitVec w := (BitVec.ofBoolListLE bits).setWidth w

/-- Take one message bit. -/
def feed (poly c : BitVec w) (b : Bool) : BitVec w := shift poly (c ^^^ pack w [b])

/-- Take the bits of a message in order. -/
def feedAll (poly c : BitVec w) (bits : List Bool) : BitVec w := bits.foldl (feed poly) c

@[simp] theorem feedAll_nil (poly c : BitVec w) : feedAll poly c [] = c := rfl

@[simp] theorem feedAll_cons (poly c : BitVec w) (b : Bool) (bits : List Bool) :
    feedAll poly c (b :: bits) = feedAll poly (feed poly c b) bits := rfl

theorem feedAll_append (poly c : BitVec w) (xs ys : List Bool) :
    feedAll poly c (xs ++ ys) = feedAll poly (feedAll poly c xs) ys :=
  List.foldl_append

theorem getLsbD_pack (bits : List Bool) (i : Nat) :
    (pack w bits).getLsbD i = (decide (i < w) && bits.getD i false) := by
  rw [pack, BitVec.getLsbD_setWidth, BitVec.getLsbD_ofBoolListLE]

/-- Packed bits are all zero when the register is. -/
theorem eq_false_of_pack_eq_zero {bits : List Bool} (hlen : bits.length ≤ w)
    (h : pack w bits = 0#w) : ∀ b ∈ bits, b = false := by
  intro b hb
  obtain ⟨i, hi, rfl⟩ := List.mem_iff_getElem.mp hb
  have hbit : (pack w bits).getLsbD i = false := by rw [h, BitVec.getLsbD_zero]
  rw [getLsbD_pack, decide_eq_true (Nat.lt_of_lt_of_le hi hlen), Bool.true_and,
    List.getD_eq_getElem _ _ hi] at hbit
  exact hbit

/-! ## Linearity -/

section Linear

variable (poly : BitVec w)

theorem shift_xor (c d : BitVec w) : shift poly (c ^^^ d) = shift poly c ^^^ shift poly d := by
  have hcancel : poly ^^^ (d >>> 1 ^^^ poly) = d >>> 1 := by
    rw [BitVec.xor_comm (d >>> 1) poly, ← BitVec.xor_assoc, BitVec.xor_self, BitVec.zero_xor]
  simp only [shift, BitVec.getLsbD_xor, BitVec.ushiftRight_xor_distrib]
  cases c.getLsbD 0 with
  | false =>
      cases d.getLsbD 0 with
      | false => rfl
      | true => exact BitVec.xor_assoc _ _ _
  | true =>
      cases d.getLsbD 0 with
      | false =>
          simp only [Bool.xor_false, if_true, Bool.false_eq_true, if_false]
          rw [BitVec.xor_assoc, BitVec.xor_assoc, BitVec.xor_comm poly]
      | true =>
          simp only [Bool.xor_self, Bool.false_eq_true, if_false, if_true]
          rw [BitVec.xor_assoc, hcancel]

@[simp] theorem shift_zero : shift poly 0#w = 0#w := by
  simp [shift]

theorem pack_xor (x y : Bool) : pack w [x ^^ y] = pack w [x] ^^^ pack w [y] := by
  apply BitVec.eq_of_getLsbD_eq
  intro i hi
  rw [BitVec.getLsbD_xor, getLsbD_pack, getLsbD_pack, getLsbD_pack]
  cases i with
  | zero => simp [hi]
  | succ i => simp

theorem feed_xor (c d : BitVec w) (x y : Bool) :
    feed poly (c ^^^ d) (x ^^ y) = feed poly c x ^^^ feed poly d y := by
  have hsum : c ^^^ d ^^^ (pack w [x] ^^^ pack w [y]) =
      (c ^^^ pack w [x]) ^^^ (d ^^^ pack w [y]) := by
    ac_rfl
  rw [feed, feed, feed, pack_xor, hsum, shift_xor]

/-- **Linearity.**  The sum of two messages leaves the sum of their registers. -/
theorem feedAll_xor (c d : BitVec w) {xs ys : List Bool} (h : xs.length = ys.length) :
    feedAll poly (c ^^^ d) (List.zipWith xor xs ys) = feedAll poly c xs ^^^ feedAll poly d ys := by
  induction xs generalizing c d ys with
  | nil =>
      cases ys with
      | nil => rfl
      | cons y ys => exact absurd h (Nat.succ_ne_zero _).symm
  | cons x xs ih =>
      cases ys with
      | nil => exact absurd h (Nat.succ_ne_zero _)
      | cons y ys =>
          rw [List.zipWith_cons_cons, feedAll_cons, feedAll_cons, feedAll_cons, feed_xor]
          exact ih _ _ (Nat.succ.inj h)

end Linear

/-! ## Bits added at once -/

/-- Bits that stay clear of the top leave the register by one shift. -/
theorem shift_pack_cons (poly : BitVec w) {b : Bool} {bits : List Bool} (h : bits.length < w) :
    shift poly (pack w (b :: bits)) = shift poly (pack w [b]) ^^^ pack w bits := by
  have hrest : shift poly (pack w (false :: bits)) = pack w bits := by
    have hlow : (pack w (false :: bits)).getLsbD 0 = false := by simp [getLsbD_pack]
    rw [shift, if_neg (Bool.not_eq_true _ ▸ hlow)]
    apply BitVec.eq_of_getLsbD_eq
    intro i hi
    rw [BitVec.getLsbD_ushiftRight, getLsbD_pack, getLsbD_pack, Nat.add_comm 1 i,
      List.getD_cons_succ, decide_eq_true hi, Bool.true_and]
    by_cases hlt : i + 1 < w
    · rw [decide_eq_true hlt, Bool.true_and]
    · have hout : bits.getD i false = false := List.getD_eq_default _ _ (by omega)
      rw [hout, Bool.and_false]
  have hsum : pack w (b :: bits) = pack w [b] ^^^ pack w (false :: bits) := by
    apply BitVec.eq_of_getLsbD_eq
    intro i hi
    rw [BitVec.getLsbD_xor, getLsbD_pack, getLsbD_pack, getLsbD_pack]
    cases i with
    | zero => simp [hi]
    | succ i => simp
  rw [hsum, shift_xor, hrest]

/-- **Adding at once.**  Up to `w` bits may be added together before the register moves. -/
theorem feedAll_eq_iterate (poly c : BitVec w) {bits : List Bool} (h : bits.length ≤ w) :
    feedAll poly c bits = (shift poly)^[bits.length] (c ^^^ pack w bits) := by
  induction bits generalizing c with
  | nil =>
      have hnone : pack w [] = 0#w := by
        apply BitVec.eq_of_getLsbD_eq
        intro i _
        simp [getLsbD_pack]
      rw [hnone, BitVec.xor_zero]
      rfl
  | cons b bits ih =>
      have hlt : bits.length < w := h
      rw [feedAll_cons, ih _ (Nat.le_of_lt hlt), List.length_cons, Function.iterate_succ_apply,
        feed, shift_xor, shift_xor, shift_pack_cons poly hlt, BitVec.xor_assoc]

/-- Clear bits only move the register. -/
theorem feedAll_clear (poly c : BitVec w) {bits : List Bool} (h : ∀ b ∈ bits, b = false) :
    feedAll poly c bits = (shift poly)^[bits.length] c := by
  have hnone : pack w [false] = 0#w := by
    apply BitVec.eq_of_getLsbD_eq
    intro i _
    rw [getLsbD_pack]
    cases i with
    | zero => simp
    | succ i => simp
  induction bits generalizing c with
  | nil => rfl
  | cons b bits ih =>
      obtain rfl : b = false := h b List.mem_cons_self
      rw [feedAll_cons, ih _ (fun x hx => h x (List.mem_cons_of_mem _ hx)), feed, hnone,
        BitVec.xor_zero]
      rfl

/-! ## Errors that show -/

section Detection

variable {poly : BitVec w}

/-- With the top bit of `poly` set nothing is lost in a shift. -/
theorem shift_eq_zero (htop : poly.getLsbD (w - 1) = true) {c : BitVec w}
    (h : shift poly c = 0#w) : c = 0#w := by
  have hw : 0 < w := by
    apply Nat.pos_of_ne_zero
    rintro rfl
    rw [BitVec.getLsbD_of_ge _ _ (Nat.le_refl 0)] at htop
    exact absurd htop Bool.false_ne_true
  rw [shift] at h
  cases hlow : c.getLsbD 0 with
  | true =>
      rw [hlow, if_pos rfl] at h
      have hbit : (c >>> 1 ^^^ poly).getLsbD (w - 1) = false := by rw [h, BitVec.getLsbD_zero]
      rw [BitVec.getLsbD_xor, BitVec.getLsbD_ushiftRight, htop,
        BitVec.getLsbD_of_ge _ _ (by omega)] at hbit
      exact absurd hbit Bool.false_ne_true.symm
  | false =>
      rw [hlow, if_neg Bool.false_ne_true] at h
      apply BitVec.eq_of_getLsbD_eq
      intro i _
      cases i with
      | zero => rw [hlow, BitVec.getLsbD_zero]
      | succ i =>
          have hbit : (c >>> 1).getLsbD i = false := by rw [h, BitVec.getLsbD_zero]
          rw [BitVec.getLsbD_ushiftRight, Nat.add_comm] at hbit
          rw [hbit, BitVec.getLsbD_zero]

theorem iterate_shift_eq_zero (htop : poly.getLsbD (w - 1) = true) (n : Nat) (c : BitVec w) :
    (shift poly)^[n] c = 0#w ↔ c = 0#w := by
  constructor
  · intro h
    induction n generalizing c with
    | zero => exact h
    | succ n ih =>
        rw [Function.iterate_succ_apply] at h
        exact shift_eq_zero htop (ih _ h)
  · rintro rfl
    exact Function.iterate_fixed (shift_zero poly) n

/-- A register is cleared by its own `w` bits and by no others. -/
theorem feedAll_eq_zero_iff (htop : poly.getLsbD (w - 1) = true) (c : BitVec w)
    {bits : List Bool} (h : bits.length ≤ w) :
    feedAll poly c bits = 0#w ↔ c = pack w bits := by
  rw [feedAll_eq_iterate poly c h, iterate_shift_eq_zero htop, BitVec.xor_eq_zero_iff]

/-- The set bits lie within `n` consecutive places. -/
def Burst (n : Nat) (bits : List Bool) : Prop :=
  ∃ start, ∀ i, bits.getD i false = true → start ≤ i ∧ i < start + n

/-- Only clear bits stand outside a burst. -/
theorem clear_of_outside {bits : List Bool} {start n : Nat}
    (hin : ∀ i, bits.getD i false = true → start ≤ i ∧ i < start + n) :
    (∀ b ∈ bits.take start, b = false) ∧ ∀ b ∈ bits.drop (start + n), b = false := by
  have hclear : ∀ (i : Nat) (hi : i < bits.length), ¬(start ≤ i ∧ i < start + n) →
      bits[i] = false := by
    intro i hi hout
    cases hbit : bits[i] with
    | false => rfl
    | true =>
        rw [← List.getD_eq_getElem bits false hi] at hbit
        exact absurd (hin i hbit) hout
  constructor
  · intro b hb
    obtain ⟨i, hi, rfl⟩ := List.mem_iff_getElem.mp hb
    rw [List.length_take] at hi
    rw [List.getElem_take]
    exact hclear i (by omega) (by omega)
  · intro b hb
    obtain ⟨i, hi, rfl⟩ := List.mem_iff_getElem.mp hb
    rw [List.getElem_drop]
    exact hclear _ _ (by omega)

/-- **Bursts.**  An error confined to `w` places does not leave the register clear. -/
theorem feedAll_burst_ne (htop : poly.getLsbD (w - 1) = true) {bits : List Bool}
    (hburst : Burst w bits) (hset : true ∈ bits) : feedAll poly 0#w bits ≠ 0#w := by
  obtain ⟨start, hin⟩ := hburst
  obtain ⟨hbefore, hafter⟩ := clear_of_outside hin
  intro hzero
  have hsplit : bits = bits.take start ++ ((bits.drop start).take w ++ bits.drop (start + w)) := by
    rw [← List.drop_drop, List.take_append_drop, List.take_append_drop]
  rw [hsplit, feedAll_append, feedAll_append, feedAll_clear poly _ hafter,
    iterate_shift_eq_zero htop, feedAll_clear poly _ hbefore,
    (iterate_shift_eq_zero htop _ _).mpr rfl,
    feedAll_eq_zero_iff htop _ (List.length_take_le _ _)] at hzero
  have hwithin := eq_false_of_pack_eq_zero (List.length_take_le _ _) hzero.symm
  rw [hsplit, List.mem_append, List.mem_append] at hset
  rcases hset with hmem | hmem | hmem
  · exact Bool.false_ne_true (hbefore _ hmem).symm
  · exact Bool.false_ne_true (hwithin _ hmem).symm
  · exact Bool.false_ne_true (hafter _ hmem).symm

end Detection

/-! ## Parity -/

section Parity

/-- Sum of the first `n` bits of a sequence. -/
def sumBits (f : Nat → Bool) : Nat → Bool
  | 0 => false
  | n + 1 => sumBits f n ^^ f n

theorem sumBits_xor (f g : Nat → Bool) (n : Nat) :
    sumBits (fun i => f i ^^ g i) n = (sumBits f n ^^ sumBits g n) := by
  induction n with
  | zero => rfl
  | succ n ih =>
      rw [sumBits, sumBits, sumBits, ih, Bool.xor_assoc, Bool.xor_assoc,
        Bool.xor_left_comm (sumBits g n)]

/-- The first bit may be taken out in front. -/
theorem sumBits_succ_left (f : Nat → Bool) (n : Nat) :
    sumBits f (n + 1) = (f 0 ^^ sumBits (fun i => f (i + 1)) n) := by
  induction n with
  | zero => rw [sumBits, sumBits, sumBits, Bool.false_xor, Bool.xor_false]
  | succ n ih => rw [sumBits, ih, sumBits, Bool.xor_assoc]

theorem sumBits_clear (n : Nat) : sumBits (fun _ => false) n = false := by
  induction n with
  | zero => rfl
  | succ n ih => rw [sumBits, ih, Bool.xor_false]

/-- Whether a register holds an odd number of ones. -/
def parity (c : BitVec w) : Bool := sumBits (fun i => c.getLsbD i) w

@[simp] theorem parity_zero : parity 0#w = false := by
  simp only [parity, BitVec.getLsbD_zero, sumBits_clear]

theorem parity_xor (c d : BitVec w) : parity (c ^^^ d) = (parity c ^^ parity d) := by
  simp only [parity, BitVec.getLsbD_xor, sumBits_xor]

/-- A shift drops the lowest bit. -/
theorem parity_ushiftRight_one (c : BitVec w) : parity (c >>> 1) = (c.getLsbD 0 ^^ parity c) := by
  have hleft := sumBits_succ_left (fun i => c.getLsbD i) w
  rw [sumBits, BitVec.getLsbD_of_ge _ _ (Nat.le_refl w), Bool.xor_false] at hleft
  rw [parity, parity, hleft, ← Bool.xor_assoc, Bool.xor_self, Bool.false_xor]
  simp only [BitVec.getLsbD_ushiftRight, Nat.add_comm 1]

variable {poly : BitVec w}

theorem parity_shift (hodd : parity poly = true) (c : BitVec w) :
    parity (shift poly c) = parity c := by
  rw [shift]
  cases hlow : c.getLsbD 0 with
  | true =>
      rw [if_pos rfl, parity_xor, parity_ushiftRight_one, hlow, hodd, Bool.xor_comm,
        ← Bool.xor_assoc, Bool.xor_self, Bool.false_xor]
  | false =>
      rw [if_neg Bool.false_ne_true, parity_ushiftRight_one, hlow, Bool.false_xor]

theorem parity_pack_one (hw : 0 < w) (b : Bool) : parity (pack w [b]) = b := by
  obtain ⟨n, rfl⟩ := Nat.exists_eq_succ_of_ne_zero (Nat.ne_of_gt hw)
  have hrest : (fun i => (pack (n + 1) [b]).getLsbD (i + 1)) = fun _ => false := by
    funext i
    rw [getLsbD_pack, List.getD_cons_succ, List.getD_nil, Bool.and_false]
  rw [parity, Nat.succ_eq_add_one, sumBits_succ_left, hrest, sumBits_clear, Bool.xor_false,
    getLsbD_pack, decide_eq_true hw, Bool.true_and, List.getD_cons_zero]

/-- The register's parity is the message's. -/
theorem parity_feedAll (hw : 0 < w) (hodd : parity poly = true) (c : BitVec w)
    (bits : List Bool) :
    parity (feedAll poly c bits) = (parity c ^^ decide (bits.count true % 2 = 1)) := by
  induction bits generalizing c with
  | nil => rw [feedAll_nil, List.count_nil, decide_eq_false (by decide), Bool.xor_false]
  | cons b bits ih =>
      have hcount : decide ((b :: bits).count true % 2 = 1) =
          (b ^^ decide (bits.count true % 2 = 1)) := by
        cases b with
        | false => rw [List.count_cons_of_ne Bool.false_ne_true, Bool.false_xor]
        | true =>
            rw [List.count_cons_self, Bool.true_xor, ← decide_not]
            apply decide_eq_decide.mpr
            omega
      rw [feedAll_cons, ih, feed, parity_shift hodd, parity_xor, parity_pack_one hw, hcount,
        Bool.xor_assoc]

/-- **Odd errors.**  An odd number of set bits does not leave the register clear. -/
theorem feedAll_odd_ne (hw : 0 < w) (hodd : parity poly = true) {bits : List Bool}
    (h : bits.count true % 2 = 1) : feedAll poly 0#w bits ≠ 0#w := by
  intro hzero
  have hparity := parity_feedAll hw hodd 0#w bits
  rw [hzero, parity_zero, decide_eq_true h] at hparity
  exact absurd hparity Bool.false_ne_true

end Parity

/-! ## Messages of bytes -/

section Bytes

/-- The bits of a word in the order they are sent, the lowest first. -/
def bitsOf {n : Nat} (b : BitVec n) : List Bool := (List.range n).map fun i => b.getLsbD i

@[simp] theorem length_bitsOf {n : Nat} (b : BitVec n) : (bitsOf b).length = n := by
  simp [bitsOf]

theorem bitsOf_xor {n : Nat} (a b : BitVec n) :
    bitsOf (a ^^^ b) = List.zipWith xor (bitsOf a) (bitsOf b) := by
  simp only [bitsOf, List.zipWith_map, List.zipWith_self, BitVec.getLsbD_xor]

@[simp] theorem getD_bitsOf {n : Nat} (b : BitVec n) (i : Nat) :
    (bitsOf b).getD i false = b.getLsbD i := by
  by_cases hn : i < n
  · rw [List.getD_eq_getElem _ _ (by rwa [length_bitsOf])]
    simp [bitsOf]
  · rw [List.getD_eq_default _ _ (by rw [length_bitsOf]; omega),
      BitVec.getLsbD_of_ge _ _ (by omega)]

/-- Packing undoes `bitsOf`. -/
theorem pack_bitsOf {n : Nat} (b : BitVec n) : pack w (bitsOf b) = b.setWidth w := by
  apply BitVec.eq_of_getLsbD_eq
  intro i _
  rw [getLsbD_pack, BitVec.getLsbD_setWidth, getD_bitsOf]

/-- Take one byte: add it, then eight shifts. -/
def byteStep (poly c : BitVec w) (b : BitVec 8) : BitVec w :=
  (shift poly)^[8] (c ^^^ b.setWidth w)

/-- The check of a message of bytes. -/
def crc (poly c : BitVec w) (bytes : List (BitVec 8)) : BitVec w := bytes.foldl (byteStep poly) c

/-- The bits of a message in the order they are sent. -/
def messageBits (bytes : List (BitVec 8)) : List Bool := bytes.flatMap bitsOf

@[simp] theorem messageBits_nil : messageBits [] = [] := rfl

@[simp] theorem messageBits_cons (b : BitVec 8) (bytes : List (BitVec 8)) :
    messageBits (b :: bytes) = bitsOf b ++ messageBits bytes := rfl

/-- Add an error to a message. -/
def corrupt (bytes err : List (BitVec 8)) : List (BitVec 8) :=
  List.zipWith (fun b e => b ^^^ e) bytes err

@[simp] theorem crc_nil (poly c : BitVec w) : crc poly c [] = c := rfl

@[simp] theorem crc_cons (poly c : BitVec w) (b : BitVec 8) (bytes : List (BitVec 8)) :
    crc poly c (b :: bytes) = crc poly (byteStep poly c b) bytes := rfl

theorem crc_append (poly c : BitVec w) (xs ys : List (BitVec 8)) :
    crc poly c (xs ++ ys) = crc poly (crc poly c xs) ys :=
  List.foldl_append

/-- A whole byte at once. -/
theorem byteStep_eq_feedAll (hw : 8 ≤ w) (poly c : BitVec w) (b : BitVec 8) :
    byteStep poly c b = feedAll poly c (bitsOf b) := by
  rw [feedAll_eq_iterate poly c (by rwa [length_bitsOf]), length_bitsOf, pack_bitsOf, byteStep]

/-- A register whose low bits are clear only moves. -/
theorem iterate_shift_of_clear (poly c : BitVec w) {n : Nat}
    (h : ∀ i < n, c.getLsbD i = false) : (shift poly)^[n] c = c >>> n := by
  induction n with
  | zero => rw [BitVec.ushiftRight_zero]; rfl
  | succ n ih =>
      have hlow : (c >>> n).getLsbD 0 = false := by
        rw [BitVec.getLsbD_ushiftRight]
        exact h n (Nat.lt_succ_self n)
      rw [Function.iterate_succ_apply', ih fun i hi => h i (Nat.lt_succ_of_lt hi), shift, hlow,
        if_neg Bool.false_ne_true, BitVec.shiftRight_add]

theorem iterate_shift_xor (poly c d : BitVec w) (n : Nat) :
    (shift poly)^[n] (c ^^^ d) = (shift poly)^[n] c ^^^ (shift poly)^[n] d := by
  induction n generalizing c d with
  | zero => rfl
  | succ n ih =>
      rw [Function.iterate_succ_apply, shift_xor, ih]
      rfl

/-- **A byte from a table.**  The table is read at the sum of the message byte and the register's
low byte; the rest of the register moves down. -/
theorem byteStep_eq_table (poly c : BitVec w) (b : BitVec 8) :
    byteStep poly c b = byteStep poly 0#w (c.setWidth 8 ^^^ b) ^^^ (c >>> 8) := by
  have hsplit : c ^^^ b.setWidth w =
      (c.setWidth 8 ^^^ b).setWidth w ^^^ (c >>> 8 <<< 8) := by
    apply BitVec.eq_of_getLsbD_eq
    intro i hi
    simp only [BitVec.getLsbD_xor, BitVec.getLsbD_setWidth, BitVec.getLsbD_shiftLeft,
      BitVec.getLsbD_ushiftRight]
    by_cases h8 : i < 8
    · simp [h8, hi]
    · have hback : 8 + (i - 8) = i := by omega
      simp [h8, hi, hback, BitVec.getLsbD_of_ge b i (by omega)]
  have hclear : ∀ i < 8, (c >>> 8 <<< 8).getLsbD i = false := by
    intro i hi
    rw [BitVec.getLsbD_shiftLeft, decide_eq_true hi, Bool.not_true, Bool.and_false,
      Bool.false_and]
  have hmoved : c >>> 8 <<< 8 >>> 8 = c >>> 8 := by
    apply BitVec.eq_of_getLsbD_eq
    intro i hi
    rw [BitVec.getLsbD_ushiftRight, BitVec.getLsbD_shiftLeft, BitVec.getLsbD_ushiftRight,
      BitVec.getLsbD_ushiftRight, Nat.add_sub_cancel_left]
    by_cases h8 : 8 + i < w
    · simp [h8]
    · simp [BitVec.getLsbD_of_ge c (8 + i) (by omega)]
  rw [byteStep, byteStep, hsplit, iterate_shift_xor, iterate_shift_of_clear poly _ hclear, hmoved,
    BitVec.zero_xor]

theorem crc_eq_feedAll (hw : 8 ≤ w) (poly c : BitVec w) (bytes : List (BitVec 8)) :
    crc poly c bytes = feedAll poly c (messageBits bytes) := by
  induction bytes generalizing c with
  | nil => rfl
  | cons b bytes ih =>
      rw [crc_cons, ih, byteStep_eq_feedAll hw, messageBits_cons, feedAll_append]

theorem messageBits_corrupt {bytes err : List (BitVec 8)} (h : err.length = bytes.length) :
    messageBits (corrupt bytes err) =
      List.zipWith xor (messageBits bytes) (messageBits err) := by
  induction bytes generalizing err with
  | nil => rfl
  | cons b bytes ih =>
      cases err with
      | nil => exact absurd h.symm (Nat.succ_ne_zero _)
      | cons e err =>
          have hcons : corrupt (b :: bytes) (e :: err) = (b ^^^ e) :: corrupt bytes err := rfl
          rw [hcons, messageBits_cons, messageBits_cons, messageBits_cons, bitsOf_xor,
            ih (Nat.succ.inj h), List.zipWith_append (by rw [length_bitsOf, length_bitsOf])]

theorem length_messageBits (bytes : List (BitVec 8)) :
    (messageBits bytes).length = 8 * bytes.length := by
  induction bytes with
  | nil => rfl
  | cons b bytes ih =>
      rw [messageBits_cons, List.length_append, length_bitsOf, ih, List.length_cons]
      omega

/-- What an error adds to the check depends on the error only. -/
theorem crc_corrupt (hw : 8 ≤ w) (poly c : BitVec w) {bytes err : List (BitVec 8)}
    (h : err.length = bytes.length) :
    crc poly c (corrupt bytes err) = crc poly c bytes ^^^ crc poly 0#w err := by
  have hbits : (messageBits bytes).length = (messageBits err).length := by
    rw [length_messageBits, length_messageBits, h]
  rw [crc_eq_feedAll hw, crc_eq_feedAll hw, crc_eq_feedAll hw, messageBits_corrupt h,
    ← feedAll_xor poly c 0#w hbits, BitVec.xor_zero]

end Bytes

end BitCrc
