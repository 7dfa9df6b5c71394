import IotCtrl.Control
import IotCtrl.CrcReference

/-!
# Corrupted answers

The first test of `comm_recv_rw_comand` compares the checksum of an answer with its last two
bytes.  That is the whole answer checking to zero, and what a corruption adds to the check
depends on the corruption alone.

* `passesCrc_iff` — the comparison is the bit-by-bit check of the whole answer;
* `not_passesCrc_of_corrupt` — a burst of 16 bits or an odd number of errors fails it;
* `corrupted_answer_rejected` — such an answer changes nothing.
-/

namespace IotCtrl

open ByteMemory

/-- The checksum comparison of `comm_recv_rw_comand`. -/
def PassesCrc (buf : Mem) (len : Nat) : Prop :=
  getCRC (read buf 0 (len - 2)) = le16 (buf (len - 1)) (buf (len - 2))

instance (buf : Mem) (len : Nat) : Decidable (PassesCrc buf len) :=
  inferInstanceAs (Decidable (_ = _))

/-- The corruptions of `err`: a burst of at most 16 bits in the order they are sent, or an odd
number of bits. -/
def Detectable (err : List U8) : Prop :=
  BitCrc.Burst 16 (BitCrc.messageBits err) ∨ (BitCrc.messageBits err).count true % 2 = 1

theorem passesCrc_iff (buf : Mem) {len : Nat} (hlen : 2 ≤ len) :
    PassesCrc buf len ↔ crc16 (read buf 0 len) = 0 := by
  obtain ⟨n, rfl⟩ := Nat.exists_eq_add_of_le' hlen
  have hsplit : read buf 0 (n + 2) = read buf 0 n ++ [buf n, buf (n + 1)] := by
    rw [read_add, Nat.zero_add]
    rfl
  rw [hsplit]
  exact getCRC_eq_iff _ _ _

/-- A corruption that is not empty sets a bit. -/
theorem true_mem_messageBits {err : List U8} (h : ∃ e ∈ err, e ≠ 0) :
    true ∈ BitCrc.messageBits err := by
  obtain ⟨e, he, hne⟩ := h
  have hbit : ∃ i < 8, e.getLsbD i = true := by
    apply Classical.byContradiction
    intro hnone
    apply hne
    apply BitVec.eq_of_getLsbD_eq
    intro i hi'
    have hclear : e.getLsbD i = false :=
      Bool.eq_false_of_not_eq_true fun htrue => hnone ⟨i, hi', htrue⟩
    exact hclear.trans BitVec.getLsbD_zero.symm
  obtain ⟨i, hi', htrue⟩ := hbit
  exact List.mem_flatMap.mpr ⟨e, he, List.mem_map.mpr ⟨i, List.mem_range.mpr hi', htrue⟩⟩

/-- The check of a detectable corruption. -/
theorem crc_err_ne {err : List U8} (hset : ∃ e ∈ err, e ≠ 0) (hkind : Detectable err) :
    BitCrc.crc crcPoly 0 err ≠ 0 := by
  rw [BitCrc.crc_eq_feedAll (by decide)]
  rcases hkind with hburst | hodd
  · exact BitCrc.feedAll_burst_ne crcPoly_top hburst (true_mem_messageBits hset)
  · exact BitCrc.feedAll_odd_ne (by decide) crcPoly_odd hodd

theorem not_passesCrc_of_corrupt {good bad : Mem} {len : Nat} {err : List U8} (hlen : 2 ≤ len)
    (hgood : PassesCrc good len) (herr : err.length = len)
    (hbad : read bad 0 len = BitCrc.corrupt (read good 0 len) err)
    (hset : ∃ e ∈ err, e ≠ 0) (hkind : Detectable err) : ¬ PassesCrc bad len := by
  intro hpass
  have hbytes : err.length = (read good 0 len).length := by rw [herr, length_read]
  have hsum := BitCrc.crc_corrupt (by decide) crcPoly 0xFFFF hbytes
  rw [passesCrc_iff _ hlen, crc16] at hgood hpass
  rw [← hbad, hpass, hgood] at hsum
  exact crc_err_ne hset hkind (hsum.trans BitVec.zero_xor).symm

theorem commRecvRwComand_of_not_passesCrc {buf : Mem} {len : Nat} (h : ¬ PassesCrc buf len)
    (s : Station) : commRecvRwComand buf len s = (false, s) := by
  have hne : getCRC (read buf 0 (len - 2)) ≠ le16 (buf (len - 1)) (buf (len - 2)) := h
  unfold commRecvRwComand
  by_cases hshort : len < 4
  · rw [if_pos hshort]
  · rw [if_neg hshort, if_pos hne]

/-- **Corrupted answers are rejected.**  From an answer that passes the checksum comparison, a
burst of at most 16 bits or an odd number of flipped bits makes one that does not, and
`comm_recv_rw_comand` then returns 0 and leaves the station as it is.  The answer may have any
length from four bytes on. -/
theorem corrupted_answer_rejected {good bad : Mem} {len : Nat} {err : List U8} (hlen : 4 ≤ len)
    (hgood : PassesCrc good len) (herr : err.length = len)
    (hbad : read bad 0 len = BitCrc.corrupt (read good 0 len) err)
    (hset : ∃ e ∈ err, e ≠ 0) (hkind : Detectable err) (s : Station) :
    ¬ PassesCrc bad len ∧ commRecvRwComand bad len s = (false, s) := by
  have hfails := not_passesCrc_of_corrupt (Nat.le_trans (by decide) hlen) hgood herr hbad hset hkind
  exact ⟨hfails, commRecvRwComand_of_not_passesCrc hfails s⟩

/-- The answer of inverter 1 to a speed write. -/
def speedAnswer : List U8 := withCrc [0x01, 0x10, 0x70, 0x00, 0x00, 0x04]

/-- Three neighbouring bits flipped across two bytes. -/
def flippedBits : List U8 := [0x00, 0x00, 0x00, 0xC0, 0x01, 0x00, 0x00, 0x00]

/-- A speed answer with three bits flipped. -/
theorem corrupted_speed_answer_rejected :
    ¬ PassesCrc (prepend (BitCrc.corrupt speedAnswer flippedBits) fun _ => 0) 8 ∧
      commRecvRwComand (prepend (BitCrc.corrupt speedAnswer flippedBits) fun _ => 0) 8
          (boot zeroFlash 1) = (false, boot zeroFlash 1) :=
  @corrupted_answer_rejected (prepend speedAnswer fun _ => 0) _ 8 flippedBits (by decide)
    (by decide +kernel) rfl (by decide +kernel) (by decide) (.inr (by decide +kernel))
    (boot zeroFlash 1)

end IotCtrl
