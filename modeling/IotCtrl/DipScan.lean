import IotCtrl.Control
import IotCtrl.InputLoop
import Mathlib.Data.Finset.Card
import Mathlib.Data.Fintype.Basic

/-!
# The station number's switches

`scan_local_station` reads the eight switches again and again and counts the scans that brought
nothing new; the twentieth ends it.  Each scan adds to `tmp`, which is cleared before the first
scan only, so what the scans are compared with is everything read so far.

* `scanned_eq` — the value kept is the sum of all readings, and `dip_value` is soon without its
  initial value;
* `scan_ends` — the loop is left after at most 172 scans, whatever is read;
* `readsStored_iff` — exactly when the last scans read what is stored.
-/

namespace IotCtrl

open InputLoop

/-! ## The loop -/

/-- The locals of `scan_local_station`. -/
structure DipScan where
  tmp : U8
  i : Nat
  dipValue : U8
deriving DecidableEq, Repr

/-- Add a switch that reads high to `tmp`. -/
def readSwitch (high : Bool) (mask tmp : U8) : U8 := if high then tmp ||| mask else tmp

/-- One reading of the eight switches into `tmp`.  Bit `k` of `dips` is the level of switch
`k + 1`. -/
def readSwitches (dips tmp : U8) : U8 :=
  let tmp := readSwitch (dips.getLsbD 0) 0x01 tmp
  let tmp := readSwitch (dips.getLsbD 1) 0x02 tmp
  let tmp := readSwitch (dips.getLsbD 2) 0x04 tmp
  let tmp := readSwitch (dips.getLsbD 3) 0x08 tmp
  let tmp := readSwitch (dips.getLsbD 4) 0x10 tmp
  let tmp := readSwitch (dips.getLsbD 5) 0x20 tmp
  let tmp := readSwitch (dips.getLsbD 6) 0x40 tmp
  readSwitch (dips.getLsbD 7) 0x80 tmp

/-- One turn, with the `i++` behind it. -/
def scanTurn (dips : U8) (s : DipScan) : DipScan :=
  let s := { s with tmp := readSwitches dips s.tmp }
  let s := if s.dipValue ≠ s.tmp then { s with dipValue := s.tmp, i := 0 } else s
  { s with i := s.i + 1 }

/-- The locals at the first scan; `dip_value` is not initialised. -/
def firstScan (dipValue : U8) : DipScan := { tmp := 0, i := 0, dipValue := dipValue }

/-- The locals after `n` scans. -/
def scanAfter (samples : Nat → U8) (dipValue : U8) (n : Nat) : DipScan :=
  after scanTurn samples (firstScan dipValue) n

/-- The loop of `scan_local_station` is left after `n` scans. -/
def Returns (samples : Nat → U8) (dipValue : U8) (n : Nat) : Prop :=
  Ends scanTurn (fun s => s.i < 20) samples (firstScan dipValue) n

instance (samples : Nat → U8) (dipValue : U8) (n : Nat) :
    Decidable (Returns samples dipValue n) :=
  inferInstanceAs (Decidable (Ends _ _ _ _ _))

/-- `local_station`, when the loop is left after `n` scans. -/
def scanLocalStation (samples : Nat → U8) (dipValue : U8) (n : Nat) : U8 :=
  ~~~(scanAfter samples dipValue n).dipValue

/-! ## What is kept -/

/-- Everything read in the first `n` scans. -/
def everRead (samples : Nat → U8) : Nat → U8
  | 0 => 0
  | n + 1 => everRead samples n ||| samples n

theorem readSwitch_eq (high : Bool) (mask tmp : U8) :
    readSwitch high mask tmp = tmp ||| (if high then mask else 0) := by
  cases high with
  | false => exact BitVec.or_zero.symm
  | true => rfl

/-- A reading adds to `tmp`. -/
theorem readSwitches_or (dips tmp : U8) :
    readSwitches dips tmp = tmp ||| readSwitches dips 0 := by
  have hzero : ∀ x : U8, 0 ||| x = x := fun x => BitVec.zero_or
  simp only [readSwitches, readSwitch_eq, BitVec.or_assoc, hzero]

/-- The eight masks are the eight bits. -/
theorem readSwitches_zero : ∀ i < 256, readSwitches (BitVec.ofNat 8 i) 0 = BitVec.ofNat 8 i := by
  decide +kernel

theorem readSwitches_eq (dips tmp : U8) : readSwitches dips tmp = tmp ||| dips := by
  have hbits := readSwitches_zero dips.toNat dips.isLt
  rw [BitVec.ofNat_toNat, BitVec.setWidth_eq] at hbits
  rw [readSwitches_or, hbits]

/-- **One turn.**  A scan that brings something new starts the count again. -/
theorem scanTurn_eq (dips : U8) (s : DipScan) :
    scanTurn dips s =
      if s.dipValue = s.tmp ||| dips then
        { tmp := s.tmp ||| dips, i := s.i + 1, dipValue := s.dipValue }
      else { tmp := s.tmp ||| dips, i := 1, dipValue := s.tmp ||| dips } := by
  rw [scanTurn, readSwitches_eq]
  by_cases h : s.dipValue = s.tmp ||| dips
  · rw [if_pos h]
    dsimp only
    rw [if_neg (not_not.mpr h)]
  · rw [if_neg h]
    dsimp only
    rw [if_pos h]

@[simp] theorem scanTurn_tmp (dips : U8) (s : DipScan) :
    (scanTurn dips s).tmp = s.tmp ||| dips := by
  rw [scanTurn_eq]
  split <;> rfl

/-- After any turn `dip_value` is `tmp`. -/
@[simp] theorem scanTurn_dipValue (dips : U8) (s : DipScan) :
    (scanTurn dips s).dipValue = s.tmp ||| dips := by
  rw [scanTurn_eq]
  split
  · assumption
  · rfl

section Runs

variable (samples : Nat → U8) (dipValue : U8)

theorem scanAfter_succ (n : Nat) :
    scanAfter samples dipValue (n + 1) = scanTurn (samples n) (scanAfter samples dipValue n) := rfl

theorem scanAfter_tmp (n : Nat) : (scanAfter samples dipValue n).tmp = everRead samples n := by
  induction n with
  | zero => rfl
  | succ n ih => rw [scanAfter_succ, scanTurn_tmp, ih, everRead]

/-- **What is kept.**  From the first scan on it is the sum of all readings; the value `dip_value`
happens to have does not matter. -/
theorem scanAfter_dipValue (n : Nat) :
    (scanAfter samples dipValue (n + 1)).dipValue = everRead samples (n + 1) := by
  rw [scanAfter_succ, scanTurn_dipValue, scanAfter_tmp, everRead]

theorem scanAfter_i_le (n : Nat) : (scanAfter samples dipValue n).i ≤ n := by
  induction n with
  | zero => exact Nat.le_refl _
  | succ n ih =>
      rw [scanAfter_succ, scanTurn_eq]
      split
      · exact Nat.succ_le_succ ih
      · exact Nat.succ_le_succ (Nat.zero_le n)

variable {samples dipValue}

/-- There are twenty scans at least. -/
theorem Returns.le {n : Nat} (h : Returns samples dipValue n) : 20 ≤ n :=
  Nat.le_trans (Nat.not_lt.mp h.1) (scanAfter_i_le samples dipValue n)

theorem scanned_eq {n : Nat} (h : Returns samples dipValue n) :
    scanLocalStation samples dipValue n = ~~~everRead samples n := by
  obtain ⟨m, rfl⟩ := Nat.exists_eq_add_of_le' (Nat.le_trans (by decide) h.le : 1 ≤ n)
  rw [scanLocalStation, scanAfter_dipValue]

end Runs

/-! ## The loop ends -/

/-- How many switches have not read high. -/
def clearBits (v : U8) : Nat := (Finset.univ.filter fun k : Fin 8 => v.getLsbD k = false).card

theorem clear_subset (v x : U8) :
    (Finset.univ.filter fun k : Fin 8 => (v ||| x).getLsbD k = false) ⊆
      Finset.univ.filter fun k : Fin 8 => v.getLsbD k = false := by
  intro k hk
  have hclear := (Finset.mem_filter.mp hk).2
  rw [BitVec.getLsbD_or, Bool.or_eq_false_iff] at hclear
  exact Finset.mem_filter.mpr ⟨Finset.mem_univ k, hclear.1⟩

theorem clearBits_or_le (v x : U8) : clearBits (v ||| x) ≤ clearBits v :=
  Finset.card_le_card (clear_subset v x)

/-- Something new is a switch fewer to come. -/
theorem clearBits_or_lt {v x : U8} (h : v ≠ v ||| x) : clearBits (v ||| x) < clearBits v := by
  obtain ⟨i, hi, hbit⟩ : ∃ i < 8, v.getLsbD i ≠ (v ||| x).getLsbD i := by
    apply Classical.byContradiction
    intro hnone
    apply h
    apply BitVec.eq_of_getLsbD_eq
    intro i hi
    exact Classical.byContradiction fun hne => hnone ⟨i, hi, hne⟩
  rw [BitVec.getLsbD_or] at hbit
  have hwas : v.getLsbD i = false := by
    cases hv : v.getLsbD i with
    | false => rfl
    | true => exact absurd (by rw [hv, Bool.true_or]) hbit
  have hnow : (v ||| x).getLsbD i = true := by
    rw [hwas, Bool.false_or] at hbit
    rw [BitVec.getLsbD_or, Bool.eq_true_of_not_eq_false hbit.symm, Bool.or_true]
  apply Finset.card_lt_card
  refine (Finset.ssubset_iff_of_subset (clear_subset v x)).mpr ⟨⟨i, hi⟩, ?_, ?_⟩
  · exact Finset.mem_filter.mpr ⟨Finset.mem_univ _, hwas⟩
  · intro hmem
    exact Bool.false_ne_true ((Finset.mem_filter.mp hmem).2.symm.trans hnow)

/-- The scans still to come: 19 for every switch that has not read high, and those until `i` is
20, or all twenty while `dip_value` is not `tmp`. -/
def scansLeft (s : DipScan) : Nat :=
  19 * clearBits s.tmp + if s.dipValue = s.tmp then 20 - s.i else 20

theorem scansLeft_scanTurn (dips : U8) {s : DipScan} (h : s.i < 20) :
    scansLeft (scanTurn dips s) < scansLeft s := by
  have hmono := clearBits_or_le s.tmp dips
  by_cases hstays : s.tmp = s.tmp ||| dips
  · by_cases hdip : s.dipValue = s.tmp
    · -- nothing new, and the count goes on
      have hturn : scanTurn dips s = { s with i := s.i + 1 } := by
        rw [scanTurn_eq, ← hstays, if_pos hdip]
      rw [hturn, scansLeft, scansLeft, if_pos hdip, if_pos hdip]
      dsimp only
      omega
    · -- the first scan finds another `dip_value`
      have hturn : scanTurn dips s = { tmp := s.tmp, i := 1, dipValue := s.tmp } := by
        rw [scanTurn_eq, ← hstays, if_neg hdip]
      rw [hturn, scansLeft, scansLeft, if_neg hdip, if_pos rfl]
      dsimp only
      omega
  · -- a switch reads high for the first time
    have hfewer := clearBits_or_lt hstays
    have hpos : 1 ≤ (scanTurn dips s).i := by
      rw [scanTurn_eq]
      split
      · exact Nat.succ_le_succ (Nat.zero_le _)
      · exact Nat.le_refl 1
    have hleft : 1 ≤ if s.dipValue = s.tmp then 20 - s.i else 20 := by
      split <;> omega
    rw [scansLeft, scansLeft, scanTurn_tmp, scanTurn_dipValue, if_pos rfl]
    omega

/-- **The scan ends.**  Whatever the switches read and whatever `dip_value` holds at the start,
the loop is left after at most 172 scans. -/
theorem scan_ends (samples : Nat → U8) (dipValue : U8) :
    ∃ n ≤ 172, Returns samples dipValue n := by
  have hstart : scansLeft (firstScan dipValue) ≤ 172 := by
    have hall : clearBits 0 = 8 := by decide
    have hrest : (if dipValue = 0 then 20 - 0 else 20) ≤ 20 := by split <;> decide
    rw [scansLeft, firstScan]
    dsimp only
    omega
  have hturn : ∀ (dips : U8) (s : DipScan), s.i < 20 → True →
      True ∧ scansLeft (scanTurn dips s) < scansLeft s :=
    fun dips _ h _ => ⟨trivial, scansLeft_scanTurn dips h⟩
  obtain ⟨n, hn, hends⟩ : ∃ n ≤ scansLeft (firstScan dipValue), Returns samples dipValue n :=
    exists_ends_le trivial hturn
  exact ⟨n, Nat.le_trans hn hstart, hends⟩

/-- The bound is met by a switch that reads high for the first time in every nineteenth scan. -/
example : Returns (fun n => if n % 19 = 0 then BitVec.ofNat 8 (2 ^ (n / 19) / 2) else 0) 0xAA 172 :=
  by decide +kernel

/-! ## Glitches -/

/-- Scan `k` is one of the last 19 of `n`. -/
def FinalScan (n k : Nat) : Prop := n - 19 ≤ k ∧ k < n

/-- Each of the last 19 scans read the pattern whose complement is stored. -/
def ReadsStored (samples : Nat → U8) (dipValue : U8) (n : Nat) : Prop :=
  ∀ k, FinalScan n k → samples k = ~~~scanLocalStation samples dipValue n

/-- A switch that read high in any scan read high in each of the last 19. -/
def NoneTransient (samples : Nat → U8) (n : Nat) : Prop :=
  ∀ j < n, ∀ b, (samples j).getLsbD b = true →
    ∀ k, FinalScan n k → (samples k).getLsbD b = true

theorem getLsbD_everRead (samples : Nat → U8) (n b : Nat) :
    (everRead samples n).getLsbD b = true ↔ ∃ j < n, (samples j).getLsbD b = true := by
  induction n with
  | zero =>
      constructor
      · intro h
        exact absurd (BitVec.getLsbD_zero.symm.trans h) Bool.false_ne_true
      · rintro ⟨j, hj, -⟩
        exact absurd hj (Nat.not_lt_zero j)
  | succ n ih =>
      rw [everRead, BitVec.getLsbD_or, Bool.or_eq_true, ih]
      constructor
      · rintro (⟨j, hj, hbit⟩ | hbit)
        · exact ⟨j, Nat.lt_succ_of_lt hj, hbit⟩
        · exact ⟨n, Nat.lt_succ_self n, hbit⟩
      · rintro ⟨j, hj, hbit⟩
        rcases Nat.lt_succ_iff_lt_or_eq.mp hj with hlt | rfl
        · exact .inl ⟨j, hlt, hbit⟩
        · exact .inr hbit

/-- **When glitches are filtered.**  The last 19 scans read what is stored exactly when no switch
read high in some scan and low in one of them. -/
theorem readsStored_iff {samples : Nat → U8} {dipValue : U8} {n : Nat}
    (h : Returns samples dipValue n) :
    ReadsStored samples dipValue n ↔ NoneTransient samples n := by
  have hstored : ~~~scanLocalStation samples dipValue n = everRead samples n := by
    rw [scanned_eq h, BitVec.not_not]
  unfold ReadsStored
  rw [hstored]
  constructor
  · intro hreads j hj b hbit k hk
    rw [hreads k hk]
    exact (getLsbD_everRead samples n b).mpr ⟨j, hj, hbit⟩
  · intro hnone k hk
    apply BitVec.eq_of_getLsbD_eq
    intro b _
    apply Bool.eq_iff_iff.mpr
    rw [getLsbD_everRead]
    constructor
    · exact fun hbit => ⟨k, hk.2, hbit⟩
    · rintro ⟨j, hj, hbit⟩
      exact hnone j hj b hbit k hk

/-- The switches of station 3 at rest: none of them is transient, and station 3 is stored. -/
theorem steady_readsStored :
    NoneTransient (fun _ => 0xFC) 20 ∧ scanLocalStation (fun _ => 0xFC) 0xAA 20 = 3 ∧
      ReadsStored (fun _ => 0xFC) 0xAA 20 := by
  have hnone : NoneTransient (fun _ => 0xFC) 20 := fun _ _ _ hbit _ _ => hbit
  exact ⟨hnone, by decide, (readsStored_iff (by decide)).mpr hnone⟩

/-- The switches of station 3 with one of them reading high in the first scan only. -/
def glitch (n : Nat) : U8 := if n = 0 then 0xFE else 0xFC

/-- **A glitch stays.**  The 19 scans behind the glitch read station 3's switches, and the station
takes itself for number 1, the host. -/
theorem glitch_is_stored :
    Returns glitch 0xAA 20 ∧ (∀ k, FinalScan 20 k → glitch k = ~~~3) ∧
      ¬ ReadsStored glitch 0xAA 20 ∧
      (boot zeroFlash (scanLocalStation glitch 0xAA 20)).isHost = true := by
  refine ⟨by decide, ?_, ?_, by decide⟩
  · rintro k ⟨hlast, -⟩
    rw [glitch, if_neg (by omega)]
    rfl
  · intro hreads
    exact absurd (hreads 1 ⟨Nat.le_refl 1, by decide⟩) (by decide)

end IotCtrl
