import IotCtrl.JamResponse
import IotCtrl.PollCycle
import IotCtrl.StatusExchange

/-!
# Every station is asked

Twice a second `sec_process` on the host asks the next station, but only if `main_msone_process`
has counted more than thirty milliseconds since the last request.  Two calls of the main loop have
to come often enough.

* `AskTimer`, `step_askTimer` — the counters of the requests, step by step;
* `AskTimer.Fills` — what makes the next half second ask;
* `asking_periodic` — the half seconds that pass before station `no` is asked;
* `station_asked` — each number from 2 to 31 is asked.
-/

namespace IotCtrl

open ByteMemory Transition Deadline ClosedFacts

/-! ## The counters of the requests -/

/-- `half_sec_reg`, `half_sec_flag`, `msone_flag`, `modulestate_readcnt` and
`modulestate_index`. -/
structure AskTimer where
  halfSecReg : U16
  halfSecFlag : Bool
  msoneFlag : Bool
  readcnt : U16
  index : U16

def Clock.askTimer (c : Clock) : AskTimer :=
  { halfSecReg := c.main.halfSecReg
    halfSecFlag := c.main.halfSecFlag
    msoneFlag := c.main.msoneFlag
    readcnt := c.main.modulestateReadcnt
    index := c.main.modulestateIndex }

namespace AskTimer

/-- A millisecond. -/
def tick (t : AskTimer) : AskTimer :=
  let t := { t with msoneFlag := true }
  if t.halfSecReg ≠ 0 then
    if t.halfSecReg - 1 = 0 then { t with halfSecReg := 500, halfSecFlag := true }
    else { t with halfSecReg := t.halfSecReg - 1 }
  else t

/-- The number behind the one that was asked. -/
def nextIndex (index : U16) : U16 := if 30 < index + 1 then 1 else index + 1

/-- `sec_process` on the host. -/
def ask (t : AskTimer) : AskTimer :=
  if t.halfSecFlag then
    let t := { t with halfSecFlag := false }
    if 30 < t.readcnt then { t with readcnt := 0, index := nextIndex t.index } else t
  else t

/-- `main_msone_process`. -/
def count (t : AskTimer) : AskTimer :=
  if t.msoneFlag then { t with msoneFlag := false, readcnt := t.readcnt + 1 } else t

end AskTimer

namespace Clock

@[simp] theorem tick_askTimer (c : Clock) : c.tick.askTimer = c.askTimer.tick := by
  unfold tick tickMain tickUpload tickHalfSec tickSec tickMs askTimer AskTimer.tick
  dsimp only
  split_ifs <;> rfl

@[simp] theorem sec_askTimer (c : Clock) : c.sec.askTimer = c.askTimer := by
  unfold sec
  split_ifs <;> rfl

@[simp] theorem halfSec_askTimer (c : Clock) : (c.halfSec true).askTimer = c.askTimer.ask := by
  unfold halfSec askTimer AskTimer.ask AskTimer.nextIndex
  dsimp only
  rw [if_congr (and_iff_right rfl) rfl rfl]
  split_ifs <;> rfl

@[simp] theorem upload_askTimer (n : Nat) (c : Clock) : (c.upload n).askTimer = c.askTimer := by
  unfold upload
  split_ifs <;> rfl

@[simp] theorem msone_askTimer (n : U16) (c : Clock) :
    (c.msone n).askTimer = c.askTimer.count := by
  unfold msone askTimer AskTimer.count
  dsimp only
  split_ifs <;> rfl

end Clock

/-- What a step of the host does to the counters of the requests. -/
theorem step_askTimer {s : Station} (hrun : s.systemReset = false) (hhost : s.isHost = true)
    (i : Input) :
    (step s i).clock.askTimer =
      match i with
      | .timeUpdate _ => s.clock.askTimer.tick
      | .secProcess _ => s.clock.askTimer.ask
      | .msoneProcess _ => s.clock.askTimer.count
      | _ => s.clock.askTimer := by
  rw [step_clock hrun]
  unfold Station.clockAfter
  cases i with
  | timeUpdate pins => exact s.clock.tick_askTimer
  | secProcess pins =>
      dsimp only
      rw [hhost, Clock.halfSec_askTimer, Clock.sec_askTimer]
  | uploadRunState => exact s.clock.upload_askTimer _
  | msoneProcess speedGear => exact s.clock.msone_askTimer _
  | _ => rfl

namespace AskTimer

variable {D E lag lagMs : Nat} {t : AskTimer}

/-- The range of the counters. -/
structure Counting (t : AskTimer) : Prop where
  reg : 1 ≤ t.halfSecReg.toNat ∧ t.halfSecReg.toNat ≤ 500
  index : 1 ≤ t.index.toNat ∧ t.index.toNat ≤ 30

/-- The half second that is up was up for no longer than `lag`. -/
def Fresh (lag : Nat) (t : AskTimer) : Prop :=
  t.halfSecFlag = true → 500 ≤ t.halfSecReg.toNat + lag

/-- The milliseconds that are counted, and those that `main_msone_process` will count. -/
def counted (t : AskTimer) : Nat := t.readcnt.toNat + t.halfSecReg.toNat + t.msoneFlag.toNat

/-- The next half second asks: the thirty milliseconds are counted, or `main_msone_process`, which
comes every `E` milliseconds and came `lagMs` ago, still counts them in time. -/
structure Fills (E lagMs : Nat) (t : AskTimer) : Prop where
  up : t.halfSecFlag = true → 30 < t.readcnt.toNat ∧ t.counted ≤ 1031
  early : t.halfSecFlag = false →
    31 * (E + 1) + E ≤ (E + 1) * t.readcnt.toNat + t.halfSecReg.toNat + lagMs ∧ t.counted ≤ 531

theorem tick_cases (h : t.Counting) :
    (t.halfSecReg.toNat = 1 ∧
      t.tick = { t with msoneFlag := true, halfSecReg := 500, halfSecFlag := true }) ∨
    (t.halfSecReg.toNat ≠ 1 ∧
      t.tick = { t with msoneFlag := true, halfSecReg := t.halfSecReg - 1 }) := by
  obtain ⟨hpos, hle⟩ := h.reg
  have hne : t.halfSecReg ≠ 0 := by bv_omega
  unfold tick
  dsimp only
  rw [if_pos hne]
  split_ifs with hlast
  · exact Or.inl ⟨by bv_omega, rfl⟩
  · exact Or.inr ⟨by bv_omega, rfl⟩

theorem nextIndex_toNat (h : t.Counting) :
    (nextIndex t.index).toNat = if t.index.toNat = 30 then 1 else t.index.toNat + 1 := by
  obtain ⟨hpos, hle⟩ := h.index
  unfold nextIndex
  split_ifs <;> bv_omega

theorem Counting.tick (h : t.Counting) : t.tick.Counting := by
  obtain ⟨hpos, hle⟩ := h.reg
  rcases tick_cases h with ⟨-, hnext⟩ | ⟨hmore, hnext⟩
  · rw [hnext]
    exact ⟨by dsimp only; decide, h.index⟩
  · rw [hnext]
    exact ⟨by dsimp only; constructor <;> bv_omega, h.index⟩

theorem Counting.ask (h : t.Counting) : t.ask.Counting := by
  have hnext := nextIndex_toNat h
  obtain ⟨hpos, hle⟩ := h.index
  unfold AskTimer.ask
  dsimp only
  split_ifs
  · refine ⟨h.reg, ?_⟩
    dsimp only
    rw [hnext]
    split_ifs <;> omega
  · exact ⟨h.reg, h.index⟩
  · exact h

theorem Counting.count (h : t.Counting) : t.count.Counting := by
  unfold AskTimer.count
  split_ifs
  · exact ⟨h.reg, h.index⟩
  · exact h

theorem Fresh.tick (hc : t.Counting) (h : t.Fresh lag) : t.tick.Fresh (lag + 1) := by
  rcases tick_cases hc with ⟨-, hnext⟩ | ⟨hmore, hnext⟩
  · rw [hnext]
    exact fun _ => Nat.le_add_right 500 (lag + 1)
  · rw [hnext]
    intro hup
    have hlate := h hup
    obtain ⟨hpos, -⟩ := hc.reg
    dsimp only
    bv_omega

theorem Fills.tick (hc : t.Counting) (hfresh : t.Fresh lag) (hlag : lag + 31 ≤ 500)
    (hms : lagMs + 1 ≤ E) (h : t.Fills E lagMs) : t.tick.Fills E (lagMs + 1) := by
  obtain ⟨hpos, -⟩ := hc.reg
  rcases tick_cases hc with ⟨hone, hnext⟩ | ⟨hmore, hnext⟩
  · have hoff : t.halfSecFlag = false := by
      by_contra hon
      have hlate := hfresh (by simpa using hon)
      omega
    obtain ⟨hfill, hcounted⟩ := h.early hoff
    rw [hnext]
    refine ⟨fun _ => ⟨?_, ?_⟩, nofun⟩
    · have hmul : (E + 1) * 31 ≤ (E + 1) * t.readcnt.toNat := by omega
      exact Nat.le_of_mul_le_mul_left hmul (Nat.succ_pos E)
    · unfold counted at hcounted
      show t.readcnt.toNat + 500 + 1 ≤ 1031
      omega
  · have hreg : (t.halfSecReg - 1).toNat + 1 = t.halfSecReg.toNat := by bv_omega
    have hcount : t.tick.counted ≤ t.counted := by
      rw [hnext]
      show t.readcnt.toNat + (t.halfSecReg - 1).toNat + 1 ≤ t.counted
      unfold counted
      omega
    rw [hnext] at hcount ⊢
    refine ⟨fun hup => ?_, fun hoff => ?_⟩
    · obtain ⟨hover, hcounted⟩ := h.up hup
      exact ⟨hover, hcount.trans hcounted⟩
    · obtain ⟨hfill, hcounted⟩ := h.early hoff
      refine ⟨?_, hcount.trans hcounted⟩
      dsimp only
      omega

theorem Fills.count (hms : lagMs ≤ E) (hidle : t.msoneFlag = false → lagMs = 0)
    (h : t.Fills E lagMs) : t.count.Fills E 0 := by
  unfold AskTimer.count
  by_cases hflag : t.msoneFlag = true
  · rw [if_pos hflag]
    have hsum : t.counted ≤ 1031 := by
      cases hup : t.halfSecFlag with
      | true => exact (h.up hup).2
      | false => exact (h.early hup).2.trans (by decide)
    have hmore : (t.readcnt + 1).toNat = t.readcnt.toNat + 1 := by
      unfold counted at hsum
      bv_omega
    have hmul : (E + 1) * (t.readcnt.toNat + 1) = (E + 1) * t.readcnt.toNat + (E + 1) :=
      Nat.mul_succ _ _
    have hsame : counted { t with msoneFlag := false, readcnt := t.readcnt + 1 } = t.counted := by
      unfold counted
      dsimp only
      rw [hmore, hflag]
      show t.readcnt.toNat + 1 + t.halfSecReg.toNat + 0 = t.readcnt.toNat + t.halfSecReg.toNat + 1
      omega
    refine ⟨fun hup => ?_, fun hoff => ?_⟩
    · obtain ⟨hover, hcounted⟩ := h.up hup
      rw [hsame]
      dsimp only
      exact ⟨by omega, hcounted⟩
    · obtain ⟨hfill, hcounted⟩ := h.early hoff
      rw [hsame]
      dsimp only
      rw [hmore]
      exact ⟨by omega, hcounted⟩
  · rw [if_neg hflag]
    rw [hidle (by simpa using hflag)] at h
    exact h

/-- **A half second that is served in time** leaves the next one enough to count. -/
theorem Fresh.fills (hc : t.Counting) (h : t.Fresh lag) (hlag : lag ≤ D)
    (hpace : D + 32 * E + 31 ≤ 500) (hup : t.halfSecFlag = true) (lagMs : Nat) :
    t.ask.Fills E lagMs := by
  obtain ⟨-, hle⟩ := hc.reg
  have hreg := h hup
  have hflag : t.msoneFlag.toNat ≤ 1 := Bool.toNat_le _
  unfold AskTimer.ask
  rw [if_pos hup]
  dsimp only
  split_ifs with hover
  · refine ⟨nofun, fun _ => ⟨?_, ?_⟩⟩
    · dsimp only
      omega
    · show 0 + t.halfSecReg.toNat + t.msoneFlag.toNat ≤ 531
      omega
  · refine ⟨nofun, fun _ => ⟨?_, ?_⟩⟩
    · dsimp only
      omega
    · show t.readcnt.toNat + t.halfSecReg.toNat + t.msoneFlag.toNat ≤ 531
      bv_omega

/-- A call before the half second is up does nothing. -/
theorem ask_early (h : t.halfSecFlag = false) : t.ask = t := by
  unfold AskTimer.ask
  rw [h]
  rfl

theorem ask_off (t : AskTimer) : t.ask.halfSecFlag = false := by
  unfold AskTimer.ask
  dsimp only
  split_ifs with hup
  · rfl
  · rfl
  · simpa using hup

/-- The milliseconds before the half second is up. -/
def wait (t : AskTimer) : Nat := if t.halfSecFlag then 0 else t.halfSecReg.toNat

theorem tick_wait (hc : t.Counting) : t.tick.wait ≤ t.wait - 1 := by
  obtain ⟨hpos, -⟩ := hc.reg
  unfold wait
  rcases tick_cases hc with ⟨-, hnext⟩ | ⟨-, hnext⟩
  · rw [hnext]
    exact Nat.zero_le _
  · rw [hnext]
    dsimp only
    split_ifs
    · exact Nat.zero_le _
    · bv_omega

theorem wait_le (hc : t.Counting) : t.wait ≤ 500 := by
  obtain ⟨-, hle⟩ := hc.reg
  unfold wait
  split_ifs
  · exact Nat.zero_le _
  · exact hle

theorem wait_eq_zero (hc : t.Counting) : t.wait = 0 ↔ t.halfSecFlag = true := by
  obtain ⟨hpos, -⟩ := hc.reg
  unfold wait
  split_ifs with hup
  · exact ⟨fun _ => hup, fun _ => rfl⟩
  · exact ⟨fun hzero => by omega, fun hon => absurd hon hup⟩

/-- The requests to other stations before the one to station `no`. -/
def asksBefore (no : Nat) (t : AskTimer) : Nat :=
  if t.index.toNat < no then no - 1 - t.index.toNat else 30 - t.index.toNat + (no - 1)

theorem asksBefore_le {no : Nat} (hno : 2 ≤ no ∧ no ≤ 31) (hc : t.Counting) :
    t.asksBefore no ≤ 29 := by
  obtain ⟨hpos, hle⟩ := hc.index
  unfold asksBefore
  split_ifs <;> omega

/-- A request to another station is one of those that come first. -/
theorem asksBefore_ask {no : Nat} (hno : 2 ≤ no ∧ no ≤ 31) (hc : t.Counting)
    (hup : t.halfSecFlag = true) (hother : 30 < t.readcnt → t.index.toNat + 1 ≠ no) :
    t.ask.asksBefore no ≤ t.asksBefore no ∧
      (30 < t.readcnt → t.ask.asksBefore no < t.asksBefore no) := by
  have hnext := nextIndex_toNat hc
  obtain ⟨hpos, hle⟩ := hc.index
  unfold AskTimer.ask asksBefore
  rw [if_pos hup]
  dsimp only
  by_cases hover : 30 < t.readcnt
  · have hne := hother hover
    rw [if_pos hover]
    dsimp only
    rw [hnext]
    refine ⟨?_, fun _ => ?_⟩ <;> split_ifs <;> omega
  · rw [if_neg hover]
    exact ⟨Nat.le_refl _, fun h => absurd h hover⟩

theorem count_keeps (t : AskTimer) :
    t.count.wait = t.wait ∧ (∀ no, t.count.asksBefore no = t.asksBefore no) ∧
      ∀ lag, t.count.Fresh lag ↔ t.Fresh lag := by
  unfold AskTimer.count
  split_ifs <;> exact ⟨rfl, fun _ => rfl, fun _ => Iff.rfl⟩

end AskTimer

theorem reachable_askCounting {s : Station} (h : Reachable (fun _ _ => True) s)
    (hhost : s.isHost = true) : s.clock.askTimer.Counting := by
  have hinit : ∀ t, Booted t → t.isHost = true → t.clock.askTimer.Counting := by
    intro t hboot _
    obtain ⟨flash, localStation, rfl⟩ := hboot
    have hclock : (boot flash localStation).clock = (Station.cleared flash localStation).clock :=
      readUserParas_clock _
    rw [hclock]
    have hreg : (500 : U16).toNat = 500 := rfl
    have hindex : (1 : U16).toNat = 1 := rfl
    refine ⟨?_, ?_⟩
    · show 1 ≤ (500 : U16).toNat ∧ (500 : U16).toNat ≤ 500
      decide
    · show 1 ≤ (1 : U16).toNat ∧ (1 : U16).toNat ≤ 30
      decide
  refine h.invariant hinit (fun t i ht _ hown => ?_) hhost
  have hthere : t.isHost = true := (step_touches t i).keeps.isHost.symm.trans hown
  have hcounting := ht hthere
  by_cases hrun : t.systemReset = true
  · have hsame : step t i = t := if_pos hrun
    rwa [hsame]
  · rw [step_askTimer (by simpa using hrun) hthere]
    cases i with
    | timeUpdate pins => exact hcounting.tick
    | secProcess pins => exact hcounting.ask
    | msoneProcess speedGear => exact hcounting.count
    | _ => exact hcounting

/-! ## The requests to the others -/

section Asking

variable {s : Station} {i : Input} {D E no lag g : Nat} {p : Station × Nat}

/-- What ends the wait for the request to station `no`: it is asked, or the board is reset. -/
def AskSettled (no : Nat) (s : Station) (i : Input) : Prop :=
  ((∃ pins, i = .secProcess pins) ∧ PollsStatus s ∧ nextAsked s = BitVec.ofNat 8 no) ∨
    (step s i).systemReset = true

/-- The host on its way to a request.  The token says how many half seconds may still pass without
one: none if the count fills in time, at most one if the half second that is up is fresh. -/
structure Asking (D E lag g : Nat) (p : Station × Nat) : Prop where
  reach : Reachable (fun _ _ => True) p.1
  host : p.1.isHost = true
  running : p.1.systemReset = false
  lagSec : lag ≤ D
  lagMs : p.2 ≤ E
  idle : p.1.clock.askTimer.msoneFlag = false → p.2 = 0
  fresh : g ≤ 1 → p.1.clock.askTimer.Fresh lag
  fills : g = 0 → p.1.clock.askTimer.Fills E p.2

theorem Asking.counting (h : Asking D E lag g p) : p.1.clock.askTimer.Counting :=
  reachable_askCounting h.reach h.host

/-- What holds behind every step that settles nothing. -/
theorem Asking.next (h : Asking D E lag g p)
    (hnot : ¬ OrLate pollPace E (AskSettled no) p i) {lag' g' : Nat} {t : AskTimer}
    (htimer : (step p.1 i).clock.askTimer = t) (hlag : lag' ≤ D)
    (hidle : t.msoneFlag = false → nextLag pollPace p.2 i = 0)
    (hfresh : g' ≤ 1 → t.Fresh lag') (hfills : g' = 0 → t.Fills E (nextLag pollPace p.2 i)) :
    Asking D E lag' g' (lagStep step pollPace p i) where
  reach := Reach.next h.reach trivial
  host := (step_touches p.1 i).keeps.isHost.trans h.host
  running := Bool.eq_false_iff.mpr fun hreset => hnot (Or.inl (Or.inr hreset))
  lagSec := hlag
  lagMs := Nat.not_lt.mp fun hlate => hnot (Or.inr hlate)
  idle := fun hoff => hidle (htimer ▸ hoff)
  fresh := fun hg => htimer.symm ▸ hfresh hg
  fills := fun hg => htimer.symm ▸ hfills hg

/-- **The requests are a periodic obligation** of `sec_process`, if `main_msone_process` is
prompt as well. -/
theorem asking_periodic (hpace : D + 32 * E + 31 ≤ 500) (hno : 2 ≤ no ∧ no ≤ 31) :
    Periodic (lagStep step pollPace) secPace D 500 (Asking D E)
      (fun p => p.1.clock.askTimer.wait) (fun g p => g + p.1.clock.askTimer.asksBefore no)
      (OrLate pollPace E (AskSettled no)) where
  tick := by
    intro lag g p i hrel hlag htick hnot
    obtain ⟨pins, rfl⟩ : ∃ pins, i = .timeUpdate pins := by
      cases i with
      | timeUpdate pins => exact ⟨pins, rfl⟩
      | _ => cases htick
    have hcounting := hrel.counting
    have htimer : (step p.1 (.timeUpdate pins)).clock.askTimer = p.1.clock.askTimer.tick :=
      step_askTimer hrel.running hrel.host _
    have hms : p.2 + 1 ≤ E := Nat.not_lt.mp fun hlate => hnot (Or.inr hlate)
    have hflags : p.1.clock.askTimer.tick.msoneFlag = true ∧
        p.1.clock.askTimer.tick.index = p.1.clock.askTimer.index := by
      rcases AskTimer.tick_cases hcounting with ⟨-, hnext⟩ | ⟨-, hnext⟩ <;> rw [hnext] <;>
        exact ⟨rfl, rfl⟩
    refine ⟨g, hrel.next hnot htimer hlag (fun hoff => ?_)
      (fun hg => (hrel.fresh hg).tick hcounting) (fun hg => ?_), ?_, ?_⟩
    · rw [hflags.1] at hoff
      cases hoff
    · exact (hrel.fills hg).tick hcounting (hrel.fresh (by omega)) (by omega) hms
    · show (step p.1 (.timeUpdate pins)).clock.askTimer.wait ≤ _
      rw [htimer]
      exact AskTimer.tick_wait hcounting
    · show g + (step p.1 (.timeUpdate pins)).clock.askTimer.asksBefore no ≤ _
      rw [htimer]
      unfold AskTimer.asksBefore
      rw [hflags.2]
  serve := by
    intro lag g p i hrel hserve hnot
    obtain ⟨pins, rfl⟩ : ∃ pins, i = .secProcess pins := by
      cases i with
      | secProcess pins => exact ⟨pins, rfl⟩
      | _ => cases hserve
    have hcounting := hrel.counting
    have htimer : (step p.1 (.secProcess pins)).clock.askTimer = p.1.clock.askTimer.ask :=
      step_askTimer hrel.running hrel.host _
    have hafter : (lagStep step pollPace p (.secProcess pins)).1.clock.askTimer =
        p.1.clock.askTimer.ask := htimer
    have hidle : p.1.clock.askTimer.ask.msoneFlag = p.1.clock.askTimer.msoneFlag := by
      unfold AskTimer.ask
      dsimp only
      split_ifs <;> rfl
    cases hup : p.1.clock.askTimer.halfSecFlag with
    | true =>
        have hother : 30 < p.1.clock.askTimer.readcnt →
            p.1.clock.askTimer.index.toNat + 1 ≠ no := by
          intro hover heq
          refine hnot (Or.inl (Or.inl ⟨⟨_, rfl⟩, ⟨hrel.host, hrel.running, hup, hover⟩, ?_⟩))
          have hindex : p.1.main.modulestateIndex.toNat + 1 = no := heq
          unfold nextAsked lo
          bv_omega
        obtain ⟨hle, hless⟩ := AskTimer.asksBefore_ask hno hcounting hup hother
        refine ⟨g - 1, hrel.next hnot htimer (Nat.zero_le D) (fun hoff => ?_) (fun _ hon => ?_)
          (fun hg => ?_), fun _ => ⟨?_, ?_⟩, fun hearly => ?_⟩
        · exact hrel.idle (hidle ▸ hoff)
        · rw [AskTimer.ask_off] at hon
          cases hon
        · exact (hrel.fresh (by omega)).fills hcounting hrel.lagSec hpace hup _
        · rw [hafter]
          exact AskTimer.wait_le hcounting.ask
        · rw [hafter]
          cases g with
          | zero =>
              obtain ⟨hover, -⟩ := (hrel.fills rfl).up hup
              have hmore := hless (BitVec.lt_def.mpr hover)
              omega
          | succ g => omega
        · exact absurd ((AskTimer.wait_eq_zero hcounting).mpr hup) hearly
    | false =>
        have hsame : p.1.clock.askTimer.ask = p.1.clock.askTimer := AskTimer.ask_early hup
        rw [hsame] at htimer hafter
        refine ⟨g, hrel.next hnot htimer (Nat.zero_le D) hrel.idle (fun _ hon => ?_)
          hrel.fills, fun hdue => ?_, fun _ => ?_⟩
        · rw [hup] at hon
          cases hon
        · have hon := (AskTimer.wait_eq_zero hcounting).mp hdue
          rw [hup] at hon
          cases hon
        · rw [hafter]
          exact ⟨Nat.le_refl _, Nat.le_refl _⟩
  other := by
    intro lag g p i charge hrel hother hnot
    have hcounting := hrel.counting
    by_cases hms : ∃ speedGear, i = .msoneProcess speedGear
    · obtain ⟨speedGear, rfl⟩ := hms
      have htimer : (step p.1 (.msoneProcess speedGear)).clock.askTimer =
          p.1.clock.askTimer.count := step_askTimer hrel.running hrel.host _
      have hafter : (lagStep step pollPace p (.msoneProcess speedGear)).1.clock.askTimer =
          p.1.clock.askTimer.count := htimer
      obtain ⟨hwait, hbefore, hfresh⟩ := AskTimer.count_keeps p.1.clock.askTimer
      refine ⟨g, hrel.next hnot htimer hrel.lagSec (fun _ => rfl)
        (fun hg => (hfresh lag).mpr (hrel.fresh hg))
        (fun hg => (hrel.fills hg).count hrel.lagMs hrel.idle), ?_, ?_⟩
      · rw [hafter]
        exact hwait.le
      · rw [hafter, hbefore]
    · have htimer : (step p.1 i).clock.askTimer = p.1.clock.askTimer := by
        have hstep := step_askTimer hrel.running hrel.host i
        cases i with
        | timeUpdate pins => cases hother
        | secProcess pins => cases hother
        | msoneProcess speedGear => exact absurd ⟨speedGear, rfl⟩ hms
        | _ => exact hstep
      have hafter : (lagStep step pollPace p i).1.clock.askTimer = p.1.clock.askTimer := htimer
      have hlag : nextLag pollPace p.2 i = p.2 := by
        cases i with
        | timeUpdate pins => cases hother
        | msoneProcess speedGear => exact absurd ⟨speedGear, rfl⟩ hms
        | _ => rfl
      refine ⟨g, hrel.next hnot htimer hrel.lagSec (fun hoff => ?_) hrel.fresh (fun hg => ?_),
        ?_, ?_⟩
      · rw [hlag]
        exact hrel.idle hoff
      · rw [hlag]
        exact hrel.fills hg
      · rw [hafter]
      · rw [hafter]

/-! ## Each station is asked -/

/-- The half second asks station `no`: its request goes behind the frames that wait to be sent, if
there is room. -/
def AsksStation (no : U8) (s : Station) (i : Input) : Prop :=
  (∃ pins, i = .secProcess pins) ∧ PollsStatus s ∧ nextAsked s = no ∧
    (s.canFrames.length < 49 → (step s i).canFrames =
      s.canFrames ++ canFramesOf [] CAN_FUNC_ID_READ_MODULE_STATUS no)

/-- **Every station is asked.**  In a run of the host that calls `sec_process` at least once in `D`
milliseconds and `main_msone_process` at least once in `E`, often enough for thirty-one of its
calls to fit into a half second, the request to each number from 2 to 31 comes within thirty-two
half seconds, and as many delays of `sec_process`, unless the board is reset. -/
theorem station_asked (hs : Reachable (fun _ _ => True) s) (hhost : s.isHost = true)
    (hno : 2 ≤ no ∧ no ≤ 31) (hpace : D + 32 * E + 31 ≤ 500) {is : List Input}
    (hsec : SecPrompt D is) (hms : PollPrompt E is)
    (hlong : 32 * (500 + D) + D < milliseconds is) :
    Somewhere step
      (fun t i => AsksStation (BitVec.ofNat 8 no) t i ∨ (step t i).systemReset = true) s is := by
  obtain ⟨htime, hcharges⟩ := secPace_time is
  by_cases hreset : s.systemReset = true
  · cases is with
    | nil => exact absurd hlong (Nat.not_lt_zero _)
    | cons i is =>
        have hsame : step s i = s := if_pos hreset
        exact Or.inl (Or.inr (by rwa [hsame]))
  have hcounting := reachable_askCounting hs hhost
  have hstart : Asking D E 0 2 (s, 0) :=
    ⟨hs, hhost, by simpa using hreset, Nat.zero_le D, Nat.zero_le E, fun _ => rfl,
      fun hg => absurd hg (by decide), fun hg => absurd hg (by decide)⟩
  have hrounds : (2 + s.clock.askTimer.asksBefore no + 1) * (500 + D) ≤ 32 * (500 + D) := by
    have hle := AskTimer.asksBefore_le hno hcounting
    exact Nat.mul_le_mul_right _ (by omega)
  have hsettled := (asking_periodic hpace hno).somewhere (g := 2) hstart
    (AskTimer.wait_le hcounting) hsec (by rw [htime, hcharges]; dsimp only; omega)
  obtain ⟨js, j, ks, hsplit, hmet⟩ :=
    somewhere_iff.mp (somewhere_of_prompt (Nat.zero_le E) hms hsettled)
  refine somewhere_iff.mpr ⟨js, j, ks, hsplit, ?_⟩
  rcases hmet with ⟨⟨pins, rfl⟩, hpolls, hasked⟩ | hreset'
  · refine Or.inl ⟨⟨pins, rfl⟩, hpolls, hasked, fun hroom => ?_⟩
    rw [secProcess_asks hpolls hroom, hasked]
  · exact Or.inr hreset'

end Asking

/-- So many milliseconds with a call of both behind each tick. -/
def askedRounds (n : Nat) : List Input :=
  (List.replicate n [.timeUpdate noInput, .secProcess noInput, .msoneProcess 0]).flatten

theorem askedRounds_time (n : Nat) :
    milliseconds (askedRounds n) = n ∧ SecPrompt 1 (askedRounds n) ∧
      PollPrompt 1 (askedRounds n) := by
  refine ⟨(ticks_turns _ _ n).trans (Nat.mul_one n), prompt_turns ?_ n, prompt_turns ?_ n⟩
  · exact fun is h => ⟨Nat.one_pos, h⟩
  · exact fun is h => ⟨Nat.one_pos, h⟩

/-- The last station is asked within seventeen seconds. -/
theorem station_asked_fromBoot :
    Somewhere step (fun t i => AsksStation 31 t i ∨ (step t i).systemReset = true)
      (boot zeroFlash 1) (askedRounds 17000) := by
  obtain ⟨htime, hsec, hms⟩ := askedRounds_time 17000
  have hhost : (boot zeroFlash 1).isHost = true :=
    congrArg (· == 1) (boot_localStation zeroFlash 1)
  have hbooted : Reachable (fun _ _ => True) (boot zeroFlash 1) := Reach.start ⟨_, _, rfl⟩
  refine station_asked hbooted hhost (by decide) (by decide) hsec hms ?_
  rw [htime]
  decide

end IotCtrl
