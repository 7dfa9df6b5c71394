import IotCtrl.Clock
import IotCtrl.MasterProgress

/-!
# Every inverter is polled

Every half second `main_msone_process` asks one inverter for its state, one after the other.

* `step_pollTimer` — `freq_check_cnt` and `polling_num`, step by step;
* `pollsBefore`, `poll_periodic` — the polls of other inverters that come first;
* `inverter_polled` — each inverter gets its poll, and the poll is sent.
-/

namespace IotCtrl

open ByteMemory Transition Deadline ClosedFacts

/-! ## The timer of the polls -/

/-- `main_msone_process` serves the polls. -/
def pollPace : Input → Pace
  | .timeUpdate _ => .tick
  | .msoneProcess _ => .serve
  | _ => .other 0

/-- `main_msone_process` is called at least once in `D` milliseconds. -/
abbrev PollPrompt (D : Nat) (is : List Input) : Prop := Prompt pollPace D 0 is

theorem pollPace_time (is : List Input) :
    ticks pollPace is = milliseconds is ∧ charges pollPace is = 0 := by
  refine ⟨ticks_congr (fun i => ?_) is, charges_eq_zero (fun i charge h => ?_) is⟩
  · cases i <;> simp [pollPace, uartPace]
  · cases i <;> simp_all [pollPace]

/-- `msone_flag`, `freq_check_cnt` and `polling_num`. -/
def Clock.pollTimer (c : Clock) : Bool × U16 × U8 :=
  (c.main.msoneFlag, c.freqCheckCnt, c.pollingNum)

namespace Clock

@[simp] theorem sec_pollTimer (c : Clock) : c.sec.pollTimer = c.pollTimer := by
  unfold sec
  split_ifs <;> rfl

@[simp] theorem halfSec_pollTimer (host : Bool) (c : Clock) :
    (c.halfSec host).pollTimer = c.pollTimer := by
  unfold halfSec
  dsimp only
  split_ifs <;> rfl

@[simp] theorem upload_pollTimer (n : Nat) (c : Clock) : (c.upload n).pollTimer = c.pollTimer := by
  unfold upload
  split_ifs <;> rfl

/-- A millisecond. -/
@[simp] theorem tick_pollTimer (c : Clock) :
    c.tick.pollTimer = (true, c.freqCheckCnt + 1, c.pollingNum) := by
  unfold tick tickMain tickUpload tickHalfSec tickSec tickMs pollTimer
  dsimp only
  split_ifs <;> rfl

/-- A poll takes both counters back. -/
@[simp] theorem msone_pollTimer (n : U16) (c : Clock) :
    (c.msone n).pollTimer =
      if c.main.msoneFlag = true ∧ 500 < c.freqCheckCnt then (false, 0, nextPoll n c.pollingNum)
      else (false, c.freqCheckCnt, c.pollingNum) := by
  unfold msone pollTimer
  dsimp only
  by_cases hflag : c.main.msoneFlag = true
  · rw [if_pos hflag, if_congr (and_iff_right hflag) rfl rfl]
    split_ifs <;> rfl
  · rw [if_neg hflag, if_neg fun h => hflag h.1]
    exact Prod.ext (Bool.eq_false_iff.mpr hflag) rfl

end Clock

/-- What a step does to the timer of the polls. -/
theorem step_pollTimer {s : Station} (hrun : s.systemReset = false) (i : Input) :
    (step s i).clock.pollTimer =
      match i with
      | .timeUpdate _ => (true, s.modbus.freqCheckCnt + 1, s.logic.pollingNum)
      | .msoneProcess _ =>
          if s.main.msoneFlag = true ∧ 500 < s.modbus.freqCheckCnt then
            (false, 0, nextPoll s.logic.userParasLocal.beltNumber s.logic.pollingNum)
          else (false, s.modbus.freqCheckCnt, s.logic.pollingNum)
      | _ => (s.main.msoneFlag, s.modbus.freqCheckCnt, s.logic.pollingNum) := by
  rw [step_clock hrun]
  unfold Station.clockAfter
  cases i with
  | timeUpdate pins => exact s.clock.tick_pollTimer
  | secProcess pins => exact (s.clock.sec.halfSec_pollTimer s.isHost).trans s.clock.sec_pollTimer
  | uploadRunState => exact s.clock.upload_pollTimer _
  | msoneProcess speedGear => exact s.clock.msone_pollTimer _
  | _ => rfl

/-- The milliseconds before a poll is due. -/
def Station.pollWait (s : Station) : Nat := 501 - s.modbus.freqCheckCnt.toNat

/-- A poll that is due finds `msone_flag` set. -/
def PollFlagged (s : Station) : Prop := s.pollWait = 0 → s.main.msoneFlag = true

theorem reachable_pollFlagged {s : Station} (h : Reachable (fun _ _ => True) s) :
    PollFlagged s := by
  have hinit : ∀ t, Booted t → PollFlagged t := by
    intro t hboot
    obtain ⟨flash, localStation, rfl⟩ := hboot
    have hcount : (boot flash localStation).modbus.freqCheckCnt = 0 :=
      congrArg Clock.freqCheckCnt (readUserParas_clock _)
    intro hdue
    unfold Station.pollWait at hdue
    rw [hcount] at hdue
    cases hdue
  refine h.invariant hinit fun t i ht _ => ?_
  by_cases hrun : t.systemReset = true
  · have hsame : step t i = t := if_pos hrun
    rwa [hsame]
  have htimer := step_pollTimer (by simpa using hrun) i
  have hflag : (step t i).main.msoneFlag = (step t i).clock.pollTimer.1 := rfl
  have hcount : (step t i).modbus.freqCheckCnt = (step t i).clock.pollTimer.2.1 := rfl
  unfold PollFlagged Station.pollWait
  rw [hflag, hcount, htimer]
  cases i with
  | timeUpdate pins => exact fun _ => rfl
  | msoneProcess speedGear =>
      dsimp only
      intro hdue
      split_ifs at hdue ⊢ with hpoll
      · cases hdue
      · exact absurd ⟨ht hdue, by bv_omega⟩ hpoll
  | _ => exact ht

/-! ## The polls of the others -/

section Polls

variable {s : Station} {i : Input} {k D : Nat}

/-- The next call of `main_msone_process` polls. -/
def PollDue (s : Station) : Prop := s.main.msoneFlag = true ∧ 500 < s.modbus.freqCheckCnt

/-- The inverter it polls. -/
def Station.pollNext (s : Station) : U8 :=
  nextPoll s.logic.userParasLocal.beltNumber s.logic.pollingNum

/-- The polls of other inverters before the one of inverter `k`. -/
def pollsBefore (k : Nat) (s : Station) : Nat :=
  if s.logic.pollingNum.toNat < k then k - 1 - s.logic.pollingNum.toNat
  else s.beltNumber - s.logic.pollingNum.toNat + (k - 1)

theorem pollNext_toNat (h : s.logic.pollingNum.toNat ≤ 10) :
    s.pollNext.toNat =
      if s.beltNumber < s.logic.pollingNum.toNat + 1 then 1 else s.logic.pollingNum.toNat + 1 := by
  have hnum : (s.logic.pollingNum + 1).toNat = s.logic.pollingNum.toNat + 1 := by bv_omega
  have hlt : s.logic.userParasLocal.beltNumber < (s.logic.pollingNum + 1).setWidth 16 ↔
      s.beltNumber < s.logic.pollingNum.toNat + 1 := by
    rw [BitVec.lt_def, BitVec.toNat_setWidth_of_le (by decide), hnum]
    rfl
  unfold Station.pollNext nextPoll
  rw [if_congr hlt rfl rfl]
  split_ifs
  · rfl
  · exact hnum

/-- A poll of another inverter is one of those that come first. -/
theorem pollsBefore_next (h : s.logic.pollingNum.toNat ≤ 10) (hk : 1 ≤ k ∧ k ≤ s.beltNumber)
    (hother : s.pollNext.toNat ≠ k) {t : Station} (hbelts : t.beltNumber = s.beltNumber)
    (hnum : t.logic.pollingNum = s.pollNext) : pollsBefore k t < pollsBefore k s := by
  have hnext := pollNext_toNat h
  unfold pollsBefore
  rw [hnum, hbelts]
  split_ifs at hnext ⊢ <;> omega

theorem pollsBefore_lt (hk : 1 ≤ k ∧ k ≤ s.beltNumber) : pollsBefore k s < s.beltNumber := by
  unfold pollsBefore
  split_ifs <;> omega

theorem pollsBefore_congr {t : Station} (hbelts : t.beltNumber = s.beltNumber)
    (hnum : t.logic.pollingNum = s.logic.pollingNum) : pollsBefore k t = pollsBefore k s := by
  unfold pollsBefore
  rw [hbelts, hnum]

/-- What ends the wait for the poll of inverter `k`: it is polled, `Belt_Number` is rewritten, or
the board is reset. -/
def PollSettled (k : Nat) (s : Station) (i : Input) : Prop :=
  ((∃ speedGear, i = .msoneProcess speedGear) ∧ PollDue s ∧ s.pollNext.toNat = k) ∨
    (step s i).beltNumber ≠ s.beltNumber ∨ (step s i).systemReset = true

/-- The count of the polls stays below `c` and the ticks since the last call. -/
structure PollCount (c k : Nat) (lag : Nat) (s : Station) : Prop where
  reach : Reachable (fun _ _ => True) s
  running : s.systemReset = false
  belt : 1 ≤ k ∧ k ≤ s.beltNumber
  count : s.modbus.freqCheckCnt.toNat ≤ c + lag

theorem PollCount.next {c lag : Nat} (h : PollCount c k lag s) (lag' : Nat)
    (hnot : ¬ PollSettled k s i) (hcount : (step s i).modbus.freqCheckCnt.toNat ≤ c + lag') :
    PollCount c k lag' (step s i) ∧ (step s i).beltNumber = s.beltNumber := by
  have hbelts : (step s i).beltNumber = s.beltNumber := by
    by_contra hne
    exact hnot (Or.inr (Or.inl hne))
  have hrun : (step s i).systemReset = false := by
    simpa using fun hreset => hnot (Or.inr (Or.inr hreset))
  exact ⟨⟨Reach.next h.reach trivial, hrun, by rw [hbelts]; exact h.belt, hcount⟩, hbelts⟩

/-- **The polls are a periodic obligation** of `main_msone_process`. -/
theorem poll_periodic {c : Nat} (hc : 500 ≤ c ∧ c + D < 2 ^ 16) (k : Nat) :
    Periodic step pollPace D 501 (fun lag (_ : Unit) s => PollCount c k lag s)
      Station.pollWait (fun _ => pollsBefore k) (PollSettled k) where
  tick := by
    intro lag _ s i hrel hlag hpace hnot
    have htimer := step_pollTimer hrel.running i
    obtain ⟨pins, rfl⟩ : ∃ pins, i = .timeUpdate pins := by
      cases i with
      | timeUpdate pins => exact ⟨pins, rfl⟩
      | _ => cases hpace
    have hfreq : (step s (.timeUpdate pins)).modbus.freqCheckCnt = s.modbus.freqCheckCnt + 1 :=
      congrArg (fun t => t.2.1) htimer
    have hnum : (step s (.timeUpdate pins)).logic.pollingNum = s.logic.pollingNum :=
      congrArg (fun t => t.2.2) htimer
    have hcount := hrel.count
    obtain ⟨hnext, hbelts⟩ := hrel.next (lag + 1) hnot (by rw [hfreq]; bv_omega)
    refine ⟨(), hnext, ?_, (pollsBefore_congr hbelts hnum).le⟩
    unfold Station.pollWait
    rw [hfreq]
    bv_omega
  serve := by
    intro lag _ s i hrel hpace hnot
    have htimer := step_pollTimer hrel.running i
    obtain ⟨speedGear, rfl⟩ : ∃ speedGear, i = .msoneProcess speedGear := by
      cases i with
      | msoneProcess speedGear => exact ⟨speedGear, rfl⟩
      | _ => cases hpace
    have hflagged := reachable_pollFlagged hrel.reach
    have hpolling := (reachable_alive hrel.reach).range.polling
    dsimp only at htimer
    by_cases hdue : PollDue s
    · have htimer := htimer.trans (if_pos hdue)
      have hfreq : (step s (.msoneProcess speedGear)).modbus.freqCheckCnt = 0 :=
        congrArg (fun t => t.2.1) htimer
      have hnum : (step s (.msoneProcess speedGear)).logic.pollingNum = s.pollNext :=
        congrArg (fun t => t.2.2) htimer
      obtain ⟨hnext, hbelts⟩ := hrel.next 0 hnot (by rw [hfreq]; exact Nat.zero_le _)
      have hother : s.pollNext.toNat ≠ k := fun hk => hnot (Or.inl ⟨⟨_, rfl⟩, hdue, hk⟩)
      have hwait : (step s (.msoneProcess speedGear)).pollWait ≤ 501 := Nat.sub_le _ _
      have hfewer := pollsBefore_next hpolling hrel.belt hother hbelts hnum
      refine ⟨(), hnext, fun _ => ⟨hwait, hfewer⟩, fun hearly => ?_⟩
      obtain ⟨-, hover⟩ := hdue
      unfold Station.pollWait at hearly
      exact absurd (by bv_omega) hearly
    · have htimer := htimer.trans (if_neg hdue)
      have hfreq : (step s (.msoneProcess speedGear)).modbus.freqCheckCnt = s.modbus.freqCheckCnt :=
        congrArg (fun t => t.2.1) htimer
      have hnum : (step s (.msoneProcess speedGear)).logic.pollingNum = s.logic.pollingNum :=
        congrArg (fun t => t.2.2) htimer
      have hlow : s.pollWait ≠ 0 := by
        intro hzero
        refine hdue ⟨hflagged hzero, ?_⟩
        unfold Station.pollWait at hzero
        bv_omega
      have hle : s.modbus.freqCheckCnt.toNat ≤ 500 := by
        unfold Station.pollWait at hlow
        omega
      obtain ⟨hnext, hbelts⟩ := hrel.next 0 hnot (by rw [hfreq]; omega)
      refine ⟨(), hnext, fun hzero => absurd hzero hlow, fun _ => ⟨?_, ?_⟩⟩
      · unfold Station.pollWait
        rw [hfreq]
      · exact (pollsBefore_congr hbelts hnum).le
  other := by
    intro lag _ s i charge hrel hpace hnot
    have htimer : (step s i).clock.pollTimer = s.clock.pollTimer := by
      have hstep := step_pollTimer hrel.running i
      cases i with
      | timeUpdate pins => cases hpace
      | msoneProcess speedGear => cases hpace
      | _ => exact hstep
    have hfreq : (step s i).modbus.freqCheckCnt = s.modbus.freqCheckCnt :=
      congrArg (fun t => t.2.1) htimer
    have hnum : (step s i).logic.pollingNum = s.logic.pollingNum :=
      congrArg (fun t => t.2.2) htimer
    obtain ⟨hnext, hbelts⟩ := hrel.next lag hnot (by rw [hfreq]; exact hrel.count)
    refine ⟨(), hnext, ?_, (pollsBefore_congr hbelts hnum).le⟩
    unfold Station.pollWait
    rw [hfreq]

/-! ## Each inverter gets its poll -/

/-- The step puts the read request to inverter `k` on the RS-485 bus. -/
def ReadsStatus (k : Nat) (s : Station) (i : Input) : Prop :=
  (step s i).trace = .modbusTx (readRegFrame (BitVec.ofNat 16 k) 0x7200 7) :: s.trace

/-- A sent poll is a read request. -/
theorem SendsNode.readsStatus {num : U8} {speedGear : U16}
    (h : SendsNode (pollNode num speedGear) s i) : ReadsStatus num.toNat s i := by
  obtain ⟨hflight, stack, frame, built, -, hbuild, htrace⟩ := h
  have hnode : s.logic.commNode = { pollNode num speedGear with commInterval := 0 } := by
    unfold Station.inFlight at hflight
    split_ifs at hflight
    exact Option.some.inj hflight
  have hno : s.logic.commNode.inverterNo = BitVec.ofNat 16 num.toNat := by
    rw [hnode]
    exact BitVec.eq_of_toNat_eq (by simp [pollNode])
  have hframe : frame = readRegFrame (BitVec.ofNat 16 num.toNat) 0x7200 7 := by
    have hread : s.logic.commNode.rwFlag = 0 := by rw [hnode]; rfl
    unfold commBuildFrame at hbuild
    dsimp only at hbuild
    rw [if_pos hread, hno] at hbuild
    exact (Prod.mk.inj (Option.some.inj hbuild)).1.symm
  unfold ReadsStatus
  rw [htrace, hframe]

/-- `main_msone_process` is called with the poll due, and it is the turn of inverter `k`.  If
there is room, its poll goes behind what waits, and the read request is sent within the time the
master needs for the queue, unless a stop command empties the queue or the board is reset. -/
structure PollsInverter (k : Nat) (s : Station) (i : Input) : Prop where
  call : ∃ speedGear, i = .msoneProcess speedGear
  due : PollDue s
  turn : s.pollNext.toNat = k
  counted : (step s i).logic.pollingNum = s.pollNext
  queued : s.uartNodes.length < 29 →
    ∃ speedGear, (step s i).uartNodes = s.uartNodes ++ [pollNode s.pollNext speedGear]
  sent : s.uartNodes.length < 29 → ∀ {D : Nat} {is : List Input}, CommPrompt D is →
    masterWork D (step s i).uartNodes (step s i) + byteDelays is + D < milliseconds is →
    Somewhere step
      (fun t j => ReadsStatus k t j ∨ Emptied t (step t j) ∨ (step t j).systemReset = true)
      (step s i) is

theorem pollsInverter_of_due (hs : Reachable (fun _ _ => True) s) (hrun : s.systemReset = false)
    (hdue : PollDue s) (speedGear : U16) :
    PollsInverter s.pollNext.toNat s (.msoneProcess speedGear) := by
  have hstep : step s (.msoneProcess speedGear) = mainMsoneProcess speedGear s :=
    if_neg (by rw [hrun]; decide)
  have hpoll : (mainMsoneProcess speedGear s).logic.pollingNum = s.pollNext ∧
      (mainMsoneProcess speedGear s).logic.uartSendQueue =
        s.logic.uartSendQueue.add (pollNode s.pollNext speedGear) := by
    unfold mainMsoneProcess
    rw [if_pos hdue.1]
    dsimp only
    rw [if_pos hdue.2]
    exact ⟨rfl, rfl⟩
  obtain ⟨hnum, hqueue⟩ := hpoll
  rw [← hstep] at hnum hqueue
  have hnext : Reachable (fun _ _ => True) (step s (.msoneProcess speedGear)) :=
    Reach.next hs trivial
  have hnodes : s.uartNodes.length < 29 → (step s (.msoneProcess speedGear)).uartNodes =
      s.uartNodes ++ [pollNode s.pollNext speedGear] := by
    intro hroom
    unfold Station.uartNodes at hroom ⊢
    rw [hqueue, RingFifo.contents_add_eq, if_pos (by omega)]
  refine
    { call := ⟨speedGear, rfl⟩
      due := hdue
      turn := rfl
      counted := hnum
      queued := fun hroom => ⟨speedGear, hnodes hroom⟩
      sent := fun hroom _ _ hprompt hlong => ?_ }
  obtain ⟨js, j, ks, hsplit, hserved⟩ :=
    somewhere_iff.mp (queued_command_served hnext (hnodes hroom) hprompt hlong)
  exact somewhere_iff.mpr ⟨js, j, ks, hsplit, hserved.imp_left fun hsends => hsends.readsStatus⟩

/-- **Every inverter is polled.**  In a run that calls `main_msone_process` at least once in `D`
milliseconds, the turn of each inverter of the station comes within as many half seconds, and as
many delays of the main loop, as it has inverters, unless `Belt_Number` is rewritten or the board
is reset; and the inverter is then sent its read request. -/
theorem inverter_polled (hs : Reachable (fun _ _ => True) s) (hk : 1 ≤ k ∧ k ≤ s.beltNumber)
    (hD : 500 + D < 2 ^ 16) (hcount : s.modbus.freqCheckCnt.toNat + D < 2 ^ 16) {is : List Input}
    (hprompt : PollPrompt D is) (hlong : s.beltNumber * (501 + D) + D < milliseconds is) :
    Somewhere step
      (fun t i => PollsInverter k t i ∨ (step t i).beltNumber ≠ t.beltNumber ∨
        (step t i).systemReset = true) s is := by
  obtain ⟨htime, hcharges⟩ := pollPace_time is
  by_cases hreset : s.systemReset = true
  · cases is with
    | nil => exact absurd hlong (Nat.not_lt_zero _)
    | cons i is =>
        have hsame : step s i = s := if_pos hreset
        exact Or.inl (Or.inr (Or.inr (by rwa [hsame])))
  have hrounds : (pollsBefore k s + 1) * (501 + D) ≤ s.beltNumber * (501 + D) :=
    Nat.mul_le_mul_right _ (pollsBefore_lt hk)
  have hstart : PollCount (max 500 s.modbus.freqCheckCnt.toNat) k 0 s :=
    ⟨hs, by simpa using hreset, hk, Nat.le_max_right _ _⟩
  have hsettled := (poll_periodic ⟨Nat.le_max_left _ _, by omega⟩ k).somewhere (g := ()) hstart
    (Nat.sub_le _ _) hprompt (by rw [htime, hcharges]; omega)
  obtain ⟨js, j, ks, hsplit, hmet⟩ := somewhere_iff.mp hsettled
  refine somewhere_iff.mpr ⟨js, j, ks, hsplit, ?_⟩
  have hthere : Reachable (fun _ _ => True) (run step s js) :=
    hs.run_of_along (Along.of_forall (fun _ _ => trivial) _ _)
  rcases hmet with ⟨⟨speedGear, rfl⟩, hdue, rfl⟩ | hrest
  · by_cases hstop : (run step s js).systemReset = true
    · have hsame : step (run step s js) (.msoneProcess speedGear) = run step s js := if_pos hstop
      exact Or.inr (Or.inr (by rwa [hsame]))
    · exact Or.inl (pollsInverter_of_due hthere (by simpa using hstop) hdue speedGear)
  · exact Or.inr hrest

end Polls

/-- So many milliseconds with a call of `main_msone_process` behind each tick. -/
def polledRounds (n : Nat) : List Input :=
  (List.replicate n [.timeUpdate noInput, .msoneProcess 0]).flatten

theorem polledRounds_time (n : Nat) :
    milliseconds (polledRounds n) = n ∧ PollPrompt 1 (polledRounds n) := by
  refine ⟨(ticks_turns _ _ n).trans (Nat.mul_one n), prompt_turns ?_ n⟩
  exact fun is h => ⟨Nat.one_pos, h⟩

/-- The last of the three inverters of slave 2 is polled within 1600 ms. -/
theorem inverter_polled_startedBelts :
    Somewhere step
      (fun t i => PollsInverter 3 t i ∨ (step t i).beltNumber ≠ t.beltNumber ∨
        (step t i).systemReset = true) startedBelts (polledRounds 1600) := by
  obtain ⟨htime, hprompt⟩ := polledRounds_time 1600
  have hthree : startedBelts.beltNumber = 3 ∧ startedBelts.modbus.freqCheckCnt = 0 := by
    decide +kernel
  obtain ⟨hbelts, hcount⟩ := hthree
  refine inverter_polled startedBelts_reachable (by rw [hbelts]; decide) (by decide)
    (by rw [hcount]; decide) hprompt ?_
  rw [htime, hbelts]
  decide

end IotCtrl
