import IotCtrl.Panel
import IotCtrl.QuietTicks

/-!
# Restarts behind a reset

A reset starts a timer of 500 ms, the tick in which it expires sets `reset_start_flag`, and
`Reset_Start_Inverter_Handle` takes the flag and queues the stopped belts.  It returns before it
looks at the flag while the line is stopped, and so leaves a flag that was set at standstill for
the next start.

* `restarts_follow_expiries` — while no flag is set at standstill, every restart has an expiry of
  its own behind it at which the line ran;
* `standstill_reset_restarts` — a run in which the flag was set at standstill.
-/

namespace IotCtrl

open ByteMemory Transition

/-- The line runs: a gear is in force, and there are belts. -/
def LineRuns (s : Station) : Prop := s.logic.gSpeedGearStatus ≠ 0 ∧ s.beltNumber ≠ 0

instance (s : Station) : Decidable (LineRuns s) := inferInstanceAs (Decidable (_ ∧ _))

/-- The reset timer expires in the tick. -/
def Expires (e : Station × Input) : Prop :=
  match e.2 with
  | .timeUpdate _ => e.1.systemReset = false ∧ e.1.logic.resetStartTimeCnt = 1
  | _ => False

instance : DecidablePred Expires
  | (s, .timeUpdate _) =>
      inferInstanceAs (Decidable (s.systemReset = false ∧ s.logic.resetStartTimeCnt = 1))
  | (_, .usart1Irq _) | (_, .canFrame _) | (_, .udpReceive _ _) | (_, .udpClient _)
  | (_, .sendMessage) | (_, .secProcess _) | (_, .modbusComm _) | (_, .canSend _)
  | (_, .resetStart) | (_, .upstreamIo) | (_, .uploadRunState) | (_, .msoneProcess _) => isFalse id

/-- The step executes the part of `Reset_Start_Inverter_Handle` behind its three tests. -/
def Executes (e : Station × Input) : Prop :=
  match e.2 with
  | .resetStart => e.1.systemReset = false ∧ Restarts e.1
  | _ => False

instance : DecidablePred Executes
  | (s, .resetStart) => inferInstanceAs (Decidable (s.systemReset = false ∧ Restarts s))
  | (_, .timeUpdate _) | (_, .usart1Irq _) | (_, .canFrame _) | (_, .udpReceive _ _)
  | (_, .udpClient _) | (_, .sendMessage) | (_, .secProcess _) | (_, .modbusComm _)
  | (_, .canSend _) | (_, .upstreamIo) | (_, .uploadRunState) | (_, .msoneProcess _) => isFalse id

theorem executes_iff {s : Station} {i : Input} :
    Executes (s, i) ↔ i = .resetStart ∧ s.systemReset = false ∧ Restarts s := by
  cases i with
  | resetStart => exact (and_iff_right rfl).symm
  | _ => exact iff_of_false id fun h => nomatch h.1

/-- The expiry has set the flag, and the line ran. -/
structure RunningExpiry (e : Station × Input) : Prop where
  expires : Expires e
  unset : e.1.logic.resetStartFlag = false
  runs : LineRuns e.1

/-- No flag is set at standstill. -/
def ExpiresRunning (s : Station) (i : Input) : Prop :=
  Expires (s, i) → s.logic.resetStartFlag = false → LineRuns s

instance (s : Station) (i : Input) : Decidable (ExpiresRunning s i) :=
  inferInstanceAs (Decidable (_ → _))

/-- Without an execution the handler does nothing. -/
theorem step_resetStart_idle {s : Station} (h : ¬ Executes (s, .resetStart)) :
    step s .resetStart = s := by
  by_cases hreset : s.systemReset = true
  · exact if_pos hreset
  have hrun : s.systemReset = false := by simpa using hreset
  have hstep : step s .resetStart = resetStartInverterHandle s := if_neg hreset
  have hnot : ¬ Restarts s := fun hrestarts => h ⟨hrun, hrestarts⟩
  rw [hstep]
  unfold resetStartInverterHandle
  by_cases hbelts : s.beltNumber = 0
  · rw [if_pos hbelts]
  by_cases hgear : s.logic.gSpeedGearStatus = 0
  · rw [if_neg hbelts, if_pos hgear]
  rw [if_neg hbelts, if_neg hgear, if_pos fun hflag => hnot ⟨hbelts, hgear, hflag⟩]

/-- The flag was set by an expiry behind the last execution, with the line running. -/
def FlagCaused (past : Past) (s : Station) : Prop :=
  s.logic.resetStartFlag = true → ∃ e ∈ since Executes past, RunningExpiry e

/-- A flag that was set stays as it is. -/
theorem FlagCaused.keep {past : Past} {s : Station} {e : Station × Input} (h : FlagCaused past s)
    (hnot : ¬ Executes e) (hset : s.logic.resetStartFlag = true) :
    ∃ x ∈ since Executes (e :: past), RunningExpiry x := by
  obtain ⟨x, hx, hexpiry⟩ := h hset
  rw [since_cons_not hnot]
  exact ⟨x, List.mem_cons_of_mem _ hx, hexpiry⟩

/-- The flag behind the countdown of the timer. -/
theorem countReset_flag (p : Panel) : p.countReset.resetStartFlag = true ↔
    p.resetStartFlag = true ∨ p.resetStartTimeCnt = 1 := by
  have hone : p.resetStartTimeCnt - 1 = 0 ↔ p.resetStartTimeCnt = 1 := by bv_omega
  unfold Panel.countReset
  split_ifs with hcount hlast
  · exact iff_of_true rfl (Or.inr (hone.mp hlast))
  · exact (or_iff_left fun h => hlast (hone.mpr h)).symm
  · exact (or_iff_left fun h => hcount (by rw [h]; decide)).symm

theorem step_flagCaused {past : Past} {s : Station} {i : Input} (h : FlagCaused past s)
    (hok : ExpiresRunning s i) : FlagCaused ((s, i) :: past) (step s i) := by
  have hpanel := step_panel s i
  have hflag : (step s i).logic.resetStartFlag = (step s i).panel.resetStartFlag := rfl
  unfold FlagCaused
  rw [hflag]
  generalize (step s i).panel = q at hpanel ⊢
  intro hset
  cases hpanel with
  | tick pins hrun =>
      have htick : (s.panel.tick pins s.beltNumber).resetStartFlag =
          s.panel.countReset.resetStartFlag := by
        unfold Panel.tick
        split_ifs <;> rfl
      rw [htick, countReset_flag] at hset
      by_cases hbefore : s.logic.resetStartFlag = true
      · exact h.keep id hbefore
      · have hexpires : Expires (s, .timeUpdate pins) := ⟨hrun, hset.resolve_left hbefore⟩
        have hunset : s.logic.resetStartFlag = false := by simpa using hbefore
        rw [since_cons_not id]
        exact ⟨_, List.mem_cons_self, hexpires, hunset, hok hexpires hunset⟩
  | restart hrun hrestarts => cases hset
  | stopped i hreset =>
      refine h.keep (fun hexec => ?_) hset
      rw [(executes_iff.mp hexec).2.1] at hreset
      cases hreset
  | byte | check | comm => exact h.keep id hset
  | reset i hresets htick =>
      refine h.keep (fun hexec => ?_) hset
      obtain ⟨rfl, -⟩ := executes_iff.mp hexec
      exact hresets.2
  | other i htick hresets hcheck hrestart =>
      refine h.keep (fun hexec => ?_) hset
      obtain ⟨hi, -, hrestarts⟩ := executes_iff.mp hexec
      exact hrestart hi hrestarts

/-- **Restarts follow expiries.**  In every run that sets no flag at standstill, each execution
has an expiry behind it, later than the execution before, that has set the flag while the line
ran; without an execution the handler queues nothing. -/
theorem restarts_follow_expiries {past : Past} {s : Station} (h : Trails ExpiresRunning past s) :
    (Executes (s, .resetStart) → ∃ e ∈ since Executes past, RunningExpiry e) ∧
      (¬ Executes (s, .resetStart) → step s .resetStart = s) := by
  have hinv : FlagCaused past s := by
    refine h.invariant (I := FlagCaused) ?_ fun past s i hcaused hok => step_flagCaused hcaused hok
    rintro _ ⟨flash, localStation, rfl⟩ hset
    have hpanel := congrArg Panel.resetStartFlag (boot_panel flash localStation)
    have hunset : (boot flash localStation).logic.resetStartFlag = false := hpanel
    rw [hunset] at hset
    cases hset
  exact ⟨fun hexec => hinv (executes_iff.mp hexec).2.2.2.2, step_resetStart_idle⟩

/-! ## Two restarts -/

instance (s : Station) : Decidable (Waiting s) := inferInstanceAs (Decidable (Resting _))

/-- The milliseconds before the timer expires. -/
theorem reachable_waitingTicks {ok : Station → Input → Prop} {s : Station} (h : Reachable ok s)
    (hwait : Waiting s) (hcount : Counting s) {n : Nat} (hn : n < s.logic.resetStartTimeCnt.toNat)
    (hok : ∀ m, m < n → ok (lowerReset m (coast m s)) (.timeUpdate noInput)) :
    Reachable ok (lowerReset n (coast n s)) := by
  induction n with
  | zero =>
      rw [← run_waitingTicks hwait hcount hn]
      exact h
  | succ n ih =>
      have hlast : lowerReset (n + 1) (coast (n + 1) s) =
          step (lowerReset n (coast n s)) (.timeUpdate noInput) := by
        have hticks : idleTicks (n + 1) = idleTicks n ++ [.timeUpdate noInput] :=
          List.replicate_succ'
        rw [← run_waitingTicks hwait hcount hn, hticks, run_append,
          run_waitingTicks hwait hcount (by omega)]
        rfl
      rw [hlast]
      exact Reach.next (ih (by omega) fun m hm => hok m (by omega)) (hok n (by omega))

/-- The timer does not expire before its last millisecond. -/
theorem expiresRunning_waiting {s : Station} {m : Nat}
    (hm : m + 1 < s.logic.resetStartTimeCnt.toNat) :
    ExpiresRunning (lowerReset m (coast m s)) (.timeUpdate noInput) := by
  rintro ⟨-, hone⟩
  have hleft : s.logic.resetStartTimeCnt - BitVec.ofNat 16 m = 1 := hone
  bv_omega

/-- Slave 2 is started and then reset; the timer has a millisecond left. -/
def runningReset : Station :=
  run step (boot oneBeltFlash 2) [.canFrame (startFrame 2), .canFrame resetFrame]

def runningExpiring : Station := lowerReset 499 (coast 499 runningReset)

/-- The timer has expired while the line runs. -/
theorem running_reset_restarts :
    Executes (step runningExpiring (.timeUpdate noInput), .resetStart) ∧
      ∃ past, Trails ExpiresRunning past (step runningExpiring (.timeUpdate noInput)) ∧
        ∃ e ∈ since Executes past, RunningExpiry e := by
  have hstart : (Waiting runningReset ∧ Counting runningReset) ∧
      runningReset.logic.resetStartTimeCnt = 500 ∧
      Along step ExpiresRunning (boot oneBeltFlash 2)
        [.canFrame (startFrame 2), .canFrame resetFrame] := by
    decide +kernel
  obtain ⟨⟨hwait, hcount⟩, htimer, hok⟩ := hstart
  have htimer' : runningReset.logic.resetStartTimeCnt.toNat = 500 := by rw [htimer]; rfl
  have hreset : Reachable ExpiresRunning runningReset := reach_run ⟨_, _, rfl⟩ hok
  have hreach : Reachable ExpiresRunning runningExpiring :=
    reachable_waitingTicks hreset hwait hcount (by omega)
      fun m hm => expiresRunning_waiting (by omega)
  have hend : ExpiresRunning runningExpiring (.timeUpdate noInput) ∧
      Executes (step runningExpiring (.timeUpdate noInput), .resetStart) := by
    decide +kernel
  obtain ⟨past, hpast⟩ := (Reach.next hreach hend.1).trail
  exact ⟨hend.2, past, hpast, (restarts_follow_expiries hpast).1 hend.2⟩

/-- Slave 2 is reset at standstill. -/
def standstillReset : Station := run step (boot oneBeltFlash 2) [.canFrame resetFrame]

/-- The timer has expired, and the line is started. -/
def startedLater : Station :=
  run step (lowerReset 499 (coast 499 standstillReset))
    [.timeUpdate noInput, .canFrame (startFrame 2)]

/-- The start is followed by a restart, though the line ran at no expiry before. -/
theorem standstill_reset_restarts :
    ∃ past, Trails (fun _ _ => True) past startedLater ∧ Executes (startedLater, .resetStart) ∧
      (step startedLater .resetStart).uartNodes ≠ startedLater.uartNodes ∧
      ∀ e ∈ past, ¬ LineRuns e.1 := by
  have hstart : (Waiting standstillReset ∧ Counting standstillReset) ∧
      (standstillReset.logic.resetStartTimeCnt = 500 ∧
        standstillReset.logic.gSpeedGearStatus = 0) ∧
      Along step (fun s _ => ¬ LineRuns s) (boot oneBeltFlash 2) [.canFrame resetFrame] := by
    decide +kernel
  obtain ⟨⟨hwait, hcount⟩, ⟨htimer, hgear⟩, hok⟩ := hstart
  have htimer' : standstillReset.logic.resetStartTimeCnt.toNat = 500 := by rw [htimer]; rfl
  have hreset : Reachable (fun s _ => ¬ LineRuns s) standstillReset := reach_run ⟨_, _, rfl⟩ hok
  have hreach : Reachable (fun s _ => ¬ LineRuns s) (lowerReset 499 (coast 499 standstillReset)) :=
    reachable_waitingTicks hreset hwait hcount (by omega) fun m hm hruns => hruns.1 hgear
  have hend : Along step (fun s _ => ¬ LineRuns s) (lowerReset 499 (coast 499 standstillReset))
        [.timeUpdate noInput, .canFrame (startFrame 2)] ∧
      Executes (startedLater, .resetStart) ∧
      (step startedLater .resetStart).uartNodes ≠ startedLater.uartNodes := by
    decide +kernel
  obtain ⟨past, hpast⟩ := (Reach.run_of_along hreach hend.1).trail
  exact ⟨past, hpast.mono fun _ _ _ => trivial, hend.2.1, hend.2.2, hpast.allowed⟩

end IotCtrl
