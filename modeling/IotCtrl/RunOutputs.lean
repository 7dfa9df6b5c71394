import IotCtrl.AnswerBuffer
import IotCtrl.PollStatus

/-!
# The run outputs

Output `B_RUN_k` is driven when a write to inverter `k` is acknowledged, from the one flag
`g_speed_set_sta` that the last speed write on the bus has left.  A fault reset is acknowledged
by the same branch, with the flag of an older write.

* `frameReg`, `RunsBelt` — the registers of a speed write, and whether it lets a belt run;
* `outputs_follow_speed_writes` — while no fault reset finds another state in the flag, an
  output tells whether the last acknowledged speed write was a run command;
* `reset_drives_output` — a fault reset that does.
-/

namespace IotCtrl

open ByteMemory Transition ClosedFacts

/-! ## Speed writes on the bus -/

/-- Register `k` of a multi-register write. -/
def frameReg (frame : List U8) (k : Nat) : U16 :=
  le16 (frame.getD (8 + 2 * k) 0) (frame.getD (7 + 2 * k) 0)

/-- The frequency of a speed write: register 1 or 2, by the switch in register 3. -/
def frameFreq (frame : List U8) : U16 :=
  if frameReg frame 3 ≠ 0 then frameReg frame 1 else frameReg frame 2

/-- A run command with a frequency. -/
def RunsBelt (frame : List U8) : Prop := IsRunFrame frame ∧ frameFreq frame ≠ 0

instance (frame : List U8) : Decidable (RunsBelt frame) := inferInstanceAs (Decidable (_ ∧ _))

section Frame

variable (no a b c d : U16)

@[simp] theorem frameReg_write_zero :
    frameReg (writeMultiRegFrame no 0x7000 [a, b, c, d]) 0 = a := le16_lo_hi a

@[simp] theorem frameReg_write_one :
    frameReg (writeMultiRegFrame no 0x7000 [a, b, c, d]) 1 = b := le16_lo_hi b

@[simp] theorem frameReg_write_two :
    frameReg (writeMultiRegFrame no 0x7000 [a, b, c, d]) 2 = c := le16_lo_hi c

@[simp] theorem frameReg_write_three :
    frameReg (writeMultiRegFrame no 0x7000 [a, b, c, d]) 3 = d := le16_lo_hi d

theorem isRunFrame_write_iff :
    IsRunFrame (writeMultiRegFrame no 0x7000 [a, b, c, d]) ↔ a = 1 := by
  refine ⟨isRunFrame_write, fun h => ?_⟩
  have hhead : [0x10, hi 0x7000, lo 0x7000, hi 4, lo 4, lo 8, hi (1 : U16), lo 1] =
      [0x10, 0x70, 0x00, 0x00, 0x04, 0x08, 0x00, 0x01] := by decide
  rw [h]
  exact hhead

theorem runsBelt_write_iff :
    RunsBelt (writeMultiRegFrame no 0x7000 [a, b, c, d]) ↔
      a = 1 ∧ (if d ≠ 0 then b else c) ≠ 0 := by
  unfold RunsBelt frameFreq
  rw [isRunFrame_write_iff, frameReg_write_one, frameReg_write_two, frameReg_write_three]

end Frame

/-- What the stack holds as the frequency of a belt. -/
def stackFreq (stack : Table 4 U16) (belt : BeltParas) : U16 :=
  if belt.funcSelectSwitch &&& 0x1 ≠ 0 then stack.get 1 else stack.get 2

/-- A gear above 6 writes what the stack holds; this is a run command, or has no frequency. -/
def GearKnown (stack : Table 4 U16) (s : Station) : Prop :=
  s.logic.bEmergencyInfo.inputState = false → 6 < s.logic.commNode.speedGear →
    stack.get 0 = 1 ∨ stackFreq stack (commBelt s) = 0

instance (stack : Table 4 U16) (s : Station) : Decidable (GearKnown stack s) :=
  inferInstanceAs (Decidable (_ → _))

/-- A speed write of the command in flight is a stop, whatever its gear. -/
def WritesStop (s : Station) : Prop :=
  s.logic.bEmergencyInfo.inputState = true ∨ s.logic.commNode.speedGear = 0

instance (s : Station) : Decidable (WritesStop s) := inferInstanceAs (Decidable (_ ∨ _))

theorem speedRegs_cases (belt : BeltParas) (command freq : U16) :
    ∃ b c, speedRegs belt command freq = [command, b, c] := by
  unfold speedRegs
  split_ifs
  · exact ⟨_, _, rfl⟩
  · exact ⟨_, _, rfl⟩

/-- The three registers of a speed write: a stop, a run, or what the stack holds. -/
theorem speedWriteData_cases (stack : Table 4 U16) (s : Station) :
    ∃ a b c, speedWriteData stack s = [a, b, c] ∧ (WritesStop s → a = 5) ∧
      (¬ WritesStop s → a = 1 ∨
        6 < s.logic.commNode.speedGear ∧ [a, b, c] = [stack 0, stack 1, stack 2]) := by
  have hstop := speedRegs_cases (s.belt (s.logic.commNode.inverterNo.toNat - 1)) 5
    (s.modbus.stopspeedDefault.get (s.logic.commNode.inverterNo.toNat - 1))
  unfold speedWriteData
  dsimp only
  by_cases hem : s.logic.bEmergencyInfo.inputState = true
  · obtain ⟨b, c, hdata⟩ := hstop
    rw [if_pos hem]
    exact ⟨5, b, c, hdata, fun _ => rfl, fun h => absurd (Or.inl hem) h⟩
  by_cases hgear : s.logic.commNode.speedGear = 0
  · obtain ⟨b, c, hdata⟩ := hstop
    rw [if_neg hem, if_pos hgear]
    exact ⟨5, b, c, hdata, fun _ => rfl, fun h => absurd (Or.inr hgear) h⟩
  have hruns : ¬ WritesStop s := not_or.mpr ⟨hem, hgear⟩
  rw [if_neg hem, if_neg hgear]
  cases hfreq : gearFreq (s.belt (s.logic.commNode.inverterNo.toNat - 1))
      s.logic.commNode.speedGear with
  | some freq =>
      obtain ⟨b, c, hdata⟩ :=
        speedRegs_cases (s.belt (s.logic.commNode.inverterNo.toNat - 1)) 1 freq
      exact ⟨1, b, c, hdata, fun h => absurd h hruns, fun _ => Or.inl rfl⟩
  | none =>
      refine ⟨_, _, _, rfl, fun h => absurd h hruns, fun _ => Or.inr ⟨?_, rfl⟩⟩
      unfold gearFreq at hfreq
      split_ifs at hfreq
      bv_omega

/-- The frame of a speed write. -/
theorem commBuildFrame_speed {stack : Table 4 U16} {s t : Station} {frame : List U8}
    (h : commBuildFrame stack s = some (frame, t)) (hspeed : s.logic.commNode.rwFlag = 1) :
    frame = writeMultiRegFrame s.logic.commNode.inverterNo 0x7000
        (speedWriteData stack s ++ [(commBelt s).funcSelectSwitch &&& 0x1]) ∧
      t = rememberStopSpeed s := by
  unfold commBuildFrame at h
  dsimp only at h
  rw [if_neg (by rw [hspeed]; decide), if_pos hspeed] at h
  obtain ⟨hframe, ht⟩ := Prod.mk.inj (Option.some.inj h)
  exact ⟨hframe.symm, ht.symm⟩

/-- **The flag tells what the frame says.** -/
theorem speedSetSta_iff {stack : Table 4 U16} {s t : Station} {frame : List U8}
    (h : commBuildFrame stack s = some (frame, t)) (hspeed : s.logic.commNode.rwFlag = 1)
    (hknown : GearKnown stack s) :
    speedSetSta (commBelt s) (speedWriteData stack s) s = true ↔ RunsBelt frame := by
  obtain ⟨a, b, c, hdata, hstops, hruns⟩ := speedWriteData_cases stack s
  obtain ⟨rfl, -⟩ := commBuildFrame_speed h hspeed
  have hsta : speedSetSta (commBelt s) [a, b, c] s =
      if WritesStop s then false
      else if (commBelt s).funcSelectSwitch &&& 0x1 ≠ 0 then b != 0 else c != 0 := if_pos hspeed
  rw [hdata, hsta, List.cons_append, List.cons_append, List.cons_append, List.nil_append,
    runsBelt_write_iff]
  by_cases hstop : WritesStop s
  · rw [if_pos hstop, hstops hstop]
    exact iff_of_false Bool.false_ne_true fun h => absurd h.1 (by decide)
  have hfreq : (if (commBelt s).funcSelectSwitch &&& 0x1 ≠ 0 then b != 0 else c != 0) = true ↔
      (if (commBelt s).funcSelectSwitch &&& 0x1 ≠ 0 then b else c) ≠ 0 := by
    split_ifs <;> exact bne_iff_ne
  rw [if_neg hstop, hfreq]
  refine ⟨fun hne => ⟨?_, hne⟩, fun h => h.2⟩
  rcases hruns hstop with hrun | ⟨hgear, hstack⟩
  · exact hrun
  · simp only [List.cons.injEq] at hstack
    obtain ⟨ha, hb, hc, -⟩ := hstack
    rw [hb, hc] at hne
    have hem : s.logic.bEmergencyInfo.inputState = false := by simpa using (not_or.mp hstop).1
    exact ha.trans ((hknown hem hgear).resolve_right hne)

/-! ## Acknowledged speed writes -/

/-- The step accepts the answer to a speed write to inverter `k`. -/
def AcksSpeed (k : Nat) (e : Station × Input) : Prop :=
  verdict e.1 e.2 = some true ∧ e.1.logic.commNode.rwFlag = 1 ∧
    e.1.logic.commNode.inverterNo.toNat = k

instance (k : Nat) : DecidablePred (AcksSpeed k) :=
  fun _ => inferInstanceAs (Decidable (_ ∧ _ ∧ _))

/-- The last speed write to inverter `k` that was acknowledged, the frame on the bus at that
time, was a run command with a frequency. -/
def LastAckRuns (k : Nat) (past : Past) : Prop :=
  ∃ e ∈ past.find? fun e => AcksSpeed k e, ∃ frame ∈ e.1.frames.head?, RunsBelt frame

/-- A step that transmits a speed write writes known registers. -/
def WritesKnown (s : Station) : Input → Prop
  | .modbusComm stack =>
      s.logic.commBusyFlag = true → s.modbus.uart1CommuState = .sendData →
        s.logic.commNode.rwFlag = 1 → GearKnown stack s
  | _ => True

instance (s : Station) : (i : Input) → Decidable (WritesKnown s i)
  | .modbusComm stack =>
      inferInstanceAs (Decidable (s.logic.commBusyFlag = true →
        s.modbus.uart1CommuState = .sendData → s.logic.commNode.rwFlag = 1 → GearKnown stack s))
  | .timeUpdate _ | .usart1Irq _ | .canFrame _ | .udpReceive _ _ | .udpClient _ | .sendMessage
  | .secProcess _ | .canSend _ | .resetStart | .upstreamIo | .uploadRunState
  | .msoneProcess _ => isTrue trivial

/-- What a step needs for the outputs to stay true: an acknowledged fault reset finds the
output of its inverter in the flag already, and the registers of a speed write are known. -/
structure OutputsTrue (s : Station) (i : Input) : Prop where
  reset : verdict s i = some true → s.logic.commNode.rwFlag = 2 →
    1 ≤ s.logic.commNode.inverterNo.toNat ∧ s.logic.commNode.inverterNo.toNat ≤ 5 →
    s.outs.bRunOut.get (s.logic.commNode.inverterNo.toNat - 1) = s.modbus.gSpeedSetSta
  gear : WritesKnown s i

theorem outputsTrue_iff (s : Station) (i : Input) : OutputsTrue s i ↔
    (verdict s i = some true → s.logic.commNode.rwFlag = 2 →
      1 ≤ s.logic.commNode.inverterNo.toNat ∧ s.logic.commNode.inverterNo.toNat ≤ 5 →
      s.outs.bRunOut.get (s.logic.commNode.inverterNo.toNat - 1) = s.modbus.gSpeedSetSta) ∧
    WritesKnown s i :=
  ⟨fun h => ⟨h.reset, h.gear⟩, fun h => ⟨h.1, h.2⟩⟩

instance (s : Station) (i : Input) : Decidable (OutputsTrue s i) :=
  decidable_of_iff' _ (outputsTrue_iff s i)

/-- The flag tells what the last frame says while its answer is open. -/
def FlagTrue (s : Station) : Prop :=
  s.logic.commBusyFlag = true → Listening s → s.logic.commNode.rwFlag = 1 →
    ∃ frame ∈ s.frames.head?, (s.modbus.gSpeedSetSta = true ↔ RunsBelt frame)

/-- A step that changes neither the attempt nor the flag. -/
theorem FlagTrue.of_sameFlight {s t : Station} (h : FlagTrue s) (hflight : SameFlight s t)
    (hsta : t.modbus.gSpeedSetSta = s.modbus.gSpeedSetSta) (hframes : t.frames = s.frames) :
    FlagTrue t := by
  intro hbusy hlisten hspeed
  obtain ⟨interval, hnode⟩ := hflight.node
  rw [hnode] at hspeed
  rw [hframes, hsta]
  exact h (hflight.busy.symm.trans hbusy) (hflight.listening.mp hlisten) hspeed

theorem step_flagTrue {s : Station} {i : Input} (h : FlagTrue s) (htimers : TimerInv s)
    (hok : OutputsTrue s i) : FlagTrue (step s i) := by
  have hmaster := step_master htimers i
  generalize step s i = t at hmaster ⊢
  cases hmaster with
  | beside i t hflight hwindow hbus hframes hdeaf hverdict =>
      exact h.of_sameFlight hflight hbus.sta hframes
  | byte tmp t hrun hrecv hflight hout hsta hbuff hcount hframes =>
      exact h.of_sameFlight hflight hsta hframes
  | take stack t hidle hready hbus hframes =>
      intro _ hlisten
      rcases hlisten with hlisten | hlisten <;> rw [hready] at hlisten <;> cases hlisten
  | send stack t frame built hrun hbusy hsend hbuild hnode hstate hout hsta hbuff hcount hframes =>
      intro _ _ hspeed
      rw [hnode] at hspeed
      rw [hframes, hsta]
      exact ⟨frame, rfl, speedSetSta_iff hbuild hspeed (hok.gear hbusy hsend hspeed)⟩
  | judge stack t hrun hbusy hend hopen hstate hout hsta hbuff hcount hframes =>
      intro hbusy' hlisten
      exact absurd hlisten (hopen hbusy')

/-- An answer is judged while its window is closed. -/
theorem verdict_open {s : Station} {i : Input} {answer : Bool} (h : verdict s i = some answer) :
    s.logic.commBusyFlag = true ∧ s.modbus.uart1CommuState = .recvDataEnd := by
  cases i with
  | modbusComm stack =>
      unfold verdict at h
      dsimp only at h
      split_ifs at h with hopen
      exact ⟨hopen.2.1, hopen.2.2⟩
  | _ => cases h

/-! ## The outputs -/

section Outputs

variable {k : Nat} {s : Station} {i : Input}

/-- A driven output takes the flag, and the others stay. -/
theorem drivenOut_get (hk : 1 ≤ k ∧ k ≤ 5) : (drivenOut s).get (k - 1) =
    if s.logic.commNode.inverterNo.toNat = k then s.modbus.gSpeedSetSta
    else s.outs.bRunOut.get (k - 1) := by
  unfold drivenOut
  by_cases hno : s.logic.commNode.inverterNo.toNat = k
  · rw [if_pos hno, hno, if_pos hk]
    exact Table.get_set_self _ (by omega) _
  · rw [if_neg hno]
    split_ifs
    · exact Table.get_set_ne _ (by omega) _
    · rfl

/-- What a step does to output `k`. -/
theorem step_output (hrange : RangeInv s) (htimers : TimerInv s) (hok : OutputsTrue s i)
    (hk : 1 ≤ k ∧ k ≤ 5) : (step s i).outs.bRunOut.get (k - 1) =
      if AcksSpeed k (s, i) then s.modbus.gSpeedSetSta else s.outs.bRunOut.get (k - 1) := by
  have hsame : ∀ t : Station, t.outs.bRunOut = s.outs.bRunOut → verdict s i = none →
      t.outs.bRunOut.get (k - 1) =
        if AcksSpeed k (s, i) then s.modbus.gSpeedSetSta else s.outs.bRunOut.get (k - 1) := by
    intro t hout hverdict
    rw [hout, if_neg]
    rintro ⟨haccepted, -⟩
    rw [hverdict] at haccepted
    cases haccepted
  have hmaster := step_master htimers i
  generalize step s i = t at hmaster ⊢
  cases hmaster with
  | beside i t hflight hwindow hbus hframes hdeaf hverdict => exact hsame t hbus.out hverdict
  | byte tmp t hrun hrecv hflight hout hsta hbuff hcount hframes => exact hsame t hout rfl
  | take stack t hidle hready hbus hframes => exact hsame t hbus.out (by simp [verdict, hidle])
  | send stack t frame built hrun hbusy hsend hbuild hnode hstate hout hsta hbuff hcount hframes =>
      exact hsame t hout (by simp [verdict, hsend])
  | judge stack t hrun hbusy hend hopen hstate hout hsta hbuff hcount hframes =>
      have hverdict : verdict s (.modbusComm stack) = some (accepts s) :=
        if_pos ⟨hrun, hbusy, hend⟩
      have hacks : AcksSpeed k (s, .modbusComm stack) ↔ accepts s = true ∧
          s.logic.commNode.rwFlag = 1 ∧ s.logic.commNode.inverterNo.toNat = k := by
        unfold AcksSpeed
        rw [hverdict, Option.some.injEq]
      have hkind := (hrange.flight _ (inFlight_of_busy hbusy)).rwFlag
      rw [hout, if_congr hacks rfl rfl]
      by_cases hdriven : accepts s = true ∧ s.logic.commNode.rwFlag ≠ 0
      · rw [if_pos hdriven, drivenOut_get hk]
        by_cases hno : s.logic.commNode.inverterNo.toNat = k
        · by_cases hspeed : s.logic.commNode.rwFlag = 1
          · rw [if_pos hno, if_pos ⟨hdriven.1, hspeed, hno⟩]
          · have hreset : s.logic.commNode.rwFlag = 2 := by
              have hpoll := hdriven.2
              bv_omega
            have hflag := hok.reset (hverdict.trans (congrArg some hdriven.1)) hreset (hno ▸ hk)
            rw [if_pos hno, if_neg fun h => hspeed h.2.1, ← hflag, hno]
        · rw [if_neg hno, if_neg fun h => hno h.2.2]
      · rw [if_neg hdriven, if_neg fun h => hdriven ⟨h.1, by rw [h.2.1]; decide⟩]

end Outputs

/-! ## Every run -/

section History

variable {k : Nat} {e : Station × Input} {past : Past}

theorem lastAckRuns_cons_of (h : AcksSpeed k e) :
    LastAckRuns k (e :: past) ↔ ∃ frame ∈ e.1.frames.head?, RunsBelt frame := by
  unfold LastAckRuns
  rw [List.find?_cons_of_pos (by simpa using h)]
  exact ⟨fun ⟨x, hx, hframe⟩ => Option.some.inj hx ▸ hframe, fun hframe => ⟨e, rfl, hframe⟩⟩

theorem lastAckRuns_cons_not (h : ¬ AcksSpeed k e) :
    LastAckRuns k (e :: past) ↔ LastAckRuns k past := by
  unfold LastAckRuns
  rw [List.find?_cons_of_neg (by simpa using h)]

end History

/-- **One step.** -/
theorem step_outputs {k : Nat} (hk : 1 ≤ k ∧ k ≤ 5) {past : Past} {s : Station} {i : Input}
    (h : s.outs.bRunOut.get (k - 1) = true ↔ LastAckRuns k past) (hflag : FlagTrue s)
    (hrange : RangeInv s) (htimers : TimerInv s) (hok : OutputsTrue s i) :
    (step s i).outs.bRunOut.get (k - 1) = true ↔ LastAckRuns k ((s, i) :: past) := by
  rw [step_output hrange htimers hok hk]
  by_cases hacks : AcksSpeed k (s, i)
  · have hverdict := hacks.1
    have hspeed := hacks.2.1
    obtain ⟨hbusy, hend⟩ := verdict_open hverdict
    obtain ⟨frame, hframe, hiff⟩ := hflag hbusy (Or.inr hend) hspeed
    rw [if_pos hacks, lastAckRuns_cons_of hacks, hiff]
    exact ⟨fun hruns => ⟨frame, hframe, hruns⟩,
      fun ⟨x, hx, hruns⟩ => Option.some.inj (hframe.symm.trans hx) ▸ hruns⟩
  · rw [if_neg hacks, lastAckRuns_cons_not hacks]
    exact h

/-- **Run outputs follow acknowledged speed writes.**  In every run whose fault resets and
registers are as they should be, output `k` is on exactly when the last speed write to inverter
`k` that was acknowledged was a run command with a frequency; nothing but the acknowledgement
of such a write changes it. -/
theorem outputs_follow_speed_writes {past : Past} {s : Station} (h : Trails OutputsTrue past s)
    {k : Nat} (hk : 1 ≤ k ∧ k ≤ 5) :
    (s.outs.bRunOut.get (k - 1) = true ↔ LastAckRuns k past) ∧
      ∀ i, OutputsTrue s i → ¬ AcksSpeed k (s, i) →
        (step s i).outs.bRunOut.get (k - 1) = s.outs.bRunOut.get (k - 1) := by
  have hinv : (s.outs.bRunOut.get (k - 1) = true ↔ LastAckRuns k past) ∧ FlagTrue s := by
    induction h with
    | start hboot =>
        obtain ⟨flash, localStation, rfl⟩ := hboot
        have hpanel := boot_panel flash localStation
        have hnode := (boot_keeps flash localStation).same .node (by decide)
        generalize boot flash localStation = s at hpanel hnode ⊢
        have hout : s.outs.bRunOut.get (k - 1) = false := by
          have hcleared : s.outs.bRunOut = fun _ => false := congrArg Panel.bRunOut hpanel
          rw [hcleared]
          exact dif_pos (by omega)
        have hidle : s.logic.commBusyFlag = false := (Prod.mk.inj hnode).2
        refine ⟨?_, fun hbusy => ?_⟩
        · rw [hout]
          exact iff_of_false Bool.false_ne_true fun ⟨_, hnone, _⟩ => nomatch hnone
        · rw [hidle] at hbusy
          cases hbusy
    | next h hok ih =>
        have htimers := reachable_timerInv h.reach
        exact ⟨step_outputs hk ih.1 ih.2 (reachable_rangeInv h.reach) htimers hok,
          step_flagTrue ih.2 htimers hok⟩
  refine ⟨hinv.1, fun i hok hacks => ?_⟩
  rw [step_output (reachable_rangeInv h.reach) (reachable_timerInv h.reach) hok hk, if_neg hacks]

/-! ## Two acknowledgements -/

/-- The answer to a write, until it is judged. -/
def writeAcked : List Input :=
  (withCrc [1, 0x10]).map Input.usart1Irq ++ idleTicks 5 ++ [.modbusComm fun _ => 0]

/-- Slave 2 is started, and its inverter acknowledges the first frame. -/
def acknowledged : Station := run step (boot speedFlash 2) (firstFrame ++ writeAcked)

def acknowledgedPast : Past := passed step [] (boot speedFlash 2) (firstFrame ++ writeAcked)

theorem acknowledged_start_runs :
    acknowledged.outs.bRunOut.get 0 = true ∧ LastAckRuns 1 acknowledgedPast := by
  have hruns : acknowledged.outs.bRunOut.get 0 = true ∧
      Along step OutputsTrue (boot speedFlash 2) (firstFrame ++ writeAcked) := by
    decide +kernel
  have htrail : Trails OutputsTrue acknowledgedPast acknowledged := trail_run ⟨_, _, rfl⟩ hruns.2
  exact ⟨hruns.1, (outputs_follow_speed_writes htrail (k := 1) (by decide)).1.mp hruns.1⟩

/-- An answer to a poll with fault code 5. -/
def faultAnswer : List U8 := withCrc ([1, 3, 14, 5] ++ List.replicate 13 0)

/-- Slave 2 is started, and its inverter answers no frame: a disturbed byte closes the
receive window of each. -/
def startUnanswered : List Input :=
  [.canFrame (startFrame 2), .modbusComm fun _ => 0] ++ idleTicks 1 ++ [.modbusComm fun _ => 0] ++
    (List.replicate 3 ([.usart1Irq 0] ++ idleTicks 5 ++ [.modbusComm fun _ => 0] ++
      idleTicks 20 ++ [.modbusComm fun _ => 0])).flatten ++
    [.usart1Irq 0] ++ idleTicks 5 ++ [.modbusComm fun _ => 0]

/-- A fault reset is transmitted and answered. -/
def resetAnswered : List Input :=
  [.canFrame resetFrame, .modbusComm fun _ => 0] ++ idleTicks 20 ++ [.modbusComm fun _ => 0] ++
    (withCrc [1, 0x10]).map Input.usart1Irq ++ idleTicks 5

/-- Slave 2 with a fault of its inverter, which answers polls and fault resets only. -/
def resetHeld : Station :=
  run step (step (awaiting faultAnswer (boot speedFlash 2)) (.modbusComm fun _ => 0))
    (startUnanswered ++ resetAnswered)

/-- The acknowledged fault reset switches output 1 on, though no speed write was ever
acknowledged. -/
theorem reset_drives_output :
    ∃ past, Trails (fun _ _ => True) past resetHeld ∧
      ¬ AcksSpeed 1 (resetHeld, .modbusComm fun _ => 0) ∧
      resetHeld.outs.bRunOut.get 0 = false ∧
      (step resetHeld (.modbusComm fun _ => 0)).outs.bRunOut.get 0 = true := by
  have hquiet : Resting (boot speedFlash 2) ∧ Counting (boot speedFlash 2) := by decide +kernel
  have hawaiting := reachable_awaiting (Reach.start ⟨_, _, rfl⟩) hquiet.1 hquiet.2 faultAnswer
  have hpolled := Reach.next hawaiting (i := .modbusComm fun _ => 0) trivial
  have hreach : Reachable (fun _ _ => True) resetHeld :=
    Reach.run_of_along hpolled (Along.of_forall (fun _ _ => trivial) _ _)
  obtain ⟨past, hpast⟩ := hreach.trail
  exact ⟨past, hpast, by decide +kernel⟩

end IotCtrl
