import IotCtrl.ParaLoads
import IotCtrl.RunOutputs

/-!
# The speed of a stop

A stop frame carries the speed that the belt was last told to run at.  `stopspeed_default`
keeps it: a run in gear 1 to 5 writes it, a load of the parameters resets it to gear 2.

* `lastSpeed` — the speed as the history of the bus tells it;
* `step_remembers` — one step;
* `stop_frames_keep_speed` — the stop frames of every run.
-/

namespace IotCtrl

open ByteMemory Transition ClosedFacts

/-- The step transmits a speed write to inverter `k`. -/
def WritesTo (k : Nat) (e : Station × Input) : Prop :=
  WritesSpeed e ∧ e.1.logic.commNode.inverterNo.toNat = k

/-- A speed write of the command in flight is a run in gear 1 to 5. -/
def WritesRun (s : Station) : Prop :=
  ¬ WritesStop s ∧ 1 ≤ s.logic.commNode.speedGear ∧ s.logic.commNode.speedGear ≤ 5

instance (k : Nat) : DecidablePred (WritesTo k) := fun _ => inferInstanceAs (Decidable (_ ∧ _))

instance : DecidablePred WritesRun := fun _ => inferInstanceAs (Decidable (_ ∧ _))

/-- The frame that a transmitting step puts on the bus. -/
def busFrame (e : Station × Input) : List U8 := (step e.1 e.2).frames.headD []

/-- The frequency of the most recent run frame in gear 1 to 5 sent to inverter `k` since the
parameters were loaded, or the frequency of gear 2 of its belt if there was none. -/
def lastSpeed (k : Nat) (past : Past) (s : Station) : U16 :=
  match (since Loads past).find? fun e => WritesTo k e ∧ WritesRun e.1 with
  | some e => frameFreq (busFrame e)
  | none => (s.belt (k - 1)).gear2SpeedFreq

/-! ## Transmitting -/

/-- A speed write is transmitted as it is built. -/
theorem step_frames_of_writesSpeed {s : Station} {i : Input} (h : WritesSpeed (s, i)) :
    ∃ stack, i = .modbusComm stack ∧
      (step s i).frames = writeMultiRegFrame s.logic.commNode.inverterNo 0x7000
        (speedWriteData stack s ++ [(commBelt s).funcSelectSwitch &&& 0x1]) :: s.frames := by
  cases i with
  | modbusComm stack =>
      have hrun : s.systemReset = false := h.1
      have hbusy : s.logic.commBusyFlag = true := h.2.1
      have hsend : s.modbus.uart1CommuState = .sendData := h.2.2.1
      have hspeed : s.logic.commNode.rwFlag = 1 := h.2.2.2
      have hbuild : ∃ p, commBuildFrame stack s = some p := by
        unfold commBuildFrame
        dsimp only
        rw [if_neg (by rw [hspeed]; decide), if_pos hspeed]
        exact ⟨_, rfl⟩
      obtain ⟨p, hbuild⟩ := hbuild
      obtain ⟨hframe, -⟩ := commBuildFrame_speed hbuild hspeed
      have hstep : step s (.modbusComm stack) = commSendRwComand stack s := by
        have hreset : ¬ s.systemReset = true := by simp [hrun]
        have hidle : ¬ s.logic.commBusyFlag = false := by simp [hbusy]
        exact (if_neg hreset).trans ((if_neg hidle).trans (if_pos hsend))
      refine ⟨stack, rfl, ?_⟩
      rw [hstep, ← hframe]
      unfold Station.frames
      rw [commSendRwComand_trace hbuild]
      rfl
  | _ => exact absurd h id

/-- The two registers that may hold the frequency of a speed write. -/
theorem frameReg_speedRegs (no : U16) (belt : BeltParas) (command freq : U16) :
    frameReg (writeMultiRegFrame no 0x7000
        (speedRegs belt command freq ++ [belt.funcSelectSwitch &&& 0x1])) 0 = command ∧
      frameReg (writeMultiRegFrame no 0x7000
        (speedRegs belt command freq ++ [belt.funcSelectSwitch &&& 0x1])) 1 =
          (if belt.funcSelectSwitch &&& 0x1 ≠ 0 then freq else 0) ∧
      frameReg (writeMultiRegFrame no 0x7000
        (speedRegs belt command freq ++ [belt.funcSelectSwitch &&& 0x1])) 2 =
          (if belt.funcSelectSwitch &&& 0x1 ≠ 0 then 0 else freq) ∧
      frameReg (writeMultiRegFrame no 0x7000
        (speedRegs belt command freq ++ [belt.funcSelectSwitch &&& 0x1])) 3 =
          belt.funcSelectSwitch &&& 0x1 := by
  unfold speedRegs
  split_ifs
  · exact ⟨frameReg_write_zero _ _ _ _ _, frameReg_write_one _ _ _ _ _,
      frameReg_write_two _ _ _ _ _, frameReg_write_three _ _ _ _ _⟩
  · exact ⟨frameReg_write_zero _ _ _ _ _, frameReg_write_one _ _ _ _ _,
      frameReg_write_two _ _ _ _ _, frameReg_write_three _ _ _ _ _⟩

theorem frameFreq_speedRegs (no : U16) (belt : BeltParas) (command freq : U16) :
    frameFreq (writeMultiRegFrame no 0x7000
      (speedRegs belt command freq ++ [belt.funcSelectSwitch &&& 0x1])) = freq := by
  obtain ⟨-, hone, htwo, hswitch⟩ := frameReg_speedRegs no belt command freq
  unfold frameFreq
  rw [hswitch, hone, htwo]
  split_ifs <;> rfl

/-- The gears with a frequency of their own. -/
theorem gearFreq_of_run {belt : BeltParas} {gear : U16} (h : 1 ≤ gear ∧ gear ≤ 5) :
    ∃ freq, gearFreq belt gear = some freq ∧ gear ≠ 6 ∧ gear ≠ 0 := by
  have hcases : gear = 1 ∨ gear = 2 ∨ gear = 3 ∨ gear = 4 ∨ gear = 5 := by bv_omega
  rcases hcases with rfl | rfl | rfl | rfl | rfl <;> exact ⟨_, rfl, by decide, by decide⟩

/-- What a transmitted stop carries. -/
theorem speedWriteData_stop {stack : Table 4 U16} {s : Station} (h : WritesStop s) :
    speedWriteData stack s = speedRegs (commBelt s) 5
      (s.modbus.stopspeedDefault.get (s.logic.commNode.inverterNo.toNat - 1)) := by
  unfold speedWriteData
  dsimp only
  by_cases hem : s.logic.bEmergencyInfo.inputState = true
  · exact if_pos hem
  · rw [if_neg hem, if_pos (h.resolve_left hem)]
    rfl

/-- A run in gear 1 to 5 carries its frequency, and it is remembered. -/
theorem writesRun_freq {s : Station} (h : WritesRun s) :
    ∃ freq, (∀ stack, speedWriteData stack s = speedRegs (commBelt s) 1 freq) ∧
      (rememberStopSpeed s).stored =
        { s.stored with
          speeds := s.stored.speeds.set (s.logic.commNode.inverterNo.toNat - 1) freq } := by
  obtain ⟨hruns, hgear⟩ := h
  obtain ⟨hem, hstop⟩ := not_or.mp hruns
  obtain ⟨freq, hfreq, hsleep, -⟩ := @gearFreq_of_run (commBelt s) _ hgear
  have hfreq' : gearFreq (s.belt (s.logic.commNode.inverterNo.toNat - 1))
      s.logic.commNode.speedGear = some freq := hfreq
  refine ⟨freq, fun stack => ?_, ?_⟩
  · unfold speedWriteData
    dsimp only
    rw [if_neg hem, if_neg hstop, hfreq']
    rfl
  · unfold rememberStopSpeed
    dsimp only
    rw [if_neg hem, if_neg hsleep, hfreq']
    rfl

/-- No other speed write is remembered. -/
theorem rememberStopSpeed_of_not_run {s : Station} (h : ¬ WritesRun s) :
    rememberStopSpeed s = s := by
  unfold rememberStopSpeed
  dsimp only
  by_cases hem : s.logic.bEmergencyInfo.inputState = true
  · exact if_pos hem
  by_cases hsleep : s.logic.commNode.speedGear = 6
  · rw [if_neg hem, if_pos hsleep]
  rw [if_neg hem, if_neg hsleep]
  have hnone : gearFreq (s.belt (s.logic.commNode.inverterNo.toNat - 1))
      s.logic.commNode.speedGear = none := by
    by_cases hstop : s.logic.commNode.speedGear = 0
    · rw [hstop]
      rfl
    · have hgear : ¬ (1 ≤ s.logic.commNode.speedGear ∧ s.logic.commNode.speedGear ≤ 5) :=
        fun hgear => h ⟨not_or.mpr ⟨hem, hstop⟩, hgear⟩
      unfold gearFreq
      split_ifs <;> first | rfl | bv_omega
  rw [hnone]

/-! ## The history -/

section History

variable {k : Nat} {past : Past} {s t : Station} {e : Station × Input}

theorem lastSpeed_load (h : Loads e) :
    lastSpeed k (e :: past) t = (t.belt (k - 1)).gear2SpeedFreq := by
  unfold lastSpeed
  rw [since_cons_of h]
  rfl

theorem lastSpeed_run (hload : ¬ Loads e) (h : WritesTo k e ∧ WritesRun e.1) :
    lastSpeed k (e :: past) t = frameFreq (busFrame e) := by
  unfold lastSpeed
  rw [since_cons_not hload, List.find?_cons_of_pos (by simpa using h)]

theorem lastSpeed_skip (hload : ¬ Loads e) (h : ¬ (WritesTo k e ∧ WritesRun e.1))
    (hbelt : t.belt (k - 1) = s.belt (k - 1)) :
    lastSpeed k (e :: past) t = lastSpeed k past s := by
  unfold lastSpeed
  rw [since_cons_not hload, List.find?_cons_of_neg (by simpa using h), hbelt]

end History

/-- The stop speeds are what the history tells. -/
def Remembers (past : Past) (s : Station) : Prop :=
  ∀ k, 1 ≤ k → k ≤ s.beltNumber → s.modbus.stopspeedDefault.get (k - 1) = lastSpeed k past s

/-- The speeds of a fresh load. -/
theorem Stored.Loaded.remembers {past : Past} {s : Station} (h : s.stored.Loaded)
    (hlast : ∀ k, lastSpeed k past s = (s.belt (k - 1)).gear2SpeedFreq) : Remembers past s := by
  intro k hk hle
  rw [hlast]
  exact h (k - 1) (by have hn : s.stored.paras.beltNumber.toNat = s.beltNumber := rfl; omega)

section Step

variable {past : Past} {s : Station} {i : Input}

/-- A step that remembers nothing new. -/
theorem Remembers.skip (h : Remembers past s) (hload : ¬ Loads (s, i))
    (hrun : ∀ k, ¬ (WritesTo k (s, i) ∧ WritesRun s)) (hstored : (step s i).stored = s.stored) :
    Remembers ((s, i) :: past) (step s i) := by
  have hparas : (step s i).logic.userParasLocal = s.logic.userParasLocal :=
    congrArg Stored.paras hstored
  have hspeeds : (step s i).modbus.stopspeedDefault = s.modbus.stopspeedDefault :=
    congrArg Stored.speeds hstored
  intro k hk hle
  have hbelt : (step s i).belt (k - 1) = s.belt (k - 1) :=
    congrArg (fun p : LocalParas => p.beltPara.get (k - 1)) hparas
  have hn : (step s i).beltNumber = s.beltNumber :=
    congrArg (fun p : LocalParas => p.beltNumber.toNat) hparas
  rw [hspeeds, lastSpeed_skip hload (hrun k) hbelt]
  exact h k hk (hle.trans_eq hn)

/-- A run in gear 1 to 5 is remembered for its inverter alone. -/
theorem Remembers.run (h : Remembers past s)
    (hno : 1 ≤ s.logic.commNode.inverterNo.toNat ∧ s.logic.commNode.inverterNo.toNat ≤ 10)
    (hspeed : WritesSpeed (s, i)) (hrun : WritesRun s)
    (hstored : (step s i).stored = (rememberStopSpeed s).stored) :
    Remembers ((s, i) :: past) (step s i) := by
  obtain ⟨stack, rfl, hframes⟩ := step_frames_of_writesSpeed hspeed
  have hload : ¬ Loads (s, .modbusComm stack) := by
    rintro ⟨p, hp, -⟩
    cases hp
  obtain ⟨freq, hdata, hset⟩ := writesRun_freq hrun
  have hfreq : frameFreq (busFrame (s, .modbusComm stack)) = freq := by
    unfold busFrame
    rw [hframes, hdata stack]
    exact frameFreq_speedRegs _ _ _ _
  rw [hset] at hstored
  have hparas : (step s (.modbusComm stack)).logic.userParasLocal = s.logic.userParasLocal :=
    congrArg Stored.paras hstored
  have hspeeds : (step s (.modbusComm stack)).modbus.stopspeedDefault =
      s.modbus.stopspeedDefault.set (s.logic.commNode.inverterNo.toNat - 1) freq :=
    congrArg Stored.speeds hstored
  intro k hk hle
  have hbelt : (step s (.modbusComm stack)).belt (k - 1) = s.belt (k - 1) :=
    congrArg (fun p : LocalParas => p.beltPara.get (k - 1)) hparas
  have hn : (step s (.modbusComm stack)).beltNumber = s.beltNumber :=
    congrArg (fun p : LocalParas => p.beltNumber.toNat) hparas
  rw [hspeeds]
  by_cases hmine : s.logic.commNode.inverterNo.toNat = k
  · rw [lastSpeed_run hload ⟨⟨hspeed, hmine⟩, hrun⟩, hfreq, hmine,
      Table.get_set_self _ (by omega)]
  · rw [Table.get_set_ne _ (by omega), lastSpeed_skip hload (fun hto => hmine hto.1.2) hbelt]
    exact h k hk (hle.trans_eq hn)

/-- **One step.** -/
theorem step_remembers (h : Remembers past s) (hrange : RangeInv s) :
    Remembers ((s, i) :: past) (step s i) := by
  have hstored := step_stored s i
  generalize hst : (step s i).stored = st at hstored
  cases hstored with
  | load para t hstation hload =>
      refine Stored.Loaded.remembers ?_ fun k => lastSpeed_load hload
      rw [hst]
      exact readUserParas_loaded _
  | speed hspeed =>
      by_cases hrun : WritesRun s
      · have hno := (hrange.flight _ (inFlight_of_busy hspeed.busy)).inverterNo
        exact h.run hno hspeed hrun hst
      · rw [rememberStopSpeed_of_not_run hrun] at hst
        exact h.skip hspeed.not_loads (fun k hto => hrun hto.2) hst
  | other hload hspeed => exact h.skip hload (fun k hto => hspeed hto.1.1) hst

end Step

/-- The stop speeds of every run. -/
theorem trails_remember {ok : Station → Input → Prop} {past : Past} {s : Station}
    (h : Trails ok past s) : Remembers past s := by
  induction h with
  | start hboot =>
      obtain ⟨flash, localStation, rfl⟩ := hboot
      exact (readUserParas_loaded _).remembers fun k => rfl
  | next h _ ih => exact step_remembers ih (reachable_rangeInv h.reach)

/-- **Stop frames keep the last commanded speed.**  In every run, a stop that is sent to the
inverter of one of the belts carries the frequency of the most recent run frame in gear 1 to 5
that was sent to it since the parameters were loaded, or that of gear 2; the switch of the belt
says in which register. -/
theorem stop_frames_keep_speed {ok : Station → Input → Prop} {past : Past} {s : Station}
    (h : Trails ok past s) {k : Nat} (hk : 1 ≤ k ∧ k ≤ s.beltNumber) {i : Input}
    (hsend : WritesTo k (s, i)) (hstop : WritesStop s) :
    (step s i).frames = busFrame (s, i) :: s.frames ∧
      (busFrame (s, i)).head? = some (BitVec.ofNat 8 k) ∧ frameReg (busFrame (s, i)) 0 = 5 ∧
      frameReg (busFrame (s, i)) 1 =
        (if (s.belt (k - 1)).funcSelectSwitch &&& 0x1 ≠ 0 then lastSpeed k past s else 0) ∧
      frameReg (busFrame (s, i)) 2 =
        (if (s.belt (k - 1)).funcSelectSwitch &&& 0x1 ≠ 0 then 0 else lastSpeed k past s) := by
  obtain ⟨hspeed, hno⟩ := hsend
  obtain ⟨stack, rfl, hframes⟩ := step_frames_of_writesSpeed hspeed
  have hfreq := trails_remember h k hk.1 hk.2
  have hbelt : commBelt s = s.belt (k - 1) := by
    unfold commBelt
    rw [hno]
  rw [speedWriteData_stop hstop, hno, hfreq, hbelt] at hframes
  have hframe : busFrame (s, .modbusComm stack) = _ := congrArg (List.headD · []) hframes
  obtain ⟨hcommand, hone, htwo, -⟩ := frameReg_speedRegs s.logic.commNode.inverterNo
    (s.belt (k - 1)) 5 (lastSpeed k past s)
  rw [hframe]
  have hhead : lo s.logic.commNode.inverterNo = BitVec.ofNat 8 k := by
    rw [← hno]
    exact BitVec.eq_of_toNat_eq (by simp [lo])
  exact ⟨hframes, congrArg some hhead, hcommand, hone, htwo⟩

/-! ## A stop from the sleep gear -/

/-- One belt, with frequencies for gear 1, for gear 2 and for the sleep gear. -/
def sleepFlash : Flash :=
  { userPara := fun k =>
      if k = 2 then 1 else if k = 4 then 70 else if k = 5 then 100 else if k = 9 then 30
      else if k = 10 then 1 else 0
    userAppEnFlag := 0xFFFF }

/-- A line command, and its frame after `n` ticks. -/
def gearFrame (g : U8) (n : Nat) : List Input :=
  [.canFrame (startFrame g), .modbusComm fun _ => 0] ++ idleTicks n ++ [.modbusComm fun _ => 0]

/-- Gear 1, the sleep gear, and a stop that waits to be sent. -/
def sleepThenStop : List Input :=
  gearFrame 1 1 ++ writeAcked ++ gearFrame 6 20 ++ writeAcked ++
    [.canFrame (startFrame 0), .modbusComm fun _ => 0] ++ idleTicks 15

def stopping : Station := run step (boot sleepFlash 2) sleepThenStop

/-- The stop carries the frequency of gear 1. -/
theorem sleep_stop_keeps_gear1 : frameReg (busFrame (stopping, .modbusComm fun _ => 0)) 2 = 70 := by
  have hstop : WritesTo 1 (stopping, .modbusComm fun _ => 0) ∧ WritesStop stopping ∧
      (1 ≤ 1 ∧ 1 ≤ stopping.beltNumber) ∧ (stopping.belt 0).funcSelectSwitch = 0 ∧
      lastSpeed 1 (passed step [] (boot sleepFlash 2) sleepThenStop) stopping = 70 := by
    decide +kernel
  obtain ⟨hsend, hstops, hbelt, hswitch, hlast⟩ := hstop
  have htrail : Trails (fun _ _ => True) (passed step [] (boot sleepFlash 2) sleepThenStop)
      stopping := trail_run ⟨_, _, rfl⟩ (Along.of_forall (fun _ _ => trivial) _ _)
  obtain ⟨-, -, -, -, hreg⟩ := stop_frames_keep_speed htrail hbelt hsend hstops
  rw [hreg, hlast, hswitch]
  rfl

end IotCtrl
