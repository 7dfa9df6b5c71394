import IotCtrl.DebouncedInputs
import IotCtrl.LineDelivery

/-!
# The emergency stop

The emergency input stops the line in two ways.  The tick that confirms it clears the UART
queue and queues a stop for every belt.  As long as it is confirmed, the master turns every
speed write it sends into a stop, be it one that was in flight or one that a later start
command has queued.

* `active_emergency_confirmed` — fifty-one ticks with an active pin confirm the input;
* `active_emergency_sends_no_run` — from then on no run frame is put on the RS-485 bus;
* `emergency_stop_delivered` — every inverter is sent its stop.
-/

namespace IotCtrl

open Transition Deadline Debounce ClosedFacts

/-! ## The pin -/

/-- Every tick of the run finds the emergency pin active. -/
def EmergencyActive (is : List Input) : Prop :=
  ∀ pins, .timeUpdate pins ∈ is → pins.bEmergencyIn = true

theorem EmergencyActive.tail {i : Input} {is : List Input} (h : EmergencyActive (i :: is)) :
    EmergencyActive is :=
  fun pins hmem => h pins (List.mem_cons_of_mem _ hmem)

/-- A station that has reset stays as it is. -/
theorem run_of_reset {s : Station} (h : s.systemReset = true) (is : List Input) :
    run step s is = s := by
  induction is with
  | nil => rfl
  | cons i is ih =>
      have hstay : step s i = s := if_pos h
      rw [run_cons, hstay, ih]

/-- The samples of the pin in a run in which it is active. -/
theorem emergency_samples {past : Past} {s : Station} {is : List Input}
    (hactive : EmergencyActive is) (hrun : (run step s is).systemReset = false) :
    InputPin.emergency.samples (passed step past s is) =
      List.replicate (milliseconds is) true ++ InputPin.emergency.samples past := by
  induction is generalizing past s with
  | nil => rfl
  | cons i is ih =>
      have hrunning : s.systemReset = false := by
        by_contra hreset
        have hstay := run_of_reset (by simpa using hreset) (i :: is)
        rw [hstay] at hrun
        exact hreset hrun
      rw [passed, ih hactive.tail hrun]
      cases i with
      | timeUpdate pins =>
          have hlevel : InputPin.emergency.level pins = true := hactive pins List.mem_cons_self
          rw [InputPin.samples_cons_tick _ hrunning, hlevel]
          show _ = List.replicate (milliseconds is + 1) true ++ _
          rw [List.replicate_succ', List.append_assoc]
          rfl
      | _ => rfl

/-- Fifty-one active ticks confirm the input, unless the station resets. -/
theorem active_emergency_confirmed {s : Station} (hs : Reachable (fun _ _ => True) s)
    {is : List Input} (hactive : EmergencyActive is) (hlong : 51 ≤ milliseconds is) :
    (run step s is).systemReset = true ∨ InputPin.emergency.confirmed (run step s is) = true := by
  by_cases hreset : (run step s is).systemReset = true
  · exact Or.inl hreset
  apply Or.inr
  obtain ⟨past, htrail⟩ := hs.trail
  have hrest := htrail.run_of_along (Along.of_forall (fun _ _ => trivial) is s)
  have hlevel := (trails_follows hrest .emergency).tracks.level_eq
  refine hlevel.trans ?_
  rw [emergency_samples hactive (by simpa using hreset)]
  have hsteady : Steady (milliseconds is) true
      (List.replicate (milliseconds is) true ++ InputPin.emergency.samples past) :=
    steady_replicate
  exact debounced_of_steady (by decide) (hsteady.mono hlong)

/-! ## No run frame -/

/-- While the input is confirmed, no command is built into a run frame. -/
theorem commBuildFrame_emergency {stack : Table 4 U16} {s t : Station} {frame : List U8}
    (hconfirmed : s.logic.bEmergencyInfo.inputState = true)
    (h : commBuildFrame stack s = some (frame, t)) : ¬ IsRunFrame frame := by
  intro hrun
  have hnode := commBuildFrame_isRun h hrun
  unfold commBuildFrame at h
  dsimp only at h
  rw [if_neg (by rw [hnode.1]; decide), if_pos hnode.1] at h
  obtain ⟨rfl, -⟩ := Prod.mk.inj (Option.some.inj h)
  obtain ⟨data, hdata⟩ : ∃ data, speedWriteData stack s = 5 :: data := by
    unfold speedWriteData speedRegs
    dsimp only
    rw [if_pos hconfirmed]
    split_ifs <;> exact ⟨_, rfl⟩
  rw [hdata] at hrun
  exact absurd (isRunFrame_write hrun) (by decide)

/-- No entry of the history is a run frame. -/
def NoRunFrame (es : List Event) : Prop := ∀ frame, .modbusTx frame ∈ es → ¬ IsRunFrame frame

theorem NoRunFrame.append {es es' : List Event} (h : NoRunFrame es) (h' : NoRunFrame es') :
    NoRunFrame (es ++ es') := by
  intro frame hmem
  exact (List.mem_append.mp hmem).elim (h frame) (h' frame)

/-- **One step** while the input is confirmed. -/
theorem step_emergency_noRun {s : Station} (i : Input)
    (hconfirmed : s.systemReset = true ∨ InputPin.emergency.confirmed s = true) :
    ∃ es, (step s i).trace = es ++ s.trace ∧ NoRunFrame es := by
  refine ⟨newEvents s (step s i), (step_touches s i).trace_eq, fun frame hmem => ?_⟩
  obtain ⟨stack, rfl, -, hframe⟩ := step_modbusTx hmem
  have hreset : s.systemReset ≠ true := by
    intro hr
    have hsame : step s (.modbusComm stack) = s := if_pos hr
    rw [hsame, newEvents_of_same rfl] at hmem
    cases hmem
  obtain ⟨p, hbuild, rfl⟩ := Option.map_eq_some_iff.mp hframe
  exact commBuildFrame_emergency (hconfirmed.resolve_left hreset) hbuild

/-- **An active emergency input keeps the line from running.**  In every run in which each tick
finds the pin active, no run frame is put on the RS-485 bus behind the fifty-first tick,
whatever is in flight, waits in the queue or is commanded meanwhile. -/
theorem active_emergency_sends_no_run {s : Station} (hs : Reachable (fun _ _ => True) s)
    {js ks : List Input} (hactive : EmergencyActive (js ++ ks)) (hlong : 51 ≤ milliseconds js) :
    ∃ es, (run step s (js ++ ks)).trace = es ++ (run step s js).trace ∧ NoRunFrame es := by
  induction ks generalizing js with
  | nil => exact ⟨[], by rw [List.append_nil]; rfl, nofun⟩
  | cons k ks ih =>
      have hsplit : js ++ k :: ks = (js ++ [k]) ++ ks := by rw [List.append_assoc]; rfl
      have hlonger : milliseconds js ≤ milliseconds (js ++ [k]) := by
        show ticks uartPace js ≤ ticks uartPace (js ++ [k])
        rw [ticks_append]
        exact Nat.le_add_right _ _
      rw [hsplit] at hactive ⊢
      obtain ⟨es, htrace, hes⟩ := ih hactive (hlong.trans hlonger)
      have hfirst : EmergencyActive js := fun pins hmem =>
        hactive pins (List.mem_append_left _ (List.mem_append_left _ hmem))
      obtain ⟨es', htrace', hes'⟩ :=
        step_emergency_noRun k (active_emergency_confirmed hs hfirst hlong)
      refine ⟨es ++ es', ?_, hes.append hes'⟩
      rw [htrace, List.append_assoc, ← htrace', run_append]
      rfl

/-- Only the emergency input is active. -/
def emergencyPins : Pins := { noInput with bEmergencyIn := true }

theorem rounds_active (n : Nat) : EmergencyActive (rounds emergencyPins n) := by
  induction n with
  | zero => exact fun _ hmem => absurd hmem List.not_mem_nil
  | succ n ih =>
      intro pins hmem
      rw [rounds_succ] at hmem
      rcases List.mem_cons.mp hmem with hpins | hmem
      · obtain rfl := Input.timeUpdate.inj hpins
        rfl
      · exact ih pins ((List.mem_cons.mp hmem).resolve_left nofun)

/-- The start command of the last belt is in flight when the input becomes active. -/
theorem active_emergency_sends_no_run_startedBelts :
    ∃ es, (run step startedBelts (rounds emergencyPins 51 ++ rounds emergencyPins 300)).trace =
      es ++ (run step startedBelts (rounds emergencyPins 51)).trace ∧ NoRunFrame es := by
  have htime := (rounds_time emergencyPins 51).1
  apply active_emergency_sends_no_run startedBelts_reachable
  · intro pins hmem
    exact (List.mem_append.mp hmem).elim (rounds_active 51 pins) (rounds_active 300 pins)
  · rw [htime]

/-! ## The stop -/

/-- The stops of an emergency, one for every belt. -/
def emergencyNodes (s : Station) : List CommNode :=
  (List.range s.beltNumber).map fun i => speedNode (i + 1) 0 20

/-- An emergency stop leaves nothing in the queue but the stops. -/
theorem speedCtrlProcess_emergency (s : Station) :
    (speedCtrlProcess EMERGENCY_STOP s).uartNodes = emergencyNodes s := by
  have hn := s.beltNumber_le
  have hnodes : lineNodes EMERGENCY_STOP s = emergencyNodes s :=
    lineNodes_ascending fun h => h.1 (Or.inr rfl)
  have hbase : lineBase EMERGENCY_STOP s = s.logic.uartSendQueue.clear := if_pos (Or.inr rfl)
  have hroom : (s.logic.uartSendQueue.clear).contents.length + (emergencyNodes s).length < 30 := by
    rw [RingFifo.contents_clear, List.length_nil, emergencyNodes, List.length_map,
      List.length_range]
    omega
  rw [speedCtrlProcess_uartNodes, hbase, hnodes, RingFifo.contents_addAll_of_room hroom,
    RingFifo.contents_clear, List.nil_append]

theorem mem_emergencyNodes {s : Station} {k : Nat} (hk : 1 ≤ k ∧ k ≤ s.beltNumber) :
    speedNode k 0 20 ∈ emergencyNodes s := by
  refine List.mem_map.mpr ⟨k - 1, List.mem_range.mpr (by omega), ?_⟩
  rw [Nat.sub_add_cancel hk.1]

/-- The tick that confirms the input clears the queue and leaves a stop for every belt. -/
theorem emergency_uartNodes {s : Station} {pins : Pins}
    (hrises : Rises .emergency s (step s (.timeUpdate pins))) :
    (step s (.timeUpdate pins)).uartNodes = emergencyNodes s := by
  have hrun : s.systemReset = false := by
    by_contra hreset
    have hstay : step s (.timeUpdate pins) = s := if_pos (by simpa using hreset)
    rw [hstay] at hrises
    exact absurd (hrises.1.symm.trans hrises.2) (by decide)
  have hsampled : (confirmInput (fun _ => 50) pins.bEmergencyIn
      (countTrig s.logic.bEmergencyInfo)).2.inputState = true := by
    have hrecord := congrArg ButtonInfo.inputState (InputPin.emergency.record_tick pins hrun)
    refine Eq.trans ?_ (hrecord.symm.trans hrises.2)
    show _ = (repeated (fun _ => 50) 2000 pins.bEmergencyIn s.logic.bEmergencyInfo).inputState
    unfold repeated
    dsimp only
    split_ifs <;> rfl
  have hedge : (confirmInput (fun _ => 50) pins.bEmergencyIn
      (countTrig s.logic.bEmergencyInfo)).1 = true := by
    apply (confirmInput_confirmed _ _ _).mpr
    rw [hsampled]
    exact fun h => absurd (h.trans hrises.1) (by decide)
  have hstep : step s (.timeUpdate pins) = timeUpdate pins s := if_neg (by simp [hrun])
  have hmid := scanned_emergency pins s
  have hbelts : (inputScanCommands pins (uartRecvTimeout (timeCounters s))).beltNumber =
      s.beltNumber := by
    rw [(inputScanCommands_touches pins _).keeps.beltNumber, (uartRecvTimeout_keeps _).beltNumber,
      (timeCounters_keeps s).beltNumber]
  rw [hstep]
  unfold timeUpdate inputScanProc
  generalize inputScanCommands pins (uartRecvTimeout (timeCounters s)) = u at hmid hbelts ⊢
  have hset : ∀ b t, (setEmergencyInfo b t).beltNumber = t.beltNumber := fun _ _ => rfl
  unfold scanEmergency
  dsimp only
  rw [hmid, if_pos hedge]
  unfold emergencyNodes
  split_ifs
  · rw [speedCtrlProcess_emergency, emergencyNodes, hset, (speedCtrlProcess_keeps _ _).beltNumber,
      hset, hbelts]
  · rw [speedCtrlProcess_emergency, emergencyNodes, hset, hbelts]

/-- **The emergency input stops every belt.**  The tick that confirms the input leaves nothing
in the UART queue but a stop for every inverter.  Each is sent within the time the master needs
for the stops and for the command that is in flight then, unless a later stop command empties
the queue or the station is reset. -/
theorem emergency_stop_delivered {s : Station} (hs : Reachable (fun _ _ => True) s) {pins : Pins}
    (hrises : Rises .emergency s (step s (.timeUpdate pins))) :
    (step s (.timeUpdate pins)).uartNodes =
        (List.range s.beltNumber).map (fun i => speedNode (i + 1) 0 20) ∧
      ∀ k, 1 ≤ k → k ≤ s.beltNumber → ∀ D is, CommPrompt D is →
        masterWork D (step s (.timeUpdate pins)).uartNodes (step s (.timeUpdate pins)) +
          byteDelays is + D < milliseconds is →
        Somewhere step
          (fun t j => WritesGear EMERGENCY_STOP k t j ∨ Emptied t (step t j) ∨
            (step t j).systemReset = true)
          (step s (.timeUpdate pins)) is := by
  have hn := s.beltNumber_le
  have hnext : Reachable (fun _ _ => True) (step s (.timeUpdate pins)) := Reach.next hs trivial
  have hnodes := emergency_uartNodes hrises
  refine ⟨hnodes, fun k hpos hle D is hprompt hlong => ?_⟩
  have hmem := mem_emergencyNodes ⟨hpos, hle⟩
  rw [← hnodes] at hmem
  obtain ⟨ahead, behind, hqueue⟩ := List.append_of_mem hmem
  have hsent := queued_command_served hnext hqueue hprompt hlong
  obtain ⟨js, j, ks, hsplit, hserved⟩ := somewhere_iff.mp hsent
  apply somewhere_iff.mpr
  refine ⟨js, j, ks, hsplit, ?_⟩
  exact hserved.imp_left fun hsends => hsends.writesGear (by omega) (Or.inr rfl)

/-- Slave 2 with three belts when its emergency input has been active for fifty
milliseconds. -/
def almostStopped : Station := run step startedBelts (rounds emergencyPins 50)

theorem almostStopped_reachable : Reachable (fun _ _ => True) almostStopped :=
  startedBelts_reachable.run_of_along (Along.of_forall (fun _ _ => trivial) _ _)

/-- The next millisecond confirms the input: the start commands of two belts are gone, and the
last belt is stopped within 1200 ms. -/
theorem emergency_stop_delivered_almostStopped :
    almostStopped.uartNodes = [speedNode 2 2 2, speedNode 1 2 1] ∧
      (step almostStopped (.timeUpdate emergencyPins)).uartNodes =
        (List.range almostStopped.beltNumber).map (fun i => speedNode (i + 1) 0 20) ∧
      Somewhere step
        (fun t j => WritesGear EMERGENCY_STOP 3 t j ∨ Emptied t (step t j) ∨
          (step t j).systemReset = true)
        (step almostStopped (.timeUpdate emergencyPins)) (rounds emergencyPins 1200) := by
  obtain ⟨htime, hbytes, hprompt⟩ := rounds_time emergencyPins 1200
  have hstate : almostStopped.uartNodes = [speedNode 2 2 2, speedNode 1 2 1] ∧
      almostStopped.beltNumber = 3 ∧
      Rises .emergency almostStopped (step almostStopped (.timeUpdate emergencyPins)) ∧
      masterWork 1 (step almostStopped (.timeUpdate emergencyPins)).uartNodes
        (step almostStopped (.timeUpdate emergencyPins)) ≤ 1190 := by decide +kernel
  obtain ⟨hwaiting, hbelts, hrises, hwork⟩ := hstate
  obtain ⟨hnodes, hsent⟩ := emergency_stop_delivered almostStopped_reachable hrises
  refine ⟨hwaiting, hnodes, hsent 3 (by decide) (by omega) 1 _ hprompt ?_⟩
  rw [htime, hbytes]
  omega

end IotCtrl
