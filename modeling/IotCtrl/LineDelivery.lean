import IotCtrl.MasterProgress

/-!
# A line command reaches the inverters

A line command of the host or the server ends as one write frame to each inverter of the
station.  It is queued when it is heard, and the master works the queue off.

* `gearRegs`, `WritesGear` — the write a command means for one inverter;
* `startCommand_uartNodes` — what a step that hears a command leaves in the queue;
* `line_command_delivered` — every inverter gets its write, within the time the master needs
  for what is queued.
-/

namespace IotCtrl

open ByteMemory Transition Deadline ClosedFacts

/-- Command, frequency and the unused frequency register that a command means for belt `k`:
run with the frequency of the gear, or stop with the last speed.  While the emergency input is
active every command stops. -/
def gearRegs (g : U8) (k : Nat) (s : Station) : Option (List U16) :=
  if s.logic.bEmergencyInfo.inputState = true ∨ IsStop g then
    some (speedRegs (s.belt (k - 1)) 5 (s.modbus.stopspeedDefault.get (k - 1)))
  else (gearFreq (s.belt (k - 1)) (g.setWidth 16)).map (speedRegs (s.belt (k - 1)) 1)

/-- The step puts the write of the command to inverter `k` on the RS-485 bus. -/
def WritesGear (g : U8) (k : Nat) (s : Station) (i : Input) : Prop :=
  ∃ regs, gearRegs g k s = some regs ∧
    (step s i).trace = .modbusTx (writeMultiRegFrame (BitVec.ofNat 16 k) 0x7000
      (regs ++ [(s.belt (k - 1)).funcSelectSwitch &&& 0x1])) :: s.trace

/-- The gears a command byte may name. -/
theorem gearFreq_isSome {g : U8} (hgear : g ≤ 6) (hrun : ¬ IsStop g) (b : BeltParas) :
    ∃ freq, gearFreq b (g.setWidth 16) = some freq := by
  have hne : g ≠ 0 := fun hzero => hrun (Or.inl hzero)
  have hcases : g = 1 ∨ g = 2 ∨ g = 3 ∨ g = 4 ∨ g = 5 ∨ g = 6 := by bv_omega
  rcases hcases with rfl | rfl | rfl | rfl | rfl | rfl
  all_goals exact ⟨_, rfl⟩

/-- A sent node of the command is the write of the command. -/
theorem SendsNode.writesGear {g : U8} {k : Nat} {interval : U16} {s : Station} {i : Input}
    (h : SendsNode (speedNode k ((commandedGear g).setWidth 16) interval) s i) (hk : k ≤ 10)
    (hgear : g ≤ 6 ∨ g = EMERGENCY_STOP) : WritesGear g k s i := by
  obtain ⟨hflight, stack, frame, built, -, hbuild, htrace⟩ := h
  have hnode : s.logic.commNode =
      { speedNode k ((commandedGear g).setWidth 16) interval with commInterval := 0 } := by
    unfold Station.inFlight at hflight
    split_ifs at hflight
    exact Option.some.inj hflight
  have hrw : s.logic.commNode.rwFlag = 1 := by rw [hnode]; rfl
  have hinverter : s.logic.commNode.inverterNo = BitVec.ofNat 16 k := by rw [hnode]; rfl
  have hspeed : s.logic.commNode.speedGear = (commandedGear g).setWidth 16 := by rw [hnode]; rfl
  have hno : s.logic.commNode.inverterNo.toNat = k := by
    rw [hinverter, BitVec.toNat_ofNat]
    omega
  have hframe : frame = writeMultiRegFrame (BitVec.ofNat 16 k) 0x7000
      (speedWriteData stack s ++ [(s.belt (k - 1)).funcSelectSwitch &&& 0x1]) := by
    unfold commBuildFrame at hbuild
    dsimp only at hbuild
    rw [hrw, hno, hinverter] at hbuild
    exact (Prod.mk.inj (Option.some.inj hbuild)).1.symm
  have hdata : gearRegs g k s = some (speedWriteData stack s) := by
    unfold gearRegs speedWriteData
    dsimp only
    rw [hno, hspeed]
    by_cases hem : s.logic.bEmergencyInfo.inputState = true
    · rw [if_pos (Or.inl hem), if_pos hem]
    rw [if_neg hem]
    by_cases hstop : IsStop g
    · rw [if_pos (Or.inr hstop), (commandedGear_eq_zero_iff g).mpr hstop]
      rfl
    · have hle : g ≤ 6 := hgear.resolve_right fun heq => hstop (Or.inr heq)
      have hsame : commandedGear g = g := if_neg fun heq => hstop (Or.inr heq)
      have hne : ¬ g.setWidth 16 = (0 : U16) := fun hzero => hstop (Or.inl (by bv_omega))
      obtain ⟨freq, hfreq⟩ := gearFreq_isSome hle hstop (s.belt (k - 1))
      rw [if_neg (not_or.mpr ⟨hem, hstop⟩), hsame, if_neg hne, hfreq]
      rfl
  exact ⟨_, hdata, by rw [htrace, hframe]⟩

/-! ## Hearing the command -/

/-- A step that hears a line command processes it and queues nothing else. -/
theorem startCommand_uartNodes {s : Station} {i : Input} {g : U8}
    (hmsg : startCommand s i = some g) (hrun : s.systemReset = false) :
    (step s i).uartNodes = (speedCtrlProcess g s).uartNodes := by
  have hstep : step s i = handle s i := if_neg (by rw [hrun]; decide)
  rw [hstep]
  have hsame : ∀ t : Station, t.logic = s.logic →
      (speedCtrlProcess g t).uartNodes = (speedCtrlProcess g s).uartNodes := by
    intro t ht
    rw [speedCtrlProcess_uartNodes, speedCtrlProcess_uartNodes]
    cases t
    dsimp only at ht
    subst ht
    rfl
  unfold startCommand at hmsg
  cases i with
  | canFrame rxMsg =>
      dsimp only at hmsg
      split_ifs at hmsg with hdone
      obtain ⟨hfinished, hfunc⟩ := hdone
      obtain rfl := Option.some.inj hmsg
      show (canBusFrameReceive rxMsg s).uartNodes = _
      unfold canBusFrameReceive
      dsimp only
      rw [if_neg (by rw [hfunc]; exact fun h => absurd h.1 (by decide)), if_pos hfinished]
      unfold canDispatch
      dsimp only
      rw [hfunc, if_neg fun h => absurd h.1 (by decide), if_pos rfl]
      exact hsame _ rfl
  | udpClient env =>
      dsimp only at hmsg
      split_ifs at hmsg with hheard
      obtain ⟨hhost, hrecv, hcheck, htype⟩ := hheard
      obtain rfl := Option.some.inj hmsg
      have hserved : recvMessageFromServer s.msg.tcpRecvBuf s.msg.tcpRecvLen.toNat s =
          canBusSendStartCmd (s.msg.tcpRecvBuf 11)
            (speedCtrlProcess (s.msg.tcpRecvBuf 11) s) := by
        unfold recvMessageFromServer recvMsgProcess
        rw [if_neg (by rw [hcheck]; decide), htype]
        rfl
      have hqueue : (canBusSendStartCmd (s.msg.tcpRecvBuf 11)
          (speedCtrlProcess (s.msg.tcpRecvBuf 11) s)).uartNodes =
          (speedCtrlProcess (s.msg.tcpRecvBuf 11) s).uartNodes :=
        (canBusSendMsg_keeps _ _ _ _).uartNodes
      show (if s.isHost then udpClientProcess env s else s).uartNodes = _
      rw [if_pos hhost]
      unfold udpClientProcess
      dsimp only
      rw [if_pos hrecv, hserved]
      split_ifs
      · exact hqueue
      · rw [(udpConnectProcess_keeps env _).uartNodes]
        exact hqueue
  | _ => cases hmsg

/-- A command that finds room leaves its node for every belt. -/
theorem speedNode_mem_uartNodes {g : U8} {s : Station} {k : Nat} (hk : 1 ≤ k ∧ k ≤ s.beltNumber)
    (hroom : IsStop g ∨ s.uartNodes.length + s.beltNumber < 30) :
    speedNode k ((commandedGear g).setWidth 16) (lineInterval g s k) ∈
      (speedCtrlProcess g s).uartNodes := by
  have hn := s.beltNumber_le
  have hlen : (lineNodes g s).length = s.beltNumber := by
    rw [lineNodes, List.length_map, length_beltOrder]
  have hmem : speedNode k ((commandedGear g).setWidth 16) (lineInterval g s k) ∈ lineNodes g s :=
    List.mem_map_of_mem ((mem_beltOrder_iff g s k).mpr hk)
  have hbase : (lineBase g s).contents.length + (lineNodes g s).length < 30 := by
    unfold lineBase
    split_ifs with hstop
    · rw [RingFifo.contents_clear, List.length_nil]
      omega
    · have hfits := hroom.resolve_left hstop
      unfold Station.uartNodes at hfits
      omega
  rw [speedCtrlProcess_uartNodes, RingFifo.contents_addAll_of_room hbase]
  exact List.mem_append_right _ hmem

/-! ## Delivery -/

/-- **A line command reaches every inverter.**  A command that is heard on the CAN bus or from
the server, and finds room in the queue, is written to each inverter of the station within the
time the master needs for what is queued then, unless a later stop command empties the queue
or the station is reset. -/
theorem line_command_delivered {s : Station} (hs : Reachable (fun _ _ => True) s) {i : Input}
    {g : U8} (hmsg : startCommand s i = some g) (hrun : s.systemReset = false)
    (hgear : g ≤ 6 ∨ g = EMERGENCY_STOP)
    (hroom : IsStop g ∨ s.uartNodes.length + s.beltNumber < 30)
    {k : Nat} (hk : 1 ≤ k ∧ k ≤ s.beltNumber) {D : Nat} {is : List Input}
    (hprompt : CommPrompt D is)
    (hlong : masterWork D (step s i).uartNodes (step s i) + byteDelays is + D <
      milliseconds is) :
    Somewhere step
      (fun t j => WritesGear g k t j ∨ Emptied t (step t j) ∨ (step t j).systemReset = true)
      (step s i) is := by
  have hn := s.beltNumber_le
  have hnext : Reachable (fun _ _ => True) (step s i) := Reach.next hs trivial
  have hmem := speedNode_mem_uartNodes hk hroom
  rw [← startCommand_uartNodes hmsg hrun] at hmem
  obtain ⟨ahead, behind, hqueue⟩ := List.append_of_mem hmem
  have hsent := queued_command_served hnext hqueue hprompt hlong
  obtain ⟨js, j, ks, hsplit, hserved⟩ := somewhere_iff.mp hsent
  refine somewhere_iff.mpr ⟨js, j, ks, hsplit, ?_⟩
  exact hserved.imp_left fun hsends => hsends.writesGear (by omega) hgear

/-- The first belt of slave 2, the last in the queue, is started within 900 ms with its
frequency. -/
theorem line_command_delivered_startedBelts :
    (startedBelts.belt 0).gear2SpeedFreq = 100 ∧
      Somewhere step
        (fun t j => WritesGear 2 1 t j ∨ Emptied t (step t j) ∨ (step t j).systemReset = true)
        startedBelts (rounds noInput 900) := by
  obtain ⟨htime, hbytes, hprompt⟩ := rounds_time noInput 900
  have hbooted : Reachable (fun _ _ => True) (boot threeBeltFlash 2) := Reach.start ⟨_, _, rfl⟩
  refine ⟨by decide +kernel, ?_⟩
  refine line_command_delivered (i := .canFrame (startFrame 2)) (g := 2) hbooted
    (by decide +kernel) (by decide +kernel) (by decide) (by decide +kernel) (by decide +kernel)
    hprompt ?_
  have hwork : masterWork 1 (step (boot threeBeltFlash 2) (.canFrame (startFrame 2))).uartNodes
      (step (boot threeBeltFlash 2) (.canFrame (startFrame 2))) = 813 := startedBelts_work
  rw [htime, hbytes, hwork]
  decide

end IotCtrl
