import IotCtrl.Interlock
import IotCtrl.Panel

/-!
# The steps of the Modbus master

Between two frames on the RS-485 bus lie ticks, received bytes and steps beside the master.

* `MasterStep`, `step_master` — what a step can do to the command in flight, to the receive
  buffer, to the speed that was set last and to the run outputs;
* `reachable_timerInv` — the two timers of the master in every reachable state.
-/

namespace IotCtrl

open ByteMemory Transition ClosedFacts

def Event.frame : Event → Option (List U8)
  | .modbusTx frame => some frame
  | _ => none

/-- The frames put on the RS-485 bus, latest first. -/
def Station.frames (s : Station) : List (List U8) := s.trace.filterMap Event.frame

/-- What the answers of the inverters work on is the same. -/
structure SameBus (s t : Station) : Prop where
  out : t.outs.bRunOut = s.outs.bRunOut
  sta : t.modbus.gSpeedSetSta = s.modbus.gSpeedSetSta
  buff : t.modbus.uart1RecvBuff = s.modbus.uart1RecvBuff
  count : t.modbus.uart1RecvCount = s.modbus.uart1RecvCount

/-- What a step can do to the master. -/
inductive MasterStep (s : Station) : Input → Station → Prop
  /-- A step beside the master, or one of its timers. -/
  | beside (i : Input) (t : Station) (hflight : SameFlight s t)
      (hwindow : t.modbus.uart1CommuState = .recvData → s.modbus.uart1CommuState = .recvData)
      (hbus : SameBus s t) (hframes : t.frames = s.frames)
      (hdeaf : ∀ tmp, i = .usart1Irq tmp →
        s.systemReset = true ∨ s.modbus.uart1CommuState ≠ .recvData)
      (hverdict : verdict s i = none) : MasterStep s i t
  /-- A byte in the receive window. -/
  | byte (tmp : U8) (t : Station) (hrun : s.systemReset = false)
      (hrecv : s.modbus.uart1CommuState = .recvData) (hflight : SameFlight s t)
      (hout : t.outs.bRunOut = s.outs.bRunOut)
      (hsta : t.modbus.gSpeedSetSta = s.modbus.gSpeedSetSta)
      (hbuff : t.modbus.uart1RecvBuff =
        write s.modbus.uart1RecvBuff s.modbus.uart1RecvCount [tmp])
      (hcount : t.modbus.uart1RecvCount =
        if s.modbus.uart1RecvCount < 50 then s.modbus.uart1RecvCount + 1
        else s.modbus.uart1RecvCount)
      (hframes : t.frames = s.frames) : MasterStep s (.usart1Irq tmp) t
  /-- The next command is taken. -/
  | take (stack : Table 4 U16) (t : Station) (hidle : s.logic.commBusyFlag = false)
      (hready : t.modbus.uart1CommuState = .sendReady) (hbus : SameBus s t)
      (hframes : t.frames = s.frames) : MasterStep s (.modbusComm stack) t
  /-- The command in flight is transmitted. -/
  | send (stack : Table 4 U16) (t : Station) (frame : List U8) (built : Station)
      (hrun : s.systemReset = false) (hbusy : s.logic.commBusyFlag = true)
      (hsend : s.modbus.uart1CommuState = .sendData)
      (hbuild : commBuildFrame stack s = some (frame, built))
      (hnode : t.logic.commNode = s.logic.commNode)
      (hstate : t.modbus.uart1CommuState = .recvData)
      (hout : t.outs.bRunOut = s.outs.bRunOut)
      (hsta : t.modbus.gSpeedSetSta = speedSetSta (commBelt s) (speedWriteData stack s) s)
      (hbuff : t.modbus.uart1RecvBuff = s.modbus.uart1RecvBuff)
      (hcount : t.modbus.uart1RecvCount = 0)
      (hframes : t.frames = frame :: s.frames) : MasterStep s (.modbusComm stack) t
  /-- An answer is judged; the command is released or waits for its next attempt. -/
  | judge (stack : Table 4 U16) (t : Station) (hrun : s.systemReset = false)
      (hbusy : s.logic.commBusyFlag = true) (hend : s.modbus.uart1CommuState = .recvDataEnd)
      (hopen : t.logic.commBusyFlag = true → ¬ Listening t)
      (hstate : t.modbus.uart1CommuState ≠ .recvData)
      (hout : t.outs.bRunOut =
        if accepts s = true ∧ s.logic.commNode.rwFlag ≠ 0 then drivenOut s else s.outs.bRunOut)
      (hsta : t.modbus.gSpeedSetSta = s.modbus.gSpeedSetSta)
      (hbuff : t.modbus.uart1RecvBuff = s.modbus.uart1RecvBuff)
      (hcount : t.modbus.uart1RecvCount = 0)
      (hframes : t.frames = s.frames) : MasterStep s (.modbusComm stack) t

theorem frames_of_trace {s t : Station} (h : t.trace = s.trace) : t.frames = s.frames :=
  congrArg (List.filterMap Event.frame) h

theorem SameBus.of_panel {s t : Station} (h : t.panel = s.panel) : SameBus s t :=
  ⟨congrArg Panel.bRunOut h, congrArg Panel.gSpeedSetSta h, congrArg Panel.uart1RecvBuff h,
    congrArg Panel.uart1RecvCount h⟩

/-- Routines that record other events put no frame on the bus. -/
theorem Touches.frames {ps : List Part} {ks : List EventKind} {s t : Station}
    (h : Touches ps ks s t) [hk : Evident (.modbusTx ∉ ks)] : t.frames = s.frames := by
  obtain ⟨es, hes, hkinds⟩ := h.logs
  have hnone : es.filterMap Event.frame = [] := by
    rw [List.filterMap_eq_nil_iff]
    intro e he
    cases e with
    | modbusTx frame => exact absurd (hkinds _ he) hk.out
    | _ => rfl
  unfold Station.frames
  rw [hes, List.filterMap_append, hnone, List.nil_append]

/-- Only the master itself, its timers and the receive interrupt touch the bus. -/
theorem step_sameBus {s : Station} {i : Input} (hbyte : ∀ tmp, i ≠ .usart1Irq tmp)
    (hcomm : ∀ stack, i ≠ .modbusComm stack) : SameBus s (step s i) := by
  have hpanel := step_panel s i
  suffices h : ∀ q : Panel, PanelStep s i q → q.bRunOut = s.panel.bRunOut ∧
      q.gSpeedSetSta = s.panel.gSpeedSetSta ∧ q.uart1RecvBuff = s.panel.uart1RecvBuff ∧
      q.uart1RecvCount = s.panel.uart1RecvCount by
    obtain ⟨hout, hsta, hbuff, hcount⟩ := h _ hpanel
    exact ⟨hout, hsta, hbuff, hcount⟩
  intro q hq
  cases hq with
  | byte tmp => exact absurd rfl (hbyte tmp)
  | comm stack => exact absurd rfl (hcomm stack)
  | tick pins =>
      have hcount : ∀ p : Panel, p.countReset.bRunOut = p.bRunOut ∧
          p.countReset.gSpeedSetSta = p.gSpeedSetSta ∧
          p.countReset.uart1RecvBuff = p.uart1RecvBuff ∧
          p.countReset.uart1RecvCount = p.uart1RecvCount := by
        intro p
        unfold Panel.countReset
        split_ifs <;> exact ⟨rfl, rfl, rfl, rfl⟩
      unfold Panel.tick
      split_ifs <;> exact hcount s.panel
  | stopped | reset | check | restart | other => exact ⟨rfl, rfl, rfl, rfl⟩

/-- Without a transmission the receive window does not open. -/
theorem step_window {s : Station} {i : Input} (hi : i.Beside)
    (h : (step s i).modbus.uart1CommuState = .recvData) :
    s.modbus.uart1CommuState = .recvData := by
  have hframe := (step_touches s i).keeps
  rcases step_cases s i with hstep | hstep
  · rwa [hstep] at h
  cases i with
  | modbusComm stack => exact absurd hi id
  | timeUpdate pins =>
      have hcount := SameMaster.of_keeps (timeCounters_keeps s)
      have hscan := SameMaster.of_keeps
        (inputScanProc_touches pins (uartRecvTimeout (timeCounters s))).keeps
      have hscanned : handle s (.timeUpdate pins) =
          inputScanProc pins (uartRecvTimeout (timeCounters s)) := rfl
      rw [hstep, hscanned, hscan.state, uartRecvTimeout_state, hcount.state] at h
      split_ifs at h
      exact h
  | usart1Irq tmp =>
      rw [hstep] at h
      exact (usart1IrqHandler_facts tmp s).1.symm.trans h
  | canFrame _ | udpReceive _ _ | udpClient _ | sendMessage | secProcess _ | canSend _
  | resetStart | upstreamIo | uploadRunState | msoneProcess _ =>
      exact (SameMaster.of_keeps hframe).state.symm.trans h

/-- A byte that comes in. -/
theorem usart1Irq_master {s : Station} (h : TimerInv s) (tmp : U8) :
    MasterStep s (.usart1Irq tmp) (step s (.usart1Irq tmp)) := by
  have hflight : SameFlight s (step s (.usart1Irq tmp)) := step_sameFlight h trivial
  have hwindow := step_window (s := s) (i := .usart1Irq tmp) trivial
  have hframes := (step_touches s (.usart1Irq tmp)).frames
  have hdeaf : ∀ (hsame : step s (.usart1Irq tmp) = s)
      (_ : s.systemReset = true ∨ s.modbus.uart1CommuState ≠ .recvData),
      MasterStep s (.usart1Irq tmp) (step s (.usart1Irq tmp)) := fun hsame hdeaf =>
    .beside _ _ hflight hwindow (SameBus.of_panel (congrArg Station.panel hsame)) hframes
      (fun _ _ => hdeaf) rfl
  by_cases hreset : s.systemReset = true
  · exact hdeaf (if_pos hreset) (Or.inl hreset)
  have hstep : step s (.usart1Irq tmp) = usart1IrqHandler tmp s := if_neg hreset
  by_cases hrecv : s.modbus.uart1CommuState = .recvData
  · have hrun : s.systemReset = false := by simpa using hreset
    have heq : usart1IrqHandler tmp s =
        if s.modbus.uart1RecvCount < 50 then
          { s with
            modbus.uart1Tmr := 5
            modbus.uart1RecvBuff := write s.modbus.uart1RecvBuff s.modbus.uart1RecvCount [tmp]
            modbus.uart1RecvCount := s.modbus.uart1RecvCount + 1 }
        else
          { s with
            modbus.uart1Tmr := 5
            modbus.uart1RecvBuff := write s.modbus.uart1RecvBuff s.modbus.uart1RecvCount [tmp] } :=
      if_pos hrecv
    rw [hstep, heq] at hflight hframes ⊢
    refine .byte tmp _ hrun hrecv hflight ?_ ?_ ?_ ?_ hframes <;> split_ifs <;> rfl
  · exact hdeaf (hstep.trans (if_neg hrecv)) (Or.inr hrecv)

/-- A judged command is released, or it waits for its next attempt. -/
theorem commJudge_closed {s : Station} (hbusy : s.logic.commBusyFlag = true)
    (hend : s.modbus.uart1CommuState = .recvDataEnd) :
    ((commJudge s).logic.commBusyFlag = true → ¬ Listening (commJudge s)) ∧
      (commJudge s).modbus.uart1CommuState ≠ .recvData := by
  have hfinish : ∀ accepted t, t.modbus.uart1CommuState = .recvDataEnd →
      ((commFinish accepted t).logic.commBusyFlag = true → ¬ Listening (commFinish accepted t)) ∧
        (commFinish accepted t).modbus.uart1CommuState ≠ .recvData := by
    intro accepted t ht
    have hne : t.modbus.uart1CommuState ≠ .recvData := by simp [ht]
    unfold commFinish
    split_ifs
    · exact ⟨nofun, hne⟩
    · refine ⟨fun _ hopen => ?_, nofun⟩
      rcases hopen with hopen | hopen <;> cases hopen
    · exact ⟨nofun, hne⟩
  have hrecv := (commRecvRwComand_quiet s.modbus.uart1RecvBuff s.modbus.uart1RecvCount hbusy).keeps
  obtain ⟨hstate, -⟩ := Prod.mk.inj (hrecv.same .uartState (by decide))
  exact hfinish _ _ (hstate.trans hend)

/-- A call of the master. -/
theorem modbusComm_master (stack : Table 4 U16) (s : Station) :
    MasterStep s (.modbusComm stack) (step s (.modbusComm stack)) := by
  have hsame : step s (.modbusComm stack) = s → verdict s (.modbusComm stack) = none →
      MasterStep s (.modbusComm stack) (step s (.modbusComm stack)) := by
    intro hstep hverdict
    rw [hstep]
    exact .beside _ _ (SameMaster.mk rfl rfl rfl rfl).sameFlight id ⟨rfl, rfl, rfl, rfl⟩ rfl
      nofun hverdict
  by_cases hreset : s.systemReset = true
  · exact hsame (if_pos hreset) (by simp [verdict, hreset])
  have hrun : s.systemReset = false := by simpa using hreset
  by_cases hidle : s.logic.commBusyFlag = false
  · have hstep : step s (.modbusComm stack) = commTakeNode s :=
      (if_neg hreset).trans (if_pos hidle)
    rcases commTakeNode_cases s with ⟨-, hnone⟩ | ⟨x, -, -, hready⟩
    · exact hsame (hstep.trans hnone) (by simp [verdict, hidle])
    · rw [hstep]
      exact .take stack _ hidle hready (SameBus.of_panel (commTakeNode_panel s))
        (frames_of_trace (commTakeNode_keeps s).trace)
  have hbusy : s.logic.commBusyFlag = true := by simpa using hidle
  by_cases hsend : s.modbus.uart1CommuState = .sendData
  · have hstep : step s (.modbusComm stack) = commSendRwComand stack s :=
      (if_neg hreset).trans ((if_neg hidle).trans (if_pos hsend))
    cases hbuild : commBuildFrame stack s with
    | none =>
        exact hsame (hstep.trans (commSendRwComand_of_none hbuild)) (by simp [verdict, hsend])
    | some p =>
        have hpanel := commSendRwComand_panel hbuild
        have hnode := (commSendRwComand_keeps stack s).same .node (by decide)
        have hframes : (commSendRwComand stack s).frames = p.1 :: s.frames := by
          unfold Station.frames
          rw [commSendRwComand_trace hbuild]
          rfl
        rw [hstep]
        exact .send stack _ p.1 p.2 hrun hbusy hsend hbuild (Prod.mk.inj hnode).1
          (commSendRwComand_window hbuild) (congrArg Panel.bRunOut hpanel)
          (congrArg Panel.gSpeedSetSta hpanel) (congrArg Panel.uart1RecvBuff hpanel)
          (congrArg Panel.uart1RecvCount hpanel) hframes
  by_cases hend : s.modbus.uart1CommuState = .recvDataEnd
  · have hstep : step s (.modbusComm stack) = commJudge s :=
      (if_neg hreset).trans ((if_neg hidle).trans ((if_neg hsend).trans (if_pos hend)))
    have hpanel := commJudge_panel s
    obtain ⟨hopen, hstate⟩ := commJudge_closed hbusy hend
    rw [hstep]
    exact .judge stack _ hrun hbusy hend hopen hstate (congrArg Panel.bRunOut hpanel)
      (congrArg Panel.gSpeedSetSta hpanel) (congrArg Panel.uart1RecvBuff hpanel)
      (congrArg Panel.uart1RecvCount hpanel) (frames_of_trace (commJudge_keeps hbusy).trace)
  · have hstep : step s (.modbusComm stack) = s :=
      (if_neg hreset).trans ((if_neg hidle).trans ((if_neg hsend).trans (if_neg hend)))
    exact hsame hstep (by simp [verdict, hend])

/-- **One step of the master.** -/
theorem step_master {s : Station} (h : TimerInv s) (i : Input) : MasterStep s i (step s i) := by
  have hbeside : (∀ tmp, i ≠ .usart1Irq tmp) → (∀ stack, i ≠ .modbusComm stack) → i.Beside →
      (step s i).frames = s.frames → verdict s i = none → MasterStep s i (step s i) :=
    fun hbyte hcomm hi hframes hverdict =>
      .beside i _ (step_sameFlight h hi) (step_window hi) (step_sameBus hbyte hcomm) hframes
        (fun tmp htmp => absurd htmp (hbyte tmp)) hverdict
  have hframe := step_touches s i
  cases i with
  | usart1Irq tmp => exact usart1Irq_master h tmp
  | modbusComm stack => exact modbusComm_master stack s
  | timeUpdate _ | canFrame _ | udpReceive _ _ | udpClient _ | sendMessage | secProcess _
  | canSend _ | resetStart | upstreamIo | uploadRunState | msoneProcess _ =>
      exact hbeside nofun nofun trivial hframe.frames rfl

/-- The books can be kept next to any run. -/
theorem reachable_audited {ok : Station → Input → Prop} {s : Station} (h : Reachable ok s) :
    ∃ a, Reach AuditStart auditStep (fun _ _ => True) (s, a) := by
  induction h with
  | start h => exact ⟨_, .start ⟨h, rfl⟩⟩
  | @next t i _ _ ih =>
      obtain ⟨a, ha⟩ := ih
      exact ⟨_, .next (i := i) ha trivial⟩

theorem reachable_timerInv {ok : Station → Input → Prop} {s : Station} (h : Reachable ok s) :
    TimerInv s := by
  obtain ⟨a, ha⟩ := reachable_audited h
  exact (audited_agrees ha).1.timers

end IotCtrl
