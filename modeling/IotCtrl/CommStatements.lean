import IotCtrl.CanSegment
import Mathlib.Logic.Relation

/-!
# The Modbus master, statement by statement

The tick and the receive interrupt run between any two statements of
`Modbus_RTU_Comm_Process`, and they write the same timers and the same state byte.
`CommThread` is the main loop inside that routine: a station and a position `Pc`.
One step executes one statement, lets an interrupt handler run to completion, or
lets the rest of the program change everything it may change.

* `comm_process_runs` — without interruptions the statements compute
  `modbusRtuCommProcess`;
* `CommInv` and `step_commInv` — what holds at each position;
* `comm_never_wedged` — runs in which no tick ends an interval that is being armed
  always leave the master waiting for something that will come;
* `tick_wedges`, `wedged_forever` — such a tick stops it, for good;
* `armed_tick_wedges` — the run that does.
-/

namespace IotCtrl

open ByteMemory Transition

/-! ## Positions -/

/-- The locals of `comm_send_rw_comand` and the frame in the send buffer. -/
structure SendLocals where
  belt : BeltParas
  writeData : List U16
  frame : List U8

/-- The next statement of `Modbus_RTU_Comm_Process`. -/
inductive Pc
  /-- `if(comm_busy_flag == 0)`. -/
  | entry
  /-- `comm_node_tmp = GetUartSendDataFromQueue()` and the test of it. -/
  | getNode
  /-- `comm_node = *comm_node_tmp`. -/
  | copyNode (slot : Nat)
  /-- `if (comm_node.comm_interval == 0)`. -/
  | testInterval
  /-- `comm_node.comm_interval = 15`. -/
  | fixInterval
  /-- `comm_busy_flag = 1`. -/
  | setBusy
  /-- `uart1_commu_state = SEND_READY` behind it. -/
  | setReady
  /-- `if(uart1_commu_state == SEND_DATA)`. -/
  | testSend
  /-- `comm_send_rw_comand` up to the loop of `uart1_send`. -/
  | buildFrame
  /-- The turn of that loop for byte `i`. -/
  | sendByte (l : SendLocals) (i : Nat)
  /-- `uart1_commu_state = RECV_DATA`. -/
  | setRecvData (l : SendLocals)
  /-- `uart1_recv_count = 0` behind it. -/
  | clearRecvCount (l : SendLocals)
  /-- `uart1_tmr = 50`. -/
  | setRecvTmr (l : SendLocals)
  /-- `comm_send_rw_comand` behind `uart1_send`. -/
  | setSpeedSta (l : SendLocals)
  /-- `if(uart1_commu_state == RECV_DATA_END)`. -/
  | testRecvEnd
  /-- `if(comm_recv_rw_comand(uart1_recv_buff,uart1_recv_count))`. -/
  | callRecv
  /-- `fault_code &= ~0x1`. -/
  | clearFault
  /-- `comm_busy_flag = 0`, at the end of either branch. -/
  | clearBusy
  /-- `if(comm_node.comm_retry > 0)`. -/
  | testRetry
  /-- `comm_node.comm_retry--`. -/
  | decRetry
  /-- `comm_node.comm_interval = 20`. -/
  | setInterval
  /-- `uart1_commu_state = SEND_READY` behind it. -/
  | setReadyAgain
  /-- `fault_code |= 0x1`. -/
  | setFault
  /-- `uart1_recv_count = 0` at the end. -/
  | clearCount

/-- The interval of the next command is set and its state is not. -/
def Pc.Arming : Pc → Prop
  | .setBusy | .setReady | .setReadyAgain => True
  | _ => False

/-- The main loop inside `Modbus_RTU_Comm_Process`. -/
structure CommThread where
  station : Station
  pc : Pc

/-! ## Statements -/

/-- Assign to `uart1_tmr`. -/
def setTmr (tmr : U16) (s : Station) : Station := { s with modbus.uart1Tmr := tmr }

/-- Assign to `comm_node.comm_interval`. -/
def setInterval (interval : U16) (s : Station) : Station :=
  setCommNode { s.logic.commNode with commInterval := interval } s

/-- `comm_node.comm_retry--`. -/
def decRetry (s : Station) : Station :=
  setCommNode { s.logic.commNode with commRetry := s.logic.commNode.commRetry - 1 } s

/-- Execute one statement.  `stack` is what `write_data` holds at the start. -/
def CommThread.stmt (stack : Table 4 U16) (c : CommThread) : CommThread :=
  let s := c.station
  match c.pc with
  | .entry => ⟨s, if s.logic.commBusyFlag = false then .getNode else .testSend⟩
  | .getNode =>
      match getUartSendDataFromQueue s with
      | none => ⟨s, .entry⟩
      | some (slot, t) => ⟨t, .copyNode slot⟩
  | .copyNode slot => ⟨setCommNode (s.logic.uartSendQueue.slot slot) s, .testInterval⟩
  | .testInterval =>
      ⟨s, if s.logic.commNode.commInterval = 0 then .fixInterval else .setBusy⟩
  | .fixInterval => ⟨setInterval 15 s, .setBusy⟩
  | .setBusy => ⟨setCommBusy true s, .setReady⟩
  | .setReady => ⟨setCommuState .sendReady s, .entry⟩
  | .testSend =>
      ⟨s, if s.modbus.uart1CommuState = .sendData then .buildFrame else .testRecvEnd⟩
  | .buildFrame =>
      match commBuildFrame stack s with
      | none => ⟨s, .entry⟩
      | some (frame, t) => ⟨t, .sendByte ⟨commBelt s, speedWriteData stack s, frame⟩ 0⟩
  | .sendByte l i =>
      if i < l.frame.length then ⟨s, .sendByte l (i + 1)⟩
      else ⟨s.log (.modbusTx l.frame), .setRecvData l⟩
  | .setRecvData l => ⟨setCommuState .recvData s, .clearRecvCount l⟩
  | .clearRecvCount l => ⟨setRecvCount 0 s, .setRecvTmr l⟩
  | .setRecvTmr l => ⟨setTmr 50 s, .setSpeedSta l⟩
  | .setSpeedSta l => ⟨commSetSpeedSta l.belt l.writeData s, .entry⟩
  | .testRecvEnd =>
      ⟨s, if s.modbus.uart1CommuState = .recvDataEnd then .callRecv else .entry⟩
  | .callRecv =>
      let r := commRecvRwComand s.modbus.uart1RecvBuff s.modbus.uart1RecvCount s
      ⟨r.2, if r.1 then .clearFault else .testRetry⟩
  | .clearFault => ⟨clearCommFault s, .clearBusy⟩
  | .clearBusy => ⟨setCommBusy false s, .clearCount⟩
  | .testRetry => ⟨s, if s.logic.commNode.commRetry > 0 then .decRetry else .setFault⟩
  | .decRetry => ⟨decRetry s, .setInterval⟩
  | .setInterval => ⟨setInterval 20 s, .setReadyAgain⟩
  | .setReadyAgain => ⟨setCommuState .sendReady s, .clearCount⟩
  | .setFault => ⟨setCommFault s, .clearBusy⟩
  | .clearCount => ⟨setRecvCount 0 s, .entry⟩

/-- `comm_node`, `comm_busy_flag`, the state byte, the timer and the receive buffer
of `s`, with everything else from `t`: nothing but this routine and the two handlers
assigns to these. -/
def keepComm (s t : Station) : Station :=
  { t with
    logic.commNode := s.logic.commNode
    logic.commBusyFlag := s.logic.commBusyFlag
    modbus.uart1CommuState := s.modbus.uart1CommuState
    modbus.uart1Tmr := s.modbus.uart1Tmr
    modbus.uart1RecvBuff := s.modbus.uart1RecvBuff
    modbus.uart1RecvCount := s.modbus.uart1RecvCount }

/-- One statement, one interrupt, or the rest of the program. -/
inductive CommInput
  | stmt (stack : Table 4 U16)
  | tick
  | rxByte (tmp : U8)
  /-- Whatever else changes: the queue, the parameters, the inputs. -/
  | others (t : Station)

def CommThread.step (c : CommThread) : CommInput → CommThread
  | .stmt stack => c.stmt stack
  | .tick => ⟨uartRecvTimeout c.station, c.pc⟩
  | .rxByte tmp => ⟨usart1IrqHandler tmp c.station, c.pc⟩
  | .others t => ⟨keepComm c.station t, c.pc⟩

/-- The main loop of a booted station before its first call. -/
def CommThread.Initial (c : CommThread) : Prop := Booted c.station ∧ c.pc = .entry

/-! ## The uninterrupted call -/

/-- Statements in a row. -/
abbrev StmtRun (stack : Table 4 U16) : CommThread → CommThread → Prop :=
  Relation.ReflTransGen fun c c' => c.stmt stack = c'

theorem StmtRun.next {stack : Table 4 U16} {c d c' : CommThread} (h : c.stmt stack = d)
    (hrest : StmtRun stack d c') : StmtRun stack c c' :=
  Relation.ReflTransGen.head h hrest

theorem StmtRun.done {stack : Table 4 U16} (c : CommThread) : StmtRun stack c c :=
  Relation.ReflTransGen.refl

/-- The loop of `uart1_send` ends after the last byte. -/
theorem sendByte_runs (stack : Table 4 U16) (s : Station) (l : SendLocals) :
    ∀ n i, i + n = l.frame.length →
      StmtRun stack ⟨s, .sendByte l i⟩ ⟨s.log (.modbusTx l.frame), .setRecvData l⟩ := by
  intro n
  induction n with
  | zero =>
      intro i hi
      have hend : CommThread.stmt stack ⟨s, .sendByte l i⟩ =
          ⟨s.log (.modbusTx l.frame), .setRecvData l⟩ := if_neg (by omega)
      exact StmtRun.next hend (StmtRun.done _)
  | succ n ih =>
      intro i hi
      have hturn : CommThread.stmt stack ⟨s, .sendByte l i⟩ = ⟨s, .sendByte l (i + 1)⟩ :=
        if_pos (by omega)
      exact StmtRun.next hturn (ih (i + 1) (by omega))

/-- From the test of the interval on. -/
theorem testInterval_runs (stack : Table 4 U16) (node : CommNode) (s : Station) :
    StmtRun stack ⟨setCommNode node s, .testInterval⟩
      ⟨setCommuState .sendReady (setCommBusy true (setCommNode (fixInterval node) s)),
        .entry⟩ := by
  have htail : ∀ u, StmtRun stack ⟨u, .setBusy⟩
      ⟨setCommuState .sendReady (setCommBusy true u), .entry⟩ := fun u =>
    StmtRun.next rfl (StmtRun.next rfl (StmtRun.done _))
  unfold fixInterval
  by_cases hzero : node.commInterval = 0
  · have htest : CommThread.stmt stack ⟨setCommNode node s, .testInterval⟩ =
        ⟨setCommNode node s, .fixInterval⟩ := congrArg (CommThread.mk _) (if_pos hzero)
    rw [if_pos hzero]
    exact StmtRun.next htest (StmtRun.next rfl (htail _))
  · have htest : CommThread.stmt stack ⟨setCommNode node s, .testInterval⟩ =
        ⟨setCommNode node s, .setBusy⟩ := congrArg (CommThread.mk _) (if_neg hzero)
    rw [if_neg hzero]
    exact StmtRun.next htest (htail _)

/-- Taking the next command. -/
theorem takeNode_runs (stack : Table 4 U16) (s : Station) :
    StmtRun stack ⟨s, .getNode⟩ ⟨commTakeNode s, .entry⟩ := by
  unfold commTakeNode
  cases hget : getUartSendDataFromQueue s with
  | none =>
      have hnone : CommThread.stmt stack ⟨s, .getNode⟩ = ⟨s, .entry⟩ := by
        simp only [CommThread.stmt, hget]
      exact StmtRun.next hnone (StmtRun.done _)
  | some p =>
      obtain ⟨slot, t⟩ := p
      have hsome : CommThread.stmt stack ⟨s, .getNode⟩ = ⟨t, .copyNode slot⟩ := by
        simp only [CommThread.stmt, hget]
      exact StmtRun.next hsome (StmtRun.next rfl (testInterval_runs stack _ t))

/-- Transmitting the command. -/
theorem send_runs (stack : Table 4 U16) (s : Station) :
    StmtRun stack ⟨s, .buildFrame⟩ ⟨commSendRwComand stack s, .entry⟩ := by
  unfold commSendRwComand
  cases hbuild : commBuildFrame stack s with
  | none =>
      have hnone : CommThread.stmt stack ⟨s, .buildFrame⟩ = ⟨s, .entry⟩ := by
        simp only [CommThread.stmt, hbuild]
      exact StmtRun.next hnone (StmtRun.done _)
  | some p =>
      obtain ⟨frame, t⟩ := p
      have hsome : CommThread.stmt stack ⟨s, .buildFrame⟩ =
          ⟨t, .sendByte ⟨commBelt s, speedWriteData stack s, frame⟩ 0⟩ := by
        simp only [CommThread.stmt, hbuild]
      refine StmtRun.next hsome ((sendByte_runs stack t _ frame.length 0 (Nat.zero_add _)).trans ?_)
      exact StmtRun.next rfl (StmtRun.next rfl (StmtRun.next rfl (StmtRun.next rfl
        (StmtRun.done _))))

/-- Releasing the command, or arming it again. -/
theorem finish_runs (stack : Table 4 U16) (accepted : Bool) (s : Station) :
    StmtRun stack ⟨s, if accepted then .clearFault else .testRetry⟩
      ⟨setRecvCount 0 (commFinish accepted s), .entry⟩ := by
  unfold commFinish
  cases accepted with
  | true => exact StmtRun.next rfl (StmtRun.next rfl (StmtRun.next rfl (StmtRun.done _)))
  | false =>
      by_cases hretry : s.logic.commNode.commRetry > 0
      · have htest : CommThread.stmt stack ⟨s, .testRetry⟩ = ⟨s, .decRetry⟩ :=
          congrArg (CommThread.mk s) (if_pos hretry)
        simp only [if_pos hretry]
        exact StmtRun.next htest (StmtRun.next rfl (StmtRun.next rfl (StmtRun.next rfl
          (StmtRun.next rfl (StmtRun.done _)))))
      · have htest : CommThread.stmt stack ⟨s, .testRetry⟩ = ⟨s, .setFault⟩ :=
          congrArg (CommThread.mk s) (if_neg hretry)
        simp only [if_neg hretry]
        exact StmtRun.next htest (StmtRun.next rfl (StmtRun.next rfl (StmtRun.next rfl
          (StmtRun.done _))))

/-- **Without interruptions** the statements compute the whole call. -/
theorem comm_process_runs (stack : Table 4 U16) (s : Station) :
    StmtRun stack ⟨s, .entry⟩ ⟨modbusRtuCommProcess stack s, .entry⟩ := by
  unfold modbusRtuCommProcess
  by_cases hidle : s.logic.commBusyFlag = false
  · have htest : CommThread.stmt stack ⟨s, .entry⟩ = ⟨s, .getNode⟩ :=
      congrArg (CommThread.mk s) (if_pos hidle)
    rw [if_pos hidle]
    exact StmtRun.next htest (takeNode_runs stack s)
  have hbusy : CommThread.stmt stack ⟨s, .entry⟩ = ⟨s, .testSend⟩ :=
    congrArg (CommThread.mk s) (if_neg hidle)
  rw [if_neg hidle]
  refine StmtRun.next hbusy ?_
  by_cases hsend : s.modbus.uart1CommuState = .sendData
  · have htest : CommThread.stmt stack ⟨s, .testSend⟩ = ⟨s, .buildFrame⟩ :=
      congrArg (CommThread.mk s) (if_pos hsend)
    rw [if_pos hsend]
    exact StmtRun.next htest (send_runs stack s)
  have hother : CommThread.stmt stack ⟨s, .testSend⟩ = ⟨s, .testRecvEnd⟩ :=
    congrArg (CommThread.mk s) (if_neg hsend)
  rw [if_neg hsend]
  refine StmtRun.next hother ?_
  by_cases hend : s.modbus.uart1CommuState = .recvDataEnd
  · have htest : CommThread.stmt stack ⟨s, .testRecvEnd⟩ = ⟨s, .callRecv⟩ :=
      congrArg (CommThread.mk s) (if_pos hend)
    rw [if_pos hend]
    exact StmtRun.next htest (StmtRun.next rfl (finish_runs stack _ _))
  · have htest : CommThread.stmt stack ⟨s, .testRecvEnd⟩ = ⟨s, .entry⟩ :=
      congrArg (CommThread.mk s) (if_neg hend)
    rw [if_neg hend]
    exact StmtRun.next htest (StmtRun.done _)

/-! ## What holds at each position -/

/-- The master is about to act, or a timer that will make it act is running. -/
def CommAlive (s : Station) : Prop :=
  s.modbus.uart1CommuState = .sendData ∨ s.modbus.uart1CommuState = .recvDataEnd ∨
    (s.modbus.uart1CommuState = .sendReady ∧ 0 < s.logic.commNode.commInterval) ∨
    (s.modbus.uart1CommuState = .recvData ∧ 0 < s.modbus.uart1Tmr)

instance (s : Station) : Decidable (CommAlive s) :=
  inferInstanceAs (Decidable (_ ∨ _ ∨ (_ ∧ _) ∨ (_ ∧ _)))

/-- The receive window is open, or a timer has closed it already. -/
def WindowOpen (s : Station) : Prop :=
  s.modbus.uart1CommuState = .recvData ∨ s.modbus.uart1CommuState = .recvDataEnd ∨
    s.modbus.uart1CommuState = .sendData

/-- What holds of the station at each position. -/
def CommInv (s : Station) : Pc → Prop
  | .entry | .clearCount => s.logic.commBusyFlag = true → CommAlive s
  | .setBusy | .setReady | .setReadyAgain => 0 < s.logic.commNode.commInterval
  | .testSend | .buildFrame | .setSpeedSta _ | .testRecvEnd => CommAlive s
  | .clearRecvCount _ | .setRecvTmr _ => WindowOpen s
  | .getNode => s.logic.commBusyFlag = false
  | _ => True

/-- It holds where the main loop is. -/
def CommThread.Inv (c : CommThread) : Prop := CommInv c.station c.pc

/-- No tick ends the interval of a command that is being armed. -/
def TickSpares (c : CommThread) (i : CommInput) : Prop :=
  i = .tick → c.pc.Arming → c.station.logic.commNode.commInterval ≠ 1

/-! ### Interrupts -/

theorem sub_one_eq_zero {x : U16} : x - 1 = 0 ↔ x = 1 := by
  constructor <;> intro h <;> bv_omega

/-- What one tick does to the state byte: the end of the interval overrides the end
of the window. -/
theorem uartRecvTimeout_state (s : Station) :
    (uartRecvTimeout s).modbus.uart1CommuState =
      if s.logic.commNode.commInterval = 1 then .sendData
      else if s.modbus.uart1Tmr = 1 then .recvDataEnd
      else s.modbus.uart1CommuState := by
  unfold uartRecvTimeout
  dsimp only
  simp only [sub_one_eq_zero]
  split_ifs <;> simp_all

theorem uartRecvTimeout_tmr (s : Station) :
    (uartRecvTimeout s).modbus.uart1Tmr =
      if s.modbus.uart1Tmr = 0 then 0 else s.modbus.uart1Tmr - 1 := by
  unfold uartRecvTimeout
  dsimp only
  split_ifs <;> simp_all

theorem uartRecvTimeout_interval (s : Station) :
    (uartRecvTimeout s).logic.commNode.commInterval =
      if s.logic.commNode.commInterval = 0 then 0 else s.logic.commNode.commInterval - 1 := by
  unfold uartRecvTimeout
  dsimp only
  split_ifs <;> simp_all

theorem uartRecvTimeout_busy (s : Station) :
    (uartRecvTimeout s).logic.commBusyFlag = s.logic.commBusyFlag := by
  unfold uartRecvTimeout
  dsimp only
  split_ifs <;> rfl

/-- A counter above 1 is above 0 a tick later. -/
theorem pos_sub_one {x : U16} (hpos : 0 < x) (hone : x ≠ 1) :
    0 < if x = 0 then 0 else x - 1 := by
  rw [if_neg (by bv_omega)]
  bv_omega

/-- A tick acts, or leaves the timer it waits for running. -/
theorem uartRecvTimeout_alive {s : Station} (h : CommAlive s) : CommAlive (uartRecvTimeout s) := by
  unfold CommAlive
  rw [uartRecvTimeout_state, uartRecvTimeout_tmr, uartRecvTimeout_interval]
  by_cases hiv : s.logic.commNode.commInterval = 1
  · exact Or.inl (if_pos hiv)
  rw [if_neg hiv]
  by_cases htmr : s.modbus.uart1Tmr = 1
  · exact Or.inr (Or.inl (if_pos htmr))
  rw [if_neg htmr]
  rcases h with h | h | ⟨h, hpos⟩ | ⟨h, hpos⟩
  · exact Or.inl h
  · exact Or.inr (Or.inl h)
  · exact Or.inr (Or.inr (Or.inl ⟨h, pos_sub_one hpos hiv⟩))
  · exact Or.inr (Or.inr (Or.inr ⟨h, pos_sub_one hpos htmr⟩))

theorem uartRecvTimeout_windowOpen {s : Station} (h : WindowOpen s) :
    WindowOpen (uartRecvTimeout s) := by
  unfold WindowOpen
  rw [uartRecvTimeout_state]
  split_ifs
  · exact Or.inr (Or.inr rfl)
  · exact Or.inr (Or.inl rfl)
  · exact h

/-- A byte touches nothing but the timer and the buffer. -/
theorem usart1IrqHandler_facts (tmp : U8) (s : Station) :
    (usart1IrqHandler tmp s).modbus.uart1CommuState = s.modbus.uart1CommuState ∧
      (usart1IrqHandler tmp s).logic = s.logic ∧
      (usart1IrqHandler tmp s).modbus.uart1Tmr =
        if s.modbus.uart1CommuState = .recvData then 5 else s.modbus.uart1Tmr := by
  unfold usart1IrqHandler
  dsimp only
  split_ifs <;> exact ⟨rfl, rfl, rfl⟩

theorem usart1IrqHandler_alive (tmp : U8) {s : Station} (h : CommAlive s) :
    CommAlive (usart1IrqHandler tmp s) := by
  obtain ⟨hstate, hlogic, htmr⟩ := usart1IrqHandler_facts tmp s
  unfold CommAlive
  rw [hstate, hlogic, htmr]
  rcases h with h | h | h | ⟨h, -⟩
  · exact Or.inl h
  · exact Or.inr (Or.inl h)
  · exact Or.inr (Or.inr (Or.inl h))
  · refine Or.inr (Or.inr (Or.inr ⟨h, ?_⟩))
    rw [if_pos h]
    decide

/-! ### Steps -/

theorem commSetSpeedSta_alive {belt : BeltParas} {data : List U16} {s : Station}
    (h : CommAlive s) : CommAlive (commSetSpeedSta belt data s) := by
  unfold commSetSpeedSta
  dsimp only
  split_ifs <;> exact h

theorem stmt_commInv (stack : Table 4 U16) {c : CommThread} (h : c.Inv) :
    (c.stmt stack).Inv := by
  obtain ⟨s, pc⟩ := c
  cases pc with
  | entry =>
      unfold CommThread.Inv CommThread.stmt
      dsimp only
      split_ifs with hidle
      · exact hidle
      · exact h (by simpa using hidle)
  | getNode =>
      unfold CommThread.Inv CommThread.stmt
      dsimp only
      cases getUartSendDataFromQueue s with
      | none => exact fun hbusy => absurd (h.symm.trans hbusy) (by decide)
      | some p => trivial
  | copyNode slot => trivial
  | testInterval =>
      unfold CommThread.Inv CommThread.stmt
      dsimp only
      split_ifs with hzero
      · trivial
      · show 0 < s.logic.commNode.commInterval
        bv_omega
  | fixInterval =>
      show (0 : U16) < 15
      decide
  | setBusy => exact h
  | setReady => exact fun _ => Or.inr (Or.inr (Or.inl ⟨rfl, h⟩))
  | testSend =>
      unfold CommThread.Inv CommThread.stmt
      dsimp only
      split_ifs <;> exact h
  | buildFrame =>
      unfold CommThread.Inv CommThread.stmt
      dsimp only
      cases commBuildFrame stack s with
      | none => exact fun _ => h
      | some p => trivial
  | sendByte l i =>
      unfold CommThread.Inv CommThread.stmt
      dsimp only
      split_ifs <;> trivial
  | setRecvData l => exact Or.inl rfl
  | clearRecvCount l => exact h
  | setRecvTmr l =>
      have hpos : (0 : U16) < 50 := by decide
      rcases h with h | h | h
      · exact Or.inr (Or.inr (Or.inr ⟨h, hpos⟩))
      · exact Or.inr (Or.inl h)
      · exact Or.inl h
  | setSpeedSta l => exact fun _ => commSetSpeedSta_alive h
  | testRecvEnd =>
      unfold CommThread.Inv CommThread.stmt
      dsimp only
      split_ifs
      · trivial
      · exact fun _ => h
  | callRecv =>
      unfold CommThread.Inv CommThread.stmt
      dsimp only
      split_ifs <;> trivial
  | clearFault => trivial
  | clearBusy => exact fun hbusy => absurd hbusy Bool.false_ne_true
  | testRetry =>
      unfold CommThread.Inv CommThread.stmt
      dsimp only
      split_ifs <;> trivial
  | decRetry => trivial
  | setInterval =>
      show (0 : U16) < 20
      decide
  | setReadyAgain => exact fun _ => Or.inr (Or.inr (Or.inl ⟨rfl, h⟩))
  | setFault => trivial
  | clearCount => exact h

/-- A tick that spares the interval keeps what holds at each position. -/
theorem tick_commInv {c : CommThread} (h : c.Inv)
    (hok : c.pc.Arming → c.station.logic.commNode.commInterval ≠ 1) : (c.step .tick).Inv := by
  obtain ⟨s, pc⟩ := c
  have hbusy := uartRecvTimeout_busy s
  have harm : pc.Arming → 0 < s.logic.commNode.commInterval →
      0 < (uartRecvTimeout s).logic.commNode.commInterval := by
    intro hp hpos
    rw [uartRecvTimeout_interval]
    exact pos_sub_one hpos (hok hp)
  cases pc with
  | entry => exact fun hb => uartRecvTimeout_alive (h (hbusy ▸ hb))
  | clearCount => exact fun hb => uartRecvTimeout_alive (h (hbusy ▸ hb))
  | getNode => exact hbusy.trans h
  | setBusy => exact harm trivial h
  | setReady => exact harm trivial h
  | setReadyAgain => exact harm trivial h
  | testSend => exact uartRecvTimeout_alive h
  | buildFrame => exact uartRecvTimeout_alive h
  | setSpeedSta l => exact uartRecvTimeout_alive h
  | testRecvEnd => exact uartRecvTimeout_alive h
  | clearRecvCount l => exact uartRecvTimeout_windowOpen h
  | setRecvTmr l => exact uartRecvTimeout_windowOpen h
  | _ => trivial

theorem rxByte_commInv (tmp : U8) {c : CommThread} (h : c.Inv) : (c.step (.rxByte tmp)).Inv := by
  obtain ⟨s, pc⟩ := c
  obtain ⟨hstate, hlogic, -⟩ := usart1IrqHandler_facts tmp s
  have hwindow : WindowOpen s → WindowOpen (usart1IrqHandler tmp s) := by
    unfold WindowOpen
    rw [hstate]
    exact id
  have hnode : 0 < s.logic.commNode.commInterval →
      0 < (usart1IrqHandler tmp s).logic.commNode.commInterval := by
    rw [hlogic]
    exact id
  have hbusy : (usart1IrqHandler tmp s).logic.commBusyFlag = s.logic.commBusyFlag := by
    rw [hlogic]
  cases pc with
  | entry => exact fun hb => usart1IrqHandler_alive tmp (h (hbusy ▸ hb))
  | clearCount => exact fun hb => usart1IrqHandler_alive tmp (h (hbusy ▸ hb))
  | getNode => exact hbusy.trans h
  | setBusy => exact hnode h
  | setReady => exact hnode h
  | setReadyAgain => exact hnode h
  | testSend => exact usart1IrqHandler_alive tmp h
  | buildFrame => exact usart1IrqHandler_alive tmp h
  | setSpeedSta l => exact usart1IrqHandler_alive tmp h
  | testRecvEnd => exact usart1IrqHandler_alive tmp h
  | clearRecvCount l => exact hwindow h
  | setRecvTmr l => exact hwindow h
  | _ => trivial

/-- What holds at a position depends on the parts that the rest of the program
keeps. -/
theorem others_commInv (t : Station) {c : CommThread} (h : c.Inv) : (c.step (.others t)).Inv := by
  obtain ⟨s, pc⟩ := c
  cases pc <;> exact h

/-- **Step lemma.** -/
theorem step_commInv {c : CommThread} (i : CommInput) (h : c.Inv) (hok : TickSpares c i) :
    (c.step i).Inv := by
  cases i with
  | stmt stack => exact stmt_commInv stack h
  | tick => exact tick_commInv h (hok rfl)
  | rxByte tmp => exact rxByte_commInv tmp h
  | others t => exact others_commInv t h

/-- A booted station has no command in flight. -/
theorem boot_idle (flash : Flash) (localStation : U8) :
    (boot flash localStation).logic.commBusyFlag = false :=
  (Prod.mk.inj ((boot_keeps flash localStation).same .node (by decide))).2

/-- **The master is never stuck.**  In every run whose ticks spare the interval of a
command that is being armed, whatever else is interleaved, the master with a
command in flight acts on its next call or waits for a running timer. -/
theorem comm_never_wedged (c : CommThread)
    (hreach : Reach CommThread.Initial CommThread.step TickSpares c) (hentry : c.pc = .entry)
    (hbusy : c.station.logic.commBusyFlag = true) : CommAlive c.station := by
  have hinit : ∀ d : CommThread, d.Initial → d.Inv := by
    rintro ⟨s, pc⟩ ⟨⟨flash, localStation, rfl⟩, rfl⟩
    exact fun hb => absurd ((boot_idle flash localStation).symm.trans hb) (by decide)
  have hinv : c.Inv := Reach.invariant hinit (fun _ i h hok => step_commInv i h hok) hreach
  obtain ⟨s, pc⟩ := c
  subst hentry
  exact hinv hbusy

/-! ## The tick that stops the master -/

/-- The condition is exact: a tick that ends the interval of a command being armed
sets a state that the next statements overwrite. -/
theorem tick_wedges (stack : Table 4 U16) {c : CommThread} (harm : c.pc.Arming)
    (hone : c.station.logic.commNode.commInterval = 1)
    (hbusy : c.pc ≠ .setBusy → c.station.logic.commBusyFlag = true) :
    ∃ t, StmtRun stack (c.step .tick) ⟨t, .entry⟩ ∧ t.logic.commBusyFlag = true ∧
      ¬ CommAlive t := by
  obtain ⟨s, pc⟩ := c
  have hzero : (uartRecvTimeout s).logic.commNode.commInterval = 0 := by
    rw [uartRecvTimeout_interval, hone]
    decide
  have hdead : ∀ t : Station, t.modbus.uart1CommuState = .sendReady →
      t.logic.commNode.commInterval = 0 → ¬ CommAlive t := by
    intro t hstate hiv
    unfold CommAlive
    rw [hstate, hiv]
    simp
  cases pc with
  | setBusy =>
      refine ⟨setCommuState .sendReady (setCommBusy true (uartRecvTimeout s)), ?_, rfl,
        hdead _ rfl hzero⟩
      exact StmtRun.next rfl (StmtRun.next rfl (StmtRun.done _))
  | setReady =>
      refine ⟨setCommuState .sendReady (uartRecvTimeout s), ?_, ?_, hdead _ rfl hzero⟩
      · exact StmtRun.next rfl (StmtRun.done _)
      · exact (uartRecvTimeout_busy s).trans (hbusy (by simp))
  | setReadyAgain =>
      refine ⟨setRecvCount 0 (setCommuState .sendReady (uartRecvTimeout s)), ?_, ?_,
        hdead _ rfl hzero⟩
      · exact StmtRun.next rfl (StmtRun.next rfl (StmtRun.done _))
      · exact (uartRecvTimeout_busy s).trans (hbusy (by simp))
  | _ => exact harm.elim

/-- A command is in flight and nothing is running that would ever end its wait. -/
structure Wedged (s : Station) : Prop where
  busy : s.logic.commBusyFlag = true
  state : s.modbus.uart1CommuState = .sendReady
  interval : s.logic.commNode.commInterval = 0
  tmr : s.modbus.uart1Tmr = 0

/-- The calls of a stopped master find nothing to do. -/
def WedgedAt (c : CommThread) : Prop :=
  Wedged c.station ∧ (c.pc = .entry ∨ c.pc = .testSend ∨ c.pc = .testRecvEnd)

theorem step_wedgedAt {c : CommThread} (i : CommInput) (h : WedgedAt c) : WedgedAt (c.step i) := by
  obtain ⟨s, pc⟩ := c
  obtain ⟨hw, hpc⟩ := h
  have hs : Wedged s := hw
  cases i with
  | stmt stack =>
      rcases hpc with rfl | rfl | rfl
      · exact ⟨hs, Or.inr (Or.inl (if_neg (by simp [hs.busy])))⟩
      · exact ⟨hs, Or.inr (Or.inr (if_neg (by simp [hs.state])))⟩
      · exact ⟨hs, Or.inl (if_neg (by simp [hs.state]))⟩
  | tick =>
      refine ⟨⟨?_, ?_, ?_, ?_⟩, hpc⟩
      · exact (uartRecvTimeout_busy s).trans hs.busy
      · show (uartRecvTimeout s).modbus.uart1CommuState = _
        rw [uartRecvTimeout_state, hs.interval, hs.tmr]
        exact hs.state
      · show (uartRecvTimeout s).logic.commNode.commInterval = 0
        rw [uartRecvTimeout_interval, hs.interval]
        rfl
      · show (uartRecvTimeout s).modbus.uart1Tmr = 0
        rw [uartRecvTimeout_tmr, hs.tmr]
        rfl
  | rxByte tmp =>
      have hidle : usart1IrqHandler tmp s = s := if_neg (by simp [hs.state])
      refine ⟨?_, hpc⟩
      show Wedged (usart1IrqHandler tmp s)
      rw [hidle]
      exact hs
  | others t => exact ⟨⟨hs.busy, hs.state, hs.interval, hs.tmr⟩, hpc⟩

/-- **A stopped master stays stopped**, whatever happens. -/
theorem wedged_forever {s : Station} (h : Wedged s) (is : List CommInput) :
    Wedged (run CommThread.step ⟨s, .entry⟩ is).station := by
  have hat : ∀ (is : List CommInput) (c : CommThread), WedgedAt c →
      WedgedAt (run CommThread.step c is) := by
    intro is
    induction is with
    | nil => exact fun c hc => hc
    | cons i is ih => exact fun c hc => ih (c.step i) (step_wedgedAt i hc)
  exact (hat is ⟨s, .entry⟩ ⟨h, Or.inl rfl⟩).1

/-! ## Two runs -/

/-- Station 2 with a single command of 1 ms in its queue. -/
def oneMsCommand : Station := addUartSendData2Queue (speedNode 1 2 1) (boot zeroFlash 2)

/-- The command is taken, and the tick comes before the test of the interval. -/
def earlyTick : List CommInput :=
  let stmt := CommInput.stmt fun _ => 0
  [.others oneMsCommand, stmt, stmt, stmt, .tick, stmt, stmt, stmt, stmt]

/-- The same tick one statement later. -/
def armedTick : List CommInput :=
  let stmt := CommInput.stmt fun _ => 0
  [.others oneMsCommand, stmt, stmt, stmt, stmt, .tick, stmt, stmt]

/-- The main loop of station 2 before its first call. -/
def commStart : CommThread := ⟨boot zeroFlash 2, .entry⟩

theorem commStart_initial : commStart.Initial := ⟨⟨zeroFlash, 2, rfl⟩, rfl⟩

/-- The early tick spares the command: its interval is set to 15 afterwards. -/
theorem early_tick_alive : CommAlive (run CommThread.step commStart earlyTick).station := by
  have hreach : Reach CommThread.Initial CommThread.step TickSpares
      (run CommThread.step commStart earlyTick) := by
    refine reach_run commStart_initial ?_
    refine ⟨nofun, nofun, nofun, nofun, fun _ harm => harm.elim, nofun, nofun, nofun, nofun,
      trivial⟩
  exact comm_never_wedged _ hreach rfl (by decide +kernel)

/-- The tick one statement later stops the master. -/
theorem armed_tick_wedges :
    ¬ ∀ c, Reach CommThread.Initial CommThread.step (fun _ _ => True) c → c.pc = .entry →
      c.station.logic.commBusyFlag = true → CommAlive c.station := by
  intro h
  have hreach : Reach CommThread.Initial CommThread.step (fun _ _ => True)
      (run CommThread.step commStart armedTick) :=
    reach_run commStart_initial (Along.of_forall (fun _ _ => trivial) _ _)
  have hdead : ¬ CommAlive (run CommThread.step commStart armedTick).station := by
    decide +kernel
  exact hdead (h _ hreach rfl (by decide +kernel))

end IotCtrl
