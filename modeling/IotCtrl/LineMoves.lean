import IotCtrl.StepFrame
import Mathlib.Logic.Relation

/-!
# What a step does to the line

Every step of the controller is a chain of a few kinds of moves on the gear, the UART
queue and the command in flight: a routine beside the line, a line handler, a poll, a
line command, and the moves of the Modbus master.  An invariant of the line has one
case for each of them.

* `startCommand`, `CommandedBy` — where the gear of a line command comes from;
* `Move` — the moves;
* `step_moves` — every step is a chain of moves;
* `Moves.invariant`, `reachable_of_moves` — the rules that invariants are proved by.
-/

namespace IotCtrl

open ByteMemory Transition ClosedFacts

/-! ## Line commands of a step -/

/-- The command byte of the `START_CMD` message that an input completes, from the CAN
bus or the server. -/
def startCommand (s : Station) : Input → Option U8
  | .canFrame rxMsg =>
      let id := canDecodeId rxMsg.extId
      let (r, finished) := canReassemble id rxMsg.data s.can.recv
      if finished = true ∧ id.funcId = CAN_FUNC_ID_START_CMD then some (r.canRecvBuff 0) else none
  | .udpClient _ =>
      if s.isHost = true ∧ s.msg.tcpClientStatue = .connectRecv ∧
          recvMsgCheck s.msg.tcpRecvBuf s.msg.tcpRecvLen.toNat = true ∧
          msgType s.msg.tcpRecvBuf = RECV_MSG_START_CMD_TYPE then
        some (s.msg.tcpRecvBuf 11)
      else none
  | _ => none

/-- The gears a step may command: those of the two buttons, the emergency stop, and the
byte of a message. -/
def CommandedBy (s : Station) (i : Input) (g : U8) : Prop :=
  g = 2 ∨ g = 0 ∨ g = EMERGENCY_STOP ∨ startCommand s i = some g

/-! ## Moves -/

/-- All parts but the gear and its output, the queue, the command in flight and the
polling counter. -/
@[reducible] def asideParts : List Part :=
  [.paras, .slave, .modbus, .uartState, .canQueue, .recv, .msgQueue, .link, .flash, .systemReset,
    .trace, .emergency, .moduleQueue, .commFault, .runBits]

/-- The events beside line commands and transmissions to inverters. -/
@[reducible] def asideKinds : List EventKind := [.canDone, .paraDone, .replyBuilt, .udpSent]

/-- A routine that has nothing to do with the line. -/
abbrev Aside : Station → Station → Prop := Touches asideParts asideKinds

/-- What a line handler may touch. -/
@[reducible] def handlerParts : List Part := [.uartQueue, .commFault, .runBits, .moduleQueue]

/-- The next attempt at the command in flight. -/
def retryNode (node : CommNode) : CommNode :=
  { node with
    commRetry := node.commRetry - 1
    commInterval := 20 }

/-- One move, with a line command only for a gear of `commanded`. -/
inductive Move (commanded : U8 → Prop) : Station → Station → Prop
  | aside {s t : Station} (h : Aside s t) : Move commanded s t
  | handler {s t : Station} (h : QuietBut handlerParts s t) : Move commanded s t
  | poll (speedGear : U16) (s : Station) : Move commanded s (mainMsoneProcess speedGear s)
  | command {g : U8} (hg : commanded g) (s : Station) : Move commanded s (speedCtrlProcess g s)
  | take {s : Station} (hidle : s.logic.commBusyFlag = false) : Move commanded s (commTakeNode s)
  | send (stack : Table 4 U16) {s : Station} (hbusy : s.logic.commBusyFlag = true) :
      Move commanded s (commSendRwComand stack s)
  | retry {s : Station} (hbusy : s.logic.commBusyFlag = true)
      (hleft : s.logic.commNode.commRetry > 0) :
      Move commanded s (setCommuState .sendReady (setCommNode (retryNode s.logic.commNode) s))
  | release (s : Station) : Move commanded s (setCommBusy false s)
  | tick (s : Station) : Move commanded s (uartRecvTimeout s)

/-- A chain of moves. -/
abbrev Moves (commanded : U8 → Prop) : Station → Station → Prop :=
  Relation.ReflTransGen (Move commanded)

namespace Moves

variable {P : U8 → Prop} {s t u : Station}

/-- `trans` with the later half first, which fixes the state in between. -/
theorem after (h' : Moves P t u) (h : Moves P s t) : Moves P s u := h.trans h'

theorem aside (h : Aside s t) : Moves P s t := Relation.ReflTransGen.single (Move.aside h)

theorem keeps {ps : List Part} (h : Keeps ps s t)
    [hsub : Evident (∀ p ∈ ps, p ∈ asideParts)] [hp : Evident (.trace ∉ ps)] :
    Moves P s t :=
  aside (Touches.of_keeps h)

theorem quiet {ps : List Part} (h : QuietBut ps s t)
    [hsub : Evident (∀ p ∈ ps, p ∈ handlerParts)] : Moves P s t :=
  Relation.ReflTransGen.single (Move.handler h.mono)

theorem command {g : U8} (hg : P g) (s : Station) : Moves P s (speedCtrlProcess g s) :=
  Relation.ReflTransGen.single (Move.command hg s)

/-- **Invariants of the line.**  What every move preserves, a chain preserves. -/
theorem invariant {I : Station → Prop} (hmove : ∀ s t, Move P s t → I s → I t)
    (h : Moves P s t) (hs : I s) : I t := by
  induction h with
  | refl => exact hs
  | tail _ hmove' ih => exact hmove _ _ hmove' ih

end Moves

/-! ## The Modbus master -/

/-- The next command comes from the queue, if there is one. -/
theorem commTakeNode_cases (s : Station) :
    (s.uartNodes = [] ∧ commTakeNode s = s) ∨
      ∃ x, s.uartNodes = x :: (commTakeNode s).uartNodes ∧
        (commTakeNode s).inFlight = some (fixInterval x) ∧
        (commTakeNode s).modbus.uart1CommuState = .sendReady := by
  cases htake : s.logic.uartSendQueue.takeSlot with
  | none =>
      refine Or.inl ⟨(RingFifo.take_none_iff _).mp ?_, ?_⟩
      · rw [RingFifo.take, htake]
        rfl
      · simp [commTakeNode, getUartSendDataFromQueue, htake]
  | some p =>
      have hcontents : s.uartNodes = s.logic.uartSendQueue.slot p.1 :: p.2.contents :=
        RingFifo.contents_take (by rw [RingFifo.take, htake]; rfl)
      have heq : commTakeNode s =
          setCommuState .sendReady (setCommBusy true (setCommNode
            (fixInterval (s.logic.uartSendQueue.slot p.1))
            { s with logic.uartSendQueue := p.2 })) := by
        simp [commTakeNode, getUartSendDataFromQueue, htake, RingFifo.slot_of_takeSlot htake]
      refine Or.inr ⟨s.logic.uartSendQueue.slot p.1, ?_⟩
      rw [heq]
      exact ⟨hcontents, rfl, rfl⟩

/-- Waiting out the interval changes nothing else of the command. -/
theorem uartRecvTimeout_node (s : Station) :
    (uartRecvTimeout s).logic.commBusyFlag = s.logic.commBusyFlag ∧
      ∃ interval, (uartRecvTimeout s).logic.commNode =
        { s.logic.commNode with commInterval := interval } := by
  unfold uartRecvTimeout
  dsimp only
  split_ifs
  all_goals exact ⟨rfl, _, rfl⟩

theorem fixInterval_eq (node : CommNode) :
    ∃ interval, fixInterval node = { node with commInterval := interval } := by
  unfold fixInterval
  split_ifs
  · exact ⟨15, rfl⟩
  · exact ⟨node.commInterval, rfl⟩

theorem commFinish_moves {P : U8 → Prop} (accepted : Bool) {s : Station}
    (hbusy : s.logic.commBusyFlag = true) : Moves P s (commFinish accepted s) := by
  have hrelease : ∀ t, Moves P t (setCommBusy false t) :=
    fun t => Relation.ReflTransGen.single (Move.release t)
  unfold commFinish
  split_ifs with haccept hleft
  · exact (hrelease _).after (Moves.keeps (clearCommFault_keeps s))
  · exact Relation.ReflTransGen.single (Move.retry hbusy hleft)
  · exact (hrelease _).after (Moves.keeps (setCommFault_keeps s))

theorem commJudge_moves {P : U8 → Prop} {s : Station} (hbusy : s.logic.commBusyFlag = true) :
    Moves P s (commJudge s) := by
  have hrecv := commRecvRwComand_quiet s.modbus.uart1RecvBuff s.modbus.uart1RecvCount hbusy
  have hstill : (commRecvRwComand s.modbus.uart1RecvBuff s.modbus.uart1RecvCount
      s).2.logic.commBusyFlag = true := by
    have hnode := hrecv.keeps.same .node (by decide)
    exact (Prod.mk.inj hnode).2.trans hbusy
  refine (Moves.keeps (setRecvCount_keeps _ _)).after ?_
  exact (commFinish_moves _ hstill).after (Moves.quiet hrecv)

theorem modbusRtuCommProcess_moves {P : U8 → Prop} (stack : Table 4 U16) (s : Station) :
    Moves P s (modbusRtuCommProcess stack s) := by
  unfold modbusRtuCommProcess
  split_ifs with hidle
  · exact Relation.ReflTransGen.single (Move.take hidle)
  · exact Relation.ReflTransGen.single (Move.send stack (by simpa using hidle))
  · exact commJudge_moves (by simpa using hidle)
  · exact Relation.ReflTransGen.refl

/-! ## Frames and messages -/

theorem canDispatch_moves {P : U8 → Prop} {funcId : U8} (srcId : U8) {s : Station}
    (hP : funcId = CAN_FUNC_ID_START_CMD → P (s.can.recv.canRecvBuff 0)) :
    Moves P s (canDispatch funcId srcId s).val := by
  unfold canDispatch
  dsimp only
  split_ifs with hpara hstart
  · exact Moves.aside (paraDataRecvProcess_touches _ _ s).mono
  · exact Moves.command (hP hstart) s
  · exact Moves.quiet (moduleStatusRecvProcess_quiet _ _ _ s)
  · exact Moves.quiet (resetCtrlHandle_quiet s)
  · exact Moves.quiet (setBlockDisable_quiet _ s)
  · exact Moves.keeps (canBusSendModuleStatus_keeps s)
  · exact Relation.ReflTransGen.refl

theorem canBusFrameReceive_moves {P : U8 → Prop} (rxMsg : CanRxMsg) {s : Station}
    (hP : ∀ g, startCommand s (.canFrame rxMsg) = some g → P g) :
    Moves P s (canBusFrameReceive rxMsg s) := by
  have hrecv : ∀ r, Moves P s (setCanRecv r s) := fun r => Moves.keeps (setCanRecv_keeps r s)
  unfold startCommand at hP
  unfold canBusFrameReceive
  dsimp only at hP ⊢
  split_ifs with hboot hfinished
  · exact Moves.keeps (enterBootMode_keeps s)
  · refine (canDispatch_moves _ fun hstart => ?_).after ?_
    · exact hP _ (if_pos ⟨hfinished, hstart⟩)
    · exact (Moves.aside (Touches.log _ _ List.mem_cons_self)).after (hrecv _)
  · exact hrecv _

theorem recvMsgProcess_moves {P : U8 → Prop} {point : Mem} {s : Station}
    (hP : msgType point = RECV_MSG_START_CMD_TYPE → P (point 11)) :
    Moves P s (recvMsgProcess point s) := by
  have hsend : ∀ pbuf f src t, Moves P t (canBusSendMsg pbuf f src t) :=
    fun pbuf f src t => Moves.keeps (canBusSendMsg_keeps pbuf f src t)
  unfold recvMsgProcess
  split_ifs with hboot hread hlocal hwrite hstart
  · exact Moves.keeps (enterBootMode_keeps s)
  · exact Moves.aside (paraReply_touches _ _ s).mono
  · exact hsend _ _ _ s
  · exact Moves.aside (recvWritePara_touches point s).mono
  · exact (hsend _ _ _ _).after (Moves.command (hP hstart) s)
  · exact (hsend _ _ _ _).after (Moves.quiet (resetCtrlHandle_quiet s))
  · exact (hsend _ _ _ _).after (Moves.quiet (setBlockDisable_quiet _ s))
  · exact Relation.ReflTransGen.refl

theorem udpClientProcess_moves {P : U8 → Prop} (env : UdpEnv) {s : Station}
    (hhost : s.isHost = true) (hP : ∀ g, startCommand s (.udpClient env) = some g → P g) :
    Moves P s (udpClientProcess env s) := by
  have hmsg : s.msg.tcpClientStatue = .connectRecv →
      Moves P s (recvMessageFromServer s.msg.tcpRecvBuf s.msg.tcpRecvLen.toNat s) := by
    intro hrecv
    unfold recvMessageFromServer
    split_ifs with hcheck
    · exact Relation.ReflTransGen.refl
    · refine recvMsgProcess_moves fun hstart => hP _ ?_
      exact if_pos ⟨hhost, hrecv, by simpa using hcheck, hstart⟩
  have hconnect : ∀ t, Moves P t (udpConnectProcess env t) :=
    fun t => Moves.aside (udpConnectProcess_touches env t).mono
  unfold udpClientProcess
  dsimp only
  split_ifs with hrecv
  · exact hmsg hrecv
  · exact (hconnect _).after ((Moves.keeps (recvDone_keeps _)).after (hmsg hrecv))
  · exact hconnect s

/-! ## The tick -/

theorem buttonCommand_moves {P : U8 → Prop} {g : U8} (hg : P g) (s : Station) :
    Moves P s (buttonCommand g s) := by
  unfold buttonCommand
  split_ifs
  · exact (Moves.keeps (canBusSendMsg_keeps _ _ _ _)).after (Moves.command hg s)
  · exact Relation.ReflTransGen.refl

theorem scanStart_moves {P : U8 → Prop} (hP : P 2) (pins : Pins) (s : Station) :
    Moves P s (scanStart pins s) := by
  have hset : ∀ b, Moves P s (setStartInfo b s) := fun b => Moves.quiet (setStartInfo_quiet b s)
  unfold scanStart
  dsimp only
  split_ifs
  · exact (buttonCommand_moves hP _).after (hset _)
  · exact hset _

theorem scanStop_moves {P : U8 → Prop} (hP : P 0) (pins : Pins) (s : Station) :
    Moves P s (scanStop pins s) := by
  have hset : ∀ b, Moves P s (setStopInfo b s) := fun b => Moves.quiet (setStopInfo_quiet b s)
  unfold scanStop
  dsimp only
  split_ifs
  · exact (buttonCommand_moves hP _).after (hset _)
  · exact hset _

theorem scanEmergency_moves {P : U8 → Prop} (hP : P EMERGENCY_STOP) (pins : Pins) (s : Station) :
    Moves P s (scanEmergency pins s) := by
  have hset : ∀ b t, Moves P t (setEmergencyInfo b t) :=
    fun b t => Moves.keeps (setEmergencyInfo_keeps b t)
  have hstop : ∀ t, Moves P t (speedCtrlProcess EMERGENCY_STOP t) := Moves.command hP
  unfold scanEmergency
  dsimp only
  split_ifs
  · exact (hstop _).after ((hset _ _).after ((hstop _).after (hset _ s)))
  · exact (hstop _).after ((hset _ _).after (hset _ s))
  · exact (hset _ _).after ((hstop _).after (hset _ s))
  · exact (hset _ _).after (hset _ s)
  · exact (hstop _).after (hset _ s)
  · exact hset _ s

theorem inputScanProc_moves {P : U8 → Prop} (hrun : P 2) (hstop : P 0) (hem : P EMERGENCY_STOP)
    (pins : Pins) (s : Station) : Moves P s (inputScanProc pins s) := by
  unfold inputScanProc inputScanCommands
  refine (scanEmergency_moves hem pins _).after ?_
  refine (Moves.quiet (scanStream_quiet pins _)).after ?_
  refine (scanStop_moves hstop pins _).after ((scanStart_moves hrun pins _).after ?_)
  exact (Moves.quiet (photos_quiet pins _)).after (Moves.quiet (scanReset_quiet pins s))

theorem timeUpdate_moves {P : U8 → Prop} (hrun : P 2) (hstop : P 0) (hem : P EMERGENCY_STOP)
    (pins : Pins) (s : Station) : Moves P s (timeUpdate pins s) := by
  have hcount : Moves P s (timeCounters s) := Moves.keeps (timeCounters_keeps s)
  have htick : ∀ t, Moves P t (uartRecvTimeout t) :=
    fun t => Relation.ReflTransGen.single (Move.tick t)
  exact (inputScanProc_moves hrun hstop hem pins _).after ((htick _).after hcount)

/-! ## The system -/

/-- **A step is a chain of moves**, whose line commands are those of the buttons, the
emergency input and the message it completes. -/
theorem step_moves (s : Station) (i : Input) : Moves (CommandedBy s i) s (step s i) := by
  have hmsg : ∀ g, startCommand s i = some g → CommandedBy s i g :=
    fun g hg => Or.inr (Or.inr (Or.inr hg))
  unfold step
  split_ifs
  · exact Relation.ReflTransGen.refl
  cases i with
  | timeUpdate pins =>
      exact timeUpdate_moves (Or.inl rfl) (Or.inr (Or.inl rfl)) (Or.inr (Or.inr (Or.inl rfl)))
        pins s
  | usart1Irq tmp => exact Moves.keeps (usart1IrqHandler_keeps tmp s)
  | canFrame rxMsg => exact canBusFrameReceive_moves rxMsg hmsg
  | udpReceive p m =>
      show Moves _ s (if s.isHost then udpReceiveCallback p m s else s)
      split_ifs
      · exact Moves.keeps (udpReceiveCallback_keeps p m s)
      · exact Relation.ReflTransGen.refl
  | udpClient env =>
      show Moves _ s (if s.isHost then udpClientProcess env s else s)
      split_ifs with hhost
      · exact udpClientProcess_moves env hhost hmsg
      · exact Relation.ReflTransGen.refl
  | sendMessage =>
      show Moves _ s (if s.isHost then sendMessageToServer s else s)
      split_ifs
      · exact Moves.aside (sendMessageToServer_touches s).mono
      · exact Relation.ReflTransGen.refl
  | secProcess pins =>
      exact (Moves.keeps (halfSecHandle_keeps _)).after (Moves.quiet (secHandle_quiet pins s))
  | modbusComm stack => exact modbusRtuCommProcess_moves stack s
  | canSend mailboxFree => exact Moves.keeps (canSendFrameProcess_keeps mailboxFree s)
  | resetStart => exact Moves.quiet (resetStartInverterHandle_quiet s)
  | upstreamIo => exact Moves.quiet (logicUpstreamIoAllowOutput_quiet s)
  | uploadRunState => exact Moves.quiet (mainUploadRunState_quiet s)
  | msoneProcess speedGear => exact Relation.ReflTransGen.single (Move.poll speedGear s)

/-- **Invariants of runs**, from what a booted station satisfies and every move
preserves. -/
theorem reachable_of_moves {ok : Station → Input → Prop} {I : Station → Prop}
    {P : U8 → Prop} (hP : ∀ s i, ok s i → ∀ g, CommandedBy s i g → P g)
    (hboot : ∀ flash localStation, I (boot flash localStation))
    (hmove : ∀ s t, Move P s t → I s → I t) {s : Station} (h : Reachable ok s) : I s := by
  refine h.invariant ?_ fun s i hs hok => ?_
  · intro s hs
    obtain ⟨flash, localStation, rfl⟩ := hs
    exact hboot flash localStation
  · have hmono : ∀ a b, Move (CommandedBy s i) a b → Move P a b := by
      intro a b hab
      cases hab with
      | aside h => exact Move.aside h
      | handler h => exact Move.handler h
      | poll speedGear _ => exact Move.poll speedGear _
      | command hg _ => exact Move.command (hP s i hok _ hg) _
      | take hidle => exact Move.take hidle
      | send stack hbusy => exact Move.send stack hbusy
      | retry hbusy hleft => exact Move.retry hbusy hleft
      | release _ => exact Move.release _
      | tick _ => exact Move.tick _
    exact Moves.invariant (fun a b hab => hmove a b (hmono a b hab)) (step_moves s i) hs

end IotCtrl
