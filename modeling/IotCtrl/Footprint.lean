import IotCtrl.ClosedFacts
import IotCtrl.Control

/-!
# Which parts of a station a routine touches

`Keeps parts s t` says that `t` differs from `s` in the listed parts at most, and
in the data no part covers: the rest of the recorded inverter state, most debounced
inputs, the counters of `main.c` and most outputs.  The station number never changes.

There is one lemma for each routine of the communication side; the line handlers
are treated in `LineFrame`.
-/

namespace IotCtrl

open ByteMemory Transition ClosedFacts

/-- The parts of a station that invariants are about. -/
inductive Part
  /-- `user_paras_local`. -/
  | paras
  /-- `user_paras_slave`. -/
  | slave
  /-- `g_speed_gear_status`. -/
  | gear
  | uartQueue
  /-- `comm_node` and `comm_busy_flag`. -/
  | node
  /-- The globals of `modbus_rtu.c` but for those of `uartState` and `freq_check_cnt`. -/
  | modbus
  /-- `uart1_commu_state` and `uart1_tmr`. -/
  | uartState
  | canQueue
  /-- The receive side of `can_bus.c`. -/
  | recv
  | msgQueue
  /-- The buffers and states of the server link. -/
  | link
  | flash
  | systemReset
  | trace
  /-- The debounced emergency input. -/
  | emergency
  /-- The output `B_RUN_STA`. -/
  | runSta
  /-- `polling_num`. -/
  | polling
  | moduleQueue
  /-- Bit 0 of the recorded fault codes, the RS-485 fault. -/
  | commFault
  /-- Bit 4 of the recorded fault codes, running. -/
  | runBits
deriving DecidableEq

attribute [reducible] Part.ctorIdx

/-- The parts are numbered one to one, which the checks on closed lists rely on. -/
theorem Part.ctorIdx_inj (p q : Part) (h : p.ctorIdx = q.ctorIdx) : p = q := by
  rw [← Part.ofNat_ctorIdx p, h, Part.ofNat_ctorIdx]

section Evident

variable {p : Part} {ps qs : List Part}

instance [h : Checked (lacks Part.ctorIdx p ps)] : Evident (p ∉ ps) := ⟨not_mem_of_lacks h.out⟩

instance [h : Checked (has Part.ctorIdx p ps)] : Evident (p ∈ ps) :=
  ⟨mem_of_has Part.ctorIdx_inj h.out⟩

instance [h : Checked (within Part.ctorIdx ps qs)] : Evident (∀ p ∈ ps, p ∈ qs) :=
  ⟨subset_of_within Part.ctorIdx_inj h.out⟩

instance [h : Checked (apart Part.ctorIdx ps qs)] : Evident (∀ p ∈ ps, p ∉ qs) :=
  ⟨disjoint_of_apart h.out⟩

end Evident

/-- Bit 0, the RS-485 fault, of each recorded fault code. -/
def Station.commFault (s : Station) (i : Nat) : Bool := (s.inverter i).faultCode.getLsbD 0

/-- Bit 1, a jam, of each recorded fault code. -/
def Station.jam (s : Station) (i : Nat) : Bool := (s.inverter i).faultCode.getLsbD 1

/-- Bit 4, running, of each recorded fault code. -/
def Station.runBit (s : Station) (i : Nat) : Bool := (s.inverter i).faultCode.getLsbD 4

/-- A part is the same in two stations. -/
def Part.Same (s t : Station) : Part → Prop
  | .paras => t.logic.userParasLocal = s.logic.userParasLocal
  | .slave => t.logic.userParasSlave = s.logic.userParasSlave
  | .gear => t.logic.gSpeedGearStatus = s.logic.gSpeedGearStatus
  | .uartQueue => t.logic.uartSendQueue = s.logic.uartSendQueue
  | .node => (t.logic.commNode, t.logic.commBusyFlag) = (s.logic.commNode, s.logic.commBusyFlag)
  | .modbus =>
      { t.modbus with freqCheckCnt := 0, uart1CommuState := .sendReady, uart1Tmr := 0 } =
        { s.modbus with freqCheckCnt := 0, uart1CommuState := .sendReady, uart1Tmr := 0 }
  | .uartState => (t.modbus.uart1CommuState, t.modbus.uart1Tmr) =
      (s.modbus.uart1CommuState, s.modbus.uart1Tmr)
  | .canQueue => t.can.canSendQueue = s.can.canSendQueue
  | .recv => t.can.recv = s.can.recv
  | .msgQueue => t.msg.msgSendQueue = s.msg.msgSendQueue
  | .link =>
      { t.msg with msgSendQueue := s.msg.msgSendQueue } = s.msg
  | .flash => t.flash = s.flash
  | .systemReset => t.systemReset = s.systemReset
  | .trace => t.trace = s.trace
  | .emergency => t.logic.bEmergencyInfo = s.logic.bEmergencyInfo
  | .runSta => t.outs.bRunStaOut = s.outs.bRunStaOut
  | .polling => t.logic.pollingNum = s.logic.pollingNum
  | .moduleQueue => t.logic.moduleStatusQueue = s.logic.moduleStatusQueue
  | .commFault => t.commFault = s.commFault
  | .runBits => t.runBit = s.runBit

theorem Part.Same.refl (s : Station) (p : Part) : p.Same s s := by
  cases p <;> rfl

/-- The link is compared with one message queue put into both records, so that its case takes two
rewrites. -/
theorem Part.Same.trans {s t u : Station} {p : Part} (h : p.Same s t) (h' : p.Same t u) :
    p.Same s u := by
  cases p with
  | link =>
      have hst : { t.msg with msgSendQueue := s.msg.msgSendQueue } = s.msg := h
      have htu : { u.msg with msgSendQueue := t.msg.msgSendQueue } = t.msg := h'
      show { u.msg with msgSendQueue := s.msg.msgSendQueue } = s.msg
      rw [← hst, ← htu]
  | _ => exact Eq.trans h' h

/-- Only the listed parts differ. -/
structure Keeps (parts : List Part) (s t : Station) : Prop where
  localStation : t.main.localStation = s.main.localStation
  same : ∀ p, p ∉ parts → p.Same s t

namespace Keeps

variable {ps qs : List Part} {s t u : Station}

/-- A routine that returns its argument touches nothing. -/
theorem refl (s : Station) : Keeps ps s s := ⟨rfl, fun p _ => Part.Same.refl s p⟩

/-- Fewer parts touched than listed. -/
theorem mono (h : Keeps ps s t) [hsub : Evident (∀ p ∈ ps, p ∈ qs)] : Keeps qs s t :=
  ⟨h.localStation, fun p hp => h.same p fun hp' => hp (hsub.out p hp')⟩

/-- Two routines in a row touch what either of them touches. -/
theorem trans (h : Keeps ps s t) (h' : Keeps ps t u) : Keeps ps s u :=
  ⟨h'.localStation.trans h.localStation, fun p hp => (h.same p hp).trans (h'.same p hp)⟩

/-- `trans` with the later half first, which fixes the state in between. -/
theorem after (h' : Keeps ps t u) (h : Keeps ps s t) : Keeps ps s u := h.trans h'

/-- A loop touches what its body touches. -/
theorem foldl {ι : Type} {f : Station → ι → Station} (xs : List ι) (s : Station)
    (hf : ∀ t i, Keeps ps t (f t i)) : Keeps ps s (xs.foldl f s) :=
  foldl_rel refl trans xs s (fun i _ t => hf t i)

/-- Nobody changes the station number, so that a host stays the host. -/
theorem isHost (h : Keeps ps s t) : t.isHost = s.isHost := by
  unfold Station.isHost
  rw [h.localStation]

/-- The gear in force, for a routine that is not a line command. -/
theorem gear (h : Keeps ps s t) [hp : Evident (.gear ∉ ps)] :
    t.logic.gSpeedGearStatus = s.logic.gSpeedGearStatus :=
  h.same .gear hp.out

/-- The command in flight is the node together with the busy flag. -/
theorem inFlight (h : Keeps ps s t) [hp : Evident (.node ∉ ps)] :
    t.inFlight = s.inFlight := by
  have hnode : (t.logic.commNode, t.logic.commBusyFlag) =
      (s.logic.commNode, s.logic.commBusyFlag) := h.same .node hp.out
  obtain ⟨hn, hb⟩ := Prod.mk.inj hnode
  unfold Station.inFlight
  rw [hn, hb]

/-- The waiting inverter commands. -/
theorem uartNodes (h : Keeps ps s t) [hp : Evident (.uartQueue ∉ ps)] :
    t.uartNodes = s.uartNodes :=
  congrArg RingFifo.contents (h.same .uartQueue hp.out)

/-- The waiting CAN frames. -/
theorem canFrames (h : Keeps ps s t) [hp : Evident (.canQueue ∉ ps)] :
    t.canFrames = s.canFrames :=
  congrArg RingFifo.contents (h.same .canQueue hp.out)

/-- The waiting replies to the server. -/
theorem msgTypes (h : Keeps ps s t) [hp : Evident (.msgQueue ∉ ps)] :
    t.msgTypes = s.msgTypes :=
  congrArg RingFifo.contents (h.same .msgQueue hp.out)

/-- The history. -/
theorem trace (h : Keeps ps s t) [hp : Evident (.trace ∉ ps)] : t.trace = s.trace :=
  h.same .trace hp.out

end Keeps

/-! ## Ticks and bytes -/

/-- The time an answer may take and the interval of the command in flight count down, and each of
them moves the UART state at its end. -/
theorem uartRecvTimeout_keeps (s : Station) :
    Keeps [.node, .uartState] s (uartRecvTimeout s) := by
  unfold uartRecvTimeout
  dsimp only
  split_ifs
  all_goals exact ⟨rfl, fun p hp => by cases p <;> first | rfl | simp at hp⟩

/-- A byte goes into the receive buffer and restarts the time of the answer. -/
theorem usart1IrqHandler_keeps (tmp : U8) (s : Station) :
    Keeps [.modbus, .uartState] s (usart1IrqHandler tmp s) := by
  unfold usart1IrqHandler
  dsimp only
  split_ifs
  all_goals exact ⟨rfl, fun p hp => by cases p <;> first | rfl | simp at hp⟩

/-- The counters of `main.c` are no part of a station that an invariant is about. -/
theorem countMs_keeps (s : Station) : Keeps [] s (countMs s) :=
  ⟨rfl, fun p _ => by cases p <;> rfl⟩

theorem countSec_keeps (s : Station) : Keeps [] s (countSec s) := by
  unfold countSec
  split_ifs
  all_goals exact ⟨rfl, fun p _ => by cases p <;> rfl⟩

theorem countHalfSec_keeps (s : Station) : Keeps [] s (countHalfSec s) := by
  unfold countHalfSec
  split_ifs
  all_goals exact ⟨rfl, fun p _ => by cases p <;> rfl⟩

theorem countResetStart_keeps (s : Station) : Keeps [] s (countResetStart s) := by
  unfold countResetStart
  split_ifs
  all_goals exact ⟨rfl, fun p _ => by cases p <;> rfl⟩

/-- Every ten milliseconds a host with a waiting record queues a status upload. -/
theorem countUpload_keeps (s : Station) : Keeps [.msgQueue] s (countUpload s) := by
  unfold countUpload queueUpload
  dsimp only
  split_ifs
  all_goals exact ⟨rfl, fun p hp => by cases p <;> first | rfl | simp at hp⟩

/-- Of the counters at the head of a tick, only the upload is seen elsewhere. -/
theorem timeCounters_keeps (s : Station) : Keeps [.msgQueue] s (timeCounters s) := by
  have hsec := ((countMs_keeps s).trans (countSec_keeps _)).trans (countHalfSec_keeps _)
  exact (countUpload_keeps _).after ((hsec.trans (countResetStart_keeps _)).mono)

/-- A line command queues its speed writes, sets the gear, drives `B_RUN_STA` and is recorded. -/
theorem speedCtrlProcess_keeps (g : U8) (s : Station) :
    Keeps [.uartQueue, .gear, .runSta, .trace] s (speedCtrlProcess g s) := by
  have hadd : ∀ (x : CommNode) t,
      Keeps [.uartQueue, .gear, .runSta, .trace] t (addUartSendData2Queue x t) :=
    fun x t => ⟨rfl, fun p hp => by cases p <;> first | rfl | simp at hp⟩
  have hlog : Keeps [.uartQueue, .gear, .runSta, .trace] s (s.log (.speedCall g s.inFlight)) :=
    ⟨rfl, fun p hp => by cases p <;> first | rfl | simp at hp⟩
  have hinit : ∀ t, Keeps [.uartQueue, .gear, .runSta, .trace] t (initUartSendQueue t) :=
    fun t => ⟨rfl, fun p hp => by cases p <;> first | rfl | simp at hp⟩
  have hset : ∀ g r t, Keeps [.uartQueue, .gear, .runSta, .trace] t (setSpeedGear g r t) :=
    fun g r t => ⟨rfl, fun p hp => by cases p <;> first | rfl | simp at hp⟩
  unfold speedCtrlProcess
  dsimp only
  split_ifs
  · exact ((hlog.trans (hinit _)).trans (Keeps.foldl _ _ fun t i => hadd _ t)).trans (hset _ _ _)
  · exact (hlog.trans (Keeps.foldl _ _ fun t i => hadd _ t)).trans (hset _ _ _)
  · exact ((hlog.trans (hinit _)).trans (Keeps.foldl _ _ fun t i => hadd _ t)).trans (hset _ _ _)
  · exact (hlog.trans (Keeps.foldl _ _ fun t i => hadd _ t)).trans (hset _ _ _)
  · exact hlog

/-! ## Parameters -/

/-- Loading the parameter page also resets the stop speeds that `modbus_rtu.c` keeps. -/
theorem readUserParas_keeps (s : Station) : Keeps [.paras, .modbus] s (readUserParas s) := by
  unfold readUserParas
  refine Keeps.after (Keeps.foldl _ _ fun t i => ?_) ?_
  all_goals exact ⟨rfl, fun p hp => by cases p <;> first | rfl | simp at hp⟩

/-- Storing parameters writes the page and nothing in memory. -/
theorem writeUserParas_keeps (para : Nat → U16) (s : Station) :
    Keeps [.flash] s (writeUserParas para s) :=
  ⟨rfl, fun p hp => by cases p <;> first | rfl | simp at hp⟩

/-- A reply to the server keeps the block it is about and queues its type. -/
theorem paraReply_keeps (msgType : U16) (block : UserParas) (s : Station) :
    Keeps [.slave, .msgQueue, .trace] s (paraReply msgType block s) :=
  ⟨rfl, fun p hp => by cases p <;> first | rfl | simp at hp⟩

/-! ## Sending on the CAN bus -/

/-- Queueing frames touches their queue. -/
theorem addCanFrames_keeps (fs : List CanFrameExt) (s : Station) :
    Keeps [.canQueue] s (addCanFrames fs s) :=
  ⟨rfl, fun p hp => by cases p <;> first | rfl | simp at hp⟩

/-- A message is queued as its frames. -/
theorem canBusSendMsg_keeps (pbuf : List U8) (funcId srcId : U8) (s : Station) :
    Keeps [.canQueue] s (canBusSendMsg pbuf funcId srcId s) := by
  rw [canBusSendMsg_eq]
  exact addCanFrames_keeps _ s

/-- A parameter block is such a message. -/
theorem canBusSendParaBlock_keeps (cmd : U8) (block : UserParas) (s : Station) :
    Keeps [.canQueue] s (canBusSendParaBlock cmd block s) :=
  canBusSendMsg_keeps _ _ _ s

/-- So is the status of a station with belts. -/
theorem canBusSendModuleStatus_keeps (s : Station) :
    Keeps [.canQueue] s (canBusSendModuleStatus s) := by
  unfold canBusSendModuleStatus
  split_ifs
  · exact Keeps.refl s
  · exact canBusSendMsg_keeps _ _ _ s

/-- The host asks the next station; its index is no part. -/
theorem readNextModuleStatus_keeps (s : Station) :
    Keeps [.canQueue] s (readNextModuleStatus s) := by
  have hnext : Keeps [.canQueue] s (nextModuleIndex s) := ⟨rfl, fun p _ => by cases p <;> rfl⟩
  have hreset : ∀ t, Keeps [.canQueue] t (resetModuleIndex t) :=
    fun t => ⟨rfl, fun p _ => by cases p <;> rfl⟩
  unfold readNextModuleStatus
  dsimp only
  split_ifs
  · exact (hreset _).after ((canBusSendMsg_keeps _ _ _ _).after hnext)
  · exact (canBusSendMsg_keeps _ _ _ _).after hnext
  · exact Keeps.refl s

/-- Every half second the own status is queued for the upload, and the next station asked. -/
theorem halfSecHandle_keeps (s : Station) :
    Keeps [.canQueue, .moduleQueue] s (halfSecHandle s) := by
  have hclear : Keeps [.canQueue] s (clearHalfSecFlag s) :=
    ⟨rfl, fun p _ => by cases p <;> rfl⟩
  have hadd : ∀ m t, Keeps [.moduleQueue] t (addModuleStatusData2Queue m t) :=
    fun m t => ⟨rfl, fun p hp => by cases p <;> first | rfl | simp at hp⟩
  unfold halfSecHandle
  dsimp only
  split_ifs
  · exact ((readNextModuleStatus_keeps _).mono).after (((hadd _ _).mono).after (hclear.mono))
  · exact hclear.mono
  · exact Keeps.refl s

/-- Sending a frame takes it out of its queue. -/
theorem canSendFrameProcess_keeps (mailboxFree : Bool) (s : Station) :
    Keeps [.canQueue] s (canSendFrameProcess mailboxFree s).1 := by
  unfold canSendFrameProcess
  split
  · exact Keeps.refl s
  · split_ifs
    · exact ⟨rfl, fun p hp => by cases p <;> first | rfl | simp at hp⟩
    · exact Keeps.refl s

/-- A call of `can_send_frame_process` does nothing, or it hands out the oldest
frame. -/
theorem canSendFrameProcess_cases (mailboxFree : Bool) (s : Station) :
    canSendFrameProcess mailboxFree s = (s, none) ∨
      ∃ f t, canSendFrameProcess mailboxFree s = (t, some (canBusSendOneFrame f)) ∧
        s.canFrames = f :: t.canFrames ∧ Keeps [.canQueue] s t := by
  have hkeeps := canSendFrameProcess_keeps mailboxFree s
  unfold canSendFrameProcess at hkeeps ⊢
  cases htake : s.can.canSendQueue.take with
  | none => exact Or.inl rfl
  | some p =>
      obtain ⟨f, q⟩ := p
      cases mailboxFree with
      | false => exact Or.inl rfl
      | true =>
          rw [htake] at hkeeps
          exact Or.inr ⟨f, _, rfl, RingFifo.contents_take htake, hkeeps⟩

/-! ## Parameter requests -/

/-- The parts that a parameter request may touch. -/
@[reducible] def paraParts : List Part :=
  [.paras, .modbus, .flash, .slave, .msgQueue, .trace, .canQueue]

/-- Boot mode is a flag in the flash and a reset. -/
theorem enterBootMode_keeps (s : Station) :
    Keeps [.flash, .systemReset] s (enterBootMode s) :=
  ⟨rfl, fun p hp => by cases p <;> first | rfl | simp at hp⟩

/-- A write request of the server, for this station or for another one. -/
theorem recvWritePara_keeps (point : Mem) (s : Station) :
    Keeps paraParts s (recvWritePara point s) := by
  have htemp : ∀ p, Keeps paraParts s (setParasTemp p s) :=
    fun p => ⟨rfl, fun p hp => by cases p <;> rfl⟩
  unfold recvWritePara
  dsimp only
  split_ifs
  · refine ((paraReply_keeps _ _ _).mono).after ?_
    refine ((readUserParas_keeps _).mono).after ?_
    exact ((writeUserParas_keeps _ _).mono).after (htemp _)
  · exact ((canBusSendParaBlock_keeps _ _ _).mono).after (htemp _)

/-- A parameter message of another station: a read, a write or a reply. -/
theorem paraDataRecvProcess_keeps (pbuf : Mem) (recvLen : Nat) (s : Station) :
    Keeps paraParts s (paraDataRecvProcess pbuf recvLen s).val := by
  unfold paraDataRecvProcess
  simp only [Traced.val_bind]
  split_ifs
  · exact Keeps.refl s
  · exact (canBusSendParaBlock_keeps _ _ s).mono
  · exact (paraReply_keeps _ _ s).mono
  · refine ((canBusSendParaBlock_keeps _ _ _).mono).after ?_
    refine ((readUserParas_keeps _).mono).after ?_
    exact (writeUserParas_keeps _ _).mono
  · exact (paraReply_keeps _ _ s).mono
  · exact Keeps.refl s

/-- The reassembly state is one part. -/
theorem setCanRecv_keeps (r : CanRecv) (s : Station) : Keeps [.recv] s (setCanRecv r s) :=
  ⟨rfl, fun p hp => by cases p <;> first | rfl | simp at hp⟩

/-! ## The server link -/

/-- The next datagram is put down in the send buffer. -/
theorem setSendBuf_keeps (datagram : List U8) (s : Station) :
    Keeps [.link] s (setSendBuf datagram s) :=
  ⟨rfl, fun p hp => by cases p <;> first | rfl | simp at hp⟩

/-- Permission to send it. -/
theorem setSendEn_keeps (s : Station) : Keeps [.link] s { s with msg.tcpSendEn := true } :=
  ⟨rfl, fun p hp => by cases p <;> first | rfl | simp at hp⟩

/-- A handled datagram is dropped. -/
theorem recvDone_keeps (s : Station) :
    Keeps [.link] s { s with msg.tcpRecvLen := 0, msg.tcpClientStatue := .connectOk } :=
  ⟨rfl, fun p hp => by cases p <;> first | rfl | simp at hp⟩

/-- The oldest waiting reply leaves its queue. -/
theorem getSendMsgFromQueue_keeps (s : Station) :
    Keeps [.msgQueue] s (getSendMsgFromQueue s).2 := by
  unfold getSendMsgFromQueue
  split
  · exact Keeps.refl s
  · exact ⟨rfl, fun p hp => by cases p <;> first | rfl | simp at hp⟩

/-- A parameter reply is built and recorded. -/
theorem sendReplyParaCmd_keeps (type : U16) (s : Station) :
    Keeps [.link, .trace] s (sendReplyParaCmd type s) :=
  ⟨rfl, fun p hp => by cases p <;> first | rfl | simp at hp⟩

/-- A status datagram is built from the oldest record, which leaves its queue. -/
theorem sendMsgModuleStatusCmd_keeps (type : U16) (s : Station) :
    Keeps [.link, .moduleQueue] s (sendMsgModuleStatusCmd type s) := by
  unfold sendMsgModuleStatusCmd
  split
  · exact ⟨rfl, fun p hp => by cases p <;> first | rfl | simp at hp⟩
  · rename_i m t h
    obtain ⟨q, -, hq⟩ := Option.map_eq_some_iff.mp h
    obtain ⟨-, rfl⟩ := Prod.mk.inj hq
    exact ((setSendBuf_keeps _ _).mono).after
      ⟨rfl, fun p hp => by cases p <;> first | rfl | simp at hp⟩

/-- A datagram comes in behind what is left in the buffer. -/
theorem udpReceiveCallback_keeps (p : Pbuf) (m : U16) (s : Station) :
    Keeps [.link] s (udpReceiveCallback p m s) := by
  unfold udpReceiveCallback
  dsimp only
  split_ifs
  all_goals exact ⟨rfl, fun p hp => by cases p <;> first | rfl | simp at hp⟩

/-- The link connects or sends; what it sends is recorded. -/
theorem udpConnectProcess_keeps (env : UdpEnv) (s : Station) :
    Keeps [.link, .trace] s (udpConnectProcess env s) := by
  unfold udpConnectProcess udpSendProcess
  dsimp only
  split_ifs
  all_goals exact ⟨rfl, fun p hp => by cases p <;> first | rfl | simp at hp⟩

/-! ## Booting -/

/-- `main` enters its loop with empty queues and no history. -/
theorem boot_keeps (flash : Flash) (localStation : U8) :
    Keeps [.paras, .modbus] (Station.cleared flash localStation) (boot flash localStation) :=
  readUserParas_keeps _

/-- No frame waits behind the boot. -/
@[simp] theorem boot_canFrames (flash : Flash) (localStation : U8) :
    (boot flash localStation).canFrames = [] :=
  ((boot_keeps flash localStation).canFrames).trans (RingFifo.contents_empty _ _)

/-- The number is the one read from the DIP switches. -/
@[simp] theorem boot_localStation (flash : Flash) (localStation : U8) :
    (boot flash localStation).main.localStation = localStation :=
  (boot_keeps flash localStation).localStation

/-- The station runs. -/
@[simp] theorem boot_systemReset (flash : Flash) (localStation : U8) :
    (boot flash localStation).systemReset = false :=
  (boot_keeps flash localStation).same .systemReset (by decide)

@[simp] theorem boot_trace (flash : Flash) (localStation : U8) :
    (boot flash localStation).trace = [] :=
  (boot_keeps flash localStation).trace

end IotCtrl
