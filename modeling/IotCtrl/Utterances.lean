import IotCtrl.ParaLoads
import IotCtrl.ParameterWrite

/-!
# The messages of a station

A station puts five kinds of message on the CAN bus.  Parameter messages among them are the
requests that the host passes on, and the answers, which carry the number of their sender.

* `Utterance` — the five kinds;
* `step_uttered`, `hear_uttered` — what a step puts into the send queue, on its own or for a frame
  that comes in.
-/

namespace IotCtrl

open ByteMemory Transition ClosedFacts

/-- The messages of station `no`, when the blocks it passes on satisfy `asked`. -/
inductive Utterance (no : U8) (asked : UserParas → Prop) : List U8 → U8 → U8 → Prop
  /-- What the host says that is no parameter message. -/
  | notice {pbuf : List U8} {funcId : U8} (srcId : U8) (hhost : no = 1) (hlt : funcId < 16)
      (hpara : funcId ≠ CAN_FUNC_ID_PARA_DATA) : Utterance no asked pbuf funcId srcId
  /-- The state of the belts. -/
  | status {n : Nat} (body : List U8) (num : U8) (hn : 1 ≤ n ∧ n ≤ 10)
      (hbody : body.length = 10 * n) :
      Utterance no asked
        ([lo (BitVec.ofNat 16 (3 + body.length)), hi (BitVec.ofNat 16 (3 + body.length)), num] ++
          body) CAN_FUNC_ID_MODULE_STATUS no
  /-- A read request, under the number of the station that is asked. -/
  | readRequest (stationNo : U8) (hhost : no = 1) :
      Utterance no asked (paraMsg 0x01 []) CAN_FUNC_ID_PARA_DATA stationNo
  /-- A write request, under the low byte of the number in the block. -/
  | writeRequest (p : UserParas) (hhost : no = 1) (hasked : asked p) :
      Utterance no asked (blockMsg 0x02 p) CAN_FUNC_ID_PARA_DATA (lo p.stationNo)
  /-- An answer, under the own number. -/
  | reply {cmd : U8} (hcmd : cmd ≠ 0x02) (p : UserParas) :
      Utterance no asked (blockMsg cmd p) CAN_FUNC_ID_PARA_DATA no

/-- A frame of such a message. -/
def Uttered (no : U8) (asked : UserParas → Prop) (f : CanFrameExt) : Prop :=
  ∃ pbuf funcId srcId, Utterance no asked pbuf funcId srcId ∧ f ∈ canFramesOf pbuf funcId srcId

theorem Utterance.mono {no : U8} {asked asked' : UserParas → Prop} {pbuf : List U8}
    {funcId srcId : U8} (h : Utterance no asked pbuf funcId srcId)
    (hasked : ∀ p, asked p → asked' p) : Utterance no asked' pbuf funcId srcId := by
  cases h with
  | notice _ hhost hlt hpara => exact .notice _ hhost hlt hpara
  | status body num hn hbody => exact .status body num hn hbody
  | readRequest _ hhost => exact .readRequest _ hhost
  | writeRequest p hhost h => exact .writeRequest p hhost (hasked p h)
  | reply hcmd p => exact .reply hcmd p

theorem Uttered.mono {no : U8} {asked asked' : UserParas → Prop} {f : CanFrameExt}
    (h : Uttered no asked f) (hasked : ∀ p, asked p → asked' p) : Uttered no asked' f := by
  obtain ⟨pbuf, funcId, srcId, hmsg, hf⟩ := h
  exact ⟨pbuf, funcId, srcId, hmsg.mono hasked, hf⟩

/-- On the way from `s` to `t` frames of such messages were queued. -/
structure Says (asked : UserParas → Prop) (s t : Station) : Prop where
  station : t.main.localStation = s.main.localStation
  queue : ∃ fs, t.can.canSendQueue = s.can.canSendQueue.addAll fs ∧
    ∀ f ∈ fs, Uttered s.main.localStation asked f

namespace Says

variable {asked : UserParas → Prop} {s t u : Station}

theorem of_keeps {ps : List Part} (h : Keeps ps s t) [hq : Evident (.canQueue ∉ ps)] :
    Says asked s t :=
  ⟨h.localStation, [], h.same .canQueue hq.out, by simp⟩

theorem of_quiet {ps : List Part} (h : QuietBut ps s t) [hq : Evident (.canQueue ∉ ps)] :
    Says asked s t :=
  of_keeps h.keeps

theorem refl (s : Station) : Says asked s s := of_keeps (@Keeps.refl [] s)

theorem trans (h : Says asked s t) (h' : Says asked t u) : Says asked s u := by
  obtain ⟨hstation, fs, hqueue, hfs⟩ := h
  obtain ⟨hstation', fs', hqueue', hfs'⟩ := h'
  refine ⟨hstation'.trans hstation, fs ++ fs', ?_, fun f hf => ?_⟩
  · rw [hqueue', hqueue, RingFifo.addAll_append]
  · rcases List.mem_append.mp hf with hf | hf
    · exact hfs f hf
    · exact hstation ▸ hfs' f hf

/-- `trans` with the later half first, which fixes the state in between. -/
theorem after (h' : Says asked t u) (h : Says asked s t) : Says asked s u := h.trans h'

/-- One message. -/
theorem send {pbuf : List U8} {funcId srcId : U8}
    (h : Utterance s.main.localStation asked pbuf funcId srcId) :
    Says asked s (canBusSendMsg pbuf funcId srcId s) := by
  refine ⟨(canBusSendMsg_keeps pbuf funcId srcId s).localStation, canFramesOf pbuf funcId srcId,
    ?_, fun f hf => ⟨pbuf, funcId, srcId, h, hf⟩⟩
  rw [canBusSendMsg_eq]
  rfl

/-- What waits in the queue behind the step. -/
theorem canFrames (h : Says asked s t) {no : U8} (hno : s.main.localStation = no)
    (hwait : ∀ f ∈ s.canFrames, Uttered no asked f) : ∀ f ∈ t.canFrames, Uttered no asked f := by
  obtain ⟨-, fs, hqueue, hfs⟩ := h
  intro f hf
  unfold Station.canFrames at hf
  rw [hqueue, RingFifo.contents_addAll] at hf
  rcases List.mem_append.mp hf with hf | hf
  · exact hwait f hf
  · exact hno ▸ hfs f (List.mem_of_mem_take hf)

end Says

theorem localStation_of_isHost {s : Station} (h : s.isHost = true) : s.main.localStation = 1 :=
  eq_of_beq h

/-! ## What the routines say -/

section Routines

variable {asked : UserParas → Prop}

/-- A notice of the host. -/
theorem Says.notice {s : Station} (hhost : s.isHost = true) {funcId : U8} (hlt : funcId < 16)
    (hpara : funcId ≠ CAN_FUNC_ID_PARA_DATA) (pbuf : List U8) (srcId : U8) :
    Says asked s (canBusSendMsg pbuf funcId srcId s) :=
  .send (.notice srcId (localStation_of_isHost hhost) hlt hpara)

theorem startCmd_uttered {s : Station} (hhost : s.isHost = true) (g : U8) :
    Says asked s (canBusSendStartCmd g (speedCtrlProcess g s)) := by
  have hspeed := speedCtrlProcess_keeps g s
  have hhost' : (speedCtrlProcess g s).isHost = true := hspeed.isHost.trans hhost
  exact (Says.notice hhost' (by decide) (by decide) [g] _).after (Says.of_keeps hspeed)

theorem buttonCommand_uttered (g : U8) (s : Station) : Says asked s (buttonCommand g s) := by
  unfold buttonCommand
  split_ifs with hhost
  · exact startCmd_uttered hhost g
  · exact Says.refl s

theorem scanStart_uttered (pins : Pins) (s : Station) : Says asked s (scanStart pins s) := by
  have hset : ∀ b, Says asked s (setStartInfo b s) :=
    fun b => Says.of_quiet (setStartInfo_quiet b s)
  unfold scanStart
  dsimp only
  split_ifs
  · exact (buttonCommand_uttered _ _).after (hset _)
  · exact hset _

theorem scanStop_uttered (pins : Pins) (s : Station) : Says asked s (scanStop pins s) := by
  have hset : ∀ b, Says asked s (setStopInfo b s) := fun b => Says.of_quiet (setStopInfo_quiet b s)
  unfold scanStop
  dsimp only
  split_ifs
  · exact (buttonCommand_uttered _ _).after (hset _)
  · exact hset _

theorem scanEmergency_uttered (pins : Pins) (s : Station) :
    Says asked s (scanEmergency pins s) := by
  have hset : ∀ b t, Says asked t (setEmergencyInfo b t) :=
    fun b t => Says.of_keeps (setEmergencyInfo_keeps b t)
  have hstop : ∀ t, Says asked t (speedCtrlProcess EMERGENCY_STOP t) :=
    fun t => Says.of_keeps (speedCtrlProcess_keeps _ t)
  unfold scanEmergency
  dsimp only
  split_ifs
  · exact (hstop _).after ((hset _ _).after ((hstop _).after (hset _ s)))
  · exact (hstop _).after ((hset _ _).after (hset _ s))
  · exact (hset _ _).after ((hstop _).after (hset _ s))
  · exact (hset _ _).after (hset _ s)
  · exact (hstop _).after (hset _ s)
  · exact hset _ s

theorem inputScanCommands_uttered (pins : Pins) (s : Station) :
    Says asked s (inputScanCommands pins s) := by
  have hphoto : ∀ t, Says asked t ((List.range 5).foldl (scanPhoto pins) t) :=
    fun t => Says.of_quiet (photos_quiet pins t)
  unfold inputScanCommands
  refine (Says.of_quiet (scanStream_quiet pins _)).after ((scanStop_uttered pins _).after ?_)
  refine (scanStart_uttered pins _).after ((hphoto _).after ?_)
  exact Says.of_quiet (scanReset_quiet pins s)

theorem timeUpdate_uttered (pins : Pins) (s : Station) : Says asked s (timeUpdate pins s) := by
  unfold timeUpdate inputScanProc
  refine (scanEmergency_uttered pins _).after ((inputScanCommands_uttered pins _).after ?_)
  exact (Says.of_keeps (uartRecvTimeout_keeps _)).after (Says.of_keeps (timeCounters_keeps s))

theorem readNextModuleStatus_uttered {s : Station} (hhost : s.isHost = true) :
    Says asked s (readNextModuleStatus s) := by
  have hnext : Says asked s (nextModuleIndex s) := ⟨rfl, [], rfl, by simp⟩
  have hreset : ∀ t, Says asked t (resetModuleIndex t) := fun t => ⟨rfl, [], rfl, by simp⟩
  have hask : ∀ src, Says asked (nextModuleIndex s)
      (canBusSendMsg [] CAN_FUNC_ID_READ_MODULE_STATUS src (nextModuleIndex s)) :=
    fun src => .send (.notice src (localStation_of_isHost hhost) (by decide) (by decide))
  unfold readNextModuleStatus
  dsimp only
  split_ifs
  · exact (hreset _).after ((hask _).after hnext)
  · exact (hask _).after hnext
  · exact Says.refl s

theorem halfSecHandle_uttered (s : Station) : Says asked s (halfSecHandle s) := by
  have hclear : Says asked s (clearHalfSecFlag s) := ⟨rfl, [], rfl, by simp⟩
  have hadd : ∀ m t, Says asked t (addModuleStatusData2Queue m t) :=
    fun m t => ⟨rfl, [], rfl, by simp⟩
  unfold halfSecHandle
  dsimp only
  split_ifs with hflag hhost
  · refine (readNextModuleStatus_uttered ?_).after ((hadd _ _).after hclear)
    exact hhost
  · exact hclear
  · exact Says.refl s

theorem recvWritePara_uttered {point : Mem} {s : Station} (hhost : s.isHost = true)
    (hasked : asked (UserParas.ofBytes point 11)) : Says asked s (recvWritePara point s) := by
  have htemp : ∀ p, Says asked s (setParasTemp p s) := fun p => ⟨rfl, [], rfl, by simp⟩
  by_cases hmine : (UserParas.ofBytes point 11).stationNo = s.main.localStation.setWidth 16
  · rw [recvWritePara_local hmine]
    refine (Says.of_keeps (paraReply_keeps _ _ _)).after ?_
    exact (Says.of_keeps (readWriteParas_keeps _ _)).after (htemp _)
  · have hsend : ∀ t : Station, t.main.localStation = 1 →
        Says asked t (canBusSendWriteUserParas (UserParas.ofBytes point 11) t) :=
      fun t ht => .send (.writeRequest _ ht hasked)
    rw [recvWritePara_remote hmine]
    refine (hsend _ ?_).after (htemp _)
    exact localStation_of_isHost hhost

theorem recvMsgProcess_uttered {point : Mem} {s : Station} (hhost : s.isHost = true)
    (hasked : msgType point = RECV_MSG_WRITE_PARA_CMD_TYPE → asked (UserParas.ofBytes point 11)) :
    Says asked s (recvMsgProcess point s) := by
  have hnotice : ∀ {funcId : U8} (t : Station), t.isHost = true → funcId < 16 →
      funcId ≠ CAN_FUNC_ID_PARA_DATA → ∀ pbuf src, Says asked t (canBusSendMsg pbuf funcId src t) :=
    fun t ht hlt hpara pbuf src => Says.notice ht hlt hpara pbuf src
  have hreset := resetCtrlHandle_quiet s
  have hblock := setBlockDisable_quiet (point 11) s
  unfold recvMsgProcess
  split_ifs with hboot hread hmine hwrite
  · exact Says.of_keeps (enterBootMode_keeps s)
  · exact Says.of_keeps (paraReply_keeps _ _ s)
  · exact .send (.readRequest _ (localStation_of_isHost hhost))
  · exact recvWritePara_uttered hhost (hasked hwrite)
  · exact startCmd_uttered hhost _
  · exact (hnotice _ (hreset.keeps.isHost.trans hhost) (by decide) (by decide) _ _).after
      (Says.of_quiet hreset)
  · exact (hnotice _ (hblock.keeps.isHost.trans hhost) (by decide) (by decide) _ _).after
      (Says.of_quiet hblock)
  · exact Says.refl s

/-- The host passes on the block of the write request that it handles. -/
theorem udpClient_uttered {s : Station} (hrun : s.systemReset = false) (hhost : s.isHost = true)
    (env : UdpEnv) :
    Says (· ∈ writeRequested s (.udpClient env)) s (udpClientProcess env s) := by
  have hidle : ∀ t : Station, Says (· ∈ writeRequested s (.udpClient env)) t
      { t with msg.tcpRecvLen := 0, msg.tcpClientStatue := .connectOk } :=
    fun t => Says.of_keeps (recvDone_keeps t)
  have hconnect : ∀ t, Says (· ∈ writeRequested s (.udpClient env)) t (udpConnectProcess env t) :=
    fun t => Says.of_keeps (udpConnectProcess_keeps env t)
  by_cases hrecv : s.msg.tcpClientStatue = .connectRecv
  · have hmsg : Says (· ∈ writeRequested s (.udpClient env)) s
        (recvMessageFromServer s.msg.tcpRecvBuf s.msg.tcpRecvLen.toNat s) := by
      unfold recvMessageFromServer
      split_ifs with hcheck
      · exact Says.refl s
      · have hvalid : recvMsgCheck s.msg.tcpRecvBuf s.msg.tcpRecvLen.toNat = true := by
          simpa using hcheck
        exact recvMsgProcess_uttered hhost fun htype =>
          (if_pos ⟨hrun, hhost, hrecv, hvalid, htype⟩ : writeRequested s (.udpClient env) = _)
    unfold udpClientProcess
    rw [if_pos hrecv]
    dsimp only
    split_ifs
    · exact hmsg
    · exact (hconnect _).after ((hidle _).after hmsg)
  · unfold udpClientProcess
    rw [if_neg hrecv]
    exact hconnect s

end Routines

/-- **What a station says on its own.** -/
theorem step_uttered {s : Station} {i : Input} (hown : i.Own) :
    Says (· ∈ writeRequested s i) s (step s i) := by
  have hframe := (step_touches s i).keeps
  by_cases hrun : s.systemReset = true
  · have hsame : step s i = s := if_pos hrun
    rw [hsame]
    exact Says.refl s
  have hstep : step s i = handle s i := if_neg hrun
  cases i with
  | canFrame _ => exact absurd hown id
  | canSend _ => exact absurd hown id
  | timeUpdate pins =>
      rw [hstep]
      exact timeUpdate_uttered pins s
  | udpClient env =>
      rw [hstep]
      by_cases hhost : s.isHost = true
      · have hclient : handle s (.udpClient env) = udpClientProcess env s := if_pos hhost
        rw [hclient]
        exact udpClient_uttered (by simpa using hrun) hhost env
      · have hsame : handle s (.udpClient env) = s := if_neg hhost
        rw [hsame]
        exact Says.refl s
  | secProcess pins =>
      rw [hstep]
      exact (halfSecHandle_uttered _).after (Says.of_quiet (secHandle_quiet pins s))
  | usart1Irq _ | udpReceive _ _ | sendMessage | modbusComm _ | resetStart | upstreamIo
  | uploadRunState | msoneProcess _ => exact Says.of_keeps hframe

/-! ## Answers -/

/-- The parameters in use carry the number of the station. -/
def Named (s : Station) : Prop :=
  s.logic.userParasLocal.stationNo = s.main.localStation.setWidth 16

theorem LocalParas.check_stationNo (localStation : U8) (raw : UserParas) :
    (LocalParas.check localStation raw).stationNo = localStation.setWidth 16 := by
  have hparas := congrArg UserParas.stationNo (check_toUserParas localStation raw)
  exact hparas

theorem readUserParas_named (s : Station) : Named (readUserParas s) := by
  unfold Named
  rw [readUserParas_paras, LocalParas.check_stationNo, (readUserParas_keeps s).localStation]

/-- No step changes the number. -/
theorem step_localStation (s : Station) (i : Input) :
    (step s i).main.localStation = s.main.localStation :=
  (step_touches s i).keeps.localStation

theorem step_named {s : Station} (h : Named s) (i : Input) : Named (step s i) := by
  have hstored := step_stored s i
  have hno := step_localStation s i
  generalize hst : (step s i).stored = st at hstored
  unfold Named
  rw [hno]
  have hparas : (step s i).logic.userParasLocal = st.paras := congrArg Stored.paras hst
  rw [hparas]
  cases hstored with
  | load para t hstation hload =>
      have hnamed := readUserParas_named (writeUserParas para t)
      have ht : (readUserParas (writeUserParas para t)).main.localStation = s.main.localStation :=
        (readWriteParas_keeps para t).localStation.trans hstation
      rw [← ht]
      exact hnamed
  | speed hspeed =>
      have hsame : (rememberStopSpeed s).logic.userParasLocal = s.logic.userParasLocal := by
        obtain ⟨speeds, heq⟩ := rememberStopSpeed_eq s
        rw [heq]
      exact (congrArg (fun p : LocalParas => p.stationNo) hsame).trans h
  | other hload hspeed => exact h

theorem boot_named (flash : Flash) (localStation : U8) : Named (boot flash localStation) :=
  readUserParas_named _

section Hearing

variable {asked : UserParas → Prop}

theorem reply_uttered {cmd : U8} (hcmd : cmd ≠ 0x02) {s : Station} (h : Named s) :
    Says asked s (canBusSendParaBlock cmd s.logic.userParasLocal.toUserParas s) := by
  have hsrc : lo s.logic.userParasLocal.stationNo = s.main.localStation := by
    have hno : s.logic.userParasLocal.stationNo = s.main.localStation.setWidth 16 := h
    rw [hno]
    exact BitVec.setWidth_setWidth_of_le _ (by decide)
  have hsend : Says asked s (canBusSendMsg (blockMsg cmd s.logic.userParasLocal.toUserParas)
      CAN_FUNC_ID_PARA_DATA s.main.localStation s) := .send (.reply hcmd _)
  unfold canBusSendParaBlock
  rw [hsrc]
  exact hsend

theorem paraDataRecvProcess_uttered (pbuf : Mem) (recvLen : Nat) {s : Station} (h : Named s) :
    Says asked s (paraDataRecvProcess pbuf recvLen s).val := by
  have hreply : ∀ type block, Says asked s (paraReply type block s) :=
    fun type block => Says.of_keeps (paraReply_keeps type block s)
  unfold paraDataRecvProcess
  simp only [Traced.val_bind]
  split_ifs
  · exact Says.refl s
  · exact reply_uttered (by decide) h
  · exact hreply _ _
  · exact (reply_uttered (by decide) (readUserParas_named _)).after
      (Says.of_keeps (readWriteParas_keeps _ s))
  · exact hreply _ _
  · exact Says.refl s

theorem canBusSendModuleStatus_uttered (s : Station) : Says asked s (canBusSendModuleStatus s) := by
  unfold canBusSendModuleStatus
  split_ifs with hbelts
  · exact Says.refl s
  · obtain ⟨hzero, hten⟩ := not_or.mp hbelts
    have hn : 1 ≤ s.beltNumber ∧ s.beltNumber ≤ 10 := by omega
    refine .send (.status _ _ hn ?_)
    simp [InverterStatus.bytes]
    omega

theorem canDispatch_uttered (funcId srcId : U8) {s : Station} (h : Named s) :
    Says asked s (canDispatch funcId srcId s).val := by
  unfold canDispatch
  dsimp only
  split_ifs
  · exact paraDataRecvProcess_uttered _ _ h
  · exact Says.of_keeps (speedCtrlProcess_keeps _ s)
  · exact Says.of_quiet (moduleStatusRecvProcess_quiet _ _ _ s)
  · exact Says.of_quiet (resetCtrlHandle_quiet s)
  · exact Says.of_quiet (setBlockDisable_quiet _ s)
  · exact canBusSendModuleStatus_uttered s
  · exact Says.refl s

/-- **What a station says for a frame that comes in.** -/
theorem hear_uttered (m : CanRxMsg) {s : Station} (h : Named s) :
    Says asked s (step s (.canFrame m)) := by
  have hrecv : ∀ r, Says asked s (setCanRecv r s) := fun r => Says.of_keeps (setCanRecv_keeps r s)
  have hlog : ∀ r e, Says asked s ((setCanRecv r s).log e) := fun r e => ⟨rfl, [], rfl, by simp⟩
  have hnamed : ∀ r e, Named ((setCanRecv r s).log e) := fun _ _ => h
  rcases step_cases s (.canFrame m) with hstep | hstep
  · rw [hstep]
    exact Says.refl s
  rw [hstep]
  show Says asked s (canBusFrameReceive m s)
  unfold canBusFrameReceive
  dsimp only
  split_ifs
  · exact Says.of_keeps (enterBootMode_keeps s)
  · exact (canDispatch_uttered _ _ (hnamed _ _)).after (hlog _ _)
  · exact hrecv _

end Hearing

end IotCtrl
