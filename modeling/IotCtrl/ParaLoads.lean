import IotCtrl.CanSegment
import IotCtrl.Panel

/-!
# Where the parameters come from

The parameters in use, the remembered stop speeds and the parameter page of the flash are
written together, when a block for the station arrives.  Apart from that a speed write
remembers its frequency.

* `Loads` — the steps that write the parameter page and read it back;
* `step_stored` — what a step can do to the three.
-/

namespace IotCtrl

open ByteMemory Transition ClosedFacts

/-- The parameters in use, the remembered stop speeds and the parameter page. -/
structure Stored where
  paras : LocalParas
  speeds : Table 10 U16
  page : Nat → U16

def Station.stored (s : Station) : Stored :=
  { paras := s.logic.userParasLocal
    speeds := s.modbus.stopspeedDefault
    page := s.flash.userPara }

/-- Each belt of the block has the frequency of its gear 2 remembered. -/
def Stored.Loaded (st : Stored) : Prop :=
  ∀ i, i < st.paras.beltNumber.toNat →
    st.speeds.get i = (st.paras.beltPara.get i).gear2SpeedFreq

/-- The buffer holds a complete write request. -/
def HoldsBlock (r : CanRecv) : Prop :=
  (canDataLen (r.canRecvBuff 0) (r.canRecvBuff 1)).toNat = r.canRecvLen ∧ r.canRecvBuff 2 = 0x2

instance (r : CanRecv) : Decidable (HoldsBlock r) := inferInstanceAs (Decidable (_ ∧ _))

/-- A received frame completes a write request that the station takes for its own. -/
def LoadsFrame (s : Station) (rxMsg : CanRxMsg) : Prop :=
  (recvFrame s.can.recv rxMsg).2 = true ∧
    ((canDecodeId rxMsg.extId).funcId = CAN_FUNC_ID_PARA_DATA ∧
      ((canDecodeId rxMsg.extId).srcId = s.main.localStation ∨ s.isHost = true)) ∧
    HoldsBlock (recvFrame s.can.recv rxMsg).1

instance (s : Station) (rxMsg : CanRxMsg) : Decidable (LoadsFrame s rxMsg) :=
  inferInstanceAs (Decidable (_ ∧ _))

/-- The block of the datagram that the host handles in this step, if it is a write request. -/
def writeRequested (s : Station) (i : Input) : Option UserParas :=
  match i with
  | .udpClient _ =>
      if s.systemReset = false ∧ s.isHost = true ∧ s.msg.tcpClientStatue = .connectRecv ∧
          recvMsgCheck s.msg.tcpRecvBuf s.msg.tcpRecvLen.toNat = true ∧
          msgType s.msg.tcpRecvBuf = RECV_MSG_WRITE_PARA_CMD_TYPE then
        some (UserParas.ofBytes s.msg.tcpRecvBuf 11)
      else none
  | _ => none

/-- The step writes the parameter page and reads it back. -/
def Loads (e : Station × Input) : Prop :=
  match e.2 with
  | .canFrame rxMsg => e.1.systemReset = false ∧ LoadsFrame e.1 rxMsg
  | i => ∃ p ∈ writeRequested e.1 i, p.stationNo = e.1.main.localStation.setWidth 16

instance : DecidablePred Loads
  | (s, .canFrame rxMsg) =>
      inferInstanceAs (Decidable (s.systemReset = false ∧ LoadsFrame s rxMsg))
  | (s, .udpClient env) =>
      inferInstanceAs (Decidable (∃ p ∈ writeRequested s (.udpClient env),
        p.stationNo = s.main.localStation.setWidth 16))
  | (_, .timeUpdate _) | (_, .usart1Irq _) | (_, .udpReceive _ _) | (_, .sendMessage)
  | (_, .secProcess _) | (_, .modbusComm _) | (_, .canSend _) | (_, .resetStart)
  | (_, .upstreamIo) | (_, .uploadRunState) | (_, .msoneProcess _) =>
      isFalse fun ⟨_, h, _⟩ => nomatch h

/-! ## Routines that leave the three alone -/

section Kept

variable {s t : Station}

theorem Keeps.stored {ps : List Part} (h : Keeps ps s t) [hparas : Evident (.paras ∉ ps)]
    [hmodbus : Evident (.modbus ∉ ps)] [hflash : Evident (.flash ∉ ps)] : t.stored = s.stored := by
  have hlocal : t.logic.userParasLocal = s.logic.userParasLocal := h.same .paras hparas.out
  have hsame : { t.modbus with freqCheckCnt := 0, uart1CommuState := .sendReady, uart1Tmr := 0 } =
      { s.modbus with freqCheckCnt := 0, uart1CommuState := .sendReady, uart1Tmr := 0 } :=
    h.same .modbus hmodbus.out
  have hfield := congrArg ModbusVars.stopspeedDefault hsame
  have hspeeds : t.modbus.stopspeedDefault = s.modbus.stopspeedDefault := hfield
  have hpage : t.flash = s.flash := h.same .flash hflash.out
  unfold Station.stored
  rw [hlocal, hspeeds, hpage]

theorem commJudge_stored (hbusy : s.logic.commBusyFlag = true) :
    (commJudge s).stored = s.stored := by
  have hcount : ∀ n t, (setRecvCount n t).stored = t.stored := fun _ _ => rfl
  have hrecv := (commRecvRwComand_quiet s.modbus.uart1RecvBuff s.modbus.uart1RecvCount hbusy).keeps
  unfold commJudge
  dsimp only
  rw [hcount, (commFinish_keeps _ _).stored, hrecv.stored]

theorem usart1IrqHandler_stored (tmp : U8) (s : Station) :
    (usart1IrqHandler tmp s).stored = s.stored := by
  unfold usart1IrqHandler
  dsimp only
  split_ifs <;> rfl

end Kept

/-! ## Reading the page back -/

/-- One turn of the loop at the end of `read_user_paras`. -/
def rememberGear2 (s : Station) (i : Nat) : Station :=
  { s with
    modbus.stopspeedDefault := s.modbus.stopspeedDefault.set i (s.belt i).gear2SpeedFreq }

/-- The loop remembers the belts it has passed. -/
theorem foldl_rememberGear2 (s : Station) {n : Nat} (hn : n ≤ 10) :
    ((List.range n).foldl rememberGear2 s).logic = s.logic ∧
      ∀ i, i < n → ((List.range n).foldl rememberGear2 s).modbus.stopspeedDefault.get i =
        (s.belt i).gear2SpeedFreq := by
  induction n with
  | zero => exact ⟨rfl, fun i hi => absurd hi (Nat.not_lt_zero i)⟩
  | succ n ih =>
      obtain ⟨hlogic, hspeeds⟩ := ih (by omega)
      rw [List.range_succ, List.foldl_append]
      generalize (List.range n).foldl rememberGear2 s = t at hlogic hspeeds ⊢
      have hbelt : t.belt n = s.belt n :=
        congrArg (fun l : LogicVars => l.userParasLocal.beltPara.get n) hlogic
      refine ⟨hlogic, fun i hi => ?_⟩
      have hset : ([n].foldl rememberGear2 t).modbus.stopspeedDefault.get i =
          (t.modbus.stopspeedDefault.set n (t.belt n).gear2SpeedFreq).get i := rfl
      rw [hset]
      by_cases hlast : i = n
      · subst hlast
        rw [Table.get_set_self _ (by omega), hbelt]
      · rw [Table.get_set_ne _ hlast]
        exact hspeeds i (by omega)

theorem readUserParas_loaded (s : Station) : (readUserParas s).stored.Loaded := by
  intro i hi
  unfold readUserParas at hi ⊢
  dsimp only at hi ⊢
  generalize ({ s with logic.userParasLocal := LocalParas.check s.main.localStation _ } :
    Station) = t at hi ⊢
  have hloop := foldl_rememberGear2 t t.beltNumber_le
  have hbody : (fun (s : Station) i => { s with
      modbus.stopspeedDefault := s.modbus.stopspeedDefault.set i (s.belt i).gear2SpeedFreq }) =
        rememberGear2 := rfl
  rw [hbody] at hi ⊢
  obtain ⟨hlogic, hspeeds⟩ := hloop
  generalize (List.range t.beltNumber).foldl rememberGear2 t = u at hlogic hspeeds hi ⊢
  have hparas : u.stored.paras = t.logic.userParasLocal :=
    congrArg LogicVars.userParasLocal hlogic
  rw [hparas] at hi ⊢
  exact hspeeds i hi

/-- The three after a block was written and read back. -/
def loaded (para : Nat → U16) (s : Station) : Stored :=
  (readUserParas (writeUserParas para s)).stored

/-! ## Messages -/

theorem paraDataRecvProcess_stored (s : Station) :
    (paraDataRecvProcess s.can.recv.canRecvBuff s.can.recv.canRecvLen s).val.stored =
      if HoldsBlock s.can.recv then loaded (fun i => wordAt s.can.recv.canRecvBuff (9 + 2 * i)) s
      else s.stored := by
  have hreply : ∀ type block t, (paraReply type block t).stored = t.stored := fun _ _ _ => rfl
  have hsend : ∀ cmd block t, (canBusSendParaBlock cmd block t).stored = t.stored :=
    fun cmd block t => (canBusSendParaBlock_keeps cmd block t).stored
  have hread : ∀ i, (readByte s.can.recv.canRecvBuff i).val = s.can.recv.canRecvBuff i :=
    fun _ => rfl
  unfold paraDataRecvProcess
  simp only [Traced.val_bind, hread]
  by_cases hlen : (canDataLen (s.can.recv.canRecvBuff 0) (s.can.recv.canRecvBuff 1)).toNat =
      s.can.recv.canRecvLen
  · rw [if_neg (not_not.mpr hlen)]
    by_cases hwrite : s.can.recv.canRecvBuff 2 = 0x2
    · have hblock : HoldsBlock s.can.recv := ⟨hlen, hwrite⟩
      rw [if_pos hblock, if_neg (by rw [hwrite]; decide), if_neg (by rw [hwrite]; decide),
        if_pos hwrite]
      exact hsend _ _ _
    · rw [if_neg hwrite, if_neg fun h : HoldsBlock s.can.recv => hwrite h.2]
      split_ifs
      · exact hsend _ _ s
      · exact hreply _ _ s
      · exact hreply _ _ s
      · rfl
  · rw [if_pos hlen, if_neg fun h : HoldsBlock s.can.recv => hlen h.1]
    rfl

/-- A completed message writes the page when it is a write request for this station, or any
write request on the host. -/
theorem canDispatch_stored (funcId srcId : U8) (s : Station) :
    (canDispatch funcId srcId s).val.stored =
      if (funcId = CAN_FUNC_ID_PARA_DATA ∧ (srcId = s.main.localStation ∨ s.isHost = true)) ∧
        HoldsBlock s.can.recv then loaded (fun i => wordAt s.can.recv.canRecvBuff (9 + 2 * i)) s
      else s.stored := by
  unfold canDispatch
  dsimp only
  by_cases hmine : funcId = CAN_FUNC_ID_PARA_DATA ∧ (srcId = s.main.localStation ∨ s.isHost = true)
  · rw [if_pos hmine, paraDataRecvProcess_stored, if_congr (and_iff_right hmine) rfl rfl]
  · have hnone : ¬ ((funcId = CAN_FUNC_ID_PARA_DATA ∧
        (srcId = s.main.localStation ∨ s.isHost = true)) ∧ HoldsBlock s.can.recv) :=
      fun h => hmine h.1
    rw [if_neg hmine, if_neg hnone]
    split_ifs
    · exact (speedCtrlProcess_keeps _ s).stored
    · exact (moduleStatusRecvProcess_quiet _ _ _ s).keeps.stored
    · exact (resetCtrlHandle_quiet s).keeps.stored
    · exact (setBlockDisable_quiet _ s).keeps.stored
    · exact (canBusSendModuleStatus_keeps s).stored
    · rfl

theorem canBusFrameReceive_stored (rxMsg : CanRxMsg) (s : Station) :
    ∃ para t, t.main.localStation = s.main.localStation ∧ (canBusFrameReceive rxMsg s).stored =
      if LoadsFrame s rxMsg then loaded para t else s.stored := by
  have hboot : CAN_FUNC_ID_BOOT_MODE ≠ CAN_FUNC_ID_PARA_DATA := by decide
  by_cases hbooted : (canDecodeId rxMsg.extId).funcId = CAN_FUNC_ID_BOOT_MODE ∧
      (canDecodeId rxMsg.extId).dstId = s.main.localStation
  · have hnone : ¬ LoadsFrame s rxMsg := fun h => hboot (hbooted.1.symm.trans h.2.1.1)
    have hstep : canBusFrameReceive rxMsg s = enterBootMode s := if_pos hbooted
    refine ⟨fun _ => 0, s, rfl, ?_⟩
    rw [hstep, if_neg hnone]
    rfl
  have hstep : canBusFrameReceive rxMsg s =
      if (recvFrame s.can.recv rxMsg).2 = true then
        (canDispatch (canDecodeId rxMsg.extId).funcId (canDecodeId rxMsg.extId).srcId
          ((setCanRecv (recvFrame s.can.recv rxMsg).1 s).log (.canDone
            (canDecodeId rxMsg.extId).funcId (canDecodeId rxMsg.extId).srcId
            (recvFrame s.can.recv rxMsg).1.payload))).val
      else setCanRecv (recvFrame s.can.recv rxMsg).1 s := if_neg hbooted
  by_cases hfinish : (recvFrame s.can.recv rxMsg).2 = true
  · rw [if_pos hfinish] at hstep
    generalize ht : (setCanRecv (recvFrame s.can.recv rxMsg).1 s).log _ = t at hstep
    have hstored : t.stored = s.stored := ht ▸ rfl
    have hloads : LoadsFrame s rxMsg ↔ ((canDecodeId rxMsg.extId).funcId = CAN_FUNC_ID_PARA_DATA ∧
        ((canDecodeId rxMsg.extId).srcId = t.main.localStation ∨ t.isHost = true)) ∧
          HoldsBlock t.can.recv := by
      rw [← ht]
      exact and_iff_right hfinish
    have hstation : t.main.localStation = s.main.localStation := ht ▸ rfl
    refine ⟨fun i => wordAt t.can.recv.canRecvBuff (9 + 2 * i), t, hstation, ?_⟩
    rw [hstep, canDispatch_stored, hstored, if_congr hloads rfl rfl]
  · have hnone : ¬ LoadsFrame s rxMsg := fun h => hfinish h.1
    refine ⟨fun _ => 0, s, rfl, ?_⟩
    rw [hstep, if_neg hfinish, if_neg hnone]
    rfl

theorem recvMsgProcess_stored (point : Mem) (s : Station) :
    ∃ para t, t.main.localStation = s.main.localStation ∧ (recvMsgProcess point s).stored =
      if msgType point = RECV_MSG_WRITE_PARA_CMD_TYPE ∧
        (UserParas.ofBytes point 11).stationNo = s.main.localStation.setWidth 16 then loaded para t
      else s.stored := by
  have hsend : ∀ pbuf f src t, (canBusSendMsg pbuf f src t).stored = t.stored :=
    fun pbuf f src t => (canBusSendMsg_keeps pbuf f src t).stored
  have hreply : ∀ type block t, (paraReply type block t).stored = t.stored := fun _ _ _ => rfl
  have htemp : ∀ p, (setParasTemp p s).stored = s.stored := fun _ => rfl
  by_cases hwrite : msgType point = RECV_MSG_WRITE_PARA_CMD_TYPE
  · have hboot : RECV_MSG_WRITE_PARA_CMD_TYPE ≠ RECV_MSG_BOOT_CMD_TYPE := by decide
    have hread : RECV_MSG_WRITE_PARA_CMD_TYPE ≠ RECV_MSG_READ_PARA_CMD_TYPE := by decide
    have hprocess : recvMsgProcess point s = recvWritePara point s := by
      unfold recvMsgProcess
      rw [hwrite, if_neg hboot, if_neg hread, if_pos rfl]
    rw [hprocess]
    by_cases hmine : (UserParas.ofBytes point 11).stationNo = s.main.localStation.setWidth 16
    · refine ⟨fun i => wordAt point (17 + 2 * i), setParasTemp (UserParas.ofBytes point 11) s, rfl,
        ?_⟩
      rw [recvWritePara_local hmine, hreply, if_pos ⟨hwrite, hmine⟩]
      rfl
    · refine ⟨fun _ => 0, s, rfl, ?_⟩
      rw [recvWritePara_remote hmine, if_neg fun h => hmine h.2]
      exact (canBusSendParaBlock_keeps _ _ _).stored.trans (htemp _)
  · refine ⟨fun _ => 0, s, rfl, ?_⟩
    rw [if_neg fun h => hwrite h.1]
    unfold recvMsgProcess
    rw [if_neg hwrite]
    split_ifs
    · rfl
    · exact hreply _ _ s
    · exact hsend _ _ _ s
    · exact (hsend _ _ _ _).trans (speedCtrlProcess_keeps _ s).stored
    · exact (hsend _ _ _ _).trans (resetCtrlHandle_quiet s).keeps.stored
    · exact (hsend _ _ _ _).trans (setBlockDisable_quiet _ s).keeps.stored
    · rfl

/-- Only a running host handles a datagram. -/
theorem writeRequested_host {s : Station} {i : Input} {p : UserParas}
    (h : writeRequested s i = some p) : s.systemReset = false ∧ s.isHost = true := by
  unfold writeRequested at h
  cases i with
  | udpClient env =>
      dsimp only at h
      split_ifs at h with hcond
      exact ⟨hcond.1, hcond.2.1⟩
  | _ => cases h

/-- The host takes a write request for its own number. -/
theorem loads_udpClient_iff {s : Station} (hrun : s.systemReset = false) (hhost : s.isHost = true)
    (env : UdpEnv) : Loads (s, .udpClient env) ↔ s.msg.tcpClientStatue = .connectRecv ∧
      recvMsgCheck s.msg.tcpRecvBuf s.msg.tcpRecvLen.toNat = true ∧
        msgType s.msg.tcpRecvBuf = RECV_MSG_WRITE_PARA_CMD_TYPE ∧
        (UserParas.ofBytes s.msg.tcpRecvBuf 11).stationNo = s.main.localStation.setWidth 16 := by
  have hrequest : writeRequested s (.udpClient env) =
      if s.systemReset = false ∧ s.isHost = true ∧ s.msg.tcpClientStatue = .connectRecv ∧
          recvMsgCheck s.msg.tcpRecvBuf s.msg.tcpRecvLen.toNat = true ∧
          msgType s.msg.tcpRecvBuf = RECV_MSG_WRITE_PARA_CMD_TYPE then
        some (UserParas.ofBytes s.msg.tcpRecvBuf 11)
      else none := rfl
  constructor
  · rintro ⟨p, hp, hmine⟩
    rw [hrequest] at hp
    split_ifs at hp with h
    · obtain rfl := Option.some.inj hp
      exact ⟨h.2.2.1, h.2.2.2.1, h.2.2.2.2, hmine⟩
    · cases hp
  · rintro ⟨hrecv, hcheck, htype, hmine⟩
    exact ⟨_, hrequest.trans (if_pos ⟨hrun, hhost, hrecv, hcheck, htype⟩), hmine⟩

theorem udpClientProcess_stored (env : UdpEnv) {s : Station} (hrun : s.systemReset = false)
    (hhost : s.isHost = true) :
    ∃ para t, t.main.localStation = s.main.localStation ∧ (udpClientProcess env s).stored =
      if Loads (s, .udpClient env) then loaded para t else s.stored := by
  have hconnect : ∀ t, (udpConnectProcess env t).stored = t.stored :=
    fun t => (udpConnectProcess_keeps env t).stored
  have hdone : ∀ t : Station, Station.stored
      { t with msg.tcpRecvLen := 0, msg.tcpClientStatue := .connectOk } = t.stored := fun _ => rfl
  have hiff := loads_udpClient_iff hrun hhost env
  by_cases hrecv : s.msg.tcpClientStatue = .connectRecv
  · have hclient : (udpClientProcess env s).stored =
        (recvMessageFromServer s.msg.tcpRecvBuf s.msg.tcpRecvLen.toNat s).stored := by
      unfold udpClientProcess
      rw [if_pos hrecv]
      dsimp only
      split_ifs
      · rfl
      · rw [hconnect, hdone]
    rw [hclient]
    unfold recvMessageFromServer
    by_cases hcheck : recvMsgCheck s.msg.tcpRecvBuf s.msg.tcpRecvLen.toNat = true
    · obtain ⟨para, t, hstation, hprocess⟩ := recvMsgProcess_stored s.msg.tcpRecvBuf s
      refine ⟨para, t, hstation, ?_⟩
      rw [if_neg (by simp [hcheck]), hprocess,
        if_congr (hiff.trans ((and_iff_right hrecv).trans (and_iff_right hcheck))) rfl rfl]
    · refine ⟨fun _ => 0, s, rfl, ?_⟩
      rw [if_pos (by simpa using hcheck), if_neg fun h => hcheck (hiff.mp h).2.1]
  · refine ⟨fun _ => 0, s, rfl, ?_⟩
    unfold udpClientProcess
    rw [if_neg hrecv, if_neg fun h => hrecv (hiff.mp h).1, hconnect]

/-! ## One step -/

/-- The step transmits a speed write. -/
def WritesSpeed (e : Station × Input) : Prop :=
  match e.2 with
  | .modbusComm _ =>
      e.1.systemReset = false ∧ e.1.logic.commBusyFlag = true ∧
        e.1.modbus.uart1CommuState = .sendData ∧ e.1.logic.commNode.rwFlag = 1
  | _ => False

instance : DecidablePred WritesSpeed
  | (s, .modbusComm _) =>
      inferInstanceAs (Decidable (s.systemReset = false ∧ s.logic.commBusyFlag = true ∧
        s.modbus.uart1CommuState = .sendData ∧ s.logic.commNode.rwFlag = 1))
  | (_, .timeUpdate _) | (_, .usart1Irq _) | (_, .canFrame _) | (_, .udpReceive _ _)
  | (_, .udpClient _) | (_, .sendMessage) | (_, .secProcess _) | (_, .canSend _)
  | (_, .resetStart) | (_, .upstreamIo) | (_, .uploadRunState) | (_, .msoneProcess _) =>
      isFalse id

theorem Loads.running {s : Station} {i : Input} (h : Loads (s, i)) : s.systemReset = false := by
  cases i with
  | canFrame rxMsg => exact h.1
  | _ =>
      obtain ⟨p, hp, -⟩ := h
      exact (writeRequested_host hp).1

theorem WritesSpeed.running {s : Station} {i : Input} (h : WritesSpeed (s, i)) :
    s.systemReset = false := by
  cases i with
  | modbusComm stack => exact h.1
  | _ => exact absurd h id

theorem WritesSpeed.busy {s : Station} {i : Input} (h : WritesSpeed (s, i)) :
    s.logic.commBusyFlag = true := by
  cases i with
  | modbusComm stack => exact h.2.1
  | _ => exact absurd h id

theorem WritesSpeed.not_loads {s : Station} {i : Input} (h : WritesSpeed (s, i)) :
    ¬ Loads (s, i) := by
  cases i with
  | modbusComm stack => exact fun ⟨_, hnone, _⟩ => nomatch hnone
  | _ => exact absurd h id

/-- What a step can do to the three. -/
inductive StoredStep (s : Station) : Input → Stored → Prop
  /-- A block is written and read back. -/
  | load (i : Input) (para : Nat → U16) (t : Station)
      (hstation : t.main.localStation = s.main.localStation) (h : Loads (s, i)) :
      StoredStep s i (loaded para t)
  /-- A speed write remembers its frequency. -/
  | speed (i : Input) (h : WritesSpeed (s, i)) : StoredStep s i (rememberStopSpeed s).stored
  /-- Any other step. -/
  | other (i : Input) (hload : ¬ Loads (s, i)) (hspeed : ¬ WritesSpeed (s, i)) :
      StoredStep s i s.stored

theorem commSendRwComand_stored (stack : Table 4 U16) (s : Station) :
    (commSendRwComand stack s).stored =
      if s.logic.commNode.rwFlag = 1 then (rememberStopSpeed s).stored else s.stored := by
  have hbuild : ∀ (frame : List U8) (t : Station), commBuildFrame stack s = some (frame, t) →
      (commSendRwComand stack s).stored = t.stored := by
    intro frame t h
    unfold commSendRwComand
    rw [h]
    dsimp only
    rw [commSetSpeedSta_eq]
    rfl
  by_cases hspeed : s.logic.commNode.rwFlag = 1
  · rw [if_pos hspeed]
    have hframe : ∃ frame, commBuildFrame stack s = some (frame, rememberStopSpeed s) := by
      unfold commBuildFrame
      dsimp only
      rw [if_neg (by rw [hspeed]; decide), if_pos hspeed]
      exact ⟨_, rfl⟩
    obtain ⟨frame, hframe⟩ := hframe
    exact hbuild _ _ hframe
  · rw [if_neg hspeed]
    cases h : commBuildFrame stack s with
    | none => rw [commSendRwComand_of_none h]
    | some p =>
        rw [hbuild p.1 p.2 h]
        unfold commBuildFrame at h
        dsimp only at h
        rw [if_neg hspeed] at h
        split_ifs at h
        · obtain rfl := Option.some.inj h
          rfl
        · obtain rfl := Option.some.inj h
          rfl

theorem modbusComm_stored {s : Station} (hrun : s.systemReset = false) (stack : Table 4 U16) :
    (modbusRtuCommProcess stack s).stored =
      if WritesSpeed (s, .modbusComm stack) then (rememberStopSpeed s).stored else s.stored := by
  have hiff : WritesSpeed (s, .modbusComm stack) ↔ s.logic.commBusyFlag = true ∧
      s.modbus.uart1CommuState = .sendData ∧ s.logic.commNode.rwFlag = 1 := and_iff_right hrun
  rw [if_congr hiff rfl rfl]
  unfold modbusRtuCommProcess
  by_cases hbusy : s.logic.commBusyFlag = true
  · rw [if_neg (by rw [hbusy]; decide)]
    by_cases hsend : s.modbus.uart1CommuState = .sendData
    · rw [if_pos hsend, commSendRwComand_stored,
        if_congr ((and_iff_right hbusy).trans (and_iff_right hsend)) rfl rfl]
    · have hnone : ¬ (s.logic.commBusyFlag = true ∧ s.modbus.uart1CommuState = .sendData ∧
          s.logic.commNode.rwFlag = 1) := fun h => hsend h.2.1
      rw [if_neg hsend, if_neg hnone]
      split_ifs
      · exact commJudge_stored hbusy
      · rfl
  · rw [if_pos (by simpa using hbusy), if_neg fun h => hbusy h.1]
    exact (commTakeNode_keeps s).stored

theorem step_stored (s : Station) (i : Input) : StoredStep s i (step s i).stored := by
  have hframe := (step_touches s i).keeps
  by_cases hrun : s.systemReset = true
  · have hsame : step s i = s := if_pos hrun
    rw [hsame]
    exact .other i (fun h => absurd h.running (by simp [hrun]))
      (fun h => absurd h.running (by simp [hrun]))
  have hrunning : s.systemReset = false := by simpa using hrun
  have hstep : step s i = handle s i := if_neg hrun
  have hother : (step s i).stored = s.stored → ¬ Loads (s, i) → ¬ WritesSpeed (s, i) →
      StoredStep s i (step s i).stored := fun hsame hload hspeed => hsame ▸ .other i hload hspeed
  have hloads : ∀ para (t : Station), t.main.localStation = s.main.localStation →
      (step s i).stored = (if Loads (s, i) then loaded para t else s.stored) →
      ¬ WritesSpeed (s, i) → StoredStep s i (step s i).stored := by
    intro para t hstation hsame hspeed
    rw [hsame]
    split_ifs with hload
    · exact .load i para t hstation hload
    · exact .other i hload hspeed
  cases i with
  | canFrame rxMsg =>
      obtain ⟨para, t, hstation, hstored⟩ := canBusFrameReceive_stored rxMsg s
      have hiff : Loads (s, .canFrame rxMsg) ↔ LoadsFrame s rxMsg := and_iff_right hrunning
      refine hloads para t hstation ?_ id
      rw [hstep, if_congr hiff rfl rfl]
      exact hstored
  | udpClient env =>
      by_cases hhost : s.isHost = true
      · obtain ⟨para, t, hstation, hstored⟩ := udpClientProcess_stored env hrunning hhost
        refine hloads para t hstation ?_ id
        rw [hstep, ← hstored]
        exact congrArg Station.stored (if_pos hhost)
      · have hsame : handle s (.udpClient env) = s := if_neg hhost
        refine hother (by rw [hstep, hsame]) ?_ id
        rintro ⟨p, hp, -⟩
        exact hhost (writeRequested_host hp).2
  | modbusComm stack =>
      have hstored := modbusComm_stored hrunning stack
      have hload : ¬ Loads (s, .modbusComm stack) := fun ⟨_, h, _⟩ => nomatch h
      rw [hstep]
      show StoredStep s _ (modbusRtuCommProcess stack s).stored
      rw [hstored]
      split_ifs with hspeed
      · exact .speed _ hspeed
      · exact .other _ hload hspeed
  | usart1Irq tmp =>
      refine hother ?_ (fun ⟨_, h, _⟩ => nomatch h) id
      rw [hstep]
      exact usart1IrqHandler_stored tmp s
  | timeUpdate _ | udpReceive _ _ | sendMessage | secProcess _ | canSend _ | resetStart
  | upstreamIo | uploadRunState | msoneProcess _ =>
      exact hother hframe.stored (fun ⟨_, h, _⟩ => nomatch h) id

end IotCtrl
