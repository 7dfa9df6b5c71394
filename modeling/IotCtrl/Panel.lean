import IotCtrl.Transactions

/-!
# State that few routines write

The run and alarm outputs, the jam bits, the two timers of `logic_ctrl.c`, what the Modbus
master keeps between transactions, and the debounced inputs make up the panel of a station.
Most routines leave it alone, and each of the others changes one field.

* `Resets` — the steps that run `Reset_Ctrl_Handle`, from wherever it is called;
* `step_panel` — what a step can do to the panel.
-/

namespace IotCtrl

open ByteMemory Transition

/-- The fields are named after the globals; `jam` is bit 1 of each recorded fault code. -/
structure Panel where
  bRunOut : Table 5 Bool
  lAlarmOut : Bool
  jam : Nat → Bool
  blockCheckTimeCnt : Table 10 U32
  resetStartTimeCnt : U16
  resetStartFlag : Bool
  gSpeedSetSta : Bool
  uart1RecvBuff : Mem
  uart1RecvCount : Nat
  bPhotoInfo : Table 5 ButtonInfo
  bResetInfo : ButtonInfo
  bStartInfo : ButtonInfo
  bStopInfo : ButtonInfo
  bStreamInfo : ButtonInfo
  bEmergencyInfo : ButtonInfo

/-- The panel of a station. -/
def Station.panel (s : Station) : Panel :=
  { bRunOut := s.outs.bRunOut
    lAlarmOut := s.outs.lAlarmOut
    jam := s.jam
    blockCheckTimeCnt := s.logic.blockCheckTimeCnt
    resetStartTimeCnt := s.logic.resetStartTimeCnt
    resetStartFlag := s.logic.resetStartFlag
    gSpeedSetSta := s.modbus.gSpeedSetSta
    uart1RecvBuff := s.modbus.uart1RecvBuff
    uart1RecvCount := s.modbus.uart1RecvCount
    bPhotoInfo := s.logic.bPhotoInfo
    bResetInfo := s.logic.bResetInfo
    bStartInfo := s.logic.bStartInfo
    bStopInfo := s.logic.bStopInfo
    bStreamInfo := s.logic.bStreamInfo
    bEmergencyInfo := s.logic.bEmergencyInfo }

/-! ## Routines that leave the panel alone -/

/-- A loop whose body leaves the panel alone. -/
theorem foldl_panel {ι : Type} {f : Station → ι → Station} (h : ∀ t i, (f t i).panel = t.panel)
    (xs : List ι) (s : Station) : (xs.foldl f s).panel = s.panel :=
  foldl_inv (I := fun t => t.panel = s.panel) xs s rfl fun i _ t ht => (h t i).trans ht

@[simp] theorem log_panel (e : Event) (s : Station) : (s.log e).panel = s.panel := rfl

/-- A queued command changes nothing before the master takes it. -/
@[simp] theorem addUartSendData2Queue_panel (x : CommNode) (s : Station) :
    (addUartSendData2Queue x s).panel = s.panel := rfl

/-- A message goes to the queue of the bus. -/
@[simp] theorem canBusSendMsg_panel (pbuf : List U8) (funcId srcId : U8) (s : Station) :
    (canBusSendMsg pbuf funcId srcId s).panel = s.panel := by
  rw [canBusSendMsg_eq]
  rfl

/-- A line command drives `B_RUN_STA`, which is not on the panel. -/
@[simp] theorem speedCtrlProcess_panel (g : U8) (s : Station) :
    (speedCtrlProcess g s).panel = s.panel := by
  rw [speedCtrlProcess_eq]
  rfl

/-- A photo sensor queues at most a stop. -/
@[simp] theorem linkageStopPhotoCtrlHandle_panel (k : Nat) (s : Station) :
    (linkageStopPhotoCtrlHandle k s).panel = s.panel := by
  unfold linkageStopPhotoCtrlHandle
  dsimp only
  split_ifs <;> rfl

/-- The two halves of linkage queue at most one command each. -/
@[simp] theorem linkageStart_panel (i : Nat) (s : Station) :
    (linkageStart i s).panel = s.panel := by
  unfold linkageStart
  split_ifs <;> rfl

@[simp] theorem linkageStop_panel (i : Nat) (s : Station) : (linkageStop i s).panel = s.panel := by
  unfold linkageStop
  split_ifs <;> rfl

/-- The stream input starts or stops the last belt. -/
@[simp] theorem linkageStreamExtraSignal_panel (i : Nat) (startFlag : Bool) (s : Station) :
    (linkageStreamExtraSignal i startFlag s).panel = s.panel := by
  unfold linkageStreamExtraSignal
  split_ifs
  · exact linkageStart_panel i s
  · exact linkageStop_panel i s
  · rfl
  · rfl

/-- A neighbouring belt starts or stops this one. -/
@[simp] theorem linkageStreamCtrlHandle_panel (i : Nat) (startFlag : Bool) (s : Station) :
    (linkageStreamCtrlHandle i startFlag s).panel = s.panel := by
  unfold linkageStreamCtrlHandle
  split_ifs
  · exact linkageStart_panel i s
  · rfl
  · exact linkageStop_panel i s
  · rfl

/-! ### Ticks and the calls of the main loop -/

/-- Of the counters of a tick, the reset timer alone is on the panel. -/
@[simp] theorem countUpload_panel (s : Station) : (countUpload s).panel = s.panel := by
  unfold countUpload queueUpload
  dsimp only
  split_ifs <;> rfl

@[simp] theorem countMs_panel (s : Station) : (countMs s).panel = s.panel := rfl

@[simp] theorem countSec_panel (s : Station) : (countSec s).panel = s.panel := by
  unfold countSec
  split_ifs <;> rfl

@[simp] theorem countHalfSec_panel (s : Station) : (countHalfSec s).panel = s.panel := by
  unfold countHalfSec
  split_ifs <;> rfl

/-- Nor are the times of the Modbus master. -/
@[simp] theorem uartRecvTimeout_panel (s : Station) : (uartRecvTimeout s).panel = s.panel := by
  unfold uartRecvTimeout
  dsimp only
  split_ifs <;> rfl

/-- A button of the host commands the line. -/
@[simp] theorem buttonCommand_panel (g : U8) (s : Station) :
    (buttonCommand g s).panel = s.panel := by
  unfold buttonCommand
  split_ifs
  · exact (canBusSendMsg_panel _ _ _ _).trans (speedCtrlProcess_panel g s)
  · rfl

/-- What the stream input does when it is confirmed. -/
@[simp] theorem streamExtraSignalLast_panel (s : Station) :
    (streamExtraSignalLast s).panel = s.panel :=
  linkageStreamExtraSignal_panel _ _ s

/-- The host asks the next station. -/
@[simp] theorem readNextModuleStatus_panel (s : Station) :
    (readNextModuleStatus s).panel = s.panel := by
  have hsend : ∀ t f src, (canBusSendMsg [] f src (nextModuleIndex t)).panel = t.panel :=
    fun t f src => canBusSendMsg_panel [] f src _
  have hreset : ∀ t, (resetModuleIndex t).panel = t.panel := fun _ => rfl
  unfold readNextModuleStatus
  dsimp only
  split_ifs
  · rw [hreset, hsend]
  · exact hsend _ _ _
  · rfl

/-- The twice-a-second half of `sec_process`. -/
@[simp] theorem halfSecHandle_panel (s : Station) : (halfSecHandle s).panel = s.panel := by
  unfold halfSecHandle
  dsimp only
  split_ifs
  · exact readNextModuleStatus_panel _
  · rfl
  · rfl

/-- The 800 ms restart of the last belt. -/
@[simp] theorem uploadLastBelt_panel (s : Station) : (uploadLastBelt s).panel = s.panel := by
  unfold uploadLastBelt
  split_ifs
  · exact linkageStart_panel _ _
  all_goals rfl

/-- And of a belt in the middle. -/
@[simp] theorem uploadMiddleBelt_panel (s : Station) (i : Nat) :
    (uploadMiddleBelt s i).panel = s.panel := by
  unfold uploadMiddleBelt
  split_ifs
  · exact linkageStart_panel _ _
  · rfl

/-- The restarts of `main_upload_run_state`. -/
@[simp] theorem mainUploadRunState_panel (s : Station) :
    (mainUploadRunState s).panel = s.panel := by
  have hclear : (setUploadRuncnt 0 s).panel = s.panel := rfl
  unfold mainUploadRunState
  dsimp only
  split_ifs
  · rfl
  · rw [foldl_panel uploadMiddleBelt_panel, uploadLastBelt_panel, hclear]
  · rw [uploadLastBelt_panel, hclear]
  · rfl

/-- A poll is queued. -/
@[simp] theorem mainMsoneProcess_panel (speedGear : U16) (s : Station) :
    (mainMsoneProcess speedGear s).panel = s.panel := by
  unfold mainMsoneProcess
  dsimp only
  split_ifs <;> rfl

/-- The output to the station in front is not on the panel. -/
@[simp] theorem logicUpstreamIoAllowOutput_panel (s : Station) :
    (logicUpstreamIoAllowOutput s).panel = s.panel := by
  unfold logicUpstreamIoAllowOutput
  split_ifs <;> rfl

/-! ### Messages -/

/-- Loading the parameters. -/
@[simp] theorem readUserParas_panel (s : Station) : (readUserParas s).panel = s.panel := by
  unfold readUserParas
  dsimp only
  refine (foldl_panel ?_ _ _).trans rfl
  exact fun _ _ => rfl

/-- The panel is cleared with the rest of the memory. -/
theorem boot_panel (flash : Flash) (localStation : U8) :
    (boot flash localStation).panel = (Station.cleared flash localStation).panel :=
  readUserParas_panel _

/-- The own status for the host. -/
@[simp] theorem canBusSendModuleStatus_panel (s : Station) :
    (canBusSendModuleStatus s).panel = s.panel := by
  unfold canBusSendModuleStatus
  split_ifs
  · rfl
  · exact canBusSendMsg_panel _ _ _ _

/-- A parameter message of another station. -/
@[simp] theorem paraDataRecvProcess_panel (pbuf : Mem) (recvLen : Nat) (s : Station) :
    (paraDataRecvProcess pbuf recvLen s).val.panel = s.panel := by
  unfold paraDataRecvProcess
  simp only [Traced.val_bind]
  split_ifs
  · rfl
  · exact canBusSendMsg_panel _ _ _ _
  · rfl
  · exact (canBusSendMsg_panel _ _ _ _).trans (readUserParas_panel _)
  · rfl
  · rfl

/-- The last belt follows the station behind the line. -/
@[simp] theorem downStreamUpdate_panel (running : Bool) (s : Station) :
    (downStreamUpdate running s).panel = s.panel := by
  have hset : ∀ t : Station,
      Station.panel { t with logic.gLinkDownStreamStatus := running } = t.panel := fun _ => rfl
  unfold downStreamUpdate
  rw [hset]
  split_ifs
  · exact linkageStreamCtrlHandle_panel _ _ _
  · exact linkageStreamCtrlHandle_panel _ _ _
  · rfl
  · rfl

/-- A kept status waits for the upload. -/
@[simp] theorem keepModuleStatus_panel (m : ModuleStatus) (s : Station) :
    (keepModuleStatus m s).panel = s.panel := by
  unfold keepModuleStatus
  split_ifs <;> rfl

/-- A status report of another station. -/
@[simp] theorem moduleStatusRecvProcess_panel (pbuf : Mem) (recvLen : Nat) (srcId : U8)
    (s : Station) : (moduleStatusRecvProcess pbuf recvLen srcId s).val.panel = s.panel := by
  have hup : ∀ running t, (upStreamUpdate running t).panel = t.panel := fun _ _ => rfl
  unfold moduleStatusRecvProcess
  simp only [Traced.val_bind]
  split_ifs
  · rfl
  · simp only [Traced.val_bind]
    split_ifs
    · exact (hup _ _).trans (keepModuleStatus_panel _ s)
    · exact (downStreamUpdate_panel _ _).trans (keepModuleStatus_panel _ s)
    · exact keepModuleStatus_panel _ s

/-- A write request of the server. -/
@[simp] theorem recvWritePara_panel (point : Mem) (s : Station) :
    (recvWritePara point s).panel = s.panel := by
  have hreply : ∀ type block t, (paraReply type block t).panel = t.panel := fun _ _ _ => rfl
  have hwrite : ∀ para t, (writeUserParas para t).panel = t.panel := fun _ _ => rfl
  have htemp : ∀ p t, (setParasTemp p t).panel = t.panel := fun _ _ => rfl
  have hsend : ∀ p t, (canBusSendWriteUserParas p t).panel = t.panel :=
    fun p t => canBusSendMsg_panel _ _ _ t
  unfold recvWritePara
  dsimp only
  split_ifs
  · rw [hreply, readUserParas_panel, hwrite, htemp]
  · rw [hsend, htemp]

/-- A datagram comes in. -/
@[simp] theorem udpReceiveCallback_panel (p : Pbuf) (m : U16) (s : Station) :
    (udpReceiveCallback p m s).panel = s.panel := by
  unfold udpReceiveCallback
  dsimp only
  split_ifs <;> rfl

/-- The link to the server. -/
@[simp] theorem udpConnectProcess_panel (env : UdpEnv) (s : Station) :
    (udpConnectProcess env s).panel = s.panel := by
  unfold udpConnectProcess udpSendProcess
  dsimp only
  split_ifs <;> rfl

/-- The next datagram for it. -/
@[simp] theorem sendMessageToServer_panel (s : Station) :
    (sendMessageToServer s).panel = s.panel := by
  have hget : (getSendMsgFromQueue s).2.panel = s.panel := by
    unfold getSendMsgFromQueue
    split <;> rfl
  have hstatus : ∀ type t, (sendMsgModuleStatusCmd type t).panel = t.panel := by
    intro type t
    unfold sendMsgModuleStatusCmd
    split
    · rfl
    · rename_i m u h
      obtain ⟨q, -, hq⟩ := Option.map_eq_some_iff.mp h
      obtain ⟨-, rfl⟩ := Prod.mk.inj hq
      rfl
  have hreply : ∀ type t, (sendReplyParaCmd type t).panel = t.panel := fun _ _ => rfl
  have hen : ∀ t : Station, Station.panel { t with msg.tcpSendEn := true } = t.panel :=
    fun _ => rfl
  unfold sendMessageToServer sendReplyReadParaCmd sendReplyWriteParaCmd
  dsimp only
  split_ifs
  · rfl
  · rw [hen, hstatus, hget]
  · rw [hstatus, hget]
  · rw [hen, hreply, hget]
  · rw [hen, hreply, hget]
  · exact hget

/-- A frame goes out. -/
@[simp] theorem canSendFrameProcess_panel (mailboxFree : Bool) (s : Station) :
    (canSendFrameProcess mailboxFree s).1.panel = s.panel := by
  unfold canSendFrameProcess
  split
  · rfl
  · split_ifs <;> rfl

/-! ## The jam bits -/

/-- A new record has its own jam bit, and the others keep theirs. -/
theorem setInverter_jam_apply (i : Nat) (v : InverterStatus) (s : Station) (k : Nat) :
    (s.setInverter i v).jam k = if k = i ∧ i < 10 then v.faultCode.getLsbD 1 else s.jam k := by
  unfold Station.jam
  rw [inverter_setInverter]
  split_ifs <;> rfl

/-- Only the jam bits of the panel see the records. -/
def Panel.setJam (jam : Nat → Bool) (p : Panel) : Panel := { p with jam := jam }

theorem setInverter_panel_eq (i : Nat) (v : InverterStatus) (s : Station) :
    (s.setInverter i v).panel = s.panel.setJam (s.setInverter i v).jam := rfl

/-- The same bits again. -/
theorem Panel.setJam_self {jam : Nat → Bool} {s : Station} (h : ∀ k, jam k = s.jam k) :
    s.panel.setJam jam = s.panel := by
  rw [show jam = s.jam from funext h]
  rfl

/-- A new record with the same jam bit. -/
theorem setInverter_panel {i : Nat} {v : InverterStatus} {s : Station}
    (h : v.faultCode.getLsbD 1 = (s.inverter i).faultCode.getLsbD 1) :
    (s.setInverter i v).panel = s.panel := by
  rw [setInverter_panel_eq]
  refine Panel.setJam_self fun k => ?_
  rw [setInverter_jam_apply]
  split_ifs with hk
  · rw [h, hk.1]
    rfl
  · rfl

/-- A poll keeps the jam bit of the old record, unlike the faults of the inverter. -/
theorem pollStatus_jam (buf : Mem) (v : InverterStatus) :
    (pollStatus buf v).faultCode.getLsbD 1 = v.faultCode.getLsbD 1 := by
  unfold pollStatus
  dsimp only
  split_ifs <;> simp

/-- Behind the table there is no record. -/
theorem inverter_of_ge {s : Station} {i : Nat} (h : ¬ i < 10) : s.inverter i = default :=
  dif_neg h

/-- The test of the source is the test of the bit. -/
theorem bitAt_ne_zero_iff (x : U16) (k : Nat) : bitAt x k ≠ 0 ↔ x.getLsbD k = true := by
  rw [bitAt_eq]
  split_ifs with h
  · simp [h]
  · simp [h]

/-- The jam bits behind a reset of the belts that `p` selects. -/
def clearJam (p : Nat → Bool) (jam : Nat → Bool) (k : Nat) : Bool := jam k && ! p k

/-- The body of the reset loop clears the jam bit of its belt. -/
theorem resetBelt_panel (s : Station) (i : Nat) :
    (resetBelt s i).panel = s.panel.setJam (clearJam (fun k => k = i) s.jam) := by
  have hclear : Station.panel (if bitAt (s.inverter i).faultCode 1 ≠ 0 then
      s.setInverter i { s.inverter i with faultCode := (s.inverter i).faultCode &&& ~~~0x2 }
      else s) = s.panel.setJam (clearJam (fun k => k = i) s.jam) := by
    split_ifs with hjam
    · have hi : i < 10 := by
        by_contra hge
        rw [inverter_of_ge hge] at hjam
        exact hjam rfl
      rw [setInverter_panel_eq]
      refine congrArg s.panel.setJam (funext fun k => ?_)
      rw [setInverter_jam_apply]
      by_cases hk : k = i
      · rw [if_pos ⟨hk, hi⟩]
        simp [hk, clearJam]
      · rw [if_neg fun h => hk h.1]
        simp [hk, clearJam]
    · rw [bitAt_ne_zero_iff, Bool.not_eq_true] at hjam
      refine (Panel.setJam_self fun k => ?_).symm
      by_cases hk : k = i
      · subst hk
        have hoff : s.jam k = false := hjam
        simp [hoff, clearJam]
      · simp [hk, clearJam]
  unfold resetBelt
  dsimp only
  rw [← hclear]
  split_ifs <;> rfl

/-- The reset loop clears the jam bits of the belts it goes through, by induction on them. -/
theorem foldl_resetBelt_panel (is : List Nat) (s : Station) :
    (is.foldl resetBelt s).panel = s.panel.setJam (clearJam (is.contains ·) s.jam) := by
  induction is generalizing s with
  | nil =>
      refine (Panel.setJam_self fun k => ?_).symm
      simp [clearJam]
  | cons i is ih =>
      have hjam : (resetBelt s i).jam = clearJam (fun k => k = i) s.jam :=
        congrArg Panel.jam (resetBelt_panel s i)
      rw [List.foldl_cons, ih, resetBelt_panel, hjam]
      refine congrArg s.panel.setJam (funext fun k => ?_)
      simp [clearJam, Bool.and_assoc]

/-- The panel after a reset of `n` belts. -/
def Panel.reset (n : Nat) (p : Panel) : Panel :=
  { p with
    lAlarmOut := false
    jam := clearJam (fun k => k < n) p.jam
    resetStartTimeCnt := 500 }

/-- **`Reset_Ctrl_Handle`** clears the jams and the alarm and starts the timer. -/
theorem resetCtrlHandle_panel (s : Station) :
    (resetCtrlHandle s).panel = s.panel.reset s.beltNumber := by
  have hloop := foldl_resetBelt_panel (List.range s.beltNumber) s
  have hrange : ((List.range s.beltNumber).contains · : Nat → Bool) =
      fun k => decide (k < s.beltNumber) := by
    funext k
    simp
  rw [hrange] at hloop
  have hrest : ∀ t : Station, Station.panel
      { t with outs.lAlarmOut := false, logic.resetStartTimeCnt := 500 } =
        { t.panel with lAlarmOut := false, resetStartTimeCnt := 500 } := fun _ => rfl
  unfold resetCtrlHandle
  rw [hrest, hloop]
  rfl

/-! ## The Modbus master -/

/-- What `comm_send_rw_comand` leaves in `g_speed_set_sta`: for a speed write, whether its
frequency is not zero. -/
def speedSetSta (belt : BeltParas) (data : List U16) (s : Station) : Bool :=
  if s.logic.commNode.rwFlag = 1 then
    if s.logic.bEmergencyInfo.inputState = true ∨ s.logic.commNode.speedGear = 0 then false
    else if belt.funcSelectSwitch &&& 0x1 ≠ 0 then data.getD 1 0 != 0
    else data.getD 2 0 != 0
  else s.modbus.gSpeedSetSta

/-- The branches of the source agree with `speedSetSta`. -/
theorem commSetSpeedSta_eq (belt : BeltParas) (data : List U16) (s : Station) :
    commSetSpeedSta belt data s =
      { s with modbus.gSpeedSetSta := speedSetSta belt data s } := by
  unfold commSetSpeedSta speedSetSta
  dsimp only
  split_ifs <;> rfl

/-- Building a frame changes the remembered stop speeds only. -/
theorem commBuildFrame_eq {stack : Table 4 U16} {s t : Station} {frame : List U8}
    (h : commBuildFrame stack s = some (frame, t)) :
    ∃ speeds, t = { s with modbus.stopspeedDefault := speeds } := by
  unfold commBuildFrame at h
  dsimp only at h
  split_ifs at h <;> simp only [Option.some.injEq, Prod.mk.injEq] at h
  · exact ⟨_, h.2.symm⟩
  · exact h.2 ▸ rememberStopSpeed_eq s
  · exact ⟨_, h.2.symm⟩

/-- A transmission opens an empty receive window. -/
theorem commSendRwComand_panel {stack : Table 4 U16} {s t : Station} {frame : List U8}
    (h : commBuildFrame stack s = some (frame, t)) :
    (commSendRwComand stack s).panel =
      { s.panel with
        gSpeedSetSta := speedSetSta (commBelt s) (speedWriteData stack s) s
        uart1RecvCount := 0 } := by
  obtain ⟨speeds, rfl⟩ := commBuildFrame_eq h
  simp only [commSendRwComand, h]
  rw [commSetSpeedSta_eq]
  rfl

/-- The run outputs behind an accepted write. -/
def drivenOut (s : Station) : Table 5 Bool :=
  if 1 ≤ s.logic.commNode.inverterNo.toNat ∧ s.logic.commNode.inverterNo.toNat ≤ 5 then
    s.outs.bRunOut.set (s.logic.commNode.inverterNo.toNat - 1) s.modbus.gSpeedSetSta
  else s.outs.bRunOut

@[simp] theorem setRecvCount_panel (count : Nat) (s : Station) :
    (setRecvCount count s).panel = { s.panel with uart1RecvCount := count } := rfl

/-- The end of an attempt. -/
@[simp] theorem commFinish_panel (accepted : Bool) (s : Station) :
    (commFinish accepted s).panel = s.panel := by
  have hone : (0x1 : U16).getLsbD 1 = false := rfl
  unfold commFinish
  dsimp only
  split_ifs
  · refine (setInverter_panel ?_ : (clearCommFault s).panel = s.panel)
    rw [BitVec.getLsbD_and, BitVec.getLsbD_not, hone]
    simp
  · rfl
  · refine (setInverter_panel ?_ : (setCommFault s).panel = s.panel)
    rw [BitVec.getLsbD_or, hone, Bool.or_false]

/-- An accepted poll keeps the jam bits, and linkage does not touch them. -/
@[simp] theorem commRecvPoll_panel (buf : Mem) (s : Station) :
    (commRecvPoll buf s).panel = s.panel := by
  have hset : ∀ i (t : Station),
      (t.setInverter i (pollStatus buf (t.inverter i))).panel = t.panel :=
    fun i t => setInverter_panel (pollStatus_jam buf _)
  unfold commRecvPoll
  dsimp only
  rw [hset]
  split_ifs
  all_goals first
    | rfl
    | exact linkageStreamCtrlHandle_panel _ _ _

/-- An accepted answer comes from the inverter in flight, and the kind of the command tells what is
done with it. -/
theorem commRecvRwComand_accepted {buf : Mem} {len : Nat} {s : Station}
    (h : (commRecvRwComand buf len s).1 = true) :
    (buf 0).toNat = s.logic.commNode.inverterNo.toNat ∧
      (commRecvRwComand buf len s).2 =
        if s.logic.commNode.rwFlag = 0 then commRecvPoll buf s else commRecvWrite buf s := by
  have hno : (buf 0).setWidth 16 = s.logic.commNode.inverterNo →
      (buf 0).toNat = s.logic.commNode.inverterNo.toNat := by
    intro heq
    rw [← heq, BitVec.toNat_setWidth_of_le (by decide)]
  unfold commRecvRwComand at h ⊢
  split_ifs at h ⊢ with hlen hcrc hsame hpoll hcode hcode
  all_goals first
    | exact absurd h Bool.false_ne_true
    | exact ⟨hno (not_not.mp hsame), rfl⟩

/-- The outputs behind an accepted write. -/
theorem commRecvWrite_panel {buf : Mem} {s : Station}
    (h : (buf 0).toNat = s.logic.commNode.inverterNo.toNat) :
    (commRecvWrite buf s).panel = { s.panel with bRunOut := drivenOut s } := by
  unfold commRecvWrite drivenOut
  dsimp only
  rw [h]
  split_ifs <;> rfl

/-- The answer to a write drives the output of its inverter. -/
theorem commJudge_panel (s : Station) :
    (commJudge s).panel =
      { s.panel with
        bRunOut :=
          if accepts s = true ∧ s.logic.commNode.rwFlag ≠ 0 then drivenOut s
          else s.outs.bRunOut
        uart1RecvCount := 0 } := by
  unfold commJudge
  dsimp only
  rw [setRecvCount_panel, commFinish_panel]
  by_cases hacc : accepts s = true
  · obtain ⟨hno, hanswer⟩ := commRecvRwComand_accepted hacc
    rw [hanswer]
    by_cases hpoll : s.logic.commNode.rwFlag = 0
    · rw [if_pos hpoll, commRecvPoll_panel, if_neg fun h => h.2 hpoll]
      rfl
    · rw [if_neg hpoll, commRecvWrite_panel hno, if_pos ⟨hacc, hpoll⟩]
  · rw [commRecvRwComand_rejected (by simpa using hacc), if_neg fun h => hacc h.1]
    rfl

/-- The next command is taken. -/
@[simp] theorem commTakeNode_panel (s : Station) : (commTakeNode s).panel = s.panel := by
  unfold commTakeNode
  split
  · rfl
  · rename_i slot t h
    obtain ⟨p, -, hp⟩ := Option.map_eq_some_iff.mp h
    obtain ⟨-, rfl⟩ := Prod.mk.inj hp
    rfl

/-! ## The tick -/

/-- `reset_start_time_cnt` counts down, and the flag is set when it expires. -/
def Panel.countReset (p : Panel) : Panel :=
  if p.resetStartTimeCnt ≠ 0 then
    if p.resetStartTimeCnt - 1 = 0 then { p with resetStartTimeCnt := 0, resetStartFlag := true }
    else { p with resetStartTimeCnt := p.resetStartTimeCnt - 1 }
  else p

/-- The timer of a reset counts. -/
theorem countResetStart_panel (s : Station) : (countResetStart s).panel = s.panel.countReset := by
  have hcnt : s.panel.resetStartTimeCnt = s.logic.resetStartTimeCnt := rfl
  unfold countResetStart Panel.countReset
  rw [hcnt]
  split_ifs <;> rfl

/-- It is the only counter of a tick on the panel. -/
theorem timeCounters_panel (s : Station) : (timeCounters s).panel = s.panel.countReset := by
  unfold timeCounters
  rw [countUpload_panel, countResetStart_panel, countHalfSec_panel, countSec_panel, countMs_panel]

/-- The record of an input with a repeat counter after a sample. -/
def repeated (limit : Bool → U8) (period : U16) (pin : Bool) (b : ButtonInfo) : ButtonInfo :=
  let b := (confirmInput limit pin (countTrig b)).2
  if period < b.trigCnt then { b with trigCnt := 0 } else b

/-! The records of the inputs on the panel are assigned through these. -/

def Panel.setReset (b : ButtonInfo) (p : Panel) : Panel := { p with bResetInfo := b }
def Panel.setPhotos (t : Table 5 ButtonInfo) (p : Panel) : Panel := { p with bPhotoInfo := t }
def Panel.setStart (b : ButtonInfo) (p : Panel) : Panel := { p with bStartInfo := b }
def Panel.setStop (b : ButtonInfo) (p : Panel) : Panel := { p with bStopInfo := b }
def Panel.setStream (b : ButtonInfo) (p : Panel) : Panel := { p with bStreamInfo := b }
def Panel.setEmergency (b : ButtonInfo) (p : Panel) : Panel := { p with bEmergencyInfo := b }

/-! The records after a sample. -/

/-- The reset button, confirmed after 50 ms. -/
def sampledReset (pins : Pins) (b : ButtonInfo) : ButtonInfo :=
  (confirmInput (fun _ => 50) pins.bResetIn b).2

/-- A photo sensor: 50 ms, and again every 300 ms. -/
def sampledPhoto (pins : Pins) (k : Nat) (b : ButtonInfo) : ButtonInfo :=
  repeated (fun _ => 50) 300 (pins.bPhotoIn.get k) b

/-- The start button: 100 ms. -/
def sampledStart (pins : Pins) (b : ButtonInfo) : ButtonInfo :=
  (confirmInput (fun _ => 100) pins.bStartIn b).2

/-- The stop button: 100 ms. -/
def sampledStop (pins : Pins) (b : ButtonInfo) : ButtonInfo :=
  (confirmInput (fun _ => 100) pins.bStopIn b).2

/-- The stream input: 20 ms up, 200 ms down, and again every two seconds. -/
def sampledStream (pins : Pins) (b : ButtonInfo) : ButtonInfo :=
  repeated (fun level => if level then 20 else 200) 2000 pins.bStreamIn b

/-- The emergency input: 50 ms, and again every two seconds. -/
def sampledEmergency (pins : Pins) (b : ButtonInfo) : ButtonInfo :=
  repeated (fun _ => 50) 2000 pins.bEmergencyIn b

/-- The records of all inputs after a sample. -/
def Panel.scan (pins : Pins) (p : Panel) : Panel :=
  { p with
    bResetInfo := sampledReset pins p.bResetInfo
    bPhotoInfo := fun k => sampledPhoto pins k (p.bPhotoInfo k)
    bStartInfo := sampledStart pins p.bStartInfo
    bStopInfo := sampledStop pins p.bStopInfo
    bStreamInfo := sampledStream pins p.bStreamInfo
    bEmergencyInfo := sampledEmergency pins p.bEmergencyInfo }

/-- The reset button is confirmed by this sample, either way. -/
def resetConfirmed (pins : Pins) (b : ButtonInfo) : Bool :=
  (confirmInput (fun _ => 50) pins.bResetIn b).1

/-- Both edges of the reset button reset the belts. -/
theorem scanReset_panel (pins : Pins) (s : Station) :
    (scanReset pins s).panel =
      (if resetConfirmed pins s.logic.bResetInfo then s.panel.reset s.beltNumber
        else s.panel).setReset (sampledReset pins s.logic.bResetInfo) := by
  unfold scanReset resetConfirmed sampledReset
  obtain ⟨confirmed, b⟩ := confirmInput (fun _ => 50) pins.bResetIn s.logic.bResetInfo
  dsimp only
  split_ifs
  · rw [resetCtrlHandle_panel]
    rfl
  · rfl

/-- The later assignment to a slot counts. -/
theorem Table.set_set {n : Nat} {α : Type} (t : Table n α) (i : Nat) (x y : α) :
    (t.set i x).set i y = t.set i y := by
  funext k
  unfold Table.set
  split_ifs <;> rfl

/-- An input with a repeat counter: it is recorded, it may act, and when the period is over
it is recorded again and may act again. -/
theorem repeating_panel (setInfo : ButtonInfo → Station → Station) {act : Station → Station}
    (update : ButtonInfo → Panel → Panel) (hset : ∀ b t, (setInfo b t).panel = update b t.panel)
    (hact : ∀ t, (act t).panel = t.panel) (hupdate : ∀ b b' p, update b' (update b p) = update b' p)
    (c : Prop) [Decidable c] (period : U16) (b : ButtonInfo) (s : Station) :
    Station.panel
      (if period < b.trigCnt then
        if b.inputState then
          act (setInfo { b with trigCnt := 0 } (if c then act (setInfo b s) else setInfo b s))
        else setInfo { b with trigCnt := 0 } (if c then act (setInfo b s) else setInfo b s)
      else if c then act (setInfo b s) else setInfo b s) =
      update (if period < b.trigCnt then { b with trigCnt := 0 } else b) s.panel := by
  have hmay : ∀ (c : Prop) [Decidable c] t, Station.panel (if c then act t else t) = t.panel := by
    intro c _ t
    split_ifs
    · exact hact t
    · rfl
  by_cases hperiod : period < b.trigCnt
  · rw [if_pos hperiod, if_pos hperiod, hmay, hset, hmay, hset, hupdate]
  · rw [if_neg hperiod, if_neg hperiod, hmay, hset]

/-- A photo sensor samples its slot. -/
theorem scanPhoto_panel (pins : Pins) (s : Station) (k : Nat) :
    (scanPhoto pins s k).panel = s.panel.setPhotos
      (s.logic.bPhotoInfo.set k (sampledPhoto pins k (s.logic.bPhotoInfo.get k))) := by
  unfold scanPhoto sampledPhoto repeated
  obtain ⟨confirmed, b⟩ := confirmInput (fun _ => 50) (pins.bPhotoIn.get k)
    (countTrig (s.logic.bPhotoInfo.get k))
  refine repeating_panel (setPhotoInfo k)
    (fun b p => p.setPhotos (p.bPhotoInfo.set k b)) (fun _ _ => rfl)
    (linkageStopPhotoCtrlHandle_panel k) (fun b b' p => ?_) (confirmed = true) 300 b s
  exact congrArg p.setPhotos (Table.set_set p.bPhotoInfo k b b')

/-- So does each of several sensors. -/
theorem foldl_scanPhoto_panel (pins : Pins) (ks : List Nat) (s : Station) :
    (ks.foldl (scanPhoto pins) s).panel = s.panel.setPhotos
      (ks.foldl (fun t k => t.set k (sampledPhoto pins k (t.get k))) s.logic.bPhotoInfo) := by
  induction ks generalizing s with
  | nil => rfl
  | cons k ks ih =>
      have hinfo : (scanPhoto pins s k).logic.bPhotoInfo =
          s.logic.bPhotoInfo.set k (sampledPhoto pins k (s.logic.bPhotoInfo.get k)) :=
        congrArg Panel.bPhotoInfo (scanPhoto_panel pins s k)
      rw [List.foldl_cons, ih, scanPhoto_panel, hinfo]
      rfl

/-- The loop over the photo sensors samples each of them once. -/
theorem photos_panel (pins : Pins) (s : Station) :
    ((List.range 5).foldl (scanPhoto pins) s).panel =
      s.panel.setPhotos fun k => sampledPhoto pins k (s.logic.bPhotoInfo k) := by
  rw [foldl_scanPhoto_panel]
  refine congrArg s.panel.setPhotos (funext fun k => ?_)
  match k with
  | 0 | 1 | 2 | 3 | 4 => rfl

/-- An input without a repeat counter, whose action leaves the panel alone. -/
theorem scanButton_panel (setInfo : ButtonInfo → Station → Station) {act : Station → Station}
    (update : ButtonInfo → Panel → Panel) (hset : ∀ b t, (setInfo b t).panel = update b t.panel)
    (hact : ∀ t, (act t).panel = t.panel) (c : Prop) [Decidable c] (b : ButtonInfo) (s : Station) :
    Station.panel (if c then act (setInfo b s) else setInfo b s) = update b s.panel := by
  split_ifs
  · rw [hact, hset]
  · rw [hset]

/-- The start button. -/
theorem scanStart_panel (pins : Pins) (s : Station) :
    (scanStart pins s).panel = s.panel.setStart (sampledStart pins s.logic.bStartInfo) := by
  unfold scanStart sampledStart
  obtain ⟨confirmed, b⟩ := confirmInput (fun _ => 100) pins.bStartIn s.logic.bStartInfo
  exact scanButton_panel setStartInfo Panel.setStart (fun _ _ => rfl)
    (buttonCommand_panel 2) (confirmed = true ∧ b.inputState = true) b s

/-- The stop button. -/
theorem scanStop_panel (pins : Pins) (s : Station) :
    (scanStop pins s).panel = s.panel.setStop (sampledStop pins s.logic.bStopInfo) := by
  unfold scanStop sampledStop
  obtain ⟨confirmed, b⟩ := confirmInput (fun _ => 100) pins.bStopIn s.logic.bStopInfo
  exact scanButton_panel setStopInfo Panel.setStop (fun _ _ => rfl)
    (buttonCommand_panel 0) (confirmed = true ∧ b.inputState = true) b s

/-- The stream input. -/
theorem scanStream_panel (pins : Pins) (s : Station) :
    (scanStream pins s).panel = s.panel.setStream (sampledStream pins s.logic.bStreamInfo) := by
  unfold scanStream sampledStream repeated
  obtain ⟨confirmed, b⟩ := confirmInput (fun level => if level then 20 else 200) pins.bStreamIn
    (countTrig s.logic.bStreamInfo)
  exact repeating_panel setStreamInfo Panel.setStream (fun _ _ => rfl)
    streamExtraSignalLast_panel (fun _ _ _ => rfl) (confirmed = true ∧ b.inputState = true) 2000 b s

/-- The emergency input. -/
theorem scanEmergency_panel (pins : Pins) (s : Station) :
    (scanEmergency pins s).panel =
      s.panel.setEmergency (sampledEmergency pins s.logic.bEmergencyInfo) := by
  unfold scanEmergency sampledEmergency repeated
  obtain ⟨confirmed, b⟩ := confirmInput (fun _ => 50) pins.bEmergencyIn
    (countTrig s.logic.bEmergencyInfo)
  exact repeating_panel setEmergencyInfo Panel.setEmergency
    (fun _ _ => rfl) (speedCtrlProcess_panel EMERGENCY_STOP) (fun _ _ _ => rfl)
    (confirmed = true) 2000 b s

/-- **All inputs**: a reset comes first, so that the records are those behind it. -/
theorem inputScanProc_panel (pins : Pins) (s : Station) :
    (inputScanProc pins s).panel =
      (if resetConfirmed pins s.logic.bResetInfo then s.panel.reset s.beltNumber
        else s.panel).scan pins := by
  have hphoto : ∀ t : Station, t.logic.bPhotoInfo = t.panel.bPhotoInfo := fun _ => rfl
  have hstart : ∀ t : Station, t.logic.bStartInfo = t.panel.bStartInfo := fun _ => rfl
  have hstop : ∀ t : Station, t.logic.bStopInfo = t.panel.bStopInfo := fun _ => rfl
  have hstream : ∀ t : Station, t.logic.bStreamInfo = t.panel.bStreamInfo := fun _ => rfl
  have hemergency : ∀ t : Station, t.logic.bEmergencyInfo = t.panel.bEmergencyInfo := fun _ => rfl
  have hreset := scanReset_panel pins s
  unfold inputScanProc inputScanCommands
  dsimp only
  generalize scanReset pins s = t at hreset ⊢
  have hphotos := photos_panel pins t
  generalize (List.range 5).foldl (scanPhoto pins) t = t₁ at hphotos ⊢
  rw [scanEmergency_panel, hemergency, scanStream_panel, hstream, scanStop_panel, hstop,
    scanStart_panel, hstart, hphotos, hphoto, hreset]
  have hinfo : s.logic.bResetInfo = Panel.bResetInfo
      (if resetConfirmed pins s.logic.bResetInfo then s.panel.reset s.beltNumber else s.panel) := by
    split_ifs <;> rfl
  generalize (if resetConfirmed pins s.logic.bResetInfo then s.panel.reset s.beltNumber
    else s.panel) = p at hinfo ⊢
  rw [hinfo]
  dsimp only [Panel.setReset, Panel.setPhotos, Panel.setStart, Panel.setStop, Panel.setStream,
    Panel.setEmergency, Panel.scan]

/-- The panel after a tick. -/
def Panel.tick (pins : Pins) (n : Nat) (p : Panel) : Panel :=
  (if resetConfirmed pins p.bResetInfo then p.countReset.reset n else p.countReset).scan pins

/-- A tick counts first and samples then. -/
theorem timeUpdate_panel (pins : Pins) (s : Station) :
    (timeUpdate pins s).panel = s.panel.tick pins s.beltNumber := by
  have hcount : (uartRecvTimeout (timeCounters s)).panel = s.panel.countReset := by
    rw [uartRecvTimeout_panel, timeCounters_panel]
  have hbelts : (uartRecvTimeout (timeCounters s)).beltNumber = s.beltNumber := by
    rw [(uartRecvTimeout_keeps _).beltNumber, (timeCounters_keeps s).beltNumber]
  have hinfo : s.panel.countReset.bResetInfo = s.panel.bResetInfo := by
    unfold Panel.countReset
    split_ifs <;> rfl
  unfold timeUpdate Panel.tick
  generalize uartRecvTimeout (timeCounters s) = t at hcount hbelts ⊢
  have hreset : t.logic.bResetInfo = t.panel.bResetInfo := rfl
  rw [inputScanProc_panel, hreset, hcount, hbelts, hinfo]

/-! ## Resets -/

/-- The step runs `Reset_Ctrl_Handle`: by the reset button, or by a message from the CAN bus
or the server. -/
def Resets (s : Station) (i : Input) : Prop :=
  s.systemReset = false ∧
    match i with
    | .timeUpdate pins => resetConfirmed pins s.logic.bResetInfo = true
    | .canFrame rxMsg =>
        (canReassemble (canDecodeId rxMsg.extId) rxMsg.data s.can.recv).2 = true ∧
          (canDecodeId rxMsg.extId).funcId = CAN_FUNC_ID_RESET_CMD
    | .udpClient _ =>
        s.isHost = true ∧ s.msg.tcpClientStatue = .connectRecv ∧
          recvMsgCheck s.msg.tcpRecvBuf s.msg.tcpRecvLen.toNat = true ∧
          msgType s.msg.tcpRecvBuf = RECV_MSG_RESET_CMD_TYPE
    | _ => False

instance (s : Station) (i : Input) : Decidable (Resets s i) := by
  unfold Resets
  cases i <;> infer_instance

/-- A message resets the belts if it is a reset command. -/
theorem canDispatch_panel (funcId srcId : U8) (s : Station) :
    (canDispatch funcId srcId s).val.panel =
      if funcId = CAN_FUNC_ID_RESET_CMD then s.panel.reset s.beltNumber else s.panel := by
  by_cases hreset : funcId = CAN_FUNC_ID_RESET_CMD
  · have hpara : CAN_FUNC_ID_RESET_CMD ≠ CAN_FUNC_ID_PARA_DATA := by decide
    have hstart : CAN_FUNC_ID_RESET_CMD ≠ CAN_FUNC_ID_START_CMD := by decide
    have hstatus : CAN_FUNC_ID_RESET_CMD ≠ CAN_FUNC_ID_MODULE_STATUS := by decide
    unfold canDispatch
    dsimp only
    rw [if_pos hreset, hreset, if_neg fun h => hpara h.1, if_neg hstart, if_neg hstatus, if_pos rfl]
    exact resetCtrlHandle_panel s
  · unfold canDispatch
    dsimp only
    rw [if_neg hreset, if_neg hreset]
    split_ifs
    · exact paraDataRecvProcess_panel _ _ s
    · exact speedCtrlProcess_panel _ s
    · exact moduleStatusRecvProcess_panel _ _ _ s
    · rfl
    · exact canBusSendModuleStatus_panel s
    · rfl

/-- A frame does so if it completes such a message. -/
theorem canBusFrameReceive_panel (rxMsg : CanRxMsg) {s : Station} (hrun : s.systemReset = false) :
    (canBusFrameReceive rxMsg s).panel =
      if Resets s (.canFrame rxMsg) then s.panel.reset s.beltNumber else s.panel := by
  have hboot : CAN_FUNC_ID_BOOT_MODE ≠ CAN_FUNC_ID_RESET_CMD := by decide
  have hrecv : ∀ r t, (setCanRecv r t).panel = t.panel := fun _ _ => rfl
  have hiff : Resets s (.canFrame rxMsg) ↔
      (canReassemble (canDecodeId rxMsg.extId) rxMsg.data s.can.recv).2 = true ∧
        (canDecodeId rxMsg.extId).funcId = CAN_FUNC_ID_RESET_CMD := and_iff_right hrun
  rw [if_congr hiff rfl rfl]
  unfold canBusFrameReceive
  dsimp only
  generalize canReassemble (canDecodeId rxMsg.extId) rxMsg.data s.can.recv = r
  obtain ⟨r, finished⟩ := r
  by_cases hbooted : (canDecodeId rxMsg.extId).funcId = CAN_FUNC_ID_BOOT_MODE ∧
      (canDecodeId rxMsg.extId).dstId = s.main.localStation
  · rw [if_pos hbooted, if_neg fun h => hboot (hbooted.1.symm.trans h.2)]
    rfl
  · rw [if_neg hbooted]
    cases finished with
    | false => rfl
    | true =>
        dsimp only
        rw [if_pos rfl, canDispatch_panel, log_panel, hrecv, if_congr (and_iff_right rfl) rfl rfl]
        rfl

/-- A datagram that passed the checks does so if its type is that of a reset. -/
theorem recvMsgProcess_panel (point : Mem) (s : Station) :
    (recvMsgProcess point s).panel =
      if msgType point = RECV_MSG_RESET_CMD_TYPE then s.panel.reset s.beltNumber else s.panel := by
  have hsend : ∀ pbuf f src t, (canBusSendMsg pbuf f src t).panel = t.panel := canBusSendMsg_panel
  by_cases hreset : msgType point = RECV_MSG_RESET_CMD_TYPE
  · have hboot : RECV_MSG_RESET_CMD_TYPE ≠ RECV_MSG_BOOT_CMD_TYPE := by decide
    have hread : RECV_MSG_RESET_CMD_TYPE ≠ RECV_MSG_READ_PARA_CMD_TYPE := by decide
    have hwrite : RECV_MSG_RESET_CMD_TYPE ≠ RECV_MSG_WRITE_PARA_CMD_TYPE := by decide
    have hstart : RECV_MSG_RESET_CMD_TYPE ≠ RECV_MSG_START_CMD_TYPE := by decide
    unfold recvMsgProcess
    rw [if_pos hreset, hreset, if_neg hboot, if_neg hread, if_neg hwrite, if_neg hstart, if_pos rfl]
    exact (hsend _ _ _ _).trans (resetCtrlHandle_panel s)
  · unfold recvMsgProcess
    rw [if_neg hreset, if_neg hreset]
    split_ifs
    · rfl
    · rfl
    · exact hsend _ _ _ s
    · exact recvWritePara_panel point s
    · exact (hsend _ _ _ _).trans (speedCtrlProcess_panel _ s)
    · exact hsend _ _ _ _
    · rfl

/-- Only what came in can reset; the half that sends cannot. -/
theorem udpClientProcess_panel (env : UdpEnv) {s : Station} (hrun : s.systemReset = false)
    (hhost : s.isHost = true) :
    (udpClientProcess env s).panel =
      if Resets s (.udpClient env) then s.panel.reset s.beltNumber else s.panel := by
  have hiff : Resets s (.udpClient env) ↔ s.msg.tcpClientStatue = .connectRecv ∧
      recvMsgCheck s.msg.tcpRecvBuf s.msg.tcpRecvLen.toNat = true ∧
        msgType s.msg.tcpRecvBuf = RECV_MSG_RESET_CMD_TYPE :=
    (and_iff_right hrun).trans (and_iff_right hhost)
  have hmsg : (recvMessageFromServer s.msg.tcpRecvBuf s.msg.tcpRecvLen.toNat s).panel =
      if recvMsgCheck s.msg.tcpRecvBuf s.msg.tcpRecvLen.toNat = true ∧
        msgType s.msg.tcpRecvBuf = RECV_MSG_RESET_CMD_TYPE then s.panel.reset s.beltNumber
      else s.panel := by
    unfold recvMessageFromServer
    by_cases hcheck : recvMsgCheck s.msg.tcpRecvBuf s.msg.tcpRecvLen.toNat = true
    · rw [if_neg (by simp [hcheck]), recvMsgProcess_panel, if_congr (and_iff_right hcheck) rfl rfl]
    · rw [if_pos (by simpa using hcheck), if_neg fun h => hcheck h.1]
  have hdone : ∀ t : Station, Station.panel
      { t with msg.tcpRecvLen := 0, msg.tcpClientStatue := .connectOk } = t.panel := fun _ => rfl
  rw [if_congr hiff rfl rfl]
  unfold udpClientProcess
  dsimp only
  by_cases hrecv : s.msg.tcpClientStatue = .connectRecv
  · rw [if_pos hrecv, if_congr (and_iff_right hrecv) rfl rfl, ← hmsg]
    split_ifs
    · rfl
    · rw [udpConnectProcess_panel, hdone]
  · rw [if_neg hrecv, if_neg fun h => hrecv h.1, udpConnectProcess_panel]

/-! ## The other routines that write on the panel -/

/-- A byte of an answer. -/
theorem usart1IrqHandler_panel (tmp : U8) (s : Station) :
    ∃ buff count, (usart1IrqHandler tmp s).panel =
      { s.panel with uart1RecvBuff := buff, uart1RecvCount := count } := by
  unfold usart1IrqHandler
  dsimp only
  split_ifs <;> exact ⟨_, _, rfl⟩

/-- The master opens the receive window, notes what it sets and drives the outputs. -/
theorem modbusRtuCommProcess_panel (stack : Table 4 U16) (s : Station) :
    ∃ out sta count, (modbusRtuCommProcess stack s).panel =
      { s.panel with bRunOut := out, gSpeedSetSta := sta, uart1RecvCount := count } := by
  unfold modbusRtuCommProcess
  split_ifs
  · exact ⟨_, _, _, commTakeNode_panel s⟩
  · cases hbuild : commBuildFrame stack s with
    | none =>
        rw [commSendRwComand_of_none hbuild]
        exact ⟨_, _, _, rfl⟩
    | some p => exact ⟨_, _, _, commSendRwComand_panel hbuild⟩
  · exact ⟨_, _, _, commJudge_panel s⟩
  · exact ⟨_, _, _, rfl⟩

/-- `Reset_Start_Inverter_Handle` gets past its three tests. -/
def Restarts (s : Station) : Prop :=
  s.beltNumber ≠ 0 ∧ s.logic.gSpeedGearStatus ≠ 0 ∧ s.logic.resetStartFlag = true

instance (s : Station) : Decidable (Restarts s) := inferInstanceAs (Decidable (_ ∧ _))

/-- The restart behind a reset takes the flag back. -/
theorem resetStartInverterHandle_panel (s : Station) :
    (resetStartInverterHandle s).panel =
      if Restarts s then { s.panel with resetStartFlag := false } else s.panel := by
  have hbelt : ∀ t i, (resetStartBelt t i).panel = t.panel := by
    intro t i
    unfold resetStartBelt
    split_ifs <;> rfl
  unfold resetStartInverterHandle
  by_cases hbelts : s.beltNumber = 0
  · rw [if_pos hbelts, if_neg fun h => h.1 hbelts]
  by_cases hgear : s.logic.gSpeedGearStatus = 0
  · rw [if_neg hbelts, if_pos hgear, if_neg fun h => h.2.1 hgear]
  by_cases hflag : s.logic.resetStartFlag = true
  · have hrestarts : Restarts s := ⟨hbelts, hgear, hflag⟩
    rw [if_neg hbelts, if_neg hgear, if_neg (not_not.mpr hflag), if_pos hrestarts]
    dsimp only
    split_ifs
    · exact foldl_panel hbelt _ _
    · rfl
  · rw [if_neg hbelts, if_neg hgear, if_pos hflag, if_neg fun h => hflag h.2.2]

/-- A check of the belts changes their counts, their jam bits and the alarm. -/
theorem blockCheckBelt_rest (pins : Pins) (s : Station) (i : Nat) :
    ∃ cnt alarm jam, (blockCheckBelt pins s i).panel =
      { s.panel with blockCheckTimeCnt := cnt, lAlarmOut := alarm, jam := jam } := by
  unfold blockCheckBelt
  dsimp only
  split_ifs <;> exact ⟨_, _, _, rfl⟩

/-- So does the check of all belts. -/
theorem blockCheckCtrlHandle_rest (pins : Pins) (s : Station) :
    ∃ cnt alarm jam, (blockCheckCtrlHandle pins s).panel =
      { s.panel with blockCheckTimeCnt := cnt, lAlarmOut := alarm, jam := jam } := by
  unfold blockCheckCtrlHandle
  split_ifs
  · exact ⟨_, _, _, rfl⟩
  · refine @foldl_inv _ _ (fun t : Station => ∃ cnt alarm jam, t.panel =
      { s.panel with blockCheckTimeCnt := cnt, lAlarmOut := alarm, jam := jam }) _ _ _
      ⟨_, _, _, rfl⟩ ?_
    rintro i - t ⟨cnt, alarm, jam, ht⟩
    obtain ⟨cnt', alarm', jam', hbelt⟩ := blockCheckBelt_rest pins t i
    rw [ht] at hbelt
    exact ⟨cnt', alarm', jam', hbelt⟩

/-- And `sec_process`, whose other half leaves the panel alone. -/
theorem secProcess_rest (pins : Pins) (s : Station) :
    ∃ cnt alarm jam, (secProcess pins s).panel =
      { s.panel with blockCheckTimeCnt := cnt, lAlarmOut := alarm, jam := jam } := by
  have hhalf : (secProcess pins s).panel = (secHandle pins s).panel := halfSecHandle_panel _
  rw [hhalf]
  unfold secHandle
  dsimp only
  split_ifs
  · exact blockCheckCtrlHandle_rest pins _
  · exact blockCheckCtrlHandle_rest pins _
  · exact ⟨_, _, _, rfl⟩

/-- Between two seconds nothing is checked. -/
theorem secProcess_panel_idle (pins : Pins) {s : Station} (h : s.main.secFlag = false) :
    (secProcess pins s).panel = s.panel := by
  refine (halfSecHandle_panel _).trans ?_
  unfold secHandle
  rw [h]
  rfl

/-! ## One step -/

/-- What a step can do to the panel. -/
inductive PanelStep (s : Station) : Input → Panel → Prop
  /-- There is no step after a reset of the board. -/
  | stopped (i : Input) (h : s.systemReset = true) : PanelStep s i s.panel
  /-- A tick samples the inputs and counts the timer down, and may reset. -/
  | tick (pins : Pins) (hrun : s.systemReset = false) :
      PanelStep s (.timeUpdate pins) (s.panel.tick pins s.beltNumber)
  /-- A reset that a message asks for. -/
  | reset (i : Input) (h : Resets s i) (htick : ∀ pins, i ≠ .timeUpdate pins) :
      PanelStep s i (s.panel.reset s.beltNumber)
  /-- A byte of an answer. -/
  | byte (tmp : U8) (buff : Mem) (count : Nat) :
      PanelStep s (.usart1Irq tmp) { s.panel with uart1RecvBuff := buff, uart1RecvCount := count }
  /-- The one-second check. -/
  | check (pins : Pins) (cnt : Table 10 U32) (alarm : Bool) (jam : Nat → Bool)
      (hrun : s.systemReset = false) (hflag : s.main.secFlag = true) :
      PanelStep s (.secProcess pins)
        { s.panel with blockCheckTimeCnt := cnt, lAlarmOut := alarm, jam := jam }
  /-- A call of the Modbus master. -/
  | comm (stack : Table 4 U16) (out : Table 5 Bool) (sta : Bool) (count : Nat) :
      PanelStep s (.modbusComm stack)
        { s.panel with bRunOut := out, gSpeedSetSta := sta, uart1RecvCount := count }
  /-- The restart that a reset has asked for. -/
  | restart (hrun : s.systemReset = false) (h : Restarts s) :
      PanelStep s .resetStart { s.panel with resetStartFlag := false }
  /-- Any other step. -/
  | other (i : Input) (htick : ∀ pins, i ≠ .timeUpdate pins) (hreset : ¬ Resets s i)
      (hcheck : ∀ pins, i = .secProcess pins → s.main.secFlag = false)
      (hrestart : i = .resetStart → ¬ Restarts s) : PanelStep s i s.panel

/-- **Every step** does one of these. -/
theorem step_panel (s : Station) (i : Input) : PanelStep s i (step s i).panel := by
  have hother : ∀ i : Input, (∀ pins, i ≠ .timeUpdate pins) → (∀ pins, i ≠ .secProcess pins) →
      i ≠ .resetStart → ¬ Resets s i → PanelStep s i s.panel := fun i htick hsec hstart hreset =>
    .other i htick hreset (fun pins h => absurd h (hsec pins)) fun h => absurd h hstart
  have hhost : ∀ (c : Prop) [Decidable c] (t : Station), t.panel = s.panel →
      (if c then t else s).panel = s.panel := by
    intro c _ t ht
    split_ifs
    · exact ht
    · rfl
  by_cases hrun : s.systemReset = true
  · have hsame : step s i = s := if_pos hrun
    rw [hsame]
    exact .stopped i hrun
  have hrunning : s.systemReset = false := by simpa using hrun
  have hstep : step s i = handle s i := if_neg hrun
  rw [hstep]
  -- the panel of each routine, under the input that runs it
  cases i with
  | timeUpdate pins =>
      have hpanel : (handle s (.timeUpdate pins)).panel = _ := timeUpdate_panel pins s
      exact hpanel ▸ .tick pins hrunning
  | usart1Irq tmp =>
      obtain ⟨buff, count, hpanel⟩ := usart1IrqHandler_panel tmp s
      have hhandle : (handle s (.usart1Irq tmp)).panel = _ := hpanel
      exact hhandle ▸ .byte tmp buff count
  | canFrame rxMsg =>
      have hpanel : (handle s (.canFrame rxMsg)).panel = _ :=
        canBusFrameReceive_panel rxMsg hrunning
      rw [hpanel]
      split_ifs with hreset
      · exact .reset _ hreset nofun
      · exact hother _ nofun nofun nofun hreset
  | udpReceive p m =>
      have hpanel : (handle s (.udpReceive p m)).panel = _ :=
        hhost _ _ (udpReceiveCallback_panel p m s)
      exact hpanel ▸ hother _ nofun nofun nofun fun h => h.2
  | udpClient env =>
      by_cases hhosts : s.isHost = true
      · have hpanel : (handle s (.udpClient env)).panel = _ :=
          (congrArg Station.panel (if_pos hhosts)).trans
            (udpClientProcess_panel env hrunning hhosts)
        rw [hpanel]
        split_ifs with hreset
        · exact .reset _ hreset nofun
        · exact hother _ nofun nofun nofun hreset
      · have hpanel : (handle s (.udpClient env)).panel = s.panel :=
          congrArg Station.panel (if_neg hhosts)
        exact hpanel ▸ hother _ nofun nofun nofun fun h => hhosts h.2.1
  | sendMessage =>
      have hpanel : (handle s .sendMessage).panel = _ := hhost _ _ (sendMessageToServer_panel s)
      exact hpanel ▸ hother _ nofun nofun nofun fun h => h.2
  | secProcess pins =>
      cases hflag : s.main.secFlag with
      | true =>
          obtain ⟨cnt, alarm, jam, hpanel⟩ := secProcess_rest pins s
          have hhandle : (handle s (.secProcess pins)).panel = _ := hpanel
          exact hhandle ▸ .check pins cnt alarm jam hrunning hflag
      | false =>
          have hpanel : (handle s (.secProcess pins)).panel = _ := secProcess_panel_idle pins hflag
          exact hpanel ▸ .other _ nofun (fun h => h.2) (fun _ _ => hflag) nofun
  | modbusComm stack =>
      obtain ⟨out, sta, count, hpanel⟩ := modbusRtuCommProcess_panel stack s
      have hhandle : (handle s (.modbusComm stack)).panel = _ := hpanel
      exact hhandle ▸ .comm stack out sta count
  | canSend mailboxFree =>
      have hpanel : (handle s (.canSend mailboxFree)).panel = _ :=
        canSendFrameProcess_panel mailboxFree s
      exact hpanel ▸ hother _ nofun nofun nofun fun h => h.2
  | resetStart =>
      have hpanel : (handle s .resetStart).panel = _ := resetStartInverterHandle_panel s
      rw [hpanel]
      split_ifs with hrestart
      · exact .restart hrunning hrestart
      · exact .other _ nofun (fun h => h.2) nofun fun _ => hrestart
  | upstreamIo =>
      have hpanel : (handle s .upstreamIo).panel = _ := logicUpstreamIoAllowOutput_panel s
      exact hpanel ▸ hother _ nofun nofun nofun fun h => h.2
  | uploadRunState =>
      have hpanel : (handle s .uploadRunState).panel = _ := mainUploadRunState_panel s
      exact hpanel ▸ hother _ nofun nofun nofun fun h => h.2
  | msoneProcess speedGear =>
      have hpanel : (handle s (.msoneProcess speedGear)).panel = _ := mainMsoneProcess_panel _ s
      exact hpanel ▸ hother _ nofun nofun nofun fun h => h.2

end IotCtrl
