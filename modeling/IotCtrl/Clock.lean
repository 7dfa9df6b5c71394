import IotCtrl.QuietTicks

/-!
# The counters of `main.c`

`Time_Update` counts, and the calls of the main loop look at what was counted.  No message, no
button and no answer of an inverter touches the counters.

* `Clock` — the counters, with those of the polls;
* `Clock.tick`, `Clock.sec`, `Clock.halfSec`, `Clock.upload`, `Clock.msone` — who counts what;
* `step_clock` — what one step does to the counters.
-/

namespace IotCtrl

open ByteMemory Transition ClosedFacts

/-- The globals of `main.c`, `freq_check_cnt` and `polling_num`. -/
structure Clock where
  main : MainVars
  freqCheckCnt : U16
  pollingNum : U8

/-- The clock of a station. -/
def Station.clock (s : Station) : Clock :=
  { main := s.main
    freqCheckCnt := s.modbus.freqCheckCnt
    pollingNum := s.logic.pollingNum }

/-- The inverter that is polled behind the one with number `num`. -/
def nextPoll (beltNumber : U16) (num : U8) : U8 :=
  if beltNumber < (num + 1).setWidth 16 then 1 else num + 1

namespace Clock

/-- `Time_Update`. -/
def tick (c : Clock) : Clock :=
  { c with main := tickMain c.main, freqCheckCnt := c.freqCheckCnt + 1 }

/-- The once-a-second half of `sec_process`. -/
def sec (c : Clock) : Clock :=
  if c.main.secFlag then
    { c with
      main.secFlag := false
      main.heartDely := if c.main.heartDely ≠ 0 then c.main.heartDely - 1 else c.main.heartDely }
  else c

/-- The twice-a-second half: the host moves on to the next station. -/
def halfSec (host : Bool) (c : Clock) : Clock :=
  if c.main.halfSecFlag then
    let c := { c with main.halfSecFlag := false }
    if host = true ∧ 30 < c.main.modulestateReadcnt then
      { c with
        main.modulestateReadcnt := 0
        main.modulestateIndex :=
          if 30 < c.main.modulestateIndex + 1 then 1 else c.main.modulestateIndex + 1 }
    else c
  else c

/-- `main_upload_run_state`. -/
def upload (beltNumber : Nat) (c : Clock) : Clock :=
  if beltNumber ≠ 0 ∧ 800 ≤ c.main.uploadRuncnt then { c with main.uploadRuncnt := 0 } else c

/-- `main_msone_process`. -/
def msone (beltNumber : U16) (c : Clock) : Clock :=
  if c.main.msoneFlag then
    let c :=
      { c with
        main.msoneFlag := false
        main.modulestateReadcnt := c.main.modulestateReadcnt + 1 }
    if 500 < c.freqCheckCnt then
      { c with freqCheckCnt := 0, pollingNum := nextPoll beltNumber c.pollingNum }
    else c
  else c

end Clock

/-! ## Routines that do not count -/

/-- A loop whose body does not count does not count. -/
theorem foldl_clock {ι : Type} {f : Station → ι → Station} (h : ∀ t i, (f t i).clock = t.clock)
    (xs : List ι) (s : Station) : (xs.foldl f s).clock = s.clock :=
  foldl_inv (I := fun t => t.clock = s.clock) xs s rfl fun i _ t ht => (h t i).trans ht

@[simp] theorem log_clock (e : Event) (s : Station) : (s.log e).clock = s.clock := rfl

@[simp] theorem setInverter_clock (i : Nat) (v : InverterStatus) (s : Station) :
    (s.setInverter i v).clock = s.clock := rfl

/-- A message goes to the queue of the bus. -/
@[simp] theorem canBusSendMsg_clock (pbuf : List U8) (funcId srcId : U8) (s : Station) :
    (canBusSendMsg pbuf funcId srcId s).clock = s.clock := by
  rw [canBusSendMsg_eq]
  rfl

/-- A line command is one update of the queue, the gear and the history. -/
@[simp] theorem speedCtrlProcess_clock (g : U8) (s : Station) :
    (speedCtrlProcess g s).clock = s.clock := by
  rw [speedCtrlProcess_eq]
  rfl

/-! ### The line handlers -/

/-- The photo sensors queue at most a stop. -/
@[simp] theorem linkageStopPhotoCtrlHandle_clock (k : Nat) (s : Station) :
    (linkageStopPhotoCtrlHandle k s).clock = s.clock := by
  unfold linkageStopPhotoCtrlHandle
  dsimp only
  split_ifs <;> rfl

/-- The two halves of linkage queue at most one command each. -/
@[simp] theorem linkageStart_clock (i : Nat) (s : Station) :
    (linkageStart i s).clock = s.clock := by
  unfold linkageStart
  split_ifs <;> rfl

@[simp] theorem linkageStop_clock (i : Nat) (s : Station) : (linkageStop i s).clock = s.clock := by
  unfold linkageStop
  split_ifs <;> rfl

/-- The stream input starts or stops the last belt. -/
@[simp] theorem linkageStreamExtraSignal_clock (i : Nat) (startFlag : Bool) (s : Station) :
    (linkageStreamExtraSignal i startFlag s).clock = s.clock := by
  unfold linkageStreamExtraSignal
  split_ifs
  · exact linkageStart_clock i s
  · exact linkageStop_clock i s
  · rfl
  · rfl

/-- A neighbouring belt starts or stops this one. -/
@[simp] theorem linkageStreamCtrlHandle_clock (i : Nat) (startFlag : Bool) (s : Station) :
    (linkageStreamCtrlHandle i startFlag s).clock = s.clock := by
  unfold linkageStreamCtrlHandle
  split_ifs
  · exact linkageStart_clock i s
  · rfl
  · exact linkageStop_clock i s
  · rfl

/-- The reset timer, which a reset starts, is a global of `logic_ctrl.c`. -/
@[simp] theorem resetCtrlHandle_clock (s : Station) : (resetCtrlHandle s).clock = s.clock := by
  have hbelt : ∀ t i, (resetBelt t i).clock = t.clock := by
    intro t i
    unfold resetBelt
    dsimp only
    split_ifs <;> rfl
  have hfold : ∀ t : Station, Station.clock
      { t with outs.lAlarmOut := false, logic.resetStartTimeCnt := 500 } = t.clock := fun _ => rfl
  unfold resetCtrlHandle
  exact (hfold _).trans (foldl_clock hbelt _ s)

/-- The restart behind a reset. -/
@[simp] theorem resetStartInverterHandle_clock (s : Station) :
    (resetStartInverterHandle s).clock = s.clock := by
  have hbelt : ∀ t i, (resetStartBelt t i).clock = t.clock := by
    intro t i
    unfold resetStartBelt
    split_ifs <;> rfl
  unfold resetStartInverterHandle
  dsimp only
  split_ifs
  any_goals rfl
  exact foldl_clock hbelt _ _

/-- The jam times are globals of `logic_ctrl.c` as well. -/
@[simp] theorem blockCheckCtrlHandle_clock (pins : Pins) (s : Station) :
    (blockCheckCtrlHandle pins s).clock = s.clock := by
  have hbelt : ∀ t i, (blockCheckBelt pins t i).clock = t.clock := by
    intro t i
    unfold blockCheckBelt
    dsimp only
    split_ifs <;> rfl
  unfold blockCheckCtrlHandle
  split_ifs
  · rfl
  · exact foldl_clock hbelt _ s

/-- A button of the host. -/
@[simp] theorem buttonCommand_clock (g : U8) (s : Station) :
    (buttonCommand g s).clock = s.clock := by
  unfold buttonCommand
  split_ifs
  · exact (canBusSendMsg_clock _ _ _ _).trans (speedCtrlProcess_clock g s)
  · rfl

/-- Every input keeps its repeat counter in its own record. -/
@[simp] theorem scanPhoto_clock (pins : Pins) (s : Station) (k : Nat) :
    (scanPhoto pins s k).clock = s.clock := by
  have hset : ∀ b t, (setPhotoInfo k b t).clock = t.clock := fun _ _ => rfl
  unfold scanPhoto
  dsimp only
  split_ifs <;> simp only [linkageStopPhotoCtrlHandle_clock, hset]

@[simp] theorem scanStream_clock (pins : Pins) (s : Station) :
    (scanStream pins s).clock = s.clock := by
  have hset : ∀ b t, (setStreamInfo b t).clock = t.clock := fun _ _ => rfl
  have hact : ∀ t, (streamExtraSignalLast t).clock = t.clock :=
    fun t => linkageStreamExtraSignal_clock _ _ t
  unfold scanStream
  dsimp only
  split_ifs <;> simp only [hact, hset]

@[simp] theorem scanEmergency_clock (pins : Pins) (s : Station) :
    (scanEmergency pins s).clock = s.clock := by
  have hset : ∀ b t, (setEmergencyInfo b t).clock = t.clock := fun _ _ => rfl
  unfold scanEmergency
  dsimp only
  split_ifs <;> simp only [speedCtrlProcess_clock, hset]

/-- All inputs, one after the other. -/
@[simp] theorem inputScanProc_clock (pins : Pins) (s : Station) :
    (inputScanProc pins s).clock = s.clock := by
  have hreset : ∀ t, (scanReset pins t).clock = t.clock := by
    intro t
    unfold scanReset
    dsimp only
    split_ifs
    · exact resetCtrlHandle_clock _
    · rfl
  have hstart : ∀ t, (scanStart pins t).clock = t.clock := by
    intro t
    unfold scanStart
    dsimp only
    split_ifs
    · exact buttonCommand_clock _ _
    · rfl
  have hstop : ∀ t, (scanStop pins t).clock = t.clock := by
    intro t
    unfold scanStop
    dsimp only
    split_ifs
    · exact buttonCommand_clock _ _
    · rfl
  unfold inputScanProc inputScanCommands
  dsimp only
  rw [scanEmergency_clock, scanStream_clock, hstop, hstart,
    foldl_clock (scanPhoto_clock pins), hreset]

/-! ### The Modbus master -/

/-- The time of an answer and the interval of a command are counted elsewhere. -/
@[simp] theorem uartRecvTimeout_clock (s : Station) : (uartRecvTimeout s).clock = s.clock := by
  unfold uartRecvTimeout
  dsimp only
  split_ifs <;> rfl

/-- A byte of an answer. -/
@[simp] theorem usart1IrqHandler_clock (tmp : U8) (s : Station) :
    (usart1IrqHandler tmp s).clock = s.clock := by
  unfold usart1IrqHandler
  dsimp only
  split_ifs <;> rfl

/-- An attempt, up to the frame that goes out. -/
@[simp] theorem commSendRwComand_clock (stack : Table 4 U16) (s : Station) :
    (commSendRwComand stack s).clock = s.clock := by
  have hremember : (rememberStopSpeed s).clock = s.clock := by
    unfold rememberStopSpeed
    dsimp only
    split_ifs
    · rfl
    · rfl
    · split <;> rfl
  have hbuild : ∀ {frame t}, commBuildFrame stack s = some (frame, t) → t.clock = s.clock := by
    intro frame t h
    unfold commBuildFrame at h
    dsimp only at h
    split_ifs at h
    · obtain ⟨-, rfl⟩ := Prod.mk.inj (Option.some.inj h)
      rfl
    · obtain ⟨-, rfl⟩ := Prod.mk.inj (Option.some.inj h)
      exact hremember
    · obtain ⟨-, rfl⟩ := Prod.mk.inj (Option.some.inj h)
      rfl
  have hsta : ∀ belt data t, (commSetSpeedSta belt data t).clock = t.clock := by
    intro belt data t
    unfold commSetSpeedSta
    dsimp only
    split_ifs <;> rfl
  have hsend : ∀ frame t, (uart1Send frame t).clock = t.clock := fun _ _ => rfl
  unfold commSendRwComand
  split
  · rename_i frame t h
    exact ((hsta _ _ _).trans (hsend frame t)).trans (hbuild h)
  · rfl

/-- The end of an attempt. -/
theorem commFinish_clock (accepted : Bool) (s : Station) :
    (commFinish accepted s).clock = s.clock := by
  unfold commFinish
  dsimp only
  split_ifs <;> rfl

/-- An answer, which may start or stop other belts. -/
@[simp] theorem commJudge_clock (s : Station) : (commJudge s).clock = s.clock := by
  have hpoll : ∀ buf t, (commRecvPoll buf t).clock = t.clock := by
    intro buf t
    unfold commRecvPoll
    dsimp only
    rw [setInverter_clock]
    split_ifs <;> first | rfl | exact linkageStreamCtrlHandle_clock _ _ t
  have hwrite : ∀ buf t, (commRecvWrite buf t).clock = t.clock := by
    intro buf t
    unfold commRecvWrite
    dsimp only
    split_ifs <;> rfl
  have hrecv : ∀ buf len t, (commRecvRwComand buf len t).2.clock = t.clock := by
    intro buf len t
    unfold commRecvRwComand
    split_ifs
    any_goals rfl
    · exact hpoll _ _
    · exact hwrite _ _
  have hcount : ∀ n t, (setRecvCount n t).clock = t.clock := fun _ _ => rfl
  unfold commJudge
  dsimp only
  rw [hcount, commFinish_clock, hrecv]

/-- **The master** does not count. -/
@[simp] theorem modbusRtuCommProcess_clock (stack : Table 4 U16) (s : Station) :
    (modbusRtuCommProcess stack s).clock = s.clock := by
  have htake : (commTakeNode s).clock = s.clock := by
    unfold commTakeNode getUartSendDataFromQueue
    split
    · rfl
    · rename_i slot t h
      obtain ⟨q, -, hq⟩ := Option.map_eq_some_iff.mp h
      obtain ⟨-, rfl⟩ := Prod.mk.inj hq
      rfl
  unfold modbusRtuCommProcess
  split_ifs
  · exact htake
  · exact commSendRwComand_clock stack s
  · exact commJudge_clock s
  · rfl

/-! ### Messages -/

/-- Loading the parameters. -/
@[simp] theorem readUserParas_clock (s : Station) : (readUserParas s).clock = s.clock := by
  unfold readUserParas
  dsimp only
  refine (foldl_clock ?_ _ _).trans rfl
  exact fun _ _ => rfl

/-- A parameter message of another station. -/
@[simp] theorem paraDataRecvProcess_clock (pbuf : Mem) (recvLen : Nat) (s : Station) :
    (paraDataRecvProcess pbuf recvLen s).val.clock = s.clock := by
  unfold paraDataRecvProcess
  simp only [Traced.val_bind]
  split_ifs
  · rfl
  · exact canBusSendMsg_clock _ _ _ _
  · rfl
  · exact (canBusSendMsg_clock _ _ _ _).trans (readUserParas_clock _)
  · rfl
  · rfl

/-- A status report of another station. -/
@[simp] theorem moduleStatusRecvProcess_clock (pbuf : Mem) (recvLen : Nat) (srcId : U8)
    (s : Station) : (moduleStatusRecvProcess pbuf recvLen srcId s).val.clock = s.clock := by
  have hup : ∀ running t, (upStreamUpdate running t).clock = t.clock := fun _ _ => rfl
  have hdown : ∀ running t, (downStreamUpdate running t).clock = t.clock := by
    intro running t
    have hset : ∀ u : Station,
        Station.clock { u with logic.gLinkDownStreamStatus := running } = u.clock := fun _ => rfl
    unfold downStreamUpdate
    rw [hset]
    split_ifs
    · exact linkageStreamCtrlHandle_clock _ _ _
    · exact linkageStreamCtrlHandle_clock _ _ _
    · rfl
    · rfl
  have hkeep : ∀ m t, (keepModuleStatus m t).clock = t.clock := by
    intro m t
    unfold keepModuleStatus
    split_ifs <;> rfl
  unfold moduleStatusRecvProcess
  simp only [Traced.val_bind]
  split_ifs
  · rfl
  · simp only [Traced.val_bind]
    split_ifs
    · exact (hup _ _).trans (hkeep _ s)
    · exact (hdown _ _).trans (hkeep _ s)
    · exact hkeep _ s

/-- The own status for the host. -/
@[simp] theorem canBusSendModuleStatus_clock (s : Station) :
    (canBusSendModuleStatus s).clock = s.clock := by
  unfold canBusSendModuleStatus
  split_ifs
  · rfl
  · exact canBusSendMsg_clock _ _ _ _

/-- **A frame of the bus** does not count, whatever message it completes. -/
@[simp] theorem canBusFrameReceive_clock (rxMsg : CanRxMsg) (s : Station) :
    (canBusFrameReceive rxMsg s).clock = s.clock := by
  have hdispatch : ∀ funcId srcId t, (canDispatch funcId srcId t).val.clock = t.clock := by
    intro funcId srcId t
    unfold canDispatch
    dsimp only
    split_ifs
    · exact paraDataRecvProcess_clock _ _ t
    · exact speedCtrlProcess_clock _ t
    · exact moduleStatusRecvProcess_clock _ _ _ t
    · exact resetCtrlHandle_clock t
    · rfl
    · exact canBusSendModuleStatus_clock t
    · rfl
  unfold canBusFrameReceive
  dsimp only
  split_ifs
  · rfl
  · exact hdispatch _ _ _
  · rfl

/-- The link to the server. -/
@[simp] theorem udpConnectProcess_clock (env : UdpEnv) (s : Station) :
    (udpConnectProcess env s).clock = s.clock := by
  unfold udpConnectProcess udpSendProcess
  dsimp only
  split_ifs <;> rfl

/-- **A datagram of the server** does not count. -/
@[simp] theorem udpClientProcess_clock (env : UdpEnv) (s : Station) :
    (udpClientProcess env s).clock = s.clock := by
  have hsend : ∀ pbuf f src t, (canBusSendMsg pbuf f src t).clock = t.clock := canBusSendMsg_clock
  have hwrite : ∀ point t, (recvWritePara point t).clock = t.clock := by
    intro point t
    have hreply : ∀ type block u, (paraReply type block u).clock = u.clock := fun _ _ _ => rfl
    have hflash : ∀ para u, (writeUserParas para u).clock = u.clock := fun _ _ => rfl
    have htemp : ∀ p u, (setParasTemp p u).clock = u.clock := fun _ _ => rfl
    have hforward : ∀ p u, (canBusSendWriteUserParas p u).clock = u.clock :=
      fun p u => hsend _ _ _ u
    unfold recvWritePara
    dsimp only
    split_ifs
    · rw [hreply, readUserParas_clock, hflash, htemp]
    · rw [hforward, htemp]
  have hmsg : ∀ point len t, (recvMessageFromServer point len t).clock = t.clock := by
    intro point len t
    unfold recvMessageFromServer recvMsgProcess
    split_ifs
    · rfl
    · rfl
    · rfl
    · exact hsend _ _ _ t
    · exact hwrite point t
    · exact (hsend _ _ _ _).trans (speedCtrlProcess_clock _ t)
    · exact (hsend _ _ _ _).trans (resetCtrlHandle_clock t)
    · exact hsend _ _ _ _
    · rfl
  have hdone : ∀ t : Station, Station.clock
      { t with msg.tcpRecvLen := 0, msg.tcpClientStatue := .connectOk } = t.clock := fun _ => rfl
  unfold udpClientProcess
  dsimp only
  split_ifs
  · exact hmsg _ _ s
  · rw [udpConnectProcess_clock, hdone, hmsg]
  · exact udpConnectProcess_clock env s

/-- Nor does the next datagram for it. -/
@[simp] theorem sendMessageToServer_clock (s : Station) :
    (sendMessageToServer s).clock = s.clock := by
  have hget : (getSendMsgFromQueue s).2.clock = s.clock := by
    unfold getSendMsgFromQueue
    split <;> rfl
  have hstatus : ∀ type t, (sendMsgModuleStatusCmd type t).clock = t.clock := by
    intro type t
    unfold sendMsgModuleStatusCmd
    split
    · rfl
    · rename_i m u h
      obtain ⟨q, -, hq⟩ := Option.map_eq_some_iff.mp h
      obtain ⟨-, rfl⟩ := Prod.mk.inj hq
      rfl
  have hreply : ∀ type t, (sendReplyParaCmd type t).clock = t.clock := fun _ _ => rfl
  have hen : ∀ t : Station, Station.clock { t with msg.tcpSendEn := true } = t.clock :=
    fun _ => rfl
  unfold sendMessageToServer sendReplyReadParaCmd sendReplyWriteParaCmd
  dsimp only
  split_ifs
  · rfl
  · rw [hen, hstatus, hget]
  · rw [hstatus, hget]
  · rw [hen, hreply, hget]
  · rw [hen, hreply, hget]
  · exact hget

/-! ## Routines that do -/

/-- A tick counts, and the inputs scanned in it do not. -/
theorem timeUpdate_clock (pins : Pins) (s : Station) :
    (timeUpdate pins s).clock = s.clock.tick := by
  have hsec : ∀ t, (countSec t).clock = { t.clock with main := tickSec t.main } := by
    intro t
    unfold countSec tickSec
    split_ifs <;> rfl
  have hhalf : ∀ t, (countHalfSec t).clock = { t.clock with main := tickHalfSec t.main } := by
    intro t
    unfold countHalfSec tickHalfSec
    split_ifs <;> rfl
  have hreset : ∀ t, (countResetStart t).clock = t.clock := by
    intro t
    unfold countResetStart
    split_ifs <;> rfl
  have hqueue : ∀ t, (queueUpload t).clock = t.clock := by
    intro t
    unfold queueUpload
    split_ifs <;> rfl
  have hupload : ∀ t, (countUpload t).clock = { t.clock with main := tickUpload t.main } := by
    intro t
    unfold countUpload tickUpload
    split_ifs
    · exact hqueue _
    · rfl
    · rfl
  have hmain : ∀ t : Station, t.main = t.clock.main := fun _ => rfl
  unfold timeUpdate timeCounters
  rw [inputScanProc_clock, uartRecvTimeout_clock, hupload, hmain, hreset, hhalf, hmain, hsec]
  rfl

/-- The host asks the next station. -/
theorem readNextModuleStatus_clock (s : Station) :
    (readNextModuleStatus s).clock =
      if 30 < s.main.modulestateReadcnt then
        { s.clock with
          main.modulestateReadcnt := 0
          main.modulestateIndex :=
            if 30 < s.main.modulestateIndex + 1 then 1 else s.main.modulestateIndex + 1 }
      else s.clock := by
  unfold readNextModuleStatus
  dsimp only
  by_cases hcount : 30 < s.main.modulestateReadcnt
  · rw [if_pos hcount, if_pos hcount]
    have hsent := canBusSendMsg_clock [] CAN_FUNC_ID_READ_MODULE_STATUS
      (lo (nextModuleIndex s).main.modulestateIndex) (nextModuleIndex s)
    generalize canBusSendMsg [] CAN_FUNC_ID_READ_MODULE_STATUS
      (lo (nextModuleIndex s).main.modulestateIndex) (nextModuleIndex s) = t at hsent ⊢
    have hindex : t.main.modulestateIndex = s.main.modulestateIndex + 1 :=
      congrArg (fun c => c.main.modulestateIndex) hsent
    have hreset : (resetModuleIndex t).clock = { t.clock with main.modulestateIndex := 1 } := rfl
    rw [hindex]
    split_ifs
    · rw [hreset, hsent]
      rfl
    · rw [hsent]
      rfl
  · rw [if_neg hcount, if_neg hcount]

/-- The twice-a-second half of `sec_process`. -/
theorem halfSecHandle_clock (s : Station) :
    (halfSecHandle s).clock = s.clock.halfSec s.isHost := by
  have hcount : s.clock.main.halfSecFlag = s.main.halfSecFlag := rfl
  have hhost : (clearHalfSecFlag s).isHost = s.isHost := rfl
  unfold halfSecHandle Clock.halfSec
  dsimp only
  rw [hhost, hcount]
  by_cases hflag : s.main.halfSecFlag = true
  · rw [if_pos hflag, if_pos hflag]
    by_cases hown : s.isHost = true
    · rw [if_pos hown, readNextModuleStatus_clock, if_congr (and_iff_right hown) rfl rfl]
      rfl
    · rw [if_neg hown, if_neg fun h => hown h.1]
      rfl
  · rw [if_neg hflag, if_neg hflag]

/-- The once-a-second half. -/
theorem secHandle_clock (pins : Pins) (s : Station) :
    (secHandle pins s).clock = s.clock.sec := by
  have hflag : s.clock.main.secFlag = s.main.secFlag := rfl
  have hheart : s.clock.main.heartDely = s.main.heartDely := rfl
  unfold secHandle Clock.sec
  rw [hflag, hheart]
  dsimp only
  split_ifs
  · exact blockCheckCtrlHandle_clock pins _
  · exact blockCheckCtrlHandle_clock pins _
  · rfl

/-- Both. -/
theorem secProcess_clock (pins : Pins) (s : Station) :
    (secProcess pins s).clock = s.clock.sec.halfSec s.isHost := by
  have hhost : (secHandle pins s).isHost = s.isHost := (secHandle_quiet pins s).keeps.isHost
  unfold secProcess
  rw [halfSecHandle_clock, secHandle_clock, hhost]

/-- The counter of the 800 ms is reset by who looks at it. -/
theorem mainUploadRunState_clock (s : Station) :
    (mainUploadRunState s).clock = s.clock.upload s.beltNumber := by
  have hmiddle : ∀ t i, (uploadMiddleBelt t i).clock = t.clock := by
    intro t i
    unfold uploadMiddleBelt
    split_ifs
    · exact linkageStart_clock _ _
    · rfl
  have hlast : ∀ t, (uploadLastBelt t).clock = t.clock := by
    intro t
    unfold uploadLastBelt
    split_ifs <;> first | rfl | exact linkageStart_clock _ _
  have hclear : (setUploadRuncnt 0 s).clock = { s.clock with main.uploadRuncnt := 0 } := rfl
  have hcount : s.clock.main.uploadRuncnt = s.main.uploadRuncnt := rfl
  unfold mainUploadRunState Clock.upload
  by_cases hbelts : s.beltNumber = 0
  · rw [if_pos hbelts, if_neg fun h => h.1 hbelts]
  · rw [if_neg hbelts, if_congr (and_iff_right hbelts) rfl rfl, hcount]
    dsimp only
    split_ifs
    · rw [foldl_clock hmiddle, hlast, hclear]
    · rw [hlast, hclear]
    · rfl

/-- The poll of the next inverter. -/
theorem mainMsoneProcess_clock (speedGear : U16) (s : Station) :
    (mainMsoneProcess speedGear s).clock =
      s.clock.msone s.logic.userParasLocal.beltNumber := by
  have hmsone : s.clock.main.msoneFlag = s.main.msoneFlag := rfl
  have hfreq : s.clock.freqCheckCnt = s.modbus.freqCheckCnt := rfl
  have hnum : s.clock.pollingNum = s.logic.pollingNum := rfl
  unfold mainMsoneProcess Clock.msone nextPoll
  rw [hmsone]
  dsimp only
  rw [hfreq, hnum]
  by_cases hflag : s.main.msoneFlag = true
  · rw [if_pos hflag, if_pos hflag]
    split_ifs <;> rfl
  · rw [if_neg hflag, if_neg hflag]

/-! ## One step -/

/-- The counters behind a step. -/
def Station.clockAfter (s : Station) : Input → Clock
  | .timeUpdate _ => s.clock.tick
  | .secProcess _ => s.clock.sec.halfSec s.isHost
  | .uploadRunState => s.clock.upload s.beltNumber
  | .msoneProcess _ => s.clock.msone s.logic.userParasLocal.beltNumber
  | _ => s.clock

/-- **What a step does to the counters.** -/
theorem step_clock {s : Station} (hrun : s.systemReset = false) (i : Input) :
    (step s i).clock = s.clockAfter i := by
  have hstep : step s i = handle s i := if_neg (by rw [hrun]; decide)
  have hhost : ∀ t : Station, t.clock = s.clock → (if s.isHost then t else s).clock = s.clock := by
    intro t ht
    split_ifs
    · exact ht
    · rfl
  rw [hstep]
  cases i with
  | timeUpdate pins => exact timeUpdate_clock pins s
  | usart1Irq tmp => exact usart1IrqHandler_clock tmp s
  | canFrame rxMsg => exact canBusFrameReceive_clock rxMsg s
  | udpReceive p m =>
      refine hhost _ ?_
      unfold udpReceiveCallback
      dsimp only
      split_ifs <;> rfl
  | udpClient env => exact hhost _ (udpClientProcess_clock env s)
  | sendMessage => exact hhost _ (sendMessageToServer_clock s)
  | secProcess pins => exact secProcess_clock pins s
  | modbusComm stack => exact modbusRtuCommProcess_clock stack s
  | canSend mailboxFree =>
      show (canSendFrameProcess mailboxFree s).1.clock = s.clock
      unfold canSendFrameProcess
      split
      · rfl
      · split_ifs <;> rfl
  | resetStart => exact resetStartInverterHandle_clock s
  | upstreamIo =>
      show (logicUpstreamIoAllowOutput s).clock = s.clock
      unfold logicUpstreamIoAllowOutput
      split_ifs <;> rfl
  | uploadRunState => exact mainUploadRunState_clock s
  | msoneProcess speedGear => exact mainMsoneProcess_clock speedGear s

end IotCtrl
