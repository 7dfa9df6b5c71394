import IotCtrl.Modbus
import IotCtrl.CanReceive

/-!
# The controller as a step system: `main.c`, the interrupts and `InputScanProc`

`step` takes one input of the controller, the 1 ms tick, an interrupt or one call
of the main loop, and is atomic.  The level of the input pins comes with the
input that reads them.  After `NVIC_SystemReset` the controller takes no further
step.

`boot` is the state in which the main loop is entered, and `Reachable` the states
of all runs from it.
-/

namespace IotCtrl

open ByteMemory Transition

/-! ## Scanning the inputs -/

/-- The debounce that all inputs share: whether the new level is confirmed, and
the record.  `limit` is the number of milliseconds for either level. -/
def confirmInput (limit : Bool → U8) (pin : Bool) (b : ButtonInfo) : Bool × ButtonInfo :=
  let b :=
    if b.inputState ≠ pin ∧ b.inputConfirmTimes = 0 then { b with inputMiddleState := pin } else b
  if b.inputMiddleState = pin ∧ b.inputMiddleState ≠ b.inputState then
    let b := { b with inputConfirmTimes := b.inputConfirmTimes + 1 }
    if limit b.inputMiddleState < b.inputConfirmTimes then
      (true, { b with inputState := b.inputMiddleState, inputConfirmTimes := 0 })
    else (false, b)
  else (false, { b with inputMiddleState := b.inputState, inputConfirmTimes := 0 })

/-- `trig_cnt++`. -/
def countTrig (b : ButtonInfo) : ButtonInfo := { b with trigCnt := b.trigCnt + 1 }

/-! The records of the inputs are assigned through these. -/

def setResetInfo (b : ButtonInfo) (s : Station) : Station := { s with logic.bResetInfo := b }
def setPhotoInfo (k : Nat) (b : ButtonInfo) (s : Station) : Station :=
  { s with logic.bPhotoInfo := s.logic.bPhotoInfo.set k b }
def setStartInfo (b : ButtonInfo) (s : Station) : Station := { s with logic.bStartInfo := b }
def setStopInfo (b : ButtonInfo) (s : Station) : Station := { s with logic.bStopInfo := b }
def setStreamInfo (b : ButtonInfo) (s : Station) : Station := { s with logic.bStreamInfo := b }
def setEmergencyInfo (b : ButtonInfo) (s : Station) : Station :=
  { s with logic.bEmergencyInfo := b }

def scanReset (pins : Pins) (s : Station) : Station :=
  let (confirmed, b) := confirmInput (fun _ => 50) pins.bResetIn s.logic.bResetInfo
  let s := setResetInfo b s
  if confirmed then resetCtrlHandle s else s

/-- The block of photo sensor `k + 1`: a change acts at once, and an active sensor
acts again every 300 ms. -/
def scanPhoto (pins : Pins) (s : Station) (k : Nat) : Station :=
  let (confirmed, b) := confirmInput (fun _ => 50) (pins.bPhotoIn.get k)
    (countTrig (s.logic.bPhotoInfo.get k))
  let s := setPhotoInfo k b s
  let s := if confirmed then linkageStopPhotoCtrlHandle k s else s
  if 300 < b.trigCnt then
    let s := setPhotoInfo k { b with trigCnt := 0 } s
    if b.inputState then linkageStopPhotoCtrlHandle k s else s
  else s

/-- What the start and the stop button do once pressed: on the host, run the line
command and broadcast it. -/
def buttonCommand (speedGear : U8) (s : Station) : Station :=
  if s.isHost then canBusSendStartCmd speedGear (speedCtrlProcess speedGear s) else s

def scanStart (pins : Pins) (s : Station) : Station :=
  let (confirmed, b) := confirmInput (fun _ => 100) pins.bStartIn s.logic.bStartInfo
  let s := setStartInfo b s
  if confirmed = true ∧ b.inputState = true then buttonCommand 2 s else s

def scanStop (pins : Pins) (s : Station) : Station :=
  let (confirmed, b) := confirmInput (fun _ => 100) pins.bStopIn s.logic.bStopInfo
  let s := setStopInfo b s
  if confirmed = true ∧ b.inputState = true then buttonCommand 0 s else s

/-- `Linkage_stream_extra_signal(user_paras_local.Belt_Number - 1, 1)`; the index
is a `u8`. -/
def streamExtraSignalLast (s : Station) : Station :=
  linkageStreamExtraSignal (lo (s.logic.userParasLocal.beltNumber - 1)).toNat true s

def scanStream (pins : Pins) (s : Station) : Station :=
  let (confirmed, b) := confirmInput (fun level => if level then 20 else 200) pins.bStreamIn
    (countTrig s.logic.bStreamInfo)
  let s := setStreamInfo b s
  let s := if confirmed = true ∧ b.inputState = true then streamExtraSignalLast s else s
  if 2000 < b.trigCnt then
    let s := setStreamInfo { b with trigCnt := 0 } s
    if b.inputState then streamExtraSignalLast s else s
  else s

/-- Both edges of the emergency input stop the line, and an active input stops it
again every two seconds.  Nothing is broadcast here. -/
def scanEmergency (pins : Pins) (s : Station) : Station :=
  let (confirmed, b) := confirmInput (fun _ => 50) pins.bEmergencyIn
    (countTrig s.logic.bEmergencyInfo)
  let s := setEmergencyInfo b s
  let s := if confirmed then speedCtrlProcess EMERGENCY_STOP s else s
  if 2000 < b.trigCnt then
    let s := setEmergencyInfo { b with trigCnt := 0 } s
    if b.inputState then speedCtrlProcess EMERGENCY_STOP s else s
  else s

/-- The part of `InputScanProc` before the emergency input. -/
def inputScanCommands (pins : Pins) (s : Station) : Station :=
  let s := scanReset pins s
  let s := (List.range 5).foldl (scanPhoto pins) s
  let s := scanStart pins s
  let s := scanStop pins s
  scanStream pins s

def inputScanProc (pins : Pins) (s : Station) : Station :=
  scanEmergency pins (inputScanCommands pins s)

/-! ## The tick -/

/-! `Time_Update` counts down one register after the other. -/

def countMs (s : Station) : Station :=
  { s with
    main.uploadRuncnt := s.main.uploadRuncnt + 1
    modbus.freqCheckCnt := s.modbus.freqCheckCnt + 1
    main.msoneFlag := true }

def countSec (s : Station) : Station :=
  if s.main.secReg ≠ 0 then
    if s.main.secReg - 1 = 0 then { s with main.secReg := 1000, main.secFlag := true }
    else { s with main.secReg := s.main.secReg - 1 }
  else s

def countHalfSec (s : Station) : Station :=
  if s.main.halfSecReg ≠ 0 then
    if s.main.halfSecReg - 1 = 0 then { s with main.halfSecReg := 500, main.halfSecFlag := true }
    else { s with main.halfSecReg := s.main.halfSecReg - 1 }
  else s

def countResetStart (s : Station) : Station :=
  if s.logic.resetStartTimeCnt ≠ 0 then
    if s.logic.resetStartTimeCnt - 1 = 0 then
      { s with logic.resetStartTimeCnt := 0, logic.resetStartFlag := true }
    else { s with logic.resetStartTimeCnt := s.logic.resetStartTimeCnt - 1 }
  else s

/-- The host asks for an upload if a module state waits. -/
def queueUpload (s : Station) : Station :=
  if s.isHost = true ∧ isModuleStatusQueueFree s = false then
    addSendMsgToQueue SEND_MSG_MODULE_STATUS_TYPE s
  else s

/-- Every ten milliseconds. -/
def countUpload (s : Station) : Station :=
  if s.main.uploadTimeDelay ≠ 0 then
    if s.main.uploadTimeDelay - 1 = 0 then queueUpload { s with main.uploadTimeDelay := 10 }
    else { s with main.uploadTimeDelay := s.main.uploadTimeDelay - 1 }
  else s

/-- `Time_Update` up to the call of `uart_recv_timeout`. -/
def timeCounters (s : Station) : Station :=
  countUpload (countResetStart (countHalfSec (countSec (countMs s))))

def timeUpdate (pins : Pins) (s : Station) : Station :=
  inputScanProc pins (uartRecvTimeout (timeCounters s))

/-! ## The calls of the main loop -/

/-- The once-a-second half of `sec_process`. -/
def secHandle (pins : Pins) (s : Station) : Station :=
  if s.main.secFlag then
    let s := { s with main.secFlag := false }
    let s : Station :=
      if s.main.heartDely ≠ 0 then { s with main.heartDely := s.main.heartDely - 1 } else s
    blockCheckCtrlHandle pins s
  else s

/-- The host's own record for the server. -/
def ownModuleStatus (s : Station) : ModuleStatus :=
  { stationNo := 1
    beltNumber := s.logic.userParasLocal.beltNumber
    inverterStatus := (List.range s.beltNumber).map s.inverter }

/-- Advance to the next station to be asked. -/
def nextModuleIndex (s : Station) : Station :=
  { s with
    main.modulestateReadcnt := 0
    main.modulestateIndex := s.main.modulestateIndex + 1 }

def resetModuleIndex (s : Station) : Station := { s with main.modulestateIndex := 1 }

def clearHalfSecFlag (s : Station) : Station := { s with main.halfSecFlag := false }

/-- Ask one station for its state; the index goes into the 8-bit source field. -/
def readNextModuleStatus (s : Station) : Station :=
  if 30 < s.main.modulestateReadcnt then
    let s := nextModuleIndex s
    let s := canBusSendMsg [] CAN_FUNC_ID_READ_MODULE_STATUS (lo s.main.modulestateIndex) s
    if 30 < s.main.modulestateIndex then resetModuleIndex s else s
  else s

/-- The twice-a-second half of `sec_process`. -/
def halfSecHandle (s : Station) : Station :=
  if s.main.halfSecFlag then
    let s := clearHalfSecFlag s
    if s.isHost then readNextModuleStatus (addModuleStatusData2Queue (ownModuleStatus s) s) else s
  else s

def secProcess (pins : Pins) (s : Station) : Station := halfSecHandle (secHandle pins s)

/-- The restart of the last belt.  The test and the node are those of
`linkageStart`. -/
def uploadLastBelt (s : Station) : Station :=
  if s.logic.gSpeedGearStatus ≠ 0 then
    if bitAt (s.belt (s.beltNumber - 1)).funcSelectSwitch 1 ≠ 0 then
      if linkDownStatus s then linkageStart (s.beltNumber - 1) s else s
    else s
  else s

/-- The loop body for the middle belts, for the counter value `i + 1`. -/
def uploadMiddleBelt (s : Station) (i : Nat) : Station :=
  if bitAt (s.inverter (i + 1)).faultCode 4 = 1 then linkageStart i s else s

/-- Assign to `upload_runcnt`. -/
def setUploadRuncnt (n : U16) (s : Station) : Station := { s with main.uploadRuncnt := n }

/-- `main_upload_run_state`: every 800 ms the last belt is restarted, and behind it the
belts above a running one. -/
def mainUploadRunState (s : Station) : Station :=
  if s.beltNumber = 0 then s
  else if 800 ≤ s.main.uploadRuncnt then
    let s := uploadLastBelt (setUploadRuncnt 0 s)
    if s.logic.gSpeedGearStatus ≠ 0 then
      (List.range (s.beltNumber - 1)).reverse.foldl uploadMiddleBelt s
    else s
  else s

/-- `main_msone_process`.  The poll leaves `speed_gear` of its node unassigned. -/
def mainMsoneProcess (speedGear : U16) (s : Station) : Station :=
  if s.main.msoneFlag then
    let s :=
      { s with
        main.msoneFlag := false
        main.modulestateReadcnt := s.main.modulestateReadcnt + 1 }
    if 500 < s.modbus.freqCheckCnt then
      let num := s.logic.pollingNum + 1
      let num := if s.logic.userParasLocal.beltNumber < num.setWidth 16 then 1 else num
      let s := { s with modbus.freqCheckCnt := 0, logic.pollingNum := num }
      addUartSendData2Queue
        { rwFlag := 0
          inverterNo := num.setWidth 16
          speedGear := speedGear
          commInterval := 20
          commRetry := 0 } s
    else s
  else s

/-! ## The system -/

/-- One interrupt, or one call of the main loop.  `pins` are the input levels the
call reads; `stack`, `speedGear` and `m` are what unassigned locals hold. -/
inductive Input
  | timeUpdate (pins : Pins)
  | usart1Irq (tmp : U8)
  | canFrame (rxMsg : CanRxMsg)
  | udpReceive (p : Pbuf) (m : U16)
  | udpClient (env : UdpEnv)
  | sendMessage
  | secProcess (pins : Pins)
  | modbusComm (stack : Table 4 U16)
  | canSend (mailboxFree : Bool)
  | resetStart
  | upstreamIo
  | uploadRunState
  | msoneProcess (speedGear : U16)

/-- The work of one input.  The three server inputs exist on the host only. -/
def handle (s : Station) : Input → Station
  | .timeUpdate pins => timeUpdate pins s
  | .usart1Irq tmp => usart1IrqHandler tmp s
  | .canFrame rxMsg => canBusFrameReceive rxMsg s
  | .udpReceive p m => if s.isHost then udpReceiveCallback p m s else s
  | .udpClient env => if s.isHost then udpClientProcess env s else s
  | .sendMessage => if s.isHost then sendMessageToServer s else s
  | .secProcess pins => secProcess pins s
  | .modbusComm stack => modbusRtuCommProcess stack s
  | .canSend mailboxFree => (canSendFrameProcess mailboxFree s).1
  | .resetStart => resetStartInverterHandle s
  | .upstreamIo => logicUpstreamIoAllowOutput s
  | .uploadRunState => mainUploadRunState s
  | .msoneProcess speedGear => mainMsoneProcess speedGear s

/-- One step; there is none after a reset. -/
def step (s : Station) (i : Input) : Station :=
  if s.systemReset then s else handle s i

/-- The cleared memory of a board, with the initial values of `main.c`. -/
def Station.cleared (flash : Flash) (localStation : U8) : Station :=
  { logic :=
      { userParasLocal := default
        userParasSlave := default
        userParasTemp := default
        bPhotoInfo := fun _ => default
        bResetInfo := default
        bStartInfo := default
        bStopInfo := default
        bStreamInfo := default
        bEmergencyInfo := default
        inverterStatusBuffer := fun _ => default
        moduleStatusQueue := RingFifo.empty (fun _ => default) (by decide)
        uartSendQueue := RingFifo.empty (fun _ => default) (by decide)
        commNode := default
        commBusyFlag := false
        pollingNum := 0
        gLinkUpStreamStatus := false
        gLinkDownStreamStatus := false
        gSpeedGearStatus := 0
        gBlockDisableFlag := 0
        blockCheckTimeCnt := fun _ => 0
        resetStartTimeCnt := 0
        resetStartFlag := false }
    modbus :=
      { uart1RecvBuff := fun _ => 0
        uart1RecvCount := 0
        uart1CommuState := .sendReady
        uart1Tmr := 0
        gSpeedSetSta := false
        stopspeedDefault := fun _ => 0
        freqCheckCnt := 0 }
    can :=
      { canSendQueue := RingFifo.empty (fun _ => default) (by decide)
        recv :=
          { canRecvBuff := fun _ => 0
            canRecvLen := 0
            gSegPolo := .none
            gSegNum := 0
            gSegBytes := 0 } }
    msg :=
      { msgSendQueue := RingFifo.empty (fun _ => 0) (by decide)
        tcpRecvBuf := fun _ => 0
        tcpSendBuf := fun _ => 0
        tcpSendEn := false
        tcpRecvLen := 0
        tcpSendLen := 0
        tcpClientStatue := .disConnect
        connectIsOk := false }
    main :=
      { secReg := 1000
        secFlag := false
        halfSecReg := 500
        halfSecFlag := false
        heartDely := 0
        localStation := localStation
        uploadTimeDelay := 10
        uploadRuncnt := 0
        msoneFlag := false
        modulestateReadcnt := 0
        modulestateIndex := 1 }
    outs :=
      { bRunOut := fun _ => false
        bStreamOut := false
        lAlarmOut := false
        bRunStaOut := false }
    flash := flash
    systemReset := false
    trace := [] }

/-- The state in which `main` enters its loop. -/
def boot (flash : Flash) (localStation : U8) : Station :=
  readUserParas (Station.cleared flash localStation)

/-- A flash page of zeros. -/
def zeroFlash : Flash := { userPara := fun _ => 0, userAppEnFlag := 0xFFFF }

/-- A freshly booted station, of any number and with anything in flash. -/
def Booted (s : Station) : Prop := ∃ flash localStation, s = boot flash localStation

/-- The states of the runs whose every step `ok` allows. -/
abbrev Reachable (ok : Station → Input → Prop) : Station → Prop := Reach Booted step ok

/-- The steps of a run, latest first, each with the state it was taken in. -/
abbrev Past := List (Station × Input)

/-- The same runs with their steps. -/
abbrev Trails (ok : Station → Input → Prop) : Past → Station → Prop := Trail Booted step ok

end IotCtrl
