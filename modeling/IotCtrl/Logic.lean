import IotCtrl.Station

/-!
# Line control: `logic_ctrl.c`

The two queues of `logic_ctrl.c`, the line command `Speed_Ctrl_Process`, the
linkage, jam and reset handlers, and the parameters in flash.  Input scanning,
which also sends on the CAN bus, is in `Control`.

Loops over the belts run over `List.range` of the belt count: the counter is a
`u8` and the count is at most ten.
-/

namespace IotCtrl

open ByteMemory

/-- The input pins after the inversion in `main.h`: `true` is an active input. -/
structure Pins where
  bResetIn : Bool
  bPhotoIn : Table 5 Bool
  bStartIn : Bool
  bStopIn : Bool
  bStreamIn : Bool
  bEmergencyIn : Bool

/-! ## Queues -/

def initUartSendQueue (s : Station) : Station :=
  { s with logic.uartSendQueue := s.logic.uartSendQueue.clear }

def addUartSendData2Queue (x : CommNode) (s : Station) : Station :=
  { s with logic.uartSendQueue := s.logic.uartSendQueue.add x }

/-- The slot handed out and the station with the queue's front moved onto it. -/
def getUartSendDataFromQueue (s : Station) : Option (Nat × Station) :=
  s.logic.uartSendQueue.takeSlot.map fun p =>
    (p.1, { s with logic.uartSendQueue := p.2 })

def addModuleStatusData2Queue (x : ModuleStatus) (s : Station) : Station :=
  { s with logic.moduleStatusQueue := s.logic.moduleStatusQueue.add x }

def getModuleStatusDataFromQueue (s : Station) : Option (ModuleStatus × Station) :=
  s.logic.moduleStatusQueue.take.map fun p =>
    (p.1, { s with logic.moduleStatusQueue := p.2 })

def isModuleStatusQueueFree (s : Station) : Bool :=
  s.logic.moduleStatusQueue.front == s.logic.moduleStatusQueue.rear

/-- The command node that every speed write is queued as. -/
def speedNode (inverterNo : Nat) (speedGear commInterval : U16) : CommNode :=
  { rwFlag := 1
    inverterNo := BitVec.ofNat 16 inverterNo
    speedGear := speedGear
    commInterval := commInterval
    commRetry := 3 }

/-! ## Line commands -/

/-- The end of every branch of `Speed_Ctrl_Process`: the gear in force and the line
state output. -/
def setSpeedGear (speedGear : U8) (running : Bool) (s : Station) : Station :=
  { s with logic.gSpeedGearStatus := speedGear, outs.bRunStaOut := running }

/-- `Speed_Ctrl_Process`.  The range check on the gear is commented out in the
source, so every byte is accepted. -/
def speedCtrlProcess (speedGear : U8) (s : Station) : Station :=
  let s := s.log (.speedCall speedGear s.inFlight)
  let n := s.beltNumber
  if speedGear = EMERGENCY_STOP then
    let s := initUartSendQueue s
    let s := (List.range n).foldl (fun s i =>
      addUartSendData2Queue (speedNode (i + 1) 0 20) s) s
    setSpeedGear 0 false s
  else if s.logic.gSpeedGearStatus = 0 ∧ 0 < speedGear then
    let s := (List.range n).foldl (fun s i =>
      addUartSendData2Queue
        (speedNode (n - i) (speedGear.setWidth 16) (s.belt (n - i - 1)).startDelayTime) s) s
    setSpeedGear speedGear true s
  else if speedGear = 0 then
    let s := initUartSendQueue s
    let s := (List.range n).foldl (fun s i =>
      addUartSendData2Queue
        (speedNode (i + 1) (speedGear.setWidth 16) (s.belt i).stopDelayTime) s) s
    setSpeedGear speedGear false s
  else if s.logic.gSpeedGearStatus ≠ 0 ∧ speedGear ≠ 0 then
    let s := (List.range n).foldl (fun s i =>
      addUartSendData2Queue (speedNode (i + 1) (speedGear.setWidth 16) 20) s) s
    setSpeedGear speedGear true s
  else s

/-! ## Sensors and recorded state -/

def getPhotoInputStatus (pins : Pins) (beltIndex : Nat) : Bool :=
  pins.bPhotoIn.get beltIndex

/-- RS-485 fault, jam fault, or a fault code of the inverter itself. -/
def getInverterFaultStatus (v : InverterStatus) : Bool :=
  if v.faultCode &&& 0x1 ≠ 0 then true
  else if bitAt v.faultCode 1 ≠ 0 then true
  else if (v.faultCode >>> 8) &&& 0xFF ≠ 0 then true
  else false

/-- Whether the section below the last belt takes goods.  `Linkage_Stop_Photo_Ctrl_Handle`
and `main_upload_run_state` compute it by the same statements. -/
def linkDownStatus (s : Station) : Bool :=
  let paras := s.logic.userParasLocal
  let status :=
    if (List.range s.beltNumber).any (fun i => bitAt (s.belt i).funcSelectSwitch 4 ≠ 0) then
      if paras.downStreamNo = 0 ∧ s.logic.bStreamInfo.inputState = false then false
      else if paras.downStreamNo = 0 ∧ s.logic.bStreamInfo.inputState = true then true
      else s.logic.gLinkDownStreamStatus
    else true
  if paras.downStreamNo ≠ 0 then s.logic.gLinkDownStreamStatus else status

/-! ## Linkage -/

def linkageStopPhotoCtrlHandle (photoIndex : Nat) (s : Station) : Station :=
  if s.beltNumber = 0 then s
  else if bitAt (s.belt photoIndex).funcSelectSwitch 3 = 0 then s
  else
    let linkDown :=
      if photoIndex + 1 = s.beltNumber then linkDownStatus s
      else bitAt (s.inverter (photoIndex + 1)).faultCode 4 ≠ 0
    if bitAt (s.belt photoIndex).funcSelectSwitch 1 ≠ 0 then
      if bitAt (s.inverter photoIndex).faultCode 4 ≠ 0 then
        if linkDown = false then
          addUartSendData2Queue (speedNode (photoIndex + 1) 0 10) s
        else s
      else s
    else s

/-- The start half that `Linkage_stream_extra_signal` and
`Linkage_Stream_Ctrl_Handle` share: a stopped belt without a fault is queued with
the gear in force. -/
def linkageStart (inverterIndex : Nat) (s : Station) : Station :=
  if bitAt (s.inverter inverterIndex).faultCode 4 = 0
      ∧ getInverterFaultStatus (s.inverter inverterIndex) ≠ true then
    addUartSendData2Queue
      (speedNode (inverterIndex + 1) (s.logic.gSpeedGearStatus.setWidth 16)
        (s.belt inverterIndex).startDelayTime) s
  else s

/-- The stop half of the two linkage handlers: a running belt is queued to stop. -/
def linkageStop (inverterIndex : Nat) (s : Station) : Station :=
  if bitAt (s.inverter inverterIndex).faultCode 4 ≠ 0 then
    addUartSendData2Queue (speedNode (inverterIndex + 1) 0 10) s
  else s

def linkageStreamExtraSignal (inverterIndex : Nat) (startFlag : Bool) (s : Station) : Station :=
  if (List.range s.beltNumber).any (fun i => bitAt (s.belt i).funcSelectSwitch 4 ≠ 0) then
    if bitAt (s.belt inverterIndex).funcSelectSwitch 1 ≠ 0 then
      if startFlag then linkageStart inverterIndex s else linkageStop inverterIndex s
    else s
  else s

/-- Here a belt with the accumulation function is not stopped by linkage. -/
def linkageStreamCtrlHandle (inverterIndex : Nat) (startFlag : Bool) (s : Station) : Station :=
  if bitAt (s.belt inverterIndex).funcSelectSwitch 1 ≠ 0 then
    if startFlag then linkageStart inverterIndex s
    else if bitAt (s.belt inverterIndex).funcSelectSwitch 3 = 1 then s
    else linkageStop inverterIndex s
  else s

/-! ## Jam detection and reset -/

/-- The body of the loop of `Block_Check_Ctrl_Handle`. -/
def blockCheckBelt (pins : Pins) (s : Station) (i : Nat) : Station :=
  if bitAt (s.belt i).funcSelectSwitch 2 ≠ 0 then
    if bitAt (s.inverter i).faultCode 4 ≠ 0 then
      if getPhotoInputStatus pins i then
        let cnt := s.logic.blockCheckTimeCnt.get i + 1
        let s := { s with logic.blockCheckTimeCnt := s.logic.blockCheckTimeCnt.set i cnt }
        if (s.belt i).blockCheckTime.setWidth 32 ≤ cnt then
          let s := { s with logic.blockCheckTimeCnt := s.logic.blockCheckTimeCnt.set i 0 }
          let s := addUartSendData2Queue (speedNode (i + 1) 0 10) s
          let s := { s with outs.lAlarmOut := true }
          s.setInverter i { s.inverter i with faultCode := (s.inverter i).faultCode ||| 0x2 }
        else s
      else { s with logic.blockCheckTimeCnt := s.logic.blockCheckTimeCnt.set i 0 }
    else s
  else s

def blockCheckCtrlHandle (pins : Pins) (s : Station) : Station :=
  if s.logic.gBlockDisableFlag = 1 then s
  else (List.range s.beltNumber).foldl (blockCheckBelt pins) s

/-- The body of the loop of `Reset_Ctrl_Handle`. -/
def resetBelt (s : Station) (i : Nat) : Station :=
  let s :=
    if bitAt (s.inverter i).faultCode 1 ≠ 0 then
      s.setInverter i { s.inverter i with faultCode := (s.inverter i).faultCode &&& ~~~0x2 }
    else s
  if ((s.inverter i).faultCode >>> 8) &&& 0xFF ≠ 0 then
    addUartSendData2Queue
      { rwFlag := 2
        inverterNo := BitVec.ofNat 16 (i + 1)
        speedGear := 0
        commInterval := 20
        commRetry := 3 } s
  else s

def resetCtrlHandle (s : Station) : Station :=
  let s := (List.range s.beltNumber).foldl resetBelt s
  { s with outs.lAlarmOut := false, logic.resetStartTimeCnt := 500 }

/-- The body of the loop of `Reset_Start_Inverter_Handle`, for the counter value
`i + 1`. -/
def resetStartBelt (s : Station) (i : Nat) : Station :=
  if bitAt (s.inverter i).faultCode 4 = 0 then
    addUartSendData2Queue
      (speedNode (i + 1) (s.logic.gSpeedGearStatus.setWidth 16) (s.belt i).startDelayTime) s
  else s

def resetStartInverterHandle (s : Station) : Station :=
  if s.beltNumber = 0 then s
  else if s.logic.gSpeedGearStatus = 0 then s
  else if s.logic.resetStartFlag ≠ true then s
  else
    let s := { s with logic.resetStartFlag := false }
    if s.logic.bStreamInfo.inputState = false then
      (List.range s.beltNumber).reverse.foldl resetStartBelt s
    else s

/-! ## Parameters in flash -/

/-- `USER_PARA_DATA_LEN`: the half-words of the parameter page, which start at
`Up_Stream_No`. -/
def USER_PARA_DATA_LEN : Nat := 113

/-- The validity check at the end of `read_user_paras`, with the station's own
number and version filled in. -/
def LocalParas.check (localStation : U8) (raw : UserParas) : LocalParas :=
  let p : UserParas :=
    { raw with
      stationNo := localStation.setWidth 16
      versionNoL := 0x0004
      versionNoH := 0x1000 }
  let p := if 255 < p.upStreamNo then { p with upStreamNo := 0 } else p
  let p := if 255 < p.downStreamNo then { p with downStreamNo := 0 } else p
  if h : p.beltNumber.toNat ≤ 10 then { p with belt_le := h }
  else { p with beltNumber := 0, belt_le := by decide }

def readUserParas (s : Station) : Station :=
  let raw := UserParas.ofWords fun k =>
    if k < 3 then s.logic.userParasLocal.word k else s.flash.userPara (k - 3)
  let s := { s with logic.userParasLocal := LocalParas.check s.main.localStation raw }
  (List.range s.beltNumber).foldl (fun s i =>
    { s with modbus.stopspeedDefault :=
        s.modbus.stopspeedDefault.set i (s.belt i).gear2SpeedFreq }) s

/-- Erasing leaves `0xFFFF`; programming a half-word stores it. -/
def writeUserParas (para : Nat → U16) (s : Station) : Station :=
  { s with flash.userPara := fun i => if i < USER_PARA_DATA_LEN then para i else 0xFFFF }

/-- The parameters `read_user_paras` leaves: the first three half-words of the block
in use, the others from flash, and the check. -/
theorem readUserParas_paras (s : Station) :
    (readUserParas s).logic.userParasLocal = LocalParas.check s.main.localStation
      (UserParas.ofWords fun k =>
        if k < 3 then s.logic.userParasLocal.word k else s.flash.userPara (k - 3)) := by
  unfold readUserParas
  dsimp only
  refine @Transition.foldl_inv _ _ (fun t : Station => t.logic.userParasLocal = _) _ _ _ rfl ?_
  intro _ _ _ h
  exact h

/-- The parameters in use after the half-words `para` were written and read back. -/
def writtenParas (localStation : U8) (para : Nat → U16) : LocalParas :=
  LocalParas.check localStation (UserParas.ofWords fun k => para (k - 3))

/-- The version words and the station number of the stored block do not matter. -/
theorem LocalParas.check_congr {localStation : U8} {raw raw' : UserParas}
    (hup : raw.upStreamNo = raw'.upStreamNo) (hdown : raw.downStreamNo = raw'.downStreamNo)
    (hbelt : raw.beltNumber = raw'.beltNumber) (hpara : raw.beltPara = raw'.beltPara) :
    check localStation raw = check localStation raw' := by
  cases raw
  cases raw'
  simp only at hup hdown hbelt hpara
  subst hup hdown hbelt hpara
  rfl

/-- What `read_user_paras` finds in a page with these half-words. -/
theorem readUserParas_of_flash {para : Nat → U16} {s : Station}
    (h : ∀ i, i < USER_PARA_DATA_LEN → s.flash.userPara i = para i) :
    (readUserParas s).logic.userParasLocal = writtenParas s.main.localStation para := by
  rw [readUserParas_paras]
  refine LocalParas.check_congr (h 0 (by decide)) (h 1 (by decide)) (h 2 (by decide))
    (funext fun b => ?_)
  have hw : ∀ k, k < 11 → (if 6 + 11 * b.val + k < 3 then
      s.logic.userParasLocal.word (6 + 11 * b.val + k)
      else s.flash.userPara (6 + 11 * b.val + k - 3)) = para (6 + 11 * b.val + k - 3) := by
    intro k hk
    have hb := b.isLt
    rw [if_neg (by omega)]
    exact h _ (by unfold USER_PARA_DATA_LEN; omega)
  exact BeltParas.ofWords_congr hw

/-- What `read_user_paras` finds after `write_user_paras`. -/
theorem readUserParas_written (para : Nat → U16) (s : Station) :
    (readUserParas (writeUserParas para s)).logic.userParasLocal =
      writtenParas s.main.localStation para :=
  readUserParas_of_flash fun _ hi => if_pos hi

def logicUpstreamIoAllowOutput (s : Station) : Station :=
  if bitAt (s.inverter 0).faultCode 4 = 1 then { s with outs.bStreamOut := true }
  else { s with outs.bStreamOut := false }

end IotCtrl
