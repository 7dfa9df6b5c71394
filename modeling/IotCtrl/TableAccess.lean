import IotCtrl.LineInvariants
import IotCtrl.Logged

/-!
# The accesses of the fixed tables

Four tables have an element for each of ten belts: `belt_para`, `inverter_status_buffer`,
`stopspeed_default` and `block_check_time_cnt`.  Here every routine of `step` that uses
them is written a second time, in a monad that keeps the indices used, and each copy is
shown to compute what the routine does with indices from 0 to 9 only.

An index is an integer: one that the source computes below zero is logged below zero.

* `commands_and_indices_in_range` — queued commands have a known kind, one of ten
  inverters and at most three retries, and every table index is from 0 to 9.
-/

namespace IotCtrl

open ByteMemory Transition Logged

/-! ## Tables and their accesses -/

/-- The tables with one element for each belt. -/
inductive TableName
  /-- `user_paras_local.belt_para`. -/
  | beltPara
  | inverterStatusBuffer
  | stopspeedDefault
  | blockCheckTimeCnt
deriving DecidableEq

/-- One element of one table, as the program computes it. -/
structure TableIndex where
  table : TableName
  index : Int
deriving DecidableEq

/-- The element there is: every table has ten. -/
def InTable (a : TableIndex) : Prop := 0 ≤ a.index ∧ a.index < 10

/-- A computation that keeps the table elements it used. -/
abbrev Indexing := Logged TableIndex

namespace Indexing

/-- Read `user_paras_local.belt_para[i]`. -/
def beltAt (i : Int) (s : Station) : Indexing BeltParas :=
  access ⟨.beltPara, i⟩ (s.belt i.toNat)

/-- Read `inverter_status_buffer[i]`. -/
def inverterAt (i : Int) (s : Station) : Indexing InverterStatus :=
  access ⟨.inverterStatusBuffer, i⟩ (s.inverter i.toNat)

/-- Assign to `inverter_status_buffer[i]`. -/
def setInverterAt (i : Int) (v : InverterStatus) (s : Station) : Indexing Station :=
  access ⟨.inverterStatusBuffer, i⟩ (s.setInverter i.toNat v)

/-- Read `stopspeed_default[i]`. -/
def stopspeedAt (i : Int) (s : Station) : Indexing U16 :=
  access ⟨.stopspeedDefault, i⟩ (s.modbus.stopspeedDefault.get i.toNat)

/-- Assign to `stopspeed_default[i]`. -/
def setStopspeedAt (i : Int) (freq : U16) (s : Station) : Indexing Station :=
  access ⟨.stopspeedDefault, i⟩
    { s with modbus.stopspeedDefault := s.modbus.stopspeedDefault.set i.toNat freq }

/-- Read `block_check_time_cnt[i]`. -/
def blockCntAt (i : Int) (s : Station) : Indexing U32 :=
  access ⟨.blockCheckTimeCnt, i⟩ (s.logic.blockCheckTimeCnt.get i.toNat)

/-- Assign to `block_check_time_cnt[i]`. -/
def setBlockCntAt (i : Int) (cnt : U32) (s : Station) : Indexing Station :=
  access ⟨.blockCheckTimeCnt, i⟩
    { s with logic.blockCheckTimeCnt := s.logic.blockCheckTimeCnt.set i.toNat cnt }

section Accesses

variable {k : Nat}

/-- A natural number below ten is an index of every table. -/
theorem inTable_cast (table : TableName) (hk : k < 10) : InTable ⟨table, k⟩ := by
  constructor
  · exact Int.natCast_nonneg k
  · exact Int.ofNat_lt.mpr hk

/-- An access below ten is in range; the same for each of the others. -/
theorem beltAt_within (hk : k < 10) (s : Station) : Within InTable (s.belt k) (beltAt k s) :=
  Within.access (inTable_cast _ hk)

theorem inverterAt_within (hk : k < 10) (s : Station) :
    Within InTable (s.inverter k) (inverterAt k s) :=
  Within.access (inTable_cast _ hk)

theorem setInverterAt_within (hk : k < 10) (v : InverterStatus) (s : Station) :
    Within InTable (s.setInverter k v) (setInverterAt k v s) :=
  Within.access (inTable_cast _ hk)

theorem stopspeedAt_within (hk : k < 10) (s : Station) :
    Within InTable (s.modbus.stopspeedDefault.get k) (stopspeedAt k s) :=
  Within.access (inTable_cast _ hk)

theorem setStopspeedAt_within (hk : k < 10) (freq : U16) (s : Station) :
    Within InTable
      { s with modbus.stopspeedDefault := s.modbus.stopspeedDefault.set k freq }
      (setStopspeedAt k freq s) :=
  Within.access (inTable_cast _ hk)

theorem blockCntAt_within (hk : k < 10) (s : Station) :
    Within InTable (s.logic.blockCheckTimeCnt.get k) (blockCntAt k s) :=
  Within.access (inTable_cast _ hk)

theorem setBlockCntAt_within (hk : k < 10) (cnt : U32) (s : Station) :
    Within InTable
      { s with logic.blockCheckTimeCnt := s.logic.blockCheckTimeCnt.set k cnt }
      (setBlockCntAt k cnt s) :=
  Within.access (inTable_cast _ hk)

/-- A belt of the station has an element in every table. -/
theorem lt_ten {s : Station} (h : k ∈ List.range s.beltNumber) : k < 10 :=
  lt_of_lt_of_le (List.mem_range.mp h) s.beltNumber_le

end Accesses

/-! ## Line commands and linkage: `logic_ctrl.c` -/

/-- Starts read the delays from the last belt up, stops from the first belt down. -/
def speedCtrlProcess (speedGear : U8) (s : Station) : Indexing Station := do
  let s := s.log (.speedCall speedGear s.inFlight)
  let n := s.beltNumber
  if speedGear = EMERGENCY_STOP then
    let s := initUartSendQueue s
    let s := (List.range n).foldl (fun s i =>
      addUartSendData2Queue (speedNode (i + 1) 0 20) s) s
    return setSpeedGear 0 false s
  else if s.logic.gSpeedGearStatus = 0 ∧ 0 < speedGear then
    let s ← (List.range n).foldlM (fun s (i : Nat) => do
      let b ← beltAt ((n : Int) - i - 1) s
      return addUartSendData2Queue
        (speedNode (n - i) (speedGear.setWidth 16) b.startDelayTime) s) s
    return setSpeedGear speedGear true s
  else if speedGear = 0 then
    let s := initUartSendQueue s
    let s ← (List.range n).foldlM (fun s (i : Nat) => do
      let b ← beltAt i s
      return addUartSendData2Queue
        (speedNode (i + 1) (speedGear.setWidth 16) b.stopDelayTime) s) s
    return setSpeedGear speedGear false s
  else if s.logic.gSpeedGearStatus ≠ 0 ∧ speedGear ≠ 0 then
    let s := (List.range n).foldl (fun s i =>
      addUartSendData2Queue (speedNode (i + 1) (speedGear.setWidth 16) 20) s) s
    return setSpeedGear speedGear true s
  else return s

/-- `Belt_Number - i - 1` is the number of a belt as long as `i` is. -/
theorem speedCtrlProcess_within (speedGear : U8) (s : Station) :
    Within InTable (IotCtrl.speedCtrlProcess speedGear s) (speedCtrlProcess speedGear s) := by
  unfold IotCtrl.speedCtrlProcess speedCtrlProcess
  dsimp only
  refine Within.ite (fun _ => Within.pure) fun _ => ?_
  refine Within.ite (fun _ => ?_) fun _ => ?_
  · refine Within.bind (Within.foldlM _ _ fun t i hi => ?_) Within.pure
    have hlt := List.mem_range.mp hi
    have hn := lt_ten hi
    have hindex : ((s.beltNumber : Int) - i - 1) = ((s.beltNumber - i - 1 : Nat) : Int) := by
      rw [Station.log_beltNumber] at hlt
      omega
    rw [Station.log_beltNumber, hindex]
    refine (beltAt_within ?_ t).bind Within.pure
    have hle := s.beltNumber_le
    omega
  refine Within.ite (fun _ => ?_) fun _ => ?_
  · refine Within.bind (Within.foldlM _ _ fun t i hi => ?_) Within.pure
    exact (beltAt_within (lt_ten hi) t).bind Within.pure
  · exact Within.ite (fun _ => Within.pure) fun _ => Within.pure

/-- The search for a belt with an external signal. -/
def externalSignal (s : Station) : Indexing Bool :=
  (List.range s.beltNumber).anyM fun (i : Nat) => do
    let b ← beltAt i s
    return decide (bitAt b.funcSelectSwitch 4 ≠ 0)

/-- The search stays among the belts of the station. -/
theorem externalSignal_within (s : Station) :
    Within InTable
      ((List.range s.beltNumber).any fun i => bitAt (s.belt i).funcSelectSwitch 4 ≠ 0)
      (externalSignal s) := by
  unfold externalSignal
  exact Within.anyM _ fun _ hi => (beltAt_within (lt_ten hi) s).bind Within.pure

/-- Whether what is behind the line runs; with an external signal it may be unknown. -/
def linkDownStatus (s : Station) : Indexing Bool := do
  let paras := s.logic.userParasLocal
  let external ← externalSignal s
  let status :=
    if external then
      if paras.downStreamNo = 0 ∧ s.logic.bStreamInfo.inputState = false then false
      else if paras.downStreamNo = 0 ∧ s.logic.bStreamInfo.inputState = true then true
      else s.logic.gLinkDownStreamStatus
    else true
  return if paras.downStreamNo ≠ 0 then s.logic.gLinkDownStreamStatus else status

/-- The tables are used by the search only. -/
theorem linkDownStatus_within (s : Station) :
    Within InTable (IotCtrl.linkDownStatus s) (linkDownStatus s) :=
  (externalSignal_within s).bind Within.pure

/-- The record of the next belt is read only if this belt is not the last one. -/
def linkageStopPhotoCtrlHandle (photoIndex : Nat) (s : Station) : Indexing Station := do
  if s.beltNumber = 0 then return s
  else
    let b ← beltAt photoIndex s
    if bitAt b.funcSelectSwitch 3 = 0 then return s
    else
      let linkDown ← (if photoIndex + 1 = s.beltNumber then linkDownStatus s
        else do
          let v ← inverterAt (photoIndex + 1 : Nat) s
          return decide (bitAt v.faultCode 4 ≠ 0))
      if bitAt b.funcSelectSwitch 1 ≠ 0 then
        let v ← inverterAt photoIndex s
        if bitAt v.faultCode 4 ≠ 0 then
          if linkDown = false then
            return addUartSendData2Queue (speedNode (photoIndex + 1) 0 10) s
          else return s
        else return s
      else return s

/-- There are five photo sensors, so that the next belt has an element as well. -/
theorem linkageStopPhotoCtrlHandle_within {photoIndex : Nat} (h : photoIndex < 5) (s : Station) :
    Within InTable (IotCtrl.linkageStopPhotoCtrlHandle photoIndex s)
      (linkageStopPhotoCtrlHandle photoIndex s) := by
  have hthis : photoIndex < 10 := by omega
  have hnext : photoIndex + 1 < 10 := by omega
  unfold IotCtrl.linkageStopPhotoCtrlHandle linkageStopPhotoCtrlHandle
  refine Within.ite (fun _ => Within.pure) fun _ => ?_
  refine (beltAt_within hthis s).bind ?_
  refine Within.ite (fun _ => Within.pure) fun _ => ?_
  refine Within.bind (Within.ite (fun _ => linkDownStatus_within s)
    fun _ => (inverterAt_within hnext s).bind Within.pure) ?_
  refine Within.ite (fun _ => ?_) fun _ => Within.pure
  refine (inverterAt_within hthis s).bind ?_
  refine Within.ite (fun _ => ?_) fun _ => Within.pure
  exact Within.ite (fun _ => Within.pure) fun _ => Within.pure

/-- The start half of the two linkage handlers. -/
def linkageStart (inverterIndex : Int) (s : Station) : Indexing Station := do
  let v ← inverterAt inverterIndex s
  if bitAt v.faultCode 4 = 0 ∧ getInverterFaultStatus v ≠ true then
    let b ← beltAt inverterIndex s
    return addUartSendData2Queue
      (speedNode (inverterIndex.toNat + 1) (s.logic.gSpeedGearStatus.setWidth 16)
        b.startDelayTime) s
  else return s

/-- The index is that of the caller. -/
theorem linkageStart_within {k : Nat} (hk : k < 10) (s : Station) :
    Within InTable (IotCtrl.linkageStart k s) (linkageStart k s) := by
  refine (inverterAt_within hk s).bind (Within.ite (fun _ => ?_) fun _ => Within.pure)
  exact (beltAt_within hk s).bind Within.pure

/-- The stop half. -/
def linkageStop (inverterIndex : Int) (s : Station) : Indexing Station := do
  let v ← inverterAt inverterIndex s
  if bitAt v.faultCode 4 ≠ 0 then
    return addUartSendData2Queue (speedNode (inverterIndex.toNat + 1) 0 10) s
  else return s

theorem linkageStop_within {k : Nat} (hk : k < 10) (s : Station) :
    Within InTable (IotCtrl.linkageStop k s) (linkageStop k s) :=
  (inverterAt_within hk s).bind (Within.ite (fun _ => Within.pure) fun _ => Within.pure)

/-- The last belt, which the caller names, follows the stream input. -/
def linkageStreamExtraSignal (inverterIndex : Int) (startFlag : Bool) (s : Station) :
    Indexing Station := do
  if ← externalSignal s then
    let b ← beltAt inverterIndex s
    if bitAt b.funcSelectSwitch 1 ≠ 0 then
      if startFlag then linkageStart inverterIndex s else linkageStop inverterIndex s
    else return s
  else return s

/-- The index is used behind the search only, which finds nothing on a station without
belts. -/
theorem linkageStreamExtraSignal_within {k : Nat} (startFlag : Bool) {s : Station}
    (hk : s.beltNumber ≠ 0 → k < 10) :
    Within InTable (IotCtrl.linkageStreamExtraSignal k startFlag s)
      (linkageStreamExtraSignal k startFlag s) := by
  refine (externalSignal_within s).bind (Within.ite (fun hany => ?_) fun _ => Within.pure)
  have hlt : k < 10 := by
    refine hk fun hzero => ?_
    simp [hzero] at hany
  refine (beltAt_within hlt s).bind (Within.ite (fun _ => ?_) fun _ => Within.pure)
  exact Within.ite (fun _ => linkageStart_within hlt s) fun _ => linkageStop_within hlt s

/-- A belt follows its neighbour. -/
def linkageStreamCtrlHandle (inverterIndex : Int) (startFlag : Bool) (s : Station) :
    Indexing Station := do
  let b ← beltAt inverterIndex s
  if bitAt b.funcSelectSwitch 1 ≠ 0 then
    if startFlag then linkageStart inverterIndex s
    else if bitAt b.funcSelectSwitch 3 = 1 then return s
    else linkageStop inverterIndex s
  else return s

/-- Again the index is that of the caller. -/
theorem linkageStreamCtrlHandle_within {k : Nat} (startFlag : Bool) (hk : k < 10) (s : Station) :
    Within InTable (IotCtrl.linkageStreamCtrlHandle k startFlag s)
      (linkageStreamCtrlHandle k startFlag s) := by
  refine (beltAt_within hk s).bind (Within.ite (fun _ => ?_) fun _ => Within.pure)
  refine Within.ite (fun _ => linkageStart_within hk s) fun _ => ?_
  exact Within.ite (fun _ => Within.pure) fun _ => linkageStop_within hk s

/-! ## Jams, resets and parameters: `logic_ctrl.c` -/

/-- The element is read again after each assignment, the way the source does. -/
def blockCheckBelt (pins : Pins) (s : Station) (i : Nat) : Indexing Station := do
  let b ← beltAt i s
  if bitAt b.funcSelectSwitch 2 ≠ 0 then
    let v ← inverterAt i s
    if bitAt v.faultCode 4 ≠ 0 then
      if getPhotoInputStatus pins i then
        let cnt ← blockCntAt i s
        let s ← setBlockCntAt i (cnt + 1) s
        let b ← beltAt i s
        if b.blockCheckTime.setWidth 32 ≤ cnt + 1 then
          let s ← setBlockCntAt i 0 s
          let s := addUartSendData2Queue (speedNode (i + 1) 0 10) s
          let s := { s with outs.lAlarmOut := true }
          let v ← inverterAt i s
          setInverterAt i { v with faultCode := v.faultCode ||| 0x2 } s
        else return s
      else setBlockCntAt i 0 s
    else return s
  else return s

/-- Every access of the loop body has the loop index. -/
theorem blockCheckBelt_within (pins : Pins) (s : Station) {i : Nat} (hi : i < 10) :
    Within InTable (IotCtrl.blockCheckBelt pins s i) (blockCheckBelt pins s i) := by
  refine (beltAt_within hi s).bind (Within.ite (fun _ => ?_) fun _ => Within.pure)
  refine (inverterAt_within hi s).bind (Within.ite (fun _ => ?_) fun _ => Within.pure)
  refine Within.ite (fun _ => ?_) fun _ => setBlockCntAt_within hi 0 s
  refine (blockCntAt_within hi s).bind ((setBlockCntAt_within hi _ s).bind ?_)
  refine (beltAt_within hi _).bind (Within.ite (fun _ => ?_) fun _ => Within.pure)
  refine (setBlockCntAt_within hi 0 _).bind ?_
  exact (inverterAt_within hi _).bind (setInverterAt_within hi _ _)

/-- The loop of the jam check. -/
def blockCheckCtrlHandle (pins : Pins) (s : Station) : Indexing Station :=
  if s.logic.gBlockDisableFlag = 1 then pure s
  else (List.range s.beltNumber).foldlM (blockCheckBelt pins) s

/-- The loop stays among the belts of the station. -/
theorem blockCheckCtrlHandle_within (pins : Pins) (s : Station) :
    Within InTable (IotCtrl.blockCheckCtrlHandle pins s) (blockCheckCtrlHandle pins s) :=
  Within.ite (fun _ => Within.pure) fun _ =>
    Within.foldlM _ s fun t _ hi => blockCheckBelt_within pins t (lt_ten hi)

/-- The record is read again behind the jam bit. -/
def resetBelt (s : Station) (i : Nat) : Indexing Station := do
  let v ← inverterAt i s
  let s ← (if bitAt v.faultCode 1 ≠ 0 then
      setInverterAt i { v with faultCode := v.faultCode &&& ~~~0x2 } s
    else pure s)
  let v ← inverterAt i s
  if (v.faultCode >>> 8) &&& 0xFF ≠ 0 then
    return addUartSendData2Queue
      { rwFlag := 2
        inverterNo := BitVec.ofNat 16 (i + 1)
        speedGear := 0
        commInterval := 20
        commRetry := 3 } s
  else return s

theorem resetBelt_within (s : Station) {i : Nat} (hi : i < 10) :
    Within InTable (IotCtrl.resetBelt s i) (resetBelt s i) := by
  refine (inverterAt_within hi s).bind ?_
  refine (Within.ite (fun _ => setInverterAt_within hi _ s) fun _ => Within.pure).bind ?_
  exact (inverterAt_within hi _).bind (Within.ite (fun _ => Within.pure) fun _ => Within.pure)

/-- The loop of `Reset_Ctrl_Handle`. -/
def resetCtrlHandle (s : Station) : Indexing Station := do
  let s ← (List.range s.beltNumber).foldlM resetBelt s
  return { s with outs.lAlarmOut := false, logic.resetStartTimeCnt := 500 }

/-- It stays among the belts of the station. -/
theorem resetCtrlHandle_within (s : Station) :
    Within InTable (IotCtrl.resetCtrlHandle s) (resetCtrlHandle s) :=
  (Within.foldlM _ s fun t _ hi => resetBelt_within t (lt_ten hi)).bind Within.pure

/-- The delay is read only of a belt that stands still. -/
def resetStartBelt (s : Station) (i : Nat) : Indexing Station := do
  let v ← inverterAt i s
  if bitAt v.faultCode 4 = 0 then
    let b ← beltAt i s
    return addUartSendData2Queue
      (speedNode (i + 1) (s.logic.gSpeedGearStatus.setWidth 16) b.startDelayTime) s
  else return s

theorem resetStartBelt_within (s : Station) {i : Nat} (hi : i < 10) :
    Within InTable (IotCtrl.resetStartBelt s i) (resetStartBelt s i) := by
  refine (inverterAt_within hi s).bind (Within.ite (fun _ => ?_) fun _ => Within.pure)
  exact (beltAt_within hi s).bind Within.pure

/-- The loop of `Reset_Start_Inverter_Handle`, from the last belt down. -/
def resetStartInverterHandle (s : Station) : Indexing Station :=
  if s.beltNumber = 0 then pure s
  else if s.logic.gSpeedGearStatus = 0 then pure s
  else if s.logic.resetStartFlag ≠ true then pure s
  else
    let s := { s with logic.resetStartFlag := false }
    if s.logic.bStreamInfo.inputState = false then
      (List.range s.beltNumber).reverse.foldlM resetStartBelt s
    else pure s

/-- Nothing is used before the three tests. -/
theorem resetStartInverterHandle_within (s : Station) :
    Within InTable (IotCtrl.resetStartInverterHandle s) (resetStartInverterHandle s) := by
  refine Within.ite (fun _ => Within.pure) fun _ => ?_
  refine Within.ite (fun _ => Within.pure) fun _ => ?_
  refine Within.ite (fun _ => Within.pure) fun _ => ?_
  refine Within.ite (fun _ => ?_) fun _ => Within.pure
  refine Within.foldlM _ _ fun t i hi => resetStartBelt_within t ?_
  exact lt_ten (List.mem_reverse.mp hi)

/-- The stop speeds are those of gear 2 of the belts that passed the check. -/
def readUserParas (s : Station) : Indexing Station :=
  let raw := UserParas.ofWords fun k =>
    if k < 3 then s.logic.userParasLocal.word k else s.flash.userPara (k - 3)
  let s := { s with logic.userParasLocal := LocalParas.check s.main.localStation raw }
  (List.range s.beltNumber).foldlM (fun s (i : Nat) => do
    let b ← beltAt i s
    setStopspeedAt i b.gear2SpeedFreq s) s

/-- The check leaves at most ten belts, whatever the flash holds. -/
theorem readUserParas_within (s : Station) :
    Within InTable (IotCtrl.readUserParas s) (readUserParas s) := by
  refine Within.foldlM _ _ fun t i hi => ?_
  exact (beltAt_within (lt_ten hi) t).bind (setStopspeedAt_within (lt_ten hi) _ t)

/-- The first element is read, whether the station has a belt or not. -/
def logicUpstreamIoAllowOutput (s : Station) : Indexing Station := do
  let v ← inverterAt 0 s
  if bitAt v.faultCode 4 = 1 then return { s with outs.bStreamOut := true }
  else return { s with outs.bStreamOut := false }

theorem logicUpstreamIoAllowOutput_within (s : Station) :
    Within InTable (IotCtrl.logicUpstreamIoAllowOutput s) (logicUpstreamIoAllowOutput s) :=
  (inverterAt_within (k := 0) (by decide) s).bind
    (Within.ite (fun _ => Within.pure) fun _ => Within.pure)

/-! ## The Modbus master: `modbus_rtu.c`

Every index comes from the command in flight. -/

/-- `comm_node.inverter_no - 1`. -/
def commIndex (s : Station) : Int := (s.logic.commNode.inverterNo.toNat : Int) - 1

/-- The command in flight is for one of ten inverters. -/
def CommInTable (s : Station) : Prop :=
  1 ≤ s.logic.commNode.inverterNo.toNat ∧ s.logic.commNode.inverterNo.toNat ≤ 10

/-- The index is a natural number. -/
theorem CommInTable.commIndex_eq {s : Station} (h : CommInTable s) :
    commIndex s = ((s.logic.commNode.inverterNo.toNat - 1 : Nat) : Int) := by
  have hone := h.1
  unfold commIndex
  omega

/-- It is below ten. -/
theorem CommInTable.lt {s : Station} (h : CommInTable s) :
    s.logic.commNode.inverterNo.toNat - 1 < 10 := by
  have hten := h.2
  omega

/-- `belt` is the copy `belt_para_t` of the belt's parameters. -/
def speedWriteData (stack : Table 4 U16) (belt : BeltParas) (s : Station) :
    Indexing (List U16) := do
  if s.logic.bEmergencyInfo.inputState then
    let stopFreq ← stopspeedAt (commIndex s) s
    return speedRegs belt 5 stopFreq
  else if s.logic.commNode.speedGear = 0 then
    let stopFreq ← stopspeedAt (commIndex s) s
    return speedRegs belt 5 stopFreq
  else
    match gearFreq belt s.logic.commNode.speedGear with
    | some freq => return speedRegs belt 1 freq
    | none => return [stack.get 0, stack.get 1, stack.get 2]

/-- The stop speed has the index of the command in flight. -/
theorem speedWriteData_within (stack : Table 4 U16) {s : Station} (h : CommInTable s) :
    Within InTable (IotCtrl.speedWriteData stack s) (speedWriteData stack (commBelt s) s) := by
  have hstop := stopspeedAt_within h.lt s
  rw [← h.commIndex_eq] at hstop
  unfold IotCtrl.speedWriteData speedWriteData
  refine Within.ite (fun _ => hstop.bind Within.pure) fun _ => ?_
  refine Within.ite (fun _ => hstop.bind Within.pure) fun _ => ?_
  show Within InTable (match gearFreq (commBelt s) s.logic.commNode.speedGear with
    | some freq => speedRegs (commBelt s) 1 freq
    | none => [stack 0, stack 1, stack 2]) _
  cases gearFreq (commBelt s) s.logic.commNode.speedGear with
  | some freq => exact Within.pure
  | none => exact Within.pure

/-- A write of a known gear is remembered. -/
def rememberStopSpeed (belt : BeltParas) (s : Station) : Indexing Station :=
  if s.logic.bEmergencyInfo.inputState then pure s
  else if s.logic.commNode.speedGear = 6 then pure s
  else
    match gearFreq belt s.logic.commNode.speedGear with
    | some freq => setStopspeedAt (commIndex s) freq s
    | none => pure s

/-- So has the remembered speed. -/
theorem rememberStopSpeed_within {s : Station} (h : CommInTable s) :
    Within InTable (IotCtrl.rememberStopSpeed s) (rememberStopSpeed (commBelt s) s) := by
  unfold IotCtrl.rememberStopSpeed rememberStopSpeed
  refine Within.ite (fun _ => Within.pure) fun _ => ?_
  refine Within.ite (fun _ => Within.pure) fun _ => ?_
  rw [h.commIndex_eq]
  show Within InTable (match gearFreq (commBelt s) s.logic.commNode.speedGear with
    | some freq => _
    | none => s) _
  cases gearFreq (commBelt s) s.logic.commNode.speedGear with
  | some freq => exact setStopspeedAt_within h.lt freq s
  | none => exact Within.pure

/-- The tables are used by a speed write only. -/
def commSendRwComand (stack : Table 4 U16) (s : Station) : Indexing Station := do
  let node := s.logic.commNode
  if node.rwFlag = 0 then return uart1Send (readRegFrame node.inverterNo 0x7200 7) s
  else if node.rwFlag = 1 then
    let belt ← beltAt (commIndex s) s
    let data ← speedWriteData stack belt s
    let t ← rememberStopSpeed belt s
    return commSetSpeedSta belt data (uart1Send
      (writeMultiRegFrame node.inverterNo 0x7000 (data ++ [belt.funcSelectSwitch &&& 0x1])) t)
  else if node.rwFlag = 2 then
    return uart1Send (writeMultiRegFrame node.inverterNo 0x7000 [0x8]) s
  else return s

/-- Polls and fault resets use no table. -/
theorem commSendRwComand_within (stack : Table 4 U16) {s : Station} (h : CommInTable s) :
    Within InTable (IotCtrl.commSendRwComand stack s) (commSendRwComand stack s) := by
  have hbelt : Within InTable (commBelt s) (beltAt (commIndex s) s) := by
    rw [h.commIndex_eq]
    exact beltAt_within h.lt s
  have hwrite : s.logic.commNode.rwFlag ≠ 1 → ∀ belt data frame,
      commSetSpeedSta belt data (uart1Send frame s) = uart1Send frame s :=
    fun hne belt data frame => if_neg hne
  unfold IotCtrl.commSendRwComand commBuildFrame commSendRwComand
  dsimp only
  split_ifs with hread hone htwo
  · dsimp only
    rw [hwrite (by rw [hread]; decide)]
    exact Within.pure
  · refine hbelt.bind ((speedWriteData_within stack h).bind ?_)
    exact (rememberStopSpeed_within h).bind Within.pure
  · dsimp only
    rw [hwrite hone]
    exact Within.pure
  · exact Within.pure

/-- The linkage of an edge goes to the belt above, `inverter_no - 2`. -/
def commRecvPoll (buf : Mem) (s : Station) : Indexing Station := do
  let no := s.logic.commNode.inverterNo.toNat
  let k := commIndex s
  let v ← inverterAt k s
  let runStatus := bitAt v.faultCode 4
  let runStatusNew : U16 := if le16 (buf 4) (buf 3) &&& 0xFF = 0x1 then 1 else 0
  let s ← (if runStatus ≠ runStatusNew then
      if 1 < no then
        if runStatus = 1 then linkageStreamCtrlHandle (k - 1) false s
        else linkageStreamCtrlHandle (k - 1) true s
      else pure s
    else pure s)
  let v ← inverterAt k s
  setInverterAt k (pollStatus buf v) s

/-- `inverter_no - 2` is used only for an inverter with one above it. -/
theorem commRecvPoll_within (buf : Mem) {s : Station} (h : CommInTable s) :
    Within InTable (IotCtrl.commRecvPoll buf s) (commRecvPoll buf s) := by
  have hlink : 1 < s.logic.commNode.inverterNo.toNat → ∀ startFlag,
      Within InTable
        (IotCtrl.linkageStreamCtrlHandle (s.logic.commNode.inverterNo.toNat - 2) startFlag s)
        (linkageStreamCtrlHandle (commIndex s - 1) startFlag s) := by
    intro hone startFlag
    have habove : commIndex s - 1 = ((s.logic.commNode.inverterNo.toNat - 2 : Nat) : Int) := by
      unfold commIndex
      omega
    have hlt := h.lt
    rw [habove]
    exact linkageStreamCtrlHandle_within startFlag (by omega) s
  unfold IotCtrl.commRecvPoll commRecvPoll
  dsimp only
  rw [h.commIndex_eq] at hlink ⊢
  refine (inverterAt_within h.lt s).bind (Within.bind (Within.ite (fun _ => ?_)
    fun _ => Within.pure) ((inverterAt_within h.lt _).bind (setInverterAt_within h.lt _ _)))
  refine Within.ite (fun hone => ?_) fun _ => Within.pure
  exact Within.ite (fun _ => hlink hone false) fun _ => hlink hone true

/-- The tables are used behind the checks of the answer, for a poll only. -/
def commRecvRwComand (buf : Mem) (len : Nat) (s : Station) : Indexing (Bool × Station) := do
  if len < 4 then return (false, s)
  else if getCRC (read buf 0 (len - 2)) ≠ le16 (buf (len - 1)) (buf (len - 2)) then
    return (false, s)
  else if (buf 0).setWidth 16 ≠ s.logic.commNode.inverterNo then return (false, s)
  else if s.logic.commNode.rwFlag = 0 then
    if buf 1 ≠ 0x03 then return (false, s)
    else
      let s ← commRecvPoll buf s
      return (true, s)
  else if buf 1 ≠ 0x10 then return (false, s)
  else return (true, commRecvWrite buf s)

theorem commRecvRwComand_within (buf : Mem) (len : Nat) {s : Station} (h : CommInTable s) :
    Within InTable (IotCtrl.commRecvRwComand buf len s) (commRecvRwComand buf len s) := by
  refine Within.ite (fun _ => Within.pure) fun _ => ?_
  refine Within.ite (fun _ => Within.pure) fun _ => ?_
  refine Within.ite (fun _ => Within.pure) fun _ => ?_
  refine Within.ite (fun _ => ?_) fun _ => ?_
  · exact Within.ite (fun _ => Within.pure) fun _ => (commRecvPoll_within buf h).bind Within.pure
  · exact Within.ite (fun _ => Within.pure) fun _ => Within.pure

/-- Bit 0 of the inverter in flight. -/
def clearCommFault (s : Station) : Indexing Station := do
  let v ← inverterAt (commIndex s) s
  setInverterAt (commIndex s) { v with faultCode := v.faultCode &&& ~~~0x1 } s

def setCommFault (s : Station) : Indexing Station := do
  let v ← inverterAt (commIndex s) s
  setInverterAt (commIndex s) { v with faultCode := v.faultCode ||| 0x1 } s

theorem clearCommFault_within {s : Station} (h : CommInTable s) :
    Within InTable (IotCtrl.clearCommFault s) (clearCommFault s) := by
  unfold clearCommFault
  rw [h.commIndex_eq]
  exact (inverterAt_within h.lt s).bind (setInverterAt_within h.lt _ s)

theorem setCommFault_within {s : Station} (h : CommInTable s) :
    Within InTable (IotCtrl.setCommFault s) (setCommFault s) := by
  unfold setCommFault
  rw [h.commIndex_eq]
  exact (inverterAt_within h.lt s).bind (setInverterAt_within h.lt _ s)

/-- A retry uses no table. -/
def commFinish (accepted : Bool) (s : Station) : Indexing Station := do
  if accepted then
    let s ← clearCommFault s
    return setCommBusy false s
  else if s.logic.commNode.commRetry > 0 then
    let s := setCommNode
      { s.logic.commNode with
        commRetry := s.logic.commNode.commRetry - 1
        commInterval := 20 } s
    return setCommuState .sendReady s
  else
    let s ← setCommFault s
    return setCommBusy false s

/-- The fault bit has the index of the command in flight. -/
theorem commFinish_within (accepted : Bool) {s : Station} (h : CommInTable s) :
    Within InTable (IotCtrl.commFinish accepted s) (commFinish accepted s) := by
  refine Within.ite (fun _ => (clearCommFault_within h).bind Within.pure) fun _ => ?_
  exact Within.ite (fun _ => Within.pure) fun _ => (setCommFault_within h).bind Within.pure

/-- First the answer is taken in, then the command in flight is finished. -/
def commJudge (s : Station) : Indexing Station := do
  let r ← commRecvRwComand s.modbus.uart1RecvBuff s.modbus.uart1RecvCount s
  let s ← commFinish r.1 r.2
  return setRecvCount 0 s

/-- The answer of an inverter does not change which one was asked. -/
theorem commJudge_within {s : Station} (hbusy : s.logic.commBusyFlag = true)
    (h : CommInTable s) : Within InTable (IotCtrl.commJudge s) (commJudge s) := by
  have hrecv := commRecvRwComand_quiet s.modbus.uart1RecvBuff s.modbus.uart1RecvCount hbusy
  have hnode : (IotCtrl.commRecvRwComand s.modbus.uart1RecvBuff s.modbus.uart1RecvCount
      s).2.logic.commNode = s.logic.commNode :=
    congrArg Prod.fst (hrecv.keeps.same .node (by decide))
  refine (commRecvRwComand_within _ _ h).bind ((commFinish_within _ ?_).bind Within.pure)
  unfold CommInTable at h ⊢
  rwa [hnode]

/-- Nothing is used while there is no command in flight. -/
def modbusRtuCommProcess (stack : Table 4 U16) (s : Station) : Indexing Station :=
  if s.logic.commBusyFlag = false then pure (commTakeNode s)
  else if s.modbus.uart1CommuState = .sendData then commSendRwComand stack s
  else if s.modbus.uart1CommuState = .recvDataEnd then commJudge s
  else pure s

/-- The bounds are needed only of a command in flight. -/
theorem modbusRtuCommProcess_within (stack : Table 4 U16) {s : Station}
    (h : s.logic.commBusyFlag = true → CommInTable s) :
    Within InTable (IotCtrl.modbusRtuCommProcess stack s) (modbusRtuCommProcess stack s) := by
  refine Within.ite (fun _ => Within.pure) fun hbusy => ?_
  have hbusy : s.logic.commBusyFlag = true := Bool.eq_true_of_not_eq_false hbusy
  refine Within.ite (fun _ => commSendRwComand_within stack (h hbusy)) fun _ => ?_
  exact Within.ite (fun _ => commJudge_within hbusy (h hbusy)) fun _ => Within.pure

/-! ## The inputs and the main loop: `logic_ctrl.c` and `main.c` -/

/-- The reset button. -/
def scanReset (pins : Pins) (s : Station) : Indexing Station :=
  let (confirmed, b) := confirmInput (fun _ => 50) pins.bResetIn s.logic.bResetInfo
  let s := setResetInfo b s
  if confirmed then resetCtrlHandle s else pure s

theorem scanReset_within (pins : Pins) (s : Station) :
    Within InTable (IotCtrl.scanReset pins s) (scanReset pins s) :=
  Within.ite (fun _ => resetCtrlHandle_within _) fun _ => Within.pure

/-- One photo sensor. -/
def scanPhoto (pins : Pins) (s : Station) (k : Nat) : Indexing Station := do
  let (confirmed, b) := confirmInput (fun _ => 50) (pins.bPhotoIn.get k)
    (countTrig (s.logic.bPhotoInfo.get k))
  let s := setPhotoInfo k b s
  let s ← (if confirmed then linkageStopPhotoCtrlHandle k s else pure s)
  if 300 < b.trigCnt then
    let s := setPhotoInfo k { b with trigCnt := 0 } s
    if b.inputState then linkageStopPhotoCtrlHandle k s else return s
  else return s

/-- The sensor passes its own number on. -/
theorem scanPhoto_within (pins : Pins) (s : Station) {k : Nat} (hk : k < 5) :
    Within InTable (IotCtrl.scanPhoto pins s k) (scanPhoto pins s k) := by
  refine (Within.ite (fun _ => linkageStopPhotoCtrlHandle_within hk _)
    fun _ => Within.pure).bind ?_
  refine Within.ite (fun _ => ?_) fun _ => Within.pure
  exact Within.ite (fun _ => linkageStopPhotoCtrlHandle_within hk _) fun _ => Within.pure

/-- A button of the host. -/
def buttonCommand (speedGear : U8) (s : Station) : Indexing Station := do
  if s.isHost then
    let s ← speedCtrlProcess speedGear s
    return canBusSendStartCmd speedGear s
  else return s

theorem buttonCommand_within (speedGear : U8) (s : Station) :
    Within InTable (IotCtrl.buttonCommand speedGear s) (buttonCommand speedGear s) :=
  Within.ite (fun _ => (speedCtrlProcess_within speedGear s).bind Within.pure)
    fun _ => Within.pure

/-- The start button. -/
def scanStart (pins : Pins) (s : Station) : Indexing Station :=
  let (confirmed, b) := confirmInput (fun _ => 100) pins.bStartIn s.logic.bStartInfo
  let s := setStartInfo b s
  if confirmed = true ∧ b.inputState = true then buttonCommand 2 s else pure s

theorem scanStart_within (pins : Pins) (s : Station) :
    Within InTable (IotCtrl.scanStart pins s) (scanStart pins s) :=
  Within.ite (fun _ => buttonCommand_within 2 _) fun _ => Within.pure

/-- The stop button. -/
def scanStop (pins : Pins) (s : Station) : Indexing Station :=
  let (confirmed, b) := confirmInput (fun _ => 100) pins.bStopIn s.logic.bStopInfo
  let s := setStopInfo b s
  if confirmed = true ∧ b.inputState = true then buttonCommand 0 s else pure s

theorem scanStop_within (pins : Pins) (s : Station) :
    Within InTable (IotCtrl.scanStop pins s) (scanStop pins s) :=
  Within.ite (fun _ => buttonCommand_within 0 _) fun _ => Within.pure

/-- Without belts the index is 255. -/
def streamExtraSignalLast (s : Station) : Indexing Station :=
  linkageStreamExtraSignal (lo (s.logic.userParasLocal.beltNumber - 1)).toNat true s

/-- With a belt the unsigned byte is the index of the last one. -/
theorem streamExtraSignalLast_within (s : Station) :
    Within InTable (IotCtrl.streamExtraSignalLast s) (streamExtraSignalLast s) := by
  refine linkageStreamExtraSignal_within true fun hne => ?_
  have hle := s.beltNumber_le
  unfold Station.beltNumber at hne hle
  unfold lo
  bv_omega

/-- The stream input. -/
def scanStream (pins : Pins) (s : Station) : Indexing Station := do
  let (confirmed, b) := confirmInput (fun level => if level then 20 else 200) pins.bStreamIn
    (countTrig s.logic.bStreamInfo)
  let s := setStreamInfo b s
  let s ← (if confirmed = true ∧ b.inputState = true then streamExtraSignalLast s else pure s)
  if 2000 < b.trigCnt then
    let s := setStreamInfo { b with trigCnt := 0 } s
    if b.inputState then streamExtraSignalLast s else return s
  else return s

theorem scanStream_within (pins : Pins) (s : Station) :
    Within InTable (IotCtrl.scanStream pins s) (scanStream pins s) := by
  refine (Within.ite (fun _ => streamExtraSignalLast_within _) fun _ => Within.pure).bind ?_
  refine Within.ite (fun _ => ?_) fun _ => Within.pure
  exact Within.ite (fun _ => streamExtraSignalLast_within _) fun _ => Within.pure

/-- The emergency input. -/
def scanEmergency (pins : Pins) (s : Station) : Indexing Station := do
  let (confirmed, b) := confirmInput (fun _ => 50) pins.bEmergencyIn
    (countTrig s.logic.bEmergencyInfo)
  let s := setEmergencyInfo b s
  let s ← (if confirmed then speedCtrlProcess EMERGENCY_STOP s else pure s)
  if 2000 < b.trigCnt then
    let s := setEmergencyInfo { b with trigCnt := 0 } s
    if b.inputState then speedCtrlProcess EMERGENCY_STOP s else return s
  else return s

/-- An emergency stop reads no delay. -/
theorem scanEmergency_within (pins : Pins) (s : Station) :
    Within InTable (IotCtrl.scanEmergency pins s) (scanEmergency pins s) := by
  refine (Within.ite (fun _ => speedCtrlProcess_within _ _) fun _ => Within.pure).bind ?_
  refine Within.ite (fun _ => ?_) fun _ => Within.pure
  exact Within.ite (fun _ => speedCtrlProcess_within _ _) fun _ => Within.pure

/-- All inputs in the order of the source. -/
def inputScanProc (pins : Pins) (s : Station) : Indexing Station := do
  let s ← scanReset pins s
  let s ← (List.range 5).foldlM (scanPhoto pins) s
  let s ← scanStart pins s
  let s ← scanStop pins s
  let s ← scanStream pins s
  scanEmergency pins s

/-- The loop over the photo sensors ends at five. -/
theorem inputScanProc_within (pins : Pins) (s : Station) :
    Within InTable (IotCtrl.inputScanProc pins s) (inputScanProc pins s) := by
  refine (scanReset_within pins s).bind ?_
  refine (Within.foldlM _ _ fun t k hk => scanPhoto_within pins t (List.mem_range.mp hk)).bind ?_
  refine (scanStart_within pins _).bind ((scanStop_within pins _).bind ?_)
  exact (scanStream_within pins _).bind (scanEmergency_within pins _)

/-- The counters of a tick use no table. -/
def timeUpdate (pins : Pins) (s : Station) : Indexing Station :=
  inputScanProc pins (uartRecvTimeout (timeCounters s))

theorem timeUpdate_within (pins : Pins) (s : Station) :
    Within InTable (IotCtrl.timeUpdate pins s) (timeUpdate pins s) := by
  unfold IotCtrl.timeUpdate timeUpdate
  exact inputScanProc_within pins _

/-- The jam check once a second. -/
def secHandle (pins : Pins) (s : Station) : Indexing Station :=
  if s.main.secFlag then
    let s := { s with main.secFlag := false }
    let s : Station :=
      if s.main.heartDely ≠ 0 then { s with main.heartDely := s.main.heartDely - 1 } else s
    blockCheckCtrlHandle pins s
  else pure s

theorem secHandle_within (pins : Pins) (s : Station) :
    Within InTable (IotCtrl.secHandle pins s) (secHandle pins s) :=
  Within.ite (fun _ => blockCheckCtrlHandle_within pins _) fun _ => Within.pure

/-- The records of the belts of the station, copied element by element. -/
def inverterRecords (s : Station) : Indexing (List InverterStatus) :=
  (List.range s.beltNumber).mapM' fun (i : Nat) => inverterAt i s

theorem inverterRecords_within (s : Station) :
    Within InTable ((List.range s.beltNumber).map s.inverter) (inverterRecords s) := by
  unfold inverterRecords
  exact Within.mapM' _ fun _ hi => inverterAt_within (lt_ten hi) s

/-- The own status for the upload. -/
def ownModuleStatus (s : Station) : Indexing ModuleStatus := do
  let records ← inverterRecords s
  return { stationNo := 1
           beltNumber := s.logic.userParasLocal.beltNumber
           inverterStatus := records }

theorem ownModuleStatus_within (s : Station) :
    Within InTable (IotCtrl.ownModuleStatus s) (ownModuleStatus s) :=
  (inverterRecords_within s).bind Within.pure

/-- The host copies its records twice a second. -/
def halfSecHandle (s : Station) : Indexing Station := do
  if s.main.halfSecFlag then
    let s := clearHalfSecFlag s
    if s.isHost then
      let m ← ownModuleStatus s
      return readNextModuleStatus (addModuleStatusData2Queue m s)
    else return s
  else return s

theorem halfSecHandle_within (s : Station) :
    Within InTable (IotCtrl.halfSecHandle s) (halfSecHandle s) := by
  refine Within.ite (fun _ => ?_) fun _ => Within.pure
  exact Within.ite (fun _ => (ownModuleStatus_within _).bind Within.pure) fun _ => Within.pure

/-- Both halves of `sec_process`. -/
def secProcess (pins : Pins) (s : Station) : Indexing Station := do
  let s ← secHandle pins s
  halfSecHandle s

theorem secProcess_within (pins : Pins) (s : Station) :
    Within InTable (IotCtrl.secProcess pins s) (secProcess pins s) :=
  (secHandle_within pins s).bind (halfSecHandle_within _)

/-- `Belt_Number - 1`, which is below zero without belts. -/
def uploadLastBelt (s : Station) : Indexing Station := do
  let k : Int := s.beltNumber - 1
  if s.logic.gSpeedGearStatus ≠ 0 then
    let b ← beltAt k s
    if bitAt b.funcSelectSwitch 1 ≠ 0 then
      if ← linkDownStatus s then linkageStart k s else return s
    else return s
  else return s

/-- The index of the last belt. -/
theorem lastIndex_eq {s : Station} (h : s.beltNumber ≠ 0) :
    (s.beltNumber : Int) - 1 = ((s.beltNumber - 1 : Nat) : Int) := by
  omega

/-- The last belt has an element. -/
theorem lastIndex_lt (s : Station) : s.beltNumber - 1 < 10 := by
  have hle := s.beltNumber_le
  omega

/-- The caller has tested that there is a belt. -/
theorem uploadLastBelt_within {s : Station} (h : s.beltNumber ≠ 0) :
    Within InTable (IotCtrl.uploadLastBelt s) (uploadLastBelt s) := by
  unfold IotCtrl.uploadLastBelt uploadLastBelt
  dsimp only
  rw [lastIndex_eq h]
  refine Within.ite (fun _ => ?_) fun _ => Within.pure
  refine (beltAt_within (lastIndex_lt s) s).bind (Within.ite (fun _ => ?_) fun _ => Within.pure)
  refine (linkDownStatus_within s).bind (Within.ite (fun _ => ?_) fun _ => Within.pure)
  exact linkageStart_within (lastIndex_lt s) s

/-- The record of the next belt decides about this one. -/
def uploadMiddleBelt (s : Station) (i : Nat) : Indexing Station := do
  let v ← inverterAt (i + 1 : Nat) s
  if bitAt v.faultCode 4 = 1 then linkageStart i s else return s

/-- The index that counts is that of the next belt. -/
theorem uploadMiddleBelt_within (s : Station) {i : Nat} (hi : i + 1 < 10) :
    Within InTable (IotCtrl.uploadMiddleBelt s i) (uploadMiddleBelt s i) := by
  refine (inverterAt_within hi s).bind (Within.ite (fun _ => ?_) fun _ => Within.pure)
  exact linkageStart_within (Nat.lt_of_succ_lt hi) s

/-- The last belt first, then the others from the last but one up. -/
def mainUploadRunState (s : Station) : Indexing Station := do
  if s.beltNumber = 0 then return s
  else if 800 ≤ s.main.uploadRuncnt then
    let s ← uploadLastBelt (setUploadRuncnt 0 s)
    if s.logic.gSpeedGearStatus ≠ 0 then
      (List.range (s.beltNumber - 1)).reverse.foldlM uploadMiddleBelt s
    else return s
  else return s

/-- The loop ends one before the last belt, so that the next one is a belt. -/
theorem mainUploadRunState_within (s : Station) :
    Within InTable (IotCtrl.mainUploadRunState s) (mainUploadRunState s) := by
  refine Within.ite (fun _ => Within.pure) fun hne => ?_
  refine Within.ite (fun _ => ?_) fun _ => Within.pure
  refine (uploadLastBelt_within (s := setUploadRuncnt 0 s) hne).bind ?_
  refine Within.ite (fun _ => ?_) fun _ => Within.pure
  refine Within.foldlM _ _ fun t i hi => uploadMiddleBelt_within t ?_
  have hlt := List.mem_range.mp (List.mem_reverse.mp hi)
  have hle := (IotCtrl.uploadLastBelt (setUploadRuncnt 0 s)).beltNumber_le
  omega

/-! ## The two links: `can_bus.c`, `fun.c` and `udpclient.c` -/

/-- The records of the belts are copied into the message. -/
def canBusSendModuleStatus (s : Station) : Indexing Station := do
  if s.beltNumber = 0 ∨ 10 < s.beltNumber then return s
  else
    let records ← inverterRecords s
    let body := records.flatMap InverterStatus.bytes
    let canSendLen : U16 := BitVec.ofNat 16 (3 + body.length)
    return canBusSendMsg
      ([lo canSendLen, hi canSendLen, lo s.logic.userParasLocal.beltNumber] ++ body)
      CAN_FUNC_ID_MODULE_STATUS s.main.localStation s

/-- The bytes are those of the records that were read. -/
theorem canBusSendModuleStatus_within (s : Station) :
    Within InTable (IotCtrl.canBusSendModuleStatus s) (canBusSendModuleStatus s) := by
  have hbody : (List.range s.beltNumber).flatMap (fun i => (s.inverter i).bytes) =
      ((List.range s.beltNumber).map s.inverter).flatMap InverterStatus.bytes := by
    rw [List.flatMap_map]
  unfold IotCtrl.canBusSendModuleStatus
  rw [hbody]
  exact Within.ite (fun _ => Within.pure) fun _ => (inverterRecords_within s).bind Within.pure

/-- A branch of a routine that also keeps what it reads of the receive buffer. -/
theorem within_ite_val {c : Prop} [Decidable c] {α : Type} {t u : Traced α} {t' u' : Indexing α}
    (ht : c → Within InTable t.val t') (hu : ¬ c → Within InTable u.val u') :
    Within InTable (if c then t else u).val (if c then t' else u') := by
  rw [apply_ite Traced.val]
  exact Within.ite ht hu

/-- Only a parameter write uses the tables, when it reads the parameters back. -/
def paraDataRecvProcess (pbuf : Mem) (recvLen : Nat) (s : Station) : Indexing Station := do
  let block := UserParas.ofBytes pbuf 3
  if (canDataLen (pbuf 0) (pbuf 1)).toNat ≠ recvLen then return s
  else if pbuf 2 = 0x1 then
    return canBusReplyReadUserParas s.logic.userParasLocal.toUserParas s
  else if pbuf 2 = 0x91 then return paraReply REPLY_RECV_MSG_READ_PARA_CMD_TYPE block s
  else if pbuf 2 = 0x2 then
    let s ← readUserParas (writeUserParas (fun i => wordAt pbuf (9 + 2 * i)) s)
    return canBusReplyWriteUserParas s.logic.userParasLocal.toUserParas s
  else if pbuf 2 = 0x92 then return paraReply REPLY_RECV_MSG_WRITE_PARA_CMD_TYPE block s
  else return s

/-- The stop speeds are set for the belts of the new parameters. -/
theorem paraDataRecvProcess_within (pbuf : Mem) (recvLen : Nat) (s : Station) :
    Within InTable (IotCtrl.paraDataRecvProcess pbuf recvLen s).val
      (paraDataRecvProcess pbuf recvLen s) := by
  unfold IotCtrl.paraDataRecvProcess paraDataRecvProcess
  simp only [Traced.val_bind, readByte]
  refine within_ite_val (fun _ => Within.pure) fun _ => ?_
  refine within_ite_val (fun _ => Within.pure) fun _ => ?_
  refine within_ite_val (fun _ => Within.pure) fun _ => ?_
  refine within_ite_val (fun _ => (readUserParas_within _).bind Within.pure) fun _ => ?_
  exact within_ite_val (fun _ => Within.pure) fun _ => Within.pure

/-- The last belt follows an edge of the station behind the line. -/
def downStreamUpdate (running : Bool) (s : Station) : Indexing Station := do
  let s ← (if s.beltNumber ≠ 0 then
      if s.logic.gLinkDownStreamStatus ≠ running then
        if s.logic.gLinkDownStreamStatus = true then
          linkageStreamCtrlHandle ((s.beltNumber : Int) - 1) false s
        else linkageStreamCtrlHandle ((s.beltNumber : Int) - 1) true s
      else pure s
    else pure s)
  return { s with logic.gLinkDownStreamStatus := running }

/-- The index is used only on a station with a belt. -/
theorem downStreamUpdate_within (running : Bool) (s : Station) :
    Within InTable (IotCtrl.downStreamUpdate running s) (downStreamUpdate running s) := by
  refine Within.bind (Within.ite (fun hne => ?_) fun _ => Within.pure) Within.pure
  have hlink : ∀ startFlag,
      Within InTable (IotCtrl.linkageStreamCtrlHandle (s.beltNumber - 1) startFlag s)
        (linkageStreamCtrlHandle ((s.beltNumber : Int) - 1) startFlag s) := by
    intro startFlag
    rw [lastIndex_eq hne]
    exact linkageStreamCtrlHandle_within startFlag (lastIndex_lt s) s
  refine Within.ite (fun _ => ?_) fun _ => Within.pure
  exact Within.ite (fun _ => hlink false) fun _ => hlink true

/-- The records of the other station stay in a local variable, which is none of the four tables. -/
def moduleStatusRecvProcess (pbuf : Mem) (recvLen : Nat) (srcId : U8) (s : Station) :
    Indexing Station := do
  if (canDataLen (pbuf 0) (pbuf 1)).toNat ≠ recvLen ∨ pbuf 2 = 0 then return s
  else
    let n := (pbuf 2).toNat
    let records := moduleRecords pbuf n
    let s := keepModuleStatus
      { stationNo := srcId.setWidth 16
        beltNumber := (pbuf 2).setWidth 16
        inverterStatus := records } s
    if srcId.setWidth 16 = s.logic.userParasLocal.upStreamNo then
      return upStreamUpdate (bitAt (records.getD (n - 1) default).faultCode 4 ≠ 0) s
    else if srcId.setWidth 16 = s.logic.userParasLocal.downStreamNo then
      downStreamUpdate (bitAt (records.getD 0 default).faultCode 4 ≠ 0) s
    else return s

/-- A report uses the tables if it comes from downstream. -/
theorem moduleStatusRecvProcess_within (pbuf : Mem) (recvLen : Nat) (srcId : U8) (s : Station) :
    Within InTable (IotCtrl.moduleStatusRecvProcess pbuf recvLen srcId s).val
      (moduleStatusRecvProcess pbuf recvLen srcId s) := by
  unfold IotCtrl.moduleStatusRecvProcess moduleStatusRecvProcess
  simp only [Traced.val_bind, readByte]
  refine within_ite_val (fun _ => Within.pure) fun _ => ?_
  simp only [Traced.val_bind, readBlock]
  refine within_ite_val (fun _ => Within.pure) fun _ => ?_
  exact within_ite_val (fun _ => downStreamUpdate_within _ _) fun _ => Within.pure

/-- The branches of the dispatch. -/
def canDispatch (funcId srcId : U8) (s : Station) : Indexing Station := do
  let pbuf := s.can.recv.canRecvBuff
  let recvLen := s.can.recv.canRecvLen
  if funcId = CAN_FUNC_ID_PARA_DATA ∧ (srcId = s.main.localStation ∨ s.isHost = true) then
    paraDataRecvProcess pbuf recvLen s
  else if funcId = CAN_FUNC_ID_START_CMD then speedCtrlProcess (pbuf 0) s
  else if funcId = CAN_FUNC_ID_MODULE_STATUS then moduleStatusRecvProcess pbuf recvLen srcId s
  else if funcId = CAN_FUNC_ID_RESET_CMD then resetCtrlHandle s
  else if funcId = CAN_FUNC_ID_FUNC_SELECT_CMD then return setBlockDisable (pbuf 0) s
  else if funcId = CAN_FUNC_ID_READ_MODULE_STATUS
      ∧ (srcId = s.main.localStation ∧ s.isHost ≠ true) then
    canBusSendModuleStatus s
  else return s

/-- The command in flight plays no part in a message. -/
theorem canDispatch_within (funcId srcId : U8) (s : Station) :
    Within InTable (IotCtrl.canDispatch funcId srcId s).val (canDispatch funcId srcId s) := by
  unfold IotCtrl.canDispatch canDispatch
  refine within_ite_val (fun _ => paraDataRecvProcess_within _ _ s) fun _ => ?_
  refine within_ite_val (fun _ => speedCtrlProcess_within _ s) fun _ => ?_
  refine within_ite_val (fun _ => moduleStatusRecvProcess_within _ _ srcId s) fun _ => ?_
  refine within_ite_val (fun _ => resetCtrlHandle_within s) fun _ => ?_
  refine within_ite_val (fun _ => Within.pure) fun _ => ?_
  exact within_ite_val (fun _ => canBusSendModuleStatus_within s) fun _ => Within.pure

/-- Reassembly uses no table. -/
def canBusFrameReceive (rxMsg : CanRxMsg) (s : Station) : Indexing Station :=
  let id := canDecodeId rxMsg.extId
  if id.funcId = CAN_FUNC_ID_BOOT_MODE ∧ id.dstId = s.main.localStation then
    pure (enterBootMode s)
  else
    let (r, finished) := canReassemble id rxMsg.data s.can.recv
    let s := setCanRecv r s
    if finished = true then
      canDispatch id.funcId id.srcId (s.log (.canDone id.funcId id.srcId r.payload))
    else pure s

theorem canBusFrameReceive_within (rxMsg : CanRxMsg) (s : Station) :
    Within InTable (IotCtrl.canBusFrameReceive rxMsg s) (canBusFrameReceive rxMsg s) := by
  refine Within.ite (fun _ => Within.pure) fun _ => ?_
  exact Within.ite (fun _ => canDispatch_within _ _ _) fun _ => Within.pure

/-- Parameters for this station are stored and read back. -/
def recvWritePara (point : Mem) (s : Station) : Indexing Station := do
  let s := setParasTemp (UserParas.ofBytes point 11) s
  if s.logic.userParasTemp.stationNo = s.main.localStation.setWidth 16 then
    let s ← readUserParas (writeUserParas (fun i => wordAt point (17 + 2 * i)) s)
    return paraReply REPLY_RECV_MSG_WRITE_PARA_CMD_TYPE s.logic.userParasLocal.toUserParas s
  else return canBusSendWriteUserParas s.logic.userParasTemp s

theorem recvWritePara_within (point : Mem) (s : Station) :
    Within InTable (IotCtrl.recvWritePara point s) (recvWritePara point s) :=
  Within.ite (fun _ => (readUserParas_within _).bind Within.pure) fun _ => Within.pure

/-- Line commands, resets and parameter writes of the server. -/
def recvMsgProcess (point : Mem) (s : Station) : Indexing Station := do
  if msgType point = RECV_MSG_BOOT_CMD_TYPE then return enterBootMode s
  else if msgType point = RECV_MSG_READ_PARA_CMD_TYPE then
    if point 11 = s.main.localStation then
      return paraReply REPLY_RECV_MSG_READ_PARA_CMD_TYPE s.logic.userParasLocal.toUserParas s
    else return canBusSendReadUserParas (point 11) s
  else if msgType point = RECV_MSG_WRITE_PARA_CMD_TYPE then recvWritePara point s
  else if msgType point = RECV_MSG_START_CMD_TYPE then
    let s ← speedCtrlProcess (point 11) s
    return canBusSendStartCmd (point 11) s
  else if msgType point = RECV_MSG_RESET_CMD_TYPE then
    let s ← resetCtrlHandle s
    return canBusSendResetCmd s
  else if msgType point = RECV_MSG_FUNC_SELECT_CMD_TYPE then
    return canBusSendFuncSelectCmd (point 11) (setBlockDisable (point 11) s)
  else return s

theorem recvMsgProcess_within (point : Mem) (s : Station) :
    Within InTable (IotCtrl.recvMsgProcess point s) (recvMsgProcess point s) := by
  refine Within.ite (fun _ => Within.pure) fun _ => ?_
  refine Within.ite (fun _ => Within.ite (fun _ => Within.pure) fun _ => Within.pure) fun _ => ?_
  refine Within.ite (fun _ => recvWritePara_within point s) fun _ => ?_
  refine Within.ite (fun _ => (speedCtrlProcess_within _ s).bind Within.pure) fun _ => ?_
  refine Within.ite (fun _ => (resetCtrlHandle_within s).bind Within.pure) fun _ => ?_
  exact Within.ite (fun _ => Within.pure) fun _ => Within.pure

/-- A datagram is handled if it passes the checks. -/
def recvMessageFromServer (point : Mem) (len : Nat) (s : Station) : Indexing Station :=
  if recvMsgCheck point len = false then pure s else recvMsgProcess point s

theorem recvMessageFromServer_within (point : Mem) (len : Nat) (s : Station) :
    Within InTable (IotCtrl.recvMessageFromServer point len s)
      (recvMessageFromServer point len s) :=
  Within.ite (fun _ => Within.pure) fun _ => recvMsgProcess_within point s

/-- The half that sends uses no table. -/
def udpClientProcess (env : UdpEnv) (s : Station) : Indexing Station := do
  if s.msg.tcpClientStatue = .connectRecv then
    let s ← recvMessageFromServer s.msg.tcpRecvBuf s.msg.tcpRecvLen.toNat s
    if s.systemReset then return s
    else
      let s := { s with msg.tcpRecvLen := 0, msg.tcpClientStatue := .connectOk }
      return udpConnectProcess env s
  else return udpConnectProcess env s

theorem udpClientProcess_within (env : UdpEnv) (s : Station) :
    Within InTable (IotCtrl.udpClientProcess env s) (udpClientProcess env s) := by
  refine Within.ite (fun _ => ?_) fun _ => Within.pure
  refine (recvMessageFromServer_within _ _ s).bind ?_
  exact Within.ite (fun _ => Within.pure) fun _ => Within.pure

/-! ## Steps -/

/-- What an input runs. -/
def handle (s : Station) : Input → Indexing Station
  | .timeUpdate pins => timeUpdate pins s
  | .usart1Irq tmp => pure (usart1IrqHandler tmp s)
  | .canFrame rxMsg => canBusFrameReceive rxMsg s
  | .udpReceive p m => pure (if s.isHost then udpReceiveCallback p m s else s)
  | .udpClient env => if s.isHost then udpClientProcess env s else pure s
  | .sendMessage => pure (if s.isHost then sendMessageToServer s else s)
  | .secProcess pins => secProcess pins s
  | .modbusComm stack => modbusRtuCommProcess stack s
  | .canSend mailboxFree => pure (canSendFrameProcess mailboxFree s).1
  | .resetStart => resetStartInverterHandle s
  | .upstreamIo => logicUpstreamIoAllowOutput s
  | .uploadRunState => mainUploadRunState s
  | .msoneProcess speedGear => pure (mainMsoneProcess speedGear s)

/-- Only the Modbus master asks for the bounds of the command in flight. -/
theorem handle_within {s : Station} (h : s.logic.commBusyFlag = true → CommInTable s)
    (i : Input) : Within InTable (IotCtrl.handle s i) (handle s i) := by
  cases i with
  | timeUpdate pins => exact timeUpdate_within pins s
  | canFrame rxMsg => exact canBusFrameReceive_within rxMsg s
  | udpClient env =>
      exact Within.ite (fun _ => udpClientProcess_within env s) fun _ => Within.pure
  | secProcess pins => exact secProcess_within pins s
  | modbusComm stack => exact modbusRtuCommProcess_within stack h
  | resetStart => exact resetStartInverterHandle_within s
  | upstreamIo => exact logicUpstreamIoAllowOutput_within s
  | uploadRunState => exact mainUploadRunState_within s
  | _ => exact Within.pure

/-- A step of the controller with the table elements it used. -/
def step (s : Station) (i : Input) : Indexing Station :=
  if s.systemReset then pure s else handle s i

/-- The command in flight bounds the indices of the Modbus master. -/
theorem step_within {s : Station} (h : RangeInv s) (i : Input) :
    Within InTable (IotCtrl.step s i) (step s i) := by
  refine Within.ite (fun _ => Within.pure) fun _ => handle_within (fun hbusy => ?_) i
  refine (h.flight s.logic.commNode ?_).inverterNo
  rw [Station.inFlight, if_pos hbusy]
  rfl

/-- Power-up with the table elements it used. -/
def boot (flash : Flash) (localStation : U8) : Indexing Station :=
  readUserParas (Station.cleared flash localStation)

end Indexing

/-! ## Every run -/

/-- **Queued commands and table indices are in range** in every reachable state, for every
input that comes next, and at power-up. -/
theorem commands_and_indices_in_range {s : Station} (h : Reachable (fun _ _ => True) s) :
    (∀ x ∈ s.uartNodes, x.InRange) ∧ (∀ x ∈ s.inFlight, x.InRange) ∧ s.beltNumber ≤ 10 ∧
      (∀ i, (Indexing.step s i).val = step s i ∧
        ∀ a ∈ (Indexing.step s i).log, 0 ≤ a.index ∧ a.index < 10) ∧
      ∀ flash localStation,
        (Indexing.boot flash localStation).val = boot flash localStation ∧
          ∀ a ∈ (Indexing.boot flash localStation).log, 0 ≤ a.index ∧ a.index < 10 := by
  have hinv := reachable_rangeInv h
  refine ⟨hinv.queue, hinv.flight, s.beltNumber_le, fun i => ?_, fun flash localStation => ?_⟩
  · have hstep := Indexing.step_within hinv i
    exact ⟨hstep.val, hstep.log⟩
  · have hboot := Indexing.readUserParas_within (Station.cleared flash localStation)
    exact ⟨hboot.val, hboot.log⟩

/-- Slave 2 with three belts, started at gear 2: the write for the last belt was taken and
has waited. -/
def lastBeltTurn : Station :=
  run step (boot (beltFlash 3) 2) (.canFrame (startFrame 2) :: (.modbusComm fun _ => 0) ::
    List.replicate 15 (.timeUpdate noInput))

/-- The next call of the Modbus master sends the write for inverter 3. -/
theorem third_belt_in_range :
    (lastBeltTurn.uartNodes.length, lastBeltTurn.inFlight.isSome) = (2, true) ∧
      (Indexing.step lastBeltTurn (.modbusComm fun _ => 0)).log =
        [⟨.beltPara, 2⟩, ⟨.stopspeedDefault, 2⟩] ∧
      (∀ x ∈ lastBeltTurn.uartNodes, x.InRange) ∧ (∀ x ∈ lastBeltTurn.inFlight, x.InRange) ∧
      ∀ i, (Indexing.step lastBeltTurn i).val = step lastBeltTurn i ∧
        ∀ a ∈ (Indexing.step lastBeltTurn i).log, 0 ≤ a.index ∧ a.index < 10 := by
  have hreach : Reachable (fun _ _ => True) lastBeltTurn :=
    reach_run ⟨_, _, rfl⟩ (Along.of_forall (fun _ _ => trivial) _ _)
  have hturn : (lastBeltTurn.uartNodes.length, lastBeltTurn.inFlight.isSome) = (2, true) ∧
      (Indexing.step lastBeltTurn (.modbusComm fun _ => 0)).log =
        [⟨.beltPara, 2⟩, ⟨.stopspeedDefault, 2⟩] := by
    decide +kernel
  obtain ⟨hqueue, hflight, -, hindices, -⟩ := commands_and_indices_in_range hreach
  exact ⟨hturn.1, hturn.2, hqueue, hflight, hindices⟩

end IotCtrl
