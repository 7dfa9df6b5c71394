import IotCtrl.Logic
import IotCtrl.Crc

/-!
# The Modbus master: `modbus_rtu.c` and the USART interrupt

One command at a time travels from the UART queue through `comm_node`: it waits
out its interval (`sendReady`), is transmitted (`sendData`), its answer is
collected (`recvData`) until the line is quiet (`recvDataEnd`), and it is
released or sent again.

Locals that the C code leaves unassigned on some path are parameters here: the
array `write_data` of `comm_send_rw_comand` is `stack`.
-/

namespace IotCtrl

open ByteMemory

/-- The 1 ms tick of the two communication timers. -/
def uartRecvTimeout (s : Station) : Station :=
  let s :=
    if s.modbus.uart1Tmr ≠ 0 then
      let s := { s with modbus.uart1Tmr := s.modbus.uart1Tmr - 1 }
      if s.modbus.uart1Tmr = 0 then { s with modbus.uart1CommuState := .recvDataEnd } else s
    else s
  if s.logic.commNode.commInterval ≠ 0 then
    let s := { s with logic.commNode.commInterval := s.logic.commNode.commInterval - 1 }
    if s.logic.commNode.commInterval = 0 then { s with modbus.uart1CommuState := .sendData } else s
  else s

/-- `USART1_IRQHandler`: the byte is stored before the bound is looked at. -/
def usart1IrqHandler (tmp : U8) (s : Station) : Station :=
  if s.modbus.uart1CommuState = .recvData then
    let s := { s with modbus.uart1Tmr := 5 }
    let buff := write s.modbus.uart1RecvBuff s.modbus.uart1RecvCount [tmp]
    let s := { s with modbus.uart1RecvBuff := buff }
    if s.modbus.uart1RecvCount < 50 then
      { s with modbus.uart1RecvCount := s.modbus.uart1RecvCount + 1 }
    else s
  else s

/-- Transmit the frame in the send buffer and open the receive window. -/
def uart1Send (frame : List U8) (s : Station) : Station :=
  let s := s.log (.modbusTx frame)
  let s := { s with modbus.uart1CommuState := .recvData }
  let s := { s with modbus.uart1RecvCount := 0 }
  { s with modbus.uart1Tmr := 50 }

/-- Append the checksum the way the senders do, high byte first. -/
def withCrc (bytes : List U8) : List U8 :=
  bytes ++ [hi (getCRC bytes), lo (getCRC bytes)]

/-- The frame `Modbus_RTU_Write_Multi_Reg_Cmd` leaves in the send buffer. -/
def writeMultiRegFrame (stationNo regAddr : U16) (data : List U16) : List U8 :=
  let regNum : U16 := BitVec.ofNat 16 data.length
  withCrc ([lo stationNo, 0x10, hi regAddr, lo regAddr, hi regNum, lo regNum, lo (regNum * 2)]
    ++ data.flatMap fun d => [hi d, lo d])

/-- The frame `Modbus_RTU_Read_Reg_Cmd` leaves in the send buffer. -/
def readRegFrame (stationNo regAddr regNum : U16) : List U8 :=
  withCrc [lo stationNo, 0x03, hi regAddr, lo regAddr, hi regNum, lo regNum]

/-! ## Sending a command -/

/-- The frequency of gear 1 to 6 in a belt's parameters; gear 6 is the sleep
frequency. -/
def gearFreq (b : BeltParas) (gear : U16) : Option U16 :=
  if gear = 1 then some b.gear1SpeedFreq
  else if gear = 2 then some b.gear2SpeedFreq
  else if gear = 3 then some b.gear3SpeedFreq
  else if gear = 4 then some b.gear4SpeedFreq
  else if gear = 5 then some b.gear5SpeedFreq
  else if gear = 6 then some b.sleepModeSpeedFreq
  else none

/-- `write_data[0..2]` with a frequency in register 1 or 2, by the belt's
automatic speed switch. -/
def speedRegs (b : BeltParas) (command freq : U16) : List U16 :=
  if b.funcSelectSwitch &&& 0x1 ≠ 0 then [command, freq, 0] else [command, 0, freq]

/-- The first three registers of a speed write.  There is no branch for a gear
above 6: its registers are what the stack held. -/
def speedWriteData (stack : Table 4 U16) (s : Station) : List U16 :=
  let b := s.belt (s.logic.commNode.inverterNo.toNat - 1)
  let stopFreq := s.modbus.stopspeedDefault.get (s.logic.commNode.inverterNo.toNat - 1)
  if s.logic.bEmergencyInfo.inputState then speedRegs b 5 stopFreq
  else if s.logic.commNode.speedGear = 0 then speedRegs b 5 stopFreq
  else
    match gearFreq b s.logic.commNode.speedGear with
    | some freq => speedRegs b 1 freq
    | none => [stack 0, stack 1, stack 2]

/-- Gears 1 to 5 are remembered as the speed a stop keeps. -/
def rememberStopSpeed (s : Station) : Station :=
  let k := s.logic.commNode.inverterNo.toNat - 1
  if s.logic.bEmergencyInfo.inputState then s
  else if s.logic.commNode.speedGear = 6 then s
  else
    match gearFreq (s.belt k) s.logic.commNode.speedGear with
    | some freq =>
        { s with modbus.stopspeedDefault := s.modbus.stopspeedDefault.set k freq }
    | none => s

/-- The frame of the command in flight, and the station with the stop speed
remembered: everything `comm_send_rw_comand` does before `uart1_send`. -/
def commBuildFrame (stack : Table 4 U16) (s : Station) : Option (List U8 × Station) :=
  let node := s.logic.commNode
  if node.rwFlag = 0 then some (readRegFrame node.inverterNo 0x7200 7, s)
  else if node.rwFlag = 1 then
    let switch := (s.belt (node.inverterNo.toNat - 1)).funcSelectSwitch &&& 0x1
    some (writeMultiRegFrame node.inverterNo 0x7000 (speedWriteData stack s ++ [switch]),
      rememberStopSpeed s)
  else if node.rwFlag = 2 then some (writeMultiRegFrame node.inverterNo 0x7000 [0x8], s)
  else none

/-- What `comm_send_rw_comand` does after `uart1_send` for a speed write.  `belt` is
its copy `belt_para_t` of the belt's parameters and `data` is `write_data[0..2]`. -/
def commSetSpeedSta (belt : BeltParas) (data : List U16) (s : Station) : Station :=
  let node := s.logic.commNode
  if node.rwFlag = 1 then
    if s.logic.bEmergencyInfo.inputState = true ∨ node.speedGear = 0 then
      { s with modbus.gSpeedSetSta := false }
    else if belt.funcSelectSwitch &&& 0x1 ≠ 0 then
      { s with modbus.gSpeedSetSta := data.getD 1 0 != 0 }
    else { s with modbus.gSpeedSetSta := data.getD 2 0 != 0 }
  else s

/-- The parameters of the belt the command in flight is for. -/
def commBelt (s : Station) : BeltParas := s.belt (s.logic.commNode.inverterNo.toNat - 1)

def commSendRwComand (stack : Table 4 U16) (s : Station) : Station :=
  match commBuildFrame stack s with
  | some (frame, s') =>
      commSetSpeedSta (commBelt s) (speedWriteData stack s) (uart1Send frame s')
  | none => s

/-! ## Receiving an answer -/

/-- The recorded state after an accepted poll. -/
def pollStatus (buf : Mem) (old : InverterStatus) : InverterStatus :=
  let data (i : Nat) : U16 := le16 (buf (4 + i * 2)) (buf (3 + i * 2))
  let runStatusNew : U16 := if data 0 &&& 0xFF = 0x1 then 1 else 0
  { faultCode :=
      (old.faultCode &&& 0x2) ||| (data 0 &&& 0xFF00) ||| (runStatusNew <<< 4)
        ||| ((data 1 &&& 0x1) <<< 3) ||| ((data 5 &&& 0x1) <<< 2)
    inputStatus := old.inputStatus ||| (data 6 &&& 0x1F)
    lineSpeed := data 2
    electricCurrent := data 3
    inverterFreq := data 4 }

/-- The read branch of `comm_recv_rw_comand` behind its function code test. -/
def commRecvPoll (buf : Mem) (s : Station) : Station :=
  let no := s.logic.commNode.inverterNo.toNat
  let runStatus := bitAt (s.inverter (no - 1)).faultCode 4
  let runStatusNew : U16 := if le16 (buf 4) (buf 3) &&& 0xFF = 0x1 then 1 else 0
  let s :=
    if runStatus ≠ runStatusNew then
      if 1 < no then
        if runStatus = 1 then linkageStreamCtrlHandle (no - 2) false s
        else linkageStreamCtrlHandle (no - 2) true s
      else s
    else s
  s.setInverter (no - 1) (pollStatus buf (s.inverter (no - 1)))

/-- The write branch of `comm_recv_rw_comand` behind its function code test: run
output `buf[0]` follows the last speed set. -/
def commRecvWrite (buf : Mem) (s : Station) : Station :=
  let no := (buf 0).toNat
  if 1 ≤ no ∧ no ≤ 5 then
    { s with outs.bRunOut := s.outs.bRunOut.set (no - 1) s.modbus.gSpeedSetSta }
  else s

/-- `comm_recv_rw_comand`: whether the answer is accepted, and the station after
it.  Seven registers are read at fixed offsets whatever `len` is. -/
def commRecvRwComand (buf : Mem) (len : Nat) (s : Station) : Bool × Station :=
  if len < 4 then (false, s)
  else if getCRC (read buf 0 (len - 2)) ≠ le16 (buf (len - 1)) (buf (len - 2)) then (false, s)
  else if (buf 0).setWidth 16 ≠ s.logic.commNode.inverterNo then (false, s)
  else if s.logic.commNode.rwFlag = 0 then
    if buf 1 ≠ 0x03 then (false, s) else (true, commRecvPoll buf s)
  else if buf 1 ≠ 0x10 then (false, s)
  else (true, commRecvWrite buf s)

/-! ## The main-loop call -/

/-- Clear or set bit 0, the RS-485 fault, of the inverter in flight. -/
def clearCommFault (s : Station) : Station :=
  let k := s.logic.commNode.inverterNo.toNat - 1
  s.setInverter k { s.inverter k with faultCode := (s.inverter k).faultCode &&& ~~~0x1 }

def setCommFault (s : Station) : Station :=
  let k := s.logic.commNode.inverterNo.toNat - 1
  s.setInverter k { s.inverter k with faultCode := (s.inverter k).faultCode ||| 0x1 }

/-- Assign to `comm_busy_flag`. -/
def setCommBusy (busy : Bool) (s : Station) : Station := { s with logic.commBusyFlag := busy }

/-- Assign to `uart1_commu_state`. -/
def setCommuState (state : CommuState) (s : Station) : Station :=
  { s with modbus.uart1CommuState := state }

/-- Assign to `comm_node`. -/
def setCommNode (node : CommNode) (s : Station) : Station := { s with logic.commNode := node }

/-- Assign to `uart1_recv_count`. -/
def setRecvCount (count : Nat) (s : Station) : Station :=
  { s with modbus.uart1RecvCount := count }

/-- A command without an interval waits 15 ms. -/
def fixInterval (node : CommNode) : CommNode :=
  if node.commInterval = 0 then { node with commInterval := 15 } else node

/-- The branch of `Modbus_RTU_Comm_Process` that takes the next command. -/
def commTakeNode (s : Station) : Station :=
  match getUartSendDataFromQueue s with
  | none => s
  | some (slot, s) =>
      let s := setCommNode (fixInterval (s.logic.uartSendQueue.slot slot)) s
      let s := setCommBusy true s
      setCommuState .sendReady s

/-- Release the command in flight, or send it again. -/
def commFinish (accepted : Bool) (s : Station) : Station :=
  if accepted then setCommBusy false (clearCommFault s)
  else if s.logic.commNode.commRetry > 0 then
    let s := setCommNode
      { s.logic.commNode with
        commRetry := s.logic.commNode.commRetry - 1
        commInterval := 20 } s
    setCommuState .sendReady s
  else setCommBusy false (setCommFault s)

/-- The branch of `Modbus_RTU_Comm_Process` that judges the answer. -/
def commJudge (s : Station) : Station :=
  let r := commRecvRwComand s.modbus.uart1RecvBuff s.modbus.uart1RecvCount s
  setRecvCount 0 (commFinish r.1 r.2)

def modbusRtuCommProcess (stack : Table 4 U16) (s : Station) : Station :=
  if s.logic.commBusyFlag = false then commTakeNode s
  else if s.modbus.uart1CommuState = .sendData then commSendRwComand stack s
  else if s.modbus.uart1CommuState = .recvDataEnd then commJudge s
  else s

end IotCtrl
