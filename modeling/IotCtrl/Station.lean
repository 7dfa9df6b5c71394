import IotCtrl.RingFifo
import IotCtrl.ByteMemory
import IotCtrl.Transition
import Mathlib.Data.Fintype.Basic

/-!
# The data of one station

A station is the controller board of one conveyor section.  Its global variables
are grouped here by the source file that owns them, `logic_ctrl.c`,
`modbus_rtu.c`, `can_bus.c`, `fun.c` with `udpclient.c`, and `main.c`, next to
the output pins and the two flash pages the program writes.

Records that cross a wire or the flash (`UserParas`, `InverterStatus`) come with
their half-word image, in the order of the C structure on a little-endian core.
The parameters in use are a `LocalParas`: the only routine that writes them
replaces a belt count above ten by zero, and the value carries that bound.

`Event` and the field `trace` are the one addition to the program: a history of
what a run did at its interfaces, newest event first.
-/

namespace IotCtrl

open ByteMemory

abbrev U8 := BitVec 8
abbrev U16 := BitVec 16
abbrev U32 := BitVec 32

/-! ## Fixed-length tables -/

/-- A C array of `n` elements. -/
abbrev Table (n : Nat) (α : Type) := Fin n → α

namespace Table

variable {n : Nat} {α : Type}

/-- The element at an index computed by the program. -/
def get [Inhabited α] (t : Table n α) (i : Nat) : α :=
  if h : i < n then t ⟨i, h⟩ else default

/-- Assign to the element at an index computed by the program. -/
def set (t : Table n α) (i : Nat) (x : α) : Table n α := fun k =>
  if k.val = i then x else t k

theorem get_set_self [Inhabited α] (t : Table n α) {i : Nat} (h : i < n) (x : α) :
    (t.set i x).get i = x := by
  simp [get, set, h]

theorem get_set_ne [Inhabited α] (t : Table n α) {i j : Nat} (h : j ≠ i) (x : α) :
    (t.set i x).get j = t.get j := by
  unfold get set
  split_ifs <;> rfl

end Table

/-! ## Parameters -/

/-- `BELT_PARAS_T`: the parameters of one belt. -/
structure BeltParas where
  funcSelectSwitch : U16
  gear1SpeedFreq : U16
  gear2SpeedFreq : U16
  gear3SpeedFreq : U16
  gear4SpeedFreq : U16
  gear5SpeedFreq : U16
  sleepModeSpeedFreq : U16
  startDelayTime : U16
  stopDelayTime : U16
  blockCheckTime : U16
  sleepCheckTime : U16
deriving DecidableEq, Inhabited

/-- The half-words of a belt record in memory order. -/
def BeltParas.word (b : BeltParas) : Nat → U16
  | 0 => b.funcSelectSwitch
  | 1 => b.gear1SpeedFreq
  | 2 => b.gear2SpeedFreq
  | 3 => b.gear3SpeedFreq
  | 4 => b.gear4SpeedFreq
  | 5 => b.gear5SpeedFreq
  | 6 => b.sleepModeSpeedFreq
  | 7 => b.startDelayTime
  | 8 => b.stopDelayTime
  | 9 => b.blockCheckTime
  | 10 => b.sleepCheckTime
  | _ => 0

/-- The belt record stored in a sequence of half-words. -/
def BeltParas.ofWords (w : Nat → U16) : BeltParas :=
  { funcSelectSwitch := w 0
    gear1SpeedFreq := w 1
    gear2SpeedFreq := w 2
    gear3SpeedFreq := w 3
    gear4SpeedFreq := w 4
    gear5SpeedFreq := w 5
    sleepModeSpeedFreq := w 6
    startDelayTime := w 7
    stopDelayTime := w 8
    blockCheckTime := w 9
    sleepCheckTime := w 10 }

@[simp] theorem BeltParas.ofWords_word (b : BeltParas) : ofWords b.word = b := rfl

theorem BeltParas.word_ofWords (w : Nat → U16) {k : Nat} (hk : k < 11) :
    (ofWords w).word k = w k := by
  rcases k with _ | _ | _ | _ | _ | _ | _ | _ | _ | _ | _ | k <;> first | rfl | omega

theorem BeltParas.ofWords_congr {w w' : Nat → U16} (h : ∀ k, k < 11 → w k = w' k) :
    ofWords w = ofWords w' := by
  unfold ofWords
  congr 1 <;> exact h _ (by decide)

/-- `USER_PARAS_T`: the parameter block of a station. -/
structure UserParas where
  versionNoL : U16
  versionNoH : U16
  stationNo : U16
  upStreamNo : U16
  downStreamNo : U16
  beltNumber : U16
  beltPara : Table 10 BeltParas
deriving DecidableEq, Inhabited

namespace UserParas

/-- Half-words of a `UserParas`, and bytes of it: `sizeof(USER_PARAS_T)`. -/
def wordCount : Nat := 116
def byteCount : Nat := 232

/-- The half-words of a parameter block in memory order. -/
def word (p : UserParas) : Nat → U16
  | 0 => p.versionNoL
  | 1 => p.versionNoH
  | 2 => p.stationNo
  | 3 => p.upStreamNo
  | 4 => p.downStreamNo
  | 5 => p.beltNumber
  | k + 6 => (p.beltPara.get (k / 11)).word (k % 11)

/-- The parameter block stored in a sequence of half-words. -/
def ofWords (w : Nat → U16) : UserParas :=
  { versionNoL := w 0
    versionNoH := w 1
    stationNo := w 2
    upStreamNo := w 3
    downStreamNo := w 4
    beltNumber := w 5
    beltPara := fun b => BeltParas.ofWords fun k => w (6 + 11 * b.val + k) }

/-- The byte image of a parameter block. -/
def byte (p : UserParas) : Mem := bytesOf p.word

/-- The parameter block a pointer to byte `off` of a buffer reads. -/
def ofBytes (m : Mem) (off : Nat) : UserParas :=
  ofWords fun k => wordAt m (off + 2 * k)

theorem word_belt (p : UserParas) (b : Fin 10) {k : Nat} (hk : k < 11) :
    p.word (6 + 11 * b.val + k) = (p.beltPara b).word k := by
  have hidx : 6 + 11 * b.val + k = (11 * b.val + k) + 6 := by omega
  have hdiv : (11 * b.val + k) / 11 = b.val := by omega
  have hmod : (11 * b.val + k) % 11 = k := by omega
  rw [hidx, word, hdiv, hmod]
  simp [Table.get]

@[simp] theorem ofWords_word (p : UserParas) : ofWords p.word = p := by
  have hbelt : ∀ b, BeltParas.ofWords (fun k => p.word (6 + 11 * b.val + k)) =
      p.beltPara b := by
    intro b
    rw [← BeltParas.ofWords_word (p.beltPara b)]
    exact BeltParas.ofWords_congr fun k hk => word_belt p b hk
  unfold ofWords
  simp only [hbelt]
  rfl

theorem word_ofWords (w : Nat → U16) {k : Nat} (hk : k < wordCount) :
    (ofWords w).word k = w k := by
  unfold wordCount at hk
  rcases k with _ | _ | _ | _ | _ | _ | k
  case succ.succ.succ.succ.succ.succ =>
    have hb : k / 11 < 10 := by omega
    have hr : k % 11 < 11 := by omega
    have hidx : 6 + 11 * (k / 11) + k % 11 = k + 6 := by omega
    show ((ofWords w).beltPara.get (k / 11)).word (k % 11) = w (k + 6)
    rw [Table.get, dif_pos hb]
    show (BeltParas.ofWords fun j => w (6 + 11 * (k / 11) + j)).word (k % 11) = w (k + 6)
    rw [BeltParas.word_ofWords _ hr, hidx]
  all_goals rfl

/-- Blocks are equal when the half-words of their images are. -/
theorem ext_word {p q : UserParas} (h : ∀ k, k < wordCount → p.word k = q.word k) :
    p = q := by
  rw [← ofWords_word p, ← ofWords_word q]
  unfold ofWords
  congr 1
  all_goals try exact h _ (by decide)
  funext b
  exact BeltParas.ofWords_congr fun k hk => h _ (by unfold wordCount; omega)

/-- The image of a block read from memory is what was read. -/
theorem byte_ofBytes (m : Mem) (off : Nat) {i : Nat} (hi : i < byteCount) :
    (ofBytes m off).byte i = m (off + i) := by
  unfold byteCount at hi
  have hword : (ofBytes m off).word (i / 2) = wordAt m (off + 2 * (i / 2)) :=
    word_ofWords _ (by unfold wordCount; omega)
  unfold byte bytesOf
  rw [hword]
  split_ifs with heven
  · rw [wordAt, lo_le16]
    congr 1
    omega
  · rw [wordAt, hi_le16]
    congr 1
    omega

/-- Reading a block from memory that holds its image. -/
theorem ofBytes_eq {m : Mem} {off : Nat} {p : UserParas}
    (h : ∀ i, i < byteCount → m (off + i) = p.byte i) : ofBytes m off = p := by
  apply ext_word
  intro k hk
  rw [ofBytes, word_ofWords _ hk]
  exact wordAt_bytesOf h hk

theorem ofBytes_congr {m m' : Mem} {off : Nat}
    (h : ∀ i, i < byteCount → m (off + i) = m' (off + i)) :
    ofBytes m off = ofBytes m' off := by
  have hword : ∀ k, k < wordCount → wordAt m (off + 2 * k) = wordAt m' (off + 2 * k) := by
    intro k hk
    unfold wordCount at hk
    apply wordAt_congr
    · exact h (2 * k) (by unfold byteCount; omega)
    · rw [Nat.add_assoc]
      exact h (2 * k + 1) (by unfold byteCount; omega)
  apply ext_word
  intro k hk
  rw [ofBytes, word_ofWords _ hk, ofBytes, word_ofWords _ hk, hword k hk]

end UserParas

/-- The parameters in use.  `read_user_paras` is the only routine that writes
them, and it replaces a belt count above ten by zero. -/
structure LocalParas extends UserParas where
  belt_le : beltNumber.toNat ≤ 10

/-- The parameters of a board whose memory is still cleared. -/
instance : Inhabited LocalParas := ⟨{ (default : UserParas) with belt_le := by decide }⟩

/-! ## Inverters and their command queue -/

/-- `INVERTER_STATUS_T`: the recorded state of one inverter.  `faultCode` holds
the inverter's own fault code in bits 15 to 8, and its bits 4 to 0 are running,
encoder, speed reached, jam and RS-485 fault. -/
structure InverterStatus where
  faultCode : U16
  inputStatus : U16
  lineSpeed : U16
  electricCurrent : U16
  inverterFreq : U16
deriving DecidableEq, Inhabited

/-- The half-words of an inverter record in memory order. -/
def InverterStatus.word (v : InverterStatus) : Nat → U16
  | 0 => v.faultCode
  | 1 => v.inputStatus
  | 2 => v.lineSpeed
  | 3 => v.electricCurrent
  | 4 => v.inverterFreq
  | _ => 0

/-- The inverter record a pointer to byte `off` of a buffer reads. -/
def InverterStatus.ofBytes (m : Mem) (off : Nat) : InverterStatus :=
  { faultCode := wordAt m off
    inputStatus := wordAt m (off + 2)
    lineSpeed := wordAt m (off + 4)
    electricCurrent := wordAt m (off + 6)
    inverterFreq := wordAt m (off + 8) }

/-- The ten bytes of an inverter record. -/
def InverterStatus.bytes (v : InverterStatus) : List U8 := read (bytesOf v.word) 0 10

/-- One bit of a half-word, as the source writes it: `(x >> k) & 0x1`. -/
def bitAt (x : U16) (k : Nat) : U16 := (x >>> k) &&& 1

/-- `MODULE_STATUS_T`, with the initialised elements of its `inverter_status`
array only: a list of `beltNumber` records. -/
structure ModuleStatus where
  stationNo : U16
  beltNumber : U16
  inverterStatus : List InverterStatus
deriving DecidableEq, Inhabited

/-- `COMM_NODE_T`: one command for an inverter.  `rwFlag` is 0 for a poll, 1 for
a speed write and 2 for a fault reset. -/
structure CommNode where
  rwFlag : U16
  inverterNo : U16
  speedGear : U16
  commInterval : U16
  commRetry : U16
deriving DecidableEq, Inhabited

/-- A speed write with a gear other than stop. -/
def CommNode.IsRun (n : CommNode) : Prop := n.rwFlag = 1 ∧ n.speedGear ≠ 0

instance (n : CommNode) : Decidable n.IsRun := inferInstanceAs (Decidable (_ ∧ _))

/-! ## CAN frames -/

/-- The segment position of a CAN frame in its message. -/
inductive SegPolo
  | none
  | first
  | middle
  | final
deriving DecidableEq, Inhabited

/-- The two-bit code of a segment position. -/
def SegPolo.code : SegPolo → U8
  | .none => 0
  | .first => 1
  | .middle => 2
  | .final => 3

/-- The segment position of a two-bit code. -/
def SegPolo.ofCode (c : U8) : SegPolo :=
  if c = 0 then .none else if c = 1 then .first else if c = 2 then .middle else .final

@[simp] theorem SegPolo.ofCode_code (p : SegPolo) : ofCode p.code = p := by
  cases p <;> rfl

def CAN_FUNC_ID_PARA_DATA : U8 := 0x1
def CAN_FUNC_ID_START_CMD : U8 := 0x2
def CAN_FUNC_ID_MODULE_STATUS : U8 := 0x3
def CAN_FUNC_ID_RESET_CMD : U8 := 0x4
def CAN_FUNC_ID_FUNC_SELECT_CMD : U8 := 0x5
def CAN_FUNC_ID_READ_MODULE_STATUS : U8 := 0x6
def CAN_FUNC_ID_BOOT_MODE : U8 := 0xF

/-- The gear code that stands for an emergency stop. -/
def EMERGENCY_STOP : U8 := 0xEE

/-- `sCanFrameExt` as the senders fill it in: `dst_id` is never assigned and never
encoded, and `data` holds the `data_len` bytes that are sent. -/
structure CanFrameExt where
  segPolo : SegPolo
  segNum : U8
  funcId : U8
  srcId : U8
  data : List U8
deriving DecidableEq, Inhabited

/-- An extended data frame on the bus: its 29-bit identifier and its payload of
`DLC` bytes. -/
structure CanRxMsg where
  extId : U32
  data : List U8
deriving DecidableEq, Inhabited

/-- `sCanFrameExtID` as `can_bus_frame_receive` decodes it. -/
structure CanFrameExtID where
  segPolo : SegPolo
  segNum : U8
  funcId : U8
  srcId : U8
  dstId : U8
deriving DecidableEq

/-- The receive side of `can_bus.c`: one buffer, one segment counter and one byte
count for all senders. -/
structure CanRecv where
  canRecvBuff : Mem
  canRecvLen : Nat
  gSegPolo : SegPolo
  gSegNum : Nat
  gSegBytes : Nat

/-! ## Observable history -/

/-- What a run did at its interfaces. -/
inductive Event
  /-- `Speed_Ctrl_Process(gear)` ran while `inFlight` was the command taken from
  the queue and not yet finished. -/
  | speedCall (gear : U8) (inFlight : Option CommNode)
  /-- A frame was put on the RS-485 bus. -/
  | modbusTx (frame : List U8)
  /-- The reassembly of a CAN message completed and it is dispatched. -/
  | canDone (funcId srcId : U8) (payload : List U8)
  /-- A parameter request completed with a block for the server. -/
  | paraDone (msgType : U16) (block : UserParas)
  /-- A parameter reply was built in the send buffer. -/
  | replyBuilt (datagram : List U8)
  /-- A datagram was handed to the network. -/
  | udpSent (datagram : List U8)
deriving DecidableEq

/-! ## The station -/

/-- `sButton_Info`: a debounced input. -/
structure ButtonInfo where
  inputState : Bool
  inputMiddleState : Bool
  inputConfirmTimes : U8
  trigCnt : U16
deriving DecidableEq, Inhabited

/-- `uart1_commu_state`. -/
inductive CommuState
  | sendReady
  | recvData
  | sendData
  | sendingData
  | recvDataEnd
deriving DecidableEq, Inhabited

/-- `tcp_client_statue`. -/
inductive ClientStatue
  | disConnect
  | connectOk
  | connectRecv
  | reConnect
deriving DecidableEq, Inhabited

/-- Globals of `logic_ctrl.c`. -/
structure LogicVars where
  userParasLocal : LocalParas
  userParasSlave : UserParas
  userParasTemp : UserParas
  bPhotoInfo : Table 5 ButtonInfo
  bResetInfo : ButtonInfo
  bStartInfo : ButtonInfo
  bStopInfo : ButtonInfo
  bStreamInfo : ButtonInfo
  bEmergencyInfo : ButtonInfo
  inverterStatusBuffer : Table 10 InverterStatus
  moduleStatusQueue : RingFifo ModuleStatus 20
  uartSendQueue : RingFifo CommNode 30
  commNode : CommNode
  commBusyFlag : Bool
  pollingNum : U8
  gLinkUpStreamStatus : Bool
  gLinkDownStreamStatus : Bool
  gSpeedGearStatus : U8
  gBlockDisableFlag : U8
  blockCheckTimeCnt : Table 10 U32
  resetStartTimeCnt : U16
  resetStartFlag : Bool

/-- Globals of `modbus_rtu.c`. -/
structure ModbusVars where
  uart1RecvBuff : Mem
  uart1RecvCount : Nat
  uart1CommuState : CommuState
  uart1Tmr : U16
  gSpeedSetSta : Bool
  stopspeedDefault : Table 10 U16
  freqCheckCnt : U16

/-- Globals of `can_bus.c`. -/
structure CanVars where
  canSendQueue : RingFifo CanFrameExt 50
  recv : CanRecv

/-- Globals of `fun.c` and the one entry of `tcp_client_list`. -/
structure MsgVars where
  msgSendQueue : RingFifo U16 100
  tcpRecvBuf : Mem
  tcpSendBuf : Mem
  tcpSendEn : Bool
  tcpRecvLen : U16
  tcpSendLen : U16
  tcpClientStatue : ClientStatue
  connectIsOk : Bool

/-- Globals of `main.c`. -/
structure MainVars where
  secReg : U16
  secFlag : Bool
  halfSecReg : U16
  halfSecFlag : Bool
  heartDely : U8
  localStation : U8
  uploadTimeDelay : U16
  uploadRuncnt : U16
  msoneFlag : Bool
  modulestateReadcnt : U16
  modulestateIndex : U16

/-- The output pins. -/
structure OutPins where
  bRunOut : Table 5 Bool
  bStreamOut : Bool
  lAlarmOut : Bool
  bRunStaOut : Bool

/-- The flash pages the program writes: the parameter page as half-words from
`UserParaStartAddress` on, and the half-word at `UserAppEnFlagAddress`. -/
structure Flash where
  userPara : Nat → U16
  userAppEnFlag : U16

/-- One station.  `systemReset` is set by `NVIC_SystemReset`, which does not
return. -/
structure Station where
  logic : LogicVars
  modbus : ModbusVars
  can : CanVars
  msg : MsgVars
  main : MainVars
  outs : OutPins
  flash : Flash
  systemReset : Bool
  trace : List Event

namespace Station

variable (s : Station)

/-- Record an event. -/
def log (e : Event) : Station := { s with trace := e :: s.trace }

/-- `user_paras_local.Belt_Number`. -/
def beltNumber : Nat := s.logic.userParasLocal.beltNumber.toNat

/-- `user_paras_local.belt_para[i]`. -/
def belt (i : Nat) : BeltParas := s.logic.userParasLocal.beltPara.get i

/-- `inverter_status_buffer[i]`. -/
def inverter (i : Nat) : InverterStatus := s.logic.inverterStatusBuffer.get i

/-- Assign to `inverter_status_buffer[i]`. -/
def setInverter (i : Nat) (v : InverterStatus) : Station :=
  { s with logic.inverterStatusBuffer := s.logic.inverterStatusBuffer.set i v }

/-- `isHost`, which `scan_local_station` derives from the station number. -/
def isHost : Bool := s.main.localStation == 1

/-- The commands waiting in the UART queue, oldest first. -/
def uartNodes : List CommNode := s.logic.uartSendQueue.contents

/-- The frames waiting in the CAN send queue, oldest first. -/
def canFrames : List CanFrameExt := s.can.canSendQueue.contents

/-- The message types waiting in the upload queue, oldest first. -/
def msgTypes : List U16 := s.msg.msgSendQueue.contents

/-- The command taken from the queue and not yet finished. -/
def inFlight : Option CommNode :=
  if s.logic.commBusyFlag then some s.logic.commNode else none

@[simp] theorem log_logic (e : Event) : (s.log e).logic = s.logic := rfl
@[simp] theorem log_can (e : Event) : (s.log e).can = s.can := rfl
@[simp] theorem log_msg (e : Event) : (s.log e).msg = s.msg := rfl
@[simp] theorem log_trace (e : Event) : (s.log e).trace = e :: s.trace := rfl
@[simp] theorem log_beltNumber (e : Event) : (s.log e).beltNumber = s.beltNumber := rfl

theorem beltNumber_le : s.beltNumber ≤ 10 := s.logic.userParasLocal.belt_le

end Station

end IotCtrl
