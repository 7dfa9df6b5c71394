import IotCtrl.Message

/-!
# Receiving on the CAN bus: `can_bus.c`, receive side

`can_bus_frame_receive` first puts messages together in one shared buffer
(`canReassemble`) and, when a message is complete, dispatches it by function
code (`canDispatch`).  The dispatch and its callees read the buffer at offsets
that do not depend on how much was received.  They are written in `Traced`, which
keeps the offsets read and the elements of the local `inverter_status` array
touched next to the value, so that bounds can be stated about the code itself.
-/

namespace IotCtrl

open ByteMemory

/-! ## Reassembly -/

/-- The identifier fields of a received frame. -/
def canDecodeId (extId : U32) : CanFrameExtID :=
  { segPolo := SegPolo.ofCode (((extId >>> 20) &&& 0x3).setWidth 8)
    segNum := ((extId >>> 12) &&& 0xFF).setWidth 8
    funcId := ((extId >>> 8) &&& 0xF).setWidth 8
    srcId := (extId &&& 0xFF).setWidth 8
    dstId := ((extId >>> 22) &&& 0x7F).setWidth 8 }

/-- A middle or final frame continues the open message. -/
def canContinues (id : CanFrameExtID) (data : List U8) (r : CanRecv) : Prop :=
  r.gSegPolo = .first ∧ id.segNum.toNat = r.gSegNum + 1 ∧ r.gSegBytes + data.length ≤ 300

instance (id : CanFrameExtID) (data : List U8) (r : CanRecv) :
    Decidable (canContinues id data r) :=
  inferInstanceAs (Decidable (_ ∧ _))

/-- The receive state after a frame, and `recv_finish_flag`. -/
def canReassemble (id : CanFrameExtID) (data : List U8) (r : CanRecv) : CanRecv × Bool :=
  match id.segPolo with
  | .none =>
      ({ r with
          canRecvBuff := write r.canRecvBuff 0 data
          canRecvLen := data.length }, true)
  | .first =>
      ({ r with
          canRecvBuff := write r.canRecvBuff 0 data
          gSegPolo := .first
          gSegNum := id.segNum.toNat
          gSegBytes := data.length }, false)
  | .middle =>
      if canContinues id data r then
        ({ r with
            canRecvBuff := write r.canRecvBuff r.gSegBytes data
            gSegNum := r.gSegNum + 1
            gSegBytes := r.gSegBytes + data.length }, false)
      else (r, false)
  | .final =>
      if canContinues id data r then
        ({ r with
            canRecvBuff := write r.canRecvBuff r.gSegBytes data
            canRecvLen := r.gSegBytes + data.length
            gSegPolo := .none
            gSegNum := 0
            gSegBytes := 0 }, true)
      else (r, false)

/-- The received message: the first `can_recv_len` bytes of the buffer. -/
def CanRecv.payload (r : CanRecv) : List U8 := read r.canRecvBuff 0 r.canRecvLen

/-! ## Traced reads -/

/-- A result with the buffer offsets read and the `inverter_status` elements
touched on the way. -/
structure Traced (α : Type) where
  val : α
  reads : List Nat
  elems : List Nat

namespace Traced

instance : Monad Traced where
  pure x := ⟨x, [], []⟩
  bind t f :=
    let u := f t.val
    ⟨u.val, t.reads ++ u.reads, t.elems ++ u.elems⟩

@[simp] theorem val_pure {α : Type} (x : α) : (pure x : Traced α).val = x := rfl
@[simp] theorem reads_pure {α : Type} (x : α) : (pure x : Traced α).reads = [] := rfl
@[simp] theorem elems_pure {α : Type} (x : α) : (pure x : Traced α).elems = [] := rfl

@[simp] theorem val_bind {α β : Type} (t : Traced α) (f : α → Traced β) :
    (t >>= f).val = (f t.val).val := rfl
@[simp] theorem reads_bind {α β : Type} (t : Traced α) (f : α → Traced β) :
    (t >>= f).reads = t.reads ++ (f t.val).reads := rfl
@[simp] theorem elems_bind {α β : Type} (t : Traced α) (f : α → Traced β) :
    (t >>= f).elems = t.elems ++ (f t.val).elems := rfl

/-- Every read lies below `len`, and every element below ten. -/
def InBounds {α : Type} (t : Traced α) (len : Nat) : Prop :=
  (∀ i ∈ t.reads, i < len) ∧ ∀ k ∈ t.elems, k < 10

end Traced

/-- Read one byte of the buffer. -/
def readByte (pbuf : Mem) (i : Nat) : Traced U8 := ⟨pbuf i, [i], []⟩

/-- Read `n` bytes from offset `off` on, as the value `x` they make up. -/
def readBlock {α : Type} (x : α) (off n : Nat) : Traced α :=
  ⟨x, (List.range n).map (off + ·), []⟩

/-- Access element `k` of the local `inverter_status` array. -/
def touchElem (k : Nat) : Traced Unit := ⟨(), [], [k]⟩

/-- Write the first `n` elements of the local `inverter_status` array. -/
def touchElems (n : Nat) : Traced Unit := ⟨(), [], List.range n⟩

/-! ## Dispatch -/

/-- The length field of a message: its high byte is shifted right. -/
def canDataLen (b₀ b₁ : U8) : U16 := b₀.setWidth 16 ||| (b₁.setWidth 16 >>> 8)

def paraDataRecvProcess (pbuf : Mem) (recvLen : Nat) (s : Station) : Traced Station := do
  let b₀ ← readByte pbuf 0
  let b₁ ← readByte pbuf 1
  let cmd ← readByte pbuf 2
  if (canDataLen b₀ b₁).toNat ≠ recvLen then
    return s
  else if cmd = 0x1 then
    return canBusReplyReadUserParas s.logic.userParasLocal.toUserParas s
  else if cmd = 0x91 then
    let block ← readBlock (UserParas.ofBytes pbuf 3) 3 UserParas.byteCount
    return paraReply REPLY_RECV_MSG_READ_PARA_CMD_TYPE block s
  else if cmd = 0x2 then
    let para ← readBlock (fun i => wordAt pbuf (9 + 2 * i)) 9 (2 * USER_PARA_DATA_LEN)
    let s := writeUserParas para s
    let s := readUserParas s
    return canBusReplyWriteUserParas s.logic.userParasLocal.toUserParas s
  else if cmd = 0x92 then
    let block ← readBlock (UserParas.ofBytes pbuf 3) 3 UserParas.byteCount
    return paraReply REPLY_RECV_MSG_WRITE_PARA_CMD_TYPE block s
  else
    return s

/-- The `n` records behind the header of a module state message. -/
def moduleRecords (pbuf : Mem) (n : Nat) : List InverterStatus :=
  (List.range n).map fun k => InverterStatus.ofBytes pbuf (3 + 10 * k)

/-- The downstream branch of `module_status_recv_process`. -/
def downStreamUpdate (running : Bool) (s : Station) : Station :=
  let s :=
    if s.beltNumber ≠ 0 then
      if s.logic.gLinkDownStreamStatus ≠ running then
        if s.logic.gLinkDownStreamStatus = true then
          linkageStreamCtrlHandle (s.beltNumber - 1) false s
        else linkageStreamCtrlHandle (s.beltNumber - 1) true s
      else s
    else s
  { s with logic.gLinkDownStreamStatus := running }

/-- The upstream branch of `module_status_recv_process`. -/
def upStreamUpdate (running : Bool) (s : Station) : Station :=
  { s with logic.gLinkUpStreamStatus := running }

/-- The host keeps the record of every station for the server. -/
def keepModuleStatus (m : ModuleStatus) (s : Station) : Station :=
  if s.isHost then addModuleStatusData2Queue m s else s

def moduleStatusRecvProcess (pbuf : Mem) (recvLen : Nat) (srcId : U8) (s : Station) :
    Traced Station := do
  let b₀ ← readByte pbuf 0
  let b₁ ← readByte pbuf 1
  let beltNum ← readByte pbuf 2
  if (canDataLen b₀ b₁).toNat ≠ recvLen ∨ beltNum = 0 then
    return s
  else
    let n := beltNum.toNat
    let records ← readBlock (moduleRecords pbuf n) 3 (10 * n)
    touchElems n
    let s := keepModuleStatus
      { stationNo := srcId.setWidth 16
        beltNumber := beltNum.setWidth 16
        inverterStatus := records } s
    if srcId.setWidth 16 = s.logic.userParasLocal.upStreamNo then
      touchElem (n - 1)
      return upStreamUpdate (bitAt (records.getD (n - 1) default).faultCode 4 ≠ 0) s
    else if srcId.setWidth 16 = s.logic.userParasLocal.downStreamNo then
      touchElem 0
      return downStreamUpdate (bitAt (records.getD 0 default).faultCode 4 ≠ 0) s
    else
      return s

/-- The part of `can_bus_frame_receive` behind the finish flag. -/
def canDispatch (funcId srcId : U8) (s : Station) : Traced Station := do
  let pbuf := s.can.recv.canRecvBuff
  let recvLen := s.can.recv.canRecvLen
  if funcId = CAN_FUNC_ID_PARA_DATA ∧ (srcId = s.main.localStation ∨ s.isHost = true) then
    paraDataRecvProcess pbuf recvLen s
  else if funcId = CAN_FUNC_ID_START_CMD then
    let gear ← readByte pbuf 0
    return speedCtrlProcess gear s
  else if funcId = CAN_FUNC_ID_MODULE_STATUS then
    moduleStatusRecvProcess pbuf recvLen srcId s
  else if funcId = CAN_FUNC_ID_RESET_CMD then
    return resetCtrlHandle s
  else if funcId = CAN_FUNC_ID_FUNC_SELECT_CMD then
    let flag ← readByte pbuf 0
    return setBlockDisable flag s
  else if funcId = CAN_FUNC_ID_READ_MODULE_STATUS
      ∧ (srcId = s.main.localStation ∧ s.isHost ≠ true) then
    return canBusSendModuleStatus s
  else
    return s

/-- Store a new receive state. -/
def setCanRecv (r : CanRecv) (s : Station) : Station := { s with can.recv := r }

def canBusFrameReceive (rxMsg : CanRxMsg) (s : Station) : Station :=
  let id := canDecodeId rxMsg.extId
  if id.funcId = CAN_FUNC_ID_BOOT_MODE ∧ id.dstId = s.main.localStation then enterBootMode s
  else
    let (r, finished) := canReassemble id rxMsg.data s.can.recv
    let s := setCanRecv r s
    if finished = true then
      (canDispatch id.funcId id.srcId (s.log (.canDone id.funcId id.srcId r.payload))).val
    else s

end IotCtrl
