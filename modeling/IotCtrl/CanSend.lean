import IotCtrl.Logic

/-!
# Sending on the CAN bus: `can_bus.c`, transmit side

A message of up to eight bytes is one frame; a longer one is cut into a first
frame, middle frames and a final frame.  Frames wait in a ring until a transmit
mailbox is free.  The scratch buffer `can_send_buff` is refilled by every sender
before it is read, so a message is given as its list of bytes.

`canFramesOf` is the frame sequence of a message on its own, and
`canBusSendMsg_eq` connects the loop over the ring to it.
-/

namespace IotCtrl

open ByteMemory

def addCanSendData2Queue (x : CanFrameExt) (s : Station) : Station :=
  { s with can.canSendQueue := s.can.canSendQueue.add x }

/-- The identifier and payload `can_bus_send_one_frame` puts in a mailbox. -/
def canBusSendOneFrame (f : CanFrameExt) : CanRxMsg :=
  { extId := f.srcId.setWidth 32 ||| ((f.funcId &&& 0xF).setWidth 32 <<< 8)
      ||| ((f.segNum &&& 0xFF).setWidth 32 <<< 12)
      ||| ((f.segPolo.code &&& 0x3).setWidth 32 <<< 20)
    data := f.data }

/-- The `while(1)` loop of `can_bus_send_msg`, entered with `canSendLen` bytes
queued and `segNum` the number of the last segment. -/
def canBusSendSegments (pbuf : List U8) (funcId srcId : U8)
    (canSendLen : Nat) (segNum : U8) (s : Station) : Station :=
  if canSendLen + 8 < pbuf.length then
    canBusSendSegments pbuf funcId srcId (canSendLen + 8) (segNum + 1)
      (addCanSendData2Queue
        { segPolo := .middle
          segNum := segNum + 1
          funcId := funcId
          srcId := srcId
          data := (pbuf.drop canSendLen).take 8 } s)
  else
    addCanSendData2Queue
      { segPolo := .final
        segNum := segNum + 1
        funcId := funcId
        srcId := srcId
        data := (pbuf.drop canSendLen).take (pbuf.length - canSendLen) } s
termination_by pbuf.length - canSendLen

def canBusSendMsg (pbuf : List U8) (funcId srcId : U8) (s : Station) : Station :=
  if pbuf.length ≤ 8 then
    addCanSendData2Queue
      { segPolo := .none, segNum := 0, funcId := funcId, srcId := srcId, data := pbuf } s
  else
    canBusSendSegments pbuf funcId srcId 8 0
      (addCanSendData2Queue
        { segPolo := .first, segNum := 0, funcId := funcId, srcId := srcId
          data := pbuf.take 8 } s)

/-! ## The messages -/

/-- The length prefix and command byte of a parameter message. -/
def paraMsg (cmd : U8) (body : List U8) : List U8 :=
  let canSendLen : U16 := BitVec.ofNat 16 (3 + body.length)
  [lo canSendLen, hi canSendLen, cmd] ++ body

theorem paraMsg_drop (cmd : U8) (body : List U8) : (paraMsg cmd body).drop 3 = body := rfl

def canBusSendReadUserParas (stationNo : U8) (s : Station) : Station :=
  canBusSendMsg (paraMsg 0x01 []) CAN_FUNC_ID_PARA_DATA stationNo s

/-- The three senders of a whole parameter block differ in the command byte only.
The station number goes into the 8-bit source field. -/
def canBusSendParaBlock (cmd : U8) (p : UserParas) (s : Station) : Station :=
  canBusSendMsg (paraMsg cmd (read p.byte 0 UserParas.byteCount))
    CAN_FUNC_ID_PARA_DATA (lo p.stationNo) s

def canBusReplyReadUserParas (p : UserParas) (s : Station) : Station :=
  canBusSendParaBlock 0x91 p s

def canBusSendWriteUserParas (p : UserParas) (s : Station) : Station :=
  canBusSendParaBlock 0x02 p s

def canBusReplyWriteUserParas (p : UserParas) (s : Station) : Station :=
  canBusSendParaBlock 0x92 p s

def canBusSendStartCmd (cmd : U8) (s : Station) : Station :=
  canBusSendMsg [cmd] CAN_FUNC_ID_START_CMD s.main.localStation s

def canBusSendResetCmd (s : Station) : Station :=
  canBusSendMsg [] CAN_FUNC_ID_RESET_CMD s.main.localStation s

def canBusSendFuncSelectCmd (flag : U8) (s : Station) : Station :=
  canBusSendMsg [flag] CAN_FUNC_ID_FUNC_SELECT_CMD s.main.localStation s

def canBusSendModuleStatus (s : Station) : Station :=
  if s.beltNumber = 0 ∨ 10 < s.beltNumber then s
  else
    let body := (List.range s.beltNumber).flatMap fun i => (s.inverter i).bytes
    let canSendLen : U16 := BitVec.ofNat 16 (3 + body.length)
    canBusSendMsg
      ([lo canSendLen, hi canSendLen, lo s.logic.userParasLocal.beltNumber] ++ body)
      CAN_FUNC_ID_MODULE_STATUS s.main.localStation s

/-- `can_send_frame_process`: offer the oldest frame to the mailboxes and keep it
queued unless one takes it.  The frame taken is handed out. -/
def canSendFrameProcess (mailboxFree : Bool) (s : Station) : Station × Option CanRxMsg :=
  match s.can.canSendQueue.take with
  | none => (s, none)
  | some (f, q) =>
      if mailboxFree then
        ({ s with can.canSendQueue := q }, some (canBusSendOneFrame f))
      else (s, none)

/-! ## The frame sequence of a message -/

/-- The frames the `while(1)` loop queues. -/
def canSegmentsFrom (pbuf : List U8) (funcId srcId : U8)
    (canSendLen : Nat) (segNum : U8) : List CanFrameExt :=
  if canSendLen + 8 < pbuf.length then
    { segPolo := .middle
      segNum := segNum + 1
      funcId := funcId
      srcId := srcId
      data := (pbuf.drop canSendLen).take 8 } ::
        canSegmentsFrom pbuf funcId srcId (canSendLen + 8) (segNum + 1)
  else
    [{ segPolo := .final
       segNum := segNum + 1
       funcId := funcId
       srcId := srcId
       data := (pbuf.drop canSendLen).take (pbuf.length - canSendLen) }]
termination_by pbuf.length - canSendLen

/-- The frames of a message. -/
def canFramesOf (pbuf : List U8) (funcId srcId : U8) : List CanFrameExt :=
  if pbuf.length ≤ 8 then
    [{ segPolo := .none, segNum := 0, funcId := funcId, srcId := srcId, data := pbuf }]
  else
    { segPolo := .first, segNum := 0, funcId := funcId, srcId := srcId
      data := pbuf.take 8 } :: canSegmentsFrom pbuf funcId srcId 8 0

/-- Queue frames one after the other, each dropped when the ring is full. -/
def addCanFrames (fs : List CanFrameExt) (s : Station) : Station :=
  { s with can.canSendQueue := s.can.canSendQueue.addAll fs }

theorem canBusSendSegments_eq (pbuf : List U8) (funcId srcId : U8)
    (canSendLen : Nat) (segNum : U8) (s : Station) :
    canBusSendSegments pbuf funcId srcId canSendLen segNum s =
      addCanFrames (canSegmentsFrom pbuf funcId srcId canSendLen segNum) s := by
  fun_induction canSegmentsFrom pbuf funcId srcId canSendLen segNum generalizing s with
  | case1 canSendLen segNum hmore ih =>
      rw [canBusSendSegments, if_pos hmore, ih]
      rfl
  | case2 canSendLen segNum hlast =>
      rw [canBusSendSegments, if_neg hlast]
      rfl

/-- **The sender in one step.**  `can_bus_send_msg` queues the frames of the
message in order. -/
theorem canBusSendMsg_eq (pbuf : List U8) (funcId srcId : U8) (s : Station) :
    canBusSendMsg pbuf funcId srcId s = addCanFrames (canFramesOf pbuf funcId srcId) s := by
  unfold canBusSendMsg canFramesOf
  split_ifs with h
  · rfl
  · rw [canBusSendSegments_eq]
    rfl

/-- Every frame of a message carries its function code and source. -/
theorem canFramesOf_ids {pbuf : List U8} {funcId srcId : U8} {f : CanFrameExt}
    (hf : f ∈ canFramesOf pbuf funcId srcId) : f.funcId = funcId ∧ f.srcId = srcId := by
  have hseg : ∀ n k, f ∈ canSegmentsFrom pbuf funcId srcId n k →
      f.funcId = funcId ∧ f.srcId = srcId := by
    intro n k
    fun_induction canSegmentsFrom pbuf funcId srcId n k with
    | case1 n k hmore ih =>
        intro h
        rcases List.mem_cons.mp h with rfl | h
        · exact ⟨rfl, rfl⟩
        · exact ih h
    | case2 n k hlast =>
        intro h
        rw [List.mem_singleton.mp h]
        exact ⟨rfl, rfl⟩
  unfold canFramesOf at hf
  split_ifs at hf
  · rw [List.mem_singleton.mp hf]
    exact ⟨rfl, rfl⟩
  · rcases List.mem_cons.mp hf with rfl | hf
    · exact ⟨rfl, rfl⟩
    · exact hseg _ _ hf

theorem length_canSegmentsFrom (pbuf : List U8) (funcId srcId : U8) {n : Nat} (k : U8)
    (hn : n < pbuf.length) :
    (canSegmentsFrom pbuf funcId srcId n k).length = (pbuf.length - n + 7) / 8 := by
  fun_induction canSegmentsFrom pbuf funcId srcId n k with
  | case1 n k hmore ih =>
      rw [List.length_cons, ih hmore]
      omega
  | case2 n k hlast =>
      rw [List.length_singleton]
      omega

/-- One frame for every eight bytes begun, and one for an empty message. -/
theorem length_canFramesOf (pbuf : List U8) (funcId srcId : U8) :
    (canFramesOf pbuf funcId srcId).length = max 1 ((pbuf.length + 7) / 8) := by
  unfold canFramesOf
  split_ifs with h
  · rw [List.length_singleton]
    omega
  · rw [List.length_cons, length_canSegmentsFrom _ _ _ _ (by omega)]
    omega

/-- The frames of a message carry its bytes in order. -/
theorem flatMap_data_canFramesOf (pbuf : List U8) (funcId srcId : U8) :
    (canFramesOf pbuf funcId srcId).flatMap CanFrameExt.data = pbuf := by
  have hseg : ∀ n k, (canSegmentsFrom pbuf funcId srcId n k).flatMap CanFrameExt.data =
      pbuf.drop n := by
    intro n k
    fun_induction canSegmentsFrom pbuf funcId srcId n k with
    | case1 n k hmore ih =>
        rw [List.flatMap_cons, ih, ← List.drop_drop, List.take_append_drop]
    | case2 n k hlast =>
        rw [List.flatMap_singleton, ← List.length_drop, List.take_length]
  unfold canFramesOf
  split_ifs with h
  · exact List.flatMap_singleton _ _
  · rw [List.flatMap_cons, hseg, List.take_append_drop]

theorem canFramesOf_ne_nil (pbuf : List U8) (funcId srcId : U8) :
    canFramesOf pbuf funcId srcId ≠ [] := by
  intro hnil
  have hlen := length_canFramesOf pbuf funcId srcId
  rw [hnil, List.length_nil] at hlen
  omega

/-- Messages with the same frames are the same. -/
theorem canFramesOf_inj {pbuf pbuf' : List U8} {funcId funcId' srcId srcId' : U8}
    (h : canFramesOf pbuf funcId srcId = canFramesOf pbuf' funcId' srcId') :
    pbuf = pbuf' ∧ srcId = srcId' := by
  constructor
  · rw [← flatMap_data_canFramesOf pbuf funcId srcId, h, flatMap_data_canFramesOf]
  · obtain ⟨f, hf⟩ := List.exists_mem_of_ne_nil _ (canFramesOf_ne_nil pbuf funcId srcId)
    exact (canFramesOf_ids hf).2.symm.trans (canFramesOf_ids (h ▸ hf)).2

end IotCtrl
