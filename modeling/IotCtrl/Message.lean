import IotCtrl.CanSend

/-!
# The server link: `fun.c` and `udpclient.c`

A datagram is `AA AA`, a four-byte id, its length, an exclusive-or checksum over
the bytes from offset 9 on, a message type at 9 and its body from 11 on.  Only
the host talks to the server.  Replies wait as bare message types in a ring; the
data of a parameter reply is whatever `user_paras_slave` holds when the type is
taken out, while module states have a ring of their own.
-/

namespace IotCtrl

open ByteMemory

def SEND_MSG_MODULE_STATUS_TYPE : U16 := 0x1601
def RECV_MSG_READ_PARA_CMD_TYPE : U16 := 0x1603
def RECV_MSG_WRITE_PARA_CMD_TYPE : U16 := 0x1604
def RECV_MSG_START_CMD_TYPE : U16 := 0x1610
def RECV_MSG_RESET_CMD_TYPE : U16 := 0x1611
def RECV_MSG_FUNC_SELECT_CMD_TYPE : U16 := 0x1612
def RECV_MSG_BOOT_CMD_TYPE : U16 := 0x1F01
def REPLY_RECV_MSG_READ_PARA_CMD_TYPE : U16 := 0x9603
def REPLY_RECV_MSG_WRITE_PARA_CMD_TYPE : U16 := 0x9604

/-! ## The queue of message types -/

def addSendMsgToQueue (msg : U16) (s : Station) : Station :=
  { s with msg.msgSendQueue := s.msg.msgSendQueue.add msg }

/-- `outQueue` returns 0 from an empty queue. -/
def getSendMsgFromQueue (s : Station) : U16 × Station :=
  match s.msg.msgSendQueue.take with
  | none => (0, s)
  | some (x, q) => (x, { s with msg.msgSendQueue := q })

/-- A parameter request is answered: the block goes to `user_paras_slave` and the
reply type into the queue. -/
def paraReply (msgType : U16) (block : UserParas) (s : Station) : Station :=
  let s := { s with logic.userParasSlave := block }
  (addSendMsgToQueue msgType s).log (.paraDone msgType block)

/-! ## Receiving -/

/-- `recv_msg_check`. -/
def recvMsgCheck (point : Mem) (len : Nat) : Bool :=
  if point 0 ≠ 0xAA ∨ point 1 ≠ 0xAA then false
  else if (le16 (point 6) (point 7)).toNat ≠ len then false
  else if xorFold (point 9) (read point 10 (len - 10)) ≠ point 8 then false
  else true

/-- `MSG_TYPE` of the packed header. -/
def msgType (point : Mem) : U16 := wordAt point 9

/-- Mark the application as disabled in flash and reset into the boot loader. -/
def enterBootMode (s : Station) : Station :=
  { s with flash.userAppEnFlag := 0x0000, systemReset := true }

/-- The block of a write request is copied to `user_paras_temp`. -/
def setParasTemp (p : UserParas) (s : Station) : Station := { s with logic.userParasTemp := p }

/-- Assign to `g_block_disable_flag`. -/
def setBlockDisable (flag : U8) (s : Station) : Station :=
  { s with logic.gBlockDisableFlag := flag }

/-- `RECV_MSG_WRITE_PARA_CMD_TYPE`: the host's own block is written here, any
other one is sent on. -/
def recvWritePara (point : Mem) (s : Station) : Station :=
  let s := setParasTemp (UserParas.ofBytes point 11) s
  if s.logic.userParasTemp.stationNo = s.main.localStation.setWidth 16 then
    let s := writeUserParas (fun i => wordAt point (17 + 2 * i)) s
    let s := readUserParas s
    paraReply REPLY_RECV_MSG_WRITE_PARA_CMD_TYPE s.logic.userParasLocal.toUserParas s
  else canBusSendWriteUserParas s.logic.userParasTemp s

/-- A block for this station is written, and answered with the parameters then in
use. -/
theorem recvWritePara_local {point : Mem} {s : Station}
    (h : (UserParas.ofBytes point 11).stationNo = s.main.localStation.setWidth 16) :
    recvWritePara point s = paraReply REPLY_RECV_MSG_WRITE_PARA_CMD_TYPE
      (writtenParas s.main.localStation fun i => wordAt point (17 + 2 * i)).toUserParas
      (readUserParas (writeUserParas (fun i => wordAt point (17 + 2 * i))
        (setParasTemp (UserParas.ofBytes point 11) s))) := by
  have hparas := readUserParas_written (fun i => wordAt point (17 + 2 * i))
    (setParasTemp (UserParas.ofBytes point 11) s)
  refine (if_pos h).trans ?_
  rw [hparas]
  rfl

/-- A block for another station is sent on. -/
theorem recvWritePara_remote {point : Mem} {s : Station}
    (h : (UserParas.ofBytes point 11).stationNo ≠ s.main.localStation.setWidth 16) :
    recvWritePara point s = canBusSendWriteUserParas (UserParas.ofBytes point 11)
      (setParasTemp (UserParas.ofBytes point 11) s) :=
  if_neg h

def recvMsgProcess (point : Mem) (s : Station) : Station :=
  if msgType point = RECV_MSG_BOOT_CMD_TYPE then enterBootMode s
  else if msgType point = RECV_MSG_READ_PARA_CMD_TYPE then
    if point 11 = s.main.localStation then
      paraReply REPLY_RECV_MSG_READ_PARA_CMD_TYPE s.logic.userParasLocal.toUserParas s
    else canBusSendReadUserParas (point 11) s
  else if msgType point = RECV_MSG_WRITE_PARA_CMD_TYPE then recvWritePara point s
  else if msgType point = RECV_MSG_START_CMD_TYPE then
    canBusSendStartCmd (point 11) (speedCtrlProcess (point 11) s)
  else if msgType point = RECV_MSG_RESET_CMD_TYPE then
    canBusSendResetCmd (resetCtrlHandle s)
  else if msgType point = RECV_MSG_FUNC_SELECT_CMD_TYPE then
    canBusSendFuncSelectCmd (point 11) (setBlockDisable (point 11) s)
  else s

/-- `recv_message_from_server`; the caller's length variable is cleared on both
paths. -/
def recvMessageFromServer (point : Mem) (len : Nat) (s : Station) : Station :=
  if recvMsgCheck point len = false then s else recvMsgProcess point s

/-! ## Building replies -/

/-- The datagram that `send_reply_read_para_cmd` and `send_reply_write_para_cmd`
build, which are the same but for the type they are called with.  The block's
belt count decides the length; with more than ten belts the source reads past the
block, where `byte` gives zeros. -/
def replyParaDatagram (type : U16) (p : UserParas) : List U8 :=
  let sendlen : U16 := 11 + 12 + 22 * p.beltNumber
  let body := read p.byte 0 (sendlen.toNat - 11)
  let sum := xorFold (lo type) ((hi type :: body).take (sendlen.toNat - 10))
  [0xAA, 0xAA, 0x01, 0x00, 0x00, 0x00, lo sendlen, hi sendlen, sum, lo type, hi type] ++ body

/-- Place a built datagram in the send buffer. -/
def setSendBuf (datagram : List U8) (s : Station) : Station :=
  { s with
    msg.tcpSendBuf := write s.msg.tcpSendBuf 0 datagram
    msg.tcpSendLen := BitVec.ofNat 16 datagram.length }

def sendReplyParaCmd (type : U16) (s : Station) : Station :=
  let datagram := replyParaDatagram type s.logic.userParasSlave
  (setSendBuf datagram s).log (.replyBuilt datagram)

def sendReplyReadParaCmd (s : Station) : Station :=
  sendReplyParaCmd REPLY_RECV_MSG_READ_PARA_CMD_TYPE s

def sendReplyWriteParaCmd (s : Station) : Station :=
  sendReplyParaCmd REPLY_RECV_MSG_WRITE_PARA_CMD_TYPE s

/-- The datagram `send_msg_module_status_cmd` builds for one record. -/
def moduleStatusDatagram (type : U16) (m : ModuleStatus) : List U8 :=
  let sendlen : U16 := 14 + 10 * m.beltNumber
  let body := [1, lo m.stationNo, lo m.beltNumber] ++
    m.inverterStatus.flatMap InverterStatus.bytes
  let sum := xorFold (lo type) (hi type :: body)
  [0xAA, 0xAA, 0x01, 0x00, 0x00, 0x00, lo sendlen, hi sendlen, sum, lo type, hi type] ++ body

def sendMsgModuleStatusCmd (type : U16) (s : Station) : Station :=
  match getModuleStatusDataFromQueue s with
  | none => { s with msg.tcpSendLen := 0 }
  | some (m, s) => setSendBuf (moduleStatusDatagram type m) s

/-- `send_message_to_server`: one message type is taken out unless a datagram is
still pending. -/
def sendMessageToServer (s : Station) : Station :=
  if s.msg.tcpSendEn then s
  else
    let (type, s) := getSendMsgFromQueue s
    if type = SEND_MSG_MODULE_STATUS_TYPE then
      let s := sendMsgModuleStatusCmd type s
      if s.msg.tcpSendLen ≠ 0 then { s with msg.tcpSendEn := true } else s
    else if type = REPLY_RECV_MSG_READ_PARA_CMD_TYPE then
      let s := sendReplyReadParaCmd s
      { s with msg.tcpSendEn := true }
    else if type = REPLY_RECV_MSG_WRITE_PARA_CMD_TYPE then
      let s := sendReplyWriteParaCmd s
      { s with msg.tcpSendEn := true }
    else s

/-! ## The UDP client -/

/-- A received chain of buffers: its segments, and the memory behind the first
segment's payload. -/
structure Pbuf where
  segments : List (List U8)
  behind : Mem

/-- `p->tot_len`. -/
def Pbuf.totLen (p : Pbuf) : Nat := (p.segments.map List.length).sum

/-- The bytes at `p->payload`, the payload pointer of the first segment. -/
def Pbuf.payload (p : Pbuf) : Mem := prepend (p.segments.headD []) p.behind

/-- `udp_receive_callback` for a datagram from the configured peer.  `m` is the
loop counter, unassigned when the datagram is too long to be copied. -/
def udpReceiveCallback (p : Pbuf) (m : U16) (s : Station) : Station :=
  if s.msg.tcpClientStatue = .connectOk then
    let copied := write s.msg.tcpRecvBuf s.msg.tcpRecvLen.toNat (read p.payload 0 p.totLen)
    let (buf, m) :=
      if p.totLen ≤ 300 then (copied, BitVec.ofNat 16 p.totLen) else (s.msg.tcpRecvBuf, m)
    { s with
      msg.tcpRecvBuf := buf
      msg.tcpRecvLen := s.msg.tcpRecvLen + m
      msg.tcpClientStatue := .connectRecv }
  else s

/-- A datagram that fits goes behind what was received before. -/
theorem udpReceiveCallback_fits {p : Pbuf} {s : Station} (m : U16)
    (hconnected : s.msg.tcpClientStatue = .connectOk) (hfits : p.totLen ≤ 300) :
    udpReceiveCallback p m s =
      { s with
        msg.tcpRecvBuf :=
          write s.msg.tcpRecvBuf s.msg.tcpRecvLen.toNat (read p.payload 0 p.totLen)
        msg.tcpRecvLen := s.msg.tcpRecvLen + BitVec.ofNat 16 p.totLen
        msg.tcpClientStatue := .connectRecv } := by
  unfold udpReceiveCallback
  rw [if_pos hconnected]
  dsimp only
  rw [if_pos hfits]

/-- What the network stack answers during one `udp_client_process`. -/
structure UdpEnv where
  pcbCreated : Bool
  connected : Bool
  pbufAllocated : Bool

def udpSendProcess (env : UdpEnv) (s : Station) : Station :=
  if env.pbufAllocated then
    s.log (.udpSent (read s.msg.tcpSendBuf 0 s.msg.tcpSendLen.toNat))
  else s

/-- The connection half of `udp_client_process`. -/
def udpConnectProcess (env : UdpEnv) (s : Station) : Station :=
  if s.msg.connectIsOk = false then
    let s := { s with msg.tcpClientStatue := .disConnect }
    if env.pcbCreated then
      { s with msg.connectIsOk := true, msg.tcpSendEn := false, msg.tcpSendLen := 0 }
    else s
  else if s.msg.tcpClientStatue = .disConnect then
    if env.connected then { s with msg.tcpClientStatue := .connectOk } else s
  else if s.msg.tcpClientStatue = .connectOk then
    if s.msg.tcpSendEn then
      let s := udpSendProcess env s
      { s with msg.tcpSendEn := false }
    else s
  else s

/-- `udp_client_process`.  A boot command does not return from the first half. -/
def udpClientProcess (env : UdpEnv) (s : Station) : Station :=
  if s.msg.tcpClientStatue = .connectRecv then
    let s := recvMessageFromServer s.msg.tcpRecvBuf s.msg.tcpRecvLen.toNat s
    if s.systemReset then s
    else
      let s := { s with msg.tcpRecvLen := 0, msg.tcpClientStatue := .connectOk }
      udpConnectProcess env s
  else udpConnectProcess env s

end IotCtrl
