import IotCtrl.BusExchange
import IotCtrl.ParaRouting

/-!
# Reading the parameters of a station

The server asks for the parameters of one station by its number.  The host answers for itself at
once; for any other number it puts the request on the bus, the station that has the number sends
its parameters back, and the host passes them on.

* `handled_datagram` — a datagram that is read whole has its own effect;
* `readRequest_heard`, `readAnswer_keeps` — what the stations do with the request and the answer;
* `readRequest_phase` — the state of a request in any run beside it;
* `parameter_read` — the parameters in the reply are those of the station asked, a number that
  nobody has is never answered, and nobody is written.
-/

namespace IotCtrl

open ByteMemory Transition ClosedFacts

/-! ## Handling a datagram -/

section Datagrams

variable {p : Pbuf} {s : Station}

/-- The datagram lies in the receive buffer. -/
theorem received_datagram (m : U16) (hfits : p.totLen ≤ 300)
    (hconnected : s.msg.tcpClientStatue = .connectOk) (hreceived : s.msg.tcpRecvLen = 0) :
    (udpReceiveCallback p m s).msg.tcpSendEn = s.msg.tcpSendEn ∧
      (udpReceiveCallback p m s).msg.tcpClientStatue = .connectRecv ∧
      (udpReceiveCallback p m s).msg.tcpRecvLen.toNat = p.totLen ∧
      AgreeBelow p.totLen p.payload (udpReceiveCallback p m s).msg.tcpRecvBuf := by
  have hbytes : AgreeBelow p.totLen p.payload
      (write s.msg.tcpRecvBuf 0 (ByteMemory.read p.payload 0 p.totLen)) := by
    intro i hi
    have hlt : i < (ByteMemory.read p.payload 0 p.totLen).length := by
      rw [length_read]
      exact hi
    have hget := write_getElem s.msg.tcpRecvBuf (ByteMemory.read p.payload 0 p.totLen) 0 hlt
    rw [Nat.zero_add] at hget
    rw [hget]
    simp [ByteMemory.read]
  have hcount : ((0 : U16) + BitVec.ofNat 16 p.totLen).toNat = p.totLen := by
    simp only [BitVec.toNat_add, BitVec.toNat_ofNat, BitVec.ofNat_eq_ofNat]
    omega
  rw [udpReceiveCallback_fits m hconnected hfits, hreceived]
  exact ⟨rfl, rfl, hcount, hbytes⟩

/-- A datagram that is read whole is handled once. -/
theorem handled_datagram {env : UdpEnv} (hlen : 11 ≤ p.totLen)
    (haccepted : recvMsgCheck p.payload p.totLen = true)
    (hread : bytesRead (msgType p.payload) ≤ p.totLen)
    (hrecv : s.msg.tcpClientStatue = .connectRecv) (hcount : s.msg.tcpRecvLen.toNat = p.totLen)
    (hbuf : AgreeBelow p.totLen p.payload s.msg.tcpRecvBuf)
    (hrunning : (recvMsgProcess p.payload s).systemReset = false)
    (hunsent : (recvMsgProcess p.payload s).msg.tcpSendEn = false) :
    Keeps [.link, .trace] (recvMsgProcess p.payload s) (udpClientProcess env s) ∧
      (udpClientProcess env s).msg.tcpSendEn = false := by
  have hcheck : recvMsgCheck s.msg.tcpRecvBuf p.totLen = true := by
    rw [← recvMsgCheck_congr (by omega) hbuf]
    exact haccepted
  have hprocess : recvMsgProcess p.payload s = recvMsgProcess s.msg.tcpRecvBuf s :=
    recvMsgProcess_congr hlen hread hbuf s
  have hmessage : recvMessageFromServer s.msg.tcpRecvBuf p.totLen s =
      recvMsgProcess p.payload s := by
    unfold recvMessageFromServer
    rw [hcheck, if_neg (by decide), ← hprocess]
  have hdone := recvDone_keeps (recvMsgProcess p.payload s)
  have hstep : udpClientProcess env s = udpConnectProcess env
      { recvMsgProcess p.payload s with
        msg.tcpRecvLen := 0, msg.tcpClientStatue := .connectOk } := by
    unfold udpClientProcess
    rw [if_pos hrecv, hcount, hmessage]
    dsimp only
    rw [if_neg (by rw [hrunning]; exact Bool.false_ne_true)]
  rw [hstep]
  exact ⟨hdone.mono.trans (udpConnectProcess_keeps env _), udpConnectProcess_unsent hunsent⟩

end Datagrams

/-- A datagram that asks for the parameters of station `no`. -/
structure ReadRequest (p : Pbuf) (no : U8) : Prop where
  length : 12 ≤ p.totLen ∧ p.totLen ≤ 300
  accepted : recvMsgCheck p.payload p.totLen = true
  type_eq : msgType p.payload = RECV_MSG_READ_PARA_CMD_TYPE
  number : p.payload 11 = no

/-- The request as the host puts it on the bus. -/
def readMsg : List U8 := paraMsg 0x01 []

/-- What the host does with the request. -/
def recvReadPara (no : U8) (s : Station) : Station :=
  if no = s.main.localStation then
    paraReply REPLY_RECV_MSG_READ_PARA_CMD_TYPE s.logic.userParasLocal.toUserParas s
  else canBusSendReadUserParas no s

theorem recvMsgProcess_read {p : Pbuf} {no : U8} (hreq : ReadRequest p no) (s : Station) :
    recvMsgProcess p.payload s = recvReadPara no s := by
  unfold recvMsgProcess recvReadPara
  rw [hreq.type_eq, if_neg (by decide), if_pos rfl, hreq.number]

theorem recvReadPara_keeps (no : U8) (s : Station) :
    Keeps [.slave, .msgQueue, .trace, .canQueue] s (recvReadPara no s) := by
  unfold recvReadPara
  split_ifs
  · exact (paraReply_keeps _ _ s).mono
  · exact (canBusSendMsg_keeps _ _ _ s).mono

/-- The host after it has received and handled the request. -/
theorem afterRequest_read {ι : Type} [DecidableEq ι] {net : Network ι} {p : Pbuf} {no : U8}
    (hready : net.Ready) (hreq : ReadRequest p no) (m : U16) (env : UdpEnv) :
    ∃ u, Keeps [.link] net.host u ∧
      Keeps [.link, .trace] (recvReadPara no u) (afterRequest net p m env).host ∧
      (afterRequest net p m env).host.msg.tcpSendEn = false := by
  obtain ⟨hsend, hrecv, hcount, hbuf⟩ :=
    received_datagram m hreq.length.2 hready.connected hready.received
  have hk := udpReceiveCallback_keeps p m net.host
  have hreset : (udpReceiveCallback p m net.host).systemReset = net.host.systemReset :=
    hk.same .systemReset (by decide)
  have hrunning := hreset.trans hready.host_running
  have hreceive : step net.host (.udpReceive p m) = udpReceiveCallback p m net.host :=
    (if_neg (by rw [hready.host_running]; exact Bool.false_ne_true)).trans (if_pos hready.host)
  have hclient : step (udpReceiveCallback p m net.host) (.udpClient env) =
      udpClientProcess env (udpReceiveCallback p m net.host) :=
    (if_neg (by rw [hrunning]; exact Bool.false_ne_true)).trans
      (if_pos (hk.isHost.trans hready.host))
  have hhost : (afterRequest net p m env).host =
      udpClientProcess env (udpReceiveCallback p m net.host) := by
    rw [← hclient, ← hreceive]
    rfl
  have hread : bytesRead (msgType p.payload) ≤ p.totLen := by
    rw [hreq.type_eq]
    exact hreq.length.1
  have hkeeps := recvReadPara_keeps no (udpReceiveCallback p m net.host)
  have hreset' : (recvReadPara no (udpReceiveCallback p m net.host)).systemReset =
      (udpReceiveCallback p m net.host).systemReset := hkeeps.same .systemReset (by decide)
  have hprocess := recvMsgProcess_read hreq (udpReceiveCallback p m net.host)
  have hdone := @handled_datagram p _ env (by have := hreq.length.1; omega) hreq.accepted hread
    hrecv hcount hbuf (by rw [hprocess]; exact hreset'.trans hrunning)
    (by rw [hprocess]; exact (tcpSendEn_of_keeps hkeeps).trans (hsend.trans hready.unsent))
  rw [hhost]
  rw [hprocess] at hdone
  exact ⟨_, hk, hdone⟩

/-! ## The message and the answer -/

section Messages

variable {s u : Station} {no : U8}

/-- A station that is asked for its parameters sends them. -/
theorem dispatch_read (h : Heard readMsg s u) (hmine : no = u.main.localStation) :
    (canDispatch CAN_FUNC_ID_PARA_DATA no u).val =
      canBusReplyReadUserParas u.logic.userParasLocal.toUserParas u := by
  have hlen : u.can.recv.canRecvLen = 3 := h.length
  have hpay := h.payload
  unfold CanRecv.payload at hpay
  rw [hlen] at hpay
  have hbytes : [u.can.recv.canRecvBuff 0, u.can.recv.canRecvBuff 1, u.can.recv.canRecvBuff 2] =
      [0x03, 0x00, 0x01] := hpay
  simp only [List.cons.injEq] at hbytes
  obtain ⟨h0, h1, h2, -⟩ := hbytes
  rw [dispatch_taken (Or.inl hmine), hlen]
  unfold paraDataRecvProcess
  simp only [Traced.val_bind]
  have hread0 : (readByte u.can.recv.canRecvBuff 0).val = 0x03 := h0
  have hread1 : (readByte u.can.recv.canRecvBuff 1).val = 0x00 := h1
  have hread2 : (readByte u.can.recv.canRecvBuff 2).val = 0x01 := h2
  rw [hread0, hread1, hread2, if_neg (by decide), if_pos rfl]
  rfl

/-- The host keeps the parameters of an answer for the server. -/
theorem dispatch_readReply {p : UserParas} (h : Heard (blockMsg 0x91 p) s u)
    (hhost : u.isHost = true) : (canDispatch CAN_FUNC_ID_PARA_DATA no u).val =
      paraReply REPLY_RECV_MSG_READ_PARA_CMD_TYPE p u := by
  obtain ⟨hlen, hdata, hcmd, hbytes⟩ := h.bytes
  have hblock : UserParas.ofBytes u.can.recv.canRecvBuff 3 = p := UserParas.ofBytes_eq hbytes
  rw [dispatch_taken (Or.inr hhost), hlen]
  unfold paraDataRecvProcess
  simp only [Traced.val_bind]
  have hread : (readByte u.can.recv.canRecvBuff 2).val = 0x91 := hcmd
  rw [if_neg (fun hne => hne (congrArg BitVec.toNat hdata)), hread, if_neg (by decide),
    if_pos rfl, hblock]
  rfl

/-- The frames of the answer. -/
theorem canFrames_readReply (hnamed : Named u) (hsilent : u.canFrames = []) :
    (canBusReplyReadUserParas u.logic.userParasLocal.toUserParas u).canFrames =
      canFramesOf (blockMsg 0x91 u.logic.userParasLocal.toUserParas) CAN_FUNC_ID_PARA_DATA
        u.main.localStation := by
  have hsrc : lo u.logic.userParasLocal.stationNo = u.main.localStation := by
    rw [show u.logic.userParasLocal.stationNo = _ from hnamed]
    exact BitVec.setWidth_setWidth_of_le _ (by decide)
  have hlen : (blockMsg 0x91 u.logic.userParasLocal.toUserParas).length ≤ 300 := by
    rw [length_blockMsg]
    decide
  have hsend : canBusReplyReadUserParas u.logic.userParasLocal.toUserParas u =
      canBusSendMsg (blockMsg 0x91 u.logic.userParasLocal.toUserParas) CAN_FUNC_ID_PARA_DATA
        u.main.localStation u := by
    unfold canBusReplyReadUserParas canBusSendParaBlock
    rw [hsrc]
    rfl
  rw [hsend]
  exact canFrames_canBusSendMsg hsilent hlen _ _

end Messages

/-! ## The exchange -/

section Exchange

variable {ι : Type} {start net net' : Network ι} {no : U8}

/-- Two stations of a ready network differ in their numbers. -/
theorem Network.Ready.station_injective (h : start.Ready) {x y : Party ι}
    (heq : (start.station x).main.localStation = (start.station y).main.localStation) : x = y := by
  have hhost : ∀ k, start.host.main.localStation ≠ (start.slave k).main.localStation := by
    intro k hsame
    have hrole : start.host.isHost = (start.slave k).isHost := congrArg (· == 1) hsame
    rw [h.host, h.slave k] at hrole
    cases hrole
  cases x with
  | host =>
      cases y with
      | host => rfl
      | slave k => exact absurd heq (hhost k)
  | slave k =>
      cases y with
      | host => exact absurd heq.symm (hhost k)
      | slave j => exact congrArg Party.slave (h.distinct heq)

/-- A message for another station passes a slave by. -/
theorem passed_by {x : Party ι} {msg : List U8} {k : ι}
    (h : HeardByAll x CAN_FUNC_ID_PARA_DATA no msg net net') (hx : Party.slave k ≠ x)
    (hother : no ≠ (net.slave k).main.localStation) (hslave : (net.slave k).isHost = false) :
    Keeps [.recv, .trace] (net.slave k) (net'.slave k) ∧ (net'.slave k).canFrames = [] := by
  obtain ⟨u, hdispatch, hheard, -⟩ := h.heard (.slave k) hx
  have hu : Keeps [.recv, .trace] (net.slave k) u := hheard.keeps
  rw [dispatch_foreign (hu.localStation.symm ▸ hother) (hu.isHost.trans hslave)] at hdispatch
  have hpass : Keeps [.recv, .trace] (net.slave k) (net'.slave k) := by
    have hsame : net'.slave k = u := hdispatch
    rw [hsame]
    exact hu
  exact ⟨hpass, hpass.canFrames.trans (h.silent (.slave k) hx)⟩

/-- The slave that has the number answers with its parameters. -/
theorem asked_answers {k : ι} (h : HeardByAll .host CAN_FUNC_ID_PARA_DATA no readMsg net net')
    (hnamed : Named (net.slave k)) (hk : (net.slave k).main.localStation = no) :
    Keeps [.recv, .trace, .canQueue] (net.slave k) (net'.slave k) ∧
      (net'.slave k).canFrames =
        canFramesOf (blockMsg 0x91 (net.slave k).logic.userParasLocal.toUserParas)
          CAN_FUNC_ID_PARA_DATA no := by
  obtain ⟨u, hdispatch, hheard, -⟩ := h.heard (.slave k) nofun
  have hu : Keeps [.recv, .trace] (net.slave k) u := hheard.keeps
  have hno : u.main.localStation = no := hu.localStation.trans hk
  have hparas : u.logic.userParasLocal = (net.slave k).logic.userParasLocal :=
    hu.same .paras (by decide)
  have hnamed' : Named u := by
    unfold Named
    rw [hparas, hno, ← hk]
    exact hnamed
  have hquiet : u.canFrames = [] := hu.canFrames.trans (h.silent (.slave k) nofun)
  have hreply : net'.slave k = canBusReplyReadUserParas u.logic.userParasLocal.toUserParas u :=
    hdispatch.trans (dispatch_read hheard hno.symm)
  have hqueue := canFrames_readReply hnamed' hquiet
  have hsend : Keeps [.canQueue] u
      (canBusReplyReadUserParas u.logic.userParasLocal.toUserParas u) :=
    canBusSendParaBlock_keeps _ _ u
  rw [← hreply, hno, hparas] at hqueue
  rw [← hreply] at hsend
  exact ⟨hu.mono.trans hsend.mono, hqueue⟩

/-- The host takes the answer for the server. -/
theorem answer_taken {k : ι} {p : UserParas}
    (h : HeardByAll (.slave k) CAN_FUNC_ID_PARA_DATA no (blockMsg 0x91 p) net net')
    (hhost : net.host.isHost = true) :
    ∃ u, Keeps [.recv, .trace] net.host u ∧
      net'.host = paraReply REPLY_RECV_MSG_READ_PARA_CMD_TYPE p u := by
  obtain ⟨u, hdispatch, hheard, -⟩ := h.heard .host nofun
  have hu : Keeps [.recv, .trace] net.host u := hheard.keeps
  exact ⟨u, hu, hdispatch.trans (dispatch_readReply hheard (hu.isHost.trans hhost))⟩

/-- The request for the parameters of station `no`. -/
def readRequest (no : U8) : Request where
  funcId := CAN_FUNC_ID_PARA_DATA
  no := no
  msg := readMsg
  replyId := CAN_FUNC_ID_PARA_DATA
  reply := fun t => blockMsg 0x91 t.logic.userParasLocal.toUserParas
  answers := fun t => t.main.localStation = no

variable (hready : start.Ready)
include hready

/-- The numbers, and with them the roles, are those of the start. -/
theorem slave_isHost_of_number
    (hnumber : ∀ y, (net.station y).main.localStation = (start.station y).main.localStation)
    (k : ι) : (net.slave k).isHost = false := by
  have hsame : (net.slave k).isHost = (start.slave k).isHost :=
    congrArg (· == 1) (hnumber (.slave k))
  exact hsame.trans (hready.slave k)

/-- What the request leaves alone in every station. -/
theorem readRequest_keeps (hnamed : ∀ k, Named (net.slave k))
    (hnumber : ∀ y, (net.station y).main.localStation = (start.station y).main.localStation)
    (h : HeardByAll .host CAN_FUNC_ID_PARA_DATA no readMsg net net') (y : Party ι) :
    Keeps [.recv, .trace, .canQueue] (net.station y) (net'.station y) := by
  cases y with
  | host => exact h.sender.mono
  | slave k =>
      by_cases hk : (net.slave k).main.localStation = no
      · exact (asked_answers h (hnamed k) hk).1
      · exact (passed_by h nofun (Ne.symm hk) (slave_isHost_of_number hready hnumber k)).1.mono

/-- What the answer leaves alone. -/
theorem readAnswer_keeps {k : ι} {p : UserParas} (hk : no = (start.slave k).main.localStation)
    (hnumber : ∀ y, (net.station y).main.localStation = (start.station y).main.localStation)
    (h : HeardByAll (.slave k) CAN_FUNC_ID_PARA_DATA no (blockMsg 0x91 p) net net')
    (y : Party ι) :
    Keeps [.recv, .trace, .canQueue, .slave, .msgQueue] (net.station y) (net'.station y) ∧
      (net'.station y).canFrames = [] := by
  cases y with
  | host =>
      have hhost : net.host.isHost = start.host.isHost := congrArg (· == 1) (hnumber .host)
      obtain ⟨u, hu, hreply⟩ := answer_taken h (hhost.trans hready.host)
      have hkeeps := paraReply_keeps REPLY_RECV_MSG_READ_PARA_CMD_TYPE p u
      rw [← hreply] at hkeeps
      have hsilent : net.host.canFrames = [] := h.silent .host nofun
      exact ⟨hu.mono.trans hkeeps.mono, (hkeeps.canFrames.trans hu.canFrames).trans hsilent⟩
  | slave j =>
      by_cases hj : j = k
      · rw [hj]
        exact ⟨h.sender.mono, h.sent⟩
      · have hother : no ≠ (net.slave j).main.localStation := by
          have hsame : (net.slave j).main.localStation = (start.slave j).main.localStation :=
            hnumber (.slave j)
          rw [hk, hsame]
          exact fun heq => hj (hready.distinct heq).symm
        obtain ⟨hpass, hsilent⟩ := passed_by h (fun heq => hj (Party.slave.inj heq)) hother
          (slave_isHost_of_number hready hnumber j)
        exact ⟨hpass.mono, hsilent⟩

/-- The station that has the number answers, if there is one. -/
theorem readRequest_heard (hnamed : ∀ k, Named (net.slave k)) (hrunning : ∀ y,
      (net.station y).systemReset = false)
    (hnumber : ∀ y, (net.station y).main.localStation = (start.station y).main.localStation)
    (h : HeardByAll .host CAN_FUNC_ID_PARA_DATA no readMsg net net') :
    (∃ k fs, fs ≠ [] ∧ (net.slave k).main.localStation = no ∧
      Broadcasting (.slave k) CAN_FUNC_ID_PARA_DATA no
        (blockMsg 0x91 (net.slave k).logic.userParasLocal.toUserParas) fs net') ∨
      (net'.Silent ∧ ∀ k, (net.slave k).main.localStation ≠ no) := by
  have hslave := slave_isHost_of_number hready hnumber
  have hrunning' : ∀ y, (net'.station y).systemReset = false := by
    intro y
    have hkeeps := readRequest_keeps hready hnamed hnumber h y
    have hreset : (net'.station y).systemReset = (net.station y).systemReset :=
      hkeeps.same .systemReset (by decide)
    exact hreset.trans (hrunning y)
  by_cases hasked : ∃ k, (net.slave k).main.localStation = no
  · obtain ⟨k, hk⟩ := hasked
    have hqueue : (net'.station (.slave k)).canFrames = _ := (asked_answers h (hnamed k) hk).2
    have hsilent : ∀ y, y ≠ Party.slave k → (net'.station y).canFrames = [] := by
      intro y hy
      cases y with
      | host => exact h.sent
      | slave j =>
          have hother : no ≠ (net.slave j).main.localStation := by
            intro heq
            have hj : (start.slave j).main.localStation = (start.slave k).main.localStation :=
              ((hnumber (.slave j)).symm.trans (heq.symm.trans hk.symm)).trans
                (hnumber (.slave k))
            exact hy (congrArg Party.slave (hready.distinct hj))
          exact (passed_by h nofun hother (hslave j)).2
    have hlen := length_blockMsg 0x91 (net.slave k).logic.userParasLocal.toUserParas
    exact Or.inl ⟨k, _, canFramesOf_ne_nil _ _ _, hk,
      broadcasting_of_queued (by omega) hqueue hsilent hrunning'⟩
  · have hnone : ∀ k, (net.slave k).main.localStation ≠ no := fun k hk => hasked ⟨k, hk⟩
    refine Or.inr ⟨⟨fun y => ?_, hrunning'⟩, hnone⟩
    cases y with
    | host => exact h.sent
    | slave k => exact (passed_by h nofun (hnone k).symm (hslave k)).2

end Exchange

/-! ## The reply to the server -/

/-- The datagram that the host builds next is a reply of this type with the block. -/
structure RepliesAs (type : U16) (p : UserParas) (s : Station) : Prop where
  pending : (step s .sendMessage).msg.tcpSendEn = true
  wellFormed : WellFormed type (step s .sendMessage).toSend
  decodes : DecodesPara p (step s .sendMessage).toSend

theorem repliesAs_read {p : UserParas} {s : Station} (hunsent : s.msg.tcpSendEn = false)
    (htypes : s.msgTypes = [REPLY_RECV_MSG_READ_PARA_CMD_TYPE])
    (hslave : s.logic.userParasSlave = p) (hrunning : s.systemReset = false)
    (hhost : s.isHost = true) (hbelt : p.beltNumber.toNat ≤ 10) :
    RepliesAs REPLY_RECV_MSG_READ_PARA_CMD_TYPE p s := by
  obtain ⟨q, htake⟩ : ∃ q,
      s.msg.msgSendQueue.take = some (REPLY_RECV_MSG_READ_PARA_CMD_TYPE, q) := by
    have hne : s.msg.msgSendQueue.take ≠ none := by
      rw [Ne, RingFifo.take_none_iff]
      intro hempty
      cases htypes.symm.trans hempty
    obtain ⟨⟨x, q⟩, htake⟩ := Option.ne_none_iff_exists'.mp hne
    have hfirst := (RingFifo.contents_take htake).symm.trans htypes
    rw [(List.cons.inj hfirst).1] at htake
    exact ⟨q, htake⟩
  have hstep : step s .sendMessage =
      { sendReplyReadParaCmd { s with msg.msgSendQueue := q } with msg.tcpSendEn := true } := by
    have hsend : step s .sendMessage = sendMessageToServer s :=
      (if_neg (by rw [hrunning]; exact Bool.false_ne_true)).trans (if_pos hhost)
    rw [hsend]
    unfold sendMessageToServer getSendMsgFromQueue
    rw [hunsent, if_neg Bool.false_ne_true, htake]
    rfl
  have hblock : ({ s with msg.msgSendQueue := q } : Station).logic.userParasSlave = p := hslave
  obtain ⟨hwell, hdecodes⟩ := sendReplyParaCmd_decodes REPLY_RECV_MSG_READ_PARA_CMD_TYPE
    (hblock ▸ hbelt)
  rw [hblock] at hdecodes
  exact ⟨by rw [hstep], by rw [hstep]; exact hwell, by rw [hstep]; exact hdecodes⟩

section Run

variable {ι : Type} [DecidableEq ι] {start net : Network ι} {p : Pbuf} {no : U8}

/-- What handling the request leaves alone. -/
theorem afterRequest_keeps (hready : start.Ready) (hreq : ReadRequest p no) (m : U16)
    (env : UdpEnv) (y : Party ι) :
    Keeps [.slave, .msgQueue, .trace, .canQueue, .link] (start.station y)
      ((afterRequest start p m env).station y) := by
  cases y with
  | host =>
      obtain ⟨u, hku, hkt, -⟩ := afterRequest_read hready hreq m env
      exact (hku.mono.trans (recvReadPara_keeps no u).mono).trans hkt.mono
  | slave k => exact Keeps.refl _

theorem afterRequest_running (hready : start.Ready) (hreq : ReadRequest p no) (m : U16)
    (env : UdpEnv) (y : Party ι) :
    ((afterRequest start p m env).station y).systemReset = false := by
  have hkeeps := afterRequest_keeps hready hreq m env y
  have hreset : ((afterRequest start p m env).station y).systemReset =
      (start.station y).systemReset := hkeeps.same .systemReset (by decide)
  rw [hreset]
  cases y with
  | host => exact hready.host_running
  | slave k => exact hready.slave_running k

/-- The host's own number: it replies at once, and the line stays silent. -/
theorem readRequest_own (hready : start.Ready) (hreq : ReadRequest p no) (m : U16) (env : UdpEnv)
    (hown : start.host.main.localStation = no) :
    (afterRequest start p m env).Silent ∧
      (afterRequest start p m env).host.msgTypes = [REPLY_RECV_MSG_READ_PARA_CMD_TYPE] ∧
      (afterRequest start p m env).host.logic.userParasSlave =
        start.host.logic.userParasLocal.toUserParas := by
  obtain ⟨u, hku, hkt, -⟩ := afterRequest_read hready hreq m env
  have hno : u.main.localStation = no := hku.localStation.trans hown
  have hparas : u.logic.userParasLocal = start.host.logic.userParasLocal :=
    hku.same .paras (by decide)
  have hlocal : recvReadPara no u = paraReply REPLY_RECV_MSG_READ_PARA_CMD_TYPE
      u.logic.userParasLocal.toUserParas u := if_pos hno.symm
  rw [hlocal, hparas] at hkt
  have hkp := paraReply_keeps REPLY_RECV_MSG_READ_PARA_CMD_TYPE
    start.host.logic.userParasLocal.toUserParas u
  have hnone : u.msg.msgSendQueue.contents = [] := hku.msgTypes.trans hready.types
  have hadd := RingFifo.contents_add_eq u.msg.msgSendQueue REPLY_RECV_MSG_READ_PARA_CMD_TYPE
  rw [hnone] at hadd
  refine ⟨⟨fun y => ?_, afterRequest_running hready hreq m env⟩, hkt.msgTypes.trans hadd,
    hkt.same .slave (by decide)⟩
  cases y with
  | host => exact (hkt.canFrames.trans (hkp.canFrames.trans hku.canFrames)).trans hready.drained.1
  | slave k => exact hready.drained.2 k

/-- Any other number: the request goes on the bus. -/
theorem readRequest_remote (hready : start.Ready) (hreq : ReadRequest p no) (m : U16)
    (env : UdpEnv) (hother : start.host.main.localStation ≠ no) :
    Broadcasting .host CAN_FUNC_ID_PARA_DATA no readMsg
        (canFramesOf readMsg CAN_FUNC_ID_PARA_DATA no) (afterRequest start p m env) ∧
      (afterRequest start p m env).host.msgTypes = [] := by
  obtain ⟨u, hku, hkt, -⟩ := afterRequest_read hready hreq m env
  have hremote : recvReadPara no u = canBusSendMsg readMsg CAN_FUNC_ID_PARA_DATA no u := by
    refine if_neg fun heq => hother ?_
    exact hku.localStation.symm.trans heq.symm
  rw [hremote] at hkt
  have hk := canBusSendMsg_keeps readMsg CAN_FUNC_ID_PARA_DATA no u
  have hqueue : ((afterRequest start p m env).station .host).canFrames =
      canFramesOf readMsg CAN_FUNC_ID_PARA_DATA no :=
    hkt.canFrames.trans (canFrames_canBusSendMsg (hku.canFrames.trans hready.drained.1)
      (by decide) _ _)
  have hsilent : ∀ y, y ≠ Party.host → ((afterRequest start p m env).station y).canFrames = [] := by
    intro y hy
    cases y with
    | host => exact absurd rfl hy
    | slave k => exact hready.drained.2 k
  exact ⟨broadcasting_of_queued (by decide) hqueue hsilent (afterRequest_running hready hreq m env),
    (hkt.msgTypes.trans hk.msgTypes).trans (hku.msgTypes.trans hready.types)⟩

theorem paraData_passes :
    CAN_FUNC_ID_PARA_DATA < 16 ∧ CAN_FUNC_ID_PARA_DATA ≠ CAN_FUNC_ID_BOOT_MODE := by
  decide

/-- The stations keep to the request. -/
theorem readRequest_served (hready : start.Ready) (hnamed : ∀ k, Named (start.slave k))
    (hreq : ReadRequest p no) (m : U16) (env : UdpEnv) :
    (readRequest no).Served offTrafficParts (afterRequest start p m env) where
  offBus := ⟨by decide, by decide, by decide⟩
  passes := paraData_passes
  replyPasses := paraData_passes
  heard := by
    intro net net' hbeside hheard
    have hkeeps : ∀ y, Keeps (.slave :: .msgQueue :: .link :: .recv :: .canQueue ::
        offTrafficParts) (start.station y) (net.station y) :=
      fun y => (afterRequest_keeps hready hreq m env y).mono.trans (hbeside y).mono
    have hnamed' : ∀ k, Named (net.slave k) := by
      intro k
      have hparas : (net.slave k).logic.userParasLocal = (start.slave k).logic.userParasLocal :=
        (hkeeps (.slave k)).same .paras (by decide)
      have hno : (net.slave k).main.localStation = (start.slave k).main.localStation :=
        (hkeeps (.slave k)).localStation
      unfold Named
      rw [hparas, hno]
      exact hnamed k
    exact readRequest_heard hready hnamed' hheard.running (fun y => (hkeeps y).localStation) hheard
  told := by
    intro net net' k t hnumber hsame hanswers hheard
    have hstart : ∀ y, (net.station y).main.localStation = (start.station y).main.localStation :=
      fun y => (hnumber y).trans (afterRequest_keeps hready hreq m env y).localStation
    have hkeeps := readAnswer_keeps hready (hanswers.symm.trans hsame) hstart hheard
    refine ⟨fun y => (hkeeps y).2, fun y => ?_⟩
    have hreset : (net'.station y).systemReset = (net.station y).systemReset :=
      (hkeeps y).1.same .systemReset (by decide)
    exact hreset.trans (hheard.running y)

/-- Nobody is written, and nothing else is queued for the server, on the way. -/
@[reducible] def readParts : List Part :=
  .slave :: .msgQueue :: .recv :: .canQueue :: offTrafficParts

/-- What holds of the host when the request is over: it has the parameters of the station that has
the number, or nothing if there is none. -/
structure ReadEnd (start : Network ι) (no : U8) (host : Station) : Prop where
  answered : ∀ y, (start.station y).main.localStation = no →
    host.msgTypes = [REPLY_RECV_MSG_READ_PARA_CMD_TYPE] ∧
      host.logic.userParasSlave = (start.station y).logic.userParasLocal.toUserParas
  lost : (∀ y, (start.station y).main.localStation ≠ no) → host.msgTypes = []

/-- The state of a request for another number in any run. -/
theorem readRequest_phase {asked : Network ι} {n : Nat} {past : List (Network ι × NetInput ι)}
    (hready : start.Ready) (hnamed : ∀ k, Named (start.slave k))
    (hasked : ∀ y, Keeps [.slave, .msgQueue, .trace, .canQueue, .link] (start.station y)
      (asked.station y)) (htypes : asked.host.msgTypes = [])
    (hother : start.host.main.localStation ≠ no)
    (h : (readRequest no).Phase offTrafficParts asked past net n) :
    (∀ y, Keeps readParts (asked.station y) (net.station y)) ∧
      (n = 0 → ReadEnd start no net.host) := by
  have hnumbers : ∀ {net' : Network ι},
      (∀ y, Keeps readParts (asked.station y) (net'.station y)) → ∀ y,
        (net'.station y).main.localStation = (start.station y).main.localStation :=
    fun hkeeps y => (hkeeps y).localStation.trans (hasked y).localStation
  have hparas : ∀ {net' : Network ι},
      (∀ y, Keeps readParts (asked.station y) (net'.station y)) → ∀ y,
        (net'.station y).logic.userParasLocal = (start.station y).logic.userParasLocal := by
    intro net' hkeeps y
    have hfirst : (asked.station y).logic.userParasLocal = (start.station y).logic.userParasLocal :=
      (hasked y).same .paras (by decide)
    have hthen : (net'.station y).logic.userParasLocal = (asked.station y).logic.userParasLocal :=
      (hkeeps y).same .paras (by decide)
    exact hthen.trans hfirst
  -- the step in which all have heard the request
  have hheard : ∀ {e : Network ι × NetInput ι}, (readRequest no).Asked offTrafficParts asked e →
      (∀ y, Keeps readParts (asked.station y) (e.1.station y)) ∧
        (∀ y, Keeps [.recv, .trace, .canQueue] (e.1.station y) ((e.1.step e.2).station y)) ∧
        (e.1.step e.2).host.msgTypes = [] := by
    intro e he
    have hbefore : ∀ y, Keeps readParts (asked.station y) (e.1.station y) :=
      fun y => (he.beside y).mono
    have hnamed' : ∀ k, Named (e.1.slave k) := by
      intro k
      have hsame : (e.1.slave k).logic.userParasLocal = _ := hparas hbefore (.slave k)
      have hno : (e.1.slave k).main.localStation = _ := hnumbers hbefore (.slave k)
      unfold Named
      rw [hsame, hno]
      exact hnamed k
    have hstep := readRequest_keeps hready hnamed' (hnumbers hbefore) he.heard
    have hhost : (e.1.step e.2).host.msgTypes = e.1.host.msgTypes := (hstep .host).msgTypes
    have hnone : e.1.host.msgTypes = asked.host.msgTypes := (he.beside .host).msgTypes
    exact ⟨hbefore, hstep, hhost.trans (hnone.trans htypes)⟩
  cases h with
  | asked more bus beside => exact ⟨fun y => (beside y).mono, nofun⟩
  | @answered _ k e before between split heard answers more bus beside =>
      obtain ⟨hbefore, hstep, -⟩ := hheard heard
      exact ⟨fun y => ((hbefore y).trans (hstep y).mono).trans (beside y).mono, nofun⟩
  | @told k e e' before between behind split heard answers beside hears silent since =>
      obtain ⟨hbefore, hstep, hnone⟩ := hheard heard
      have hthere : ∀ y, Keeps readParts (asked.station y) (e'.1.station y) :=
        fun y => ((hbefore y).trans (hstep y).mono).trans (beside y).mono
      have hk : (start.slave k).main.localStation = no :=
        (hnumbers hbefore (.slave k)).symm.trans answers
      have hanswer := readAnswer_keeps hready hk.symm (hnumbers hthere) hears
      have hhost : e'.1.host.isHost = start.host.isHost :=
        congrArg (· == 1) (hnumbers hthere .host)
      obtain ⟨u, hu, hreply⟩ := answer_taken hears (hhost.trans hready.host)
      have hqueue : u.msg.msgSendQueue.contents = [] :=
        hu.msgTypes.trans ((beside .host).msgTypes.trans hnone)
      have hadd := RingFifo.contents_add_eq u.msg.msgSendQueue REPLY_RECV_MSG_READ_PARA_CMD_TYPE
      rw [hqueue] at hadd
      have hblock : (e'.1.step e'.2).host.logic.userParasSlave =
          (start.slave k).logic.userParasLocal.toUserParas := by
        rw [hreply]
        exact congrArg LocalParas.toUserParas (hparas hbefore (.slave k))
      have hkept : net.host.logic.userParasSlave = (e'.1.step e'.2).host.logic.userParasSlave :=
        (since .host).same .slave (by decide)
      have htypes' : (e'.1.step e'.2).host.msgTypes = [REPLY_RECV_MSG_READ_PARA_CMD_TYPE] := by
        rw [hreply]
        exact hadd
      refine ⟨fun y => ((hthere y).trans (hanswer y).1.mono).trans (since y).mono,
        fun _ => ⟨fun y hy => ?_, fun hnobody => absurd hk (hnobody (.slave k))⟩⟩
      have hsame : y = .slave k := hready.station_injective (hy.trans hk.symm)
      rw [hsame]
      exact ⟨(since .host).msgTypes.trans htypes', hkept.trans hblock⟩
  | @lost e before behind split heard none silent since =>
      obtain ⟨hbefore, hstep, hnone⟩ := hheard heard
      refine ⟨fun y => ((hbefore y).trans (hstep y).mono).trans (since y).mono,
        fun _ => ⟨fun y hy => ?_, fun _ => (since .host).msgTypes.trans hnone⟩⟩
      cases y with
      | host => exact absurd hy hother
      | slave k => exact absurd ((hnumbers hbefore (.slave k)).trans hy) (none k)

/-- **A parameter read, end to end.**  The host handles a datagram that asks for the parameters of
station `no`, and nothing else happens on the bus or on the server link.  Nobody is written.  When
no frame is left behind, the host replies with the parameters of the station that has the number,
and with nothing if nobody has it; and wherever the exchange is, it can be brought to such an end.
The host's own parameters need no frame at all. -/
theorem parameter_read
    (hstart : Reach Network.Initial Network.step (fun _ _ => True) start) (hready : start.Ready)
    (hreq : ReadRequest p no) (m : U16) (env : UdpEnv)
    (hrun : Reach (· = afterRequest start p m env) Network.step Network.Quietly net) :
    (∀ y, Unwritten (start.station y) (net.station y)) ∧
      (net.Drained →
        (∀ y, (start.station y).main.localStation = no →
          RepliesAs REPLY_RECV_MSG_READ_PARA_CMD_TYPE
            (start.station y).logic.userParasLocal.toUserParas net.host) ∧
        ((∀ y, (start.station y).main.localStation ≠ no) → net.host.msgTypes = [])) ∧
      (∃ xs, Along Network.step Network.Quietly net xs ∧ (run Network.step net xs).Drained) ∧
      (start.host.main.localStation = no → net.Drained) := by
  obtain ⟨numbers, htalk⟩ := talk_reach hstart
  have hnamed : ∀ k, Named (start.slave k) := fun k => (htalk.slave k).named
  have hafter := afterRequest_keeps hready hreq m env
  obtain ⟨u, hku, hkt, hunsent⟩ := afterRequest_read hready hreq m env
  rw [Network.quietly_eq] at hrun ⊢
  obtain ⟨hkeeps, hend, hends, hown⟩ :
      (∀ y, Keeps readParts ((afterRequest start p m env).station y) (net.station y)) ∧
        (net.Drained → ReadEnd start no net.host) ∧
        (∃ xs, Along Network.step (Network.Calmly offTrafficParts) net xs ∧
          (run Network.step net xs).Drained) ∧
        (start.host.main.localStation = no → net.Drained) := by
    by_cases hown : start.host.main.localStation = no
    · obtain ⟨hsilent, htypes, hblock⟩ := readRequest_own hready hreq m env hown
      obtain ⟨hstill, hkeeps⟩ := hsilent.reach ⟨by decide, by decide, by decide⟩ hrun
      have hkept : net.host.logic.userParasSlave =
          (afterRequest start p m env).host.logic.userParasSlave :=
        (hkeeps .host).same .slave (by decide)
      refine ⟨fun y => (hkeeps y).mono, fun _ => ⟨fun y hy => ?_,
        fun hnobody => absurd hown (hnobody .host)⟩, ⟨[], trivial, hstill.drained⟩,
        fun _ => hstill.drained⟩
      have hsame : y = .host := hready.station_injective (hy.trans hown.symm)
      rw [hsame]
      exact ⟨(hkeeps .host).msgTypes.trans htypes, hkept.trans hblock⟩
    · obtain ⟨hbus, htypes⟩ := readRequest_remote hready hreq m env hown
      have hserved := readRequest_served hready hnamed hreq m env
      obtain ⟨past, htrail⟩ := hrun.trail
      obtain ⟨n, hphase⟩ := Request.phase_of_trail hserved hbus (canFramesOf_ne_nil _ _ _)
        htrail
      obtain ⟨hkeeps, hover⟩ := readRequest_phase hready hnamed hafter htypes hown hphase
      exact ⟨hkeeps, fun hdrained => hover (hphase.over hdrained),
        hphase.ends hserved fun y => (hkeeps y).localStation, fun heq => absurd heq hown⟩
  have hall : ∀ y, Keeps (.link :: readParts) (start.station y) (net.station y) :=
    fun y => (hafter y).mono.trans (hkeeps y).mono
  refine ⟨fun y => (Unwritten.refl _).of_keeps (hall y), fun hdrained => ?_, hends, hown⟩
  obtain ⟨hanswered, hlost⟩ := hend hdrained
  refine ⟨fun y hy => ?_, hlost⟩
  obtain ⟨htypes, hblock⟩ := hanswered y hy
  have hhost : net.host.isHost = start.host.isHost := (hall .host).isHost
  have hreset : net.host.systemReset = start.host.systemReset :=
    (hall .host).same .systemReset (by decide)
  exact repliesAs_read ((tcpSendEn_of_keeps (hkeeps .host)).trans hunsent) htypes hblock
    (hreset.trans hready.host_running) (hhost.trans hready.host)
    (start.station y).logic.userParasLocal.belt_le

end Run

/-! ## Asking station 2 -/

/-- A datagram that asks for the parameters of station 2. -/
def readSlaveParas : Pbuf :=
  { segments := [[0xAA, 0xAA, 0x01, 0x00, 0x00, 0x00, 0x0C, 0x00, 0x17, 0x03, 0x16, 0x02]]
    behind := fun _ => 0 }

theorem readSlaveParas_request : ReadRequest readSlaveParas 2 :=
  ⟨by decide +kernel, by decide +kernel, by decide +kernel, by decide +kernel⟩

/-- A host, and slave 2 with three belts. -/
def bootedBelts : Network (Fin 1) :=
  { twoStations with slave := fun _ => boot threeBeltFlash 2 }

/-- The same with the host linked to the server. -/
def beltStations : Network (Fin 1) :=
  { linkedStations with slave := fun _ => boot threeBeltFlash 2 }

theorem beltStations_ready : beltStations.Ready := by
  have hno : ∀ k, (beltStations.slave k).main.localStation = 2 := fun _ => boot_localStation _ _
  have hslave : ∀ k, (beltStations.slave k).isHost = false := by
    intro k
    show ((beltStations.slave k).main.localStation == 1) = false
    rw [hno]
    decide
  exact { linkedStations_ready with
    slave := hslave
    distinct := fun _ _ _ => Subsingleton.elim _ _
    slave_running := fun _ => boot_systemReset _ _
    drained := ⟨linkedStations_ready.drained.1, fun _ => boot_canFrames _ _⟩ }

theorem beltStations_reach :
    Reach Network.Initial Network.step (fun _ _ => True) beltStations := by
  have hinit : bootedBelts.Initial :=
    ⟨twoStations_initial.1, fun _ => ⟨⟨_, _, rfl⟩, beltStations_ready.slave 0⟩⟩
  have hlinked : run Network.step bootedBelts
      [.host ⟨.udpClient linkUp, trivial⟩, .host ⟨.udpClient linkUp, trivial⟩] =
        beltStations := rfl
  rw [← hlinked]
  exact (Reach.start hinit).run_of_along (Along.of_forall (fun _ _ => trivial) _ _)

/-- What slave 2 has in its parameters. -/
def beltBlock : UserParas := (boot threeBeltFlash 2).logic.userParasLocal.toUserParas

/-- The host comes to reply with the three belts of the slave and their speeds. -/
theorem slave_read :
    beltBlock.stationNo = 2 ∧ beltBlock.beltNumber = 3 ∧
      (List.range 3).map (fun i => (beltBlock.beltPara.get i).gear2SpeedFreq) = [100, 200, 300] ∧
      ∃ net : Network (Fin 1),
        (∀ y, Unwritten (beltStations.station y) (net.station y)) ∧
          RepliesAs REPLY_RECV_MSG_READ_PARA_CMD_TYPE beltBlock net.host := by
  have hstart : Reach (· = afterRequest beltStations readSlaveParas 0 linkUp) Network.step
      Network.Quietly (afterRequest beltStations readSlaveParas 0 linkUp) := Reach.start rfl
  obtain ⟨-, -, ⟨xs, halong, hdrained⟩, -⟩ := parameter_read beltStations_reach
    beltStations_ready readSlaveParas_request 0 linkUp hstart
  obtain ⟨hunwritten, hend, -, -⟩ := parameter_read beltStations_reach beltStations_ready
    readSlaveParas_request 0 linkUp (hstart.run_of_along halong)
  refine ⟨by decide +kernel, by decide +kernel, by decide +kernel, _, hunwritten, ?_⟩
  exact (hend hdrained).1 (.slave 0) (boot_localStation _ _)

end IotCtrl
