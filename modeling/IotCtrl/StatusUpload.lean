import IotCtrl.AutoStart
import IotCtrl.ParaReply
import IotCtrl.UdpFrames

/-!
# The upload of module states

A module state waits in a ring of its own, is taken out into the one send buffer, and is
handed to the network by a later call of `udp_client_process`.  `UploadBooks` records,
from the moment the connection exists, the states accepted into the ring, those taken
out, and the datagrams handed to `udp_send`.

* `Delivered` — what holds in every state of a run;
* `uploads_delivered` — as long as `pbuf_alloc` serves every call that is to send a module
  state, those taken out are handed over exactly once and in the order accepted;
* `queued_states_ofBytes` — the station number of a queued state fits its datagram;
* `failed_allocation_loses_state` — one failure, and a state is gone.
-/

namespace IotCtrl

open ByteMemory Transition ClosedFacts

/-! ## The books -/

def Event.sent : Event → Option (List U8)
  | .udpSent datagram => some datagram
  | _ => none

/-- The datagrams handed to `udp_send` on the way from `s` to `t`, oldest first. -/
def sentBetween (s t : Station) : List (List U8) :=
  (newEvents s t).reverse.filterMap Event.sent

/-- The module states that wait, oldest first. -/
def Station.moduleStates (s : Station) : List ModuleStatus := s.logic.moduleStatusQueue.contents

/-- The datagram that waits in the send buffer. -/
def Station.outgoing (s : Station) : List (List U8) := if s.msg.tcpSendEn then [s.toSend] else []

/-- A datagram with the message type of a module state. -/
def IsStatus (datagram : List U8) : Prop :=
  le16 (datagram.getD 9 0) (datagram.getD 10 0) = SEND_MSG_MODULE_STATUS_TYPE

instance : DecidablePred IsStatus := fun _ => inferInstanceAs (Decidable (_ = _))

/-- The datagram of a module state. -/
abbrev ModuleStatus.datagram (m : ModuleStatus) : List U8 :=
  moduleStatusDatagram SEND_MSG_MODULE_STATUS_TYPE m

structure UploadBooks where
  accepted : List ModuleStatus
  taken : List ModuleStatus
  sent : List (List U8)

/-- The books after a step.  They are opened when the connection is made, with the states
that wait then.  Only `send_message_to_server` takes states out; every other input may
add some at the end. -/
def UploadBooks.observe (b : UploadBooks) (s : Station) (i : Input) : UploadBooks :=
  let t := step s i
  if t.msg.connectIsOk = false then
    { accepted := t.moduleStates
      taken := []
      sent := [] }
  else
    { accepted :=
        match i with
        | .sendMessage => b.accepted
        | _ => b.accepted ++ t.moduleStates.drop s.moduleStates.length
      taken :=
        match i with
        | .sendMessage =>
            b.taken ++ s.moduleStates.take (s.moduleStates.length - t.moduleStates.length)
        | _ => b.taken
      sent := b.sent ++ sentBetween s t }

/-- A station with its books. -/
abbrev Uploading := Station × UploadBooks

def uploadStep (p : Uploading) (i : Input) : Uploading := (step p.1 i, p.2.observe p.1 i)

def UploadStart (p : Uploading) : Prop :=
  Booted p.1 ∧ p.2 = { accepted := [], taken := [], sent := [] }

/-- The datagram received is a boot command, behind which nothing is sent any more. -/
def IsBootCmd (s : Station) : Prop :=
  recvMsgCheck s.msg.tcpRecvBuf s.msg.tcpRecvLen.toNat = true ∧
    msgType s.msg.tcpRecvBuf = RECV_MSG_BOOT_CMD_TYPE

instance (s : Station) : Decidable (IsBootCmd s) := inferInstanceAs (Decidable (_ ∧ _))

/-- `udp_client_process` is to send the datagram in the send buffer: the connection
exists, and the message that may come first is no boot command. -/
def IsToSend (s : Station) : Prop :=
  s.systemReset = false ∧ s.isHost = true ∧ s.msg.connectIsOk = true ∧ s.msg.tcpSendEn = true ∧
    (s.msg.tcpClientStatue = .connectOk ∨
      s.msg.tcpClientStatue = .connectRecv ∧ ¬ IsBootCmd s)

instance (s : Station) : Decidable (IsToSend s) := inferInstanceAs (Decidable (_ ∧ _))

/-- `pbuf_alloc` fails for a datagram with a module state. -/
def LosesStatus (s : Station) : Input → Prop
  | .udpClient env => env.pbufAllocated = false ∧ IsToSend s ∧ IsStatus s.toSend
  | _ => False

instance (s : Station) : ∀ i, Decidable (LosesStatus s i)
  | .udpClient _ => inferInstanceAs (Decidable (_ ∧ _))
  | .timeUpdate _ | .usart1Irq _ | .canFrame _ | .udpReceive _ _ | .sendMessage | .secProcess _
  | .modbusComm _ | .canSend _ | .resetStart | .upstreamIo | .uploadRunState
  | .msoneProcess _ => isFalse id

/-! ## What a step sends -/

/-- The way from `s` to `t` hands these datagrams to `udp_send`. -/
def Sends (ds : List (List U8)) (s t : Station) : Prop :=
  ∃ es, t.trace = es ++ s.trace ∧ es.reverse.filterMap Event.sent = ds

namespace Sends

variable {ds ds' : List (List U8)} {s t u : Station}

theorem sentBetween (h : Sends ds s t) : sentBetween s t = ds := by
  obtain ⟨es, htrace, hsent⟩ := h
  unfold IotCtrl.sentBetween
  rw [newEvents_of_append htrace, hsent]

theorem of_touches {ps : List Part} {ks : List EventKind} (h : Touches ps ks s t)
    [hk : Evident (.udpSent ∉ ks)] : Sends [] s t := by
  obtain ⟨es, htrace, hkinds⟩ := h.logs
  refine ⟨es, htrace, List.filterMap_eq_nil_iff.mpr fun e he => ?_⟩
  have hkind := hkinds e (List.mem_reverse.mp he)
  cases e <;> first | rfl | exact absurd hkind hk.out

theorem of_trace (h : t.trace = s.trace) : Sends [] s t := ⟨[], h, rfl⟩

theorem trans (h : Sends ds s t) (h' : Sends ds' t u) : Sends (ds ++ ds') s u := by
  obtain ⟨es, htrace, hsent⟩ := h
  obtain ⟨es', htrace', hsent'⟩ := h'
  refine ⟨es' ++ es, ?_, ?_⟩
  · rw [htrace', htrace, List.append_assoc]
  · rw [List.reverse_append, List.filterMap_append, hsent, hsent']

end Sends

/-- Send buffer, length and flag, and the connection, are the same. -/
structure SameOutbox (s t : Station) : Prop where
  buf : t.msg.tcpSendBuf = s.msg.tcpSendBuf
  len : t.msg.tcpSendLen = s.msg.tcpSendLen
  pending : t.msg.tcpSendEn = s.msg.tcpSendEn
  connected : t.msg.connectIsOk = s.msg.connectIsOk

namespace SameOutbox

variable {s t u : Station}

theorem refl (s : Station) : SameOutbox s s := ⟨rfl, rfl, rfl, rfl⟩

theorem trans (h : SameOutbox s t) (h' : SameOutbox t u) : SameOutbox s u :=
  ⟨h'.buf.trans h.buf, h'.len.trans h.len, h'.pending.trans h.pending,
    h'.connected.trans h.connected⟩

theorem of_keeps {ps : List Part} (h : Keeps ps s t) [hp : Evident (.link ∉ ps)] :
    SameOutbox s t := by
  have hlink : { t.msg with msgSendQueue := s.msg.msgSendQueue } = s.msg := h.same .link hp.out
  have hbuf := congrArg MsgVars.tcpSendBuf hlink
  have hlen := congrArg MsgVars.tcpSendLen hlink
  have hpending := congrArg MsgVars.tcpSendEn hlink
  have hconnected := congrArg MsgVars.connectIsOk hlink
  exact ⟨hbuf, hlen, hpending, hconnected⟩

theorem outgoing (h : SameOutbox s t) : t.outgoing = s.outgoing := by
  unfold Station.outgoing Station.toSend
  rw [h.buf, h.len, h.pending]

end SameOutbox

/-! ## Taking a state out -/

theorem length_moduleStatusDatagram (type : U16) (m : ModuleStatus) :
    (moduleStatusDatagram type m).length = 14 + 10 * m.inverterStatus.length := by
  have hbody := length_statusBody m
  unfold statusBody at hbody
  unfold moduleStatusDatagram
  dsimp only
  rw [List.length_append, hbody]
  show 11 + (3 + 10 * m.inverterStatus.length) = _
  omega

theorem moduleStatus_isStatus (m : ModuleStatus) : IsStatus m.datagram :=
  le16_lo_hi _

theorem reply_not_isStatus {type : U16} (h : type ∈ replyTypes) (p : UserParas) :
    ¬ IsStatus (replyParaDatagram type p) := by
  intro hstatus
  have htype : type = SEND_MSG_MODULE_STATUS_TYPE := (le16_lo_hi type).symm.trans hstatus
  rw [htype] at h
  exact absurd h (by decide)

theorem length_replyParaDatagram (type : U16) (p : UserParas) :
    (replyParaDatagram type p).length < 2 ^ 16 := by
  unfold replyParaDatagram
  dsimp only
  rw [List.length_append, length_read]
  show 11 + ((11 + 12 + 22 * p.beltNumber : U16).toNat - 11) < 2 ^ 16
  omega

/-- What is taken out of the ring on the way from `s` to `t` is what `t` is to send. -/
def TakesOut (s t : Station) : Prop :=
  t.msg.connectIsOk = s.msg.connectIsOk ∧
    ∃ ms, s.moduleStates = ms ++ t.moduleStates ∧
      t.outgoing.filter IsStatus = ms.map ModuleStatus.datagram

/-- Nothing is taken out, and nothing is to be sent. -/
theorem TakesOut.nothing {s t : Station} (hstates : t.moduleStates = s.moduleStates)
    (hconnected : t.msg.connectIsOk = s.msg.connectIsOk) (hidle : t.msg.tcpSendEn = false) :
    TakesOut s t := by
  refine ⟨hconnected, [], hstates.symm, ?_⟩
  unfold Station.outgoing
  rw [hidle]
  rfl

theorem sendReplyParaCmd_takesOut {type : U16} (htype : type ∈ replyTypes) (s : Station) :
    TakesOut s { sendReplyParaCmd type s with msg.tcpSendEn := true } := by
  refine ⟨rfl, [], rfl, ?_⟩
  have hsend : (sendReplyParaCmd type s).toSend = replyParaDatagram type s.logic.userParasSlave :=
    setSendBuf_toSend (length_replyParaDatagram _ _) s
  show [(sendReplyParaCmd type s).toSend].filter IsStatus = []
  rw [hsend, List.filter_singleton]
  simp [reply_not_isStatus htype]

theorem sendMsgModuleStatusCmd_takesOut {s : Station} (hidle : s.msg.tcpSendEn = false)
    (hsize : ∀ m ∈ s.moduleStates, m.inverterStatus.length ≤ 255) :
    let t := sendMsgModuleStatusCmd SEND_MSG_MODULE_STATUS_TYPE s
    TakesOut s (if t.msg.tcpSendLen ≠ 0 then { t with msg.tcpSendEn := true } else t) := by
  unfold sendMsgModuleStatusCmd getModuleStatusDataFromQueue
  cases htake : s.logic.moduleStatusQueue.take with
  | none =>
      dsimp only [Option.map_none]
      rw [if_neg (by simp)]
      exact TakesOut.nothing rfl rfl hidle
  | some p =>
      obtain ⟨m, q⟩ := p
      have hcontents : s.moduleStates = m :: q.contents := RingFifo.contents_take htake
      have hlength : m.datagram.length = 14 + 10 * m.inverterStatus.length :=
        length_moduleStatusDatagram _ m
      have hm := hsize m (hcontents ▸ List.mem_cons_self)
      dsimp only [Option.map_some]
      generalize hu : ({ s with logic.moduleStatusQueue := q } : Station) = u
      have hlen : (setSendBuf m.datagram u).msg.tcpSendLen ≠ 0 := by
        show BitVec.ofNat 16 m.datagram.length ≠ 0
        bv_omega
      have hsend : (setSendBuf m.datagram u).toSend = m.datagram :=
        setSendBuf_toSend (by omega) u
      rw [if_pos hlen]
      refine ⟨?_, [m], ?_, ?_⟩
      · subst hu
        rfl
      · subst hu
        exact hcontents
      · show [(setSendBuf m.datagram u).toSend].filter IsStatus = [m.datagram]
        rw [hsend, List.filter_singleton]
        simp [moduleStatus_isStatus]

/-- **Taking out.**  What `send_message_to_server` takes out of the ring is in the send
buffer. -/
theorem sendMessageToServer_takesOut {s : Station} (hidle : s.msg.tcpSendEn = false)
    (hsize : ∀ m ∈ s.moduleStates, m.inverterStatus.length ≤ 255) :
    TakesOut s (sendMessageToServer s) := by
  have hk := getSendMsgFromQueue_keeps s
  unfold sendMessageToServer
  rw [if_neg (by simp [hidle])]
  generalize getSendMsgFromQueue s = r at hk ⊢
  obtain ⟨type, u⟩ := r
  have hbox := SameOutbox.of_keeps hk
  have hstates : u.moduleStates = s.moduleStates :=
    congrArg RingFifo.contents (hk.same .moduleQueue (by decide))
  have hfrom : ∀ t, TakesOut u t → TakesOut s t := by
    intro t ht
    unfold TakesOut at ht ⊢
    rw [← hstates, ← hbox.connected]
    exact ht
  dsimp only
  by_cases hstatus : type = SEND_MSG_MODULE_STATUS_TYPE
  · rw [if_pos hstatus]
    subst hstatus
    refine hfrom _ (sendMsgModuleStatusCmd_takesOut (hbox.pending.trans hidle) ?_)
    rw [hstates]
    exact hsize
  rw [if_neg hstatus]
  split_ifs with hread hwrite
  · exact hfrom _ (sendReplyParaCmd_takesOut (by decide) u)
  · exact hfrom _ (sendReplyParaCmd_takesOut (by decide) u)
  · exact TakesOut.nothing hstates hbox.connected (hbox.pending.trans hidle)

/-! ## Adding states -/

/-- A state as the receiver builds it: the station number and the count of the records
were bytes. -/
structure ModuleStatus.OfBytes (m : ModuleStatus) : Prop where
  station : m.stationNo.toNat < 256
  size : m.inverterStatus.length ≤ 255

/-- States were added at the end at most, each built of bytes. -/
def Appends (s t : Station) : Prop :=
  ∃ ms, t.moduleStates = s.moduleStates ++ ms ∧ ∀ m ∈ ms, m.OfBytes

namespace Appends

variable {s t u : Station}

theorem of_same (h : t.moduleStates = s.moduleStates) : Appends s t :=
  ⟨[], by rw [h, List.append_nil], by simp⟩

theorem refl (s : Station) : Appends s s := of_same rfl

theorem trans (h : Appends s t) (h' : Appends t u) : Appends s u := by
  obtain ⟨ms, hms, hsize⟩ := h
  obtain ⟨ms', hms', hsize'⟩ := h'
  refine ⟨ms ++ ms', ?_, ?_⟩
  · rw [hms', hms, List.append_assoc]
  · intro m hm
    exact (List.mem_append.mp hm).elim (hsize m) (hsize' m)

/-- `trans` with the later half first, which fixes the state in between. -/
theorem after (h' : Appends t u) (h : Appends s t) : Appends s u := h.trans h'

theorem of_keeps {ps : List Part} (h : Keeps ps s t) [hp : Evident (.moduleQueue ∉ ps)] :
    Appends s t :=
  of_same (congrArg RingFifo.contents (h.same .moduleQueue hp.out))

theorem add {m : ModuleStatus} (hm : m.OfBytes) (s : Station) :
    Appends s (addModuleStatusData2Queue m s) := by
  by_cases hfull : s.logic.moduleStatusQueue.IsFull
  · refine of_same ?_
    show (s.logic.moduleStatusQueue.add m).contents = _
    rw [RingFifo.add_of_full hfull]
    rfl
  · exact ⟨[m], RingFifo.contents_add hfull m, by simpa using hm⟩

end Appends

theorem halfSecHandle_appends (s : Station) : Appends s (halfSecHandle s) := by
  have hown : ∀ t : Station, (ownModuleStatus t).OfBytes := by
    intro t
    have hn := t.beltNumber_le
    refine ⟨by simp [ownModuleStatus], ?_⟩
    simp [ownModuleStatus]
    omega
  have hclear : Appends s (clearHalfSecFlag s) := Appends.of_same rfl
  unfold halfSecHandle
  dsimp only
  split_ifs
  · exact (Appends.of_keeps (readNextModuleStatus_keeps _)).after
      ((Appends.add (hown _) _).after hclear)
  · exact hclear
  · exact Appends.refl s

theorem moduleStatusRecvProcess_appends (pbuf : Mem) (recvLen : Nat) (srcId : U8) (s : Station) :
    Appends s (moduleStatusRecvProcess pbuf recvLen srcId s).val := by
  have hbuilt : ∀ n : U8, ModuleStatus.OfBytes
      { stationNo := srcId.setWidth 16
        beltNumber := n.setWidth 16
        inverterStatus := moduleRecords pbuf n.toNat } := by
    intro n
    refine ⟨?_, ?_⟩
    · show (srcId.setWidth 16 : U16).toNat < 256
      bv_omega
    · have hn := n.isLt
      rw [moduleRecords, List.length_map, List.length_range]
      omega
  have hkeep : ∀ m : ModuleStatus, m.OfBytes → Appends s (keepModuleStatus m s) := by
    intro m hm
    unfold keepModuleStatus
    split_ifs
    · exact Appends.add hm s
    · exact Appends.refl s
  unfold moduleStatusRecvProcess
  simp only [Traced.val_bind]
  split_ifs
  · exact Appends.refl s
  · simp only [Traced.val_bind]
    split_ifs
    · exact (Appends.of_keeps (upStreamUpdate_quiet _ _).keeps).after (hkeep _ (hbuilt _))
    · exact (Appends.of_keeps (downStreamUpdate_quiet _ _).keeps).after (hkeep _ (hbuilt _))
    · exact hkeep _ (hbuilt _)

theorem canDispatch_appends (funcId srcId : U8) (s : Station) :
    Appends s (canDispatch funcId srcId s).val := by
  unfold canDispatch
  dsimp only
  split_ifs
  · exact Appends.of_keeps (paraDataRecvProcess_keeps _ _ s)
  · exact Appends.of_keeps (speedCtrlProcess_keeps _ s)
  · exact moduleStatusRecvProcess_appends _ _ _ s
  · exact Appends.of_keeps (resetCtrlHandle_quiet s).keeps
  · exact Appends.of_keeps (setBlockDisable_quiet _ s).keeps
  · exact Appends.of_keeps (canBusSendModuleStatus_keeps s)
  · exact Appends.refl s

theorem canBusFrameReceive_appends (rxMsg : CanRxMsg) (s : Station) :
    Appends s (canBusFrameReceive rxMsg s) := by
  have hrecv : ∀ r, Appends s (setCanRecv r s) := fun r => Appends.of_keeps (setCanRecv_keeps r s)
  have hlog : ∀ e t, Appends t (t.log e) := fun e t => Appends.of_same rfl
  unfold canBusFrameReceive
  dsimp only
  split_ifs
  · exact Appends.of_keeps (enterBootMode_keeps s)
  · exact (canDispatch_appends _ _ _).after ((hlog _ _).after (hrecv _))
  · exact hrecv _

/-! ## Handing over -/

/-- With a connection, `udp_client_process` hands over what waits or leaves it. -/
theorem udpConnectProcess_outgoing (env : UdpEnv) {s : Station}
    (hconnected : s.msg.connectIsOk = true) :
    let t := udpConnectProcess env s
    t.msg.connectIsOk = true ∧ ∃ ds, Sends ds s t ∧
      (ds ++ t.outgoing = s.outgoing ∨
        env.pbufAllocated = false ∧ s.msg.tcpSendEn = true ∧
          s.msg.tcpClientStatue = .connectOk ∧ ds ++ t.outgoing = []) := by
  have hstay : ∀ t : Station, SameOutbox s t → t.trace = s.trace →
      t.msg.connectIsOk = true ∧ ∃ ds, Sends ds s t ∧
        (ds ++ t.outgoing = s.outgoing ∨
          env.pbufAllocated = false ∧ s.msg.tcpSendEn = true ∧
            s.msg.tcpClientStatue = .connectOk ∧ ds ++ t.outgoing = []) := by
    intro t hbox htrace
    refine ⟨hbox.connected.trans hconnected, [], Sends.of_trace htrace, Or.inl ?_⟩
    exact hbox.outgoing
  unfold udpConnectProcess
  rw [if_neg (by simp [hconnected])]
  dsimp only
  split_ifs with hdis hconnect hok hpending
  · exact hstay _ ⟨rfl, rfl, rfl, rfl⟩ rfl
  · exact hstay _ (SameOutbox.refl s) rfl
  · unfold udpSendProcess
    cases halloc : env.pbufAllocated with
    | true =>
        refine ⟨hconnected, [s.toSend], ⟨[.udpSent s.toSend], rfl, rfl⟩, Or.inl ?_⟩
        have hout : s.outgoing = [s.toSend] := if_pos hpending
        rw [hout]
        rfl
    | false =>
        refine ⟨hconnected, [], Sends.of_trace rfl, Or.inr ⟨rfl, hpending, hok, ?_⟩⟩
        rfl
  · exact hstay _ (SameOutbox.refl s) rfl
  · exact hstay _ (SameOutbox.refl s) rfl

theorem recvMessageFromServer_boot {s : Station} (h : IsBootCmd s) :
    (recvMessageFromServer s.msg.tcpRecvBuf s.msg.tcpRecvLen.toNat s).systemReset = true := by
  unfold recvMessageFromServer recvMsgProcess
  rw [if_neg (by simp [h.1]), if_pos h.2]
  rfl

/-- **Handing over.**  Unless a module state is lost, `udp_client_process` leaves together
what was handed over and what still waits. -/
theorem udpClientProcess_outgoing {env : UdpEnv} {s : Station} (hrun : s.systemReset = false)
    (hhost : s.isHost = true) (hconnected : s.msg.connectIsOk = true)
    (hkeep : ¬ LosesStatus s (.udpClient env)) :
    let t := udpClientProcess env s
    t.msg.connectIsOk = true ∧ ∃ ds, Sends ds s t ∧
      (ds ++ t.outgoing).filter IsStatus = s.outgoing.filter IsStatus := by
  -- from a state with the same outbox, in which the call is to send
  have hfrom : ∀ u : Station, SameOutbox s u → Sends [] s u →
      (s.msg.tcpSendEn = true → u.msg.tcpClientStatue = .connectOk → IsToSend s) →
      let t := udpConnectProcess env u
      t.msg.connectIsOk = true ∧ ∃ ds, Sends ds s t ∧
        (ds ++ t.outgoing).filter IsStatus = s.outgoing.filter IsStatus := by
    intro u hbox hnone hsend
    obtain ⟨hok, ds, hds, hcases⟩ :=
      udpConnectProcess_outgoing env (hbox.connected.trans hconnected)
    refine ⟨hok, ds, hnone.trans hds, ?_⟩
    rcases hcases with hall | ⟨halloc, hpending, hstatue, hlost⟩
    · rw [hall, hbox.outgoing]
    · rw [hbox.pending] at hpending
      have hother : ¬ IsStatus s.toSend :=
        fun hstatus => hkeep ⟨halloc, hsend hpending hstatue, hstatus⟩
      have hout : s.outgoing = [s.toSend] := if_pos hpending
      rw [hlost, hout, List.filter_singleton]
      simp [hother]
  unfold udpClientProcess
  dsimp only
  by_cases hrecv : s.msg.tcpClientStatue = .connectRecv
  · rw [if_pos hrecv]
    have hmsg := recvMessageFromServer_touches s.msg.tcpRecvBuf s.msg.tcpRecvLen.toNat s
    generalize hu : recvMessageFromServer s.msg.tcpRecvBuf s.msg.tcpRecvLen.toNat s = u at hmsg ⊢
    have hbox : SameOutbox s u := SameOutbox.of_keeps hmsg.keeps
    have hnone : Sends [] s u := Sends.of_touches hmsg
    split_ifs with hreset
    · refine ⟨hbox.connected.trans hconnected, [], hnone, ?_⟩
      rw [List.nil_append, hbox.outgoing]
    · refine hfrom _ (hbox.trans ⟨rfl, rfl, rfl, rfl⟩) (hnone.trans (Sends.of_trace rfl)) ?_
      intro hpending _
      refine ⟨hrun, hhost, hconnected, hpending, Or.inr ⟨hrecv, fun hboot => hreset ?_⟩⟩
      rw [← hu]
      exact recvMessageFromServer_boot hboot
  · rw [if_neg hrecv]
    exact hfrom s (SameOutbox.refl s) (Sends.of_trace rfl)
      fun hpending hok => ⟨hrun, hhost, hconnected, hpending, Or.inl hok⟩

/-- The connection is made with an empty send buffer. -/
theorem udpClientProcess_connects {env : UdpEnv} {s : Station}
    (hbefore : s.msg.connectIsOk = false)
    (hafter : (udpClientProcess env s).msg.connectIsOk = true) :
    Sends [] s (udpClientProcess env s) ∧ (udpClientProcess env s).outgoing = [] := by
  have hconnect : ∀ u : Station, u.msg.connectIsOk = false →
      (udpConnectProcess env u).msg.connectIsOk = true →
      Sends [] u (udpConnectProcess env u) ∧ (udpConnectProcess env u).outgoing = [] := by
    intro u hu ht
    unfold udpConnectProcess at ht ⊢
    rw [if_pos hu] at ht ⊢
    dsimp only at ht ⊢
    split_ifs at ht ⊢ with hpcb
    · exact ⟨Sends.of_trace rfl, rfl⟩
    · rw [hu] at ht
      cases ht
  unfold udpClientProcess at hafter ⊢
  dsimp only at hafter ⊢
  by_cases hrecv : s.msg.tcpClientStatue = .connectRecv
  · rw [if_pos hrecv] at hafter ⊢
    have hmsg := recvMessageFromServer_touches s.msg.tcpRecvBuf s.msg.tcpRecvLen.toNat s
    generalize recvMessageFromServer s.msg.tcpRecvBuf s.msg.tcpRecvLen.toNat s = u at hmsg hafter ⊢
    have hbox : SameOutbox s u := SameOutbox.of_keeps hmsg.keeps
    have hnone : Sends [] s u := Sends.of_touches hmsg
    have hu : u.msg.connectIsOk = false := hbox.connected.trans hbefore
    split_ifs at hafter ⊢
    · rw [hu] at hafter
      cases hafter
    · have hidle : Sends [] u { u with msg.tcpRecvLen := 0, msg.tcpClientStatue := .connectOk } :=
        Sends.of_trace rfl
      obtain ⟨hsends, hout⟩ :=
        hconnect { u with msg.tcpRecvLen := 0, msg.tcpClientStatue := .connectOk } hu hafter
      exact ⟨hnone.trans (hidle.trans hsends), hout⟩
  · rw [if_neg hrecv] at hafter ⊢
    exact hconnect s hbefore hafter

/-! ## Runs -/

/-- What the books say about a station: nothing is lost between the ring, the send buffer
and the network. -/
structure Delivered (b : UploadBooks) (s : Station) : Prop where
  size : ∀ m ∈ s.moduleStates, m.inverterStatus.length ≤ 255
  accepted : b.accepted = b.taken ++ s.moduleStates
  closed : s.msg.connectIsOk = false → b.taken = [] ∧ b.sent = []
  handed : s.msg.connectIsOk = true →
    b.taken.map ModuleStatus.datagram = (b.sent ++ s.outgoing).filter IsStatus

section Step

variable {b : UploadBooks} {s : Station} {i : Input}

/-- Without a connection the books stay closed. -/
theorem Delivered.of_closed (hconnected : (step s i).msg.connectIsOk = false)
    (hsize : ∀ m ∈ (step s i).moduleStates, m.inverterStatus.length ≤ 255) :
    Delivered (b.observe s i) (step s i) := by
  have hbooks : b.observe s i = { accepted := (step s i).moduleStates, taken := [], sent := [] } :=
    if_pos hconnected
  rw [hbooks]
  exact ⟨hsize, rfl, fun _ => ⟨rfl, rfl⟩, fun h => absurd (hconnected.symm.trans h) (by decide)⟩

/-- A property of every state built of bytes stays one of the whole ring. -/
theorem Appends.all {s t : Station} {P : ModuleStatus → Prop} (h : Appends s t)
    (hbuilt : ∀ m : ModuleStatus, m.OfBytes → P m) (hold : ∀ m ∈ s.moduleStates, P m) :
    ∀ m ∈ t.moduleStates, P m := by
  obtain ⟨ms, hms, hnew⟩ := h
  rw [hms]
  intro m hm
  exact (List.mem_append.mp hm).elim (hold m) fun hadded => hbuilt m (hnew m hadded)

/-- An input that may add states and hand datagrams over. -/
theorem Delivered.of_appends (h : Delivered b s) (hi : i ≠ .sendMessage)
    (happends : Appends s (step s i)) {ds : List (List U8)} (hsends : Sends ds s (step s i))
    (hout : (step s i).msg.connectIsOk = true →
      b.taken.map ModuleStatus.datagram = (b.sent ++ (ds ++ (step s i).outgoing)).filter IsStatus) :
    Delivered (b.observe s i) (step s i) := by
  have hsize := happends.all (fun _ hm => hm.size) h.size
  by_cases hconnected : (step s i).msg.connectIsOk = false
  · exact Delivered.of_closed hconnected hsize
  obtain ⟨ms, hms, -⟩ := happends
  have hdrop : (step s i).moduleStates.drop s.moduleStates.length = ms := by
    rw [hms, List.drop_left]
  have hbooks : b.observe s i =
      { accepted := b.accepted ++ ms, taken := b.taken, sent := b.sent ++ ds } := by
    unfold UploadBooks.observe
    dsimp only
    rw [if_neg hconnected, hsends.sentBetween, hdrop]
    cases i with
    | sendMessage => exact absurd rfl hi
    | _ => rfl
  rw [hbooks]
  refine ⟨hsize, ?_, fun hno => absurd hno hconnected, fun hyes => ?_⟩
  · rw [h.accepted, hms, List.append_assoc]
  · rw [hout hyes, List.append_assoc]

/-- An input beside the send buffer. -/
theorem Delivered.beside (h : Delivered b s) (hi : i ≠ .sendMessage)
    (happends : Appends s (step s i)) (hbox : SameOutbox s (step s i))
    (hsends : Sends [] s (step s i)) : Delivered (b.observe s i) (step s i) := by
  refine h.of_appends hi happends hsends fun hconnected => ?_
  rw [List.nil_append, hbox.outgoing]
  exact h.handed (hbox.connected.symm.trans hconnected)

/-- A call of `send_message_to_server` that takes out `ms`. -/
theorem Delivered.of_taken (h : Delivered b s) {ms : List ModuleStatus}
    (hconnected : (step s .sendMessage).msg.connectIsOk = s.msg.connectIsOk)
    (hms : s.moduleStates = ms ++ (step s .sendMessage).moduleStates)
    (hout : s.msg.connectIsOk = true → (b.taken ++ ms).map ModuleStatus.datagram =
      (b.sent ++ (step s .sendMessage).outgoing).filter IsStatus) :
    Delivered (b.observe s .sendMessage) (step s .sendMessage) := by
  have hsends : Sends [] s (step s .sendMessage) := Sends.of_touches (step_touches s .sendMessage)
  have hsize : ∀ m ∈ (step s .sendMessage).moduleStates, m.inverterStatus.length ≤ 255 := by
    intro m hm
    refine h.size m ?_
    rw [hms]
    exact List.mem_append_right _ hm
  by_cases hno : (step s .sendMessage).msg.connectIsOk = false
  · exact Delivered.of_closed hno hsize
  have htake : s.moduleStates.take
      (s.moduleStates.length - (step s .sendMessage).moduleStates.length) = ms := by
    rw [hms, List.length_append, Nat.add_sub_cancel, List.take_left]
  have hbooks : b.observe s .sendMessage =
      { accepted := b.accepted, taken := b.taken ++ ms, sent := b.sent } := by
    unfold UploadBooks.observe
    dsimp only
    rw [if_neg hno, hsends.sentBetween, htake, List.append_nil]
  rw [hbooks]
  refine ⟨hsize, ?_, fun hnot => absurd hnot hno, fun hyes => ?_⟩
  · rw [h.accepted, List.append_assoc, ← hms]
  · exact hout (hconnected.symm.trans hyes)

theorem Delivered.sendMessage (h : Delivered b s) :
    Delivered (b.observe s .sendMessage) (step s .sendMessage) := by
  -- a state is taken out by a call with an empty send buffer
  have hcases : step s .sendMessage = s ∨
      s.msg.tcpSendEn = false ∧ TakesOut s (step s .sendMessage) := by
    unfold step
    split_ifs
    · exact Or.inl rfl
    show (if s.isHost then sendMessageToServer s else s) = s ∨
      _ ∧ TakesOut s (if s.isHost then sendMessageToServer s else s)
    split_ifs
    · by_cases hpending : s.msg.tcpSendEn = true
      · exact Or.inl (if_pos hpending)
      · have hidle : s.msg.tcpSendEn = false := by simpa using hpending
        exact Or.inr ⟨hidle, sendMessageToServer_takesOut hidle h.size⟩
    · exact Or.inl rfl
  rcases hcases with hstay | ⟨hidle, hconnected, ms, hms, hout⟩
  · have hnone : s.moduleStates = [] ++ (step s .sendMessage).moduleStates := by
      rw [hstay]
      rfl
    refine h.of_taken (by rw [hstay]) hnone fun hyes => ?_
    rw [List.append_nil, hstay]
    exact h.handed hyes
  · refine h.of_taken hconnected hms fun hyes => ?_
    have hempty : s.outgoing = [] := if_neg (by simp [hidle])
    have hhanded := h.handed hyes
    rw [hempty, List.append_nil] at hhanded
    rw [List.map_append, hhanded, ← hout, ← List.filter_append]

theorem Delivered.udpClient {env : UdpEnv} (h : Delivered b s)
    (hkeep : ¬ LosesStatus s (.udpClient env)) :
    Delivered (b.observe s (.udpClient env)) (step s (.udpClient env)) := by
  have hframe := step_touches s (.udpClient env)
  have happends : Appends s (step s (.udpClient env)) :=
    Appends.of_keeps hframe.keeps
  have hcases : step s (.udpClient env) = s ∨
      s.systemReset = false ∧ s.isHost = true ∧
        step s (.udpClient env) = udpClientProcess env s := by
    unfold step
    split_ifs with hreset
    · exact Or.inl rfl
    show (if s.isHost then udpClientProcess env s else s) = s ∨ _ ∧ _ ∧
      (if s.isHost then udpClientProcess env s else s) = udpClientProcess env s
    split_ifs with hhost
    · exact Or.inr ⟨by simpa using hreset, hhost, rfl⟩
    · exact Or.inl rfl
  rcases hcases with hstay | ⟨hrun, hhost, hstep⟩
  · refine h.beside (by simp) happends ?_ ?_
    · rw [hstay]
      exact SameOutbox.refl s
    · rw [hstay]
      exact Sends.of_trace rfl
  by_cases hconnected : s.msg.connectIsOk = true
  · obtain ⟨hstill, ds, hsends, hout⟩ := udpClientProcess_outgoing hrun hhost hconnected hkeep
    rw [← hstep] at hsends hout
    refine h.of_appends (by simp) happends hsends fun _ => ?_
    rw [List.filter_append, hout, ← List.filter_append]
    exact h.handed hconnected
  · have hbefore : s.msg.connectIsOk = false := by simpa using hconnected
    obtain ⟨htaken, hsent⟩ := h.closed hbefore
    by_cases hafter : (step s (.udpClient env)).msg.connectIsOk = true
    · rw [hstep] at hafter
      obtain ⟨hsends, hout⟩ := udpClientProcess_connects hbefore hafter
      rw [← hstep] at hsends hout
      refine h.of_appends (by simp) happends hsends fun _ => ?_
      rw [htaken, hsent, hout]
      rfl
    · exact Delivered.of_closed (by simpa using hafter) (happends.all (fun _ hm => hm.size) h.size)

theorem step_appends (s : Station) {i : Input} (hi : i ≠ .sendMessage) :
    Appends s (step s i) := by
  have hframe := step_touches s i
  rcases step_cases s i with hstep | hstep
  · rw [hstep]
    exact Appends.refl s
  cases i with
  | sendMessage => exact absurd rfl hi
  | canFrame rxMsg =>
      rw [hstep]
      exact canBusFrameReceive_appends rxMsg s
  | secProcess pins =>
      rw [hstep]
      exact (halfSecHandle_appends _).after (Appends.of_keeps (secHandle_quiet pins s).keeps)
  | timeUpdate _ | usart1Irq _ | udpReceive _ _ | udpClient _ | modbusComm _ | canSend _
  | resetStart | upstreamIo | uploadRunState | msoneProcess _ =>
      exact Appends.of_keeps hframe.keeps

theorem udpReceive_sameOutbox (p : Pbuf) (m : U16) (s : Station) :
    SameOutbox s (step s (.udpReceive p m)) := by
  have hcallback : SameOutbox s (udpReceiveCallback p m s) := by
    unfold udpReceiveCallback
    dsimp only
    split_ifs
    all_goals exact ⟨rfl, rfl, rfl, rfl⟩
  rcases step_cases s (.udpReceive p m) with hstep | hstep
  · rw [hstep]
    exact SameOutbox.refl s
  · rw [hstep]
    show SameOutbox s (if s.isHost then udpReceiveCallback p m s else s)
    split_ifs
    · exact hcallback
    · exact SameOutbox.refl s

/-- **One step** keeps the books right. -/
theorem step_delivered (h : Delivered b s) (hkeep : ¬ LosesStatus s i) :
    Delivered (b.observe s i) (step s i) := by
  have hframe := step_touches s i
  cases i with
  | sendMessage => exact h.sendMessage
  | udpClient env => exact h.udpClient hkeep
  | udpReceive p m =>
      refine h.beside (by simp) (step_appends s (by simp)) (udpReceive_sameOutbox p m s) ?_
      exact Sends.of_touches hframe
  | timeUpdate _ | usart1Irq _ | canFrame _ | secProcess _ | modbusComm _ | canSend _ | resetStart
  | upstreamIo | uploadRunState | msoneProcess _ =>
      exact h.beside (by simp) (step_appends s (by simp)) (SameOutbox.of_keeps hframe.keeps)
        (Sends.of_touches hframe)

end Step

theorem boot_moduleStates (flash : Flash) (localStation : U8) :
    (boot flash localStation).moduleStates = [] :=
  (congrArg RingFifo.contents ((boot_keeps flash localStation).same .moduleQueue (by decide))).trans
    (RingFifo.contents_empty _ _)

/-- `send_message_to_server` takes states out at the front, if any. -/
theorem sendMessage_moduleStates {s : Station}
    (hsize : ∀ m ∈ s.moduleStates, m.inverterStatus.length ≤ 255) :
    ∃ ms, s.moduleStates = ms ++ (step s .sendMessage).moduleStates := by
  rcases step_cases s .sendMessage with hstep | hstep
  · exact ⟨[], by rw [hstep, List.nil_append]⟩
  rw [hstep]
  show ∃ ms, s.moduleStates = ms ++ (if s.isHost then sendMessageToServer s else s).moduleStates
  by_cases hsends : s.isHost = true ∧ s.msg.tcpSendEn = false
  · obtain ⟨-, ms, hms, -⟩ := sendMessageToServer_takesOut hsends.2 hsize
    exact ⟨ms, by rw [if_pos hsends.1, hms]⟩
  · refine ⟨[], ?_⟩
    split_ifs with hhost
    · have hpending : s.msg.tcpSendEn = true :=
        Bool.eq_true_of_not_eq_false fun hno => hsends ⟨hhost, hno⟩
      rw [sendMessageToServer, if_pos hpending, List.nil_append]
    · rfl

theorem reachable_delivered {p : Uploading}
    (h : Reach UploadStart uploadStep (fun p i => ¬ LosesStatus p.1 i) p) :
    Delivered p.2 p.1 := by
  have hstep : ∀ (p : Uploading) (i : Input), Delivered p.2 p.1 → ¬ LosesStatus p.1 i →
      Delivered (uploadStep p i).2 (uploadStep p i).1 := fun p i hp hkeep => step_delivered hp hkeep
  refine h.invariant ?_ hstep
  rintro ⟨s, b⟩ ⟨⟨flash, localStation, rfl⟩, rfl⟩
  have hk := boot_keeps flash localStation
  have hstates := boot_moduleStates flash localStation
  have hconnected : (boot flash localStation).msg.connectIsOk = false :=
    (SameOutbox.of_keeps hk).connected
  refine ⟨?_, ?_, fun _ => ⟨rfl, rfl⟩, fun hyes => ?_⟩
  · rw [hstates]
    simp
  · rw [hstates]
    rfl
  · rw [hconnected] at hyes
    cases hyes

/-- **Queued station numbers are bytes** in every reachable state: every record the host
sends to the server fits the one byte a datagram has for its station. -/
theorem queued_states_ofBytes {s : Station} (h : Reachable (fun _ _ => True) s) :
    ∀ m ∈ s.moduleStates, m.OfBytes := by
  refine h.invariant (I := fun s => ∀ m ∈ s.moduleStates, m.OfBytes) ?_ fun s i hbuilt _ => ?_
  · rintro s ⟨flash, localStation, rfl⟩ m hm
    rw [boot_moduleStates] at hm
    exact absurd hm List.not_mem_nil
  by_cases hi : i = .sendMessage
  · subst hi
    intro m hm
    rcases sendMessage_moduleStates (fun m hm => (hbuilt m hm).size) with ⟨ms, hms⟩
    exact hbuilt m (hms ▸ List.mem_append_right ms hm)
  · exact (step_appends s hi).all (fun _ hm => hm) hbuilt

theorem udpClientProcess_sendBuf (env : UdpEnv) (s : Station) :
    (udpClientProcess env s).msg.tcpSendBuf = s.msg.tcpSendBuf := by
  have hconnect : ∀ t : Station, (udpConnectProcess env t).msg.tcpSendBuf = t.msg.tcpSendBuf := by
    intro t
    unfold udpConnectProcess udpSendProcess
    dsimp only
    split_ifs <;> rfl
  have hmsg := recvMessageFromServer_touches s.msg.tcpRecvBuf s.msg.tcpRecvLen.toNat s
  have hbox := SameOutbox.of_keeps hmsg.keeps
  unfold udpClientProcess
  dsimp only
  split_ifs
  · exact hbox.buf
  · exact (hconnect _).trans hbox.buf
  · exact hconnect s

/-- A datagram that waits is not overwritten. -/
theorem step_sendBuf {s : Station} (hpending : s.msg.tcpSendEn = true) (i : Input) :
    (step s i).msg.tcpSendBuf = s.msg.tcpSendBuf := by
  have hframe := step_touches s i
  rcases step_cases s i with hstep | hstep
  · rw [hstep]
  cases i with
  | sendMessage =>
      rw [hstep]
      have hstay : sendMessageToServer s = s := if_pos hpending
      show (if s.isHost then sendMessageToServer s else s).msg.tcpSendBuf = _
      rw [hstay, ite_self]
  | udpClient env =>
      rw [hstep]
      show (if s.isHost then udpClientProcess env s else s).msg.tcpSendBuf = _
      split_ifs
      · exact udpClientProcess_sendBuf env s
      · rfl
  | udpReceive p m => exact (udpReceive_sameOutbox p m s).buf
  | timeUpdate _ | usart1Irq _ | canFrame _ | secProcess _ | modbusComm _ | canSend _ | resetStart
  | upstreamIo | uploadRunState | msoneProcess _ =>
      exact (SameOutbox.of_keeps hframe.keeps).buf

/-- **Uploads are delivered.**  In every run in which `pbuf_alloc` serves each call that is
to send a module state, and whenever the connection exists: the states accepted are those
taken out, in order, and those that wait; the states taken out are those handed to
`udp_send`, in order and once each, and at most one in the send buffer, which is not
overwritten before. -/
theorem uploads_delivered {p : Uploading}
    (h : Reach UploadStart uploadStep (fun p i => ¬ LosesStatus p.1 i) p)
    (hconnected : p.1.msg.connectIsOk = true) :
    p.2.accepted = p.2.taken ++ p.1.moduleStates ∧
      p.2.taken.map ModuleStatus.datagram = (p.2.sent ++ p.1.outgoing).filter IsStatus ∧
      (p.1.msg.tcpSendEn = true → ∀ i, (step p.1 i).msg.tcpSendBuf = p.1.msg.tcpSendBuf) := by
  have hdelivered := reachable_delivered h
  exact ⟨hdelivered.accepted, hdelivered.handed hconnected, step_sendBuf⟩

/-! ## One state -/

/-- The module state of slave 2 with one belt, as two frames. -/
def slaveState : List CanRxMsg :=
  [canBusSendOneFrame
      { segPolo := .first
        segNum := 0
        funcId := CAN_FUNC_ID_MODULE_STATUS
        srcId := 2
        data := [0x0D, 0x00, 0x01, 0x10, 0x00, 0x00, 0x00, 0x00] },
    canBusSendOneFrame
      { segPolo := .final
        segNum := 1
        funcId := CAN_FUNC_ID_MODULE_STATUS
        srcId := 2
        data := [0x00, 0x00, 0x00, 0x00, 0x00] }]

/-- The host connects, receives a state, takes it out after ten milliseconds, and calls
`udp_client_process`. -/
def uploadOne (env : UdpEnv) : Uploading :=
  run uploadStep (boot zeroFlash 1, { accepted := [], taken := [], sent := [] })
    ([.udpClient linkUp, .udpClient linkUp] ++ slaveState.map Input.canFrame ++ idleTicks 10 ++
      [.sendMessage, .udpClient env])

/-- The network takes the datagram of the state. -/
theorem state_delivered :
    (uploadOne linkUp).2.taken.map ModuleStatus.datagram =
      ((uploadOne linkUp).2.sent ++ (uploadOne linkUp).1.outgoing).filter IsStatus := by
  have halong : Along uploadStep (fun p i => ¬ LosesStatus p.1 i)
      (boot zeroFlash 1, { accepted := [], taken := [], sent := [] })
      ([.udpClient linkUp, .udpClient linkUp] ++ slaveState.map Input.canFrame ++ idleTicks 10 ++
        [.sendMessage, .udpClient linkUp]) := by decide +kernel
  have hreach : Reach UploadStart uploadStep (fun p i => ¬ LosesStatus p.1 i) (uploadOne linkUp) :=
    reach_run ⟨⟨_, _, rfl⟩, rfl⟩ halong
  exact (uploads_delivered hreach (by decide +kernel)).2.1

/-- There is no buffer for the datagram, and the state is nowhere any more. -/
theorem failed_allocation_loses_state :
    ¬ ∀ p, Reach UploadStart uploadStep (fun _ _ => True) p → p.1.msg.connectIsOk = true →
      p.2.taken.map ModuleStatus.datagram = (p.2.sent ++ p.1.outgoing).filter IsStatus := by
  intro h
  have hreach : Reach UploadStart uploadStep (fun _ _ => True)
      (uploadOne { linkUp with pbufAllocated := false }) :=
    reach_run ⟨⟨_, _, rfl⟩, rfl⟩ (Along.of_forall (fun _ _ => trivial) _ _)
  have hlost : (uploadOne { linkUp with pbufAllocated := false }).1.msg.connectIsOk = true ∧
      (uploadOne { linkUp with pbufAllocated := false }).2.taken.length = 1 ∧
      (uploadOne { linkUp with pbufAllocated := false }).2.sent = [] ∧
      (uploadOne { linkUp with pbufAllocated := false }).1.outgoing = [] := by decide +kernel
  obtain ⟨hconnected, htaken, hsent, hout⟩ := hlost
  have hlength := congrArg List.length (h _ hreach hconnected)
  rw [List.length_map, htaken, hsent, hout] at hlength
  cases hlength

end IotCtrl
