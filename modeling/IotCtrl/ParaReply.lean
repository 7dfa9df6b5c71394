import IotCtrl.StepFrame

/-!
# Parameter replies to the server

A completed parameter request leaves its block in `user_paras_slave` and queues its
reply type; the datagram is built when the type is taken out.  The types keep their
order, but all waiting replies share the one block.

* `completion` — the parameter request an input completes;
* `step_completes` — every input but the tick and the upload completes that request or
  none;
* `replies_in_order` — as long as no request is completed with another block while a
  reply waits, the n-th reply carries the n-th request;
* `replies_owed` — in these runs the waiting types are those of the unanswered
  requests;
* `second_block_in_first_reply` — two requests in a row, and the first is answered
  with the block of the second.
-/

namespace IotCtrl

open ByteMemory Transition

/-! ## Requests and replies of a history -/

/-- The type and the block of a completed parameter request. -/
abbrev ParaRequest := U16 × UserParas

def Event.completed : Event → Option ParaRequest
  | .paraDone type block => some (type, block)
  | _ => none

def Event.built : Event → Option (List U8)
  | .replyBuilt datagram => some datagram
  | _ => none

/-- The completed requests, oldest first. -/
def completions (trace : List Event) : List ParaRequest :=
  trace.reverse.filterMap Event.completed

/-- The parameter replies built, oldest first. -/
def replies (trace : List Event) : List (List U8) :=
  trace.reverse.filterMap Event.built

/-- The datagram that answers a request. -/
def ParaRequest.datagram (c : ParaRequest) : List U8 := replyParaDatagram c.1 c.2

/-- The n-th reply carries the type and the block of the n-th completed request. -/
def RepliesMatch (trace : List Event) : Prop :=
  ∀ (n : Nat) (datagram : List U8), (replies trace)[n]? = some datagram →
    ∃ c : ParaRequest, (completions trace)[n]? = some c ∧ datagram = c.datagram

def replyTypes : List U16 :=
  [REPLY_RECV_MSG_READ_PARA_CMD_TYPE, REPLY_RECV_MSG_WRITE_PARA_CMD_TYPE]

/-- The types of the parameter replies that wait, oldest first. -/
def Station.repliesDue (s : Station) : List U16 := s.msgTypes.filter (· ∈ replyTypes)

/-! ## Which request an input completes -/

/-- A parameter message with a block completes a request of the host's. -/
def paraCompletion (pbuf : Mem) (recvLen : Nat) : Option ParaRequest :=
  if (canDataLen (pbuf 0) (pbuf 1)).toNat ≠ recvLen then none
  else if pbuf 2 = 0x91 then
    some (REPLY_RECV_MSG_READ_PARA_CMD_TYPE, UserParas.ofBytes pbuf 3)
  else if pbuf 2 = 0x92 then
    some (REPLY_RECV_MSG_WRITE_PARA_CMD_TYPE, UserParas.ofBytes pbuf 3)
  else none

def dispatchCompletion (funcId srcId : U8) (s : Station) : Option ParaRequest :=
  if funcId = CAN_FUNC_ID_PARA_DATA ∧ (srcId = s.main.localStation ∨ s.isHost = true) then
    paraCompletion s.can.recv.canRecvBuff s.can.recv.canRecvLen
  else none

theorem dispatchCompletion_log (funcId srcId : U8) (e : Event) (s : Station) :
    dispatchCompletion funcId srcId (s.log e) = dispatchCompletion funcId srcId s := rfl

/-- The last frame of a message completes what the message completes. -/
def frameCompletion (rxMsg : CanRxMsg) (s : Station) : Option ParaRequest :=
  let id := canDecodeId rxMsg.extId
  let (r, finished) := canReassemble id rxMsg.data s.can.recv
  if id.funcId = CAN_FUNC_ID_BOOT_MODE ∧ id.dstId = s.main.localStation then none
  else if finished = true then dispatchCompletion id.funcId id.srcId (setCanRecv r s)
  else none

/-- A datagram that asks for the host's own parameters, or writes them. -/
def serverCompletion (point : Mem) (len : Nat) (s : Station) : Option ParaRequest :=
  if recvMsgCheck point len = false then none
  else if msgType point = RECV_MSG_READ_PARA_CMD_TYPE ∧ point 11 = s.main.localStation then
    some (REPLY_RECV_MSG_READ_PARA_CMD_TYPE, s.logic.userParasLocal.toUserParas)
  else if msgType point = RECV_MSG_WRITE_PARA_CMD_TYPE ∧
      (UserParas.ofBytes point 11).stationNo = s.main.localStation.setWidth 16 then
    some (REPLY_RECV_MSG_WRITE_PARA_CMD_TYPE,
      (writtenParas s.main.localStation fun i => wordAt point (17 + 2 * i)).toUserParas)
  else none

/-- The parameter request an input completes. -/
def completion (s : Station) (i : Input) : Option ParaRequest :=
  if s.systemReset then none
  else
    match i with
    | .canFrame rxMsg => frameCompletion rxMsg s
    | .udpClient _ =>
        if s.isHost = true ∧ s.msg.tcpClientStatue = .connectRecv then
          serverCompletion s.msg.tcpRecvBuf s.msg.tcpRecvLen.toNat s
        else none
    | _ => none

/-- The input completes a request with another block than the one that a waiting
reply is to carry. -/
def Overwrites (s : Station) (i : Input) : Prop :=
  s.repliesDue ≠ [] ∧ ∃ c ∈ completion s i, c.2 ≠ s.logic.userParasSlave

instance (s : Station) (i : Input) : Decidable (Overwrites s i) :=
  inferInstanceAs (Decidable (_ ∧ _))

/-! ## What the routines complete -/

/-- The parts that have no say in parameter replies. -/
@[reducible] def idleParts : List Part :=
  [.paras, .gear, .uartQueue, .node, .modbus, .uartState, .canQueue, .recv, .link, .flash,
    .systemReset, .trace,
    .emergency, .runSta, .polling, .moduleQueue, .commFault, .runBits]

@[reducible] def idleKinds : List EventKind := [.speedCall, .modbusTx, .canDone, .udpSent]

/-- No request is completed and no reply is built or queued. -/
abbrev Idle (s t : Station) : Prop := Touches idleParts idleKinds s t

/-- `t` comes from `s` by completing the request `c`, if any. -/
inductive CompletesRequest : Option ParaRequest → Station → Station → Prop
  | idle {s t : Station} (h : Idle s t) : CompletesRequest none s t
  | request {s u t : Station} {c : ParaRequest} (type : c.1 ∈ replyTypes) (before : Idle s u)
      (after : Idle (paraReply c.1 c.2 u) t) : CompletesRequest (some c) s t

namespace CompletesRequest

variable {c : Option ParaRequest} {s t u : Station}

theorem read (block : UserParas) (s : Station) :
    CompletesRequest (some (REPLY_RECV_MSG_READ_PARA_CMD_TYPE, block)) s
      (paraReply REPLY_RECV_MSG_READ_PARA_CMD_TYPE block s) :=
  request List.mem_cons_self (Touches.refl s) (Touches.refl _)

theorem written (block : UserParas) (s : Station) :
    CompletesRequest (some (REPLY_RECV_MSG_WRITE_PARA_CMD_TYPE, block)) s
      (paraReply REPLY_RECV_MSG_WRITE_PARA_CMD_TYPE block s) :=
  request (List.mem_cons_of_mem _ List.mem_cons_self) (Touches.refl s) (Touches.refl _)

theorem precede (h : CompletesRequest c t u) (hst : Idle s t) : CompletesRequest c s u := by
  cases h with
  | idle h => exact idle (hst.trans h)
  | request type before after => exact request type (hst.trans before) after

theorem follow (h : CompletesRequest c s t) (htu : Idle t u) : CompletesRequest c s u := by
  cases h with
  | idle h => exact idle (h.trans htu)
  | request type before after => exact request type before (after.trans htu)

end CompletesRequest

/-- Commands that carry no reply for the server complete nothing. -/
theorem paraCompletion_other {pbuf : Mem} {recvLen : Nat} (hread : pbuf 2 ≠ 0x91)
    (hwrite : pbuf 2 ≠ 0x92) : paraCompletion pbuf recvLen = none := by
  unfold paraCompletion
  rw [if_neg hread, if_neg hwrite, ite_self]

theorem paraDataRecvProcess_completes (pbuf : Mem) (recvLen : Nat) (s : Station) :
    CompletesRequest (paraCompletion pbuf recvLen) s (paraDataRecvProcess pbuf recvLen s).val := by
  have hsend : ∀ cmd block t, Idle t (canBusSendParaBlock cmd block t) :=
    fun cmd block t => Touches.of_keeps (canBusSendParaBlock_keeps cmd block t)
  unfold paraDataRecvProcess
  simp only [Traced.val_bind]
  split_ifs with hlen hread hreadReply hwrite hwriteReply
  · have hnone : paraCompletion pbuf recvLen = none := if_pos hlen
    rw [hnone]
    exact CompletesRequest.idle (Touches.refl s)
  · have hcmd : pbuf 2 = 0x1 := hread
    rw [paraCompletion_other (by rw [hcmd]; decide) (by rw [hcmd]; decide)]
    exact CompletesRequest.idle (hsend _ _ s)
  · have hsome : paraCompletion pbuf recvLen =
        some (REPLY_RECV_MSG_READ_PARA_CMD_TYPE, UserParas.ofBytes pbuf 3) :=
      (if_neg hlen).trans (if_pos hreadReply)
    rw [hsome]
    exact CompletesRequest.read _ s
  · have hcmd : pbuf 2 = 0x2 := hwrite
    rw [paraCompletion_other (by rw [hcmd]; decide) (by rw [hcmd]; decide)]
    exact CompletesRequest.idle ((hsend _ _ _).after (Touches.of_keeps (readWriteParas_keeps _ s)))
  · have hsome : paraCompletion pbuf recvLen =
        some (REPLY_RECV_MSG_WRITE_PARA_CMD_TYPE, UserParas.ofBytes pbuf 3) :=
      (if_neg hlen).trans ((if_neg hreadReply).trans (if_pos hwriteReply))
    rw [hsome]
    exact CompletesRequest.written _ s
  · rw [paraCompletion_other hreadReply hwriteReply]
    exact CompletesRequest.idle (Touches.refl s)

theorem canDispatch_completes (funcId srcId : U8) (s : Station) :
    CompletesRequest (dispatchCompletion funcId srcId s) s (canDispatch funcId srcId s).val := by
  unfold canDispatch dispatchCompletion
  dsimp only
  by_cases hpara : funcId = CAN_FUNC_ID_PARA_DATA ∧
      (srcId = s.main.localStation ∨ s.isHost = true)
  · rw [if_pos hpara, if_pos hpara]
    exact paraDataRecvProcess_completes _ _ s
  rw [if_neg hpara, if_neg hpara]
  refine CompletesRequest.idle ?_
  split_ifs
  · exact (speedCtrlProcess_touches _ s).mono
  · exact Touches.of_quiet (moduleStatusRecvProcess_quiet _ _ _ s)
  · exact Touches.of_quiet (resetCtrlHandle_quiet s)
  · exact Touches.of_quiet (setBlockDisable_quiet _ s)
  · exact Touches.of_keeps (canBusSendModuleStatus_keeps s)
  · exact Touches.refl s

theorem canBusFrameReceive_completes (rxMsg : CanRxMsg) (s : Station) :
    CompletesRequest (frameCompletion rxMsg s) s (canBusFrameReceive rxMsg s) := by
  have hrecv : ∀ r, Idle s (setCanRecv r s) := fun r => Touches.of_keeps (setCanRecv_keeps r s)
  have hdone : ∀ f src payload t, Idle t (t.log (.canDone f src payload)) :=
    fun f src payload t => Touches.log _ t (by simp [idleKinds, Event.kind])
  unfold canBusFrameReceive frameCompletion
  dsimp only
  split_ifs
  · exact CompletesRequest.idle (Touches.of_keeps (enterBootMode_keeps s))
  · rw [← dispatchCompletion_log]
    exact ((canDispatch_completes _ _ _).precede (hdone _ _ _ _)).precede (hrecv _)
  · exact CompletesRequest.idle (hrecv _)

/-- Datagrams of the other types complete nothing. -/
theorem serverCompletion_other {point : Mem} {len : Nat} {s : Station}
    (hread : msgType point ≠ RECV_MSG_READ_PARA_CMD_TYPE)
    (hwrite : msgType point ≠ RECV_MSG_WRITE_PARA_CMD_TYPE) :
    serverCompletion point len s = none := by
  unfold serverCompletion
  split_ifs with hcheck hr hw
  · rfl
  · exact absurd hr.1 hread
  · exact absurd hw.1 hwrite
  · rfl

theorem recvWritePara_completes {point : Mem} {len : Nat} {s : Station}
    (hcheck : ¬ recvMsgCheck point len = false)
    (htype : msgType point = RECV_MSG_WRITE_PARA_CMD_TYPE) :
    CompletesRequest (serverCompletion point len s) s (recvWritePara point s) := by
  have htemp : ∀ p, Idle s (setParasTemp p s) := fun p =>
    Touches.of_same rfl fun p => by cases p <;> rfl
  have hread :
      ¬ (msgType point = RECV_MSG_READ_PARA_CMD_TYPE ∧ point 11 = s.main.localStation) :=
    fun h => absurd (htype.symm.trans h.1) (by decide)
  unfold serverCompletion
  rw [if_neg hcheck, if_neg hread]
  by_cases hown : (UserParas.ofBytes point 11).stationNo = s.main.localStation.setWidth 16
  · rw [if_pos ⟨htype, hown⟩, recvWritePara_local hown]
    exact (CompletesRequest.written _ _).precede
      ((Touches.of_keeps (readWriteParas_keeps _ _)).after (htemp _))
  · rw [if_neg fun h => hown h.2, recvWritePara_remote hown]
    exact CompletesRequest.idle
      ((Touches.of_keeps (canBusSendParaBlock_keeps _ _ _)).after (htemp _))

theorem recvMessageFromServer_completes (point : Mem) (len : Nat) (s : Station) :
    CompletesRequest (serverCompletion point len s) s (recvMessageFromServer point len s) := by
  have hsend : ∀ pbuf f src t, Idle t (canBusSendMsg pbuf f src t) :=
    fun pbuf f src t => Touches.of_keeps (canBusSendMsg_keeps pbuf f src t)
  unfold recvMessageFromServer recvMsgProcess
  split_ifs with hcheck hboot hread hlocal hwrite hstart hreset hselect
  · have hnone : serverCompletion point len s = none := if_pos hcheck
    rw [hnone]
    exact CompletesRequest.idle (Touches.refl s)
  · rw [serverCompletion_other (by rw [hboot]; decide) (by rw [hboot]; decide)]
    exact CompletesRequest.idle (Touches.of_keeps (enterBootMode_keeps s))
  · have hsome : serverCompletion point len s =
        some (REPLY_RECV_MSG_READ_PARA_CMD_TYPE, s.logic.userParasLocal.toUserParas) :=
      (if_neg hcheck).trans (if_pos ⟨hread, hlocal⟩)
    rw [hsome]
    exact CompletesRequest.read _ s
  · have hnone : serverCompletion point len s = none := by
      unfold serverCompletion
      rw [if_neg hcheck, if_neg fun h => hlocal h.2]
      exact if_neg fun h => absurd (hread.symm.trans h.1) (by decide)
    rw [hnone]
    exact CompletesRequest.idle (hsend _ _ _ s)
  · exact recvWritePara_completes hcheck hwrite
  all_goals rw [serverCompletion_other hread hwrite]
  · exact CompletesRequest.idle ((hsend _ _ _ _).after ((speedCtrlProcess_touches _ s).mono))
  · exact CompletesRequest.idle
      ((hsend _ _ _ _).after (Touches.of_quiet (resetCtrlHandle_quiet s)))
  · exact CompletesRequest.idle
      ((hsend _ _ _ _).after (Touches.of_quiet (setBlockDisable_quiet _ s)))
  · exact CompletesRequest.idle (Touches.refl s)

theorem udpClientProcess_completes (env : UdpEnv) (s : Station) :
    CompletesRequest
      (if s.msg.tcpClientStatue = .connectRecv then
        serverCompletion s.msg.tcpRecvBuf s.msg.tcpRecvLen.toNat s
      else none) s (udpClientProcess env s) := by
  have hidle : ∀ t : Station,
      Idle t { t with msg.tcpRecvLen := 0, msg.tcpClientStatue := .connectOk } :=
    fun t => Touches.of_keeps (recvDone_keeps t)
  have hconnect : ∀ t, Idle t (udpConnectProcess env t) :=
    fun t => (udpConnectProcess_touches env t).mono
  have hmsg := recvMessageFromServer_completes s.msg.tcpRecvBuf s.msg.tcpRecvLen.toNat s
  unfold udpClientProcess
  dsimp only
  split_ifs
  · exact hmsg
  · exact hmsg.follow ((hconnect _).after (hidle _))
  · exact CompletesRequest.idle (hconnect s)

/-- The inputs that move message types which are no new replies: the tick and the
upload. -/
def Input.MovesTypes : Input → Prop
  | .timeUpdate _ | .sendMessage => True
  | _ => False

/-- **What a step completes.** -/
theorem step_completes (s : Station) {i : Input} (hi : ¬ i.MovesTypes) :
    CompletesRequest (completion s i) s (step s i) := by
  unfold completion
  by_cases hreset : s.systemReset = true
  · have hstay : step s i = s := if_pos hreset
    rw [if_pos hreset, hstay]
    exact CompletesRequest.idle (Touches.refl s)
  rw [if_neg hreset]
  have htouch := step_touches s i
  cases i with
  | timeUpdate pins => exact absurd trivial hi
  | sendMessage => exact absurd trivial hi
  | canFrame rxMsg =>
      have hstep : step s (.canFrame rxMsg) = canBusFrameReceive rxMsg s := if_neg hreset
      rw [hstep]
      exact canBusFrameReceive_completes rxMsg s
  | udpClient env =>
      have hstep : step s (.udpClient env) =
          if s.isHost then udpClientProcess env s else s := if_neg hreset
      rw [hstep]
      dsimp only
      by_cases hhost : s.isHost = true
      · have hclient := udpClientProcess_completes env s
        simp only [hhost, true_and, if_true]
        exact hclient
      · rw [if_neg hhost, if_neg fun h => hhost h.1]
        exact CompletesRequest.idle (Touches.refl s)
  | _ =>
      exact CompletesRequest.idle htouch.mono

/-! ## Requests and replies in step -/

/-- The requests in `done` were answered, and those in `due` wait for their replies,
which are to carry the one block there is. -/
structure Answered (done due : List ParaRequest) (s : Station) : Prop where
  completed : completions s.trace = done ++ due
  built : replies s.trace = done.map ParaRequest.datagram
  waiting : s.repliesDue = due.map Prod.fst
  block : ∀ c ∈ due, c.2 = s.logic.userParasSlave

theorem filterMap_eq_of_logs {α : Type} {f : Event → Option α} {trace trace' es : List Event}
    (htrace : trace' = es ++ trace) (hes : ∀ e ∈ es, f e = none) :
    trace'.reverse.filterMap f = trace.reverse.filterMap f := by
  have hnone : es.reverse.filterMap f = [] :=
    List.filterMap_eq_nil_iff.mpr fun e he => hes e (List.mem_reverse.mp he)
  rw [htrace, List.reverse_append, List.filterMap_append, hnone, List.append_nil]

namespace Answered

variable {done due : List ParaRequest} {s t : Station}

theorem idle (h : Answered done due s) (hst : Idle s t) : Answered done due t := by
  obtain ⟨es, htrace, hkinds⟩ := hst.logs
  have hcompleted : completions t.trace = completions s.trace :=
    filterMap_eq_of_logs htrace fun e he => by
      have hk := hkinds e he
      cases e <;> first | rfl | simp [Event.kind, idleKinds] at hk
  have hbuilt : replies t.trace = replies s.trace :=
    filterMap_eq_of_logs htrace fun e he => by
      have hk := hkinds e he
      cases e <;> first | rfl | simp [Event.kind, idleKinds] at hk
  have htypes : t.repliesDue = s.repliesDue :=
    congrArg (List.filter (· ∈ replyTypes)) (hst.keeps.msgTypes)
  refine ⟨hcompleted.trans h.completed, hbuilt.trans h.built, htypes.trans h.waiting, ?_⟩
  have hslave : t.logic.userParasSlave = s.logic.userParasSlave := hst.keeps.same .slave (by decide)
  intro c hc
  rw [hslave]
  exact h.block c hc

/-- The tick's own type is no reply type, whether it finds room or not. -/
theorem ask (h : Answered done due s) :
    Answered done due (addSendMsgToQueue SEND_MSG_MODULE_STATUS_TYPE s) := by
  refine ⟨h.completed, h.built, ?_, h.block⟩
  have hdue : (addSendMsgToQueue SEND_MSG_MODULE_STATUS_TYPE s).repliesDue = s.repliesDue := by
    unfold Station.repliesDue Station.msgTypes addSendMsgToQueue
    by_cases hfull : s.msg.msgSendQueue.IsFull
    · rw [RingFifo.add_of_full hfull]
    · rw [RingFifo.contents_add hfull, List.filter_append]
      exact List.append_nil _
  exact hdue.trans h.waiting

/-- A request joins those that wait. -/
theorem request (h : Answered done due s) {c : ParaRequest} (htype : c.1 ∈ replyTypes)
    (hroom : ¬ s.msg.msgSendQueue.IsFull)
    (hblock : s.repliesDue = [] ∨ c.2 = s.logic.userParasSlave) :
    Answered done (due ++ [c]) (paraReply c.1 c.2 s) := by
  refine ⟨?_, ?_, ?_, ?_⟩
  · have hlog : completions (paraReply c.1 c.2 s).trace = completions s.trace ++ [c] := by
      show (Event.paraDone c.1 c.2 :: s.trace).reverse.filterMap Event.completed = _
      rw [List.reverse_cons, List.filterMap_append]
      rfl
    rw [hlog, h.completed, List.append_assoc]
  · rw [← h.built]
    have hlog : (paraReply c.1 c.2 s).trace = [.paraDone c.1 c.2] ++ s.trace := rfl
    exact filterMap_eq_of_logs hlog (by simp [Event.built])
  · have hdue : (paraReply c.1 c.2 s).repliesDue = s.repliesDue ++ [c.1] := by
      unfold Station.repliesDue
      have htypes : (paraReply c.1 c.2 s).msgTypes = s.msgTypes ++ [c.1] :=
        RingFifo.contents_add hroom c.1
      rw [htypes, List.filter_append, List.filter_singleton]
      simp [htype]
    rw [hdue, h.waiting, List.map_append, List.map_singleton]
  · intro d hd
    show d.2 = c.2
    rcases List.mem_append.mp hd with hd | hd
    · rcases hblock with hnone | hsame
      · have hdue : due.map Prod.fst = [] := h.waiting.symm.trans hnone
        rw [List.map_eq_nil_iff.mp hdue] at hd
        exact absurd hd (List.not_mem_nil)
      · rw [hsame]
        exact h.block d hd
    · rw [List.mem_singleton.mp hd]

theorem completes {c : Option ParaRequest} (h : Answered done due s) (hc : CompletesRequest c s t)
    (hroom : ¬ s.msg.msgSendQueue.IsFull)
    (hblock : ∀ d ∈ c, s.repliesDue = [] ∨ d.2 = s.logic.userParasSlave) :
    ∃ due', Answered done due' t := by
  cases hc with
  | idle hst => exact ⟨due, h.idle hst⟩
  | @request _ u _ d type before after =>
      have hqueue : u.msg.msgSendQueue = s.msg.msgSendQueue :=
        before.keeps.same .msgQueue (by decide)
      have hslave : u.logic.userParasSlave = s.logic.userParasSlave :=
        before.keeps.same .slave (by decide)
      refine ⟨due ++ [d], ((h.idle before).request type ?_ ?_).idle after⟩
      · rwa [hqueue]
      · rw [hslave]
        refine (hblock d rfl).imp_left fun hnone => ?_
        rw [(h.idle before).waiting, ← h.waiting, hnone]

/-- The oldest waiting reply is built with its own block. -/
theorem reply {type : U16} (h : Answered done due s) {rest : List U16}
    (hdue : s.repliesDue = type :: rest) (htypes : t.repliesDue = rest)
    (hslave : t.logic.userParasSlave = s.logic.userParasSlave)
    (htrace : t.trace = .replyBuilt (replyParaDatagram type s.logic.userParasSlave) :: s.trace) :
    ∃ done' due', Answered done' due' t := by
  have hmap : due.map Prod.fst = type :: rest := h.waiting.symm.trans hdue
  obtain ⟨c, due', rfl, hfst, hrest⟩ := List.map_eq_cons_iff.mp hmap
  have hblock : c.2 = s.logic.userParasSlave := h.block c List.mem_cons_self
  refine ⟨done ++ [c], due', ?_, ?_, htypes.trans hrest.symm, ?_⟩
  · have hsame : completions t.trace = completions s.trace :=
      filterMap_eq_of_logs (htrace.trans List.singleton_append.symm) (by simp [Event.completed])
    rw [hsame, h.completed, List.append_assoc, List.singleton_append]
  · have hbuilt : replies t.trace =
        replies s.trace ++ [replyParaDatagram type s.logic.userParasSlave] := by
      unfold replies
      rw [htrace, List.reverse_cons, List.filterMap_append]
      rfl
    rw [hbuilt, h.built, List.map_append, ← hfst, ← hblock]
    rfl
  · intro d hd
    rw [hslave]
    exact h.block d (List.mem_cons_of_mem _ hd)

end Answered

/-- Store a new queue of message types. -/
def setMsgQueue (q : RingFifo U16 100) (s : Station) : Station :=
  { s with msg.msgSendQueue := q }

/-- The upload builds the oldest waiting reply, or takes another type, or nothing. -/
theorem sendMessageToServer_answered {done due : List ParaRequest} {s : Station}
    (h : Answered done due s) :
    ∃ done' due', Answered done' due' (sendMessageToServer s) := by
  have hen : ∀ t : Station,
      Idle t (if t.msg.tcpSendLen ≠ 0 then { t with msg.tcpSendEn := true } else t) := by
    intro t
    split_ifs
    · exact Touches.of_keeps (setSendEn_keeps t)
    · exact Touches.refl t
  have hstatus : ∀ type t, Idle t (sendMsgModuleStatusCmd type t) := fun type t =>
    Touches.of_keeps (sendMsgModuleStatusCmd_keeps type t)
  unfold sendMessageToServer
  by_cases hpending : s.msg.tcpSendEn = true
  · rw [if_pos hpending]
    exact ⟨done, due, h⟩
  rw [if_neg hpending]
  unfold getSendMsgFromQueue
  cases htake : s.msg.msgSendQueue.take with
  | none => exact ⟨done, due, h⟩
  | some p =>
      obtain ⟨type, q⟩ := p
      have hcontents : s.msgTypes = type :: q.contents := RingFifo.contents_take htake
      have hother : type ∉ replyTypes → Answered done due (setMsgQueue q s) := by
        intro htype
        refine ⟨h.completed, h.built, ?_, h.block⟩
        have hdue : (setMsgQueue q s).repliesDue = s.repliesDue := by
          unfold Station.repliesDue
          rw [hcontents, List.filter_cons_of_neg (by simpa using htype)]
          rfl
        exact hdue.trans h.waiting
      have hreply : type ∈ replyTypes →
          ∃ done' due', Answered done' due'
            { sendReplyParaCmd type (setMsgQueue q s) with msg.tcpSendEn := true } := by
        intro htype
        have hdue : s.repliesDue = type :: q.contents.filter (· ∈ replyTypes) := by
          unfold Station.repliesDue
          rw [hcontents, List.filter_cons_of_pos (by simpa using htype)]
        exact h.reply hdue rfl rfl rfl
      show ∃ done' due', Answered done' due'
        (if type = SEND_MSG_MODULE_STATUS_TYPE then _
          else if type = REPLY_RECV_MSG_READ_PARA_CMD_TYPE then _
          else if type = REPLY_RECV_MSG_WRITE_PARA_CMD_TYPE then _ else _)
      split_ifs with hstat hread hwrite
      · have htaken := hother (by rw [hstat]; decide)
        exact ⟨done, due, (htaken.idle (hstatus type _)).idle (hen _)⟩
      · subst hread
        exact hreply List.mem_cons_self
      · subst hwrite
        exact hreply (List.mem_cons_of_mem _ List.mem_cons_self)
      · exact ⟨done, due, hother (by simp [replyTypes, hread, hwrite])⟩

theorem timeUpdate_answered {done due : List ParaRequest} {s : Station} (pins : Pins)
    (h : Answered done due s) : Answered done due (timeUpdate pins s) := by
  have hcounters : Idle s (countResetStart (countHalfSec (countSec (countMs s)))) :=
    (Touches.of_keeps (countResetStart_keeps _)).after
      ((Touches.of_keeps (countHalfSec_keeps _)).after
        ((Touches.of_keeps (countSec_keeps _)).after (Touches.of_keeps (countMs_keeps s))))
  have hdelay : ∀ (t : Station) (n : U16), Idle t { t with main.uploadTimeDelay := n } :=
    fun t n => Touches.of_same rfl fun p => by cases p <;> rfl
  have hupload : ∀ {t}, Answered done due t → Answered done due (countUpload t) := by
    intro t ht
    unfold countUpload queueUpload
    dsimp only
    split_ifs
    · exact (ht.idle (hdelay t 10)).ask
    · exact ht.idle (hdelay t 10)
    · exact ht.idle (hdelay t _)
    · exact ht
  exact ((hupload (h.idle hcounters)).idle (Touches.of_keeps (uartRecvTimeout_keeps _))).idle
    ((inputScanProc_touches pins _).mono)

/-- **One step** keeps requests and replies in step. -/
theorem step_answered {done due : List ParaRequest} {s : Station} {i : Input}
    (h : Answered done due s) (hroom : ¬ s.msg.msgSendQueue.IsFull) (hover : ¬ Overwrites s i) :
    ∃ done' due', Answered done' due' (step s i) := by
  by_cases hmoves : i.MovesTypes
  · unfold step
    split_ifs
    · exact ⟨done, due, h⟩
    cases i with
    | timeUpdate pins => exact ⟨done, due, timeUpdate_answered pins h⟩
    | sendMessage =>
        show ∃ done' due', Answered done' due' (if s.isHost then sendMessageToServer s else s)
        split_ifs
        · exact sendMessageToServer_answered h
        · exact ⟨done, due, h⟩
    | _ => exact absurd hmoves id
  · refine ⟨done, h.completes (step_completes s hmoves) hroom fun c hc => ?_⟩
    by_cases hdue : s.repliesDue = []
    · exact Or.inl hdue
    · by_contra hblock
      exact hover ⟨hdue, c, hc, fun hsame => hblock (Or.inr hsame)⟩

/-- The queue has room and no waiting reply loses its block. -/
def KeepsReplies (s : Station) (i : Input) : Prop :=
  ¬ s.msg.msgSendQueue.IsFull ∧ ¬ Overwrites s i

instance (s : Station) (i : Input) : Decidable (KeepsReplies s i) :=
  inferInstanceAs (Decidable (_ ∧ _))

theorem reachable_answered {s : Station} (h : Reachable KeepsReplies s) :
    ∃ done due, Answered done due s := by
  have hinit : ∀ s, Booted s → ∃ done due, Answered done due s := by
    intro s hs
    obtain ⟨flash, localStation, rfl⟩ := hs
    have htypes : (boot flash localStation).msgTypes = [] :=
      (boot_keeps flash localStation).msgTypes.trans (RingFifo.contents_empty _ _)
    refine ⟨[], [], ?_, ?_, ?_, by simp⟩
    · rw [boot_trace]
      rfl
    · rw [boot_trace]
      rfl
    · unfold Station.repliesDue
      rw [htypes]
      rfl
  exact h.invariant hinit fun s i hs hok => by
    obtain ⟨done, due, hs⟩ := hs
    exact step_answered hs hok.1 hok.2

/-- **No mix-up.**  In every run in which the queue of message types has room and no
request is completed with another block while a reply waits, the n-th parameter reply
carries the type and the block of the n-th completed request. -/
theorem replies_in_order {s : Station} (h : Reachable KeepsReplies s) :
    RepliesMatch s.trace := by
  obtain ⟨done, due, ha⟩ := reachable_answered h
  intro n datagram hn
  rw [ha.built, List.getElem?_map] at hn
  obtain ⟨c, hc, hdatagram⟩ := Option.map_eq_some_iff.mp hn
  refine ⟨c, ?_, hdatagram.symm⟩
  obtain ⟨hlt, -⟩ := List.getElem?_eq_some_iff.mp hc
  rw [ha.completed, List.getElem?_append_left hlt]
  exact hc

/-- **No loss.**  In these runs the waiting types are those of the requests that have
no reply yet. -/
theorem replies_owed {s : Station} (h : Reachable KeepsReplies s) :
    s.repliesDue = ((completions s.trace).drop (replies s.trace).length).map Prod.fst := by
  obtain ⟨done, due, ha⟩ := reachable_answered h
  rw [ha.waiting, ha.built, ha.completed, List.length_map, List.drop_left]

/-! ## Two runs -/

/-- A datagram that asks the host for its own parameters. -/
def readOwnParas : Pbuf :=
  { segments := [[0xAA, 0xAA, 0x01, 0x00, 0x00, 0x00, 0x0C, 0x00, 0x14, 0x03, 0x16, 0x01]]
    behind := fun _ => 0 }

/-- A datagram that writes the host's own parameters: no belts, and section 7 upstream. -/
def writeOwnParas : Pbuf :=
  { segments := [[0xAA, 0xAA, 0x01, 0x00, 0x00, 0x00, 0xF3, 0x00, 0x14, 0x04, 0x16] ++
      [0x00, 0x00, 0x00, 0x00, 0x01, 0x00, 0x07, 0x00] ++ List.replicate 224 0x00]
    behind := fun _ => 0 }

def linkUp : UdpEnv := { pcbCreated := true, connected := true, pbufAllocated := true }

/-- Connect to the server, then handle one datagram after the other, with an upload
in between or not. -/
def twoRequests (upload : List Input) : List Input :=
  [.udpClient linkUp, .udpClient linkUp, .udpReceive readOwnParas 0, .udpClient linkUp] ++
    upload ++ [.udpReceive writeOwnParas 0, .udpClient linkUp, .sendMessage]

/-- With an upload after each request both are answered with their own blocks. -/
theorem upload_between_in_order :
    RepliesMatch (run step (boot zeroFlash 1) (twoRequests [.sendMessage])).trace := by
  have halong : Along step KeepsReplies (boot zeroFlash 1) (twoRequests [.sendMessage]) := by
    decide +kernel
  exact replies_in_order (reach_run ⟨_, _, rfl⟩ halong)

/-- Without one the reply to the read carries what was written afterwards. -/
theorem second_block_in_first_reply :
    ¬ ∀ s, Reachable (fun s _ => ¬ s.msg.msgSendQueue.IsFull) s → s.isHost = true →
      RepliesMatch s.trace := by
  intro h
  have hrun : Along step (fun s _ => ¬ s.msg.msgSendQueue.IsFull) (boot zeroFlash 1)
        (twoRequests []) ∧
      (run step (boot zeroFlash 1) (twoRequests [])).isHost = true ∧
      (replies (run step (boot zeroFlash 1) (twoRequests [])).trace).length = 1 ∧
      (replies (run step (boot zeroFlash 1) (twoRequests [])).trace)[0]? ≠
        ((completions (run step (boot zeroFlash 1) (twoRequests [])).trace)[0]?).map
          ParaRequest.datagram := by decide +kernel
  obtain ⟨halong, hhost, hbuilt, hreply⟩ := hrun
  obtain ⟨datagram, hfirst⟩ := List.length_eq_one_iff.mp hbuilt
  obtain ⟨c, hc, hcarries⟩ :=
    h _ (reach_run ⟨_, _, rfl⟩ halong) hhost 0 datagram (by rw [hfirst]; rfl)
  refine hreply ?_
  rw [hc, hfirst, hcarries]
  rfl

end IotCtrl
