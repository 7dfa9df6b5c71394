import IotCtrl.LineCommand

/-!
# What one step touches

`Touches parts kinds s t` bounds what a routine did: `t` differs from `s` in the
listed parts at most, and its history is that of `s` with events of the listed
kinds in front.  The lemmas go through the routines that `LineFrame` leaves out and
end with one statement about every input.

* `Input.parts`, `Input.kinds` — what an input may touch and record;
* `step_touches` — it touches and records nothing else.
-/

namespace IotCtrl

open ByteMemory Transition ClosedFacts

/-! ## Kinds of events -/

/-- The events without what they carry. -/
inductive EventKind
  | speedCall
  | modbusTx
  | canDone
  | paraDone
  | replyBuilt
  | udpSent
deriving DecidableEq

/-- The kind of an event. -/
def Event.kind : Event → EventKind
  | .speedCall _ _ => .speedCall
  | .modbusTx _ => .modbusTx
  | .canDone _ _ _ => .canDone
  | .paraDone _ _ => .paraDone
  | .replyBuilt _ => .replyBuilt
  | .udpSent _ => .udpSent

/-- The gear of a line command. -/
def Event.gear : Event → Option U8
  | .speedCall g _ => some g
  | _ => none

attribute [reducible] EventKind.ctorIdx

/-- The kinds are numbered one to one, which the checks on closed lists rely on. -/
theorem EventKind.ctorIdx_inj (k l : EventKind) (h : k.ctorIdx = l.ctorIdx) : k = l := by
  rw [← EventKind.ofNat_ctorIdx k, h, EventKind.ofNat_ctorIdx]

section Evident

variable {k : EventKind} {ks ls : List EventKind}

instance [h : Checked (lacks EventKind.ctorIdx k ks)] : Evident (k ∉ ks) :=
  ⟨not_mem_of_lacks h.out⟩

instance [h : Checked (has EventKind.ctorIdx k ks)] : Evident (k ∈ ks) :=
  ⟨mem_of_has EventKind.ctorIdx_inj h.out⟩

instance [h : Checked (within EventKind.ctorIdx ks ls)] : Evident (∀ k ∈ ks, k ∈ ls) :=
  ⟨subset_of_within EventKind.ctorIdx_inj h.out⟩

end Evident

/-- Only the listed parts differ, and only events of the listed kinds were recorded. -/
structure Touches (parts : List Part) (kinds : List EventKind) (s t : Station) : Prop where
  keeps : Keeps parts s t
  logs : ∃ es, t.trace = es ++ s.trace ∧ ∀ e ∈ es, e.kind ∈ kinds

namespace Touches

variable {ps qs : List Part} {ks ls : List EventKind} {s t u : Station}

theorem refl (s : Station) : Touches ps ks s s := ⟨Keeps.refl s, [], rfl, by simp⟩

/-- Two routines in a row record what either of them records, the later events in front. -/
theorem trans (h : Touches ps ks s t) (h' : Touches ps ks t u) : Touches ps ks s u := by
  obtain ⟨es, hes, hks⟩ := h.logs
  obtain ⟨es', hes', hks'⟩ := h'.logs
  refine ⟨h.keeps.trans h'.keeps, es' ++ es, ?_, ?_⟩
  · rw [hes', hes, List.append_assoc]
  · intro e he
    exact (List.mem_append.mp he).elim (hks' e) (hks e)

/-- `trans` with the later half first, which fixes the state in between. -/
theorem after (h' : Touches ps ks t u) (h : Touches ps ks s t) : Touches ps ks s u := h.trans h'

/-- Fewer parts and kinds than listed. -/
theorem mono (h : Touches ps ks s t) [hps : Evident (∀ p ∈ ps, p ∈ qs)]
    [hks : Evident (∀ k ∈ ks, k ∈ ls)] : Touches qs ls s t := by
  obtain ⟨es, hes, hk⟩ := h.logs
  exact ⟨h.keeps.mono, es, hes, fun e he => hks.out _ (hk e he)⟩

/-- A routine that records nothing. -/
theorem of_keeps (h : Keeps ps s t) [hps : Evident (∀ p ∈ ps, p ∈ qs)]
    [hp : Evident (.trace ∉ ps)] : Touches qs ks s t :=
  ⟨h.mono, [], h.trace, by simp⟩

/-- A line handler, which records nothing. -/
theorem of_quiet (h : QuietBut ps s t) [hps : Evident (∀ p ∈ ps, p ∈ qs)]
    [hp : Evident (.trace ∉ ps)] : Touches qs ks s t :=
  of_keeps h.keeps

/-- An update outside all parts. -/
theorem of_same (hstation : t.main.localStation = s.main.localStation)
    (hsame : ∀ p : Part, p.Same s t) : Touches qs ks s t :=
  ⟨⟨hstation, fun p _ => hsame p⟩, [], hsame .trace, by simp⟩

/-- A routine that records one event. -/
theorem of_log (h : Keeps ps s t) {e : Event} (he : t.trace = e :: s.trace)
    [hps : Evident (∀ p ∈ ps, p ∈ qs)] (hk : e.kind ∈ ks) : Touches qs ks s t :=
  ⟨h.mono, [e], he, by simpa using hk⟩

/-- Recording an event touches the history. -/
theorem log (e : Event) (s : Station) (hk : e.kind ∈ ks) [hp : Evident (.trace ∈ qs)] :
    Touches qs ks s (s.log e) :=
  ⟨⟨rfl, fun p hq => by cases p <;> first | rfl | exact absurd hp.out hq⟩, [e], rfl,
    by simpa using hk⟩

end Touches

/-- The events recorded on the way from `s` to `t`, latest first. -/
def newEvents (s t : Station) : List Event := t.trace.take (t.trace.length - s.trace.length)

/-- The new events are what stands in front of the old history. -/
theorem newEvents_of_append {s t : Station} {es : List Event} (h : t.trace = es ++ s.trace) :
    newEvents s t = es := by
  unfold newEvents
  rw [h, List.length_append, Nat.add_sub_cancel, List.take_left]

/-- An unchanged history has none. -/
theorem newEvents_of_same {s t : Station} (h : t.trace = s.trace) : newEvents s t = [] :=
  newEvents_of_append h

/-- A single one. -/
theorem newEvents_of_cons {s t : Station} {e : Event} (h : t.trace = e :: s.trace) :
    newEvents s t = [e] :=
  newEvents_of_append h

/-- The history splits into the new events and the old history. -/
theorem Touches.trace_eq {ps : List Part} {ks : List EventKind} {s t : Station}
    (h : Touches ps ks s t) : t.trace = newEvents s t ++ s.trace := by
  obtain ⟨es, hes, -⟩ := h.logs
  rw [newEvents_of_append hes, hes]

/-- Every new event is of a listed kind. -/
theorem Touches.kind_mem {ps : List Part} {ks : List EventKind} {s t : Station}
    (h : Touches ps ks s t) {e : Event} (he : e ∈ newEvents s t) : e.kind ∈ ks := by
  obtain ⟨es, hes, hkinds⟩ := h.logs
  rw [newEvents_of_append hes] at he
  exact hkinds e he

/-- How many events of a kind were recorded. -/
def Station.events (s : Station) (k : EventKind) : Nat := s.trace.countP fun e => e.kind = k

/-- Recording an event raises one count. -/
theorem Station.events_log (s : Station) (e : Event) (k : EventKind) :
    (s.log e).events k = s.events k + if e.kind = k then 1 else 0 := by
  unfold Station.events
  rw [Station.log_trace, List.countP_cons]
  simp

/-- Routines that record other events leave the count alone. -/
theorem Touches.events {ps : List Part} {ks : List EventKind} {s t : Station}
    (h : Touches ps ks s t) {k : EventKind} [hk : Evident (k ∉ ks)] :
    t.events k = s.events k := by
  obtain ⟨es, hes, hkinds⟩ := h.logs
  unfold Station.events
  rw [hes, List.countP_append]
  have hzero : es.countP (fun e => e.kind = k) = 0 := by
    rw [List.countP_eq_zero]
    intro e he heq
    exact hk.out (of_decide_eq_true heq ▸ hkinds e he)
  omega

/-- Nothing is recorded, and no count changes. -/
theorem Keeps.events {ps : List Part} {s t : Station} (h : Keeps ps s t) (k : EventKind)
    [hp : Evident (.trace ∉ ps)] : t.events k = s.events k :=
  congrArg (List.countP _) h.trace

/-! ## Line commands and parameters -/

/-- A line command is recorded as one call. -/
theorem speedCtrlProcess_touches (g : U8) (s : Station) :
    Touches [.uartQueue, .gear, .runSta, .trace] [.speedCall] s (speedCtrlProcess g s) :=
  Touches.of_log (speedCtrlProcess_keeps g s) (speedCtrlProcess_trace g s)
    List.mem_cons_self

/-- A finished parameter request is recorded. -/
theorem paraReply_touches (msgType : U16) (block : UserParas) (s : Station) :
    Touches paraParts [.paraDone] s (paraReply msgType block s) :=
  Touches.of_log (paraReply_keeps msgType block s) rfl List.mem_cons_self

/-- Parameters that are stored are loaded again. -/
theorem readWriteParas_keeps (para : Nat → U16) (s : Station) :
    Keeps [.paras, .modbus, .flash] s (readUserParas (writeUserParas para s)) :=
  ((readUserParas_keeps _).mono).after ((writeUserParas_keeps _ s).mono)

/-- A parameter message finishes at most one request. -/
theorem paraDataRecvProcess_touches (pbuf : Mem) (recvLen : Nat) (s : Station) :
    Touches paraParts [.paraDone] s (paraDataRecvProcess pbuf recvLen s).val := by
  have hsend : ∀ cmd block t, Touches paraParts [.paraDone] t (canBusSendParaBlock cmd block t) :=
    fun cmd block t => Touches.of_keeps (canBusSendParaBlock_keeps cmd block t)
  unfold paraDataRecvProcess
  simp only [Traced.val_bind]
  split_ifs
  · exact Touches.refl s
  · exact hsend _ _ s
  · exact paraReply_touches _ _ s
  · exact (hsend _ _ _).after (Touches.of_keeps (readWriteParas_keeps _ s))
  · exact paraReply_touches _ _ s
  · exact Touches.refl s

/-- A write request for this station finishes at once; one for another station is passed on. -/
theorem recvWritePara_touches (point : Mem) (s : Station) :
    Touches paraParts [.paraDone] s (recvWritePara point s) := by
  have htemp : ∀ p, Touches paraParts [.paraDone] s (setParasTemp p s) := fun p =>
    Touches.of_same rfl fun p => by cases p <;> rfl
  unfold recvWritePara
  dsimp only
  split_ifs
  · refine (paraReply_touches _ _ _).after ?_
    exact (Touches.of_keeps (readWriteParas_keeps _ _)).after (htemp _)
  · exact (Touches.of_keeps (canBusSendParaBlock_keeps _ _ _)).after (htemp _)

/-! ## Received frames -/

/-- What a received frame may touch. -/
@[reducible] def frameParts : List Part :=
  .recv :: .uartQueue :: .gear :: .runSta :: .moduleQueue :: .systemReset :: paraParts

/-- A complete message carries out a line command, or handles parameters. -/
theorem canDispatch_touches (funcId srcId : U8) (s : Station) :
    Touches (.uartQueue :: .gear :: .runSta :: .moduleQueue :: paraParts) [.speedCall, .paraDone] s
      (canDispatch funcId srcId s).val := by
  unfold canDispatch
  dsimp only
  split_ifs
  · exact (paraDataRecvProcess_touches _ _ s).mono
  · exact (speedCtrlProcess_touches _ s).mono
  · exact Touches.of_quiet (moduleStatusRecvProcess_quiet _ _ _ s)
  · exact Touches.of_quiet (resetCtrlHandle_quiet s)
  · exact Touches.of_quiet (setBlockDisable_quiet _ s)
  · exact Touches.of_keeps (canBusSendModuleStatus_keeps s)
  · exact Touches.refl s

/-- A frame completes a message, which is recorded before it is handled. -/
theorem canBusFrameReceive_touches (rxMsg : CanRxMsg) (s : Station) :
    Touches frameParts [.canDone, .speedCall, .paraDone] s (canBusFrameReceive rxMsg s) := by
  have hrecv : ∀ r, Touches frameParts [.canDone, .speedCall, .paraDone] s (setCanRecv r s) :=
    fun r => Touches.of_keeps (setCanRecv_keeps r s)
  have hdone : ∀ f src payload t, Touches frameParts [.canDone, .speedCall, .paraDone] t
      (t.log (.canDone f src payload)) :=
    fun f src payload t => Touches.log _ t List.mem_cons_self
  unfold canBusFrameReceive
  dsimp only
  split_ifs
  · exact Touches.of_keeps (enterBootMode_keeps s)
  · refine ((canDispatch_touches _ _ _).mono).after ?_
    exact (hdone _ _ _ _).after (hrecv _)
  · exact hrecv _

/-! ## The server link -/

/-- What a datagram from the server may touch. -/
@[reducible] def datagramParts : List Part :=
  .uartQueue :: .gear :: .runSta :: .systemReset :: paraParts

/-- A datagram carries out a line command, or handles parameters. -/
theorem recvMessageFromServer_touches (point : Mem) (len : Nat) (s : Station) :
    Touches datagramParts [.speedCall, .paraDone] s (recvMessageFromServer point len s) := by
  have hsend : ∀ pbuf f src t,
      Touches datagramParts [.speedCall, .paraDone] t (canBusSendMsg pbuf f src t) :=
    fun pbuf f src t => Touches.of_keeps (canBusSendMsg_keeps pbuf f src t)
  unfold recvMessageFromServer recvMsgProcess
  split_ifs
  · exact Touches.refl s
  · exact Touches.of_keeps (enterBootMode_keeps s)
  · exact (paraReply_touches _ _ s).mono
  · exact hsend _ _ _ s
  · exact (recvWritePara_touches point s).mono
  · exact (hsend _ _ _ _).after ((speedCtrlProcess_touches _ s).mono)
  · exact (hsend _ _ _ _).after (Touches.of_quiet (resetCtrlHandle_quiet s))
  · exact (hsend _ _ _ _).after (Touches.of_quiet (setBlockDisable_quiet _ s))
  · exact Touches.refl s

/-- A datagram that is sent is recorded. -/
theorem udpConnectProcess_touches (env : UdpEnv) (s : Station) :
    Touches [.link, .trace] [.udpSent] s (udpConnectProcess env s) := by
  refine ⟨udpConnectProcess_keeps env s, ?_⟩
  unfold udpConnectProcess udpSendProcess
  dsimp only
  split_ifs
  all_goals first
    | exact ⟨[], rfl, by simp⟩
    | exact ⟨[_], rfl, by simp [Event.kind]⟩

/-- First what came in is handled, then what waits is sent. -/
theorem udpClientProcess_touches (env : UdpEnv) (s : Station) :
    Touches (.link :: datagramParts) [.speedCall, .paraDone, .udpSent] s
      (udpClientProcess env s) := by
  have hidle : ∀ t : Station, Touches (.link :: datagramParts) [.speedCall, .paraDone, .udpSent] t
      { t with msg.tcpRecvLen := 0, msg.tcpClientStatue := .connectOk } :=
    fun t => Touches.of_keeps (recvDone_keeps t)
  have hmsg := (recvMessageFromServer_touches s.msg.tcpRecvBuf s.msg.tcpRecvLen.toNat s)
  unfold udpClientProcess
  dsimp only
  split_ifs
  · exact hmsg.mono
  · exact ((udpConnectProcess_touches env _).mono).after ((hidle _).after hmsg.mono)
  · exact (udpConnectProcess_touches env s).mono

/-- Only a parameter reply is recorded when it is built. -/
theorem sendMessageToServer_touches (s : Station) :
    Touches [.msgQueue, .moduleQueue, .link, .trace] [.replyBuilt] s (sendMessageToServer s) := by
  have hget : Touches [.msgQueue, .moduleQueue, .link, .trace] [.replyBuilt] s
      (getSendMsgFromQueue s).2 :=
    Touches.of_keeps (getSendMsgFromQueue_keeps s)
  have hen : ∀ t : Station, Touches [.msgQueue, .moduleQueue, .link, .trace] [.replyBuilt] t
      { t with msg.tcpSendEn := true } := fun t => Touches.of_keeps (setSendEn_keeps t)
  have hreply : ∀ type t, Touches [.msgQueue, .moduleQueue, .link, .trace] [.replyBuilt] t
      (sendReplyParaCmd type t) := fun type t =>
    Touches.of_log (sendReplyParaCmd_keeps type t) rfl List.mem_cons_self
  have hstatus : ∀ type t, Touches [.msgQueue, .moduleQueue, .link, .trace] [.replyBuilt] t
      (sendMsgModuleStatusCmd type t) := fun type t =>
    Touches.of_keeps (sendMsgModuleStatusCmd_keeps type t)
  unfold sendMessageToServer sendReplyReadParaCmd sendReplyWriteParaCmd
  dsimp only
  split_ifs
  · exact Touches.refl s
  · exact ((hen _).after (hstatus _ _)).after hget
  · exact (hstatus _ _).after hget
  · exact ((hen _).after (hreply _ _)).after hget
  · exact ((hen _).after (hreply _ _)).after hget
  · exact hget

/-! ## The tick and the master -/

/-- What the scanned inputs may touch. -/
@[reducible] def scanParts : List Part :=
  [.uartQueue, .gear, .runSta, .emergency, .canQueue, .trace]

/-- What a tick may touch. -/
@[reducible] def tickParts : List Part := .node :: .uartState :: .msgQueue :: scanParts

/-- What the inputs before the emergency input may touch. -/
@[reducible] def commandParts : List Part := [.uartQueue, .gear, .runSta, .canQueue, .trace]

/-- A button of the host is a line command that is broadcast. -/
theorem buttonCommand_touches (g : U8) (s : Station) :
    Touches commandParts [.speedCall] s (buttonCommand g s) := by
  unfold buttonCommand
  split_ifs
  · exact (Touches.of_keeps (canBusSendMsg_keeps _ _ _ _)).after
      ((speedCtrlProcess_touches g s).mono)
  · exact Touches.refl s

/-- The start button. -/
theorem scanStart_touches (pins : Pins) (s : Station) :
    Touches commandParts [.speedCall] s (scanStart pins s) := by
  have hset : ∀ b, Touches commandParts [.speedCall] s (setStartInfo b s) :=
    fun b => Touches.of_quiet (setStartInfo_quiet b s)
  unfold scanStart
  dsimp only
  split_ifs
  · exact (buttonCommand_touches _ _).after (hset _)
  · exact hset _

/-- The stop button. -/
theorem scanStop_touches (pins : Pins) (s : Station) :
    Touches commandParts [.speedCall] s (scanStop pins s) := by
  have hset : ∀ b, Touches commandParts [.speedCall] s (setStopInfo b s) :=
    fun b => Touches.of_quiet (setStopInfo_quiet b s)
  unfold scanStop
  dsimp only
  split_ifs
  · exact (buttonCommand_touches _ _).after (hset _)
  · exact hset _

/-- All inputs but the emergency input. -/
theorem inputScanCommands_touches (pins : Pins) (s : Station) :
    Touches commandParts [.speedCall] s (inputScanCommands pins s) := by
  have hquiet : ∀ {t u : Station}, Quiet t u → Touches commandParts [.speedCall] t u :=
    fun h => Touches.of_quiet h
  have hphoto : ∀ t, Touches commandParts [.speedCall] t
      ((List.range 5).foldl (scanPhoto pins) t) := fun t => hquiet (photos_quiet pins t)
  unfold inputScanCommands
  refine (hquiet (scanStream_quiet pins _)).after ((scanStop_touches pins _).after ?_)
  exact (scanStart_touches pins _).after ((hphoto _).after (hquiet (scanReset_quiet pins s)))

/-- The emergency input may stop the line twice in a tick. -/
theorem scanEmergency_touches (pins : Pins) (s : Station) :
    Touches scanParts [.speedCall] s (scanEmergency pins s) := by
  have hset : ∀ b t, Touches scanParts [.speedCall] t (setEmergencyInfo b t) :=
    fun b t => Touches.of_keeps (setEmergencyInfo_keeps b t)
  have hstop : ∀ t, Touches scanParts [.speedCall] t (speedCtrlProcess EMERGENCY_STOP t) :=
    fun t => (speedCtrlProcess_touches _ t).mono
  unfold scanEmergency
  dsimp only
  split_ifs
  · exact (hstop _).after ((hset _ _).after ((hstop _).after (hset _ s)))
  · exact (hstop _).after ((hset _ _).after (hset _ s))
  · exact (hset _ _).after ((hstop _).after (hset _ s))
  · exact (hset _ _).after (hset _ s)
  · exact (hstop _).after (hset _ s)
  · exact hset _ s

/-- All inputs. -/
theorem inputScanProc_touches (pins : Pins) (s : Station) :
    Touches scanParts [.speedCall] s (inputScanProc pins s) :=
  (scanEmergency_touches pins _).after ((inputScanCommands_touches pins s).mono)

/-- A tick counts, and then scans the inputs. -/
theorem timeUpdate_touches (pins : Pins) (s : Station) :
    Touches tickParts [.speedCall] s (timeUpdate pins s) := by
  refine ((inputScanProc_touches pins _).mono).after ?_
  exact (Touches.of_keeps (uartRecvTimeout_keeps _)).after (Touches.of_keeps (timeCounters_keeps s))

/-- An attempt is recorded with its frame. -/
theorem commSendRwComand_touches (stack : Table 4 U16) (s : Station) :
    Touches [.modbus, .uartState, .trace] [.modbusTx] s (commSendRwComand stack s) := by
  unfold commSendRwComand
  split
  · rename_i frame t h
    refine (Touches.of_keeps (commSetSpeedSta_keeps _ _ _)).after ?_
    refine (Touches.of_log (uart1Send_keeps _ _) (uart1Send_trace _ _)
      List.mem_cons_self).after ?_
    exact Touches.of_keeps (commBuildFrame_keeps h)
  · exact Touches.refl s

/-- The master takes a command, sends it or judges the answer. -/
theorem modbusRtuCommProcess_touches (stack : Table 4 U16) (s : Station) :
    Touches [.uartQueue, .node, .modbus, .uartState, .commFault, .runBits, .trace] [.modbusTx] s
      (modbusRtuCommProcess stack s) := by
  unfold modbusRtuCommProcess
  split_ifs with hidle
  · exact Touches.of_keeps (commTakeNode_keeps s)
  · exact (commSendRwComand_touches stack s).mono
  · exact Touches.of_keeps (commJudge_keeps (by simpa using hidle))
  · exact Touches.refl s

/-! ## The system -/

/-- What an input may touch. -/
@[reducible] def Input.parts : Input → List Part
  | .timeUpdate _ => tickParts
  | .usart1Irq _ => [.modbus, .uartState]
  | .canFrame _ => frameParts
  | .udpReceive _ _ => [.link]
  | .udpClient _ => .link :: datagramParts
  | .sendMessage => [.msgQueue, .moduleQueue, .link, .trace]
  | .secProcess _ => [.uartQueue, .canQueue, .moduleQueue]
  | .modbusComm _ => [.uartQueue, .node, .modbus, .uartState, .commFault, .runBits, .trace]
  | .canSend _ => [.canQueue]
  | .resetStart | .upstreamIo | .uploadRunState => [.uartQueue]
  | .msoneProcess _ => [.uartQueue, .polling]

/-- What an input may record. -/
@[reducible] def Input.kinds : Input → List EventKind
  | .timeUpdate _ => [.speedCall]
  | .canFrame _ => [.canDone, .speedCall, .paraDone]
  | .udpClient _ => [.speedCall, .paraDone, .udpSent]
  | .sendMessage => [.replyBuilt]
  | .modbusComm _ => [.modbusTx]
  | _ => []

/-- A step of a running station, or none. -/
theorem step_cases (s : Station) (i : Input) : step s i = s ∨ step s i = handle s i := by
  unfold step
  split_ifs
  · exact Or.inl rfl
  · exact Or.inr rfl

/-- **The frame of a step.** -/
theorem step_touches (s : Station) (i : Input) : Touches i.parts i.kinds s (step s i) := by
  unfold step
  split_ifs
  · exact Touches.refl s
  cases i with
  | timeUpdate pins => exact timeUpdate_touches pins s
  | usart1Irq tmp =>
      show Touches [.modbus, .uartState] [] s (usart1IrqHandler tmp s)
      exact Touches.of_keeps (usart1IrqHandler_keeps tmp s)
  | canFrame rxMsg => exact canBusFrameReceive_touches rxMsg s
  | udpReceive p m =>
      show Touches [.link] [] s (if s.isHost then udpReceiveCallback p m s else s)
      split_ifs
      · exact Touches.of_keeps (udpReceiveCallback_keeps p m s)
      · exact Touches.refl s
  | udpClient env =>
      show Touches _ _ s (if s.isHost then udpClientProcess env s else s)
      split_ifs
      · exact udpClientProcess_touches env s
      · exact Touches.refl s
  | sendMessage =>
      show Touches _ _ s (if s.isHost then sendMessageToServer s else s)
      split_ifs
      · exact sendMessageToServer_touches s
      · exact Touches.refl s
  | secProcess pins =>
      show Touches [.uartQueue, .canQueue, .moduleQueue] [] s (halfSecHandle (secHandle pins s))
      exact (Touches.of_keeps (halfSecHandle_keeps _)).after
        (Touches.of_quiet (secHandle_quiet pins s))
  | modbusComm stack => exact modbusRtuCommProcess_touches stack s
  | canSend mailboxFree =>
      show Touches [.canQueue] [] s (canSendFrameProcess mailboxFree s).1
      exact Touches.of_keeps (canSendFrameProcess_keeps mailboxFree s)
  | resetStart => exact Touches.of_quiet (resetStartInverterHandle_quiet s)
  | upstreamIo => exact Touches.of_quiet (logicUpstreamIoAllowOutput_quiet s)
  | uploadRunState => exact Touches.of_quiet (mainUploadRunState_quiet s)
  | msoneProcess speedGear =>
      show Touches [.uartQueue, .polling] [] s (mainMsoneProcess speedGear s)
      exact Touches.of_keeps (mainMsoneProcess_polls speedGear s).1

end IotCtrl
