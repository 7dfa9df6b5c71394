import IotCtrl.CanSegment
import IotCtrl.ParaReply
import IotCtrl.QuietTicks

/-!
# What a station says on the bus

The host broadcasts the line commands of its buttons and of the server as `START_CMD` frames, and
a slave carries out those it hears.  The commands that a routine carries out are then the ones in
the frames that came in and in the frames it queues; only the emergency input of a station stops
its own belts and says nothing.

* `Enqueues` — the frames that a routine queues;
* `Utters`, `Relayed` — with the gear it leaves, and with the commands it carries out;
* `step_relays` — everything a station does on its own, but for the scan of the emergency input;
* `step_canFrame_relays` — a frame comes in.
-/

namespace IotCtrl

open ByteMemory Transition ClosedFacts

/-! ## Gears on the bus -/

/-- The gear that a frame commands. -/
def CanFrameExt.lineGear (f : CanFrameExt) : Option U8 :=
  if f.funcId = CAN_FUNC_ID_START_CMD then f.data.head? else none

/-- The gear of a station behind some frames. -/
def gearAfter (g : U8) (fs : List CanFrameExt) : U8 :=
  (fs.filterMap CanFrameExt.lineGear).foldl (fun _ g => commandedGear g) g

@[simp] theorem gearAfter_nil (g : U8) : gearAfter g [] = g := rfl

/-- Frames take effect one after the other. -/
theorem gearAfter_append (g : U8) (fs gs : List CanFrameExt) :
    gearAfter g (fs ++ gs) = gearAfter (gearAfter g fs) gs := by
  unfold gearAfter
  rw [List.filterMap_append, List.foldl_append]

/-- Frames without a line command leave the gear. -/
theorem gearAfter_of_silent (g : U8) {fs : List CanFrameExt} (h : ∀ f ∈ fs, f.lineGear = none) :
    gearAfter g fs = g := by
  unfold gearAfter
  rw [List.filterMap_eq_nil_iff.mpr h]
  rfl

/-- A frame as the stations send them: no boot command, and a line command is one frame
with one byte. -/
structure CanFrameExt.Plain (f : CanFrameExt) : Prop where
  funcId_lt : f.funcId < 16
  boot : f.funcId ≠ CAN_FUNC_ID_BOOT_MODE
  start : f.funcId = CAN_FUNC_ID_START_CMD → f.segPolo = .none ∧ ∃ g, f.data = [g]

/-- The frame of a line command. -/
def startFrameOf (g srcId : U8) : CanFrameExt :=
  { segPolo := .none
    segNum := 0
    funcId := CAN_FUNC_ID_START_CMD
    srcId := srcId
    data := [g] }

/-- On the way from `s` to `t` the frames of `fs` were queued.  A slave commands no gear. -/
structure Enqueues (fs : List CanFrameExt) (s t : Station) : Prop where
  queue : t.can.canSendQueue = s.can.canSendQueue.addAll fs
  station : t.main.localStation = s.main.localStation
  plain : ∀ f ∈ fs, f.Plain
  slave : s.isHost = false → ∀ f ∈ fs, f.lineGear = none

namespace Enqueues

variable {fs fs' : List CanFrameExt} {s t u : Station}

/-- The station number stays. -/
theorem isHost_eq (h : Enqueues fs s t) : t.isHost = s.isHost := congrArg (· == 1) h.station

theorem trans (h : Enqueues fs s t) (h' : Enqueues fs' t u) : Enqueues (fs ++ fs') s u := by
  refine ⟨?_, h'.station.trans h.station, ?_, ?_⟩
  · rw [h'.queue, h.queue, RingFifo.addAll_append]
  · intro f hf
    exact (List.mem_append.mp hf).elim (h.plain f) (h'.plain f)
  · intro hslave f hf
    have hslave' : t.isHost = false := h.isHost_eq.trans hslave
    exact (List.mem_append.mp hf).elim (h.slave hslave f) (h'.slave hslave' f)

/-- Nothing is said. -/
theorem nothing (hqueue : t.can.canSendQueue = s.can.canSendQueue)
    (hstation : t.main.localStation = s.main.localStation) : Enqueues [] s t :=
  ⟨hqueue, hstation, nofun, fun _ => nofun⟩

/-- Whatever fits the queue waits there. -/
theorem canFrames (h : Enqueues fs s t) (hroom : ¬ t.can.canSendQueue.IsFull) :
    t.canFrames = s.canFrames ++ fs := by
  unfold Station.canFrames
  rw [h.queue] at hroom ⊢
  exact RingFifo.contents_addAll_of_not_isFull hroom

end Enqueues

/-- The frames of `heard` came in, and the gear follows what was heard and said. -/
structure Utters (heard fs : List CanFrameExt) (s t : Station) : Prop extends Enqueues fs s t where
  gear : t.logic.gSpeedGearStatus = gearAfter s.logic.gSpeedGearStatus (heard ++ fs)

/-- The line commands a station has carried out, oldest first. -/
def Station.lineGears (s : Station) : List U8 := (s.trace.filterMap Event.gear).reverse

/-- A line command is the latest of the history. -/
theorem speedCtrlProcess_lineGears (g : U8) (s : Station) :
    (speedCtrlProcess g s).lineGears = s.lineGears ++ [g] := by
  unfold Station.lineGears
  rw [speedCtrlProcess_trace]
  exact List.reverse_cons

/-- Other events command nothing. -/
theorem gears_of_kinds {ks : List EventKind} (hk : .speedCall ∉ ks) {es : List Event}
    (hes : ∀ e ∈ es, e.kind ∈ ks) : es.filterMap Event.gear = [] := by
  apply List.filterMap_eq_nil_iff.mpr
  intro e he
  have hkind := hes e he
  cases e with
  | speedCall => exact absurd hkind hk
  | modbusTx | canDone | paraDone | replyBuilt | udpSent => rfl

/-- What was commanded on the way is what was heard and said. -/
structure Relayed (heard fs : List CanFrameExt) (s t : Station) : Prop
    extends Utters heard fs s t where
  log : t.lineGears = s.lineGears ++ (heard ++ fs).filterMap CanFrameExt.lineGear

/-- Some frames were queued. -/
def Relays (heard : List CanFrameExt) (s t : Station) : Prop := ∃ fs, Relayed heard fs s t

namespace Relays

variable {heard : List CanFrameExt} {s t u : Station}

theorem trans (h : Relays heard s t) (h' : Relays [] t u) : Relays heard s u := by
  obtain ⟨fs, h⟩ := h
  obtain ⟨fs', h'⟩ := h'
  refine ⟨fs ++ fs', ⟨h.toEnqueues.trans h'.toEnqueues, ?_⟩, ?_⟩
  · rw [h'.gear, h.gear, List.nil_append, ← List.append_assoc, gearAfter_append _ (heard ++ fs)]
  · rw [h'.log, h.log, List.nil_append, ← List.append_assoc heard,
      List.filterMap_append (l := heard ++ fs), List.append_assoc]

/-- `trans` with the later half first, which fixes the state in between. -/
theorem after (h' : Relays [] t u) (h : Relays heard s t) : Relays heard s u := h.trans h'

/-- A routine that neither queues a frame nor carries out a command. -/
theorem of_same (hqueue : t.can.canSendQueue = s.can.canSendQueue)
    (hstation : t.main.localStation = s.main.localStation)
    (hgear : t.logic.gSpeedGearStatus = s.logic.gSpeedGearStatus)
    (hlog : t.lineGears = s.lineGears) : Relays [] s t :=
  ⟨[], ⟨.nothing hqueue hstation, hgear⟩, hlog.trans (List.append_nil _).symm⟩

/-- By the parts it leaves alone. -/
theorem of_keeps {ps : List Part} (h : Keeps ps s t) [hq : Evident (.canQueue ∉ ps)]
    [hg : Evident (.gear ∉ ps)] [hp : Evident (.trace ∉ ps)] : Relays [] s t :=
  of_same (h.same .canQueue hq.out) h.localStation h.gear
    (congrArg (fun es => (es.filterMap Event.gear).reverse) h.trace)

theorem of_quiet {ps : List Part} (h : QuietBut ps s t) [hq : Evident (.canQueue ∉ ps)]
    [hg : Evident (.gear ∉ ps)] [hp : Evident (.trace ∉ ps)] : Relays [] s t :=
  of_keeps h.keeps

/-- Or by the kinds of events it records. -/
theorem of_touches {ps : List Part} {ks : List EventKind} (h : Touches ps ks s t)
    (hk : .speedCall ∉ ks) [hq : Evident (.canQueue ∉ ps)] [hg : Evident (.gear ∉ ps)] :
    Relays [] s t := by
  obtain ⟨es, htrace, hes⟩ := h.logs
  refine of_same (h.keeps.same .canQueue hq.out) h.keeps.localStation h.keeps.gear ?_
  unfold Station.lineGears
  rw [htrace, List.filterMap_append, gears_of_kinds hk hes, List.nil_append]

theorem refl (s : Station) : Relays [] s s := of_keeps (@Keeps.refl [] s)

/-- A message that is no line command. -/
theorem send {pbuf : List U8} {funcId srcId : U8} (hlt : funcId < 16)
    (hboot : funcId ≠ CAN_FUNC_ID_BOOT_MODE) (hstart : funcId ≠ CAN_FUNC_ID_START_CMD)
    (s : Station) : Relays [] s (canBusSendMsg pbuf funcId srcId s) := by
  have hk := canBusSendMsg_keeps pbuf funcId srcId s
  have hids : ∀ f ∈ canFramesOf pbuf funcId srcId, f.funcId = funcId :=
    fun f hf => (canFramesOf_ids hf).1
  have hsilent : ∀ f ∈ canFramesOf pbuf funcId srcId, f.lineGear = none := by
    intro f hf
    unfold CanFrameExt.lineGear
    rw [if_neg (by rw [hids f hf]; exact hstart)]
  refine ⟨canFramesOf pbuf funcId srcId, ⟨⟨?_, hk.localStation, ?_, fun _ => hsilent⟩, ?_⟩, ?_⟩
  · rw [canBusSendMsg_eq]
    rfl
  · intro f hf
    have hid := hids f hf
    exact ⟨by rw [hid]; exact hlt, by rw [hid]; exact hboot, fun h => absurd (hid ▸ h) hstart⟩
  · rw [List.nil_append, gearAfter_of_silent _ hsilent]
    exact hk.gear
  · unfold Station.lineGears
    rw [hk.trace, List.nil_append, List.filterMap_eq_nil_iff.mpr hsilent, List.append_nil]

/-- The host runs a line command and broadcasts it. -/
theorem command (g : U8) (hhost : s.isHost = true) :
    Relays [] s (canBusSendStartCmd g (speedCtrlProcess g s)) := by
  have hspeed := speedCtrlProcess_keeps g s
  have hframes := canBusSendMsg_keeps [g] CAN_FUNC_ID_START_CMD
    (speedCtrlProcess g s).main.localStation (speedCtrlProcess g s)
  refine ⟨[startFrameOf g (speedCtrlProcess g s).main.localStation],
    ⟨⟨?_, hframes.localStation.trans hspeed.localStation, ?_, fun hslave => ?_⟩, ?_⟩, ?_⟩
  · have hqueue : (speedCtrlProcess g s).can.canSendQueue = s.can.canSendQueue :=
      hspeed.same .canQueue (by decide)
    rw [← hqueue]
    rfl
  · intro f hf
    rw [List.mem_singleton.mp hf]
    have hlt : CAN_FUNC_ID_START_CMD < 16 := by decide
    have hboot : CAN_FUNC_ID_START_CMD ≠ CAN_FUNC_ID_BOOT_MODE := by decide
    exact ⟨hlt, hboot, fun _ => ⟨rfl, g, rfl⟩⟩
  · rw [hhost] at hslave
    cases hslave
  · exact hframes.gear.trans (speedCtrlProcess_gear g s)
  · have hsame : (canBusSendStartCmd g (speedCtrlProcess g s)).lineGears =
        (speedCtrlProcess g s).lineGears :=
      congrArg (fun es => (es.filterMap Event.gear).reverse) hframes.trace
    exact hsame.trans (speedCtrlProcess_lineGears g s)

/-- What came in commanded nothing. -/
theorem hear {f : CanFrameExt} (h : Relays [] s t) (hf : f.lineGear = none) : Relays [f] s t := by
  obtain ⟨fs, h⟩ := h
  have hsilent : ∀ x ∈ [f], x.lineGear = none := fun x hx => by rw [List.mem_singleton.mp hx, hf]
  refine ⟨fs, ⟨h.toEnqueues, ?_⟩, ?_⟩
  · rw [h.gear, gearAfter_append _ [f], gearAfter_of_silent _ hsilent, List.nil_append]
  · rw [h.log, List.filterMap_append (l := [f]), List.filterMap_eq_nil_iff.mpr hsilent]
    rfl

end Relays

/-! ## What the routines say -/

section Routines

/-- A button of a slave does nothing. -/
theorem buttonCommand_relays (g : U8) (s : Station) : Relays [] s (buttonCommand g s) := by
  unfold buttonCommand
  split_ifs with hhost
  · exact Relays.command g hhost
  · exact Relays.refl s

/-- The start button. -/
theorem scanStart_relays (pins : Pins) (s : Station) : Relays [] s (scanStart pins s) := by
  have hset : ∀ b, Relays [] s (setStartInfo b s) :=
    fun b => Relays.of_quiet (setStartInfo_quiet b s)
  unfold scanStart
  dsimp only
  split_ifs
  · exact (buttonCommand_relays _ _).after (hset _)
  · exact hset _

/-- The stop button. -/
theorem scanStop_relays (pins : Pins) (s : Station) : Relays [] s (scanStop pins s) := by
  have hset : ∀ b, Relays [] s (setStopInfo b s) :=
    fun b => Relays.of_quiet (setStopInfo_quiet b s)
  unfold scanStop
  dsimp only
  split_ifs
  · exact (buttonCommand_relays _ _).after (hset _)
  · exact hset _

/-- All inputs but the emergency input. -/
theorem inputScanCommands_relays (pins : Pins) (s : Station) :
    Relays [] s (inputScanCommands pins s) := by
  have hphoto : ∀ t, Relays [] t ((List.range 5).foldl (scanPhoto pins) t) :=
    fun t => Relays.of_quiet (photos_quiet pins t)
  unfold inputScanCommands
  refine (Relays.of_quiet (scanStream_quiet pins _)).after ((scanStop_relays pins _).after ?_)
  refine (scanStart_relays pins _).after ((hphoto _).after ?_)
  exact Relays.of_quiet (scanReset_quiet pins s)

/-- A parameter block is no line command. -/
theorem canBusSendParaBlock_relays (cmd : U8) (block : UserParas) (s : Station) :
    Relays [] s (canBusSendParaBlock cmd block s) :=
  Relays.send (by decide) (by decide) (by decide) s

/-- The reply to the server is no business of the bus. -/
theorem paraReply_relays (msgType : U16) (block : UserParas) (s : Station) :
    Relays [] s (paraReply msgType block s) := by
  have hk := paraReply_keeps msgType block s
  exact Relays.of_same (hk.same .canQueue (by decide)) hk.localStation hk.gear rfl

/-- A write request is carried out here or passed on. -/
theorem recvWritePara_relays (point : Mem) (s : Station) :
    Relays [] s (recvWritePara point s) := by
  have htemp : ∀ p, Relays [] s (setParasTemp p s) := fun p => Relays.of_same rfl rfl rfl rfl
  unfold recvWritePara
  dsimp only
  split_ifs
  · refine (paraReply_relays _ _ _).after ?_
    refine (Relays.of_keeps (readUserParas_keeps _)).after ?_
    exact (Relays.of_keeps (writeUserParas_keeps _ _)).after (htemp _)
  · exact (canBusSendParaBlock_relays _ _ _).after (htemp _)

/-- The server reaches the host only. -/
theorem recvMessageFromServer_relays {s : Station} (hhost : s.isHost = true) (point : Mem)
    (len : Nat) : Relays [] s (recvMessageFromServer point len s) := by
  have hsend : ∀ {pbuf funcId src} t, funcId < 16 → funcId ≠ CAN_FUNC_ID_BOOT_MODE →
      funcId ≠ CAN_FUNC_ID_START_CMD → Relays [] t (canBusSendMsg pbuf funcId src t) :=
    fun t h1 h2 h3 => Relays.send h1 h2 h3 t
  unfold recvMessageFromServer recvMsgProcess
  split_ifs
  · exact Relays.refl s
  · exact Relays.of_keeps (enterBootMode_keeps s)
  · exact paraReply_relays _ _ s
  · exact hsend s (by decide) (by decide) (by decide)
  · exact recvWritePara_relays point s
  · exact Relays.command _ hhost
  · exact (hsend _ (by decide) (by decide) (by decide)).after
      (Relays.of_quiet (resetCtrlHandle_quiet s))
  · exact (hsend _ (by decide) (by decide) (by decide)).after
      (Relays.of_quiet (setBlockDisable_quiet _ s))
  · exact Relays.refl s

/-- A datagram is handled, and then the link has its turn. -/
theorem udpClientProcess_relays {s : Station} (hhost : s.isHost = true) (env : UdpEnv) :
    Relays [] s (udpClientProcess env s) := by
  have hidle : ∀ t : Station,
      Relays [] t { t with msg.tcpRecvLen := 0, msg.tcpClientStatue := .connectOk } :=
    fun t => Relays.of_keeps (recvDone_keeps t)
  have hconnect : ∀ t, Relays [] t (udpConnectProcess env t) :=
    fun t => Relays.of_touches (udpConnectProcess_touches env t) (by decide)
  have hmsg := recvMessageFromServer_relays hhost s.msg.tcpRecvBuf s.msg.tcpRecvLen.toNat
  unfold udpClientProcess
  dsimp only
  split_ifs
  · exact hmsg
  · exact (hconnect _).after ((hidle _).after hmsg)
  · exact hconnect s

/-- Asking for a status is no line command. -/
theorem readNextModuleStatus_relays (s : Station) : Relays [] s (readNextModuleStatus s) := by
  have hnext : ∀ t, Relays [] t (nextModuleIndex t) := fun t => Relays.of_same rfl rfl rfl rfl
  have hreset : ∀ t, Relays [] t (resetModuleIndex t) := fun t => Relays.of_same rfl rfl rfl rfl
  have hask : ∀ src t, Relays [] t (canBusSendMsg [] CAN_FUNC_ID_READ_MODULE_STATUS src t) :=
    fun src t => Relays.send (by decide) (by decide) (by decide) t
  unfold readNextModuleStatus
  dsimp only
  split_ifs
  · exact (hreset _).after ((hask _ _).after (hnext s))
  · exact (hask _ _).after (hnext s)
  · exact Relays.refl s

/-- Neither is the upload. -/
theorem halfSecHandle_relays (s : Station) : Relays [] s (halfSecHandle s) := by
  have hclear : Relays [] s (clearHalfSecFlag s) := Relays.of_same rfl rfl rfl rfl
  have hadd : ∀ m t, Relays [] t (addModuleStatusData2Queue m t) :=
    fun m t => Relays.of_same rfl rfl rfl rfl
  unfold halfSecHandle
  dsimp only
  split_ifs
  · exact (readNextModuleStatus_relays _).after ((hadd _ _).after hclear)
  · exact hclear
  · exact Relays.refl s

/-- Nor the status of a slave. -/
theorem canBusSendModuleStatus_relays (s : Station) :
    Relays [] s (canBusSendModuleStatus s) := by
  unfold canBusSendModuleStatus
  split_ifs
  · exact Relays.refl s
  · exact Relays.send (by decide) (by decide) (by decide) s

/-- An input of a station that does not come from the bus or go to it. -/
def Input.Own : Input → Prop
  | .canFrame _ | .canSend _ => False
  | _ => True

/-- **Everything a station does on its own** says what it commands, but for the scan of the
emergency input at the end of a tick. -/
theorem step_relays {s : Station} {i : Input} (hown : i.Own) :
    Relays [] s (step s i) ∨ ∃ pins, i = .timeUpdate pins ∧
      Relays [] s (inputScanCommands pins (uartRecvTimeout (timeCounters s))) ∧
      step s i =
        scanEmergency pins (inputScanCommands pins (uartRecvTimeout (timeCounters s))) := by
  have htouch := step_touches s i
  rcases step_cases s i with hstep | hstep
  · rw [hstep]
    exact .inl (Relays.refl s)
  cases i with
  | canFrame _ => exact absurd hown id
  | canSend _ => exact absurd hown id
  | timeUpdate pins =>
      have hcount : Relays [] s (uartRecvTimeout (timeCounters s)) :=
        (Relays.of_keeps (uartRecvTimeout_keeps _)).after (Relays.of_keeps (timeCounters_keeps s))
      exact .inr ⟨pins, rfl, (inputScanCommands_relays pins _).after hcount, hstep⟩
  | udpClient env =>
      left
      rw [hstep]
      show Relays [] s (if s.isHost then udpClientProcess env s else s)
      split_ifs with hhost
      · exact udpClientProcess_relays hhost env
      · exact Relays.refl s
  | secProcess pins =>
      left
      rw [hstep]
      exact (halfSecHandle_relays _).after (Relays.of_quiet (secHandle_quiet pins s))
  | usart1Irq _ | udpReceive _ _ | sendMessage | modbusComm _ | resetStart | upstreamIo
  | uploadRunState | msoneProcess _ =>
      exact .inl (Relays.of_touches htouch (by simp [Input.kinds]))

end Routines

/-! ## Receiving -/

/-- A parameter message is answered by another one. -/
theorem paraDataRecvProcess_relays (pbuf : Mem) (recvLen : Nat) (s : Station) :
    Relays [] s (paraDataRecvProcess pbuf recvLen s).val := by
  have hreply : ∀ type block, Relays [] s (paraReply type block s) :=
    fun type block => paraReply_relays type block s
  unfold paraDataRecvProcess
  simp only [Traced.val_bind]
  split_ifs
  · exact Relays.refl s
  · exact canBusSendParaBlock_relays _ _ s
  · exact hreply _ _
  · exact (canBusSendParaBlock_relays _ _ _).after (Relays.of_keeps (readWriteParas_keeps _ s))
  · exact hreply _ _
  · exact Relays.refl s

/-- A message that is no line command. -/
theorem canDispatch_relays {funcId : U8} (hfunc : funcId ≠ CAN_FUNC_ID_START_CMD) (srcId : U8)
    (s : Station) : Relays [] s (canDispatch funcId srcId s).val := by
  unfold canDispatch
  dsimp only
  split_ifs
  · exact paraDataRecvProcess_relays _ _ s
  · exact Relays.of_quiet (moduleStatusRecvProcess_quiet _ _ _ s)
  · exact Relays.of_quiet (resetCtrlHandle_quiet s)
  · exact Relays.of_quiet (setBlockDisable_quiet _ s)
  · exact canBusSendModuleStatus_relays s
  · exact Relays.refl s

/-- A line command is carried out by the station that hears it. -/
theorem canDispatch_start {f : CanFrameExt} {g : U8} {s : Station}
    (hfunc : f.funcId = CAN_FUNC_ID_START_CMD) (hdata : f.data = [g])
    (hbyte : s.can.recv.canRecvBuff 0 = g) (srcId : U8) :
    Relays [f] s (canDispatch CAN_FUNC_ID_START_CMD srcId s).val := by
  have hval : (canDispatch CAN_FUNC_ID_START_CMD srcId s).val = speedCtrlProcess g s := by
    rw [← hbyte]
    rfl
  have hspeed := speedCtrlProcess_keeps g s
  have hgear : f.lineGear = some g := by
    unfold CanFrameExt.lineGear
    rw [if_pos hfunc, hdata]
    rfl
  have hgears : ([f] ++ []).filterMap CanFrameExt.lineGear = [g] := by simp [hgear]
  rw [hval]
  refine ⟨[], ⟨.nothing (hspeed.same .canQueue (by decide)) hspeed.localStation, ?_⟩, ?_⟩
  · unfold gearAfter
    rw [speedCtrlProcess_gear, hgears]
    rfl
  · rw [speedCtrlProcess_lineGears, hgears]

/-- A frame as the stations send them leaves the gear it commands. -/
theorem canBusFrameReceive_relays {f : CanFrameExt} (hf : f.Plain) (s : Station) :
    Relays [f] s (canBusFrameReceive (canBusSendOneFrame f) s) := by
  have hid := canDecodeId_canBusSendOneFrame f
  rw [funcId_and_of_lt hf.funcId_lt] at hid
  have hlogged : ∀ r funcId srcId payload,
      Relays [] s ((setCanRecv r s).log (.canDone funcId srcId payload)) :=
    fun r _ _ _ => Relays.of_same rfl rfl rfl rfl
  unfold canBusFrameReceive
  rw [hid]
  dsimp only
  rw [if_neg fun h => hf.boot h.1]
  by_cases hstart : f.funcId = CAN_FUNC_ID_START_CMD
  · obtain ⟨hpolo, g, hdata⟩ := hf.start hstart
    have hbyte : write s.can.recv.canRecvBuff 0 [g] 0 = g :=
      write_getElem _ [g] 0 (show 0 < 1 by decide)
    have hframe : (canBusSendOneFrame f).data = [g] := hdata
    rw [hpolo, hstart, hframe]
    unfold canReassemble
    dsimp only
    rw [if_pos rfl]
    -- the receive buffer is no part of what a station says
    obtain ⟨fs, h⟩ := canDispatch_start (s := Station.log (setCanRecv
      { s.can.recv with canRecvBuff := write s.can.recv.canRecvBuff 0 [g], canRecvLen := 1 } s)
      (.canDone CAN_FUNC_ID_START_CMD f.srcId _)) hstart hdata hbyte f.srcId
    exact ⟨fs, ⟨⟨h.queue, h.station, h.plain, h.slave⟩, h.gear⟩, h.log⟩
  · have hsilent : f.lineGear = none := if_neg hstart
    split_ifs
    · exact ((canDispatch_relays hstart _ _).after (hlogged _ _ _ _)).hear hsilent
    · exact (Relays.of_keeps (setCanRecv_keeps _ s)).hear hsilent

/-- **A frame comes in**, and the station carries out what it commands. -/
theorem step_canFrame_relays {f : CanFrameExt} (hf : f.Plain) {s : Station}
    (hrunning : s.systemReset = false) :
    Relays [f] s (step s (.canFrame (canBusSendOneFrame f))) := by
  have hstep : step s (.canFrame (canBusSendOneFrame f)) =
      canBusFrameReceive (canBusSendOneFrame f) s :=
    if_neg (by rw [hrunning]; exact Bool.false_ne_true)
  rw [hstep]
  exact canBusFrameReceive_relays hf s

/-- What a slave puts on the bus commands nothing. -/
theorem hear_relays {f : CanFrameExt} (hf : f.Plain) (hsilent : f.lineGear = none) (s : Station) :
    ∃ heard, Relays heard s (step s (.canFrame (canBusSendOneFrame f))) ∧
      ∀ x ∈ heard, x.lineGear = none := by
  cases hreset : s.systemReset with
  | true =>
      have hstep : step s (.canFrame (canBusSendOneFrame f)) = s := if_pos hreset
      rw [hstep]
      exact ⟨[], Relays.refl s, nofun⟩
  | false =>
      exact ⟨[f], step_canFrame_relays hf hreset,
        fun x hx => by rw [List.mem_singleton.mp hx, hsilent]⟩

end IotCtrl
