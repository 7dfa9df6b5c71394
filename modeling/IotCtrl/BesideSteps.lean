import IotCtrl.Interlock

/-!
# The steps beside the Modbus master

A step that is no call of the master is put together from routines of four kinds.  A relation
that all four stay in, and that is transitive, holds across the step.

* `Routine` — the four kinds;
* `step_routine` — the rule;
* `Grows`, `step_grows` — the UART queue grows at its end, or a stop command empties it.
-/

namespace IotCtrl

open ByteMemory Transition ClosedFacts

/-! ## The rule -/

/-- The parts a routine beside the line may touch. -/
@[reducible] def routineParts : List Part :=
  [.paras, .slave, .node, .modbus, .uartState, .canQueue, .recv, .msgQueue, .link, .flash,
    .systemReset, .trace, .emergency, .moduleQueue, .commFault, .runBits]

/-- The events beside line commands and frames on the RS-485 bus. -/
@[reducible] def routineKinds : List EventKind := [.canDone, .paraDone, .replyBuilt, .udpSent]

/-- A relation between the states before and after that every routine beside the master
stays in. -/
structure Routine (R : Station → Station → Prop) : Prop where
  trans : ∀ {s t u}, R s t → R t u → R s u
  /-- A routine that has nothing to do with the line. -/
  aside : ∀ {s t}, Touches routineParts routineKinds s t → R s t
  /-- A routine that queues commands for the inverters. -/
  queues : ∀ {s t}, QuietBut handlerParts s t → R s t
  poll : ∀ speedGear s, R s (mainMsoneProcess speedGear s)
  command : ∀ g s, R s (speedCtrlProcess g s)

namespace Routine

variable {R : Station → Station → Prop} {s t u : Station}

/-- `trans` with the later half first, which fixes the state in between. -/
theorem after (h : Routine R) (h' : R t u) (h'' : R s t) : R s u := h.trans h'' h'

theorem refl (h : Routine R) (s : Station) : R s s := h.aside (Touches.refl s)

theorem keeps (h : Routine R) {ps : List Part} (hs : Keeps ps s t)
    [hsub : Evident (∀ p ∈ ps, p ∈ routineParts)] [hp : Evident (.trace ∉ ps)] : R s t :=
  h.aside (Touches.of_keeps hs)

theorem quiet (h : Routine R) {ps : List Part} (hs : QuietBut ps s t)
    [hsub : Evident (∀ p ∈ ps, p ∈ handlerParts)] : R s t :=
  h.queues hs.mono

theorem canBusSendMsg (h : Routine R) (pbuf : List U8) (funcId srcId : U8) (s : Station) :
    R s (canBusSendMsg pbuf funcId srcId s) :=
  h.keeps (canBusSendMsg_keeps pbuf funcId srcId s)

theorem buttonCommand (h : Routine R) (g : U8) (s : Station) : R s (buttonCommand g s) := by
  unfold IotCtrl.buttonCommand
  split_ifs
  · exact h.after (h.canBusSendMsg _ _ _ _) (h.command g s)
  · exact h.refl s

theorem scanStart (h : Routine R) (pins : Pins) (s : Station) : R s (scanStart pins s) := by
  have hset : ∀ b, R s (setStartInfo b s) := fun b => h.quiet (setStartInfo_quiet b s)
  unfold IotCtrl.scanStart
  dsimp only
  split_ifs
  · exact h.after (h.buttonCommand _ _) (hset _)
  · exact hset _

theorem scanStop (h : Routine R) (pins : Pins) (s : Station) : R s (scanStop pins s) := by
  have hset : ∀ b, R s (setStopInfo b s) := fun b => h.quiet (setStopInfo_quiet b s)
  unfold IotCtrl.scanStop
  dsimp only
  split_ifs
  · exact h.after (h.buttonCommand _ _) (hset _)
  · exact hset _

theorem scanEmergency (h : Routine R) (pins : Pins) (s : Station) :
    R s (scanEmergency pins s) := by
  have hset : ∀ b t, R t (setEmergencyInfo b t) := fun b t => h.keeps (setEmergencyInfo_keeps b t)
  have hstop : ∀ t, R t (speedCtrlProcess EMERGENCY_STOP t) := h.command EMERGENCY_STOP
  unfold IotCtrl.scanEmergency
  dsimp only
  split_ifs
  · exact h.after (hstop _) (h.after (hset _ _) (h.after (hstop _) (hset _ s)))
  · exact h.after (hstop _) (h.after (hset _ _) (hset _ s))
  · exact h.after (hset _ _) (h.after (hstop _) (hset _ s))
  · exact h.after (hset _ _) (hset _ s)
  · exact h.after (hstop _) (hset _ s)
  · exact hset _ s

/-- `Time_Update`, with the scan of the inputs. -/
theorem timeUpdate (h : Routine R) (pins : Pins) (s : Station) : R s (timeUpdate pins s) := by
  have hcount : R s (timeCounters s) := h.keeps (timeCounters_keeps s)
  have htick : ∀ t, R t (uartRecvTimeout t) := fun t => h.keeps (uartRecvTimeout_keeps t)
  unfold IotCtrl.timeUpdate inputScanProc inputScanCommands
  refine h.after (h.scanEmergency pins _) (h.after (h.quiet (scanStream_quiet pins _)) ?_)
  refine h.after (h.scanStop pins _) (h.after (h.scanStart pins _) ?_)
  refine h.after (h.quiet (photos_quiet pins _)) (h.after (h.quiet (scanReset_quiet pins _)) ?_)
  exact h.after (htick _) hcount

theorem canDispatch (h : Routine R) (funcId srcId : U8) (s : Station) :
    R s (canDispatch funcId srcId s).val := by
  unfold IotCtrl.canDispatch
  dsimp only
  split_ifs
  · exact h.aside (paraDataRecvProcess_touches _ _ s).mono
  · exact h.command _ s
  · exact h.quiet (moduleStatusRecvProcess_quiet _ _ _ s)
  · exact h.quiet (resetCtrlHandle_quiet s)
  · exact h.quiet (setBlockDisable_quiet _ s)
  · exact h.keeps (canBusSendModuleStatus_keeps s)
  · exact h.refl s

theorem canBusFrameReceive (h : Routine R) (rxMsg : CanRxMsg) (s : Station) :
    R s (canBusFrameReceive rxMsg s) := by
  have hrecv : ∀ r, R s (setCanRecv r s) := fun r => h.keeps (setCanRecv_keeps r s)
  unfold IotCtrl.canBusFrameReceive
  dsimp only
  split_ifs
  · exact h.keeps (enterBootMode_keeps s)
  · exact h.after (h.canDispatch _ _ _)
      (h.after (h.aside (Touches.log _ _ List.mem_cons_self)) (hrecv _))
  · exact hrecv _

theorem recvMessageFromServer (h : Routine R) (point : Mem) (len : Nat) (s : Station) :
    R s (recvMessageFromServer point len s) := by
  unfold IotCtrl.recvMessageFromServer recvMsgProcess
  split_ifs
  · exact h.refl s
  · exact h.keeps (enterBootMode_keeps s)
  · exact h.aside (paraReply_touches _ _ s).mono
  · exact h.canBusSendMsg _ _ _ s
  · exact h.aside (recvWritePara_touches point s).mono
  · exact h.after (h.canBusSendMsg _ _ _ _) (h.command _ s)
  · exact h.after (h.canBusSendMsg _ _ _ _) (h.quiet (resetCtrlHandle_quiet s))
  · exact h.after (h.canBusSendMsg _ _ _ _) (h.quiet (setBlockDisable_quiet _ s))
  · exact h.refl s

theorem udpClientProcess (h : Routine R) (env : UdpEnv) (s : Station) :
    R s (udpClientProcess env s) := by
  have hconnect : ∀ t, R t (udpConnectProcess env t) :=
    fun t => h.aside (udpConnectProcess_touches env t).mono
  unfold IotCtrl.udpClientProcess
  dsimp only
  split_ifs
  · exact h.recvMessageFromServer _ _ s
  · refine h.after (hconnect _) (h.after (h.keeps (recvDone_keeps _)) ?_)
    exact h.recvMessageFromServer _ _ s
  · exact hconnect s

end Routine

/-- **The rule.**  A step that is no call of the master stays in the relation. -/
theorem step_routine {R : Station → Station → Prop} (h : Routine R) {i : Input} (hi : i.Beside)
    (s : Station) : R s (step s i) := by
  have hframe := step_touches s i
  rcases step_cases s i with hstep | hstep
  · rw [hstep]
    exact h.refl s
  have hhost : ∀ t, R s t → R s (if s.isHost then t else s) := by
    intro t ht
    split_ifs
    · exact ht
    · exact h.refl s
  cases i with
  | modbusComm stack => exact absurd hi id
  | timeUpdate pins =>
      rw [hstep]
      exact h.timeUpdate pins s
  | canFrame rxMsg =>
      rw [hstep]
      exact h.canBusFrameReceive rxMsg s
  | udpClient env =>
      rw [hstep]
      exact hhost _ (h.udpClientProcess env s)
  | secProcess pins =>
      rw [hstep]
      exact h.after (h.keeps (halfSecHandle_keeps _)) (h.quiet (secHandle_quiet pins s))
  | resetStart =>
      rw [hstep]
      exact h.quiet (resetStartInverterHandle_quiet s)
  | upstreamIo =>
      rw [hstep]
      exact h.quiet (logicUpstreamIoAllowOutput_quiet s)
  | uploadRunState =>
      rw [hstep]
      exact h.quiet (mainUploadRunState_quiet s)
  | msoneProcess speedGear =>
      rw [hstep]
      exact h.poll speedGear s
  | usart1Irq _ | udpReceive _ _ | sendMessage | canSend _ => exact h.aside hframe.mono

/-! ## The UART queue -/

/-- A stop or an emergency stop was processed: the line commands that empty the UART queue
first. -/
def Emptied (s t : Station) : Prop := ∃ g ∈ gearsBetween s t, IsStop g

/-- The queue grew at its end, unless a stop command emptied it. -/
structure Grows (s t : Station) : Prop where
  logs : ∃ es, t.trace = es ++ s.trace
  grows : ¬ Emptied s t → s.uartNodes <+: t.uartNodes

namespace Grows

variable {s t u : Station}

theorem gearsBetween_append (h : ∃ es, t.trace = es ++ s.trace)
    (h' : ∃ es, u.trace = es ++ t.trace) :
    gearsBetween s u = gearsBetween t u ++ gearsBetween s t := by
  obtain ⟨es, hes⟩ := h
  obtain ⟨es', hes'⟩ := h'
  have hall : u.trace = (es' ++ es) ++ s.trace := by rw [hes', hes, List.append_assoc]
  rw [gearsBetween_of_append hall, gearsBetween_of_append hes, gearsBetween_of_append hes',
    List.filterMap_append]

theorem trans (h : Grows s t) (h' : Grows t u) : Grows s u := by
  have hgears := gearsBetween_append h.logs h'.logs
  obtain ⟨es, hes⟩ := h.logs
  obtain ⟨es', hes'⟩ := h'.logs
  refine ⟨⟨es' ++ es, by rw [hes', hes, List.append_assoc]⟩, fun hnot => ?_⟩
  have hfirst : ¬ Emptied s t := by
    rintro ⟨g, hg, hstop⟩
    exact hnot ⟨g, hgears ▸ List.mem_append_right _ hg, hstop⟩
  have hlater : ¬ Emptied t u := by
    rintro ⟨g, hg, hstop⟩
    exact hnot ⟨g, hgears ▸ List.mem_append_left _ hg, hstop⟩
  exact (h.grows hfirst).trans (h'.grows hlater)

/-- A routine that processes no line command. -/
theorem of_kept {ps : List Part} {ks : List EventKind} (h : Touches ps ks s t)
    (hkept : s.uartNodes <+: t.uartNodes) : Grows s t :=
  ⟨⟨_, h.trace_eq⟩, fun _ => hkept⟩

theorem command (g : U8) (s : Station) : Grows s (speedCtrlProcess g s) := by
  have htrace := speedCtrlProcess_trace g s
  have hgears : gearsBetween s (speedCtrlProcess g s) = [g] :=
    @gearsBetween_of_append s _ [.speedCall g s.inFlight] htrace
  refine ⟨⟨[.speedCall g s.inFlight], htrace⟩, fun hnot => ?_⟩
  have hstop : ¬ IsStop g := fun hstop => hnot ⟨g, hgears ▸ List.mem_cons_self, hstop⟩
  rw [speedCtrlProcess_uartNodes, lineBase, if_neg hstop]
  exact RingFifo.contents_prefix_addAll _ _

theorem routine : Routine Grows where
  trans := trans
  aside := fun h => of_kept h (by rw [h.keeps.uartNodes])
  queues := by
    intro s t h
    obtain ⟨xs, hxs, -⟩ := h.queue
    have htouch : Touches handlerParts [] s t := Touches.of_keeps h.keeps
    refine of_kept htouch ?_
    unfold Station.uartNodes
    rw [hxs]
    exact RingFifo.contents_prefix_addAll _ _
  poll := by
    intro speedGear s
    have htouch : Touches [.uartQueue, .polling] [] s (mainMsoneProcess speedGear s) :=
      Touches.of_keeps (mainMsoneProcess_polls speedGear s).1
    refine of_kept htouch ?_
    rcases (mainMsoneProcess_polls speedGear s).2 with hsame | ⟨num, -, -, hqueue⟩
    · rw [hsame.uartNodes]
    · unfold Station.uartNodes
      rw [hqueue]
      exact RingFifo.contents_prefix_add _ _
  command := command

end Grows

/-- A step beside the master takes nothing from the queue but by a stop command. -/
theorem step_grows {i : Input} (hi : i.Beside) (s : Station) : Grows s (step s i) :=
  step_routine Grows.routine hi s

end IotCtrl
