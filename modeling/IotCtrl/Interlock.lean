import IotCtrl.QuietTicks
import IotCtrl.Transactions

/-!
# The downstream-stop interlock

When a poll finds that belt `k` has stopped, the belt above it, `k - 1`, is stopped too.
The test is made once, at the edge.  A `Watch` stands beside the station: it knows whether
the interlock of belt `k` is armed, and which commands were queued since it was.

* `Feeds` — what the routines beside the master do to the queue;
* `WatchInv` — what holds in every state of a run;
* `interlock_covered` — as long as every edge finds belt `k - 1` recorded as running and
  room in the queue, the stop of belt `k - 1` waits, is in flight or was transmitted;
* `missed_edge_runs_on` — without that, belt `k - 1` can run on.
-/

namespace IotCtrl

open ByteMemory Transition ClosedFacts

/-! ## The watch -/

/-- A stop node for inverter `no`. -/
def CommNode.Stops (no : Nat) (x : CommNode) : Prop :=
  x.rwFlag = 1 ∧ x.inverterNo.toNat = no ∧ x.speedGear = 0

instance (no : Nat) (x : CommNode) : Decidable (x.Stops no) := inferInstanceAs (Decidable (_ ∧ _))

/-- The line commands processed on the way from `s` to `t`. -/
def gearsBetween (s t : Station) : List U8 := (newEvents s t).filterMap Event.gear

/-- An accepted poll changes the recorded run bit of belt `k` from running to stopped; no
other routine writes it. -/
def StopEdge (k : Nat) (s t : Station) : Prop :=
  s.runBit (k - 1) = true ∧ t.runBit (k - 1) = false

instance (k : Nat) (s t : Station) : Decidable (StopEdge k s t) :=
  inferInstanceAs (Decidable (_ ∧ _))

structure Watch where
  /-- Belt `k` has stopped, was not recorded as running since, and no gear was commanded. -/
  armed : Bool
  /-- How many of the waiting commands were there already. -/
  older : Nat
  /-- The command in flight, or the last one, was queued since. -/
  fresh : Bool
  /-- A stop node for belt `k - 1` queued since was transmitted. -/
  sent : Bool

def Watch.idle : Watch :=
  { armed := false
    older := 0
    fresh := false
    sent := false }

/-- The step takes a command from the queue. -/
def Takes (s t : Station) : Prop := s.inFlight = none ∧ t.inFlight ≠ none

instance (s t : Station) : Decidable (Takes s t) := inferInstanceAs (Decidable (_ ∧ _))

/-- A stop command empties the queue, so that every command in it is new. -/
def Watch.olderAfter (w : Watch) (s t : Station) : Nat :=
  if gearsBetween s t ≠ [] then 0 else if Takes s t then w.older - 1 else w.older

def Watch.observe (k : Nat) (w : Watch) (s : Station) (i : Input) : Watch :=
  let t := step s i
  if StopEdge k s t then
    { armed := true
      older := s.uartNodes.length
      fresh := false
      sent := false }
  else
    { armed := w.armed && !t.runBit (k - 1) && (gearsBetween s t).all fun g => IsStop g
      older := w.olderAfter s t
      fresh := if Takes s t then w.older == 0 else w.fresh
      sent := w.sent || (w.fresh && decide (∃ x ∈ s.inFlight, x.Stops (k - 1)) &&
        decide (s.events .modbusTx < t.events .modbusTx)) }

/-- A station with the watch of one interlock. -/
abbrev Watched := Station × Watch

def watchStep (k : Nat) (p : Watched) (i : Input) : Watched := (step p.1 i, p.2.observe k p.1 i)

def WatchStart (p : Watched) : Prop := Booted p.1 ∧ p.2 = Watch.idle

/-- A stop node for belt `k - 1` queued since the edge waits, is in flight or was
transmitted. -/
def Covered (k : Nat) (w : Watch) (s : Station) : Prop :=
  w.sent = true ∨ (w.fresh = true ∧ ∃ x ∈ s.inFlight, x.Stops (k - 1)) ∨
    ∃ x ∈ s.uartNodes.drop w.older, x.Stops (k - 1)

/-- Belt `k` and the belt above it exist; that has linkage on and accumulation off. -/
def Interlocked (k : Nat) (s : Station) : Prop :=
  2 ≤ k ∧ k ≤ s.beltNumber ∧ bitAt (s.belt (k - 2)).funcSelectSwitch 1 ≠ 0 ∧
    bitAt (s.belt (k - 2)).funcSelectSwitch 3 = 0

/-- The step leaves the parameters alone. -/
def KeepsParas (s : Station) (i : Input) : Prop :=
  (step s i).logic.userParasLocal = s.logic.userParasLocal

/-- The edge finds belt `k - 1` recorded as running, and room in the queue. -/
def StopsInTime (k : Nat) (s : Station) (i : Input) : Prop :=
  StopEdge k s (step s i) → s.runBit (k - 2) = true ∧ ¬ s.logic.uartSendQueue.IsFull

/-! ## What the routines do to the queue -/

/-- On the way from `s` to `t` a gear was commanded, or only stops, the last of which left
a stop node for inverter `no` in the queue, or no command was processed and nothing was
taken out of the queue. -/
def Feeds (no : Nat) (s t : Station) : Prop :=
  ∃ es, t.trace = es ++ s.trace ∧
    ((∃ g ∈ es.filterMap Event.gear, ¬ IsStop g) ∨
      (es.filterMap Event.gear ≠ [] ∧ ∃ x ∈ t.uartNodes, x.Stops no) ∨
      (es.filterMap Event.gear = [] ∧ s.uartNodes <+: t.uartNodes))

namespace Feeds

variable {no : Nat} {s t u : Station}

theorem trans (h : Feeds no s t) (h' : Feeds no t u) : Feeds no s u := by
  obtain ⟨es, htrace, hes⟩ := h
  obtain ⟨es', htrace', hes'⟩ := h'
  refine ⟨es' ++ es, by rw [htrace', htrace, List.append_assoc], ?_⟩
  rw [List.filterMap_append]
  rcases hes' with ⟨g, hg, hrun⟩ | ⟨hsome', hstop'⟩ | ⟨hnone', hgrows'⟩
  · exact Or.inl ⟨g, List.mem_append_left _ hg, hrun⟩
  · refine Or.inr (Or.inl ⟨fun hnil => hsome' ?_, hstop'⟩)
    exact (List.append_eq_nil_iff.mp hnil).1
  · rw [hnone', List.nil_append]
    rcases hes with hrun | ⟨hsome, x, hx, hstops⟩ | ⟨hnone, hgrows⟩
    · exact Or.inl hrun
    · exact Or.inr (Or.inl ⟨hsome, x, hgrows'.subset hx, hstops⟩)
    · exact Or.inr (Or.inr ⟨hnone, hgrows.trans hgrows'⟩)

/-- `trans` with the later half first, which fixes the state in between. -/
theorem after (h' : Feeds no t u) (h : Feeds no s t) : Feeds no s u := h.trans h'

theorem of_touches {ps : List Part} {ks : List EventKind} (h : Touches ps ks s t)
    (hgrows : s.uartNodes <+: t.uartNodes) [hk : Evident (.speedCall ∉ ks)] :
    Feeds no s t := by
  obtain ⟨es, htrace, hkinds⟩ := h.logs
  refine ⟨es, htrace, Or.inr (Or.inr ⟨List.filterMap_eq_nil_iff.mpr fun e he => ?_, hgrows⟩)⟩
  have hkind := hkinds e he
  cases e <;> first | rfl | exact absurd hkind hk.out

/-- A routine that does not use the queue. -/
theorem beside {ps : List Part} {ks : List EventKind} (h : Touches ps ks s t)
    [hp : Evident (.uartQueue ∉ ps)] [hk : Evident (.speedCall ∉ ks)] : Feeds no s t :=
  of_touches h (by rw [h.keeps.uartNodes])

theorem of_keeps {ps : List Part} (h : Keeps ps s t) [hp : Evident (.uartQueue ∉ ps)]
    [ht : Evident (.trace ∉ ps)] : Feeds no s t :=
  ⟨[], h.trace, Or.inr (Or.inr ⟨rfl, by rw [h.uartNodes]⟩)⟩

/-- A routine that only queues. -/
theorem of_quiet {ps : List Part} (h : QuietBut ps s t) [ht : Evident (.trace ∉ ps)] :
    Feeds no s t := by
  obtain ⟨xs, hxs, -⟩ := h.queue
  refine ⟨[], h.keeps.trace, Or.inr (Or.inr ⟨rfl, ?_⟩)⟩
  unfold Station.uartNodes
  rw [hxs]
  exact RingFifo.contents_prefix_addAll _ _

end Feeds

/-- The same for an inverter of the line, by a routine that leaves the number of belts
alone. -/
structure FeedsLine (no : Nat) (s t : Station) : Prop where
  belts : t.beltNumber = s.beltNumber
  feeds : 1 ≤ no ∧ no ≤ s.beltNumber → Feeds no s t

namespace FeedsLine

variable {no : Nat} {s t u : Station}

theorem refl (s : Station) : FeedsLine no s s := by
  have hkeeps : Keeps [] s s := Keeps.refl s
  exact ⟨rfl, fun _ => Feeds.of_keeps hkeeps⟩

/-- With the later half first, which may change the number of belts. -/
theorem before (h : FeedsLine no s t) (h' : 1 ≤ no ∧ no ≤ t.beltNumber → Feeds no t u) :
    1 ≤ no ∧ no ≤ s.beltNumber → Feeds no s u :=
  fun hno => (h.feeds hno).trans (h' (by rw [h.belts]; exact hno))

theorem after (h' : FeedsLine no t u) (h : FeedsLine no s t) : FeedsLine no s u :=
  ⟨h'.belts.trans h.belts, h.before h'.feeds⟩

theorem of_keeps {ps : List Part} (h : Keeps ps s t) [hparas : Evident (.paras ∉ ps)]
    [hp : Evident (.uartQueue ∉ ps)] [ht : Evident (.trace ∉ ps)] : FeedsLine no s t :=
  ⟨h.beltNumber, fun _ => Feeds.of_keeps h⟩

theorem of_quiet {ps : List Part} (h : QuietBut ps s t) [hparas : Evident (.paras ∉ ps)]
    [ht : Evident (.trace ∉ ps)] : FeedsLine no s t :=
  ⟨h.keeps.beltNumber, fun _ => Feeds.of_quiet h⟩

end FeedsLine

/-- A stop command leaves a stop node for every belt of the station. -/
theorem speedCtrlProcess_feeds {no : Nat} (g : U8) (s : Station) :
    FeedsLine no s (speedCtrlProcess g s) := by
  refine ⟨(speedCtrlProcess_keeps g s).beltNumber, fun hno => ?_⟩
  refine ⟨[.speedCall g s.inFlight], speedCtrlProcess_trace g s, ?_⟩
  by_cases hstop : IsStop g
  · refine Or.inr (Or.inl ⟨List.cons_ne_nil _ _, ?_⟩)
    have hn := s.beltNumber_le
    have hlen : (lineNodes g s).length = s.beltNumber := by
      rw [lineNodes, List.length_map, length_beltOrder]
    have hgear : commandedGear g = 0 := (commandedGear_eq_zero_iff g).mpr hstop
    have hnodes : (speedCtrlProcess g s).uartNodes = lineNodes g s := by
      rw [speedCtrlProcess_uartNodes, lineBase, if_pos hstop, RingFifo.contents_addAll_of_room]
      · rw [RingFifo.contents_clear, List.nil_append]
      · rw [RingFifo.contents_clear, List.length_nil]
        omega
    refine ⟨speedNode no ((commandedGear g).setWidth 16) (lineInterval g s no), ?_, rfl, ?_, ?_⟩
    · rw [hnodes]
      exact List.mem_map_of_mem ((mem_beltOrder_iff g s no).mpr hno)
    · show (BitVec.ofNat 16 no).toNat = no
      rw [BitVec.toNat_ofNat]
      omega
    · rw [hgear]
      rfl
  · exact Or.inl ⟨g, List.mem_cons_self, hstop⟩

section Routines

variable {no : Nat}

theorem buttonCommand_feeds (g : U8) (s : Station) : FeedsLine no s (buttonCommand g s) := by
  unfold buttonCommand
  split_ifs
  · exact (FeedsLine.of_keeps (canBusSendMsg_keeps _ _ _ _)).after (speedCtrlProcess_feeds g s)
  · exact FeedsLine.refl s

theorem scanStart_feeds (pins : Pins) (s : Station) : FeedsLine no s (scanStart pins s) := by
  have hset : ∀ b, FeedsLine no s (setStartInfo b s) :=
    fun b => FeedsLine.of_quiet (setStartInfo_quiet b s)
  unfold scanStart
  dsimp only
  split_ifs
  · exact (buttonCommand_feeds _ _).after (hset _)
  · exact hset _

theorem scanStop_feeds (pins : Pins) (s : Station) : FeedsLine no s (scanStop pins s) := by
  have hset : ∀ b, FeedsLine no s (setStopInfo b s) :=
    fun b => FeedsLine.of_quiet (setStopInfo_quiet b s)
  unfold scanStop
  dsimp only
  split_ifs
  · exact (buttonCommand_feeds _ _).after (hset _)
  · exact hset _

theorem scanEmergency_feeds (pins : Pins) (s : Station) :
    FeedsLine no s (scanEmergency pins s) := by
  have hset : ∀ b t, FeedsLine no t (setEmergencyInfo b t) :=
    fun b t => FeedsLine.of_keeps (setEmergencyInfo_keeps b t)
  have hstop : ∀ t, FeedsLine no t (speedCtrlProcess EMERGENCY_STOP t) :=
    fun t => speedCtrlProcess_feeds _ t
  unfold scanEmergency
  dsimp only
  split_ifs
  · exact (hstop _).after ((hset _ _).after ((hstop _).after (hset _ s)))
  · exact (hstop _).after ((hset _ _).after (hset _ s))
  · exact (hset _ _).after ((hstop _).after (hset _ s))
  · exact (hset _ _).after (hset _ s)
  · exact (hstop _).after (hset _ s)
  · exact hset _ s

theorem inputScanProc_feeds (pins : Pins) (s : Station) :
    FeedsLine no s (inputScanProc pins s) := by
  have hquiet : ∀ {t u : Station}, Quiet t u → FeedsLine no t u := fun h => FeedsLine.of_quiet h
  have hphoto : ∀ t, FeedsLine no t ((List.range 5).foldl (scanPhoto pins) t) :=
    fun t => hquiet (photos_quiet pins t)
  unfold inputScanProc inputScanCommands
  refine (scanEmergency_feeds pins _).after ((hquiet (scanStream_quiet pins _)).after ?_)
  refine (scanStop_feeds pins _).after ((scanStart_feeds pins _).after ?_)
  exact (hphoto _).after (hquiet (scanReset_quiet pins s))

theorem timeUpdate_feeds (pins : Pins) (s : Station) : FeedsLine no s (timeUpdate pins s) := by
  have hcount : FeedsLine no s (timeCounters s) := FeedsLine.of_keeps (timeCounters_keeps s)
  have htick : ∀ t, FeedsLine no t (uartRecvTimeout t) :=
    fun t => FeedsLine.of_keeps (uartRecvTimeout_keeps t)
  exact (inputScanProc_feeds pins _).after ((htick _).after hcount)

theorem canDispatch_feeds (funcId srcId : U8) (s : Station) :
    1 ≤ no ∧ no ≤ s.beltNumber → Feeds no s (canDispatch funcId srcId s).val := by
  unfold canDispatch
  dsimp only
  split_ifs
  · exact fun _ => Feeds.beside (paraDataRecvProcess_touches _ _ s)
  · exact (speedCtrlProcess_feeds _ s).feeds
  · exact fun _ => Feeds.of_quiet (moduleStatusRecvProcess_quiet _ _ _ s)
  · exact fun _ => Feeds.of_quiet (resetCtrlHandle_quiet s)
  · exact fun _ => Feeds.of_quiet (setBlockDisable_quiet _ s)
  · exact fun _ => Feeds.of_keeps (canBusSendModuleStatus_keeps s)
  · exact (FeedsLine.refl s).feeds

theorem canBusFrameReceive_feeds (rxMsg : CanRxMsg) (s : Station) :
    1 ≤ no ∧ no ≤ s.beltNumber → Feeds no s (canBusFrameReceive rxMsg s) := by
  have hrecv : ∀ r, FeedsLine no s (setCanRecv r s) :=
    fun r => FeedsLine.of_keeps (setCanRecv_keeps r s)
  have hdone : ∀ f src payload t, FeedsLine no t (t.log (.canDone f src payload)) :=
    fun f src payload t => ⟨rfl, fun _ =>
      ⟨[.canDone f src payload], rfl, Or.inr (Or.inr ⟨rfl, List.prefix_rfl⟩)⟩⟩
  unfold canBusFrameReceive
  dsimp only
  split_ifs
  · exact fun _ => Feeds.of_keeps (enterBootMode_keeps s)
  · exact ((hdone _ _ _ _).after (hrecv _)).before (canDispatch_feeds _ _ _)
  · exact (hrecv _).feeds

theorem recvMessageFromServer_feeds (point : Mem) (len : Nat) (s : Station) :
    1 ≤ no ∧ no ≤ s.beltNumber → Feeds no s (recvMessageFromServer point len s) := by
  have hsend : ∀ pbuf f src t, FeedsLine no t (canBusSendMsg pbuf f src t) :=
    fun pbuf f src t => FeedsLine.of_keeps (canBusSendMsg_keeps pbuf f src t)
  unfold recvMessageFromServer recvMsgProcess
  split_ifs
  · exact (FeedsLine.refl s).feeds
  · exact fun _ => Feeds.of_keeps (enterBootMode_keeps s)
  · exact fun _ => Feeds.beside (paraReply_touches _ _ s)
  · exact (hsend _ _ _ s).feeds
  · exact fun _ => Feeds.beside (recvWritePara_touches point s)
  · exact ((hsend _ _ _ _).after (speedCtrlProcess_feeds _ s)).feeds
  · exact ((hsend _ _ _ _).after (FeedsLine.of_quiet (resetCtrlHandle_quiet s))).feeds
  · exact ((hsend _ _ _ _).after (FeedsLine.of_quiet (setBlockDisable_quiet _ s))).feeds
  · exact (FeedsLine.refl s).feeds

theorem udpClientProcess_feeds (env : UdpEnv) (s : Station) :
    1 ≤ no ∧ no ≤ s.beltNumber → Feeds no s (udpClientProcess env s) := by
  have hidle : ∀ t : Station,
      Feeds no t { t with msg.tcpRecvLen := 0, msg.tcpClientStatue := .connectOk } :=
    fun t => Feeds.of_keeps (recvDone_keeps t)
  have hconnect : ∀ t, Feeds no t (udpConnectProcess env t) :=
    fun t => Feeds.beside (udpConnectProcess_touches env t)
  intro hno
  have hmsg := recvMessageFromServer_feeds s.msg.tcpRecvBuf s.msg.tcpRecvLen.toNat s hno
  unfold udpClientProcess
  dsimp only
  split_ifs
  · exact hmsg
  · exact (hconnect _).after ((hidle _).after hmsg)
  · exact hconnect s

end Routines

/-- Every input but a call of the master. -/
def Input.Beside : Input → Prop
  | .modbusComm _ => False
  | _ => True

theorem step_feeds {no : Nat} {s : Station} {i : Input} (hi : i.Beside)
    (hno : 1 ≤ no ∧ no ≤ s.beltNumber) : Feeds no s (step s i) := by
  have hframe := step_touches s i
  rcases step_cases s i with hstep | hstep
  · rw [hstep]
    exact (FeedsLine.refl s).feeds hno
  cases i with
  | modbusComm stack => exact absurd hi id
  | timeUpdate pins =>
      rw [hstep]
      exact (timeUpdate_feeds pins s).feeds hno
  | canFrame rxMsg =>
      rw [hstep]
      exact canBusFrameReceive_feeds rxMsg s hno
  | udpClient env =>
      rw [hstep]
      show Feeds no s (if s.isHost then udpClientProcess env s else s)
      split_ifs
      · exact udpClientProcess_feeds env s hno
      · exact (FeedsLine.refl s).feeds hno
  | secProcess pins =>
      rw [hstep]
      show Feeds no s (halfSecHandle (secHandle pins s))
      exact (Feeds.of_keeps (halfSecHandle_keeps _)).after (Feeds.of_quiet (secHandle_quiet pins s))
  | resetStart =>
      rw [hstep]
      exact Feeds.of_quiet (resetStartInverterHandle_quiet s)
  | upstreamIo =>
      rw [hstep]
      exact Feeds.of_quiet (logicUpstreamIoAllowOutput_quiet s)
  | uploadRunState =>
      rw [hstep]
      exact Feeds.of_quiet (mainUploadRunState_quiet s)
  | msoneProcess speedGear =>
      refine Feeds.of_touches hframe ?_
      rw [hstep]
      show s.uartNodes <+: (mainMsoneProcess speedGear s).uartNodes
      rcases (mainMsoneProcess_polls speedGear s).2 with hsame | ⟨num, -, -, hqueue⟩
      · rw [hsame.uartNodes]
      · unfold Station.uartNodes
        rw [hqueue]
        exact RingFifo.contents_prefix_add _ _
  | usart1Irq _ | udpReceive _ _ | sendMessage | canSend _ =>
      exact Feeds.beside hframe

/-- The command in flight is the same but for its waiting time, and an answer is waited
for as before. -/
structure SameFlight (s t : Station) : Prop where
  busy : t.logic.commBusyFlag = s.logic.commBusyFlag
  node : ∃ interval, t.logic.commNode = { s.logic.commNode with commInterval := interval }
  listening : Listening t ↔ Listening s

theorem SameMaster.sameFlight {s t : Station} (h : SameMaster s t) : SameFlight s t := by
  refine ⟨h.busy, ⟨s.logic.commNode.commInterval, h.node⟩, ?_⟩
  unfold Listening
  rw [h.state]

theorem SameFlight.trans {s t u : Station} (h : SameFlight s t) (h' : SameFlight t u) :
    SameFlight s u := by
  obtain ⟨interval, hnode⟩ := h.node
  obtain ⟨interval', hnode'⟩ := h'.node
  refine ⟨h'.busy.trans h.busy, ⟨interval', ?_⟩, h'.listening.trans h.listening⟩
  rw [hnode', hnode]

theorem SameFlight.inFlight {s t : Station} (h : SameFlight s t) :
    (s.inFlight = none ∧ t.inFlight = none) ∨
      ∃ interval, s.inFlight = some s.logic.commNode ∧
        t.inFlight = some { s.logic.commNode with commInterval := interval } := by
  obtain ⟨interval, hnode⟩ := h.node
  unfold Station.inFlight
  rw [h.busy, hnode]
  split_ifs
  · exact Or.inr ⟨interval, rfl, rfl⟩
  · exact Or.inl ⟨rfl, rfl⟩

theorem step_sameFlight {s : Station} {i : Input} (h : TimerInv s) (hi : i.Beside) :
    SameFlight s (step s i) := by
  have hframe := step_touches s i
  rcases step_cases s i with hstep | hstep
  · rw [hstep]
    exact (SameMaster.mk rfl rfl rfl rfl).sameFlight
  cases i with
  | modbusComm stack => exact absurd hi id
  | timeUpdate pins =>
      rw [hstep]
      have hcount := SameMaster.of_keeps (timeCounters_keeps s)
      have htimers := hcount.timerInv h
      have hscan := SameMaster.of_keeps
        (inputScanProc_touches pins (uartRecvTimeout (timeCounters s))).keeps
      have htick : SameFlight (timeCounters s) (uartRecvTimeout (timeCounters s)) :=
        ⟨uartRecvTimeout_busy _, (uartRecvTimeout_node _).2, uartRecvTimeout_listening htimers⟩
      exact (hcount.sameFlight.trans htick).trans hscan.sameFlight
  | usart1Irq tmp =>
      rw [hstep]
      obtain ⟨hstate, hlogic, -⟩ := usart1IrqHandler_facts tmp s
      refine ⟨congrArg LogicVars.commBusyFlag hlogic, ⟨s.logic.commNode.commInterval, ?_⟩, ?_⟩
      · exact congrArg LogicVars.commNode hlogic
      · unfold Listening
        exact Iff.of_eq (congrArg (fun c => c = CommuState.recvData ∨ c = .recvDataEnd) hstate)
  | canFrame _ | udpReceive _ _ | udpClient _ | sendMessage | secProcess _ | canSend _
  | resetStart | upstreamIo | uploadRunState | msoneProcess _ =>
      exact (SameMaster.of_keeps hframe.keeps).sameFlight

/-! ## The edge -/

/-- Only an accepted poll records a belt as stopped, the belt of the command in flight. -/
theorem stopEdge_cases {k : Nat} {s : Station} {i : Input} (h : StopEdge k s (step s i))
    (hk : 1 ≤ k) (hrange : RangeInv s) :
    s.logic.commBusyFlag = true ∧ s.logic.commNode.inverterNo.toNat = k ∧
      ∃ buf, step s i = setRecvCount 0 (commFinish true (commRecvPoll buf s)) ∧
        ¬ le16 (buf 4) (buf 3) &&& 0xFF = 1 := by
  obtain ⟨hrunning, hstopped⟩ := h
  have hchanges : (step s i).runBit ≠ s.runBit := by
    intro hsame
    rw [hsame, hrunning] at hstopped
    cases hstopped
  have hframe := (step_touches s i).keeps
  have hin : .runBits ∈ i.parts := by
    by_contra hp
    exact hchanges (hframe.same .runBits hp)
  rcases step_cases s i with hstep | hstep
  · rw [hstep] at hchanges
    exact absurd rfl hchanges
  cases i with
  | modbusComm stack =>
      have hproc : step s (.modbusComm stack) = modbusRtuCommProcess stack s := hstep
      rw [hproc] at hchanges hstopped ⊢
      unfold modbusRtuCommProcess at hchanges hstopped ⊢
      split_ifs at hchanges hstopped ⊢ with hidle hsend hend
      · exact absurd ((commTakeNode_keeps s).same .runBits (by decide)) hchanges
      · exact absurd ((commSendRwComand_keeps stack s).same .runBits (by decide)) hchanges
      · have hbusy : s.logic.commBusyFlag = true := by simpa using hidle
        rw [commJudge_runBit] at hchanges hstopped
        unfold commJudge
        dsimp only
        generalize s.modbus.uart1RecvBuff = buf at hchanges hstopped ⊢
        rcases commRecvRwComand_cases buf s.modbus.uart1RecvCount s with heq | ⟨-, heq⟩ | heq
        · rw [heq] at hchanges
          exact absurd rfl hchanges
        · rw [heq] at hstopped ⊢
          rw [commRecvPoll_runBit] at hstopped
          have hno := (hrange.flight _ (inFlight_of_busy hbusy)).inverterNo
          split_ifs at hstopped with hindex
          · exact ⟨hbusy, by omega, buf, rfl, of_decide_eq_false hstopped⟩
          · rw [hrunning] at hstopped
            cases hstopped
        · rw [heq] at hchanges
          refine absurd ?_ hchanges
          unfold commRecvWrite
          dsimp only
          split_ifs <;> rfl
      · exact absurd rfl hchanges
  | timeUpdate _ | usart1Irq _ | canFrame _ | udpReceive _ _ | udpClient _ | sendMessage
  | secProcess _ | canSend _ | resetStart | upstreamIo | uploadRunState | msoneProcess _ =>
      simp [Input.parts, tickParts, scanParts, frameParts, datagramParts, paraParts] at hin

/-- An edge in time queues the stop of the belt above. -/
theorem stopEdge_queues {k : Nat} {s : Station} {i : Input} (h : StopEdge k s (step s i))
    (hlock : Interlocked k s) (hrange : RangeInv s) (hrun : s.runBit (k - 2) = true)
    (hroom : ¬ s.logic.uartSendQueue.IsFull) :
    (step s i).uartNodes = s.uartNodes ++ [speedNode (k - 1) 0 10] := by
  obtain ⟨hk, -, hlink, hacc⟩ := hlock
  obtain ⟨hbusy, hno, buf, hstep, hnew⟩ := stopEdge_cases h (by omega) hrange
  have hold : bitAt (s.inverter (s.logic.commNode.inverterNo.toNat - 1)).faultCode 4 = 1 := by
    rw [hno, bitAt_eq]
    exact if_pos h.1
  have hup : bitAt (s.inverter (k - 2)).faultCode 4 = 1 := by
    rw [bitAt_eq]
    exact if_pos hrun
  have hhandle : linkageStreamCtrlHandle (k - 2) false s =
      addUartSendData2Queue (speedNode (k - 2 + 1) 0 10) s := by
    unfold linkageStreamCtrlHandle linkageStop
    rw [if_pos hlink, if_neg Bool.false_ne_true, if_neg (by rw [hacc]; decide),
      if_pos (by rw [hup]; decide)]
  have hpoll : (commRecvPoll buf s).uartNodes =
      (addUartSendData2Queue (speedNode (k - 2 + 1) 0 10) s).uartNodes := by
    unfold commRecvPoll
    dsimp only
    rw [if_neg hnew, if_pos (by rw [hold]; decide), if_pos (by omega), if_pos hold, hno, hhandle]
    rfl
  have hfinish : (step s i).uartNodes = (commRecvPoll buf s).uartNodes := by
    rw [hstep]
    exact (setRecvCount_keeps _ _).uartNodes.trans (commFinish_keeps _ _).uartNodes
  have hindex : k - 2 + 1 = k - 1 := by omega
  rw [hfinish, hpoll, hindex]
  exact RingFifo.contents_add hroom _

/-! ## Runs -/

/-- While the interlock is armed it is covered, and a stop node queued since the edge that
was sent and waits for its answer was transmitted. -/
structure WatchInv (k : Nat) (w : Watch) (s : Station) : Prop where
  range : RangeInv s
  books : ∃ a, Agrees a s
  covered : w.armed = true → Covered k w s
  heard : w.fresh = true → (∃ x ∈ s.inFlight, x.Stops (k - 1)) → Listening s → w.sent = true

theorem gearsBetween_of_append {s t : Station} {es : List Event} (h : t.trace = es ++ s.trace) :
    gearsBetween s t = es.filterMap Event.gear := by
  unfold gearsBetween
  rw [newEvents_of_append h]

/-- The waiting time and the retries do not tell what a command is for. -/
theorem CommNode.Stops.of_same {no : Nat} {x y : CommNode} (h : x.Stops no)
    (hrw : y.rwFlag = x.rwFlag) (hno : y.inverterNo = x.inverterNo)
    (hgear : y.speedGear = x.speedGear) : y.Stops no := by
  unfold CommNode.Stops
  rw [hrw, hno, hgear]
  exact h

theorem SameFlight.stops_iff {s t : Station} (h : SameFlight s t) (no : Nat) :
    (∃ x ∈ t.inFlight, x.Stops no) ↔ ∃ x ∈ s.inFlight, x.Stops no := by
  rcases h.inFlight with ⟨hs, ht⟩ | ⟨interval, hs, ht⟩
  · rw [hs, ht]
  · rw [hs, ht]
    constructor
    · rintro ⟨x, hx, hstops⟩
      obtain rfl := Option.some.inj hx
      exact ⟨_, rfl, hstops⟩
    · rintro ⟨x, hx, hstops⟩
      obtain rfl := Option.some.inj hx
      exact ⟨_, rfl, hstops⟩

section Step

variable {k : Nat} {w : Watch} {s : Station} {i : Input}

/-- The watch of a step that is no edge. -/
theorem Watch.observe_of_no_edge (hedge : ¬ StopEdge k s (step s i)) :
    w.observe k s i =
      { armed := w.armed && !(step s i).runBit (k - 1) &&
          (gearsBetween s (step s i)).all fun g => IsStop g
        older := w.olderAfter s (step s i)
        fresh := if Takes s (step s i) then w.older == 0 else w.fresh
        sent := w.sent || (w.fresh && decide (∃ x ∈ s.inFlight, x.Stops (k - 1)) &&
          decide (s.events .modbusTx < (step s i).events .modbusTx)) } :=
  if_neg hedge

/-- An edge in time covers the interlock. -/
theorem WatchInv.edge (h : WatchInv k w s) (hlock : Interlocked k s) (hok : StopsInTime k s i)
    (hedge : StopEdge k s (step s i)) :
    Covered k (w.observe k s i) (step s i) := by
  obtain ⟨hrun, hroom⟩ := hok hedge
  have hqueue := stopEdge_queues hedge hlock h.range hrun hroom
  have hobserve : w.observe k s i =
      { armed := true, older := s.uartNodes.length, fresh := false, sent := false } := if_pos hedge
  have hk := hlock.1
  have hn := s.beltNumber_le
  have hkn := hlock.2.1
  rw [hobserve]
  refine Or.inr (Or.inr ⟨speedNode (k - 1) 0 10, ?_, rfl, ?_, rfl⟩)
  · rw [hqueue, List.drop_left]
    exact List.mem_singleton_self _
  · show (BitVec.ofNat 16 (k - 1)).toNat = k - 1
    rw [BitVec.toNat_ofNat]
    omega

/-- A step beside the master: the command in flight stays, and the queue grows or is
emptied by a stop command. -/
theorem WatchInv.beside (h : WatchInv k w s) (hlock : Interlocked k s) (hi : i.Beside)
    (htx : (step s i).events .modbusTx = s.events .modbusTx)
    (hedge : ¬ StopEdge k s (step s i)) :
    ((w.observe k s i).armed = true → Covered k (w.observe k s i) (step s i)) ∧
      ((w.observe k s i).fresh = true → (∃ x ∈ (step s i).inFlight, x.Stops (k - 1)) →
        Listening (step s i) → (w.observe k s i).sent = true) := by
  obtain ⟨a, ha⟩ := h.books
  have hflight := step_sameFlight ha.timers hi
  have htakes : ¬ Takes s (step s i) := by
    rintro ⟨hnone, hsome⟩
    rcases hflight.inFlight with ⟨-, ht⟩ | ⟨interval, hs, -⟩
    · exact hsome ht
    · rw [hnone] at hs
      cases hs
  obtain ⟨hk, hkn, -⟩ := hlock
  obtain ⟨es, htrace, hes⟩ := step_feeds hi (show 1 ≤ k - 1 ∧ k - 1 ≤ s.beltNumber by omega)
  have hgears := gearsBetween_of_append htrace
  rw [Watch.observe_of_no_edge hedge, if_neg htakes, htx]
  dsimp only
  refine ⟨fun harmed => ?_, fun hfresh hstops hlisten => ?_⟩
  · simp only [Bool.and_eq_true, List.all_eq_true, decide_eq_true_eq] at harmed
    obtain ⟨⟨harmed, -⟩, hall⟩ := harmed
    rw [hgears] at hall
    rcases hes with ⟨g, hg, hrun⟩ | ⟨hsome, x, hx, hstops⟩ | ⟨hnone, hgrows⟩
    · exact absurd (hall g hg) hrun
    · refine Or.inr (Or.inr ⟨x, ?_, hstops⟩)
      have hzero : w.olderAfter s (step s i) = 0 := if_pos (by rw [hgears]; exact hsome)
      rw [hzero]
      exact hx
    · have holder : w.olderAfter s (step s i) = w.older := by
        unfold Watch.olderAfter
        rw [if_neg (by rw [hgears, hnone]; simp), if_neg htakes]
      rcases h.covered harmed with hsent | ⟨hfresh, hstops⟩ | ⟨x, hx, hstops⟩
      · exact Or.inl (by rw [hsent, Bool.true_or])
      · exact Or.inr (Or.inl ⟨hfresh, (hflight.stops_iff _).mpr hstops⟩)
      · refine Or.inr (Or.inr ⟨x, ?_, hstops⟩)
        rw [holder]
        obtain ⟨more, hmore⟩ := hgrows
        rw [← hmore, List.drop_append]
        exact List.mem_append_left _ hx
  · have hsent := h.heard hfresh ((hflight.stops_iff _).mp hstops) (hflight.listening.mp hlisten)
    rw [hsent, Bool.true_or]

/-- What a step has to show. -/
def WatchStep (k : Nat) (w : Watch) (s : Station) (i : Input) : Prop :=
  ((w.observe k s i).armed = true → Covered k (w.observe k s i) (step s i)) ∧
    ((w.observe k s i).fresh = true → (∃ x ∈ (step s i).inFlight, x.Stops (k - 1)) →
      Listening (step s i) → (w.observe k s i).sent = true)

/-- A call of the master that takes nothing: the queue grows at most, and a stop node in
flight stays there or was transmitted. -/
theorem WatchInv.master (h : WatchInv k w s) (hedge : ¬ StopEdge k s (step s i))
    (hgears : gearsBetween s (step s i) = []) (htakes : ¬ Takes s (step s i))
    (hgrows : s.uartNodes <+: (step s i).uartNodes)
    (hflight : w.fresh = true → (∃ x ∈ s.inFlight, x.Stops (k - 1)) →
      (w.observe k s i).sent = true ∨ ∃ x ∈ (step s i).inFlight, x.Stops (k - 1))
    (hheard : w.fresh = true → (∃ x ∈ (step s i).inFlight, x.Stops (k - 1)) →
      Listening (step s i) → (w.observe k s i).sent = true) : WatchStep k w s i := by
  have holder : w.olderAfter s (step s i) = w.older := by
    unfold Watch.olderAfter
    rw [if_neg (by rw [hgears]; simp), if_neg htakes]
  have hobserve := Watch.observe_of_no_edge (w := w) hedge
  rw [if_neg htakes, holder] at hobserve
  refine ⟨fun harmed => ?_, fun hfresh => ?_⟩
  · have hwas : w.armed = true := by
      rw [hobserve] at harmed
      simp only [Bool.and_eq_true] at harmed
      exact harmed.1.1
    rcases h.covered hwas with hsent | ⟨hfresh, hstops⟩ | ⟨x, hx, hstops⟩
    · refine Or.inl ?_
      rw [hobserve]
      simp [hsent]
    · rcases hflight hfresh hstops with hsent | hstill
      · exact Or.inl hsent
      · refine Or.inr (Or.inl ⟨?_, hstill⟩)
        rw [hobserve]
        exact hfresh
    · refine Or.inr (Or.inr ⟨x, ?_, hstops⟩)
      rw [hobserve]
      obtain ⟨more, hmore⟩ := hgrows
      rw [← hmore, List.drop_append]
      exact List.mem_append_left _ hx
  · rw [hobserve] at hfresh
    exact hheard hfresh

theorem gearsBetween_modbusComm (stack : Table 4 U16) (s : Station) :
    gearsBetween s (step s (.modbusComm stack)) = [] := by
  have hframe := step_touches s (.modbusComm stack)
  refine List.filterMap_eq_nil_iff.mpr fun e he => ?_
  have hkind := hframe.kind_mem he
  cases e <;> first | rfl | simp [Input.kinds, Event.kind] at hkind

theorem WatchInv.take (h : WatchInv k w s) (stack : Table 4 U16)
    (hstep : step s (.modbusComm stack) = commTakeNode s) (hidle : s.logic.commBusyFlag = false)
    (hedge : ¬ StopEdge k s (step s (.modbusComm stack))) :
    WatchStep k w s (.modbusComm stack) := by
  have hgears := gearsBetween_modbusComm stack s
  have hnone := inFlight_of_idle hidle
  rcases commTakeNode_cases s with ⟨-, hsame⟩ | ⟨x, hcontents, hflight, hready⟩
  · rw [hsame] at hstep
    refine h.master hedge hgears ?_ ?_ ?_ ?_
    · rw [hstep]
      exact fun ht => ht.2 ht.1
    · rw [hstep]
    · rw [hnone]
      rintro - ⟨x, hx, -⟩
      cases hx
    · rw [hstep, hnone]
      rintro - ⟨x, hx, -⟩
      cases hx
  · have htakes : Takes s (step s (.modbusComm stack)) := by
      refine ⟨hnone, ?_⟩
      rw [hstep, hflight]
      exact Option.some_ne_none _
    have holder : w.olderAfter s (step s (.modbusComm stack)) = w.older - 1 := by
      unfold Watch.olderAfter
      rw [if_neg (by rw [hgears]; simp), if_pos htakes]
    unfold WatchStep
    rw [Watch.observe_of_no_edge hedge, if_pos htakes, holder, hstep]
    dsimp only
    refine ⟨fun harmed => ?_, fun _ _ hlisten => ?_⟩
    · simp only [Bool.and_eq_true] at harmed
      rcases h.covered harmed.1.1 with hsent | ⟨-, y, hy, -⟩ | ⟨y, hy, hstops⟩
      · exact Or.inl (by simp [hsent])
      · rw [hnone] at hy
        cases hy
      · rw [hcontents] at hy
        -- the stop node is the one taken, or one behind it
        cases holder : w.older with
        | zero =>
            rw [holder, List.drop_zero] at hy
            rcases List.mem_cons.mp hy with rfl | hy
            · refine Or.inr (Or.inl ⟨rfl, fixInterval y, hflight, ?_⟩)
              obtain ⟨interval, hfix⟩ := fixInterval_eq y
              rw [hfix]
              exact hstops
            · exact Or.inr (Or.inr ⟨y, hy, hstops⟩)
        | succ n =>
            rw [holder, List.drop_succ_cons] at hy
            exact Or.inr (Or.inr ⟨y, hy, hstops⟩)
    · rcases hlisten with hrecv | hrecv
      · rw [hready] at hrecv
        cases hrecv
      · rw [hready] at hrecv
        cases hrecv

theorem WatchInv.send (h : WatchInv k w s) (stack : Table 4 U16)
    (hstep : step s (.modbusComm stack) = commSendRwComand stack s)
    (hbusy : s.logic.commBusyFlag = true)
    (hedge : ¬ StopEdge k s (step s (.modbusComm stack))) :
    WatchStep k w s (.modbusComm stack) := by
  have hgears := gearsBetween_modbusComm stack s
  have hk := commSendRwComand_keeps stack s
  have hflight : (step s (.modbusComm stack)).inFlight = s.inFlight := by
    rw [hstep]
    exact hk.inFlight
  have hknown : (commBuildFrame stack s).isSome :=
    commBuildFrame_isSome (h.range.flight _ (inFlight_of_busy hbusy)).rwFlag
  obtain ⟨⟨frame, t⟩, hbuild⟩ := Option.isSome_iff_exists.mp hknown
  have htx : s.events .modbusTx < (step s (.modbusComm stack)).events .modbusTx := by
    unfold Station.events
    rw [hstep, commSendRwComand_trace hbuild, List.countP_cons]
    simp [Event.kind]
  have htakes : ¬ Takes s (step s (.modbusComm stack)) := by
    unfold Takes
    rw [hflight]
    exact fun ht => ht.2 ht.1
  have hsent : w.fresh = true → (∃ x ∈ s.inFlight, x.Stops (k - 1)) →
      (w.observe k s (.modbusComm stack)).sent = true := by
    intro hfresh hstops
    rw [Watch.observe_of_no_edge hedge]
    simp only [hfresh, decide_eq_true hstops, decide_eq_true htx, Bool.and_self, Bool.or_true]
  refine h.master hedge hgears htakes ?_ (fun hfresh hstops => Or.inl (hsent hfresh hstops)) ?_
  · rw [hstep, hk.uartNodes]
  · rw [hflight]
    exact fun hfresh hstops _ => hsent hfresh hstops

/-- A judged command is released, or sent again. -/
theorem commJudge_flight (hbusy : s.logic.commBusyFlag = true) :
    (commJudge s).inFlight = none ∨
      (commJudge s).inFlight = some (retryNode s.logic.commNode) ∧ ¬ Listening (commJudge s) := by
  cases haccepts : accepts s with
  | true =>
      refine Or.inl ?_
      have hjudge : commJudge s = setRecvCount 0 (setCommBusy false (clearCommFault
          (commRecvRwComand s.modbus.uart1RecvBuff s.modbus.uart1RecvCount s).2)) := by
        show setRecvCount 0 (commFinish (accepts s) _) = _
        rw [haccepts]
        rfl
      rw [hjudge]
      rfl
  | false =>
      rw [commJudge_rejected haccepts]
      unfold commFinish
      rw [if_neg Bool.false_ne_true]
      split_ifs
      · refine Or.inr ⟨if_pos hbusy, ?_⟩
        rintro (hnot | hnot) <;> cases hnot
      · exact Or.inl rfl

theorem WatchInv.judge (h : WatchInv k w s) (stack : Table 4 U16)
    (hstep : step s (.modbusComm stack) = commJudge s) (hbusy : s.logic.commBusyFlag = true)
    (hend : s.modbus.uart1CommuState = .recvDataEnd)
    (hedge : ¬ StopEdge k s (step s (.modbusComm stack))) :
    WatchStep k w s (.modbusComm stack) := by
  have hgears := gearsBetween_modbusComm stack s
  have htakes : ¬ Takes s (step s (.modbusComm stack)) := by
    intro ht
    have hnone := ht.1
    rw [inFlight_of_busy hbusy] at hnone
    cases hnone
  have hsent : w.fresh = true → (∃ x ∈ s.inFlight, x.Stops (k - 1)) →
      (w.observe k s (.modbusComm stack)).sent = true := by
    intro hfresh hstops
    have hwas := h.heard hfresh hstops (Or.inr hend)
    rw [Watch.observe_of_no_edge hedge]
    simp [hwas]
  refine h.master hedge hgears htakes ?_ (fun hfresh hstops => Or.inl (hsent hfresh hstops)) ?_
  · obtain ⟨xs, hxs, -⟩ :=
      (commRecvRwComand_quiet s.modbus.uart1RecvBuff s.modbus.uart1RecvCount hbusy).queue
    rw [hstep]
    have hfinish : (commJudge s).uartNodes =
        (commRecvRwComand s.modbus.uart1RecvBuff s.modbus.uart1RecvCount s).2.uartNodes :=
      (setRecvCount_keeps _ _).uartNodes.trans (commFinish_keeps _ _).uartNodes
    rw [hfinish]
    unfold Station.uartNodes
    rw [hxs]
    exact RingFifo.contents_prefix_addAll _ _
  · rw [hstep]
    intro _ hstops hlisten
    rcases commJudge_flight hbusy with hnone | ⟨-, hquiet⟩
    · obtain ⟨x, hx, -⟩ := hstops
      rw [hnone] at hx
      cases hx
    · exact absurd hlisten hquiet

theorem WatchInv.stay (h : WatchInv k w s) (stack : Table 4 U16)
    (hstep : step s (.modbusComm stack) = s)
    (hedge : ¬ StopEdge k s (step s (.modbusComm stack))) :
    WatchStep k w s (.modbusComm stack) := by
  refine h.master hedge (gearsBetween_modbusComm stack s) ?_ ?_ ?_ ?_
  · rw [hstep]
    exact fun ht => ht.2 ht.1
  · rw [hstep]
  · rw [hstep]
    exact fun _ hstops => Or.inr hstops
  · rw [hstep]
    intro hfresh hstops hlisten
    have hwas := h.heard hfresh hstops hlisten
    rw [Watch.observe_of_no_edge hedge]
    simp [hwas]

theorem WatchInv.modbusComm (h : WatchInv k w s) (stack : Table 4 U16)
    (hedge : ¬ StopEdge k s (step s (.modbusComm stack))) :
    WatchStep k w s (.modbusComm stack) := by
  rcases step_cases s (.modbusComm stack) with hstep | hstep
  · exact h.stay stack hstep hedge
  have hproc : step s (.modbusComm stack) = modbusRtuCommProcess stack s := hstep
  unfold modbusRtuCommProcess at hproc
  split_ifs at hproc with hidle hsend hend
  · exact h.take stack hproc hidle hedge
  · exact h.send stack hproc (by simpa using hidle) hedge
  · exact h.judge stack hproc (by simpa using hidle) hend hedge
  · exact h.stay stack hproc hedge

/-- **One step** keeps the interlock covered. -/
theorem step_watchInv (h : WatchInv k w s) (hlock : Interlocked k s) (hok : StopsInTime k s i) :
    WatchInv k (w.observe k s i) (step s i) := by
  obtain ⟨a, ha⟩ := h.books
  have hrange : RangeInv (step s i) :=
    Moves.invariant (fun _ _ hm => hm.rangeInv) (step_moves s i) h.range
  have hbooks : ∃ a, Agrees a (step s i) := ⟨_, (step_accounted i ha h.range).1⟩
  by_cases hedge : StopEdge k s (step s i)
  · refine ⟨hrange, hbooks, fun _ => h.edge hlock hok hedge, fun hfresh => ?_⟩
    have hobserve : (w.observe k s i).fresh = false := congrArg Watch.fresh (if_pos hedge)
    rw [hobserve] at hfresh
    cases hfresh
  · have hstep : WatchStep k w s i := by
      cases i with
      | modbusComm stack => exact h.modbusComm stack hedge
      | timeUpdate _ | usart1Irq _ | canFrame _ | udpReceive _ _ | udpClient _ | sendMessage
      | secProcess _ | canSend _ | resetStart | upstreamIo | uploadRunState | msoneProcess _ =>
          exact h.beside hlock trivial (step_touches s _).events hedge
    exact ⟨hrange, hbooks, hstep.1, hstep.2⟩

end Step

theorem Interlocked.of_sameParas {k : Nat} {s t : Station}
    (h : t.logic.userParasLocal = s.logic.userParasLocal) (hlock : Interlocked k t) :
    Interlocked k s := by
  unfold Interlocked Station.beltNumber Station.belt at hlock ⊢
  rw [h] at hlock
  exact hlock

theorem reachable_watchInv {k : Nat} {p : Watched}
    (h : Reach WatchStart (watchStep k) (fun p i => KeepsParas p.1 i ∧ StopsInTime k p.1 i) p) :
    Interlocked k p.1 → WatchInv k p.2 p.1 := by
  have hstep : ∀ (p : Watched) (i : Input), (Interlocked k p.1 → WatchInv k p.2 p.1) →
      KeepsParas p.1 i ∧ StopsInTime k p.1 i →
      Interlocked k (watchStep k p i).1 → WatchInv k (watchStep k p i).2 (watchStep k p i).1 := by
    intro p i hp hok hlock
    have hbefore : Interlocked k p.1 := Interlocked.of_sameParas hok.1 hlock
    exact step_watchInv (hp hbefore) hbefore hok.2
  refine h.invariant ?_ hstep
  rintro ⟨s, w⟩ ⟨hboot, rfl⟩ -
  have hbooks : Agrees Account.empty s ∧ RangeInv s :=
    auditStart_agrees (p := (s, Account.empty)) ⟨hboot, rfl⟩
  refine ⟨hbooks.2, ⟨_, hbooks.1⟩, fun harmed => ?_, fun hfresh => ?_⟩
  · cases harmed
  · cases hfresh

/-- **The interlock stops the belt above**: in every run with unchanged parameters in which
every edge of belt `k` finds belt `k - 1` recorded as running and room in the queue, a stop
node for belt `k - 1` queued since the edge waits, is in flight or was transmitted, as long
as belt `k` is not recorded as running again and no gear is commanded. -/
theorem interlock_covered {k : Nat} {p : Watched}
    (h : Reach WatchStart (watchStep k) (fun p i => KeepsParas p.1 i ∧ StopsInTime k p.1 i) p)
    (hlock : Interlocked k p.1) (harmed : p.2.armed = true) : Covered k p.2 p.1 :=
  (reachable_watchInv h hlock).covered harmed

/-! ## Polls behind each other -/

instance (s : Station) (i : Input) : Decidable (KeepsParas s i) :=
  decidable_of_iff ((step s i).logic.userParasLocal.toUserParas =
    s.logic.userParasLocal.toUserParas) <| by
      unfold KeepsParas
      cases (step s i).logic.userParasLocal
      cases s.logic.userParasLocal
      simp

instance (k : Nat) (s : Station) (i : Input) : Decidable (StopsInTime k s i) :=
  inferInstanceAs (Decidable (_ → _))

instance (k : Nat) (s : Station) : Decidable (Interlocked k s) :=
  inferInstanceAs (Decidable (_ ∧ _))

instance (k : Nat) (w : Watch) (s : Station) : Decidable (Covered k w s) :=
  inferInstanceAs (Decidable (_ ∨ _))

/-- A quiet millisecond does not disturb the watch. -/
def QuietWatch (k : Nat) (p : Watched) : Prop :=
  Resting p.1 ∧ Counting p.1 ∧ (p.2.armed = true → p.1.runBit (k - 1) = false)

instance (k : Nat) (p : Watched) : Decidable (QuietWatch k p) :=
  inferInstanceAs (Decidable (_ ∧ _))

theorem tickCounters_no_edge (k : Nat) (s : Station) : ¬ StopEdge k s (tickCounters s) := by
  rintro ⟨hrun, hstopped⟩
  exact Bool.false_ne_true (hstopped.symm.trans hrun)

theorem watchStep_resting {k : Nat} {s : Station} {w : Watch} (hrest : Resting s)
    (hwatch : w.armed = true → s.runBit (k - 1) = false) :
    watchStep k (s, w) (.timeUpdate noInput) = (tickCounters s, w) := by
  have hstep := step_resting hrest
  have hgears : gearsBetween s (tickCounters s) = [] :=
    gearsBetween_of_append (List.nil_append _).symm
  have htakes : ¬ Takes s (tickCounters s) := fun ht => ht.2 ht.1
  have holder : w.olderAfter s (tickCounters s) = w.older := by
    unfold Watch.olderAfter
    rw [if_neg (by rw [hgears]; simp), if_neg htakes]
  have hedge : ¬ StopEdge k s (step s (.timeUpdate noInput)) := by
    rw [hstep]
    exact tickCounters_no_edge k s
  have harmed : (w.armed && !(tickCounters s).runBit (k - 1)) = w.armed := by
    show (w.armed && !s.runBit (k - 1)) = w.armed
    cases h : w.armed with
    | true => rw [hwatch h]; rfl
    | false => rfl
  have hevents : (tickCounters s).events .modbusTx = s.events .modbusTx := rfl
  unfold watchStep
  rw [Watch.observe_of_no_edge hedge, hstep, holder, if_neg htakes, hgears, harmed, hevents]
  simp

theorem reach_coast {k : Nat} {ok : Watched → Input → Prop} {p : Watched}
    (hok : ∀ q, Resting q.1 → ok q (.timeUpdate noInput))
    (h : Reach WatchStart (watchStep k) ok p) (hquiet : QuietWatch k p) (n : Nat) :
    Reach WatchStart (watchStep k) ok (coast n p.1, p.2) := by
  obtain ⟨hrest, hcount, hwatch⟩ := hquiet
  induction n with
  | zero =>
      rw [coast_zero hcount]
      exact h
  | succ n ih =>
      have hnext := Reach.next ih (hok (coast n p.1, p.2) (hrest.coast n))
      rw [watchStep_resting (hrest.coast n) hwatch] at hnext
      rw [← tickCounters_coast hcount]
      exact hnext

/-- Two belts, the first of which has linkage on. -/
def linkedFlash : Flash :=
  { userPara := fun k => if k = 2 then 2 else if k = 3 then 2 else 0
    userAppEnFlag := 0xFFFF }

/-- What an inverter answers to a poll. -/
def pollAnswer (no : U8) (running : Bool) : List U8 :=
  withCrc ([no, 3, 14, 0, if running then 1 else 5] ++ List.replicate 12 0)

/-- A poll that is answered at once. -/
def answeredPoll (no : U8) (running : Bool) : List Input :=
  [.msoneProcess 0, .modbusComm fun _ => 0] ++ idleTicks 20 ++ [.modbusComm fun _ => 0] ++
    (pollAnswer no running).map Input.usart1Irq ++ idleTicks 5 ++ [.modbusComm fun _ => 0]

/-- The next poll, half a second later. -/
def polled (p : Watched) (answer : U8 × Bool) : Watched :=
  run (watchStep 2) (coast 501 p.1, p.2) (answeredPoll answer.1 answer.2)

def PollAllowed (ok : Watched → Input → Prop) (p : Watched) (answer : U8 × Bool) : Prop :=
  QuietWatch 2 p ∧
    Along (watchStep 2) ok (coast 501 p.1, p.2) (answeredPoll answer.1 answer.2)

instance (ok : Watched → Input → Prop) [∀ p i, Decidable (ok p i)] (p : Watched)
    (answer : U8 × Bool) : Decidable (PollAllowed ok p answer) :=
  inferInstanceAs (Decidable (_ ∧ _))

theorem reach_polled (ok : Watched → Input → Prop)
    (hok : ∀ q, Resting q.1 → ok q (.timeUpdate noInput)) (answers : List (U8 × Bool)) :
    ∀ p : Watched, Reach WatchStart (watchStep 2) ok p → Along polled (PollAllowed ok) p answers →
      Reach WatchStart (watchStep 2) ok (run polled p answers) := by
  induction answers with
  | nil => exact fun p h _ => h
  | cons answer answers ih =>
      rintro p h ⟨⟨hquiet, halong⟩, hrest⟩
      have hcoast := reach_coast hok h hquiet 501
      have hpolled : Reach WatchStart (watchStep 2) ok (polled p answer) :=
        Reach.run_of_along hcoast halong
      rw [run_cons]
      exact ih (polled p answer) hpolled hrest

theorem keepsParas_resting {s : Station} (h : Resting s) : KeepsParas s (.timeUpdate noInput) := by
  unfold KeepsParas
  rw [step_resting h]
  rfl

/-- Slave 2 behind some polls. -/
def behindPolls (answers : List (U8 × Bool)) : Watched :=
  run polled (boot linkedFlash 2, Watch.idle) answers

/-- Both belts run, and belt 2 stops while belt 1 is recorded as running. -/
theorem stop_waits_behind_edge :
    Covered 2 (behindPolls [(1, true), (2, true), (1, true), (2, false)]).2
      (behindPolls [(1, true), (2, true), (1, true), (2, false)]).1 := by
  have hok : ∀ q : Watched, Resting q.1 →
      (fun (p : Watched) i => KeepsParas p.1 i ∧ StopsInTime 2 p.1 i) q (.timeUpdate noInput) := by
    intro q h
    refine ⟨keepsParas_resting h, fun hedge => absurd hedge ?_⟩
    rw [step_resting h]
    exact tickCounters_no_edge 2 q.1
  have hend : Along polled (PollAllowed fun p i => KeepsParas p.1 i ∧ StopsInTime 2 p.1 i)
        (boot linkedFlash 2, Watch.idle) [(1, true), (2, true), (1, true), (2, false)] ∧
      Interlocked 2 (behindPolls [(1, true), (2, true), (1, true), (2, false)]).1 ∧
      (behindPolls [(1, true), (2, true), (1, true), (2, false)]).2.armed = true := by
    decide +kernel
  obtain ⟨hallowed, hlock, harmed⟩ := hend
  have hreach := reach_polled _ hok _ _ (Reach.start ⟨⟨_, _, rfl⟩, rfl⟩) hallowed
  exact interlock_covered hreach hlock harmed

/-- Belt 1 stops for the length of two polls, and belt 2 stops in between: the edge finds
belt 1 recorded as stopped, and it runs on after that with no stop queued. -/
theorem missed_edge_runs_on :
    ¬ ∀ k p, Reach WatchStart (watchStep k) (fun p i => KeepsParas p.1 i) p →
      Interlocked k p.1 → p.2.armed = true → p.1.runBit (k - 2) = true → Covered k p.2 p.1 := by
  intro h
  have hend : Along polled (PollAllowed fun p i => KeepsParas p.1 i)
      (boot linkedFlash 2, Watch.idle)
        [(1, true), (2, true), (1, false), (2, false), (1, true)] ∧
      Interlocked 2 (behindPolls [(1, true), (2, true), (1, false), (2, false), (1, true)]).1 ∧
      (behindPolls [(1, true), (2, true), (1, false), (2, false), (1, true)]).2.armed = true ∧
      (behindPolls [(1, true), (2, true), (1, false), (2, false), (1, true)]).1.runBit 0 = true ∧
      ¬ Covered 2 (behindPolls [(1, true), (2, true), (1, false), (2, false), (1, true)]).2
        (behindPolls [(1, true), (2, true), (1, false), (2, false), (1, true)]).1 := by
    decide +kernel
  obtain ⟨hallowed, hlock, harmed, hrun, hmissed⟩ := hend
  have hreach := reach_polled _ (fun q hq => keepsParas_resting hq) _ _
    (Reach.start ⟨⟨_, _, rfl⟩, rfl⟩) hallowed
  exact hmissed (h 2 _ hreach hlock harmed hrun)

end IotCtrl
