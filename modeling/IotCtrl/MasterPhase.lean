import IotCtrl.MasterSteps
import IotCtrl.BesideSteps

/-!
# The Modbus master as a timed automaton

`Phase` is what is left of the master when the frames and the answers are forgotten: the
milliseconds it still waits, and the attempts left after this one.  A tick counts down, a byte
restarts the quiet time, and a call of the main loop does what is due.

* `Station.phase` — the phase of a station;
* `reachable_alive` — the master never waits for a timer that does not run;
* `tick_phase`, `byte_phase`, `beside_phase`, `modbusComm_phase` — every step of a station is
  one of the automaton.
-/

namespace IotCtrl

open ByteMemory Transition ClosedFacts

/-- Where the master stands with the command in flight. -/
inductive Phase
  | idle
  /-- The command waits out its interval. -/
  | ready (interval retries : Nat)
  /-- It is to be sent. -/
  | due (retries : Nat)
  /-- Its answer is collected, until the line has been quiet for so long. -/
  | listening (left retries : Nat)
  /-- The answer is to be judged. -/
  | ended (retries : Nat)

/-- The phase of a station. -/
def Station.phase (s : Station) : Phase :=
  if s.logic.commBusyFlag = true then
    match s.modbus.uart1CommuState with
    | .sendReady => .ready s.logic.commNode.commInterval.toNat s.logic.commNode.commRetry.toNat
    | .sendData => .due s.logic.commNode.commRetry.toNat
    | .recvData => .listening s.modbus.uart1Tmr.toNat s.logic.commNode.commRetry.toNat
    | .recvDataEnd => .ended s.logic.commNode.commRetry.toNat
    | .sendingData => .idle
  else .idle

namespace Phase

/-- One millisecond. -/
def tick : Phase → Phase
  | .ready interval retries =>
      if interval ≤ 1 then .due retries else .ready (interval - 1) retries
  | .listening left retries =>
      if left ≤ 1 then .ended retries else .listening (left - 1) retries
  | p => p

/-- A received byte. -/
def byte : Phase → Phase
  | .listening _ retries => .listening 5 retries
  | p => p

/-- The main loop has something to do. -/
def Waits : Phase → Prop
  | .idle | .due _ | .ended _ => True
  | _ => False

/-- What a call of the main loop makes of a phase and of the commands in the queue, which may
grow when an answer is judged. -/
inductive Call : Phase → List CommNode → Phase → List CommNode → Prop
  | rest : Call .idle [] .idle []
  | take (x : CommNode) (queue : List CommNode) :
      Call .idle (x :: queue)
        (.ready (fixInterval x).commInterval.toNat x.commRetry.toNat) queue
  | send (retries : Nat) (queue : List CommNode) :
      Call (.due retries) queue (.listening 50 retries) queue
  | release (retries : Nat) {queue queue' : List CommNode} (h : queue <+: queue') :
      Call (.ended retries) queue .idle queue'
  | retry (retries : Nat) {queue queue' : List CommNode} (h : queue <+: queue') :
      Call (.ended (retries + 1)) queue (.ready 20 retries) queue'
  | wait {p : Phase} (h : ¬ p.Waits) (queue : List CommNode) : Call p queue p queue

end Phase

/-! ## Calls of the main loop -/

/-- A command taken from the queue has an interval to wait out. -/
theorem fixInterval_pos (x : CommNode) : 0 < (fixInterval x).commInterval := by
  unfold fixInterval
  split_ifs with hzero
  · show (0 : U16) < 15
    decide
  · bv_omega

/-- A judged command is released, or waits for its next attempt. -/
theorem commJudge_cases {s : Station} (hbusy : s.logic.commBusyFlag = true) :
    s.uartNodes <+: (commJudge s).uartNodes ∧
      (commJudge s).modbus.uart1Tmr = s.modbus.uart1Tmr ∧
      ((commJudge s).logic.commBusyFlag = false ∧
          (commJudge s).logic.commNode = s.logic.commNode ∧
          (commJudge s).modbus.uart1CommuState = s.modbus.uart1CommuState ∨
        (commJudge s).logic.commBusyFlag = true ∧ s.logic.commNode.commRetry > 0 ∧
          (commJudge s).logic.commNode = retryNode s.logic.commNode ∧
          (commJudge s).modbus.uart1CommuState = .sendReady) := by
  have hrecv := commRecvRwComand_quiet s.modbus.uart1RecvBuff s.modbus.uart1RecvCount hbusy
  have hsame := SameMaster.of_keeps hrecv.keeps
  obtain ⟨xs, hxs, -⟩ := hrecv.queue
  unfold commJudge
  dsimp only
  generalize commRecvRwComand s.modbus.uart1RecvBuff s.modbus.uart1RecvCount s = r at *
  have hkept : s.uartNodes <+: (setRecvCount 0 (commFinish r.1 r.2)).uartNodes := by
    rw [(setRecvCount_keeps _ _).uartNodes, (commFinish_keeps _ _).uartNodes]
    unfold Station.uartNodes
    rw [hxs]
    exact RingFifo.contents_prefix_addAll _ _
  refine ⟨hkept, ?_⟩
  rw [← hsame.node, ← hsame.state, ← hsame.tmr]
  have hstill : r.2.logic.commBusyFlag = true := hsame.busy.trans hbusy
  unfold commFinish
  split_ifs with haccept hleft
  · exact ⟨rfl, Or.inl ⟨rfl, rfl, rfl⟩⟩
  · exact ⟨rfl, Or.inr ⟨hstill, hleft, rfl, rfl⟩⟩
  · exact ⟨rfl, Or.inl ⟨rfl, rfl, rfl⟩⟩

/-- A transmission opens the receive window. -/
theorem commSendRwComand_listens {stack : Table 4 U16} {s t : Station} {frame : List U8}
    (h : commBuildFrame stack s = some (frame, t)) :
    (commSendRwComand stack s).modbus.uart1Tmr = 50 ∧
      (commSendRwComand stack s).modbus.uart1CommuState = .recvData := by
  have hkeeps := commSetSpeedSta_keeps (commBelt s) (speedWriteData stack s) (uart1Send frame t)
  obtain ⟨hstate, htmr⟩ := Prod.mk.inj (hkeeps.same .uartState (by decide))
  simp only [commSendRwComand, h]
  exact ⟨htmr, hstate⟩

/-! ## The timers run -/

/-- The timers of the master, and that it waits for none that stands still. -/
structure Alive (s : Station) : Prop where
  timers : TimerInv s
  range : RangeInv s
  alive : s.logic.commBusyFlag = true → CommAlive s

theorem SameMaster.commAlive {s t : Station} (h : SameMaster s t)
    (hs : s.logic.commBusyFlag = true → CommAlive s) :
    t.logic.commBusyFlag = true → CommAlive t := by
  intro hbusy
  have halive := hs (h.busy ▸ hbusy)
  unfold CommAlive at halive ⊢
  rw [h.node, h.state, h.tmr]
  exact halive

/-- What a call of the main loop does to the master. -/
theorem modbusComm_commAlive (stack : Table 4 U16) {s : Station} (hs : Alive s) :
    (modbusRtuCommProcess stack s).logic.commBusyFlag = true →
      CommAlive (modbusRtuCommProcess stack s) := by
  unfold modbusRtuCommProcess
  split_ifs with hidle hsend hend
  · intro hbusy
    rcases commTakeNode_cases s with ⟨-, hnone⟩ | ⟨x, -, hflight, hready⟩
    · rw [hnone, hidle] at hbusy
      cases hbusy
    · have hnode : (commTakeNode s).logic.commNode = fixInterval x := by
        unfold Station.inFlight at hflight
        rw [if_pos hbusy] at hflight
        exact Option.some.inj hflight
      refine Or.inr (Or.inr (Or.inl ⟨hready, ?_⟩))
      rw [hnode]
      exact fixInterval_pos x
  · intro _
    have hflight : s.inFlight = some s.logic.commNode := if_pos (by simpa using hidle)
    obtain ⟨⟨frame, built⟩, hbuild⟩ := Option.isSome_iff_exists.mp
      (@commBuildFrame_isSome stack s (hs.range.flight _ hflight).rwFlag)
    obtain ⟨htmr, hstate⟩ := commSendRwComand_listens hbuild
    refine Or.inr (Or.inr (Or.inr ⟨hstate, ?_⟩))
    rw [htmr]
    decide
  · intro hbusy
    obtain ⟨-, -, ⟨hfree, -⟩ | ⟨-, -, hnode, hstate⟩⟩ := commJudge_cases (by simpa using hidle)
    · rw [hfree] at hbusy
      cases hbusy
    · refine Or.inr (Or.inr (Or.inl ⟨hstate, ?_⟩))
      rw [hnode]
      show (0 : U16) < 20
      decide
  · exact hs.alive

theorem step_commAlive {s : Station} (hs : Alive s) (i : Input) :
    (step s i).logic.commBusyFlag = true → CommAlive (step s i) := by
  have hframe := (step_touches s i).keeps
  rcases step_cases s i with hstep | hstep
  · rw [hstep]
    exact hs.alive
  cases i with
  | modbusComm stack =>
      rw [hstep]
      exact modbusComm_commAlive stack hs
  | timeUpdate pins =>
      have hcount := SameMaster.of_keeps (timeCounters_keeps s)
      have hscan := SameMaster.of_keeps
        (inputScanProc_touches pins (uartRecvTimeout (timeCounters s))).keeps
      have hscanned : handle s (.timeUpdate pins) =
          inputScanProc pins (uartRecvTimeout (timeCounters s)) := rfl
      rw [hstep, hscanned]
      refine hscan.commAlive fun hbusy => uartRecvTimeout_alive ?_
      rw [uartRecvTimeout_busy] at hbusy
      exact hcount.commAlive hs.alive hbusy
  | usart1Irq tmp =>
      rw [hstep]
      intro hbusy
      have hlogic := (usart1IrqHandler_facts tmp s).2.1
      exact usart1IrqHandler_alive tmp (hs.alive (congrArg LogicVars.commBusyFlag hlogic ▸ hbusy))
  | canFrame _ | udpReceive _ _ | udpClient _ | sendMessage | secProcess _ | canSend _
  | resetStart | upstreamIo | uploadRunState | msoneProcess _ =>
      exact (SameMaster.of_keeps hframe).commAlive hs.alive

/-- **The master never waits for a timer that stands still.** -/
theorem reachable_alive {ok : Station → Input → Prop} {s : Station} (h : Reachable ok s) :
    Alive s := by
  induction h with
  | start h =>
      have hreach : Reachable ok _ := Reach.start h
      refine ⟨reachable_timerInv hreach, reachable_rangeInv hreach, ?_⟩
      obtain ⟨flash, localStation, rfl⟩ := h
      have hsame : SameMaster (Station.cleared flash localStation) (boot flash localStation) :=
        SameMaster.of_keeps (readUserParas_keeps _)
      exact hsame.commAlive nofun
  | next h hok ih =>
      have hreach := Reach.next h hok
      exact ⟨reachable_timerInv hreach, reachable_rangeInv hreach, step_commAlive ih _⟩

/-! ## Steps of a station as steps of the automaton -/

theorem phase_of_idle {s : Station} (h : s.logic.commBusyFlag = false) : s.phase = .idle := by
  unfold Station.phase
  rw [if_neg (by rw [h]; decide)]

theorem SameMaster.phase {s t : Station} (h : SameMaster s t) : t.phase = s.phase := by
  unfold Station.phase
  rw [h.busy, h.state, h.node, h.tmr]

/-- The tick of the timers. -/
theorem uartRecvTimeout_phase {s : Station} (hs : TimerInv s)
    (halive : s.logic.commBusyFlag = true → CommAlive s) :
    (uartRecvTimeout s).phase = s.phase.tick := by
  by_cases hbusy : s.logic.commBusyFlag = true
  · obtain ⟨-, interval, hnode⟩ := uartRecvTimeout_node s
    have hretry : (uartRecvTimeout s).logic.commNode.commRetry = s.logic.commNode.commRetry := by
      rw [hnode]
    unfold Station.phase
    rw [uartRecvTimeout_busy, if_pos hbusy, if_pos hbusy, uartRecvTimeout_state,
      uartRecvTimeout_tmr, uartRecvTimeout_interval, hretry]
    have hzero : s.modbus.uart1CommuState ≠ .sendReady → s.logic.commNode.commInterval = 0 :=
      fun hne => Classical.byContradiction fun hiv => hne (hs.interval hiv)
    have hclosed : s.modbus.uart1CommuState ≠ .recvData → s.modbus.uart1Tmr = 0 :=
      fun hne => Classical.byContradiction fun htmr => hne (hs.window htmr)
    have hstill : ¬ (0 : U16) = 1 := by decide
    rcases halive hbusy with hst | hst | ⟨hst, hpos⟩ | ⟨hst, hpos⟩
    · rw [hzero (by rw [hst]; decide), hclosed (by rw [hst]; decide), hst]
      rfl
    · rw [hzero (by rw [hst]; decide), hclosed (by rw [hst]; decide), hst]
      rfl
    · rw [hclosed (by rw [hst]; decide)]
      by_cases hone : s.logic.commNode.commInterval = 1
      · rw [hst, hone]
        rfl
      · have hne : s.logic.commNode.commInterval ≠ 0 := by bv_omega
        rw [if_neg hone, if_neg hstill, if_neg hne, hst]
        show Phase.ready (s.logic.commNode.commInterval - 1).toNat _ = ite _ _ _
        rw [if_neg (by bv_omega)]
        congr 1
        bv_omega
    · rw [hzero (by rw [hst]; decide)]
      by_cases hone : s.modbus.uart1Tmr = 1
      · rw [hst, hone]
        rfl
      · have hne : s.modbus.uart1Tmr ≠ 0 := by bv_omega
        rw [if_neg hstill, if_neg hone, if_neg hne, hst]
        show Phase.listening (s.modbus.uart1Tmr - 1).toNat _ = ite _ _ _
        rw [if_neg (by bv_omega)]
        congr 1
        bv_omega
  · have hidle : s.logic.commBusyFlag = false := by simpa using hbusy
    rw [phase_of_idle hidle, phase_of_idle ((uartRecvTimeout_busy s).trans hidle)]
    rfl

section Steps

variable {s : Station}

/-- **The tick.** -/
theorem tick_phase (hs : Alive s) (hrun : s.systemReset = false) (pins : Pins) :
    (step s (.timeUpdate pins)).phase = s.phase.tick := by
  have hstep : step s (.timeUpdate pins) =
      inputScanProc pins (uartRecvTimeout (timeCounters s)) :=
    if_neg (by rw [hrun]; decide)
  have hcount := SameMaster.of_keeps (timeCounters_keeps s)
  have hscan := SameMaster.of_keeps
    (inputScanProc_touches pins (uartRecvTimeout (timeCounters s))).keeps
  rw [hstep, hscan.phase, uartRecvTimeout_phase (hcount.timerInv hs.timers)
    (hcount.commAlive hs.alive), hcount.phase]

/-- **A received byte.** -/
theorem byte_phase (hrun : s.systemReset = false) (tmp : U8) :
    (step s (.usart1Irq tmp)).phase = s.phase.byte := by
  have hstep : step s (.usart1Irq tmp) = usart1IrqHandler tmp s := if_neg (by rw [hrun]; decide)
  obtain ⟨hstate, hlogic, htmr⟩ := usart1IrqHandler_facts tmp s
  rw [hstep]
  unfold Station.phase
  rw [hstate, hlogic, htmr]
  by_cases hbusy : s.logic.commBusyFlag = true
  · rw [if_pos hbusy, if_pos hbusy]
    cases s.modbus.uart1CommuState <;> rfl
  · rw [if_neg hbusy, if_neg hbusy]
    rfl

/-- **The other interrupts and calls** leave the phase alone. -/
theorem beside_phase {i : Input} (htick : ∀ pins, i ≠ .timeUpdate pins)
    (hbyte : ∀ tmp, i ≠ .usart1Irq tmp) (hcall : ∀ stack, i ≠ .modbusComm stack) :
    (step s i).phase = s.phase := by
  have hframe := (step_touches s i).keeps
  cases i with
  | timeUpdate pins => exact absurd rfl (htick pins)
  | usart1Irq tmp => exact absurd rfl (hbyte tmp)
  | modbusComm stack => exact absurd rfl (hcall stack)
  | canFrame _ | udpReceive _ _ | udpClient _ | sendMessage | secProcess _ | canSend _
  | resetStart | upstreamIo | uploadRunState | msoneProcess _ =>
      exact (SameMaster.of_keeps hframe).phase

/-- **A call of the main loop.** -/
theorem modbusComm_phase (hs : Alive s) (hrun : s.systemReset = false) (stack : Table 4 U16) :
    Phase.Call s.phase s.uartNodes (step s (.modbusComm stack)).phase
      (step s (.modbusComm stack)).uartNodes := by
  have hstep : step s (.modbusComm stack) = modbusRtuCommProcess stack s :=
    if_neg (by rw [hrun]; decide)
  rw [hstep]
  unfold modbusRtuCommProcess
  by_cases hidle : s.logic.commBusyFlag = false
  · rw [if_pos hidle, phase_of_idle hidle]
    rcases commTakeNode_cases s with ⟨hempty, hnone⟩ | ⟨x, hqueue, hflight, hready⟩
    · rw [hnone, phase_of_idle hidle, hempty]
      exact .rest
    · have hbusy : (commTakeNode s).logic.commBusyFlag = true := by
        unfold Station.inFlight at hflight
        split_ifs at hflight with hbusy
        exact hbusy
      have hnode : (commTakeNode s).logic.commNode = fixInterval x := by
        unfold Station.inFlight at hflight
        rw [if_pos hbusy] at hflight
        exact Option.some.inj hflight
      have hphase : (commTakeNode s).phase =
          .ready (fixInterval x).commInterval.toNat x.commRetry.toNat := by
        obtain ⟨interval, hfix⟩ := fixInterval_eq x
        unfold Station.phase
        rw [if_pos hbusy, hready, hnode, hfix]
      rw [hqueue, hphase]
      exact .take x _
  have hbusy : s.logic.commBusyFlag = true := by simpa using hidle
  have hflight : s.inFlight = some s.logic.commNode := if_pos hbusy
  rw [if_neg hidle]
  rcases hs.alive hbusy with hst | hst | ⟨hst, -⟩ | ⟨hst, -⟩
  · have hphase : s.phase = .due s.logic.commNode.commRetry.toNat := by
      unfold Station.phase
      rw [if_pos hbusy, hst]
    obtain ⟨⟨frame, built⟩, hbuild⟩ := Option.isSome_iff_exists.mp
      (@commBuildFrame_isSome stack s (hs.range.flight _ hflight).rwFlag)
    obtain ⟨htmr, hstate⟩ := commSendRwComand_listens hbuild
    have hkeeps := commSendRwComand_keeps stack s
    obtain ⟨hnode, hstill⟩ := Prod.mk.inj (hkeeps.same .node (by decide))
    have hsent : (commSendRwComand stack s).phase =
        .listening 50 s.logic.commNode.commRetry.toNat := by
      unfold Station.phase
      rw [hstill, if_pos hbusy, hstate, htmr, hnode]
      rfl
    rw [if_pos hst, hphase, hsent, hkeeps.uartNodes]
    exact .send _ _
  · have hphase : s.phase = .ended s.logic.commNode.commRetry.toNat := by
      unfold Station.phase
      rw [if_pos hbusy, hst]
    rw [if_neg (by rw [hst]; decide), if_pos hst, hphase]
    obtain ⟨hkept, -, ⟨hfree, -⟩ | ⟨hstill, hleft, hnode, hstate⟩⟩ := commJudge_cases hbusy
    · rw [phase_of_idle hfree]
      exact .release _ hkept
    · obtain ⟨n, hn⟩ : ∃ n, s.logic.commNode.commRetry.toNat = n + 1 :=
        ⟨s.logic.commNode.commRetry.toNat - 1, by bv_omega⟩
      have hnext : (retryNode s.logic.commNode).commRetry.toNat = n := by
        show (s.logic.commNode.commRetry - 1).toNat = n
        bv_omega
      have hretry : (commJudge s).phase = .ready 20 n := by
        unfold Station.phase
        rw [if_pos hstill, hstate, hnode, hnext]
        rfl
      rw [hretry, hn]
      exact .retry n hkept
  · have hphase : s.phase =
        .ready s.logic.commNode.commInterval.toNat s.logic.commNode.commRetry.toNat := by
      unfold Station.phase
      rw [if_pos hbusy, hst]
    rw [if_neg (by rw [hst]; decide), if_neg (by rw [hst]; decide), hphase]
    exact .wait id _
  · have hphase : s.phase =
        .listening s.modbus.uart1Tmr.toNat s.logic.commNode.commRetry.toNat := by
      unfold Station.phase
      rw [if_pos hbusy, hst]
    rw [if_neg (by rw [hst]; decide), if_neg (by rw [hst]; decide), hphase]
    exact .wait id _

end Steps

end IotCtrl
