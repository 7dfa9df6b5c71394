import IotCtrl.LineDelivery

/-!
# The loop of `main`

`Board` is the controller as `main.c` runs it: the calls of the loop body in the order of the
source, and the interrupts between any two of them.  The network is served on the host only,
and only once `Ethernet_Configuration` has succeeded.

`step` lets the calls come in any order, and serves the network on the host whatever became of
`Ethernet_Configuration`.

* `Board.step` — one call, or one interrupt;
* `loop_refines` — every run of the loop is a run of `step`, call by call.
-/

namespace IotCtrl

open Transition Deadline

/-- The next call of the loop body. -/
inductive LoopCall
  /-- The test of `EthInitStatus`, with `Ethernet_Configuration` or `LwIP_Periodic_Handle`. -/
  | ethernet
  | udpClient
  | sendMessage
  | secProcess
  | modbusComm
  | canSend
  | resetStart
  | upstreamIo
  | uploadRunState
  | msoneProcess
deriving DecidableEq

/-- The controller: the station, `EthInitStatus` and where the loop stands. -/
structure Board where
  station : Station
  ethInitStatus : Bool
  call : LoopCall

/-- What a call may read: the result of `Ethernet_Configuration`, the answers of the network
stack, the input pins, a free mailbox and unassigned locals. -/
structure CallEnv where
  ethInit : Bool
  udp : UdpEnv
  pins : Pins
  mailboxFree : Bool
  stack : Table 4 U16
  speedGear : U16

/-- An interrupt, or the next call of the loop. -/
inductive BoardInput
  | sysTick (pins : Pins)
  | usart1Irq (tmp : U8)
  | canRx0Irq (rxMsg : CanRxMsg)
  /-- A datagram for the client in `ETH_IRQHandler`. -/
  | ethIrq (p : Pbuf) (m : U16)
  | call (env : CallEnv)

namespace Board

/-- Where the loop stands after a call. -/
def nextCall (b : Board) : LoopCall :=
  match b.call with
  | .ethernet =>
      if b.station.isHost = true ∧ b.ethInitStatus = true then .udpClient else .secProcess
  | .udpClient => .sendMessage
  | .sendMessage => .secProcess
  | .secProcess => .modbusComm
  | .modbusComm => .canSend
  | .canSend => .resetStart
  | .resetStart => .upstreamIo
  | .upstreamIo => .uploadRunState
  | .uploadRunState => .msoneProcess
  | .msoneProcess => .ethernet

/-- The work of one call. -/
def handleCall (env : CallEnv) (b : Board) : Station :=
  match b.call with
  | .ethernet => b.station
  | .udpClient => udpClientProcess env.udp b.station
  | .sendMessage => sendMessageToServer b.station
  | .secProcess => secProcess env.pins b.station
  | .modbusComm => modbusRtuCommProcess env.stack b.station
  | .canSend => (canSendFrameProcess env.mailboxFree b.station).1
  | .resetStart => resetStartInverterHandle b.station
  | .upstreamIo => logicUpstreamIoAllowOutput b.station
  | .uploadRunState => mainUploadRunState b.station
  | .msoneProcess => mainMsoneProcess env.speedGear b.station

/-- `EthInitStatus` after a call. -/
def nextEthInit (env : CallEnv) (b : Board) : Bool :=
  if b.call = .ethernet ∧ b.station.isHost = true ∧ b.ethInitStatus = false then env.ethInit
  else b.ethInitStatus

/-- One call, or one interrupt between two calls.  A reset ends all of them. -/
def step (b : Board) (i : BoardInput) : Board :=
  if b.station.systemReset then b
  else
    match i with
    | .sysTick pins => { b with station := timeUpdate pins b.station }
    | .usart1Irq tmp => { b with station := usart1IrqHandler tmp b.station }
    | .canRx0Irq rxMsg => { b with station := canBusFrameReceive rxMsg b.station }
    | .ethIrq p m =>
        if b.ethInitStatus then { b with station := udpReceiveCallback p m b.station } else b
    | .call env =>
        { station := b.handleCall env
          ethInitStatus := b.nextEthInit env
          call := b.nextCall }

/-- A board whose station has booted and whose network was not set up yet. -/
def Booted (b : Board) : Prop :=
  IotCtrl.Booted b.station ∧ b.ethInitStatus = false ∧ b.call = .ethernet

/-- What a step of the loop is to `step`: one input, or none. -/
def inputs (b : Board) : BoardInput → List Input
  | .sysTick pins => [.timeUpdate pins]
  | .usart1Irq tmp => [.usart1Irq tmp]
  | .canRx0Irq rxMsg => [.canFrame rxMsg]
  | .ethIrq p m => if b.ethInitStatus then [.udpReceive p m] else []
  | .call env =>
      match b.call with
      | .ethernet => []
      | .udpClient => [.udpClient env.udp]
      | .sendMessage => [.sendMessage]
      | .secProcess => [.secProcess env.pins]
      | .modbusComm => [.modbusComm env.stack]
      | .canSend => [.canSend env.mailboxFree]
      | .resetStart => [.resetStart]
      | .upstreamIo => [.upstreamIo]
      | .uploadRunState => [.uploadRunState]
      | .msoneProcess => [.msoneProcess env.speedGear]

/-! ## The network belongs to the host -/

/-- The network is set up, and its calls are made, on the host only. -/
structure HostNetwork (b : Board) : Prop where
  init : b.ethInitStatus = true → b.station.isHost = true
  client : b.call = .udpClient → b.station.isHost = true
  server : b.call = .sendMessage → b.station.isHost = true

theorem booted_hostNetwork {b : Board} (h : b.Booted) : HostNetwork b := by
  obtain ⟨-, hinit, hcall⟩ := h
  refine ⟨fun h => ?_, fun h => ?_, fun h => ?_⟩
  · rw [hinit] at h
    cases h
  · rw [hcall] at h
    cases h
  · rw [hcall] at h
    cases h

/-- A run of inputs keeps the station number. -/
theorem run_isHost (s : Station) (is : List Input) : (run IotCtrl.step s is).isHost = s.isHost := by
  induction is generalizing s with
  | nil => rfl
  | cons i is ih => exact (ih _).trans (step_touches s i).keeps.isHost

/-- **One step of the loop is a run of `step`.** -/
theorem step_station {b : Board} (h : HostNetwork b) (i : BoardInput) :
    (b.step i).station = run IotCtrl.step b.station (b.inputs i) := by
  have hstay : ∀ is, b.station.systemReset = true → run IotCtrl.step b.station is = b.station := by
    intro is hreset
    induction is with
    | nil => rfl
    | cons i is ih =>
        have hsame : IotCtrl.step b.station i = b.station := if_pos hreset
        rw [run_cons, hsame, ih]
  by_cases hreset : b.station.systemReset = true
  · rw [hstay _ hreset]
    exact congrArg station (if_pos hreset)
  have hone : ∀ j, run IotCtrl.step b.station [j] = handle b.station j := fun _ => if_neg hreset
  unfold step
  rw [if_neg hreset]
  cases i with
  | sysTick pins =>
      unfold inputs
      dsimp only
      rw [hone]
      rfl
  | usart1Irq tmp => exact (hone (.usart1Irq tmp)).symm
  | canRx0Irq rxMsg =>
      unfold inputs
      dsimp only
      rw [hone]
      rfl
  | ethIrq p m =>
      unfold inputs
      dsimp only
      by_cases hinit : b.ethInitStatus = true
      · rw [if_pos hinit, if_pos hinit, hone]
        exact (if_pos (h.init hinit)).symm
      · rw [if_neg hinit, if_neg hinit]
        rfl
  | call env =>
      unfold inputs handleCall
      dsimp only
      cases hcall : b.call with
      | ethernet => rfl
      | udpClient =>
          dsimp only
          rw [hone]
          exact (if_pos (h.client hcall)).symm
      | sendMessage =>
          dsimp only
          rw [hone]
          exact (if_pos (h.server hcall)).symm
      | secProcess => exact (hone (.secProcess env.pins)).symm
      | modbusComm => exact (hone (.modbusComm env.stack)).symm
      | canSend => exact (hone (.canSend env.mailboxFree)).symm
      | resetStart => exact (hone .resetStart).symm
      | upstreamIo => exact (hone .upstreamIo).symm
      | uploadRunState => exact (hone .uploadRunState).symm
      | msoneProcess => exact (hone (.msoneProcess env.speedGear)).symm

/-- Only a call moves the loop on. -/
theorem step_flow (b : Board) (i : BoardInput) :
    ((b.step i).ethInitStatus = b.ethInitStatus ∧ (b.step i).call = b.call) ∨
      ∃ env, i = .call env ∧ (b.step i).ethInitStatus = b.nextEthInit env ∧
        (b.step i).call = b.nextCall := by
  unfold step
  by_cases hreset : b.station.systemReset = true
  · rw [if_pos hreset]
    exact Or.inl ⟨rfl, rfl⟩
  rw [if_neg hreset]
  cases i with
  | sysTick _ | usart1Irq _ | canRx0Irq _ => exact Or.inl ⟨rfl, rfl⟩
  | ethIrq p m =>
      dsimp only
      split_ifs <;> exact Or.inl ⟨rfl, rfl⟩
  | call env => exact Or.inr ⟨env, rfl, rfl, rfl⟩

theorem step_hostNetwork {b : Board} (h : HostNetwork b) (i : BoardInput) :
    HostNetwork (b.step i) := by
  have hhost : (b.step i).station.isHost = b.station.isHost := by rw [step_station h, run_isHost]
  rcases step_flow b i with ⟨hinit, hcall⟩ | ⟨env, -, hinit, hcall⟩
  · constructor
    · rw [hinit, hhost]
      exact h.init
    · rw [hcall, hhost]
      exact h.client
    · rw [hcall, hhost]
      exact h.server
  · constructor
    · rw [hinit, hhost]
      unfold nextEthInit
      split_ifs with hconfig
      · exact fun _ => hconfig.2.1
      · exact h.init
    · rw [hcall, hhost]
      unfold nextCall
      cases hc : b.call with
      | ethernet =>
          dsimp only
          split_ifs with hserve
          · exact fun _ => hserve.1
          · exact nofun
      | _ => exact nofun
    · rw [hcall, hhost]
      unfold nextCall
      cases hc : b.call with
      | ethernet =>
          dsimp only
          split_ifs <;> exact nofun
      | udpClient => exact fun _ => h.client hc
      | _ => exact nofun

/-! ## Runs -/

/-- The inputs of a run of the loop. -/
def runInputs : Board → List BoardInput → List Input
  | _, [] => []
  | b, i :: is => b.inputs i ++ runInputs (b.step i) is

/-- `ok` allows what the loop makes of this input. -/
def Allowed (ok : Station → Input → Prop) (b : Board) (i : BoardInput) : Prop :=
  Along IotCtrl.step ok b.station (b.inputs i)

/-- A run of the loop is a run of `step` on its inputs. -/
theorem run_station {b : Board} (h : HostNetwork b) {ok : Station → Input → Prop}
    {is : List BoardInput} (hok : Along step (Allowed ok) b is) :
    (run step b is).station = run IotCtrl.step b.station (b.runInputs is) ∧
      Along IotCtrl.step ok b.station (b.runInputs is) := by
  induction is generalizing b with
  | nil => exact ⟨rfl, trivial⟩
  | cons i is ih =>
      have hone := step_station h i
      obtain ⟨hrun, halong⟩ := ih (step_hostNetwork h i) hok.2
      rw [hone] at hrun halong
      unfold runInputs
      refine ⟨?_, hok.1.append halong⟩
      rw [run_cons, hrun, run_append]

end Board

/-- **The loop refines the step system.**  Every run of the loop of `main`, with any interrupts
between its calls, takes its station through a run of `step` on one input for each call and
interrupt, or none; so what holds of the runs whose steps `ok` allows holds of the loop whenever
`ok` allows its steps. -/
theorem loop_refines {b : Board} (h : b.Booted) {ok : Station → Input → Prop}
    {is : List BoardInput} (hok : Along Board.step (Board.Allowed ok) b is) :
    (run Board.step b is).station = run step b.station (b.runInputs is) ∧
      Along step ok b.station (b.runInputs is) ∧ Reachable ok (run Board.step b is).station := by
  obtain ⟨hrun, halong⟩ := Board.run_station (Board.booted_hostNetwork h) hok
  refine ⟨hrun, halong, ?_⟩
  rw [hrun]
  exact reach_run h.1 halong

/-- What the calls of an undisturbed pass read. -/
def idleEnv : CallEnv :=
  { ethInit := false
    udp :=
      { pcbCreated := false
        connected := false
        pbufAllocated := false }
    pins := noInput
    mailboxFree := true
    stack := fun _ => 0
    speedGear := 0 }

/-- Slave 2 at the start of its loop. -/
def slaveBoard : Board :=
  { station := boot oneBeltFlash 2
    ethInitStatus := false
    call := .ethernet }

/-- Slave 2 hears the start command between its first two calls and takes it in the third. -/
theorem loop_refines_slaveBoard :
    Reachable (fun _ _ => True) (run Board.step slaveBoard
      [.call idleEnv, .canRx0Irq (startFrame 2), .call idleEnv, .call idleEnv]).station :=
  (loop_refines (b := slaveBoard) ⟨⟨_, _, rfl⟩, rfl, rfl⟩
    (Along.of_forall (fun _ _ => Along.of_forall (fun _ _ => trivial) _ _) _ _)).2.2

end IotCtrl
