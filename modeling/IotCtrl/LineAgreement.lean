import IotCtrl.LineRelays

/-!
# Line commands across the stations

The host broadcasts the line commands of its buttons and of the server as `START_CMD`
frames, so that the gears of the slaves follow its own.  A `Network` is a host, any family
of slaves and the bus between them; a frame that leaves a queue reaches every other
station.

* `Speaks` — the gear follows what was heard and said, also when the emergency input stops a line
  at standstill;
* `NetInv` — the frames that wait take every slave to the gear of the host;
* `gears_agree` — in every run in which the emergency input of the host stops the line only
  at standstill, the gears agree whenever the host's queue is drained;
* `emergency_stop_unheard` — the emergency stop is not broadcast.
-/

namespace IotCtrl

open ByteMemory Transition ClosedFacts

/-! ## Gears -/

/-- Some frames were queued, and the gear follows them. -/
def Speaks (heard : List CanFrameExt) (s t : Station) : Prop := ∃ fs, Utters heard fs s t

/-- What is relayed is said. -/
theorem Relays.speaks {heard : List CanFrameExt} {s t : Station} (h : Relays heard s t) :
    Speaks heard s t := by
  obtain ⟨fs, h⟩ := h
  exact ⟨fs, h.toUtters⟩

namespace Speaks

variable {heard : List CanFrameExt} {s t u : Station}

theorem trans (h : Speaks heard s t) (h' : Speaks [] t u) : Speaks heard s u := by
  obtain ⟨fs, h⟩ := h
  obtain ⟨fs', h'⟩ := h'
  refine ⟨fs ++ fs', h.toEnqueues.trans h'.toEnqueues, ?_⟩
  rw [h'.gear, h.gear, List.nil_append, ← List.append_assoc, gearAfter_append _ (heard ++ fs)]

/-- `trans` with the later half first, which fixes the state in between. -/
theorem after (h' : Speaks [] t u) (h : Speaks heard s t) : Speaks heard s u := h.trans h'

end Speaks

/-- The emergency input stops the line: an edge is confirmed, or the input is active and
its two seconds are over. -/
def EmergencyStops (pins : Pins) (s : Station) : Prop :=
  let r := confirmInput (fun _ => 50) pins.bEmergencyIn (countTrig s.logic.bEmergencyInfo)
  r.1 = true ∨ 2000 < r.2.trigCnt ∧ r.2.inputState = true

instance (pins : Pins) (s : Station) : Decidable (EmergencyStops pins s) :=
  inferInstanceAs (Decidable (_ ∨ _))

/-- At standstill it says nothing that matters, and the line stays at standstill. -/
def StaysStill (s t : Station) : Prop :=
  s.logic.gSpeedGearStatus = 0 → Speaks [] s t ∧ t.logic.gSpeedGearStatus = 0

theorem StaysStill.after {s t u : Station} (h' : StaysStill t u) (h : StaysStill s t) :
    StaysStill s u := by
  intro hstill
  obtain ⟨hspeaks, hmid⟩ := h hstill
  obtain ⟨hspeaks', hend⟩ := h' hmid
  exact ⟨hspeaks.trans hspeaks', hend⟩

/-- An emergency stop leaves gear 0, whatever was in force. -/
theorem emergencyStop_staysStill (s : Station) :
    StaysStill s (speedCtrlProcess EMERGENCY_STOP s) := by
  intro hstill
  have hspeed := speedCtrlProcess_keeps EMERGENCY_STOP s
  have hgear : (speedCtrlProcess EMERGENCY_STOP s).logic.gSpeedGearStatus = 0 :=
    speedCtrlProcess_gear EMERGENCY_STOP s
  refine ⟨⟨[], .nothing (hspeed.same .canQueue (by decide)) hspeed.localStation, ?_⟩, hgear⟩
  rw [hgear]
  exact hstill.symm

/-- An emergency stop at standstill changes no gear. -/
theorem scanEmergency_speaks {pins : Pins} {s : Station}
    (hstill : EmergencyStops pins s → s.logic.gSpeedGearStatus = 0) :
    Speaks [] s (scanEmergency pins s) := by
  have hset : ∀ b t, Speaks [] t (setEmergencyInfo b t) :=
    fun b t => (Relays.of_keeps (setEmergencyInfo_keeps b t)).speaks
  have hsetStill : ∀ b t, StaysStill t (setEmergencyInfo b t) := fun b t h => ⟨hset b t, h⟩
  have hstop : ∀ t, StaysStill t (speedCtrlProcess EMERGENCY_STOP t) := emergencyStop_staysStill
  unfold EmergencyStops at hstill
  unfold scanEmergency
  dsimp only at hstill ⊢
  split_ifs with hagain hactive hconfirmed hconfirmed hconfirmed
  · have hs := hstill (Or.inl hconfirmed)
    exact (((hstop _).after ((hsetStill _ _).after ((hstop _).after (hsetStill _ s)))) hs).1
  · have hs := hstill (Or.inr ⟨hagain, hactive⟩)
    exact (((hstop _).after ((hsetStill _ _).after (hsetStill _ s))) hs).1
  · have hs := hstill (Or.inl hconfirmed)
    exact (((hsetStill _ _).after ((hstop _).after (hsetStill _ s))) hs).1
  · exact (hset _ _).after (hset _ s)
  · have hs := hstill (Or.inl hconfirmed)
    exact (((hstop _).after (hsetStill _ s)) hs).1
  · exact hset _ s

/-- The emergency input of the tick finds the line at standstill, behind the buttons. -/
def StopsAtStandstill (pins : Pins) (s : Station) : Prop :=
  let t := inputScanCommands pins (uartRecvTimeout (timeCounters s))
  EmergencyStops pins t → t.logic.gSpeedGearStatus = 0

instance (pins : Pins) (s : Station) : Decidable (StopsAtStandstill pins s) :=
  inferInstanceAs (Decidable (_ → _))

/-- The emergency input is not active in a tick. -/
def Input.EmergencyReleased : Input → Prop
  | .timeUpdate pins => pins.bEmergencyIn = false
  | _ => True

instance : DecidablePred Input.EmergencyReleased
  | .timeUpdate pins => inferInstanceAs (Decidable (pins.bEmergencyIn = false))
  | .usart1Irq _ | .canFrame _ | .udpReceive _ _ | .udpClient _ | .sendMessage | .secProcess _
  | .modbusComm _ | .canSend _ | .resetStart | .upstreamIo | .uploadRunState | .msoneProcess _ =>
      isTrue trivial

/-- The emergency input of a tick finds the line at standstill. -/
def StopsStill (s : Station) : Input → Prop
  | .timeUpdate pins => StopsAtStandstill pins s
  | _ => True

instance (s : Station) : DecidablePred (StopsStill s)
  | .timeUpdate pins => inferInstanceAs (Decidable (StopsAtStandstill pins s))
  | .usart1Irq _ | .canFrame _ | .udpReceive _ _ | .udpClient _ | .sendMessage | .secProcess _
  | .modbusComm _ | .canSend _ | .resetStart | .upstreamIo | .uploadRunState | .msoneProcess _ =>
      isTrue trivial

/-- Everything a station does on its own, with the emergency input at standstill. -/
theorem step_speaks {s : Station} {i : Input} (hown : i.Own) (hstill : StopsStill s i) :
    Speaks [] s (step s i) := by
  rcases step_relays hown with hrelays | ⟨pins, rfl, hrelays, hstep⟩
  · exact hrelays.speaks
  · rw [hstep]
    exact (scanEmergency_speaks hstill).after hrelays.speaks

/-! ## The network -/

/-- An input of a station that does not come from the bus or go to it. -/
abbrev OwnInput := { i : Input // i.Own }

/-- A host and its slaves. -/
structure Network (ι : Type) where
  host : Station
  slave : ι → Station

inductive NetInput (ι : Type)
  | host (i : OwnInput)
  | slave (k : ι) (i : OwnInput)
  /-- The host calls `can_send_frame_process`; the frame taken reaches every slave. -/
  | hostSends (mailboxFree : Bool)
  /-- A slave does, and the frame reaches the host and every other slave. -/
  | slaveSends (k : ι) (mailboxFree : Bool)

/-- The frame that a station puts on the bus. -/
def sentFrame (mailboxFree : Bool) (s : Station) : Option CanRxMsg :=
  if s.systemReset then none else (canSendFrameProcess mailboxFree s).2

/-- A frame comes in. -/
def hear (m : Option CanRxMsg) (s : Station) : Station :=
  match m with
  | none => s
  | some m => step s (.canFrame m)

/-- Either nothing goes out, or the oldest frame does. -/
theorem sentFrame_cases (mailboxFree : Bool) (s : Station) :
    (sentFrame mailboxFree s = none ∧ step s (.canSend mailboxFree) = s) ∨
      ∃ f, sentFrame mailboxFree s = some (canBusSendOneFrame f) ∧
        s.canFrames = f :: (step s (.canSend mailboxFree)).canFrames ∧
        Keeps [.canQueue] s (step s (.canSend mailboxFree)) := by
  unfold sentFrame step
  split_ifs with hreset
  · exact Or.inl ⟨rfl, rfl⟩
  · show _ ∨ _
    rcases canSendFrameProcess_cases mailboxFree s with hnone | ⟨f, t, hsome, hqueue, hk⟩
    · refine Or.inl ⟨by rw [hnone], ?_⟩
      show (canSendFrameProcess mailboxFree s).1 = s
      rw [hnone]
    · refine Or.inr ⟨f, by rw [hsome], ?_⟩
      show s.canFrames = f :: (canSendFrameProcess mailboxFree s).1.canFrames ∧
        Keeps [.canQueue] s (canSendFrameProcess mailboxFree s).1
      rw [hsome]
      exact ⟨hqueue, hk⟩

namespace Network

variable {ι : Type} [DecidableEq ι]

def step (net : Network ι) : NetInput ι → Network ι
  | .host i => { net with host := IotCtrl.step net.host i }
  | .slave k i =>
      { net with slave := Function.update net.slave k (IotCtrl.step (net.slave k) i) }
  | .hostSends mailboxFree =>
      { host := IotCtrl.step net.host (.canSend mailboxFree)
        slave := fun j => hear (sentFrame mailboxFree net.host) (net.slave j) }
  | .slaveSends k mailboxFree =>
      let frame := sentFrame mailboxFree (net.slave k)
      { host := hear frame net.host
        slave := fun j =>
          if j = k then IotCtrl.step (net.slave k) (.canSend mailboxFree)
          else hear frame (net.slave j) }

/-- A slave that does something. -/
theorem step_slave_self (net : Network ι) (k : ι) (i : OwnInput) :
    (net.step (.slave k i)).slave k = IotCtrl.step (net.slave k) i :=
  Function.update_self _ _ _

/-- The others do nothing. -/
theorem step_slave_of_ne (net : Network ι) {j k : ι} (hj : j ≠ k) (i : OwnInput) :
    (net.step (.slave k i)).slave j = net.slave j :=
  Function.update_of_ne hj _ _

theorem step_slaveSends_self (net : Network ι) (k : ι) (mailboxFree : Bool) :
    (net.step (.slaveSends k mailboxFree)).slave k =
      IotCtrl.step (net.slave k) (.canSend mailboxFree) :=
  if_pos rfl

theorem step_slaveSends_of_ne (net : Network ι) {j k : ι} (hj : j ≠ k) (mailboxFree : Bool) :
    (net.step (.slaveSends k mailboxFree)).slave j =
      hear (sentFrame mailboxFree (net.slave k)) (net.slave j) :=
  if_neg hj

theorem step_slaveSends_host (net : Network ι) (k : ι) (mailboxFree : Bool) :
    (net.step (.slaveSends k mailboxFree)).host =
      hear (sentFrame mailboxFree (net.slave k)) net.host := rfl

/-- The host puts the frame on the bus. -/
structure HostSent (f : CanFrameExt) (net net' : Network ι) : Prop where
  queue : net.host.canFrames = f :: net'.host.canFrames
  keeps : Keeps [.canQueue] net.host net'.host
  slave : ∀ k, net'.slave k = IotCtrl.step (net.slave k) (.canFrame (canBusSendOneFrame f))

/-- Slave `k` does. -/
structure SlaveSent (k : ι) (f : CanFrameExt) (net net' : Network ι) : Prop where
  queue : (net.slave k).canFrames = f :: (net'.slave k).canFrames
  keeps : Keeps [.canQueue] (net.slave k) (net'.slave k)
  host : net'.host = IotCtrl.step net.host (.canFrame (canBusSendOneFrame f))
  slave : ∀ j, j ≠ k →
    net'.slave j = IotCtrl.step (net.slave j) (.canFrame (canBusSendOneFrame f))

/-- The host sends the oldest frame, or nothing happens. -/
theorem hostSends_cases (net : Network ι) (mailboxFree : Bool) :
    (sentFrame mailboxFree net.host = none ∧ net.step (.hostSends mailboxFree) = net) ∨
      ∃ f, HostSent f net (net.step (.hostSends mailboxFree)) := by
  have hslave : ∀ k, (net.step (.hostSends mailboxFree)).slave k =
      hear (sentFrame mailboxFree net.host) (net.slave k) := fun _ => rfl
  rcases sentFrame_cases mailboxFree net.host with ⟨hnone, hstep⟩ | ⟨f, hsome, hqueue, hk⟩
  · refine Or.inl ⟨hnone, congrArg₂ Network.mk hstep (funext fun k => ?_)⟩
    show (net.step (.hostSends mailboxFree)).slave k = net.slave k
    rw [hslave, hnone]
    rfl
  · refine Or.inr ⟨f, hqueue, hk, fun k => ?_⟩
    rw [hslave, hsome]
    rfl

/-- The same for a slave. -/
theorem slaveSends_cases (net : Network ι) (k : ι) (mailboxFree : Bool) :
    (sentFrame mailboxFree (net.slave k) = none ∧
        net.step (.slaveSends k mailboxFree) = net) ∨
      ∃ f, SlaveSent k f net (net.step (.slaveSends k mailboxFree)) := by
  rcases sentFrame_cases mailboxFree (net.slave k) with ⟨hnone, hstep⟩ | ⟨f, hsome, hqueue, hk⟩
  · have hhost : (net.step (.slaveSends k mailboxFree)).host = net.host := by
      rw [step_slaveSends_host, hnone]
      rfl
    refine Or.inl ⟨hnone, congrArg₂ Network.mk hhost (funext fun j => ?_)⟩
    show (net.step (.slaveSends k mailboxFree)).slave j = net.slave j
    by_cases hj : j = k
    · rw [hj, step_slaveSends_self, hstep]
    · rw [step_slaveSends_of_ne net hj, hnone]
      rfl
  · refine Or.inr ⟨f, ?_, ?_, ?_, fun j hj => ?_⟩
    · rw [step_slaveSends_self]
      exact hqueue
    · rw [step_slaveSends_self]
      exact hk
    · rw [step_slaveSends_host, hsome]
      rfl
    · rw [step_slaveSends_of_ne net hj, hsome]
      rfl

/-- Booted stations, of which one is the host. -/
def Initial (net : Network ι) : Prop :=
  (Booted net.host ∧ net.host.isHost = true) ∧
    ∀ k, Booted (net.slave k) ∧ (net.slave k).isHost = false

/-- The send queue of the host is not full behind the step, and no emergency input of a
slave is active. -/
def Calm (net : Network ι) (x : NetInput ι) : Prop :=
  ¬ (net.step x).host.can.canSendQueue.IsFull ∧
    match x with
    | .slave _ i => i.val.EmergencyReleased
    | _ => True

instance (net : Network ι) : DecidablePred net.Calm
  | .slave _ i => inferInstanceAs (Decidable (_ ∧ i.val.EmergencyReleased))
  | .host _ | .hostSends _ | .slaveSends _ _ => inferInstanceAs (Decidable (_ ∧ True))

/-- The emergency input of the host finds the line at standstill. -/
def HostStopsStill (net : Network ι) : NetInput ι → Prop
  | .host i => StopsStill net.host i
  | _ => True

instance (net : Network ι) : DecidablePred net.HostStopsStill
  | .host i => inferInstanceAs (Decidable (StopsStill net.host i))
  | .slave _ _ | .hostSends _ | .slaveSends _ _ => isTrue trivial

end Network

/-! ## Slaves -/

theorem ButtonInfo.Released.ticked {b : ButtonInfo} (h : b.Released) (limit : U16) :
    (tickButton limit b).Released := by
  unfold tickButton
  split_ifs <;> exact h

/-- An input that is not active stops nothing, if it was at rest. -/
theorem not_emergencyStops {pins : Pins} {s : Station} (hpin : pins.bEmergencyIn = false)
    (h : s.logic.bEmergencyInfo.Released) : ¬ EmergencyStops pins s := by
  unfold EmergencyStops
  rw [hpin, h.counted.confirms]
  rintro (hconfirmed | ⟨-, hactive⟩)
  · exact Bool.false_ne_true hconfirmed
  · exact h.not_active hactive

/-- The other inputs leave the emergency input alone. -/
theorem scanned_emergency (pins : Pins) (s : Station) :
    (inputScanCommands pins (uartRecvTimeout (timeCounters s))).logic.bEmergencyInfo =
      s.logic.bEmergencyInfo := by
  have hcount : (timeCounters s).logic.bEmergencyInfo = s.logic.bEmergencyInfo :=
    (timeCounters_keeps s).same .emergency (by decide)
  generalize timeCounters s = t at hcount ⊢
  have htimeout : (uartRecvTimeout t).logic.bEmergencyInfo = t.logic.bEmergencyInfo :=
    (uartRecvTimeout_keeps t).same .emergency (by decide)
  generalize uartRecvTimeout t = u at htimeout ⊢
  have hscan : (inputScanCommands pins u).logic.bEmergencyInfo = u.logic.bEmergencyInfo :=
    (inputScanCommands_touches pins u).keeps.same .emergency (by decide)
  rw [hscan, htimeout, hcount]

/-- A frame as the stations send them resets nobody. -/
theorem step_canFrame_reset {f : CanFrameExt} (hf : f.Plain) (s : Station) :
    (step s (.canFrame (canBusSendOneFrame f))).systemReset = s.systemReset := by
  have hid := canDecodeId_canBusSendOneFrame f
  rw [funcId_and_of_lt hf.funcId_lt] at hid
  rcases step_cases s (.canFrame (canBusSendOneFrame f)) with hstep | hstep
  · rw [hstep]
  rw [hstep]
  show (canBusFrameReceive (canBusSendOneFrame f) s).systemReset = s.systemReset
  unfold canBusFrameReceive
  rw [hid]
  dsimp only
  rw [if_neg fun h => hf.boot h.1]
  split_ifs
  · exact (canDispatch_touches _ _ _).keeps.same .systemReset (by decide)
  · rfl

/-- What a slave keeps: it runs, and no line command waits in its queue. -/
structure Listener (s : Station) : Prop where
  running : s.systemReset = false
  slave : s.isHost = false
  silent : ∀ f ∈ s.canFrames, f.Plain ∧ f.lineGear = none

namespace Listener

variable {s t : Station}

/-- A booted slave runs, with an empty queue. -/
theorem of_booted (hboot : Booted s) (hslave : s.isHost = false) : Listener s := by
  obtain ⟨flash, localStation, rfl⟩ := hboot
  refine ⟨boot_systemReset flash localStation, hslave, fun f hf => ?_⟩
  rw [boot_canFrames] at hf
  cases hf

/-- What a slave says commands nothing. -/
theorem of_enqueues {fs : List CanFrameExt} (h : Listener s) (hqueues : Enqueues fs s t)
    (hrunning : t.systemReset = false) : Listener t := by
  refine ⟨hrunning, hqueues.isHost_eq.trans h.slave, fun f hf => ?_⟩
  unfold Station.canFrames at hf
  rw [hqueues.queue, RingFifo.contents_addAll] at hf
  rcases List.mem_append.mp hf with hf | hf
  · exact h.silent f hf
  · have hmem := List.mem_of_mem_take hf
    exact ⟨hqueues.plain f hmem, hqueues.slave h.slave f hmem⟩

/-- No tick, message or answer resets a slave; a boot datagram reaches the host only. -/
theorem step_running (h : Listener s) {i : Input} (hown : i.Own) :
    (step s i).systemReset = false := by
  have hframe := (step_touches s i).keeps
  have hother : .systemReset ∉ i.parts → (step s i).systemReset = false :=
    fun hp => (show (step s i).systemReset = s.systemReset from
      hframe.same .systemReset hp).trans h.running
  cases i with
  | canFrame _ => exact absurd hown id
  | udpClient env =>
      have hstep : step s (.udpClient env) = s := by
        rcases step_cases s (.udpClient env) with hstep | hstep
        · exact hstep
        · exact hstep.trans (if_neg (by rw [h.slave]; exact Bool.false_ne_true))
      rw [hstep]
      exact h.running
  | timeUpdate _ | usart1Irq _ | udpReceive _ _ | sendMessage | secProcess _ | modbusComm _
  | canSend _ | resetStart | upstreamIo | uploadRunState | msoneProcess _ =>
      refine hother ?_
      simp [Input.parts, tickParts, scanParts]

/-- A slave that has put a frame on the bus. -/
theorem sent {f : CanFrameExt} (h : Listener s) (hqueue : s.canFrames = f :: t.canFrames)
    (hk : Keeps [.canQueue] s t) : Listener t := by
  have hreset : t.systemReset = s.systemReset := hk.same .systemReset (by decide)
  refine ⟨hreset.trans h.running, hk.isHost.trans h.slave, fun x hx => h.silent x ?_⟩
  rw [hqueue]
  exact List.mem_cons_of_mem _ hx

end Listener

/-- With its emergency input at rest. -/
structure SlaveInv (s : Station) : Prop extends Listener s where
  emergency : s.logic.bEmergencyInfo.Released

namespace SlaveInv

variable {s t : Station}

/-- A slave follows what it hears. -/
theorem of_utters {heard fs : List CanFrameExt} (h : SlaveInv s) (hutters : Utters heard fs s t)
    (hrunning : t.systemReset = false) (hem : t.logic.bEmergencyInfo.Released) :
    SlaveInv t ∧ t.logic.gSpeedGearStatus = gearAfter s.logic.gSpeedGearStatus heard := by
  refine ⟨⟨h.toListener.of_enqueues hutters.toEnqueues hrunning, hem⟩, ?_⟩
  rw [hutters.gear, gearAfter_append, gearAfter_of_silent _ (hutters.slave h.slave)]

/-- The emergency input of a slave, as long as it is not active. -/
theorem step_emergency (h : SlaveInv s) {i : Input} (hreleased : i.EmergencyReleased) :
    (step s i).logic.bEmergencyInfo.Released ∧ StopsStill s i := by
  have hframe := (step_touches s i).keeps
  have hother : .emergency ∉ i.parts → (step s i).logic.bEmergencyInfo.Released := by
    intro hp
    have hsame : (step s i).logic.bEmergencyInfo = s.logic.bEmergencyInfo := hframe.same _ hp
    rw [hsame]
    exact h.emergency
  cases i with
  | timeUpdate pins =>
      have hmid := scanned_emergency pins s
      have hrel : (inputScanCommands pins
          (uartRecvTimeout (timeCounters s))).logic.bEmergencyInfo.Released := by
        rw [hmid]
        exact h.emergency
      refine ⟨?_, fun hstops => absurd hstops (not_emergencyStops hreleased hrel)⟩
      have hstep : step s (.timeUpdate pins) = timeUpdate pins s :=
        if_neg (by rw [h.running]; exact Bool.false_ne_true)
      rw [hstep]
      unfold timeUpdate inputScanProc
      rw [scanEmergency_released hreleased hrel]
      generalize inputScanCommands pins (uartRecvTimeout (timeCounters s)) = t at hrel ⊢
      exact hrel.ticked 2000
  | usart1Irq _ | canFrame _ | udpReceive _ _ | udpClient _ | sendMessage | secProcess _
  | modbusComm _ | canSend _ | resetStart | upstreamIo | uploadRunState | msoneProcess _ =>
      refine ⟨hother ?_, trivial⟩
      simp [Input.parts, frameParts, datagramParts, paraParts]

theorem step_own (h : SlaveInv s) {i : Input} (hown : i.Own) (hreleased : i.EmergencyReleased) :
    SlaveInv (step s i) ∧ (step s i).logic.gSpeedGearStatus = s.logic.gSpeedGearStatus := by
  obtain ⟨hem, hstill⟩ := h.step_emergency hreleased
  obtain ⟨fs, hutters⟩ := step_speaks hown hstill
  exact h.of_utters hutters (h.toListener.step_running hown) hem

theorem step_canFrame (h : SlaveInv s) {f : CanFrameExt} (hf : f.Plain) :
    SlaveInv (step s (.canFrame (canBusSendOneFrame f))) ∧
      (step s (.canFrame (canBusSendOneFrame f))).logic.gSpeedGearStatus =
        gearAfter s.logic.gSpeedGearStatus [f] := by
  obtain ⟨fs, hutters⟩ := (step_canFrame_relays hf h.running).speaks
  refine h.of_utters hutters ?_ ?_
  · exact (step_canFrame_reset hf s).trans h.running
  · have hframe := (step_touches s (.canFrame (canBusSendOneFrame f))).keeps
    have hsame := hframe.same .emergency (by simp [Input.parts, frameParts, paraParts])
    rw [show _ = _ from hsame]
    exact h.emergency

end SlaveInv

/-! ## Agreement -/

/-- The frames that wait in the host's queue take every slave to the gear of the host. -/
structure NetInv {ι : Type} (net : Network ι) : Prop where
  host : net.host.isHost = true
  plain : ∀ f ∈ net.host.canFrames, f.Plain
  slaves : ∀ k, SlaveInv (net.slave k)
  agree : ∀ k, gearAfter (net.slave k).logic.gSpeedGearStatus net.host.canFrames =
    net.host.logic.gSpeedGearStatus

section Step

variable {ι : Type} {net : Network ι}

/-- The host does something, and no slave changes its gear. -/
theorem NetInv.of_host {heard fs : List CanFrameExt} {net' : Network ι} (h : NetInv net)
    (hutters : Utters heard fs net.host net'.host) (hsilent : ∀ f ∈ heard, f.lineGear = none)
    (hroom : ¬ net'.host.can.canSendQueue.IsFull)
    (hslave : ∀ k, SlaveInv (net'.slave k) ∧
      (net'.slave k).logic.gSpeedGearStatus = (net.slave k).logic.gSpeedGearStatus) :
    NetInv net' := by
  have hqueue := hutters.canFrames hroom
  have hgear : net'.host.logic.gSpeedGearStatus =
      gearAfter net.host.logic.gSpeedGearStatus fs := by
    rw [hutters.gear, gearAfter_append, gearAfter_of_silent _ hsilent]
  refine ⟨hutters.isHost_eq.trans h.host, fun f hf => ?_, fun k => (hslave k).1, fun k => ?_⟩
  · rw [hqueue] at hf
    exact (List.mem_append.mp hf).elim (h.plain f) (hutters.plain f)
  · rw [hqueue, hgear, (hslave k).2, gearAfter_append, h.agree k]

/-- Nothing waits at first, and every gear is 0. -/
theorem initial_netInv {net : Network ι} (h : net.Initial) : NetInv net := by
  obtain ⟨⟨⟨flash, localStation, hboot⟩, hhost⟩, hslaves⟩ := h
  have hempty : net.host.canFrames = [] := by
    rw [hboot]
    exact boot_canFrames flash localStation
  have hgear : net.host.logic.gSpeedGearStatus = 0 := by
    rw [hboot]
    exact (boot_keeps flash localStation).gear
  refine ⟨hhost, fun f hf => ?_, fun k => ?_, fun k => ?_⟩
  · rw [hempty] at hf
    cases hf
  · obtain ⟨⟨flash, localStation, hslave⟩, hno⟩ := hslaves k
    have hem : (boot flash localStation).logic.bEmergencyInfo = default :=
      (boot_keeps flash localStation).same .emergency (by decide)
    refine ⟨Listener.of_booted ⟨flash, localStation, hslave⟩ hno, ?_⟩
    rw [hslave, hem]
    exact ⟨rfl, rfl, rfl⟩
  · obtain ⟨⟨flash, localStation, hslave⟩, -⟩ := hslaves k
    have hstill : (net.slave k).logic.gSpeedGearStatus = 0 := by
      rw [hslave]
      exact (boot_keeps flash localStation).gear
    rw [hempty, gearAfter_nil, hstill, hgear]

variable [DecidableEq ι]

/-- A slave does something on its own. -/
theorem NetInv.slaveOwn (h : NetInv net) (k : ι) (i : OwnInput)
    (hreleased : i.val.EmergencyReleased) : NetInv (net.step (.slave k i)) := by
  have hstep := (h.slaves k).step_own i.property hreleased
  have hall : ∀ j, SlaveInv ((net.step (.slave k i)).slave j) ∧
      ((net.step (.slave k i)).slave j).logic.gSpeedGearStatus =
        (net.slave j).logic.gSpeedGearStatus := by
    intro j
    by_cases hj : j = k
    · rw [hj, net.step_slave_self]
      exact hstep
    · rw [net.step_slave_of_ne hj]
      exact ⟨h.slaves j, rfl⟩
  refine ⟨h.host, h.plain, fun j => (hall j).1, fun j => ?_⟩
  rw [(hall j).2]
  exact h.agree j

/-- The oldest frame of the host reaches every slave, which follows it. -/
theorem NetInv.hostSends (h : NetInv net) (mailboxFree : Bool) :
    NetInv (net.step (.hostSends mailboxFree)) := by
  rcases net.hostSends_cases mailboxFree with ⟨-, hsame⟩ | ⟨f, hsent⟩
  · rw [hsame]
    exact h
  · have hqueue := hsent.queue
    have hf : f.Plain := h.plain f (by rw [hqueue]; exact List.mem_cons_self)
    refine ⟨hsent.keeps.isHost.trans h.host, fun x hx => h.plain x ?_, fun k => ?_, fun k => ?_⟩
    · rw [hqueue]
      exact List.mem_cons_of_mem _ hx
    · rw [hsent.slave]
      exact ((h.slaves k).step_canFrame hf).1
    · rw [hsent.slave, ((h.slaves k).step_canFrame hf).2, ← gearAfter_append,
        List.singleton_append, ← hqueue, hsent.keeps.gear]
      exact h.agree k

/-- A slave that has put a frame on the bus. -/
theorem SlaveInv.sent {s t : Station} {f : CanFrameExt} (h : SlaveInv s)
    (hqueue : s.canFrames = f :: t.canFrames) (hk : Keeps [.canQueue] s t) :
    SlaveInv t ∧ t.logic.gSpeedGearStatus = s.logic.gSpeedGearStatus := by
  have hem : t.logic.bEmergencyInfo = s.logic.bEmergencyInfo := hk.same .emergency (by decide)
  refine ⟨⟨h.toListener.sent hqueue hk, ?_⟩, hk.gear⟩
  rw [hem]
  exact h.emergency

/-- A frame of a slave commands nothing. -/
theorem NetInv.slaveSends (h : NetInv net) (k : ι) (mailboxFree : Bool)
    (hroom : ¬ (net.step (.slaveSends k mailboxFree)).host.can.canSendQueue.IsFull) :
    NetInv (net.step (.slaveSends k mailboxFree)) := by
  rcases net.slaveSends_cases k mailboxFree with ⟨-, hsame⟩ | ⟨f, hsent⟩
  · rw [hsame]
    exact h
  · obtain ⟨hf, hsilent⟩ :=
      (h.slaves k).silent f (by rw [hsent.queue]; exact List.mem_cons_self)
    obtain ⟨heard, hrelays, hheard⟩ := hear_relays hf hsilent net.host
    rw [← hsent.host] at hrelays
    obtain ⟨fs, hutters⟩ := hrelays.speaks
    refine h.of_host hutters hheard hroom fun j => ?_
    by_cases hj : j = k
    · rw [hj]
      exact (h.slaves k).sent hsent.queue hsent.keeps
    · obtain ⟨hslave, hgear⟩ := (h.slaves j).step_canFrame hf
      rw [hsent.slave j hj]
      refine ⟨hslave, hgear.trans (gearAfter_of_silent _ fun x hx => ?_)⟩
      rw [List.mem_singleton.mp hx, hsilent]

/-- **One step** keeps the gears on the way to agreement. -/
theorem step_netInv {x : NetInput ι} (h : NetInv net) (hcalm : net.Calm x)
    (hstill : net.HostStopsStill x) : NetInv (net.step x) := by
  obtain ⟨hroom, hslaves⟩ := hcalm
  cases x with
  | host i =>
      obtain ⟨fs, hutters⟩ := step_speaks i.property hstill
      exact h.of_host hutters (by simp) hroom fun k => ⟨h.slaves k, rfl⟩
  | slave k i => exact h.slaveOwn k i hslaves
  | hostSends mailboxFree => exact h.hostSends mailboxFree
  | slaveSends k mailboxFree => exact h.slaveSends k mailboxFree hroom

/-- **The gears agree** whenever the host's queue is drained, in every run of the host, its
slaves and the bus in which no frame of the host is lost, no emergency input of a slave is
active, and the emergency input of the host stops the line only at standstill. -/
theorem gears_agree
    (h : Reach Network.Initial Network.step (fun net x => net.Calm x ∧ net.HostStopsStill x) net)
    (hdrained : net.host.canFrames = []) (k : ι) :
    (net.slave k).logic.gSpeedGearStatus = net.host.logic.gSpeedGearStatus := by
  have hstep : ∀ (net : Network ι) (x : NetInput ι), NetInv net →
      net.Calm x ∧ net.HostStopsStill x → NetInv (net.step x) :=
    fun _ _ hnet hok => step_netInv hnet hok.1 hok.2
  have hinv : NetInv net := h.invariant (fun _ => initial_netInv) hstep
  rw [← hinv.agree k, hdrained, gearAfter_nil]

end Step

/-! ## An emergency stop -/

/-- A datagram of the server that starts the line with gear 2. -/
def startLine : Pbuf :=
  { segments := [[0xAA, 0xAA, 0x01, 0x00, 0x00, 0x00, 0x0C, 0x00, 0x04, 0x10, 0x16, 0x02]]
    behind := fun _ => 0 }

/-- The emergency input of the host is active for 51 ms. -/
def emergencyTicks : List (NetInput (Fin 1)) :=
  List.replicate 51 (.host ⟨.timeUpdate { noInput with bEmergencyIn := true }, trivial⟩)

/-- The host connects and handles the datagram, and its frame goes out. -/
def serverStart : List (NetInput (Fin 1)) :=
  [.host ⟨.udpClient linkUp, trivial⟩, .host ⟨.udpClient linkUp, trivial⟩,
    .host ⟨.udpReceive startLine 0, trivial⟩, .host ⟨.udpClient linkUp, trivial⟩, .hostSends true]

/-- A host and slave 2. -/
def twoStations : Network (Fin 1) :=
  { host := boot zeroFlash 1
    slave := fun _ => boot zeroFlash 2 }

/-- Both are booted, and number 1 is the host. -/
theorem twoStations_initial : twoStations.Initial :=
  ⟨⟨⟨_, _, rfl⟩, by decide +kernel⟩,
    fun _ => ⟨⟨_, _, rfl⟩, show (boot zeroFlash 2).isHost = false by decide +kernel⟩⟩

/-- The emergency input is active before the line is started. -/
theorem start_heard :
    ((run Network.step twoStations
        (emergencyTicks ++ serverStart)).slave 0).logic.gSpeedGearStatus =
      (run Network.step twoStations
        (emergencyTicks ++ serverStart)).host.logic.gSpeedGearStatus := by
  have hend : Along Network.step (fun net x => net.Calm x ∧ net.HostStopsStill x) twoStations
        (emergencyTicks ++ serverStart) ∧
      (run Network.step twoStations (emergencyTicks ++ serverStart)).host.canFrames = [] := by
    decide +kernel
  exact gears_agree (reach_run twoStations_initial hend.1) hend.2 0

/-- It is active while the line runs: the host stops, and slave 2 does not hear of it. -/
theorem emergency_stop_unheard :
    ¬ ∀ net : Network (Fin 1), Reach Network.Initial Network.step (fun net x => net.Calm x) net →
      net.host.canFrames = [] →
        ∀ k, (net.slave k).logic.gSpeedGearStatus = net.host.logic.gSpeedGearStatus := by
  intro h
  have hend : Along Network.step (fun net x => net.Calm x) twoStations
        (serverStart ++ emergencyTicks) ∧
      (run Network.step twoStations (serverStart ++ emergencyTicks)).host.canFrames = [] ∧
      ((run Network.step twoStations
          (serverStart ++ emergencyTicks)).slave 0).logic.gSpeedGearStatus ≠
        (run Network.step twoStations
          (serverStart ++ emergencyTicks)).host.logic.gSpeedGearStatus := by
    decide +kernel
  obtain ⟨halong, hdrained, hdiffer⟩ := hend
  exact hdiffer (h _ (reach_run twoStations_initial halong) hdrained 0)

end IotCtrl
