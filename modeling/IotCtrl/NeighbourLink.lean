import IotCtrl.LineDelivery
import IotCtrl.PollStatus
import IotCtrl.StatusExchange

/-!
# A station follows its neighbour

The last belt of a station carries onto the first belt of the station downstream of it.  The
station learns of that belt by the record its neighbour sends for the host, and starts and stops
its own last belt with it.

* `StopsBehind`, `StartsBehind` — when a change of the neighbour reaches the last belt;
* `downStreamUpdate_queued` — what the record of the neighbour adds to the UART queue;
* `neighbour_followed` — from the poll of a station to the inverter of its neighbour.
-/

namespace IotCtrl

open ByteMemory Transition Deadline ClosedFacts

/-- The command is sent to inverter `k` within the time the master needs for the queue, unless a
stop command empties the queue or the board is reset. -/
def SentInTime (g : U8) (k : Nat) (s : Station) : Prop :=
  ∀ (D : Nat) (is : List Input), CommPrompt D is →
    masterWork D s.uartNodes s + byteDelays is + D < milliseconds is →
    Somewhere step
      (fun t j => WritesGear g k t j ∨ Emptied t (step t j) ∨ (step t j).systemReset = true) s is

theorem sentInTime_of_last {g : U8} {k : Nat} {interval : U16} {nodes : List CommNode}
    {s : Station} (hs : Reachable (fun _ _ => True) s) (hk : k ≤ 10)
    (hgear : g ≤ 6) (hqueue : s.uartNodes = nodes ++ [speedNode k (g.setWidth 16) interval]) :
    SentInTime g k s := by
  intro D is hprompt hlong
  have hcommanded : commandedGear g = g := by
    refine if_neg fun hstop => ?_
    rw [hstop] at hgear
    exact absurd hgear (by decide)
  rw [← hcommanded] at hqueue
  obtain ⟨js, j, ks, hsplit, hserved⟩ :=
    somewhere_iff.mp (queued_command_served hs hqueue hprompt hlong)
  exact somewhere_iff.mpr
    ⟨js, j, ks, hsplit, hserved.imp_left fun hsends => hsends.writesGear hk (Or.inl hgear)⟩

/-! ## The record of the neighbour -/

section Follows

variable {s t : Station}

/-- The last belt. -/
def Station.lastBelt (s : Station) : Nat := s.beltNumber - 1

/-- Station `t` is downstream of station `s`, and not upstream of it as well. -/
def IsBehind (t s : Station) : Prop :=
  t.main.localStation.setWidth 16 = s.logic.userParasLocal.downStreamNo ∧
    t.main.localStation.setWidth 16 ≠ s.logic.userParasLocal.upStreamNo

/-- The last belt runs onto a belt that the station believes to run, and stops with it. -/
structure StopsBehind (s : Station) : Prop where
  believed : s.logic.gLinkDownStreamStatus = true
  belts : s.beltNumber ≠ 0
  linkage : bitAt (s.belt s.lastBelt).funcSelectSwitch 1 ≠ 0
  noAccumulation : bitAt (s.belt s.lastBelt).funcSelectSwitch 3 ≠ 1
  running : s.runBit s.lastBelt = true
  room : s.uartNodes.length < 29

/-- The last belt waits for a belt that the station believes to stand, and starts with it. -/
structure StartsBehind (s : Station) : Prop where
  believed : s.logic.gLinkDownStreamStatus = false
  belts : s.beltNumber ≠ 0
  linkage : bitAt (s.belt s.lastBelt).funcSelectSwitch 1 ≠ 0
  stopped : s.runBit s.lastBelt = false
  healthy : getInverterFaultStatus (s.inverter s.lastBelt) ≠ true
  gear : s.logic.gSpeedGearStatus ≤ 6
  room : s.uartNodes.length < 29

theorem bitAt_four_ne (v : InverterStatus) :
    bitAt v.faultCode 4 ≠ 0 ↔ v.faultCode.getLsbD 4 = true := by
  rw [bitAt_eq]
  split_ifs with hbit
  · exact ⟨fun _ => hbit, fun _ => by decide⟩
  · exact ⟨fun h => absurd rfl h, fun h => absurd h hbit⟩

/-- The command that follows is in the queue. -/
structure LinkQueued (running : Bool) (s s' : Station) : Prop where
  stops : StopsBehind s → running = false →
    s'.uartNodes = s.uartNodes ++ [speedNode s.beltNumber 0 10]
  starts : StartsBehind s → running = true →
    s'.uartNodes = s.uartNodes ++ [speedNode s.beltNumber
      (s.logic.gSpeedGearStatus.setWidth 16) (s.belt s.lastBelt).startDelayTime]
  steady : running = s.logic.gLinkDownStreamStatus → s'.uartNodes = s.uartNodes

/-- **The handler** of the neighbour's record. -/
theorem downStreamUpdate_queued (running : Bool) (s : Station) :
    LinkQueued running s (downStreamUpdate running s) := by
  have hadd : ∀ x, s.uartNodes.length < 29 →
      (addUartSendData2Queue x s).uartNodes = s.uartNodes ++ [x] := by
    intro x hroom
    have hqueue := RingFifo.contents_add_eq s.logic.uartSendQueue x
    exact hqueue.trans (if_pos (Nat.succ_lt_succ hroom))
  have hlast : s.beltNumber ≠ 0 → s.lastBelt + 1 = s.beltNumber := by
    unfold Station.lastBelt
    omega
  refine ⟨fun h hoff => ?_, fun h hon => ?_, fun hsame => ?_⟩
  · have hhandle : linkageStreamCtrlHandle s.lastBelt false s =
        addUartSendData2Queue (speedNode (s.lastBelt + 1) 0 10) s := by
      unfold linkageStreamCtrlHandle linkageStop
      rw [if_pos h.linkage, if_neg Bool.false_ne_true, if_neg h.noAccumulation,
        if_pos ((bitAt_four_ne _).mpr h.running)]
    have hnodes := hadd (speedNode (s.lastBelt + 1) 0 10) h.room
    rw [← hhandle, hlast h.belts] at hnodes
    unfold downStreamUpdate
    rw [if_pos h.belts, h.believed, hoff, if_pos (by decide), if_pos rfl]
    exact hnodes
  · have hstopped : bitAt (s.inverter s.lastBelt).faultCode 4 = 0 := by
      by_contra hne
      have hrunning : s.runBit s.lastBelt = true := (bitAt_four_ne _).mp hne
      rw [h.stopped] at hrunning
      cases hrunning
    have hhandle : linkageStreamCtrlHandle s.lastBelt true s =
        addUartSendData2Queue (speedNode (s.lastBelt + 1)
          (s.logic.gSpeedGearStatus.setWidth 16) (s.belt s.lastBelt).startDelayTime) s := by
      unfold linkageStreamCtrlHandle linkageStart
      rw [if_pos h.linkage, if_pos rfl, if_pos ⟨hstopped, h.healthy⟩]
    have hnodes := hadd (speedNode (s.lastBelt + 1) (s.logic.gSpeedGearStatus.setWidth 16)
      (s.belt s.lastBelt).startDelayTime) h.room
    rw [← hhandle, hlast h.belts] at hnodes
    unfold downStreamUpdate
    rw [if_pos h.belts, h.believed, hon, if_pos (by decide), if_neg (by decide)]
    exact hnodes
  · unfold downStreamUpdate
    dsimp only
    split_ifs with hbelts hchanged
    · exact absurd hsame.symm hchanged
    · exact absurd hsame.symm hchanged
    · rfl
    · rfl

/-- The record queue and the receive side have no part in it. -/
theorem takeReport_queued (hbehind : IsBehind t s) {u : Station} (hu : u.logic = s.logic) :
    LinkQueued (t.runBit 0) s (takeReport t u) := by
  obtain ⟨q, hkeep⟩ : ∃ q, (keepModuleStatus t.report u).logic =
      { s.logic with moduleStatusQueue := q } := by
    unfold keepModuleStatus
    rw [← hu]
    split_ifs
    · exact ⟨_, rfl⟩
    · exact ⟨u.logic.moduleStatusQueue, rfl⟩
  have htake : takeReport t u =
      downStreamUpdate (t.runBit 0) (keepModuleStatus t.report u) := by
    unfold takeReport
    dsimp only
    rw [hkeep]
    exact (if_neg hbehind.2).trans (if_pos hbehind.1)
  have hqueued := downStreamUpdate_queued (t.runBit 0) (keepModuleStatus t.report u)
  rw [← htake] at hqueued
  generalize keepModuleStatus t.report u = v at hkeep hqueued
  cases v
  subst hkeep
  exact ⟨fun h => hqueued.stops ⟨h.1, h.2, h.3, h.4, h.5, h.6⟩,
    fun h => hqueued.starts ⟨h.1, h.2, h.3, h.4, h.5, h.6, h.7⟩, hqueued.steady⟩

/-- A station behind the record of its neighbour. -/
structure FollowsNeighbour (t s s' : Station) : Prop where
  stops : StopsBehind s → t.runBit 0 = false → SentInTime 0 s.beltNumber s'
  starts : StartsBehind s → t.runBit 0 = true →
    SentInTime s.logic.gSpeedGearStatus s.beltNumber s'
  steady : t.runBit 0 = s.logic.gLinkDownStreamStatus → s'.uartNodes = s.uartNodes

theorem LinkQueued.follows {s' : Station} (h : LinkQueued (t.runBit 0) s s')
    (hs' : Reachable (fun _ _ => True) s') : FollowsNeighbour t s s' := by
  have hzero : (0 : U8) ≤ 6 := by decide
  refine ⟨fun hstops hoff => ?_, fun hstarts hon => ?_, h.steady⟩
  · exact sentInTime_of_last hs' s.beltNumber_le hzero (h.stops hstops hoff)
  · exact sentInTime_of_last hs' s.beltNumber_le hstarts.gear (h.starts hstarts hon)

end Follows

section Poll

variable {ι : Type} [DecidableEq ι] {line net : Network ι}
  {past : List (Network ι × NetInput ι)}

/-- **A station follows its neighbour.**  When the status poll of a station is over and it had
belts, all others have heard its record, and each station that has it downstream, and not
upstream as well, has put the command that follows behind its queue: a stop of its last belt if
the belt it believed to run stands, a write of the gear in force, up to 6, if the belt it
believed to stand runs, and nothing if it was right; and the inverter gets the command in time. -/
theorem neighbour_followed (hline : line.Line) (hsilent : line.Silent)
    (hpoll : PollsStatus line.host) (hreach : ∀ y, Reachable (fun _ _ => True) (line.station y))
    {pins : Pins}
    (hrun : Trail (· = afterPoll line pins) Network.step (Network.Calmly offBusParts) past net)
    (hdrained : net.Drained) {k : ι}
    (hk : (line.slave k).main.localStation = nextAsked line.host) :
    ∃ asked before later, past = later ++ asked :: before ∧
      HeardByAll .host CAN_FUNC_ID_READ_MODULE_STATUS (nextAsked line.host) [] asked.1
        (asked.1.step asked.2) ∧
      ((asked.1.slave k).beltNumber ≠ 0 → ∃ told between behind,
        later = behind ++ told :: between ∧
        HeardByAll (.slave k) CAN_FUNC_ID_MODULE_STATUS (asked.1.slave k).main.localStation
          (statusMsg (asked.1.slave k)) told.1 (told.1.step told.2) ∧
        ∀ y, y ≠ .slave k → IsBehind (asked.1.slave k) (told.1.station y) →
          FollowsNeighbour (asked.1.slave k) (told.1.station y)
            ((told.1.step told.2).station y)) := by
  have hsteps : ∀ s j, Reachable (fun _ _ => True) s → Reachable (fun _ _ => True) (step s j) :=
    fun s j hs => Reach.next hs trivial
  obtain ⟨asked, before, later, hsplit, hheard, htold⟩ :=
    poll_over hline hsilent hpoll hrun hdrained hk
  refine ⟨asked, before, later, hsplit, hheard, fun hbelts => ?_⟩
  obtain ⟨told, between, behind, hlater, hears⟩ := htold hbelts
  refine ⟨told, between, behind, hlater, hears, fun y hy hbehind => ?_⟩
  have hmem : told ∈ past := by
    rw [hsplit, hlater]
    simp
  have hthere : Reachable (fun _ _ => True) (told.1.station y) :=
    Network.reach_inv hsteps (hrun.mem_reach told hmem)
      (Network.step_inv hsteps line _ (hreach y))
  obtain ⟨r, e, -, hstep⟩ := told_takes hbelts hears hy
  have hqueued := takeReport_queued hbehind (u := (setCanRecv r (told.1.station y)).log e) rfl
  rw [← hstep] at hqueued
  exact hqueued.follows (Network.step_inv hsteps told.1 told.2 hthere)

end Poll

/-! ## The host behind station 2 -/

/-- One belt with linkage, and station 2 downstream. -/
def followFlash : Flash :=
  { userPara := fun k => if k = 1 then 2 else if k = 2 then 1 else if k = 3 then 2 else 0
    userAppEnFlag := 0xFFFF }

/-- The host half a second behind a start command, and station 2, whose belt runs. -/
@[irreducible] def followingHost : Station :=
  run step (boot followFlash 1) (.canFrame (startFrame 2) :: halfSecond)

@[irreducible] def runningSlave : Station :=
  step (awaiting fullAnswer (boot oneBeltFlash 2)) (.modbusComm fun _ => 0)

def followingStations : Network (Fin 1) :=
  { host := followingHost
    slave := fun _ => runningSlave }

theorem followingHost_reachable : Reachable (fun _ _ => True) followingHost := by
  have hboot : Reachable (fun _ _ => True) (boot followFlash 1) := Reach.start ⟨_, _, rfl⟩
  unfold followingHost
  exact hboot.run_of_along (Along.of_forall (fun _ _ => trivial) _ _)

theorem runningSlave_reachable : Reachable (fun _ _ => True) runningSlave := by
  have hboot : Reachable (fun _ _ => True) (boot oneBeltFlash 2) := Reach.start ⟨_, _, rfl⟩
  have hquiet : Resting (boot oneBeltFlash 2) ∧ Counting (boot oneBeltFlash 2) := by
    decide +kernel
  unfold runningSlave
  exact Reach.next (reachable_awaiting hboot hquiet.1 hquiet.2 fullAnswer) trivial

theorem forall_station {net : Network (Fin 1)} {P : Station → Prop} (hhost : P net.host)
    (hslave : ∀ k, P (net.slave k)) (y : Party (Fin 1)) : P (net.station y) := by
  cases y with
  | host => exact hhost
  | slave k => exact hslave k

theorem followingStations_reachable (y : Party (Fin 1)) :
    Reachable (fun _ _ => True) (followingStations.station y) :=
  forall_station followingHost_reachable (fun _ => runningSlave_reachable) y

/-- What the runs come to. -/
theorem followingStations_run :
    (PollsStatus followingStations.host ∧
      (followingStations.slave 0).main.localStation = nextAsked followingStations.host) ∧
    (followingStations.host.canFrames = [] ∧ (followingStations.slave 0).canFrames = []) ∧
    ((followingStations.slave 0).isHost = false ∧
      (followingStations.slave 0).systemReset = false) ∧
    ((run Network.step (afterPoll followingStations noInput) pollFrames).host.canFrames = [] ∧
      ((run Network.step (afterPoll followingStations noInput) pollFrames).slave 0).canFrames =
        []) ∧
    ∀ e ∈ passed Network.step [] (afterPoll followingStations noInput) pollFrames,
      ((e.1.slave 0).beltNumber ≠ 0 ∧ (e.1.slave 0).runBit 0 = true ∧
        (e.1.slave 0).main.localStation = 2) ∧
      (e.1.host.logic.userParasLocal.downStreamNo = 2 ∧
        e.1.host.logic.userParasLocal.upStreamNo = 0) ∧
      e.1.host.logic.gLinkDownStreamStatus = false ∧ e.1.host.beltNumber = 1 ∧
      bitAt (e.1.host.belt e.1.host.lastBelt).funcSelectSwitch 1 ≠ 0 ∧
      e.1.host.runBit e.1.host.lastBelt = false ∧
      getInverterFaultStatus (e.1.host.inverter e.1.host.lastBelt) ≠ true ∧
      e.1.host.logic.gSpeedGearStatus = 2 ∧ e.1.host.uartNodes.length < 29 := by
  unfold PollsStatus
  decide +kernel

/-- The host starts its belt at gear 2 when it hears that the belt of station 2 runs. -/
theorem host_follows_station2 :
    ∃ asked told : Network (Fin 1) × NetInput (Fin 1),
      told ∈ passed Network.step [] (afterPoll followingStations noInput) pollFrames ∧
        HeardByAll (.slave 0) CAN_FUNC_ID_MODULE_STATUS (asked.1.slave 0).main.localStation
          (statusMsg (asked.1.slave 0)) told.1 (told.1.step told.2) ∧
        SentInTime 2 1 (told.1.step told.2).host := by
  obtain ⟨⟨hpoll, hno⟩, hframes, hslave, hends, hfacts⟩ := followingStations_run
  obtain ⟨hline, hsilent⟩ := ready_of_oneSlave hpoll hframes hslave
  have hrun := trail_pollFrames (afterPoll followingStations noInput)
  obtain ⟨asked, before, later, hsplit, -, htold⟩ :=
    neighbour_followed hline hsilent hpoll followingStations_reachable hrun
      (drained_oneSlave hends) hno
  obtain ⟨⟨hbelts, hruns, hnumber⟩, -⟩ := hfacts asked (by rw [hsplit]; simp)
  obtain ⟨told, between, behind, hlater, hears, hfollows⟩ := htold hbelts
  have hmem : told ∈ passed Network.step [] (afterPoll followingStations noInput) pollFrames := by
    rw [hsplit, hlater]
    simp
  obtain ⟨-, ⟨hdown, hup⟩, hlink, hone, hlinkage, hstopped, hhealthy, hgear, hroom⟩ :=
    hfacts told hmem
  have hbehind : IsBehind (asked.1.slave 0) told.1.host := by
    unfold IsBehind
    rw [hnumber, hdown, hup]
    decide
  have hstarts : StartsBehind told.1.host :=
    { believed := hlink
      belts := by rw [hone]; decide
      linkage := hlinkage
      stopped := hstopped
      healthy := hhealthy
      gear := by rw [hgear]; decide
      room := hroom }
  have hsent := (hfollows .host nofun hbehind).starts hstarts hruns
  refine ⟨asked, told, hmem, hears, ?_⟩
  have hsame : (told.1.station .host).logic.gSpeedGearStatus = 2 ∧
      (told.1.station .host).beltNumber = 1 := ⟨hgear, hone⟩
  rwa [hsame.1, hsame.2] at hsent

end IotCtrl
