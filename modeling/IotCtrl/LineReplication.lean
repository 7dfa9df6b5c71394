import IotCtrl.FifoBroadcast
import IotCtrl.LineAgreement

/-!
# The line commands of the host, carried out by the slaves

The emergency input of a station stops its own belts and is not broadcast, so that the gears of
two stations may differ.  Every other line command is: the host queues a `START_CMD` frame for
each one it carries out, and a slave carries out those it hears.  Without a lost frame the
network is a broadcast over a first-in first-out channel, whatever the emergency inputs do.

* `Echoes` — the commands that were heard and said were carried out, but for emergency stops;
* `step_broadcast` — a step of the network is a step of the broadcast;
* `network_refines_broadcast`, `line_commands_replicated` — every run.
-/

namespace IotCtrl

open ByteMemory Transition ClosedFacts

/-! ## Logs -/

/-- The line commands in some frames, but for the emergency stop. -/
def lineCommands (fs : List CanFrameExt) : List U8 :=
  (fs.filterMap CanFrameExt.lineGear).filter (· ≠ EMERGENCY_STOP)

/-- The line commands in a history, but for the emergency stop, oldest first. -/
def lineLogOf (es : List Event) : List U8 :=
  ((es.filterMap Event.gear).filter (· ≠ EMERGENCY_STOP)).reverse

/-- The line commands a station has carried out, but for the emergency stop. -/
def Station.lineLog (s : Station) : List U8 := lineLogOf s.trace

theorem lineCommands_append (fs gs : List CanFrameExt) :
    lineCommands (fs ++ gs) = lineCommands fs ++ lineCommands gs := by
  unfold lineCommands
  rw [List.filterMap_append, List.filter_append]

theorem lineCommands_of_silent {fs : List CanFrameExt} (h : ∀ f ∈ fs, f.lineGear = none) :
    lineCommands fs = [] := by
  unfold lineCommands
  rw [List.filterMap_eq_nil_iff.mpr h]
  rfl

theorem Station.lineLog_eq (s : Station) : s.lineLog = s.lineGears.filter (· ≠ EMERGENCY_STOP) := by
  unfold Station.lineLog lineLogOf Station.lineGears
  rw [List.filter_reverse]

/-- Frames were queued, and the commands in what was heard and said were carried out, but for the
emergency stops. -/
def Echoes (heard : List CanFrameExt) (s t : Station) : Prop :=
  ∃ fs, Enqueues fs s t ∧ t.lineLog = s.lineLog ++ lineCommands (heard ++ fs)

/-- What is relayed is echoed. -/
theorem Relays.echoes {heard : List CanFrameExt} {s t : Station} (h : Relays heard s t) :
    Echoes heard s t := by
  obtain ⟨fs, h⟩ := h
  refine ⟨fs, h.toEnqueues, ?_⟩
  rw [t.lineLog_eq, h.log, List.filter_append, s.lineLog_eq]
  rfl

namespace Echoes

variable {heard : List CanFrameExt} {s t u : Station}

theorem trans (h : Echoes heard s t) (h' : Echoes [] t u) : Echoes heard s u := by
  obtain ⟨fs, hqueues, hlog⟩ := h
  obtain ⟨fs', hqueues', hlog'⟩ := h'
  refine ⟨fs ++ fs', hqueues.trans hqueues', ?_⟩
  rw [hlog', hlog, List.nil_append, ← List.append_assoc heard, lineCommands_append (heard ++ fs),
    List.append_assoc]

/-- `trans` with the later half first, which fixes the state in between. -/
theorem after (h' : Echoes [] t u) (h : Echoes heard s t) : Echoes heard s u := h.trans h'

/-- The emergency stop is carried out by one station only. -/
theorem emergencyStop (s : Station) : Echoes [] s (speedCtrlProcess EMERGENCY_STOP s) := by
  have hspeed := speedCtrlProcess_keeps EMERGENCY_STOP s
  refine ⟨[], .nothing (hspeed.same .canQueue (by decide)) hspeed.localStation, ?_⟩
  rw [Station.lineLog_eq, speedCtrlProcess_lineGears, List.filter_append, s.lineLog_eq]
  rfl

end Echoes

theorem scanEmergency_echoes (pins : Pins) (s : Station) : Echoes [] s (scanEmergency pins s) := by
  have hset : ∀ b t, Echoes [] t (setEmergencyInfo b t) :=
    fun b t => (Relays.of_keeps (setEmergencyInfo_keeps b t)).echoes
  have hstop : ∀ t, Echoes [] t (speedCtrlProcess EMERGENCY_STOP t) := Echoes.emergencyStop
  unfold scanEmergency
  dsimp only
  split_ifs
  · exact (hstop _).after ((hset _ _).after ((hstop _).after (hset _ s)))
  · exact (hstop _).after ((hset _ _).after (hset _ s))
  · exact (hset _ _).after ((hstop _).after (hset _ s))
  · exact (hset _ _).after (hset _ s)
  · exact (hstop _).after (hset _ s)
  · exact hset _ s

/-- **Everything a station does on its own**, whatever its emergency input does. -/
theorem step_echoes {s : Station} {i : Input} (hown : i.Own) : Echoes [] s (step s i) := by
  rcases step_relays hown with hrelays | ⟨pins, rfl, hrelays, hstep⟩
  · exact hrelays.echoes
  · rw [hstep]
    exact (scanEmergency_echoes pins _).after hrelays.echoes

/-! ## The network -/

namespace Listener

variable {s t : Station}

theorem of_echoes {heard : List CanFrameExt} (h : Listener s) (hechoes : Echoes heard s t)
    (hrunning : t.systemReset = false) :
    Listener t ∧ t.lineLog = s.lineLog ++ lineCommands heard := by
  obtain ⟨fs, hqueues, hlog⟩ := hechoes
  refine ⟨h.of_enqueues hqueues hrunning, ?_⟩
  rw [hlog, lineCommands_append, lineCommands_of_silent (hqueues.slave h.slave), List.append_nil]

theorem step_own (h : Listener s) {i : Input} (hown : i.Own) :
    Listener (step s i) ∧ (step s i).lineLog = s.lineLog := by
  obtain ⟨hnext, hlog⟩ := h.of_echoes (step_echoes hown) (h.step_running hown)
  exact ⟨hnext, hlog.trans (List.append_nil _)⟩

theorem step_canFrame (h : Listener s) {f : CanFrameExt} (hf : f.Plain) :
    Listener (step s (.canFrame (canBusSendOneFrame f))) ∧
      (step s (.canFrame (canBusSendOneFrame f))).lineLog = s.lineLog ++ lineCommands [f] :=
  h.of_echoes (step_canFrame_relays hf h.running).echoes
    ((step_canFrame_reset hf s).trans h.running)

end Listener

/-- What the network keeps. -/
structure Connected {ι : Type} (net : Network ι) : Prop where
  host : net.host.isHost = true
  plain : ∀ f ∈ net.host.canFrames, f.Plain
  slaves : ∀ k, Listener (net.slave k)

namespace Network

variable {ι : Type}

/-- The network as a broadcast of line commands. -/
def broadcast (net : Network ι) : FifoBroadcast.System U8 ι :=
  { issued := net.host.lineLog
    waiting := lineCommands net.host.canFrames
    done := fun k => (net.slave k).lineLog }

/-- No frame of the host is lost. -/
def HostRoom [DecidableEq ι] (net : Network ι) (x : NetInput ι) : Prop :=
  ¬ (net.step x).host.can.canSendQueue.IsFull

instance [DecidableEq ι] (net : Network ι) : DecidablePred net.HostRoom :=
  fun _ => inferInstanceAs (Decidable (¬ _))

end Network

section Step

variable {ι : Type} {net : Network ι}

theorem initial_connected (h : net.Initial) :
    Connected net ∧ net.broadcast = FifoBroadcast.System.initial := by
  obtain ⟨⟨⟨flash, localStation, hboot⟩, hhost⟩, hslaves⟩ := h
  have hempty : net.host.canFrames = [] := by
    rw [hboot]
    exact boot_canFrames flash localStation
  have hlog : ∀ {s : Station}, Booted s → s.lineLog = [] := by
    rintro s ⟨flash, localStation, rfl⟩
    exact congrArg lineLogOf (boot_trace flash localStation)
  have hlisten : ∀ k, Listener (net.slave k) :=
    fun k => Listener.of_booted (hslaves k).1 (hslaves k).2
  refine ⟨⟨hhost, fun f hf => ?_, hlisten⟩, ?_⟩
  · rw [hempty] at hf
    cases hf
  · unfold Network.broadcast FifoBroadcast.System.initial
    rw [hempty, hlog ⟨flash, localStation, hboot⟩]
    congr 1
    funext k
    exact hlog (hslaves k).1

/-- The host does something by which no slave carries out a command. -/
theorem Connected.of_host {heard : List CanFrameExt} {net' : Network ι} (h : Connected net)
    (hechoes : Echoes heard net.host net'.host) (hsilent : ∀ f ∈ heard, f.lineGear = none)
    (hroom : ¬ net'.host.can.canSendQueue.IsFull)
    (hslave : ∀ k, Listener (net'.slave k) ∧ (net'.slave k).lineLog = (net.slave k).lineLog) :
    Connected net' ∧ FifoBroadcast.Step net.broadcast net'.broadcast := by
  obtain ⟨fs, hqueues, hlog⟩ := hechoes
  have hframes := hqueues.canFrames hroom
  refine ⟨⟨hqueues.isHost_eq.trans h.host, fun f hf => ?_, fun k => (hslave k).1⟩, ?_⟩
  · rw [hframes] at hf
    exact (List.mem_append.mp hf).elim (h.plain f) (hqueues.plain f)
  · have hissued : net'.broadcast =
        { net.broadcast with
          issued := net.broadcast.issued ++ lineCommands fs
          waiting := net.broadcast.waiting ++ lineCommands fs } := by
      unfold Network.broadcast
      dsimp only
      rw [hframes, hlog, lineCommands_append, lineCommands_append, lineCommands_of_silent hsilent]
      congr 1
      funext k
      exact (hslave k).2
    rw [hissued]
    exact .issue _ _

/-- Nothing happened. -/
theorem broadcast_same {net' : Network ι} (h : net'.broadcast = net.broadcast) :
    FifoBroadcast.Step net.broadcast net'.broadcast := by
  have hnone : net'.broadcast = { net.broadcast with
      issued := net.broadcast.issued ++ []
      waiting := net.broadcast.waiting ++ [] } := by
    rw [h, List.append_nil, List.append_nil]
  rw [hnone]
  exact .issue _ _

variable [DecidableEq ι]

theorem Connected.slaveOwn (h : Connected net) (k : ι) (i : OwnInput) :
    Connected (net.step (.slave k i)) ∧
      FifoBroadcast.Step net.broadcast (net.step (.slave k i)).broadcast := by
  have hall : ∀ j, Listener ((net.step (.slave k i)).slave j) ∧
      ((net.step (.slave k i)).slave j).lineLog = (net.slave j).lineLog := by
    intro j
    by_cases hj : j = k
    · rw [hj, net.step_slave_self]
      exact (h.slaves k).step_own i.property
    · rw [net.step_slave_of_ne hj]
      exact ⟨h.slaves j, rfl⟩
  refine ⟨⟨h.host, h.plain, fun j => (hall j).1⟩, broadcast_same ?_⟩
  unfold Network.broadcast
  congr 1
  funext j
  exact (hall j).2

/-- The oldest frame of the host is delivered. -/
theorem Connected.hostSends (h : Connected net) (mailboxFree : Bool) :
    Connected (net.step (.hostSends mailboxFree)) ∧
      FifoBroadcast.Step net.broadcast (net.step (.hostSends mailboxFree)).broadcast := by
  rcases net.hostSends_cases mailboxFree with ⟨-, hsame⟩ | ⟨f, hsent⟩
  · rw [hsame]
    exact ⟨h, broadcast_same rfl⟩
  · generalize net.step (.hostSends mailboxFree) = net' at hsent ⊢
    have hqueue := hsent.queue
    have hf : f.Plain := h.plain f (by rw [hqueue]; exact List.mem_cons_self)
    have hlog : net'.host.lineLog = net.host.lineLog := congrArg lineLogOf hsent.keeps.trace
    refine ⟨⟨hsent.keeps.isHost.trans h.host, fun x hx => h.plain x ?_, fun k => ?_⟩, ?_⟩
    · rw [hqueue]
      exact List.mem_cons_of_mem _ hx
    · rw [hsent.slave]
      exact ((h.slaves k).step_canFrame hf).1
    · have hsplit : net.broadcast.waiting =
          lineCommands [f] ++ lineCommands net'.host.canFrames := by
        show lineCommands net.host.canFrames = _
        rw [hqueue, ← lineCommands_append]
        rfl
      have hdelivered : net'.broadcast =
          { net.broadcast with
            waiting := lineCommands net'.host.canFrames
            done := fun k => net.broadcast.done k ++ lineCommands [f] } := by
        unfold Network.broadcast
        rw [hlog]
        congr 1
        funext k
        rw [hsent.slave]
        exact ((h.slaves k).step_canFrame hf).2
      rw [hdelivered]
      exact .deliver _ hsplit

/-- A frame of a slave delivers nothing. -/
theorem Connected.slaveSends (h : Connected net) (k : ι) (mailboxFree : Bool)
    (hroom : net.HostRoom (.slaveSends k mailboxFree)) :
    Connected (net.step (.slaveSends k mailboxFree)) ∧
      FifoBroadcast.Step net.broadcast (net.step (.slaveSends k mailboxFree)).broadcast := by
  rcases net.slaveSends_cases k mailboxFree with ⟨-, hsame⟩ | ⟨f, hsent⟩
  · rw [hsame]
    exact ⟨h, broadcast_same rfl⟩
  · obtain ⟨hf, hsilent⟩ :=
      (h.slaves k).silent f (by rw [hsent.queue]; exact List.mem_cons_self)
    obtain ⟨heard, hrelays, hheard⟩ := hear_relays hf hsilent net.host
    rw [← hsent.host] at hrelays
    refine h.of_host hrelays.echoes hheard hroom fun j => ?_
    by_cases hj : j = k
    · rw [hj]
      exact ⟨(h.slaves k).sent hsent.queue hsent.keeps, congrArg lineLogOf hsent.keeps.trace⟩
    · obtain ⟨hnext, hlog⟩ := (h.slaves j).step_canFrame hf
      rw [hsent.slave j hj]
      refine ⟨hnext, hlog.trans ?_⟩
      rw [lineCommands_of_silent fun x hx => by rw [List.mem_singleton.mp hx, hsilent],
        List.append_nil]

/-- **One step** of the network is a step of the broadcast. -/
theorem step_broadcast {x : NetInput ι} (h : Connected net) (hroom : net.HostRoom x) :
    Connected (net.step x) ∧ FifoBroadcast.Step net.broadcast (net.step x).broadcast := by
  cases x with
  | host i =>
      exact h.of_host (step_echoes i.property) nofun hroom fun k => ⟨h.slaves k, rfl⟩
  | slave k i => exact h.slaveOwn k i
  | hostSends mailboxFree => exact h.hostSends mailboxFree
  | slaveSends k mailboxFree => exact h.slaveSends k mailboxFree hroom

/-- **The network refines the broadcast.** -/
theorem network_refines_broadcast (h : Reach Network.Initial Network.step Network.HostRoom net) :
    Connected net ∧ FifoBroadcast.Run FifoBroadcast.System.initial net.broadcast := by
  induction h with
  | start hinit =>
      obtain ⟨hconnected, hempty⟩ := initial_connected hinit
      rw [hempty]
      exact ⟨hconnected, .refl⟩
  | next _ hroom ih =>
      obtain ⟨hnext, hstep⟩ := step_broadcast ih.1 hroom
      exact ⟨hnext, ih.2.tail hstep⟩

/-- **The line commands are replicated.**  In every run of the host, its slaves and the bus in
which no frame of the host is lost, each slave carries out the line commands of the host, but
for its emergency stops, in the same order: those it has carried out and those that wait in the
queue of the host are the ones that the host has carried out. -/
theorem line_commands_replicated
    (h : Reach Network.Initial Network.step Network.HostRoom net) (k : ι) :
    (net.slave k).lineLog ++ lineCommands net.host.canFrames = net.host.lineLog ∧
      (net.slave k).lineLog <+: net.host.lineLog ∧
      (net.host.canFrames = [] → (net.slave k).lineLog = net.host.lineLog) := by
  obtain ⟨-, hrun⟩ := network_refines_broadcast h
  refine ⟨hrun.accounted k, hrun.done_prefix k, fun hdrained => ?_⟩
  exact hrun.done_eq_of_drained (congrArg lineCommands hdrained) k

/-- The line is started, and then the emergency input of the host stops it. -/
theorem line_commands_replicated_twoStations :
    ((run Network.step twoStations (serverStart ++ emergencyTicks)).slave 0).lineLog ++
        lineCommands (run Network.step twoStations (serverStart ++ emergencyTicks)).host.canFrames =
      (run Network.step twoStations (serverStart ++ emergencyTicks)).host.lineLog := by
  have halong :
      Along Network.step Network.HostRoom twoStations (serverStart ++ emergencyTicks) := by
    decide +kernel
  exact (line_commands_replicated (reach_run twoStations_initial halong) 0).1

end Step

end IotCtrl
