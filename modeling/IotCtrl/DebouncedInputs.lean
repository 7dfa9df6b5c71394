import IotCtrl.Debounce
import IotCtrl.Interlock
import IotCtrl.LineAgreement
import IotCtrl.Panel

/-!
# Debounced inputs

`InputScanProc` debounces ten inputs with one routine.  Over any run, with any other steps in
between, each of them follows the run-length reference of its samples, one for every tick.

* `step_follows` — one step, for every input;
* `timeUpdate_issues` — the line commands of a tick;
* `inputs_debounced` — the edges of every input, the bound of its counter, and the commands
  of the start and the stop button on the host.
-/

namespace IotCtrl

open Transition ClosedFacts Debounce

/-- The inputs that `InputScanProc` debounces. -/
inductive InputPin
  | reset
  | photo (k : Fin 5)
  | start
  | stop
  | stream
  | emergency
deriving DecidableEq

namespace InputPin

def level (pins : Pins) : InputPin → Bool
  | .reset => pins.bResetIn
  | .photo k => pins.bPhotoIn k
  | .start => pins.bStartIn
  | .stop => pins.bStopIn
  | .stream => pins.bStreamIn
  | .emergency => pins.bEmergencyIn

def record (s : Station) : InputPin → ButtonInfo
  | .reset => s.logic.bResetInfo
  | .photo k => s.logic.bPhotoInfo k
  | .start => s.logic.bStartInfo
  | .stop => s.logic.bStopInfo
  | .stream => s.logic.bStreamInfo
  | .emergency => s.logic.bEmergencyInfo

/-- The confirmed level. -/
def confirmed (s : Station) (c : InputPin) : Bool := (c.record s).inputState

/-- How many samples in a row confirm a level. -/
def need : InputPin → Bool → Nat
  | .reset, _ => 51
  | .photo _, _ => 51
  | .start, _ => 101
  | .stop, _ => 101
  | .stream, true => 21
  | .stream, false => 201
  | .emergency, _ => 51

/-- The sample of the input that a step takes. -/
def sample (c : InputPin) (e : Station × Input) : Option Bool :=
  match e.2 with
  | .timeUpdate pins => if e.1.systemReset then none else some (c.level pins)
  | _ => none

/-- The samples of a run, latest first. -/
def samples (c : InputPin) (past : Past) : List Bool := past.filterMap c.sample

theorem need_pos (c : InputPin) (v : Bool) : 0 < c.need v := by
  cases c <;> cases v <;> exact Nat.succ_pos _

end InputPin

/-! ## The automaton follows the reference -/

/-- A record stands for the samples `need` counts. -/
structure Follows (need : Bool → Nat) (samples : List Bool) (b : ButtonInfo) : Prop where
  tracks : Tracks need false samples b.inputState b.inputConfirmTimes.toNat
  middle : b.inputMiddleState =
    if b.inputConfirmTimes = 0 then b.inputState else !b.inputState

section Automaton

variable {limit : Bool → U8} {need : Bool → Nat} {samples : List Bool} {pin : Bool}
  {b : ButtonInfo}

/-- A sample of the confirmed level. -/
theorem confirmInput_same (limit : Bool → U8) (b : ButtonInfo) :
    confirmInput limit b.inputState b =
      (false, { b with inputMiddleState := b.inputState, inputConfirmTimes := 0 }) := by
  have hkeep : ¬ (b.inputState ≠ b.inputState ∧ b.inputConfirmTimes = 0) := fun h => h.1 rfl
  unfold confirmInput
  dsimp only
  rw [if_neg hkeep, if_neg fun h => h.2 h.1]

/-- A sample of the other level. -/
theorem confirmInput_other (limit : Bool → U8) {b : ButtonInfo}
    (hmiddle : b.inputMiddleState =
      if b.inputConfirmTimes = 0 then b.inputState else !b.inputState) :
    (confirmInput limit (!b.inputState) b).2 =
      if limit (!b.inputState) < b.inputConfirmTimes + 1 then
        { b with
          inputState := !b.inputState
          inputMiddleState := !b.inputState
          inputConfirmTimes := 0 }
      else
        { b with
          inputMiddleState := !b.inputState
          inputConfirmTimes := b.inputConfirmTimes + 1 } := by
  have hne : b.inputState ≠ !b.inputState := by simp
  obtain ⟨state, middle, times, trig⟩ := b
  have hset : (if state ≠ (!state) ∧ times = 0 then
      ({ inputState := state, inputMiddleState := !state, inputConfirmTimes := times,
         trigCnt := trig } : ButtonInfo)
      else { inputState := state, inputMiddleState := middle, inputConfirmTimes := times,
             trigCnt := trig }) =
      { inputState := state, inputMiddleState := !state, inputConfirmTimes := times,
        trigCnt := trig } := by
    by_cases htimes : times = 0
    · rw [if_pos ⟨hne, htimes⟩]
    · rw [if_neg fun h => htimes h.2]
      exact congrArg (fun m => ButtonInfo.mk state m times trig) (hmiddle.trans (if_neg htimes))
  unfold confirmInput
  dsimp only at hset ⊢
  rw [hset, if_pos ⟨rfl, hne.symm⟩]
  split_ifs <;> rfl

/-- One sample. -/
theorem Follows.confirmInput (h : Follows need samples b)
    (hneed : ∀ v, need v = (limit v).toNat + 1) (hlimit : ∀ v, (limit v).toNat < 255) (pin : Bool) :
    Follows need (pin :: samples) (confirmInput limit pin b).2 := by
  have hpos : ∀ v, 0 < need v := fun v => by rw [hneed]; exact Nat.succ_pos _
  by_cases hpin : pin = b.inputState
  · rw [hpin, confirmInput_same]
    exact ⟨h.tracks.same, (if_pos rfl).symm⟩
  · have hother : pin = !b.inputState := Bool.eq_not.mpr hpin
    have hcount : b.inputConfirmTimes.toNat < (limit (!b.inputState)).toNat + 1 :=
      hneed _ ▸ h.tracks.count_lt
    have hsucc : (b.inputConfirmTimes + 1).toNat = b.inputConfirmTimes.toNat + 1 := by
      have hsmall := hlimit (!b.inputState)
      have hone : (1 : U8).toNat = 1 := rfl
      rw [BitVec.toNat_add, hone]
      omega
    rw [hother, confirmInput_other limit h.middle]
    split_ifs with hover
    · rw [BitVec.lt_def, hsucc] at hover
      exact ⟨h.tracks.confirmed (by rw [hneed]; omega) (hpos _), (if_pos rfl).symm⟩
    · rw [BitVec.lt_def, hsucc] at hover
      have hlt : b.inputConfirmTimes.toNat + 1 < need (!b.inputState) := by rw [hneed]; omega
      refine ⟨?_, ?_⟩
      · show Tracks need false _ _ (b.inputConfirmTimes + 1).toNat
        rw [hsucc]
        exact h.tracks.counted hlt
      · have hne : b.inputConfirmTimes + 1 ≠ 0 := by
          intro hzero
          rw [hzero] at hsucc
          cases hsucc
        exact (if_neg hne).symm

/-- The repeat counter does not count here. -/
theorem Follows.setTrig (h : Follows need samples b) (n : U16) :
    Follows need samples { b with trigCnt := n } := ⟨h.tracks, h.middle⟩

/-- One sample of an input with a repeat counter. -/
theorem Follows.repeated (h : Follows need samples b)
    (hneed : ∀ v, need v = (limit v).toNat + 1) (hlimit : ∀ v, (limit v).toNat < 255)
    (period : U16) (pin : Bool) : Follows need (pin :: samples) (repeated limit period pin b) := by
  have hsample := (h.setTrig (b.trigCnt + 1)).confirmInput hneed hlimit pin
  unfold IotCtrl.repeated
  dsimp only
  split_ifs
  · exact hsample.setTrig 0
  · exact hsample

end Automaton

/-- The record of an input after a sample. -/
def InputPin.scanned (pins : Pins) (b : ButtonInfo) : InputPin → ButtonInfo
  | .reset => sampledReset pins b
  | .photo k => sampledPhoto pins k b
  | .start => sampledStart pins b
  | .stop => sampledStop pins b
  | .stream => sampledStream pins b
  | .emergency => sampledEmergency pins b

/-- **One sample of any input.** -/
theorem InputPin.scanned_follows {c : InputPin} {samples : List Bool} {b : ButtonInfo}
    (h : Follows c.need samples b) (pins : Pins) :
    Follows c.need (c.level pins :: samples) (c.scanned pins b) := by
  cases c with
  | reset => exact h.confirmInput (fun _ => rfl) (by decide) pins.bResetIn
  | photo k =>
      have hpin : pins.bPhotoIn.get k = pins.bPhotoIn k := dif_pos k.isLt
      have hsample : Follows (InputPin.photo k).need (pins.bPhotoIn.get k :: samples)
          (sampledPhoto pins k b) :=
        h.repeated (fun _ => rfl) (by decide) 300 (pins.bPhotoIn.get k)
      rw [hpin] at hsample
      exact hsample
  | start => exact h.confirmInput (fun _ => rfl) (by decide) pins.bStartIn
  | stop => exact h.confirmInput (fun _ => rfl) (by decide) pins.bStopIn
  | stream =>
      refine h.repeated (fun v => ?_) (by decide) 2000 pins.bStreamIn
      cases v <;> rfl
  | emergency => exact h.repeated (fun _ => rfl) (by decide) 2000 pins.bEmergencyIn

/-! ## Every step -/

namespace InputPin

/-- The record of an input on a panel. -/
def onPanel (p : Panel) : InputPin → ButtonInfo
  | .reset => p.bResetInfo
  | .photo k => p.bPhotoInfo k
  | .start => p.bStartInfo
  | .stop => p.bStopInfo
  | .stream => p.bStreamInfo
  | .emergency => p.bEmergencyInfo

theorem record_eq (c : InputPin) (s : Station) : c.record s = c.onPanel s.panel := by
  cases c <;> rfl

theorem onPanel_tick (c : InputPin) (pins : Pins) (n : Nat) (p : Panel) :
    c.onPanel (p.tick pins n) = c.scanned pins (c.onPanel p) := by
  have hcount : c.onPanel p.countReset = c.onPanel p := by
    unfold Panel.countReset
    split_ifs <;> cases c <;> rfl
  have hreset : ∀ q : Panel, c.onPanel (q.reset n) = c.onPanel q := by
    intro q
    cases c <;> rfl
  have hscan : ∀ q : Panel, c.onPanel (q.scan pins) = c.scanned pins (c.onPanel q) := by
    intro q
    cases c <;> rfl
  unfold Panel.tick
  rw [hscan]
  split_ifs
  · rw [hreset, hcount]
  · rw [hcount]

/-- A tick samples every input, and no other step touches their records. -/
theorem step_record (c : InputPin) (s : Station) (i : Input) :
    (∃ pins, i = .timeUpdate pins ∧ s.systemReset = false ∧
      c.record (step s i) = c.scanned pins (c.record s)) ∨
    (c.sample (s, i) = none ∧ c.record (step s i) = c.record s) := by
  have hpanel := step_panel s i
  rw [record_eq, record_eq]
  generalize (step s i).panel = q at hpanel ⊢
  cases hpanel with
  | stopped i h =>
      refine Or.inr ⟨?_, rfl⟩
      cases i <;> first | rfl | exact if_pos h
  | tick pins hrun => exact Or.inl ⟨pins, rfl, hrun, onPanel_tick c pins _ _⟩
  | reset i h htick =>
      refine Or.inr ⟨?_, by cases c <;> rfl⟩
      cases i <;> first | rfl | exact absurd rfl (htick _)
  | byte | check | comm | restart => exact Or.inr ⟨rfl, by cases c <;> rfl⟩
  | other i htick =>
      refine Or.inr ⟨?_, rfl⟩
      cases i <;> first | rfl | exact absurd rfl (htick _)

theorem record_tick (c : InputPin) (pins : Pins) {s : Station} (hrun : s.systemReset = false) :
    c.record (step s (.timeUpdate pins)) = c.scanned pins (c.record s) := by
  have hstep : step s (.timeUpdate pins) = timeUpdate pins s := if_neg (by simp [hrun])
  rw [hstep, record_eq, timeUpdate_panel, onPanel_tick, record_eq]

theorem sample_tick (c : InputPin) (pins : Pins) {s : Station} (hrun : s.systemReset = false) :
    c.sample (s, .timeUpdate pins) = some (c.level pins) := if_neg (by simp [hrun])

theorem samples_cons_none {c : InputPin} {e : Station × Input} (h : c.sample e = none)
    (past : Past) : c.samples (e :: past) = c.samples past :=
  List.filterMap_cons_none h

theorem samples_cons_tick (c : InputPin) {s : Station} (hrun : s.systemReset = false) (pins : Pins)
    (past : Past) :
    c.samples ((s, .timeUpdate pins) :: past) = c.level pins :: c.samples past :=
  List.filterMap_cons_some (c.sample_tick pins hrun)

end InputPin

/-- **One step**, of any kind, for every input. -/
theorem step_follows {c : InputPin} {past : Past} {s : Station}
    (h : Follows c.need (c.samples past) (c.record s)) (i : Input) :
    Follows c.need (c.samples ((s, i) :: past)) (c.record (step s i)) := by
  rcases c.step_record s i with ⟨pins, rfl, hrun, hrecord⟩ | ⟨hnone, hrecord⟩
  · rw [hrecord, InputPin.samples_cons_tick c hrun]
    exact InputPin.scanned_follows h pins
  · rw [hrecord, InputPin.samples_cons_none hnone]
    exact h

/-- **Every run.** -/
theorem trails_follows {ok : Station → Input → Prop} {past : Past} {s : Station}
    (h : Trails ok past s) (c : InputPin) : Follows c.need (c.samples past) (c.record s) := by
  refine h.invariant (I := fun past s => Follows c.need (c.samples past) (c.record s)) ?_ ?_
  · rintro _ ⟨flash, localStation, rfl⟩
    have hrecord : c.record (boot flash localStation) = default := by
      rw [InputPin.record_eq, boot_panel]
      cases c <;> rfl
    rw [hrecord]
    exact ⟨Tracks.init (c.need_pos _), rfl⟩
  · intro past s i hfollows _
    exact step_follows hfollows i

/-! ## The commands of the buttons -/

/-- The input is confirmed active on the way from `s` to `t`. -/
def Rises (c : InputPin) (s t : Station) : Prop := c.confirmed s = false ∧ c.confirmed t = true

instance (c : InputPin) (s t : Station) : Decidable (Rises c s t) :=
  inferInstanceAs (Decidable (_ ∧ _))

/-- What the buttons command on the way from `s` to `t`. -/
def buttonCommands (s t : Station) : List U8 :=
  (if Rises .start s t then [2] else []) ++ if Rises .stop s t then [0] else []

/-- On the way from `s` to `t` the line commands `cmds` were run and broadcast, in this order
and beside emergency stops. -/
structure Issues (cmds : List U8) (s t : Station) : Prop where
  calls : ∃ es, t.trace = es ++ s.trace ∧
    (es.filterMap Event.gear).reverse.filter (· ≠ EMERGENCY_STOP) = cmds
  queue : t.can.canSendQueue =
    s.can.canSendQueue.addAll (cmds.map fun g => startFrameOf g s.main.localStation)
  station : t.main.localStation = s.main.localStation

namespace Issues

variable {cmds cmds' : List U8} {s t u : Station}

theorem trans (h : Issues cmds s t) (h' : Issues cmds' t u) : Issues (cmds ++ cmds') s u := by
  obtain ⟨es, htrace, hes⟩ := h.calls
  obtain ⟨es', htrace', hes'⟩ := h'.calls
  refine ⟨⟨es' ++ es, ?_, ?_⟩, ?_, h'.station.trans h.station⟩
  · rw [htrace', htrace, List.append_assoc]
  · rw [List.filterMap_append, List.reverse_append, List.filter_append, hes, hes']
  · rw [h'.queue, h.queue, h.station, List.map_append, RingFifo.addAll_append]

/-- `trans` with the later half first, which fixes the state in between. -/
theorem after (h' : Issues cmds' t u) (h : Issues cmds s t) : Issues (cmds ++ cmds') s u :=
  h.trans h'

theorem of_keeps {ps : List Part} (h : Keeps ps s t) [hq : Evident (.canQueue ∉ ps)]
    [hp : Evident (.trace ∉ ps)] : Issues [] s t :=
  ⟨⟨[], h.trace, rfl⟩, h.same .canQueue hq.out, h.localStation⟩

/-- A line command runs, and the host broadcasts it. -/
theorem command {g : U8} (hg : g ≠ EMERGENCY_STOP) (s : Station) :
    Issues [g] s (canBusSendStartCmd g (speedCtrlProcess g s)) := by
  have hspeed := speedCtrlProcess_keeps g s
  have hframes := canBusSendMsg_keeps [g] CAN_FUNC_ID_START_CMD
    (speedCtrlProcess g s).main.localStation (speedCtrlProcess g s)
  have hqueue : (speedCtrlProcess g s).can.canSendQueue = s.can.canSendQueue :=
    hspeed.same .canQueue (by decide)
  have hstation := hspeed.localStation
  refine ⟨⟨[.speedCall g s.inFlight], ?_, ?_⟩, ?_, hframes.localStation.trans hstation⟩
  · exact hframes.trace.trans (speedCtrlProcess_trace g s)
  · exact List.filter_cons_of_pos (by simpa using hg)
  · rw [← hqueue, ← hstation]
    rfl

end Issues

/-- A confirmed sample changes the level. -/
theorem confirmInput_confirmed (limit : Bool → U8) (pin : Bool) (b : ButtonInfo) :
    (confirmInput limit pin b).1 = true ↔
      (confirmInput limit pin b).2.inputState ≠ b.inputState := by
  unfold confirmInput
  dsimp only
  split_ifs with hset hcount hover hcount hover
  · exact iff_of_true rfl hcount.2
  · exact iff_of_false nofun (not_not.mpr rfl)
  · exact iff_of_false nofun (not_not.mpr rfl)
  · exact iff_of_true rfl hcount.2
  · exact iff_of_false nofun (not_not.mpr rfl)
  · exact iff_of_false nofun (not_not.mpr rfl)

/-- The sample confirms the button pressed. -/
def pressed (pin : Bool) (b : ButtonInfo) : Prop :=
  b.inputState = false ∧ (confirmInput (fun _ => 100) pin b).2.inputState = true

instance (pin : Bool) (b : ButtonInfo) : Decidable (pressed pin b) :=
  inferInstanceAs (Decidable (_ ∧ _))

theorem pressed_iff (pin : Bool) (b : ButtonInfo) :
    pressed pin b ↔ (confirmInput (fun _ => 100) pin b).1 = true ∧
      (confirmInput (fun _ => 100) pin b).2.inputState = true := by
  rw [confirmInput_confirmed]
  unfold pressed
  generalize (confirmInput (fun _ => 100) pin b).2.inputState = after
  cases b.inputState <;> cases after <;> simp

/-- The block of a button on the host. -/
theorem scanButton_issues {g : U8} (hg : g ≠ EMERGENCY_STOP)
    (setInfo : ButtonInfo → Station → Station)
    (hset : ∀ b t, Quiet t (setInfo b t)) (pin : Bool) (b : ButtonInfo) {s : Station}
    (hhost : s.isHost = true) :
    Issues (if pressed pin b then [g] else []) s
      (if (confirmInput (fun _ => 100) pin b).1 = true ∧
          (confirmInput (fun _ => 100) pin b).2.inputState = true then
        buttonCommand g (setInfo (confirmInput (fun _ => 100) pin b).2 s)
      else setInfo (confirmInput (fun _ => 100) pin b).2 s) := by
  have hinfo : Issues [] s (setInfo (confirmInput (fun _ => 100) pin b).2 s) :=
    Issues.of_keeps (hset _ s).keeps
  have hhost' : (setInfo (confirmInput (fun _ => 100) pin b).2 s).isHost = true :=
    (congrArg (· == 1) hinfo.station).trans hhost
  rw [if_congr (pressed_iff pin b) rfl rfl]
  split_ifs
  · unfold buttonCommand
    rw [if_pos hhost']
    exact (Issues.command hg _).after hinfo
  · exact hinfo

theorem scanEmergency_issues (pins : Pins) (s : Station) : Issues [] s (scanEmergency pins s) := by
  have hset : ∀ b t, Issues [] t (setEmergencyInfo b t) :=
    fun b t => Issues.of_keeps (setEmergencyInfo_keeps b t)
  have hstop : ∀ t, Issues [] t (speedCtrlProcess EMERGENCY_STOP t) := fun t =>
    have hspeed := speedCtrlProcess_keeps EMERGENCY_STOP t
    ⟨⟨[.speedCall EMERGENCY_STOP t.inFlight], speedCtrlProcess_trace _ t, rfl⟩,
      hspeed.same .canQueue (by decide), hspeed.localStation⟩
  unfold scanEmergency
  dsimp only
  split_ifs
  · exact (hstop _).after ((hset _ _).after ((hstop _).after (hset _ s)))
  · exact (hstop _).after ((hset _ _).after (hset _ s))
  · exact (hset _ _).after ((hstop _).after (hset _ s))
  · exact (hset _ _).after (hset _ s)
  · exact (hstop _).after (hset _ s)
  · exact hset _ s

/-- The blocks before those of the buttons leave their records alone. -/
theorem photos_buttons (pins : Pins) (s : Station) :
    ((List.range 5).foldl (scanPhoto pins) (scanReset pins s)).logic.bStartInfo =
        s.logic.bStartInfo ∧
      ((List.range 5).foldl (scanPhoto pins) (scanReset pins s)).logic.bStopInfo =
        s.logic.bStopInfo := by
  have hreset := scanReset_panel pins s
  have hstart : (scanReset pins s).panel.bStartInfo = s.logic.bStartInfo := by
    rw [hreset]
    split_ifs <;> rfl
  have hstop : (scanReset pins s).panel.bStopInfo = s.logic.bStopInfo := by
    rw [hreset]
    split_ifs <;> rfl
  generalize scanReset pins s = t at hstart hstop ⊢
  have hphotos := photos_panel pins t
  generalize (List.range 5).foldl (scanPhoto pins) t = u at hphotos ⊢
  exact ⟨(congrArg Panel.bStartInfo hphotos).trans hstart,
    (congrArg Panel.bStopInfo hphotos).trans hstop⟩

/-- **The tick on the host.**  The start and the stop button command the line when they are
confirmed pressed, and nothing else does but the emergency input. -/
theorem timeUpdate_issues (pins : Pins) {s : Station} (hhost : s.isHost = true) :
    Issues ((if pressed pins.bStartIn s.logic.bStartInfo then [2] else []) ++
      if pressed pins.bStopIn s.logic.bStopInfo then [0] else []) s (timeUpdate pins s) := by
  have hcount : Issues [] s (uartRecvTimeout (timeCounters s)) :=
    (Issues.of_keeps (uartRecvTimeout_keeps _)).after (Issues.of_keeps (timeCounters_keeps s))
  have hpanel : (uartRecvTimeout (timeCounters s)).panel = s.panel.countReset := by
    rw [uartRecvTimeout_panel, timeCounters_panel]
  have hstart : s.panel.countReset.bStartInfo = s.logic.bStartInfo := by
    unfold Panel.countReset
    split_ifs <;> rfl
  have hstop : s.panel.countReset.bStopInfo = s.logic.bStopInfo := by
    unfold Panel.countReset
    split_ifs <;> rfl
  unfold timeUpdate inputScanProc inputScanCommands
  dsimp only
  generalize uartRecvTimeout (timeCounters s) = t at hcount hpanel ⊢
  obtain ⟨hstart', hstop'⟩ := photos_buttons pins t
  have hphotos : Issues [] s ((List.range 5).foldl (scanPhoto pins) (scanReset pins t)) :=
    (Issues.of_keeps (photos_quiet pins _).keeps).after
      ((Issues.of_keeps (scanReset_quiet pins t).keeps).after hcount)
  generalize (List.range 5).foldl (scanPhoto pins) (scanReset pins t) = u
    at hphotos hstart' hstop' ⊢
  have hpressed : u.logic.bStartInfo = s.logic.bStartInfo ∧ u.logic.bStopInfo = s.logic.bStopInfo :=
    ⟨hstart'.trans ((congrArg Panel.bStartInfo hpanel).trans hstart),
      hstop'.trans ((congrArg Panel.bStopInfo hpanel).trans hstop)⟩
  have hhost' : ∀ {cmds v}, Issues cmds s v → v.isHost = true :=
    fun h => (congrArg (· == 1) h.station).trans hhost
  rw [← hpressed.1, ← hpressed.2]
  -- the two buttons, and the inputs behind them
  have hbegin : Issues (if pressed pins.bStartIn u.logic.bStartInfo then [2] else []) s
      (scanStart pins u) :=
    (scanButton_issues (by decide) setStartInfo setStartInfo_quiet pins.bStartIn u.logic.bStartInfo
      (hhost' hphotos)).after hphotos
  have hkept : (scanStart pins u).logic.bStopInfo = u.logic.bStopInfo :=
    congrArg Panel.bStopInfo (scanStart_panel pins u)
  generalize scanStart pins u = v at hbegin hkept ⊢
  have hend : Issues (if pressed pins.bStopIn v.logic.bStopInfo then [0] else []) v
      (scanStop pins v) :=
    scanButton_issues (by decide) setStopInfo setStopInfo_quiet pins.bStopIn v.logic.bStopInfo
      (hhost' hbegin)
  rw [hkept] at hend
  have hrest :
      Issues [] (scanStop pins v) (scanEmergency pins (scanStream pins (scanStop pins v))) :=
    (scanEmergency_issues pins _).after (Issues.of_keeps (scanStream_quiet pins _).keeps)
  have hall := hrest.after (hend.after hbegin)
  rwa [List.append_nil] at hall

/-- **Inputs follow their reference.**  In every run, the confirmed level of an input changes
to `v` in a step exactly when that step samples the input, the level was another and the last
`need v` samples are all `v`; the counter stays below the number that is needed.  On the host,
a tick runs and broadcasts the start and the stop command once for each of the two buttons
that it confirms pressed, and no other command. -/
theorem inputs_debounced {past : Past} {s : Station} (h : Trails (fun _ _ => True) past s)
    (i : Input) :
    (∀ c : InputPin,
      (c.record s).inputConfirmTimes.toNat ≤ c.need (!c.confirmed s) - 1 ∧
      ∀ v, (c.confirmed s ≠ v ∧ c.confirmed (step s i) = v) ↔
        c.sample (s, i) ≠ none ∧ c.confirmed s ≠ v ∧
          Steady (c.need v) v (c.samples ((s, i) :: past))) ∧
    (s.isHost = true → InputPin.start.sample (s, i) ≠ none →
      (gearsBetween s (step s i)).reverse.filter (· ≠ EMERGENCY_STOP) =
          buttonCommands s (step s i) ∧
        (step s i).can.canSendQueue = s.can.canSendQueue.addAll
          ((buttonCommands s (step s i)).map fun g => startFrameOf g s.main.localStation)) := by
  refine ⟨fun c => ?_, fun hhost htick => ?_⟩
  · have hfollows := trails_follows h c
    refine ⟨Nat.le_sub_one_of_lt hfollows.tracks.count_lt, fun v => ?_⟩
    rcases c.step_record s i with ⟨pins, rfl, hrun, -⟩ | ⟨hnone, hrecord⟩
    · have hafter : c.confirmed (step s (.timeUpdate pins)) =
          debounced c.need false (c.samples ((s, .timeUpdate pins) :: past)) :=
        (step_follows hfollows (.timeUpdate pins)).tracks.level_eq
      have hbefore : c.confirmed s = debounced c.need false (c.samples past) :=
        hfollows.tracks.level_eq
      have hsome : c.sample (s, .timeUpdate pins) ≠ none := by
        rw [c.sample_tick pins hrun]
        exact Option.some_ne_none _
      rw [and_iff_right hsome, hafter, hbefore, InputPin.samples_cons_tick c hrun]
      exact debounced_changes_iff (c.need_pos v)
    · have hsame : c.confirmed (step s i) = c.confirmed s := congrArg ButtonInfo.inputState hrecord
      rw [hsame]
      exact ⟨fun h => absurd h.2 h.1, fun h => absurd hnone h.1⟩
  · rcases InputPin.start.step_record s i with ⟨pins, rfl, hrun, hstart⟩ | ⟨hnone, -⟩
    · have hstop := InputPin.stop.record_tick pins hrun
      have hstep : step s (.timeUpdate pins) = timeUpdate pins s := if_neg (by simp [hrun])
      have hissues := hstep ▸ timeUpdate_issues pins hhost
      generalize step s (.timeUpdate pins) = t at hstart hstop hissues ⊢
      have hcommands : buttonCommands s t =
          (if pressed pins.bStartIn s.logic.bStartInfo then [2] else []) ++
            if pressed pins.bStopIn s.logic.bStopInfo then [0] else [] := by
        have hbegins : Rises .start s t ↔ pressed pins.bStartIn s.logic.bStartInfo := by
          unfold Rises InputPin.confirmed
          rw [hstart]
          exact Iff.rfl
        have hends : Rises .stop s t ↔ pressed pins.bStopIn s.logic.bStopInfo := by
          unfold Rises InputPin.confirmed
          rw [hstop]
          exact Iff.rfl
        unfold buttonCommands
        rw [if_congr hbegins rfl rfl, if_congr hends rfl rfl]
      obtain ⟨es, htrace, hes⟩ := hissues.calls
      rw [hcommands]
      exact ⟨by rw [gearsBetween_of_append htrace]; exact hes, hissues.queue⟩
    · exact absurd hnone htick

/-! The start button of a host, held. -/

/-- Only the start button is active. -/
def startPins : Pins :=
  { bResetIn := false
    bPhotoIn := fun _ => false
    bStartIn := true
    bStopIn := false
    bStreamIn := false
    bEmergencyIn := false }

def startHeld (n : Nat) : List Input := List.replicate n (.timeUpdate startPins)

/-- The samples of an input while the levels stay. -/
theorem InputPin.samples_held (c : InputPin) (pins : Pins) (n : Nat) {past : Past} {s : Station}
    (hrun : s.systemReset = false) :
    c.samples (passed step past s (List.replicate n (.timeUpdate pins))) =
      List.replicate n (c.level pins) ++ c.samples past := by
  induction n generalizing past s with
  | zero => rfl
  | succ n ih =>
      have hstep : step s (.timeUpdate pins) = timeUpdate pins s := if_neg (by simp [hrun])
      have hreset : (timeUpdate pins s).systemReset = s.systemReset :=
        (timeUpdate_touches pins s).keeps.same .systemReset Evident.out
      have hrun' : (step s (.timeUpdate pins)).systemReset = false := by rw [hstep, hreset, hrun]
      rw [List.replicate_succ, passed, ih hrun', samples_cons_tick c hrun, List.replicate_succ',
        List.append_assoc]
      rfl

/-- A host whose start button has been held for `n` ticks. -/
def heldFor (n : Nat) : Station := run step (boot zeroFlash 1) (startHeld n)

theorem heldFor_succ (n : Nat) : heldFor (n + 1) = step (heldFor n) (.timeUpdate startPins) := by
  unfold heldFor startHeld
  rw [List.replicate_succ', run_append]
  rfl

theorem heldFor_trail (n : Nat) :
    Trails (fun _ _ => True) (passed step [] (boot zeroFlash 1) (startHeld n)) (heldFor n) :=
  trail_run ⟨zeroFlash, 1, rfl⟩ (Along.of_forall (fun _ _ => trivial) _ _)

theorem heldFor_samples (n : Nat) :
    InputPin.start.samples (passed step [] (boot zeroFlash 1) (startHeld n)) =
      List.replicate n true :=
  (InputPin.start.samples_held startPins n rfl).trans (List.append_nil _)

/-- The host never moves. -/
theorem heldFor_station (n : Nat) :
    (heldFor n).isHost = true ∧ (heldFor n).systemReset = false := by
  induction n with
  | zero => exact ⟨rfl, rfl⟩
  | succ n ih =>
      have hstep : step (heldFor n) (.timeUpdate startPins) = timeUpdate startPins (heldFor n) :=
        if_neg (by simp [ih.2])
      have hkeeps := (timeUpdate_touches startPins (heldFor n)).keeps
      have hreset : (timeUpdate startPins (heldFor n)).systemReset = (heldFor n).systemReset :=
        hkeeps.same .systemReset Evident.out
      rw [heldFor_succ, hstep, hreset]
      exact ⟨(congrArg (· == 1) hkeeps.localStation).trans ih.1, ih.2⟩

/-- The hundred-and-first sample starts the line. -/
theorem held_start_starts :
    InputPin.start.confirmed (heldFor 100) = false ∧
      InputPin.start.confirmed (heldFor 101) = true ∧
      2 ∈ gearsBetween (heldFor 100) (heldFor 101) := by
  obtain ⟨hedges, hissues⟩ := inputs_debounced (heldFor_trail 100) (.timeUpdate startPins)
  obtain ⟨hhost, hrun⟩ := heldFor_station 100
  have hbefore : InputPin.start.confirmed (heldFor 100) = false := by
    refine (trails_follows (heldFor_trail 100) .start).tracks.level_eq.trans ?_
    rw [heldFor_samples]
    decide +kernel
  have hsample : InputPin.start.sample (heldFor 100, .timeUpdate startPins) ≠ none := by
    rw [InputPin.start.sample_tick startPins hrun]
    exact Option.some_ne_none _
  have hafter := ((hedges .start).2 true).mpr ⟨hsample, by simp [hbefore], by
    rw [InputPin.samples_cons_tick _ hrun, heldFor_samples]
    decide +kernel⟩
  obtain ⟨hgears, -⟩ := hissues hhost hsample
  rw [← heldFor_succ] at hafter hgears
  have hrises : Rises .start (heldFor 100) (heldFor 101) := ⟨hbefore, hafter.2⟩
  refine ⟨hbefore, hafter.2, ?_⟩
  have hmem : (2 : U8) ∈ buttonCommands (heldFor 100) (heldFor 101) := by
    unfold buttonCommands
    rw [if_pos hrises]
    exact List.mem_append_left _ (List.mem_singleton_self _)
  rw [← hgears] at hmem
  exact List.mem_reverse.mp (List.mem_of_mem_filter hmem)

end IotCtrl
