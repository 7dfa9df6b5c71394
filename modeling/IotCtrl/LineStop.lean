import IotCtrl.LineMoves

/-!
# Stopping the line

After a stop the line must not be told to run.  `NoRunAfterStop` says so of the
history of a run: no speed write with the run command is transmitted while the
latest line command is a stop.

A run command can wait in the UART queue, in `comm_node`, or be queued later by
the linkage and restart handlers.  A stop empties the queue and sets the gear to
0, which the handlers then follow, but it leaves `comm_node` alone.

* `LineInv` and the lemmas `LineInv.quiet`, `LineInv.aside`, … — what each kind
  of routine preserves;
* `no_run_after_stop` — runs in which every stop finds no run command in flight
  keep the property;
* `stop_leaves_run_in_flight` — one in which a stop does find one does not.
-/

namespace IotCtrl

open ByteMemory Transition ClosedFacts

/-! ## The property of a history -/

/-- A write of four registers from 0x7000 on, the first of which, the command, is
1. -/
def IsRunFrame (frame : List U8) : Prop :=
  (frame.drop 1).take 8 = [0x10, 0x70, 0x00, 0x00, 0x04, 0x08, 0x00, 0x01]

instance (frame : List U8) : Decidable (IsRunFrame frame) := inferInstanceAs (Decidable (_ = _))

/-- The latest line command is a stop. -/
def Stopped : List Event → Prop
  | [] => False
  | .speedCall g _ :: _ => IsStop g
  | _ :: t => Stopped t

/-- No run frame was transmitted while the latest line command was a stop.  The
history has its newest event first. -/
def NoRunAfterStop : List Event → Prop
  | [] => True
  | .modbusTx frame :: t => (IsRunFrame frame → ¬ Stopped t) ∧ NoRunAfterStop t
  | _ :: t => NoRunAfterStop t

instance Stopped.decidable : ∀ t, Decidable (Stopped t)
  | [] => isFalse id
  | .speedCall g _ :: _ => inferInstanceAs (Decidable (IsStop g))
  | .modbusTx _ :: t => Stopped.decidable t
  | .canDone _ _ _ :: t => Stopped.decidable t
  | .paraDone _ _ :: t => Stopped.decidable t
  | .replyBuilt _ :: t => Stopped.decidable t
  | .udpSent _ :: t => Stopped.decidable t

instance NoRunAfterStop.decidable : ∀ t, Decidable (NoRunAfterStop t)
  | [] => isTrue trivial
  | .speedCall _ _ :: t => NoRunAfterStop.decidable t
  | .modbusTx _ :: t => @instDecidableAnd _ _ _ (NoRunAfterStop.decidable t)
  | .canDone _ _ _ :: t => NoRunAfterStop.decidable t
  | .paraDone _ _ :: t => NoRunAfterStop.decidable t
  | .replyBuilt _ :: t => NoRunAfterStop.decidable t
  | .udpSent _ :: t => NoRunAfterStop.decidable t

/-- A stop was called while no run command was in flight. -/
def StopFindsNoRun : Event → Prop
  | .speedCall g inFlight => IsStop g → ∀ x ∈ inFlight, ¬ x.IsRun
  | _ => True

instance : DecidablePred StopFindsNoRun
  | .speedCall g n => inferInstanceAs (Decidable (IsStop g → ∀ x ∈ n, ¬ x.IsRun))
  | .modbusTx _ => isTrue trivial
  | .canDone _ _ _ => isTrue trivial
  | .paraDone _ _ => isTrue trivial
  | .replyBuilt _ => isTrue trivial
  | .udpSent _ => isTrue trivial

/-- An event that is neither a line command nor a transmission to an inverter. -/
def Event.Other : Event → Prop
  | .speedCall _ _ => False
  | .modbusTx _ => False
  | _ => True

theorem stopped_append {es t : List Event} (h : ∀ e ∈ es, e.Other) :
    Stopped (es ++ t) ↔ Stopped t := by
  induction es with
  | nil => rfl
  | cons e es ih =>
      have hes := ih fun e' he' => h e' (List.mem_cons_of_mem _ he')
      have he := h e List.mem_cons_self
      cases e with
      | speedCall g n => exact he.elim
      | modbusTx f => exact he.elim
      | _ => exact hes

theorem noRunAfterStop_append {es t : List Event} (h : ∀ e ∈ es, e.Other) :
    NoRunAfterStop (es ++ t) ↔ NoRunAfterStop t := by
  induction es with
  | nil => rfl
  | cons e es ih =>
      have hes := ih fun e' he' => h e' (List.mem_cons_of_mem _ he')
      have he := h e List.mem_cons_self
      cases e with
      | speedCall g n => exact he.elim
      | modbusTx f => exact he.elim
      | _ => exact hes

theorem Event.other_of_kind {e : Event} (h : e.kind ∈ asideKinds) : e.Other := by
  cases e with
  | speedCall g n => exact absurd h (by simp [Event.kind, asideKinds])
  | modbusTx f => exact absurd h (by simp [Event.kind, asideKinds])
  | _ => trivial

/-! ## The invariant -/

/-- Nothing that waits tells an inverter to run. -/
structure Halted (s : Station) : Prop where
  gear : s.logic.gSpeedGearStatus = 0
  queue : ∀ x ∈ s.uartNodes, ¬ x.IsRun
  flight : ∀ x ∈ s.inFlight, ¬ x.IsRun

/-- As long as every stop found no run command in flight, no run frame was sent
after a stop, and none can be while the line is stopped. -/
def LineInv (s : Station) : Prop :=
  (∀ e ∈ s.trace, StopFindsNoRun e) →
    NoRunAfterStop s.trace ∧ (Stopped s.trace → Halted s)

theorem CommNode.Follows.not_isRun {x : CommNode} (h : x.Follows 0) : ¬ x.IsRun := by
  rintro ⟨hrw, hgear⟩
  exact (h.gear hrw).elim hgear hgear

namespace LineInv

variable {s t : Station}

/-- A step that records nothing about the line and queues or keeps in flight only
commands that a stopped line may have. -/
theorem mono (h : LineInv s)
    (htrace : ∃ es, t.trace = es ++ s.trace ∧ ∀ e ∈ es, e.Other)
    (hhalt : Halted s → Halted t) : LineInv t := by
  obtain ⟨es, hes, hother⟩ := htrace
  intro hclean
  rw [hes] at hclean ⊢
  rw [noRunAfterStop_append hother, stopped_append hother]
  obtain ⟨hrun, hstop⟩ := h fun e he => hclean e (List.mem_append_right _ he)
  exact ⟨hrun, fun hs => hhalt (hstop hs)⟩

theorem quiet {ps : List Part} (h : LineInv s) (hq : QuietBut ps s t)
    [hgear : Evident (.gear ∉ ps)] [hnode : Evident (.node ∉ ps)]
    [htrace : Evident (.trace ∉ ps)] : LineInv t := by
  refine h.mono ⟨[], hq.keeps.trace, by simp⟩ fun hs => ?_
  refine ⟨hq.keeps.gear.trans hs.gear, ?_, ?_⟩
  · intro x hx
    rcases hq.mem_uartNodes hx with hx | hx
    · exact hs.queue x hx
    · exact (hs.gear ▸ hx.toFollows).not_isRun
  · rw [hq.keeps.inFlight]
    exact hs.flight

theorem aside (h : LineInv s) (ha : Aside s t) : LineInv t := by
  obtain ⟨es, hes, hkinds⟩ := ha.logs
  refine h.mono ⟨es, hes, fun e he => Event.other_of_kind (hkinds e he)⟩ fun hs => ?_
  refine ⟨ha.keeps.gear.trans hs.gear, ?_, ?_⟩
  · rw [ha.keeps.uartNodes]
    exact hs.queue
  · rw [ha.keeps.inFlight]
    exact hs.flight

theorem keeps {ps : List Part} (h : LineInv s) (hk : Keeps ps s t)
    [hsub : Evident (∀ p ∈ ps, p ∈ asideParts)] [hp : Evident (.trace ∉ ps)] :
    LineInv t :=
  h.aside (Touches.of_keeps hk)

/-- A change of the command in flight that does not turn it into a run command. -/
theorem flight (h : LineInv s) (hk : Keeps [.node, .uartState] s t)
    (hnode : ∀ x ∈ t.inFlight, x.IsRun → ∃ y ∈ s.inFlight, y.IsRun) : LineInv t := by
  refine h.mono ⟨[], hk.trace, by simp⟩ fun hs => ?_
  refine ⟨hk.gear.trans hs.gear, ?_, ?_⟩
  · rw [hk.uartNodes]
    exact hs.queue
  · intro x hx hrun
    obtain ⟨y, hy, hyrun⟩ := hnode x hx hrun
    exact hs.flight y hy hyrun

/-- A line command, be it a stop or not. -/
theorem speedCtrlProcess (h : LineInv s) (g : U8) : LineInv (speedCtrlProcess g s) := by
  intro hclean
  rw [speedCtrlProcess_trace] at hclean ⊢
  obtain ⟨hrun, -⟩ := h fun e he => hclean e (List.mem_cons_of_mem _ he)
  refine ⟨hrun, fun hstop => ?_⟩
  have hgear : commandedGear g = 0 := (commandedGear_eq_zero_iff g).mpr hstop
  refine ⟨by rw [speedCtrlProcess_gear, hgear], ?_, ?_⟩
  · intro x hx
    rcases speedCtrlProcess_mem_uartNodes hx with hx | hx
    · exact absurd hstop hx.2
    · have hfollows := hx.toFollows
      rw [speedCtrlProcess_gear, hgear] at hfollows
      exact hfollows.not_isRun
  · rw [speedCtrlProcess_inFlight]
    exact hclean _ List.mem_cons_self hstop

/-- A poll is not a run command. -/
theorem poll (h : LineInv s) (speedGear : U16) : LineInv (mainMsoneProcess speedGear s) := by
  have hk := (mainMsoneProcess_polls speedGear s).1
  refine h.mono ⟨[], hk.trace, by simp⟩ fun hs => ?_
  refine ⟨hk.gear.trans hs.gear, ?_, ?_⟩
  · intro x hx
    rcases mainMsoneProcess_mem_uartNodes hx with hx | ⟨num, -, rfl⟩
    · exact hs.queue x hx
    · exact pollNode_not_isRun num speedGear
  · rw [hk.inFlight]
    exact hs.flight

end LineInv

/-! ## The Modbus master -/

theorem inFlight_isRun_of_node {s t : Station}
    (hbusy : t.logic.commBusyFlag = s.logic.commBusyFlag)
    (hrw : t.logic.commNode.rwFlag = s.logic.commNode.rwFlag)
    (hgear : t.logic.commNode.speedGear = s.logic.commNode.speedGear) :
    ∀ x ∈ t.inFlight, x.IsRun → ∃ y ∈ s.inFlight, y.IsRun := by
  intro x hx hrun
  unfold Station.inFlight at hx ⊢
  rw [hbusy] at hx
  split_ifs at hx ⊢ with h
  · obtain rfl : t.logic.commNode = x := by simpa using hx
    refine ⟨_, rfl, ?_⟩
    rwa [CommNode.IsRun, hrw, hgear] at hrun
  · simp at hx

theorem uartRecvTimeout_lineInv {s : Station} (h : LineInv s) :
    LineInv (uartRecvTimeout s) := by
  obtain ⟨hbusy, interval, hnode⟩ := uartRecvTimeout_node s
  refine h.flight (uartRecvTimeout_keeps s) (inFlight_isRun_of_node hbusy ?_ ?_)
  all_goals rw [hnode]

/-- The next command comes from the queue. -/
theorem commTakeNode_lineInv {s : Station} (h : LineInv s) : LineInv (commTakeNode s) := by
  have hk := commTakeNode_keeps s
  refine h.mono ⟨[], hk.trace, by simp⟩ fun hs => ?_
  rcases commTakeNode_cases s with ⟨-, heq⟩ | ⟨x, hcontents, hflight, -⟩
  · rwa [heq]
  · refine ⟨hk.gear.trans hs.gear, fun y hy => hs.queue y ?_, fun y hy => ?_⟩
    · rw [hcontents]
      exact List.mem_cons_of_mem _ hy
    · have hhead := hs.queue x (hcontents ▸ List.mem_cons_self)
      obtain rfl : fixInterval x = y := Option.some.inj (hflight.symm.trans hy)
      obtain ⟨interval, hfix⟩ := fixInterval_eq x
      rwa [hfix]

theorem not_isRunFrame_read (no addr num : U16) : ¬ IsRunFrame (readRegFrame no addr num) := by
  simp [IsRunFrame, readRegFrame, withCrc]

/-- The command register of a speed write decides. -/
theorem isRunFrame_write {no addr command : U16} {data : List U16}
    (h : IsRunFrame (writeMultiRegFrame no addr (command :: data))) : command = 1 := by
  simp only [IsRunFrame, writeMultiRegFrame, withCrc, List.flatMap_cons, List.cons_append,
    List.nil_append, List.drop_succ_cons, List.drop_zero, List.take_succ_cons, List.cons.injEq]
    at h
  obtain ⟨-, -, -, -, -, -, hhi, hlo, -⟩ := h
  rw [← le16_lo_hi command, hhi, hlo]
  rfl

/-- Only a run command is sent as a run frame. -/
theorem commBuildFrame_isRun {stack : Table 4 U16} {s t : Station} {frame : List U8}
    (h : commBuildFrame stack s = some (frame, t)) (hrun : IsRunFrame frame) :
    s.logic.commNode.IsRun := by
  unfold commBuildFrame at h
  dsimp only at h
  split_ifs at h with hread hwrite hreset
  · obtain ⟨rfl, -⟩ := Prod.mk.inj (Option.some.inj h)
    exact absurd hrun (not_isRunFrame_read _ _ _)
  · obtain ⟨rfl, -⟩ := Prod.mk.inj (Option.some.inj h)
    refine ⟨hwrite, fun hgear => ?_⟩
    -- a stop writes command 5, whatever the emergency input says
    obtain ⟨data, hdata⟩ : ∃ data, speedWriteData stack s = 5 :: data := by
      unfold speedWriteData speedRegs
      simp only [hgear, if_true]
      split_ifs <;> exact ⟨_, rfl⟩
    rw [hdata] at hrun
    exact absurd (isRunFrame_write hrun) (by decide)
  · obtain ⟨rfl, -⟩ := Prod.mk.inj (Option.some.inj h)
    exact absurd (isRunFrame_write hrun) (by decide)

/-- A command is sent only while it is in flight. -/
theorem commSendRwComand_lineInv {stack : Table 4 U16} {s : Station} (h : LineInv s)
    (hbusy : s.logic.commBusyFlag = true) : LineInv (commSendRwComand stack s) := by
  cases hbuild : commBuildFrame stack s with
  | none =>
      rwa [commSendRwComand_of_none hbuild]
  | some p =>
      obtain ⟨frame, t⟩ := p
      have hk := commSendRwComand_keeps stack s
      have htrace := commSendRwComand_trace hbuild
      intro hclean
      rw [htrace] at hclean ⊢
      obtain ⟨hrun, hstop⟩ := h fun e he => hclean e (List.mem_cons_of_mem _ he)
      have hflight : s.inFlight = some s.logic.commNode := by
        rw [Station.inFlight, if_pos hbusy]
      refine ⟨⟨fun hf hs => ?_, hrun⟩, fun hs => ?_⟩
      · exact (hstop hs).flight _ hflight (commBuildFrame_isRun hbuild hf)
      · obtain ⟨hgear, hqueue, hnode⟩ := hstop hs
        refine ⟨hk.gear.trans hgear, ?_, ?_⟩
        · rwa [hk.uartNodes]
        · rwa [hk.inFlight]

/-! ## The system -/

theorem Move.lineInv {P : U8 → Prop} {s t : Station} (hm : Move P s t) (h : LineInv s) :
    LineInv t := by
  cases hm with
  | aside ha => exact h.aside ha
  | handler hq => exact h.quiet hq
  | poll speedGear _ => exact h.poll speedGear
  | command _ _ => exact h.speedCtrlProcess _
  | take _ => exact commTakeNode_lineInv h
  | send stack hbusy => exact commSendRwComand_lineInv h hbusy
  | retry _ _ =>
      exact h.flight (((setCommuState_keeps _ _).mono).after ((setCommNode_keeps _ _).mono))
        (inFlight_isRun_of_node rfl rfl rfl)
  | release _ =>
      exact h.flight ((setCommBusy_keeps _ _).mono) (by simp [Station.inFlight, setCommBusy])
  | tick _ => exact uartRecvTimeout_lineInv h

/-- **No run frame after a stop**, in every run in which each stop finds no run
command in flight. -/
theorem no_run_after_stop {s : Station} (h : Reachable (fun _ _ => True) s)
    (hclean : ∀ e ∈ s.trace, StopFindsNoRun e) : NoRunAfterStop s.trace := by
  have hboot : ∀ flash localStation, LineInv (boot flash localStation) := by
    intro flash localStation _
    rw [boot_trace]
    exact ⟨trivial, fun hs => hs.elim⟩
  have hinv : LineInv s := reachable_of_moves (fun _ _ _ _ _ => trivial)
    hboot (fun _ _ hm => hm.lineInv) h
  exact (hinv hclean).1

/-- A flash with one belt, which starts 1 ms after its turn. -/
def oneBeltFlash : Flash :=
  { userPara := fun k => if k = 2 then 1 else if k = 10 then 1 else 0
    userAppEnFlag := 0xFFFF }

/-- The same with a frequency for gear 2. -/
def speedFlash : Flash :=
  { userPara := fun k => if k = 2 then 1 else if k = 5 then 100 else if k = 10 then 1 else 0
    userAppEnFlag := 0xFFFF }

/-- Three belts with a frequency for gear 2; the belt `k` starts `k` milliseconds after its
turn. -/
def threeBeltFlash : Flash :=
  { userPara := fun k =>
      if k = 2 then 3
      else if k = 5 then 100 else if k = 16 then 200 else if k = 27 then 300
      else if k = 10 then 1 else if k = 21 then 2 else if k = 32 then 3 else 0
    userAppEnFlag := 0xFFFF }

/-- No input is active. -/
def noInput : Pins :=
  { bResetIn := false
    bPhotoIn := fun _ => false
    bStartIn := false
    bStopIn := false
    bStreamIn := false
    bEmergencyIn := false }

/-- A start that is stopped before the main loop takes its command, and the 15 ms
after which the stop is sent. -/
def earlyStop : List Input :=
  [.canFrame (startFrame 2), .canFrame (startFrame 0), .modbusComm (fun _ => 0)]
    ++ List.replicate 15 (.timeUpdate noInput) ++ [.modbusComm (fun _ => 0)]

/-- The run command of `earlyStop` is never sent. -/
theorem no_run_after_early_stop :
    NoRunAfterStop (run step (boot oneBeltFlash 2) earlyStop).trace := by
  have hreach : Reachable (fun _ _ => True) (run step (boot oneBeltFlash 2) earlyStop) :=
    reach_run ⟨_, _, rfl⟩ (Along.of_forall (fun _ _ => trivial) _ _)
  have hclean : ∀ e ∈ (run step (boot oneBeltFlash 2) earlyStop).trace, StopFindsNoRun e := by
    decide +kernel
  generalize run step (boot oneBeltFlash 2) earlyStop = s at hreach hclean ⊢
  exact no_run_after_stop hreach hclean

/-- Slave 2 with one belt and a start delay of 1 ms: a start, the main loop takes
the run command, a stop, and the run command is sent. -/
theorem stop_leaves_run_in_flight :
    ¬ ∀ s, Reachable (fun _ _ => True) s → NoRunAfterStop s.trace := by
  intro h
  have hreach : Reachable (fun _ _ => True)
      (run step (boot oneBeltFlash 2)
        [.canFrame (startFrame 2), .modbusComm (fun _ => 0), .canFrame (startFrame 0),
          .timeUpdate noInput, .modbusComm (fun _ => 0)]) :=
    reach_run ⟨_, _, rfl⟩ (Along.of_forall (fun _ _ => trivial) _ _)
  exact absurd (h _ hreach) (by decide +kernel)

end IotCtrl
