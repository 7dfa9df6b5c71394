import IotCtrl.LineInvariants

/-!
# The registers of a speed write

`comm_send_rw_comand` fills the local `write_data` along a chain of gear cases without a
default, and the range check in `Speed_Ctrl_Process` is commented out.  A speed write is
therefore made up of assigned registers only as long as its gear is one of the cases.

* `GearRange` — gears 0 to 6 in force, in the queue and in flight;
* `speed_writes_assigned` — runs whose start messages carry such a gear, or the emergency
  stop, send assigned registers only;
* `undefined_gear_sent` — a start message with gear 7.
-/

namespace IotCtrl

open ByteMemory Transition ClosedFacts

/-! ## What a speed write should carry -/

/-- The frequencies configured for a belt. -/
def BeltParas.freqs (b : BeltParas) : List U16 :=
  [b.gear1SpeedFreq, b.gear2SpeedFreq, b.gear3SpeedFreq, b.gear4SpeedFreq, b.gear5SpeedFreq,
    b.sleepModeSpeedFreq]

/-- A frequency of the belt of the command in flight, or its entry of the stop-speed
table. -/
def KnownFreq (s : Station) (freq : U16) : Prop :=
  freq ∈ (commBelt s).freqs ∨
    freq = s.modbus.stopspeedDefault.get (s.logic.commNode.inverterNo.toNat - 1)

/-- The write for the command in flight: command 1 or 5, a known frequency in one speed
register and 0 in the other, and the belt's speed switch. -/
def AssignedWrite (s : Station) (frame : List U8) : Prop :=
  ∃ command freq : U16, (command = 1 ∨ command = 5) ∧ KnownFreq s freq ∧
    frame = writeMultiRegFrame s.logic.commNode.inverterNo 0x7000
      (speedRegs (commBelt s) command freq ++ [(commBelt s).funcSelectSwitch &&& 0x1])

/-- A gear with a meaning: standstill, five speeds, sleep, and the emergency stop. -/
def DefinedGear (g : U8) : Prop := g.toNat ≤ 6 ∨ g = EMERGENCY_STOP

instance : DecidablePred DefinedGear := fun _ => inferInstanceAs (Decidable (_ ∨ _))

/-- A start message that the input completes carries a gear with a meaning. -/
def StartsDefined (s : Station) (i : Input) : Prop := ∀ g ∈ startCommand s i, DefinedGear g

instance (s : Station) (i : Input) : Decidable (StartsDefined s i) :=
  inferInstanceAs (Decidable (∀ g ∈ startCommand s i, DefinedGear g))

/-! ## The gears of a run -/

/-- The sender has a case for the gear of a speed write. -/
def CommNode.GearKnown (x : CommNode) : Prop := x.rwFlag = 1 → x.speedGear.toNat ≤ 6

/-- Gears in force, in the queue and in flight. -/
structure GearRange (s : Station) : Prop where
  gear : s.logic.gSpeedGearStatus.toNat ≤ 6
  queue : ∀ x ∈ s.uartNodes, x.GearKnown
  flight : ∀ x ∈ s.inFlight, x.GearKnown

theorem commandedGear_toNat_le {g : U8} (h : DefinedGear g) : (commandedGear g).toNat ≤ 6 := by
  unfold commandedGear
  split_ifs with hem
  · decide
  · exact h.resolve_right hem

theorem Station.Queues.gearKnown {s : Station} {x : CommNode} (h : s.Queues x)
    (hgear : s.logic.gSpeedGearStatus.toNat ≤ 6) : x.GearKnown := by
  intro hrw
  rcases h.gear hrw with hzero | hforce
  · simp [hzero]
  · rw [hforce, BitVec.toNat_setWidth_of_le (by decide)]
    exact hgear

theorem pollNode_gearKnown (num : U8) (speedGear : U16) : (pollNode num speedGear).GearKnown := by
  intro hrw
  have hread : (0 : U16) = 1 := hrw
  exact absurd hread (by decide)

namespace GearRange

variable {s t : Station}

/-- A routine beside the gear and the command in flight. -/
theorem of_same (h : GearRange s) {ps : List Part} (hk : Keeps ps s t)
    (hqueue : ∀ x ∈ t.uartNodes, x.GearKnown) [hgear : Evident (.gear ∉ ps)]
    [hnode : Evident (.node ∉ ps)] : GearRange t := by
  refine ⟨?_, hqueue, ?_⟩
  · rw [hk.gear]
    exact h.gear
  · rw [hk.inFlight]
    exact h.flight

/-- A change of the command in flight that keeps its kind and gear, or drops it. -/
theorem of_flight (h : GearRange s) (hk : Keeps [.node, .uartState] s t)
    (hflight : ∀ x ∈ t.inFlight, ∃ y ∈ s.inFlight,
      x.rwFlag = y.rwFlag ∧ x.speedGear = y.speedGear) :
    GearRange t := by
  refine ⟨?_, ?_, ?_⟩
  · rw [hk.gear]
    exact h.gear
  · rw [hk.uartNodes]
    exact h.queue
  · intro x hx hrw
    obtain ⟨y, hy, hkind, hgear⟩ := hflight x hx
    rw [hgear]
    exact h.flight y hy (hkind ▸ hrw)

theorem speedCtrlProcess (h : GearRange s) {g : U8} (hg : DefinedGear g) :
    GearRange (speedCtrlProcess g s) := by
  have hgear : (IotCtrl.speedCtrlProcess g s).logic.gSpeedGearStatus.toNat ≤ 6 := by
    rw [speedCtrlProcess_gear]
    exact commandedGear_toNat_le hg
  refine ⟨hgear, fun x hx => ?_, ?_⟩
  · rcases speedCtrlProcess_mem_uartNodes hx with ⟨hold, -⟩ | hqueue
    · exact h.queue x hold
    · exact hqueue.gearKnown hgear
  · rw [speedCtrlProcess_inFlight]
    exact h.flight

theorem commTakeNode (h : GearRange s) : GearRange (commTakeNode s) := by
  have hk := commTakeNode_keeps s
  rcases commTakeNode_cases s with ⟨-, heq⟩ | ⟨x, hcontents, hflight, -⟩
  · rwa [heq]
  · refine ⟨hk.gear ▸ h.gear, fun y hy => h.queue y ?_, fun y hy => ?_⟩
    · rw [hcontents]
      exact List.mem_cons_of_mem _ hy
    · have hhead := h.queue x (hcontents ▸ List.mem_cons_self)
      obtain rfl : fixInterval x = y := Option.some.inj (hflight.symm.trans hy)
      obtain ⟨interval, hfix⟩ := fixInterval_eq x
      rwa [hfix]

end GearRange

/-- The command in flight with another waiting time or number of retries. -/
theorem inFlight_same_kind {s t : Station} (hbusy : t.logic.commBusyFlag = s.logic.commBusyFlag)
    (hrw : t.logic.commNode.rwFlag = s.logic.commNode.rwFlag)
    (hgear : t.logic.commNode.speedGear = s.logic.commNode.speedGear) :
    ∀ x ∈ t.inFlight, ∃ y ∈ s.inFlight, x.rwFlag = y.rwFlag ∧ x.speedGear = y.speedGear := by
  intro x hx
  unfold Station.inFlight at hx ⊢
  rw [hbusy] at hx
  split_ifs at hx ⊢ with hb
  · obtain rfl : t.logic.commNode = x := Option.some.inj hx
    exact ⟨_, rfl, hrw, hgear⟩
  · exact absurd hx (by simp)

theorem Move.gearRange {s t : Station} (hm : Move DefinedGear s t) (h : GearRange s) :
    GearRange t := by
  cases hm with
  | aside ha => exact h.of_same ha.keeps (ha.keeps.uartNodes ▸ h.queue)
  | handler hq =>
      refine h.of_same hq.keeps fun x hx => ?_
      exact (hq.mem_uartNodes hx).elim (h.queue x) fun hqueue => hqueue.gearKnown h.gear
  | poll speedGear _ =>
      refine h.of_same (mainMsoneProcess_polls speedGear s).1 fun x hx => ?_
      rcases mainMsoneProcess_mem_uartNodes hx with hold | ⟨num, -, rfl⟩
      · exact h.queue x hold
      · exact pollNode_gearKnown num speedGear
  | command hg _ => exact h.speedCtrlProcess hg
  | take _ => exact h.commTakeNode
  | send stack _ =>
      have hk := commSendRwComand_keeps stack s
      exact h.of_same hk (hk.uartNodes ▸ h.queue)
  | retry _ _ => exact h.of_flight (retry_keeps s) (inFlight_same_kind rfl rfl rfl)
  | release _ =>
      refine h.of_flight ((setCommBusy_keeps _ _).mono) ?_
      simp [Station.inFlight, setCommBusy]
  | tick _ =>
      obtain ⟨hbusy, interval, hnode⟩ := uartRecvTimeout_node s
      refine h.of_flight (uartRecvTimeout_keeps s) (inFlight_same_kind hbusy ?_ ?_)
      all_goals rw [hnode]

theorem boot_gearRange (flash : Flash) (localStation : U8) :
    GearRange (boot flash localStation) := by
  have hk := boot_keeps flash localStation
  have hg : (boot flash localStation).logic.gSpeedGearStatus = 0 := hk.gear
  have hf : (boot flash localStation).inFlight = none := hk.inFlight
  refine ⟨?_, ?_, ?_⟩
  · simp [hg]
  · simp
  · simp [hf]

theorem commandedBy_defined {s : Station} {i : Input} (h : StartsDefined s i) {g : U8}
    (hg : CommandedBy s i g) : DefinedGear g := by
  rcases hg with rfl | rfl | rfl | hmsg
  · decide
  · decide
  · decide
  · exact h g hmsg

theorem reachable_gearRange {s : Station} (h : Reachable StartsDefined s) : GearRange s :=
  reachable_of_moves (fun _ _ hok _ hg => commandedBy_defined hok hg) boot_gearRange
    (fun _ _ hm => hm.gearRange) h

/-! ## The registers -/

theorem gearFreq_known {b : BeltParas} {gear : U16} (hpos : gear ≠ 0) (hle : gear.toNat ≤ 6) :
    ∃ freq ∈ b.freqs, gearFreq b gear = some freq := by
  have hcases : gear = 1 ∨ gear = 2 ∨ gear = 3 ∨ gear = 4 ∨ gear = 5 ∨ gear = 6 := by bv_omega
  rcases hcases with rfl | rfl | rfl | rfl | rfl | rfl
  all_goals exact ⟨_, by simp [BeltParas.freqs], rfl⟩

/-- With a known gear the unassigned locals do not show. -/
theorem speedWriteData_assigned (stack : Table 4 U16) {s : Station}
    (h : s.logic.commNode.speedGear.toNat ≤ 6) :
    ∃ command freq : U16, (command = 1 ∨ command = 5) ∧ KnownFreq s freq ∧
      speedWriteData stack s = speedRegs (commBelt s) command freq := by
  by_cases hem : s.logic.bEmergencyInfo.inputState = true
  · exact ⟨5, _, Or.inr rfl, Or.inr rfl, if_pos hem⟩
  by_cases hzero : s.logic.commNode.speedGear = 0
  · exact ⟨5, _, Or.inr rfl, Or.inr rfl, (if_neg hem).trans (if_pos hzero)⟩
  · obtain ⟨freq, hmem, hfreq⟩ := @gearFreq_known (commBelt s) _ hzero h
    refine ⟨1, freq, Or.inl rfl, Or.inl hmem, (if_neg hem).trans ((if_neg hzero).trans ?_)⟩
    unfold commBelt at hfreq ⊢
    rw [hfreq]

/-- **Only assigned registers are sent**, in every run whose start messages carry a gear
with a meaning. -/
theorem speed_writes_assigned {s : Station} (h : Reachable StartsDefined s) {stack : Table 4 U16}
    {frame : List U8} (hwrite : s.logic.commNode.rwFlag = 1)
    (hsent : (step s (.modbusComm stack)).trace = .modbusTx frame :: s.trace) :
    AssignedWrite s frame := by
  have hother : ∀ t : Station, t.trace = s.trace → t.trace ≠ .modbusTx frame :: s.trace := by
    intro t ht hsent
    exact absurd (congrArg List.length (ht.symm.trans hsent)) (by simp)
  by_cases hreset : s.systemReset = true
  · exact absurd hsent (hother _ (by rw [show step s (.modbusComm stack) = s from if_pos hreset]))
  have hstep : step s (.modbusComm stack) = modbusRtuCommProcess stack s := if_neg hreset
  rw [hstep] at hsent
  unfold modbusRtuCommProcess at hsent
  split_ifs at hsent with hidle hready hend
  · exact absurd hsent (hother _ (commTakeNode_keeps s).trace)
  · have hbusy : s.logic.commBusyFlag = true := by simpa using hidle
    have hflight : s.inFlight = some s.logic.commNode := if_pos hbusy
    have hgear := (reachable_gearRange h).flight _ hflight hwrite
    obtain ⟨command, freq, hcommand, hfreq, hdata⟩ := speedWriteData_assigned stack hgear
    have hread : s.logic.commNode.rwFlag ≠ 0 := by rw [hwrite]; decide
    have hbuild : commBuildFrame stack s =
        some (writeMultiRegFrame s.logic.commNode.inverterNo 0x7000
          (speedWriteData stack s ++ [(commBelt s).funcSelectSwitch &&& 0x1]),
          rememberStopSpeed s) := (if_neg hread).trans (if_pos hwrite)
    have htrace := (commSendRwComand_trace hbuild).symm.trans hsent
    rw [hdata] at htrace
    have hframe := (List.cons.inj htrace).1
    exact ⟨command, freq, hcommand, hfreq, (Event.modbusTx.inj hframe).symm⟩
  · have hbusy : s.logic.commBusyFlag = true := by simpa using hidle
    exact absurd hsent (hother _ (commJudge_keeps hbusy).trace)
  · exact absurd hsent (hother _ rfl)

/-- The station with one belt, told to start with a gear, up to the moment its write is
sent. -/
def startedWith (gear : U8) : Station :=
  run step (boot speedFlash 2)
    [.canFrame (startFrame gear), .modbusComm (fun _ => 0), .timeUpdate noInput]

/-- Gear 2 is sent as command 1 with its frequency. -/
theorem gear_two_assigned :
    AssignedWrite (startedWith 2) (writeMultiRegFrame 1 0x7000 [1, 0, 100, 0]) := by
  have hreach : Reachable StartsDefined (startedWith 2) :=
    reach_run ⟨_, _, rfl⟩ (by decide +kernel)
  have hwrite : (startedWith 2).logic.commNode.rwFlag = 1 := by decide +kernel
  have hsent : (step (startedWith 2) (.modbusComm fun _ => 0)).trace =
      .modbusTx (writeMultiRegFrame 1 0x7000 [1, 0, 100, 0]) :: (startedWith 2).trace := by
    decide +kernel
  generalize startedWith 2 = s at hreach hwrite hsent ⊢
  exact speed_writes_assigned hreach hwrite hsent

/-- The command register of a write is its ninth byte. -/
theorem writeMultiRegFrame_command (no addr command : U16) (data : List U16) :
    (writeMultiRegFrame no addr (command :: data))[8]? = some (lo command) := by
  simp [writeMultiRegFrame, withCrc]

/-- Gear 7 is sent as whatever the local array held, here four nines. -/
theorem undefined_gear_sent :
    ¬ ∀ (s : Station), Reachable (fun _ _ => True) s → ∀ (stack : Table 4 U16) (frame : List U8),
      s.logic.commNode.rwFlag = 1 →
        (step s (.modbusComm stack)).trace = .modbusTx frame :: s.trace →
          AssignedWrite s frame := by
  intro h
  have hreach : Reachable (fun _ _ => True) (startedWith 7) :=
    reach_run ⟨_, _, rfl⟩ (Along.of_forall (fun _ _ => trivial) _ _)
  have hwrite : (startedWith 7).logic.commNode.rwFlag = 1 := by decide +kernel
  have hsent : (step (startedWith 7) (.modbusComm fun _ => 9)).trace =
      .modbusTx (writeMultiRegFrame 1 0x7000 [9, 9, 9, 0]) :: (startedWith 7).trace := by
    decide +kernel
  obtain ⟨command, freq, hcommand, -, hframe⟩ := h _ hreach _ _ hwrite hsent
  have hsent9 := writeMultiRegFrame_command 1 0x7000 9 [9, 9, 0]
  have hregs : ∃ data, speedRegs (commBelt (startedWith 7)) command freq ++
      [(commBelt (startedWith 7)).funcSelectSwitch &&& 0x1] = command :: data := by
    unfold speedRegs
    split_ifs <;> exact ⟨_, rfl⟩
  obtain ⟨data, hdata⟩ := hregs
  rw [hframe, hdata, writeMultiRegFrame_command] at hsent9
  have hlo := Option.some.inj hsent9
  rcases hcommand with rfl | rfl
  · exact absurd hlo (by decide)
  · exact absurd hlo (by decide)

end IotCtrl
