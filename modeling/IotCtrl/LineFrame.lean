import IotCtrl.Footprint

/-!
# What the line handlers leave alone

Most of the controller's routines only queue inverter commands and update the
recorded inverter state and the outputs.  `Quiet` says what such a routine keeps:
every `Part` but the UART queue, and that queue up to appended commands that
follow the gear in force and address a belt there is.  The lemmas go through the
routines one by one, so that an invariant over runs is proved from `Quiet` and the few
routines that are not.

* `QuietBut.refl`, `QuietBut.trans`, `QuietBut.foldl` — sequences and loops;
* `Station.Queues` — what a queued command can be;
* `mainUploadRunState_quiet`, `resetCtrlHandle_quiet`, … — the routines.
-/

namespace IotCtrl

open ByteMemory Transition ClosedFacts

/-- A command of a known kind; a speed write stops or carries the gear in force. -/
structure CommNode.Follows (speedGear : U8) (x : CommNode) : Prop where
  rwFlag_le : x.rwFlag ≤ 2
  gear : x.rwFlag = 1 → x.speedGear = 0 ∨ x.speedGear = speedGear.setWidth 16

/-- The belts a line handler addresses: those of the station, those with a photo sensor
and those above the belt of the command in flight. -/
def Station.Addresses (s : Station) (no : Nat) : Prop :=
  0 < no ∧ (no ≤ s.beltNumber ∨ no ≤ 5 ∨ ∃ x ∈ s.inFlight, no < x.inverterNo.toNat)

/-- What a line handler queues. -/
structure Station.Queues (s : Station) (x : CommNode) : Prop
    extends x.Follows s.logic.gSpeedGearStatus where
  belt : s.Addresses x.inverterNo.toNat
  retry : x.commRetry.toNat ≤ 3

/-- A line handler took `s` to `s'` and touched the parts `ps`. -/
structure QuietBut (ps : List Part) (s s' : Station) : Prop where
  keeps : Keeps ps s s'
  queue : ∃ xs, s'.logic.uartSendQueue = s.logic.uartSendQueue.addAll xs ∧ ∀ x ∈ xs, s.Queues x

/-- A line handler that touched the UART queue only. -/
abbrev Quiet : Station → Station → Prop := QuietBut [.uartQueue]

/-- The parts that decide what may be queued. -/
@[reducible] def queueingParts : List Part := [.gear, .paras, .node]

/-- How many belts there are is part of the parameters. -/
theorem Keeps.beltNumber {ps : List Part} {s t : Station} (h : Keeps ps s t)
    [hp : Evident (.paras ∉ ps)] : t.beltNumber = s.beltNumber :=
  congrArg (fun p : LocalParas => p.beltNumber.toNat) (h.same .paras hp.out)

/-- What may be queued in a later state may be queued in an earlier one, as long as the gear, the
parameters and the command in flight stay. -/
theorem Station.Queues.of_keeps {ps : List Part} {s t : Station} {x : CommNode}
    (hx : t.Queues x) (h : Keeps ps s t) (hps : ∀ p ∈ queueingParts, p ∉ ps) : s.Queues x := by
  have : Evident (.gear ∉ ps) := ⟨hps _ (by decide)⟩
  have : Evident (.paras ∉ ps) := ⟨hps _ (by decide)⟩
  have : Evident (.node ∉ ps) := ⟨hps _ (by decide)⟩
  have hgear := h.gear
  have hbelt := h.beltNumber
  have hflight := h.inFlight
  obtain ⟨hfollows, haddr, hretry⟩ := hx
  refine ⟨hgear ▸ hfollows, ?_, hretry⟩
  unfold Station.Addresses at haddr ⊢
  rwa [hbelt, hflight] at haddr

namespace QuietBut

variable {ps qs : List Part} {s t u : Station}

theorem refl (s : Station) : QuietBut ps s s := ⟨Keeps.refl s, [], rfl, by simp⟩

/-- Two handlers in a row queue what either of them queues. -/
theorem trans (h : QuietBut ps s t) (h' : QuietBut ps t u)
    [hps : Evident (∀ p ∈ queueingParts, p ∉ ps)] : QuietBut ps s u := by
  obtain ⟨xs, hxs, hfx⟩ := h.queue
  obtain ⟨ys, hys, hfy⟩ := h'.queue
  refine ⟨h.keeps.trans h'.keeps, xs ++ ys, ?_, ?_⟩
  · rw [hys, hxs, RingFifo.addAll_append]
  · intro x hx
    rcases List.mem_append.mp hx with hx | hx
    · exact hfx x hx
    · exact (hfy x hx).of_keeps h.keeps hps.out

/-- `trans` with the later half first, which fixes the state in between. -/
theorem after (h' : QuietBut ps t u) (h : QuietBut ps s t)
    [hps : Evident (∀ p ∈ queueingParts, p ∉ ps)] : QuietBut ps s u := trans h h'

/-- Fewer parts touched than listed. -/
theorem mono (h : QuietBut ps s t) [hsub : Evident (∀ p ∈ ps, p ∈ qs)] : QuietBut qs s t :=
  ⟨h.keeps.mono, h.queue⟩

/-- A routine that does not touch the UART queue. -/
theorem of_keeps (h : Keeps ps s t) [hsub : Evident (∀ p ∈ ps, p ∈ qs)]
    [hp : Evident (.uartQueue ∉ ps)] : QuietBut qs s t :=
  ⟨h.mono, [], h.same .uartQueue hp.out, by simp⟩

/-- An update outside all parts. -/
theorem of_same (hstation : t.main.localStation = s.main.localStation)
    (hsame : ∀ p : Part, p.Same s t) : QuietBut ps s t :=
  ⟨⟨hstation, fun p _ => hsame p⟩, [], hsame .uartQueue, by simp⟩

/-- A loop, whose body may rely on the states it meets. -/
theorem foldl {ι : Type} {f : Station → ι → Station} (xs : List ι) (s : Station)
    (hf : ∀ t, Quiet s t → ∀ i ∈ xs, Quiet t (f t i)) : Quiet s (xs.foldl f s) :=
  foldl_inv xs s (refl s) fun i hi t ht => trans ht (hf t ht i hi)

/-- A command in the queue afterwards was there before or is one of the new ones. -/
theorem mem_uartNodes (h : QuietBut ps s t) {x : CommNode} (hx : x ∈ t.uartNodes) :
    x ∈ s.uartNodes ∨ s.Queues x := by
  obtain ⟨xs, hxs, hf⟩ := h.queue
  rw [Station.uartNodes, hxs, RingFifo.contents_addAll] at hx
  rcases List.mem_append.mp hx with hx | hx
  · exact Or.inl hx
  · exact Or.inr (hf x (List.mem_of_mem_take hx))

end QuietBut

/-! ## Queueing one command -/

/-- Queueing one command that may be queued. -/
theorem addUartSendData2Queue_quiet {x : CommNode} {s : Station} (hx : s.Queues x) :
    Quiet s (addUartSendData2Queue x s) :=
  ⟨⟨rfl, fun p hp => by cases p <;> first | rfl | simp at hp⟩, [x], rfl, by simpa using hx⟩

/-- A station may address its own belts. -/
theorem Station.addresses_own {s : Station} {i : Nat} (h : i < s.beltNumber) :
    s.Addresses (i + 1) :=
  ⟨Nat.succ_pos i, Or.inl h⟩

/-- A belt number survives the half-word it is queued in. -/
theorem Station.Addresses.ofNat {s : Station} {no : Nat} (h : s.Addresses no) :
    s.Addresses (BitVec.ofNat 16 no).toNat := by
  have hn := s.beltNumber_le
  have hlt : no < 2 ^ 16 := by
    obtain ⟨-, h | h | ⟨x, -, h⟩⟩ := h <;> omega
  rwa [BitVec.toNat_ofNat, Nat.mod_eq_of_lt hlt]

/-- A speed write for belt `no`, of gear 0 or the gear in force. -/
theorem speedNode_queues {s : Station} {no : Nat} {gear interval : U16} (h : s.Addresses no)
    (hgear : gear = 0 ∨ gear = s.logic.gSpeedGearStatus.setWidth 16) :
    s.Queues (speedNode no gear interval) :=
  ⟨⟨by simp [speedNode], fun _ => hgear⟩, h.ofNat, by simp [speedNode]⟩

/-- A new record is read back, if there is a slot for it. -/
theorem inverter_setInverter (s : Station) (i k : Nat) (v : InverterStatus) :
    (s.setInverter i v).inverter k = if k = i ∧ i < 10 then v else s.inverter k := by
  show (s.logic.inverterStatusBuffer.set i v).get k = _
  split_ifs with h
  · obtain ⟨rfl, hlt⟩ := h
    exact Table.get_set_self _ hlt v
  · by_cases hk : k = i
    · subst hk
      have hge : ¬ k < 10 := fun hlt => h ⟨rfl, hlt⟩
      unfold Station.inverter Table.get
      rw [dif_neg hge, dif_neg hge]
    · exact Table.get_set_ne _ hk v

/-- A new record for inverter `i`, whose faults and running state may differ. -/
theorem setInverter_keeps (i : Nat) (v : InverterStatus) (s : Station) :
    Keeps [.commFault, .runBits] s (s.setInverter i v) :=
  ⟨rfl, fun p hp => by cases p <;> first | rfl | simp at hp⟩

/-- A record with the old running state. -/
theorem setInverter_runBit {i : Nat} {v : InverterStatus} {s : Station}
    (h : v.faultCode.getLsbD 4 = (s.inverter i).faultCode.getLsbD 4) :
    (s.setInverter i v).runBit = s.runBit := by
  funext k
  unfold Station.runBit
  rw [inverter_setInverter]
  split_ifs with hk
  · rw [h, hk.1]
  · rfl

/-- A record with the old RS-485 fault. -/
theorem setInverter_commFault {i : Nat} {v : InverterStatus} {s : Station}
    (h : v.faultCode.getLsbD 0 = (s.inverter i).faultCode.getLsbD 0) :
    (s.setInverter i v).commFault = s.commFault := by
  funext k
  unfold Station.commFault
  rw [inverter_setInverter]
  split_ifs with hk
  · rw [h, hk.1]
  · rfl

/-- A new record that differs in other bits only, such as the jam bit. -/
theorem setInverter_quiet {i : Nat} {v : InverterStatus} {s : Station}
    (hfault : v.faultCode.getLsbD 0 = (s.inverter i).faultCode.getLsbD 0)
    (hrun : v.faultCode.getLsbD 4 = (s.inverter i).faultCode.getLsbD 4) :
    Quiet s (s.setInverter i v) := by
  refine QuietBut.of_same rfl fun p => ?_
  cases p with
  | commFault => exact setInverter_commFault hfault
  | runBits => exact setInverter_runBit hrun
  | _ => rfl

/-! ## Linkage -/

/-- A photo sensor stops its own belt, whose number is at most 5. -/
theorem linkageStopPhotoCtrlHandle_quiet {k : Nat} (hk : k < 5) (s : Station) :
    Quiet s (linkageStopPhotoCtrlHandle k s) := by
  have haddr : s.Addresses (k + 1) := ⟨Nat.succ_pos k, Or.inr (Or.inl hk)⟩
  unfold linkageStopPhotoCtrlHandle
  dsimp only
  split_ifs
  all_goals first
    | exact QuietBut.refl s
    | exact addUartSendData2Queue_quiet (speedNode_queues haddr (Or.inl rfl))

/-- Linkage starts a belt at the gear in force. -/
theorem linkageStart_quiet {i : Nat} {s : Station} (h : s.Addresses (i + 1)) :
    Quiet s (linkageStart i s) := by
  unfold linkageStart
  split_ifs
  · exact addUartSendData2Queue_quiet (speedNode_queues h (Or.inr rfl))
  · exact QuietBut.refl s

/-- Linkage stops a belt. -/
theorem linkageStop_quiet {i : Nat} {s : Station} (h : s.Addresses (i + 1)) :
    Quiet s (linkageStop i s) := by
  unfold linkageStop
  split_ifs
  · exact addUartSendData2Queue_quiet (speedNode_queues h (Or.inl rfl))
  · exact QuietBut.refl s

/-- The index is used only if the station has a belt. -/
theorem linkageStreamExtraSignal_quiet {i : Nat} (startFlag : Bool) {s : Station}
    (h : s.beltNumber ≠ 0 → s.Addresses (i + 1)) :
    Quiet s (linkageStreamExtraSignal i startFlag s) := by
  by_cases hany : (List.range s.beltNumber).any
      (fun i => bitAt (s.belt i).funcSelectSwitch 4 ≠ 0) = true
  · have haddr : s.Addresses (i + 1) := by
      refine h fun hzero => ?_
      simp [hzero] at hany
    unfold linkageStreamExtraSignal
    split_ifs
    · exact linkageStart_quiet haddr
    · exact linkageStop_quiet haddr
    · exact QuietBut.refl s
  · unfold linkageStreamExtraSignal
    rw [if_neg hany]
    exact QuietBut.refl s

/-- A neighbouring belt starts or stops, and this one follows. -/
theorem linkageStreamCtrlHandle_quiet {i : Nat} (startFlag : Bool) {s : Station}
    (h : s.Addresses (i + 1)) : Quiet s (linkageStreamCtrlHandle i startFlag s) := by
  unfold linkageStreamCtrlHandle
  split_ifs
  · exact linkageStart_quiet h
  · exact QuietBut.refl s
  · exact linkageStop_quiet h
  · exact QuietBut.refl s

/-- The station behind the line reports its first belt, and the last belt follows. -/
theorem downStreamUpdate_quiet (running : Bool) (s : Station) :
    Quiet s (downStreamUpdate running s) := by
  have hset : ∀ t, Quiet t { t with logic.gLinkDownStreamStatus := running } :=
    fun t => QuietBut.of_same rfl fun p => by cases p <;> rfl
  have hlink : s.beltNumber ≠ 0 → ∀ flag,
      Quiet s (linkageStreamCtrlHandle (s.beltNumber - 1) flag s) := fun hne flag =>
    linkageStreamCtrlHandle_quiet flag (Station.addresses_own (by omega))
  unfold downStreamUpdate
  dsimp only
  split_ifs with hne
  · exact (hlink hne _).trans (hset _)
  · exact (hlink hne _).trans (hset _)
  all_goals exact hset s

/-! ## Jam detection and reset -/

/-- A bit as a number. -/
theorem bitAt_eq (x : U16) (k : Nat) : bitAt x k = if x.getLsbD k then 1 else 0 := by
  apply BitVec.eq_of_toNat_eq
  have hbit : x.getLsbD k = decide (x.toNat >>> k % 2 = 1) := by
    rw [BitVec.getLsbD, Nat.testBit_eq_decide_div_mod_eq, Nat.shiftRight_eq_div_pow]
  have hone : (1 : U16).toNat = 1 := rfl
  unfold bitAt
  rw [BitVec.toNat_and, BitVec.toNat_ushiftRight, hbit, hone, Nat.and_one_is_mod]
  rcases Nat.mod_two_eq_zero_or_one (x.toNat >>> k) with h0 | h1
  · simp [h0]
  · simp [h1]

/-- The jam bit is bit 1. -/
theorem two_getLsbD {k : Nat} (hk : k ≠ 1) : (0x2 : U16).getLsbD k = false := by
  have h : (0x2 : U16) = BitVec.twoPow 16 1 := rfl
  rw [h, BitVec.getLsbD_twoPow]
  simp [Ne.symm hk]

/-- Setting and clearing the jam bit leaves the other bits alone. -/
theorem jam_getLsbD (x : U16) {k : Nat} (hk : k ≠ 1) :
    (x ||| 0x2).getLsbD k = x.getLsbD k := by
  rw [BitVec.getLsbD_or, two_getLsbD hk, Bool.or_false]

/-- The mask `0xFFFD` clears bit 1 only. -/
theorem unjam_getLsbD (x : U16) {k : Nat} (hk : k ≠ 1) :
    (x &&& ~~~0x2).getLsbD k = x.getLsbD k := by
  rw [BitVec.getLsbD_and, BitVec.getLsbD_not, two_getLsbD hk]
  by_cases h : k < 16
  · simp [h]
  · simp [BitVec.getLsbD_of_ge x k (by omega)]

/-- A jam is recorded in bit 1, and its belt is queued to stop. -/
theorem blockCheckBelt_quiet (pins : Pins) {s : Station} {i : Nat} (hi : i < s.beltNumber) :
    Quiet s (blockCheckBelt pins s i) := by
  have hcount : ∀ c t, Quiet t { t with logic.blockCheckTimeCnt := c } :=
    fun c t => QuietBut.of_same rfl fun p => by cases p <;> rfl
  have halarm : ∀ t, Quiet t { t with outs.lAlarmOut := true } :=
    fun t => QuietBut.of_same rfl fun p => by cases p <;> rfl
  have hadd : ∀ t : Station, i < t.beltNumber →
      Quiet t (addUartSendData2Queue (speedNode (i + 1) 0 10) t) := fun t ht =>
    addUartSendData2Queue_quiet (speedNode_queues (Station.addresses_own ht) (Or.inl rfl))
  unfold blockCheckBelt
  dsimp only
  split_ifs
  · refine (setInverter_quiet ?_ ?_).after ((halarm _).after ((hadd _ ?_).after ?_))
    · exact jam_getLsbD _ (by decide)
    · exact jam_getLsbD _ (by decide)
    · exact hi
    · exact (hcount _ _).after (hcount _ s)
  · exact hcount _ s
  · exact hcount _ s
  all_goals exact QuietBut.refl s

/-- The belts a loop goes through stay belts of the station. -/
theorem QuietBut.lt_beltNumber {s t : Station} (h : Quiet s t) {i : Nat}
    (hi : i ∈ List.range s.beltNumber) : i < t.beltNumber := by
  rw [h.keeps.beltNumber]
  exact List.mem_range.mp hi

/-- The jam check goes through the belts of the station. -/
theorem blockCheckCtrlHandle_quiet (pins : Pins) (s : Station) :
    Quiet s (blockCheckCtrlHandle pins s) := by
  unfold blockCheckCtrlHandle
  split_ifs
  · exact QuietBut.refl s
  · exact QuietBut.foldl _ s fun t ht i hi => blockCheckBelt_quiet pins (ht.lt_beltNumber hi)

/-- The reset of one belt clears its jam, and queues a fault reset if the inverter has a fault. -/
theorem resetBelt_quiet {s : Station} {i : Nat} (hi : i < s.beltNumber) :
    Quiet s (resetBelt s i) := by
  have hadd : ∀ t : Station, i < t.beltNumber → Quiet t (addUartSendData2Queue
      { rwFlag := 2
        inverterNo := BitVec.ofNat 16 (i + 1)
        speedGear := 0
        commInterval := 20
        commRetry := 3 } t) :=
    fun t ht => addUartSendData2Queue_quiet
      ⟨⟨by simp, fun _ => Or.inl rfl⟩, (Station.addresses_own ht).ofNat, by simp⟩
  have hclear : Quiet s (s.setInverter i
      { s.inverter i with faultCode := (s.inverter i).faultCode &&& ~~~0x2 }) :=
    setInverter_quiet (unjam_getLsbD _ (by decide)) (unjam_getLsbD _ (by decide))
  unfold resetBelt
  dsimp only
  split_ifs
  · exact hclear.trans (hadd _ (by exact hi))
  · exact hclear
  · exact hadd s hi
  · exact QuietBut.refl s

/-- The reset button, the bus and the server all reset every belt. -/
theorem resetCtrlHandle_quiet (s : Station) : Quiet s (resetCtrlHandle s) := by
  have hloop : Quiet s ((List.range s.beltNumber).foldl resetBelt s) :=
    QuietBut.foldl _ s fun t ht i hi => resetBelt_quiet (ht.lt_beltNumber hi)
  exact hloop.trans (QuietBut.of_same rfl fun p => by cases p <;> rfl)

/-- A belt that stands still is started again behind a reset. -/
theorem resetStartBelt_quiet {s : Station} {i : Nat} (hi : i < s.beltNumber) :
    Quiet s (resetStartBelt s i) := by
  unfold resetStartBelt
  split_ifs
  · exact addUartSendData2Queue_quiet (speedNode_queues (Station.addresses_own hi) (Or.inr rfl))
  · exact QuietBut.refl s

/-- The same for all belts, once the reset timer has expired. -/
theorem resetStartInverterHandle_quiet (s : Station) :
    Quiet s (resetStartInverterHandle s) := by
  have hclear : Quiet s { s with logic.resetStartFlag := false } :=
    QuietBut.of_same rfl fun p => by cases p <;> rfl
  unfold resetStartInverterHandle
  dsimp only
  split_ifs
  all_goals first
    | exact QuietBut.refl s
    | exact hclear
    | refine hclear.trans (QuietBut.foldl _ _ fun t ht i hi => ?_)
      exact resetStartBelt_quiet (ht.lt_beltNumber (List.mem_reverse.mp hi))

/-- The output to the station in front is no part. -/
theorem logicUpstreamIoAllowOutput_quiet (s : Station) :
    Quiet s (logicUpstreamIoAllowOutput s) := by
  unfold logicUpstreamIoAllowOutput
  split_ifs <;> exact QuietBut.of_same rfl fun p => by cases p <;> rfl

/-! ## The main loop -/

/-- A record for the server is queued. -/
theorem addModuleStatusData2Queue_keeps (x : ModuleStatus) (s : Station) :
    Keeps [.moduleQueue] s (addModuleStatusData2Queue x s) :=
  ⟨rfl, fun p hp => by cases p <;> first | rfl | simp at hp⟩

/-- The once-a-second half of `sec_process` runs the jam check. -/
theorem secHandle_quiet (pins : Pins) (s : Station) : Quiet s (secHandle pins s) := by
  unfold secHandle
  dsimp only
  split_ifs
  · exact (blockCheckCtrlHandle_quiet pins _).after
      (QuietBut.of_same rfl fun p => by cases p <;> rfl)
  · exact (blockCheckCtrlHandle_quiet pins _).after
      (QuietBut.of_same rfl fun p => by cases p <;> rfl)
  · exact QuietBut.refl s

/-- The last belt starts again if what is behind it runs. -/
theorem uploadLastBelt_quiet {s : Station} (hs : s.beltNumber ≠ 0) :
    Quiet s (uploadLastBelt s) := by
  have hlast : s.beltNumber - 1 < s.beltNumber := by omega
  unfold uploadLastBelt
  split_ifs
  · exact linkageStart_quiet (Station.addresses_own hlast)
  all_goals exact QuietBut.refl s

/-- A belt in the middle starts again if the next one runs. -/
theorem uploadMiddleBelt_quiet {s : Station} {i : Nat} (hi : i < s.beltNumber) :
    Quiet s (uploadMiddleBelt s i) := by
  unfold uploadMiddleBelt
  split_ifs
  · exact linkageStart_quiet (Station.addresses_own hi)
  · exact QuietBut.refl s

/-- Every 800 ms the last belt is looked at, and then the others. -/
theorem mainUploadRunState_quiet (s : Station) : Quiet s (mainUploadRunState s) := by
  by_cases hzero : s.beltNumber = 0
  · rw [show mainUploadRunState s = s from if_pos hzero]
    exact QuietBut.refl s
  have hclear : Quiet s (setUploadRuncnt 0 s) := QuietBut.of_same rfl fun p => by cases p <;> rfl
  have hlast : Quiet s (uploadLastBelt (setUploadRuncnt 0 s)) :=
    hclear.trans (uploadLastBelt_quiet hzero)
  unfold mainUploadRunState
  rw [if_neg hzero]
  dsimp only
  split_ifs
  · refine hlast.trans (QuietBut.foldl _ _ fun t ht i hi => ?_)
    have hlt := List.mem_range.mp (List.mem_reverse.mp hi)
    exact uploadMiddleBelt_quiet (by rw [ht.keeps.beltNumber]; omega)
  · exact hlast
  · exact QuietBut.refl s

/-- The node of a poll. -/
def pollNode (num : U8) (speedGear : U16) : CommNode :=
  { rwFlag := 0
    inverterNo := num.setWidth 16
    speedGear := speedGear
    commInterval := 20
    commRetry := 0 }

/-- A poll is no run command, whatever gear it carries. -/
theorem pollNode_not_isRun (num : U8) (speedGear : U16) : ¬ (pollNode num speedGear).IsRun := by
  intro hrun
  have hread : (0 : U16) = 1 := hrun.1
  exact absurd hread (by decide)

/-- `main_msone_process` queues nothing, or a poll of the next inverter. -/
theorem mainMsoneProcess_polls (speedGear : U16) (s : Station) :
    Keeps [.uartQueue, .polling] s (mainMsoneProcess speedGear s) ∧
      (Keeps [] s (mainMsoneProcess speedGear s) ∨
        ∃ num : U8, (num = 1 ∨ num = s.logic.pollingNum + 1 ∧ num.toNat ≤ s.beltNumber) ∧
          (mainMsoneProcess speedGear s).logic.pollingNum = num ∧
          (mainMsoneProcess speedGear s).logic.uartSendQueue =
            s.logic.uartSendQueue.add (pollNode num speedGear)) := by
  have hcount : Keeps [] s
      { s with
        main.msoneFlag := false
        main.modulestateReadcnt := s.main.modulestateReadcnt + 1 } :=
    ⟨rfl, fun p _ => by cases p <;> rfl⟩
  have hpoll : ∀ num : U8, Keeps [.uartQueue, .polling] s
      (addUartSendData2Queue (pollNode num speedGear)
        { s with
          main.msoneFlag := false
          main.modulestateReadcnt := s.main.modulestateReadcnt + 1
          modbus.freqCheckCnt := 0
          logic.pollingNum := num }) := fun num =>
    ⟨rfl, fun p hp => by cases p <;> first | rfl | simp at hp⟩
  unfold mainMsoneProcess
  dsimp only
  split_ifs with hms hfreq hwrap
  · exact ⟨hpoll 1, Or.inr ⟨1, Or.inl rfl, rfl, rfl⟩⟩
  · refine ⟨hpoll _, Or.inr ⟨_, Or.inr ⟨rfl, ?_⟩, rfl, rfl⟩⟩
    rw [BitVec.lt_def, BitVec.toNat_setWidth_of_le (by decide)] at hwrap
    exact Nat.le_of_not_lt hwrap
  · exact ⟨hcount.mono, Or.inl hcount⟩
  · exact ⟨Keeps.refl s, Or.inl (Keeps.refl s)⟩

/-- What waits behind `main_msone_process` waited before, or is a poll. -/
theorem mainMsoneProcess_mem_uartNodes {speedGear : U16} {s : Station} {x : CommNode}
    (hx : x ∈ (mainMsoneProcess speedGear s).uartNodes) :
    x ∈ s.uartNodes ∨ ∃ num : U8,
      (num = 1 ∨ num = s.logic.pollingNum + 1 ∧ num.toNat ≤ s.beltNumber) ∧
        x = pollNode num speedGear := by
  rcases (mainMsoneProcess_polls speedGear s).2 with hsame | ⟨num, hnum, -, hqueue⟩
  · rw [hsame.uartNodes] at hx
    exact Or.inl hx
  · rw [Station.uartNodes, hqueue] at hx
    rcases RingFifo.mem_contents_add hx with hx | hx
    · exact Or.inl hx
    · exact Or.inr ⟨num, hnum, hx⟩

/-! ## The scanned inputs that only queue commands -/

/-- The reset button. -/
theorem scanReset_quiet (pins : Pins) (s : Station) : Quiet s (scanReset pins s) := by
  unfold scanReset
  dsimp only
  split_ifs
  · exact (resetCtrlHandle_quiet _).after (QuietBut.of_same rfl fun p => by cases p <;> rfl)
  · exact QuietBut.of_same rfl fun p => by cases p <;> rfl

theorem setPhotoInfo_quiet (k : Nat) (b : ButtonInfo) (s : Station) :
    Quiet s (setPhotoInfo k b s) :=
  QuietBut.of_same rfl fun p => by cases p <;> rfl

/-- One photo sensor, which belongs to belt `k + 1`. -/
theorem scanPhoto_quiet (pins : Pins) (s : Station) {k : Nat} (hk : k < 5) :
    Quiet s (scanPhoto pins s k) := by
  have hset := setPhotoInfo_quiet k
  have hphoto := linkageStopPhotoCtrlHandle_quiet hk
  unfold scanPhoto
  dsimp only
  split_ifs
  · exact (((hset _ s).trans (hphoto _)).trans (hset _ _)).trans (hphoto _)
  · exact ((hset _ s).trans (hset _ _)).trans (hphoto _)
  · exact ((hset _ s).trans (hphoto _)).trans (hset _ _)
  · exact (hset _ s).trans (hset _ _)
  · exact (hset _ s).trans (hphoto _)
  · exact hset _ s

/-- All five of them. -/
theorem photos_quiet (pins : Pins) (s : Station) :
    Quiet s ((List.range 5).foldl (scanPhoto pins) s) :=
  QuietBut.foldl _ s fun t _ _ hk => scanPhoto_quiet pins t (List.mem_range.mp hk)

theorem setStartInfo_quiet (b : ButtonInfo) (s : Station) : Quiet s (setStartInfo b s) :=
  QuietBut.of_same rfl fun p => by cases p <;> rfl

theorem setStopInfo_quiet (b : ButtonInfo) (s : Station) : Quiet s (setStopInfo b s) :=
  QuietBut.of_same rfl fun p => by cases p <;> rfl

/-- The debouncing of the emergency input is the one that is a part. -/
theorem setEmergencyInfo_keeps (b : ButtonInfo) (s : Station) :
    Keeps [.emergency] s (setEmergencyInfo b s) :=
  ⟨rfl, fun p hp => by cases p <;> first | rfl | simp at hp⟩

theorem setStreamInfo_quiet (b : ButtonInfo) (s : Station) : Quiet s (setStreamInfo b s) :=
  QuietBut.of_same rfl fun p => by cases p <;> rfl

/-- The last belt's index, which a station without belts does not use. -/
theorem streamExtraSignalLast_quiet (s : Station) : Quiet s (streamExtraSignalLast s) := by
  refine linkageStreamExtraSignal_quiet true fun hne => ?_
  have hle := s.beltNumber_le
  have hlast : (lo (s.logic.userParasLocal.beltNumber - 1)).toNat + 1 = s.beltNumber := by
    unfold Station.beltNumber at hne hle ⊢
    unfold lo
    bv_omega
  rw [hlast]
  exact ⟨Nat.pos_of_ne_zero hne, Or.inl le_rfl⟩

/-- The stream input starts the last belt, again every two seconds while it is active. -/
theorem scanStream_quiet (pins : Pins) (s : Station) : Quiet s (scanStream pins s) := by
  have hset := setStreamInfo_quiet
  have hsignal := streamExtraSignalLast_quiet
  unfold scanStream
  dsimp only
  split_ifs
  · exact (((hset _ s).trans (hsignal _)).trans (hset _ _)).trans (hsignal _)
  · exact ((hset _ s).trans (hset _ _)).trans (hsignal _)
  · exact ((hset _ s).trans (hsignal _)).trans (hset _ _)
  · exact (hset _ s).trans (hset _ _)
  · exact (hset _ s).trans (hsignal _)
  · exact hset _ s

/-! ## Answers of the inverters -/

/-- An accepted poll may let linkage follow the running state it records. -/
theorem commRecvRwComand_quiet (buf : Mem) (len : Nat) {s : Station}
    (hbusy : s.logic.commBusyFlag = true) :
    QuietBut [.uartQueue, .commFault, .runBits] s (commRecvRwComand buf len s).2 := by
  have hlink : 1 < s.logic.commNode.inverterNo.toNat → ∀ flag,
      QuietBut [.uartQueue, .commFault, .runBits] s
        (linkageStreamCtrlHandle (s.logic.commNode.inverterNo.toNat - 2) flag s) := by
    intro hno flag
    have hflight : s.inFlight = some s.logic.commNode := if_pos hbusy
    refine (linkageStreamCtrlHandle_quiet flag ⟨Nat.succ_pos _, Or.inr (Or.inr ?_)⟩).mono
    exact ⟨_, hflight, by omega⟩
  have hset : ∀ i v t, QuietBut [.uartQueue, .commFault, .runBits] t (t.setInverter i v) :=
    fun i v t => QuietBut.of_keeps (setInverter_keeps i v t)
  unfold commRecvRwComand commRecvPoll commRecvWrite
  dsimp only
  split_ifs
  all_goals first
    | exact QuietBut.refl s
    | exact (hset _ _ _).after (hlink ‹_› _)
    | exact hset _ _ s
    | exact QuietBut.of_same rfl fun p => by cases p <;> rfl

/-- An accepted answer clears the RS-485 fault. -/
theorem clearCommFault_keeps (s : Station) : Keeps [.commFault] s (clearCommFault s) := by
  refine ⟨rfl, fun p hp => ?_⟩
  cases p with
  | runBits => exact setInverter_runBit (by simp)
  | _ => first | rfl | simp at hp

/-- The last failed attempt sets it. -/
theorem setCommFault_keeps (s : Station) : Keeps [.commFault] s (setCommFault s) := by
  refine ⟨rfl, fun p hp => ?_⟩
  cases p with
  | runBits => exact setInverter_runBit (by simp)
  | _ => first | rfl | simp at hp

/-- The jam check can be switched off by the server. -/
theorem setBlockDisable_quiet (flag : U8) (s : Station) : Quiet s (setBlockDisable flag s) :=
  QuietBut.of_same rfl fun p => by cases p <;> rfl

/-- What the station in front reports is only kept. -/
theorem upStreamUpdate_quiet (running : Bool) (s : Station) :
    Quiet s (upStreamUpdate running s) :=
  QuietBut.of_same rfl fun p => by cases p <;> rfl

/-- The host keeps what a station reports for the upload. -/
theorem keepModuleStatus_keeps (m : ModuleStatus) (s : Station) :
    Keeps [.moduleQueue] s (keepModuleStatus m s) := by
  unfold keepModuleStatus
  split_ifs
  · exact addModuleStatusData2Queue_keeps m s
  · exact Keeps.refl s

/-- A status report: kept by the host, and followed by a neighbour. -/
theorem moduleStatusRecvProcess_quiet (pbuf : Mem) (recvLen : Nat) (srcId : U8) (s : Station) :
    QuietBut [.uartQueue, .moduleQueue] s (moduleStatusRecvProcess pbuf recvLen srcId s).val := by
  unfold moduleStatusRecvProcess
  simp only [Traced.val_bind]
  split_ifs
  · exact QuietBut.refl s
  · simp only [Traced.val_bind]
    have hkeep : ∀ m, QuietBut [.uartQueue, .moduleQueue] s (keepModuleStatus m s) :=
      fun m => QuietBut.of_keeps (keepModuleStatus_keeps m s)
    split_ifs
    · exact ((upStreamUpdate_quiet _ _).mono).after (hkeep _)
    · exact ((downStreamUpdate_quiet _ _).mono).after (hkeep _)
    · exact hkeep _

/-! ## The routines that are not quiet -/

theorem setCommBusy_keeps (busy : Bool) (s : Station) : Keeps [.node] s (setCommBusy busy s) :=
  ⟨rfl, fun p hp => by cases p <;> first | rfl | simp at hp⟩

theorem setCommNode_keeps (node : CommNode) (s : Station) :
    Keeps [.node] s (setCommNode node s) :=
  ⟨rfl, fun p hp => by cases p <;> first | rfl | simp at hp⟩

theorem setCommuState_keeps (state : CommuState) (s : Station) :
    Keeps [.uartState] s (setCommuState state s) :=
  ⟨rfl, fun p hp => by cases p <;> first | rfl | simp at hp⟩

theorem setRecvCount_keeps (count : Nat) (s : Station) :
    Keeps [.modbus] s (setRecvCount count s) :=
  ⟨rfl, fun p hp => by cases p <;> first | rfl | simp at hp⟩

/-- The oldest command becomes the one in flight. -/
theorem commTakeNode_keeps (s : Station) :
    Keeps [.uartQueue, .node, .uartState] s (commTakeNode s) := by
  unfold commTakeNode getUartSendDataFromQueue
  split
  · exact Keeps.refl s
  · rename_i slot t h
    obtain ⟨q, -, hq⟩ := Option.map_eq_some_iff.mp h
    obtain ⟨-, rfl⟩ := Prod.mk.inj hq
    exact ⟨rfl, fun p hp => by cases p <;> first | rfl | simp at hp⟩

/-- Whether a speed write starts or stops its belt is kept in a global of `modbus_rtu.c`. -/
theorem commSetSpeedSta_keeps (belt : BeltParas) (data : List U16) (s : Station) :
    Keeps [.modbus] s (commSetSpeedSta belt data s) := by
  unfold commSetSpeedSta
  dsimp only
  split_ifs
  all_goals exact ⟨rfl, fun p hp => by cases p <;> first | rfl | simp at hp⟩

/-- A frame that is sent opens the receive window and is recorded. -/
theorem uart1Send_keeps (frame : List U8) (s : Station) :
    Keeps [.modbus, .uartState, .trace] s (uart1Send frame s) :=
  ⟨rfl, fun p hp => by cases p <;> first | rfl | simp at hp⟩

@[simp] theorem uart1Send_trace (frame : List U8) (s : Station) :
    (uart1Send frame s).trace = .modbusTx frame :: s.trace := rfl

/-- Remembering a stop speed writes the stop speeds only. -/
theorem rememberStopSpeed_eq (s : Station) :
    ∃ speeds, rememberStopSpeed s = { s with modbus.stopspeedDefault := speeds } := by
  unfold rememberStopSpeed
  dsimp only
  split_ifs
  · exact ⟨_, rfl⟩
  · exact ⟨_, rfl⟩
  · split
    · exact ⟨_, rfl⟩
    · exact ⟨_, rfl⟩

/-- The stop speeds are globals of `modbus_rtu.c`. -/
theorem rememberStopSpeed_keeps (s : Station) : Keeps [.modbus] s (rememberStopSpeed s) := by
  obtain ⟨speeds, heq⟩ := rememberStopSpeed_eq s
  rw [heq]
  exact ⟨rfl, fun p hp => by cases p <;> first | rfl | simp at hp⟩

/-- The frame of a command is built in globals of `modbus_rtu.c`. -/
theorem commBuildFrame_keeps {stack : Table 4 U16} {s t : Station} {frame : List U8}
    (h : commBuildFrame stack s = some (frame, t)) : Keeps [.modbus] s t := by
  unfold commBuildFrame at h
  dsimp only at h
  split_ifs at h <;> simp only [Option.some.injEq, Prod.mk.injEq] at h
  · exact h.2 ▸ Keeps.refl s
  · exact h.2 ▸ rememberStopSpeed_keeps s
  · exact h.2 ▸ Keeps.refl s

/-- An attempt: the frame is built and sent. -/
theorem commSendRwComand_keeps (stack : Table 4 U16) (s : Station) :
    Keeps [.modbus, .uartState, .trace] s (commSendRwComand stack s) := by
  unfold commSendRwComand
  split
  · rename_i frame t h
    refine ((commSetSpeedSta_keeps _ _ _).mono).after ?_
    exact (uart1Send_keeps _ _).after ((commBuildFrame_keeps h).mono)
  · exact Keeps.refl s

/-- A command that is sent is recorded. -/
theorem commSendRwComand_trace {stack : Table 4 U16} {s t : Station} {frame : List U8}
    (h : commBuildFrame stack s = some (frame, t)) :
    (commSendRwComand stack s).trace = .modbusTx frame :: s.trace := by
  simp only [commSendRwComand, h]
  rw [(commSetSpeedSta_keeps _ _ _).trace, uart1Send_trace, (commBuildFrame_keeps h).trace]

/-- A command of another kind is not sent, and nothing changes. -/
theorem commSendRwComand_of_none {stack : Table 4 U16} {s : Station}
    (h : commBuildFrame stack s = none) : commSendRwComand stack s = s := by
  simp [commSendRwComand, h]

/-- The command in flight is dropped, or kept with one attempt less. -/
theorem commFinish_keeps (accepted : Bool) (s : Station) :
    Keeps [.node, .uartState, .commFault] s (commFinish accepted s) := by
  have hbusy : ∀ b t, Keeps [.node, .uartState, .commFault] t (setCommBusy b t) :=
    fun b t => (setCommBusy_keeps b t).mono
  unfold commFinish
  split_ifs
  · exact (hbusy _ _).after ((clearCommFault_keeps s).mono)
  · exact ((setCommuState_keeps _ _).mono).after
      ((setCommNode_keeps _ s).mono)
  · exact (hbusy _ _).after ((setCommFault_keeps s).mono)

/-- Judging an answer, or its absence, touches the command in flight and one record. -/
theorem commJudge_keeps {s : Station} (hbusy : s.logic.commBusyFlag = true) :
    Keeps [.uartQueue, .node, .modbus, .uartState, .commFault, .runBits] s (commJudge s) := by
  refine ((setRecvCount_keeps _ _).mono).after ?_
  exact ((commFinish_keeps _ _).mono).after ((commRecvRwComand_quiet _ _ hbusy).keeps.mono)

/-- Linkage records nothing of an inverter. -/
theorem linkageStreamCtrlHandle_inverter (i : Nat) (flag : Bool) (s : Station) (k : Nat) :
    (linkageStreamCtrlHandle i flag s).inverter k = s.inverter k := by
  unfold linkageStreamCtrlHandle linkageStart linkageStop
  split_ifs <;> rfl

/-- Only the inverter in flight gets a new record. -/
theorem commJudge_inverter {s : Station} (hbusy : s.logic.commBusyFlag = true) {k : Nat}
    (hk : k ≠ s.logic.commNode.inverterNo.toNat - 1) :
    (commJudge s).inverter k = s.inverter k := by
  have hset : ∀ v (t : Station),
      (t.setInverter (s.logic.commNode.inverterNo.toNat - 1) v).inverter k = t.inverter k := by
    intro v t
    rw [inverter_setInverter, if_neg fun h => hk h.1]
  have hrecv : ∀ buf len, (commRecvRwComand buf len s).2.inverter k = s.inverter k := by
    intro buf len
    unfold commRecvRwComand commRecvPoll commRecvWrite
    dsimp only
    split_ifs
    all_goals first
      | rfl
      | exact (hset _ _).trans (linkageStreamCtrlHandle_inverter _ _ s k)
      | exact hset _ s
  have hfinish : ∀ accepted (t : Station),
      t.logic.commNode = s.logic.commNode → (commFinish accepted t).inverter k = t.inverter k := by
    intro accepted t ht
    unfold commFinish clearCommFault setCommFault
    dsimp only
    rw [ht]
    split_ifs
    · exact hset _ t
    · rfl
    · exact hset _ t
  have hnode : ∀ buf len, (commRecvRwComand buf len s).2.logic.commNode = s.logic.commNode := by
    intro buf len
    have hsame := (commRecvRwComand_quiet buf len hbusy).keeps.same .node (by decide)
    exact (Prod.mk.inj hsame).1
  exact (hfinish _ _ (hnode _ _)).trans (hrecv _ _)

/-! ### The recorded run bits -/

/-- The running state is read from the low byte of the first half-word of the answer. -/
theorem pollStatus_runBit (buf : Mem) (old : InverterStatus) :
    (pollStatus buf old).faultCode.getLsbD 4 = decide (le16 (buf 4) (buf 3) &&& 0xFF = 1) := by
  unfold pollStatus
  dsimp only [Nat.zero_mul, Nat.add_zero]
  by_cases h : le16 (buf 4) (buf 3) &&& 0xFF = 1
  · rw [if_pos h, decide_eq_true h]
    simp
  · rw [if_neg h, decide_eq_false h]
    simp

/-- A rejected answer, an accepted poll, or an accepted write. -/
theorem commRecvRwComand_cases (buf : Mem) (len : Nat) (s : Station) :
    commRecvRwComand buf len s = (false, s) ∨
      (s.logic.commNode.rwFlag = 0 ∧ commRecvRwComand buf len s = (true, commRecvPoll buf s)) ∨
      commRecvRwComand buf len s = (true, commRecvWrite buf s) := by
  unfold commRecvRwComand
  split_ifs with _ _ _ hread
  all_goals first
    | exact Or.inl rfl
    | exact Or.inr (Or.inl ⟨hread, rfl⟩)
    | exact Or.inr (Or.inr rfl)

/-- An accepted poll gives the inverter in flight a new record. -/
theorem commRecvPoll_inverter (buf : Mem) (s : Station) (k : Nat) :
    (commRecvPoll buf s).inverter k =
      if k = s.logic.commNode.inverterNo.toNat - 1 ∧ s.logic.commNode.inverterNo.toNat - 1 < 10 then
        pollStatus buf (s.inverter (s.logic.commNode.inverterNo.toNat - 1))
      else s.inverter k := by
  obtain ⟨t, ht, hpoll⟩ : ∃ t : Station, (∀ j, t.inverter j = s.inverter j) ∧
      commRecvPoll buf s = t.setInverter (s.logic.commNode.inverterNo.toNat - 1)
        (pollStatus buf (t.inverter (s.logic.commNode.inverterNo.toNat - 1))) := by
    have hlink := fun flag => linkageStreamCtrlHandle_inverter
      (s.logic.commNode.inverterNo.toNat - 2) flag s
    unfold commRecvPoll
    dsimp only
    split_ifs
    all_goals first
      | exact ⟨_, hlink _, rfl⟩
      | exact ⟨s, fun _ => rfl, rfl⟩
  rw [hpoll, inverter_setInverter, ht, ht]

/-- An accepted poll records the running state of the inverter in flight. -/
theorem commRecvPoll_runBit (buf : Mem) (s : Station) (k : Nat) :
    (commRecvPoll buf s).runBit k =
      if k = s.logic.commNode.inverterNo.toNat - 1 ∧ s.logic.commNode.inverterNo.toNat - 1 < 10 then
        decide (le16 (buf 4) (buf 3) &&& 0xFF = 1)
      else s.runBit k := by
  unfold Station.runBit
  rw [commRecvPoll_inverter]
  split_ifs
  · exact pollStatus_runBit buf _
  · rfl

/-- What is done with the node behind an answer leaves the running states alone. -/
theorem commJudge_runBit (s : Station) :
    (commJudge s).runBit =
      (commRecvRwComand s.modbus.uart1RecvBuff s.modbus.uart1RecvCount s).2.runBit := by
  unfold commJudge
  dsimp only
  generalize commRecvRwComand s.modbus.uart1RecvBuff s.modbus.uart1RecvCount s = r
  have hcount : (setRecvCount 0 (commFinish r.1 r.2)).runBit = (commFinish r.1 r.2).runBit :=
    (setRecvCount_keeps _ _).same .runBits (by decide)
  have hfinish : (commFinish r.1 r.2).runBit = r.2.runBit :=
    (commFinish_keeps _ _).same .runBits (by decide)
  rw [hcount, hfinish]

end IotCtrl
