import IotCtrl.LineInvariants

/-!
# Automatic starts

Besides the line command, four routines queue run commands: the two linkage handlers, the
periodic restart and the restart after a reset.  The first three test the belt for
faults; in the last the test is commented out.

An input runs its routines one after the other (`routines`), so the statement is about
every single call: what it adds to the queue, and what is recorded of the belts then.

* `routineCalls` — the calls of one input with the states before and after;
* `automatic_starts_healthy_iff` — a call that is no line command starts belts without a
  fault only, exactly when it is not a restart that finds a stopped belt with one;
* `restart_of_faulted_belt` — such a restart.
-/

namespace IotCtrl

open ByteMemory Transition ClosedFacts

/-! ## The calls of an input -/

/-- The routines of an input in the order of their calls. -/
def routines : Input → List (Station → Station)
  | .timeUpdate pins =>
      [timeCounters, uartRecvTimeout, scanReset pins,
        fun s => (List.range 5).foldl (scanPhoto pins) s,
        scanStart pins, scanStop pins, scanStream pins, scanEmergency pins]
  | .secProcess pins => [secHandle pins, halfSecHandle]
  | i => [fun s => handle s i]

/-- The states before and after each call of a sequence. -/
def calls : Station → List (Station → Station) → List (Station × Station)
  | _, [] => []
  | s, f :: fs => (s, f s) :: calls (f s) fs

def routineCalls (s : Station) (i : Input) : List (Station × Station) := calls s (routines i)

/-- The routines of an input make up its handler. -/
theorem handle_eq_routines (s : Station) (i : Input) :
    handle s i = (routines i).foldl (fun t f => f t) s := by
  cases i with
  | timeUpdate pins =>
      simp only [handle, routines, List.foldl_cons, List.foldl_nil, timeUpdate, inputScanProc,
        inputScanCommands]
  | _ => rfl

theorem exists_of_mem_calls {fs : List (Station → Station)} {s : Station}
    {p : Station × Station} (hp : p ∈ calls s fs) : ∃ f ∈ fs, p.2 = f p.1 := by
  induction fs generalizing s with
  | nil => exact absurd hp List.not_mem_nil
  | cons f fs ih =>
      rcases List.mem_cons.mp hp with rfl | hp
      · exact ⟨f, List.mem_cons_self, rfl⟩
      · obtain ⟨f', hf', heq⟩ := ih hp
        exact ⟨f', List.mem_cons_of_mem _ hf', heq⟩

/-! ## What a call adds -/

/-- `get_inverter_fault_status` is 0 for the belt a command addresses. -/
def Station.HealthyFor (s : Station) (x : CommNode) : Prop :=
  getInverterFaultStatus (s.inverter (x.inverterNo.toNat - 1)) = false

instance (s : Station) (x : CommNode) : Decidable (s.HealthyFor x) :=
  inferInstanceAs (Decidable (_ = _))

/-- A command that waits more often than before. -/
def Added (s t : Station) (x : CommNode) : Prop := s.uartNodes.count x < t.uartNodes.count x

instance (s t : Station) (x : CommNode) : Decidable (Added s t x) :=
  inferInstanceAs (Decidable (_ < _))

/-- Every run command added is for a belt without a fault, before and after the call. -/
def StartsHealthy (s t : Station) : Prop :=
  ∀ x, Added s t x → x.IsRun → s.HealthyFor x ∧ t.HealthyFor x

/-- How often `Speed_Ctrl_Process` was called. -/
def speedCalls (s : Station) : Nat := s.events .speedCall

/-- The belts recorded as stopped, in the order the restart goes through them. -/
def stoppedBelts (s : Station) : List Nat :=
  (List.range s.beltNumber).reverse.filter fun i => bitAt (s.inverter i).faultCode 4 = 0

/-- If the restart after a reset is due, the stopped belts that find room in the queue have
no fault. -/
def RestartClear (s : Station) : Prop :=
  s.logic.gSpeedGearStatus ≠ 0 → s.logic.resetStartFlag = true →
    s.logic.bStreamInfo.inputState = false →
      ∀ i ∈ (stoppedBelts s).take (29 - s.uartNodes.length),
        getInverterFaultStatus (s.inverter i) = false

instance (s : Station) : Decidable (RestartClear s) :=
  inferInstanceAs (Decidable (_ → _ → _ → _))

/-- The queue of `t` is that of `s` with additions that satisfy `Q`. -/
def Adds (Q : CommNode → Prop) (s t : Station) : Prop :=
  ∃ xs, t.logic.uartSendQueue = s.logic.uartSendQueue.addAll xs ∧ ∀ x ∈ xs, Q x

namespace Adds

variable {Q : CommNode → Prop} {s t u : Station}

theorem of_same (h : t.logic.uartSendQueue = s.logic.uartSendQueue) : Adds Q s t :=
  ⟨[], h, by simp⟩

theorem refl (s : Station) : Adds Q s s := of_same rfl

theorem of_keeps {ps : List Part} (h : Keeps ps s t) [hp : Evident (.uartQueue ∉ ps)] :
    Adds Q s t :=
  of_same (h.same .uartQueue hp.out)

theorem add {x : CommNode} (hx : Q x) (s : Station) : Adds Q s (addUartSendData2Queue x s) :=
  ⟨[x], rfl, by simpa using hx⟩

theorem trans (h : Adds Q s t) (h' : Adds Q t u) : Adds Q s u := by
  obtain ⟨xs, hxs, hx⟩ := h
  obtain ⟨ys, hys, hy⟩ := h'
  refine ⟨xs ++ ys, ?_, ?_⟩
  · rw [hys, hxs, RingFifo.addAll_append]
  · intro x hmem
    exact (List.mem_append.mp hmem).elim (hx x) (hy x)

/-- `trans` with the later half first, which fixes the state in between. -/
theorem after (h' : Adds Q t u) (h : Adds Q s t) : Adds Q s u := h.trans h'

theorem foldl {ι : Type} {f : Station → ι → Station} (xs : List ι) (s : Station)
    (hf : ∀ t i, Adds Q t (f t i)) : Adds Q s (xs.foldl f s) :=
  foldl_rel refl trans xs s fun i _ t => hf t i

theorem mono {R : CommNode → Prop} (h : Adds Q s t) (hsub : ∀ x, Q x → R x) : Adds R s t := by
  obtain ⟨xs, hxs, hx⟩ := h
  exact ⟨xs, hxs, fun x hmem => hsub x (hx x hmem)⟩

/-- What was added satisfies `Q`. -/
theorem added (h : Adds Q s t) {x : CommNode} (hx : Added s t x) : Q x := by
  obtain ⟨xs, hxs, hq⟩ := h
  have hcontents : t.uartNodes = s.uartNodes ++ xs.take (30 - 1 - s.uartNodes.length) := by
    rw [Station.uartNodes, hxs]
    exact RingFifo.contents_addAll _ _
  unfold Added at hx
  rw [hcontents, List.count_append] at hx
  have hpos : 0 < (xs.take (30 - 1 - s.uartNodes.length)).count x := by omega
  exact hq x (List.mem_of_mem_take (List.count_pos_iff.mp hpos))

end Adds

/-! ## Routines that start no belt -/

/-- Additions without a run command. -/
abbrev NoStart : Station → Station → Prop := Adds fun x => ¬ x.IsRun

theorem NoStart.startsHealthy {s t : Station} (h : NoStart s t) : StartsHealthy s t :=
  fun _ hx hrun => absurd hrun (h.added hx)

theorem speedNode_zero_not_isRun (no : Nat) (interval : U16) :
    ¬ (speedNode no 0 interval).IsRun := fun hrun => hrun.2 rfl

theorem resetBelt_noStart (s : Station) (i : Nat) : NoStart s (resetBelt s i) := by
  have hreset : ∀ t : Station, NoStart t (addUartSendData2Queue
      { rwFlag := 2
        inverterNo := BitVec.ofNat 16 (i + 1)
        speedGear := 0
        commInterval := 20
        commRetry := 3 } t) :=
    fun t => Adds.add (fun hrun => hrun.2 rfl) t
  have hclear : NoStart s (s.setInverter i
      { s.inverter i with faultCode := (s.inverter i).faultCode &&& ~~~0x2 }) := Adds.of_same rfl
  unfold resetBelt
  dsimp only
  split_ifs
  · exact hclear.trans (hreset _)
  · exact hclear
  · exact hreset s
  · exact Adds.refl s

theorem resetCtrlHandle_noStart (s : Station) : NoStart s (resetCtrlHandle s) := by
  have hloop : NoStart s ((List.range s.beltNumber).foldl resetBelt s) :=
    Adds.foldl _ s resetBelt_noStart
  exact hloop.trans (Adds.of_same rfl)

theorem blockCheckBelt_noStart (pins : Pins) (s : Station) (i : Nat) :
    NoStart s (blockCheckBelt pins s i) := by
  unfold blockCheckBelt
  dsimp only
  split_ifs
  · exact ⟨[speedNode (i + 1) 0 10], rfl, by simpa using speedNode_zero_not_isRun _ _⟩
  all_goals exact Adds.of_same rfl

theorem secHandle_noStart (pins : Pins) (s : Station) : NoStart s (secHandle pins s) := by
  have hcheck : ∀ t, NoStart t (blockCheckCtrlHandle pins t) := by
    intro t
    unfold blockCheckCtrlHandle
    split_ifs
    · exact Adds.refl t
    · exact Adds.foldl _ t (blockCheckBelt_noStart pins)
  unfold secHandle
  dsimp only
  split_ifs
  · exact (hcheck _).after (Adds.of_same rfl)
  · exact (hcheck _).after (Adds.of_same rfl)
  · exact Adds.refl s

theorem scanReset_noStart (pins : Pins) (s : Station) : NoStart s (scanReset pins s) := by
  unfold scanReset
  dsimp only
  split_ifs
  · exact (resetCtrlHandle_noStart _).after (Adds.of_same rfl)
  · exact Adds.of_same rfl

theorem linkageStopPhotoCtrlHandle_noStart (k : Nat) (s : Station) :
    NoStart s (linkageStopPhotoCtrlHandle k s) := by
  unfold linkageStopPhotoCtrlHandle
  dsimp only
  split_ifs
  all_goals first
    | exact Adds.refl s
    | exact Adds.add (speedNode_zero_not_isRun _ _) s

theorem scanPhoto_noStart (pins : Pins) (s : Station) (k : Nat) :
    NoStart s (scanPhoto pins s k) := by
  have hset : ∀ b t, NoStart t (setPhotoInfo k b t) := fun b t => Adds.of_same rfl
  have hphoto := linkageStopPhotoCtrlHandle_noStart k
  unfold scanPhoto
  dsimp only
  split_ifs
  · exact (((hset _ s).trans (hphoto _)).trans (hset _ _)).trans (hphoto _)
  · exact ((hset _ s).trans (hset _ _)).trans (hphoto _)
  · exact ((hset _ s).trans (hphoto _)).trans (hset _ _)
  · exact (hset _ s).trans (hset _ _)
  · exact (hset _ s).trans (hphoto _)
  · exact hset _ s

theorem mainMsoneProcess_noStart (speedGear : U16) (s : Station) :
    NoStart s (mainMsoneProcess speedGear s) := by
  rcases (mainMsoneProcess_polls speedGear s).2 with hsame | ⟨num, -, -, hqueue⟩
  · exact Adds.of_keeps hsame
  · exact ⟨[pollNode num speedGear], hqueue, by simpa using pollNode_not_isRun _ _⟩

/-! ## Routines that start belts -/

/-- The run commands are for belts without a fault. -/
def RunsHealthy (s : Station) (x : CommNode) : Prop := x.IsRun → s.HealthyFor x

/-- A routine that leaves the recorded inverter state alone. -/
structure SameInverters (s t : Station) : Prop where
  inverters : t.logic.inverterStatusBuffer = s.logic.inverterStatusBuffer
  adds : Adds (RunsHealthy s) s t

namespace SameInverters

variable {s t u : Station}

theorem runsHealthy (h : t.logic.inverterStatusBuffer = s.logic.inverterStatusBuffer) :
    RunsHealthy t = RunsHealthy s := by
  unfold RunsHealthy Station.HealthyFor Station.inverter
  rw [h]

theorem refl (s : Station) : SameInverters s s := ⟨rfl, Adds.refl s⟩

theorem of_same (hi : t.logic.inverterStatusBuffer = s.logic.inverterStatusBuffer)
    (hq : t.logic.uartSendQueue = s.logic.uartSendQueue) : SameInverters s t :=
  ⟨hi, Adds.of_same hq⟩

theorem trans (h : SameInverters s t) (h' : SameInverters t u) : SameInverters s u := by
  refine ⟨h'.inverters.trans h.inverters, h.adds.trans ?_⟩
  rw [← runsHealthy h.inverters]
  exact h'.adds

/-- `trans` with the later half first, which fixes the state in between. -/
theorem after (h' : SameInverters t u) (h : SameInverters s t) : SameInverters s u := h.trans h'

theorem foldl {ι : Type} {f : Station → ι → Station} (xs : List ι) (s : Station)
    (hf : ∀ i ∈ xs, ∀ t, SameInverters t (f t i)) : SameInverters s (xs.foldl f s) :=
  foldl_rel refl trans xs s hf

theorem startsHealthy (h : SameInverters s t) : StartsHealthy s t := by
  intro x hx hrun
  have hs := h.adds.added hx hrun
  refine ⟨hs, ?_⟩
  unfold Station.HealthyFor Station.inverter at hs ⊢
  rwa [h.inverters]

end SameInverters

/-- A belt is started by linkage only without a fault. -/
theorem linkageStart_adds {i : Nat} (hi : i + 1 < 2 ^ 16) (s : Station) :
    Adds (fun x => x.IsRun → s.HealthyFor x ∧ x.inverterNo.toNat = i + 1) s (linkageStart i s) := by
  unfold linkageStart
  split_ifs with hstart
  · refine Adds.add (fun _ => ?_) s
    have hno : (speedNode (i + 1) (s.logic.gSpeedGearStatus.setWidth 16)
        (s.belt i).startDelayTime).inverterNo.toNat = i + 1 := by
      show (BitVec.ofNat 16 (i + 1)).toNat = i + 1
      rw [BitVec.toNat_ofNat, Nat.mod_eq_of_lt hi]
    refine ⟨?_, hno⟩
    unfold Station.HealthyFor
    rw [hno, Nat.add_sub_cancel]
    simpa using hstart.2
  · exact Adds.refl s

theorem linkageStart_sameInverters {i : Nat} (hi : i + 1 < 2 ^ 16) (s : Station) :
    SameInverters s (linkageStart i s) := by
  refine ⟨?_, (linkageStart_adds hi s).mono fun x hx hrun => (hx hrun).1⟩
  unfold linkageStart
  split_ifs <;> rfl

theorem linkageStop_sameInverters (i : Nat) (s : Station) :
    SameInverters s (linkageStop i s) := by
  unfold linkageStop
  split_ifs
  · exact ⟨rfl, Adds.add (fun hrun => absurd hrun (speedNode_zero_not_isRun _ _)) s⟩
  · exact SameInverters.refl s

theorem linkageStreamCtrlHandle_sameInverters {i : Nat} (hi : i + 1 < 2 ^ 16) (flag : Bool)
    (s : Station) : SameInverters s (linkageStreamCtrlHandle i flag s) := by
  unfold linkageStreamCtrlHandle
  split_ifs
  · exact linkageStart_sameInverters hi s
  · exact SameInverters.refl s
  · exact linkageStop_sameInverters i s
  · exact SameInverters.refl s

theorem streamExtraSignalLast_sameInverters (s : Station) :
    SameInverters s (streamExtraSignalLast s) := by
  have hi : (lo (s.logic.userParasLocal.beltNumber - 1)).toNat + 1 < 2 ^ 16 := by
    have hlt := (lo (s.logic.userParasLocal.beltNumber - 1)).isLt
    omega
  unfold streamExtraSignalLast linkageStreamExtraSignal
  split_ifs
  · exact linkageStart_sameInverters hi s
  · exact linkageStop_sameInverters _ s
  all_goals exact SameInverters.refl s

theorem scanStream_sameInverters (pins : Pins) (s : Station) :
    SameInverters s (scanStream pins s) := by
  have hset : ∀ b t, SameInverters t (setStreamInfo b t) :=
    fun b t => SameInverters.of_same rfl rfl
  have hsignal := streamExtraSignalLast_sameInverters
  unfold scanStream
  dsimp only
  split_ifs
  · exact (((hset _ s).trans (hsignal _)).trans (hset _ _)).trans (hsignal _)
  · exact ((hset _ s).trans (hset _ _)).trans (hsignal _)
  · exact ((hset _ s).trans (hsignal _)).trans (hset _ _)
  · exact (hset _ s).trans (hset _ _)
  · exact (hset _ s).trans (hsignal _)
  · exact hset _ s

theorem downStreamUpdate_sameInverters (running : Bool) (s : Station) :
    SameInverters s (downStreamUpdate running s) := by
  have hn := s.beltNumber_le
  have hset : ∀ t, SameInverters t { t with logic.gLinkDownStreamStatus := running } :=
    fun t => SameInverters.of_same rfl rfl
  have hlink : ∀ flag, SameInverters s (linkageStreamCtrlHandle (s.beltNumber - 1) flag s) :=
    fun flag => linkageStreamCtrlHandle_sameInverters (by omega) flag s
  unfold downStreamUpdate
  dsimp only
  split_ifs
  · exact (hlink _).trans (hset _)
  · exact (hlink _).trans (hset _)
  all_goals exact hset s

theorem moduleStatusRecvProcess_sameInverters (pbuf : Mem) (recvLen : Nat) (srcId : U8)
    (s : Station) : SameInverters s (moduleStatusRecvProcess pbuf recvLen srcId s).val := by
  have hkeep : ∀ m, SameInverters s (keepModuleStatus m s) := by
    intro m
    unfold keepModuleStatus
    split_ifs
    · exact SameInverters.of_same rfl rfl
    · exact SameInverters.refl s
  have hup : ∀ b t, SameInverters t (upStreamUpdate b t) :=
    fun b t => SameInverters.of_same rfl rfl
  unfold moduleStatusRecvProcess
  simp only [Traced.val_bind]
  split_ifs
  · exact SameInverters.refl s
  · simp only [Traced.val_bind]
    split_ifs
    · exact (hup _ _).after (hkeep _)
    · exact (downStreamUpdate_sameInverters _ _).after (hkeep _)
    · exact hkeep _

theorem mainUploadRunState_sameInverters (s : Station) :
    SameInverters s (mainUploadRunState s) := by
  have hn := s.beltNumber_le
  have hclear : SameInverters s (setUploadRuncnt 0 s) := SameInverters.of_same rfl rfl
  have hi : (setUploadRuncnt 0 s).beltNumber - 1 + 1 < 2 ^ 16 := by
    show s.beltNumber - 1 + 1 < 2 ^ 16
    omega
  have hlast : SameInverters s (uploadLastBelt (setUploadRuncnt 0 s)) := by
    refine hclear.trans ?_
    unfold uploadLastBelt
    split_ifs
    · exact linkageStart_sameInverters hi _
    all_goals exact SameInverters.refl _
  have hmiddle : ∀ i ∈ (List.range (s.beltNumber - 1)).reverse, ∀ t,
      SameInverters t (uploadMiddleBelt t i) := by
    intro i hi t
    have hlt := List.mem_range.mp (List.mem_reverse.mp hi)
    unfold uploadMiddleBelt
    split_ifs
    · exact linkageStart_sameInverters (by omega) t
    · exact SameInverters.refl t
  have hbelts : (uploadLastBelt (setUploadRuncnt 0 s)).beltNumber = s.beltNumber := by
    unfold uploadLastBelt linkageStart
    split_ifs <;> rfl
  unfold mainUploadRunState
  dsimp only
  split_ifs
  · exact SameInverters.refl s
  · rw [hbelts]
    exact hlast.trans (SameInverters.foldl _ _ hmiddle)
  · exact hlast
  · exact SameInverters.refl s

/-! ## Answers of the inverters -/

/-- A run command is for the belt above the command in flight, without a fault. -/
def RunsAbove (s : Station) (x : CommNode) : Prop :=
  x.IsRun → s.HealthyFor x ∧ 0 < x.inverterNo.toNat ∧
    x.inverterNo.toNat + 1 = s.logic.commNode.inverterNo.toNat

/-- An accepted poll may start the belt above the one polled, without a fault. -/
theorem commRecvRwComand_adds (buf : Mem) (len : Nat) (s : Station) :
    Adds (RunsAbove s) s (commRecvRwComand buf len s).2 := by
  have hno := s.logic.commNode.inverterNo.isLt
  have hlink : 1 < s.logic.commNode.inverterNo.toNat → ∀ flag,
      Adds (RunsAbove s) s
        (linkageStreamCtrlHandle (s.logic.commNode.inverterNo.toNat - 2) flag s) := by
    intro hgt flag
    have hstart :
        Adds (RunsAbove s) s (linkageStart (s.logic.commNode.inverterNo.toNat - 2) s) := by
      refine (linkageStart_adds (by omega) s).mono fun x hx hrun => ?_
      obtain ⟨hhealthy, heq⟩ := hx hrun
      exact ⟨hhealthy, by omega, by omega⟩
    unfold linkageStreamCtrlHandle linkageStop
    split_ifs
    · exact hstart
    · exact Adds.refl s
    · exact Adds.add (fun hrun => absurd hrun (speedNode_zero_not_isRun _ _)) s
    all_goals exact Adds.refl s
  have hset : ∀ i v t, Adds (RunsAbove s) t (t.setInverter i v) := fun i v t => Adds.of_same rfl
  unfold commRecvRwComand commRecvPoll commRecvWrite
  dsimp only
  split_ifs
  all_goals first
    | exact Adds.refl s
    | exact (hset _ _ _).after (hlink ‹_› _)

theorem modbusRtuCommProcess_startsHealthy (stack : Table 4 U16) (s : Station) :
    StartsHealthy s (modbusRtuCommProcess stack s) := by
  intro x hx hrun
  unfold modbusRtuCommProcess at hx ⊢
  split_ifs at hx ⊢ with hidle
  · -- taking a command adds none
    exfalso
    unfold Added at hx
    rcases commTakeNode_cases s with ⟨-, heq⟩ | ⟨y, hcontents, -, -⟩
    · rw [heq] at hx
      omega
    · rw [hcontents, List.count_cons] at hx
      omega
  · have hnone : NoStart s (commSendRwComand stack s) :=
      Adds.of_keeps (commSendRwComand_keeps stack s)
    exact absurd hrun (hnone.added hx)
  · have hbusy : s.logic.commBusyFlag = true := by simpa using hidle
    have hadds : Adds (RunsAbove s) s (commJudge s) := by
      refine (Adds.of_keeps (setRecvCount_keeps _ _)).after ?_
      exact (Adds.of_keeps (commFinish_keeps _ _)).after (commRecvRwComand_adds _ _ s)
    obtain ⟨hs, hpos, hno⟩ := hadds.added hx hrun
    have hk : x.inverterNo.toNat - 1 ≠ s.logic.commNode.inverterNo.toNat - 1 := by omega
    refine ⟨hs, ?_⟩
    unfold Station.HealthyFor at hs ⊢
    rwa [commJudge_inverter hbusy hk]
  · exact absurd hx (lt_irrefl _)

/-! ## Calls that issue no line command -/

theorem speedCalls_speedCtrlProcess (g : U8) (s : Station) :
    speedCalls (speedCtrlProcess g s) = speedCalls s + 1 := by
  unfold speedCalls Station.events
  rw [speedCtrlProcess_trace]
  exact List.countP_cons_of_pos rfl

theorem buttonCommand_noStart {g : U8} {s : Station}
    (h : speedCalls (buttonCommand g s) = speedCalls s) : NoStart s (buttonCommand g s) := by
  unfold buttonCommand at h ⊢
  split_ifs at h ⊢
  · have hcount : speedCalls (canBusSendStartCmd g (speedCtrlProcess g s)) = speedCalls s + 1 :=
      ((canBusSendMsg_keeps _ _ _ _).events _).trans (speedCalls_speedCtrlProcess g s)
    omega
  · exact Adds.refl s

theorem scanStart_noStart {pins : Pins} {s : Station}
    (h : speedCalls (scanStart pins s) = speedCalls s) : NoStart s (scanStart pins s) := by
  unfold scanStart at h ⊢
  dsimp only at h ⊢
  split_ifs at h ⊢
  · exact (buttonCommand_noStart h).after (Adds.of_same rfl)
  · exact Adds.of_same rfl

theorem scanStop_noStart {pins : Pins} {s : Station}
    (h : speedCalls (scanStop pins s) = speedCalls s) : NoStart s (scanStop pins s) := by
  unfold scanStop at h ⊢
  dsimp only at h ⊢
  split_ifs at h ⊢
  · exact (buttonCommand_noStart h).after (Adds.of_same rfl)
  · exact Adds.of_same rfl

theorem scanEmergency_noStart {pins : Pins} {s : Station}
    (h : speedCalls (scanEmergency pins s) = speedCalls s) : NoStart s (scanEmergency pins s) := by
  have hset : ∀ b t, speedCalls (setEmergencyInfo b t) = speedCalls t := fun _ _ => rfl
  have hstop := speedCalls_speedCtrlProcess EMERGENCY_STOP
  unfold scanEmergency at h ⊢
  dsimp only at h ⊢
  split_ifs at h ⊢
  all_goals first
    | exact Adds.of_same rfl
    | (simp only [hset, hstop] at h
       omega)

/-- What happens before a call does not count if it touches neither the queue nor the
recorded inverter state. -/
theorem StartsHealthy.after {s t u : Station} (h : StartsHealthy t u)
    (hsame : t.logic.uartSendQueue = s.logic.uartSendQueue)
    (hinv : t.logic.inverterStatusBuffer = s.logic.inverterStatusBuffer) : StartsHealthy s u := by
  intro x hx hrun
  have hnodes : t.uartNodes = s.uartNodes := congrArg RingFifo.contents hsame
  have hadded : Added t u x := by
    unfold Added at hx ⊢
    rwa [hnodes]
  obtain ⟨ht, hu⟩ := h x hadded hrun
  refine ⟨?_, hu⟩
  unfold Station.HealthyFor Station.inverter at ht ⊢
  rwa [← hinv]

theorem canDispatch_startsHealthy {funcId srcId : U8} {s : Station}
    (h : speedCalls (canDispatch funcId srcId s).val = speedCalls s) :
    StartsHealthy s (canDispatch funcId srcId s).val := by
  have hnone : ∀ {ps : List Part} {t : Station}, Keeps ps s t → Part.uartQueue ∉ ps →
      StartsHealthy s t := fun hk hp => NoStart.startsHealthy (Adds.of_same (hk.same .uartQueue hp))
  unfold canDispatch at h ⊢
  dsimp only at h ⊢
  split_ifs at h ⊢
  · exact hnone (paraDataRecvProcess_keeps _ _ s) (by decide)
  · have hcount : speedCalls (speedCtrlProcess (s.can.recv.canRecvBuff 0) s) = speedCalls s + 1 :=
      speedCalls_speedCtrlProcess _ s
    have hsame : speedCalls (speedCtrlProcess (s.can.recv.canRecvBuff 0) s) = speedCalls s := h
    omega
  · exact (moduleStatusRecvProcess_sameInverters _ _ _ s).startsHealthy
  · exact NoStart.startsHealthy (resetCtrlHandle_noStart s)
  · exact NoStart.startsHealthy (Adds.of_same rfl)
  · exact hnone (canBusSendModuleStatus_keeps s) (by decide)
  · exact NoStart.startsHealthy (Adds.refl s)

theorem canBusFrameReceive_startsHealthy {rxMsg : CanRxMsg} {s : Station}
    (h : speedCalls (canBusFrameReceive rxMsg s) = speedCalls s) :
    StartsHealthy s (canBusFrameReceive rxMsg s) := by
  unfold canBusFrameReceive at h ⊢
  dsimp only at h ⊢
  split_ifs at h ⊢
  · exact NoStart.startsHealthy (Adds.of_keeps (enterBootMode_keeps s))
  · refine (canDispatch_startsHealthy (h.trans ?_)).after rfl rfl
    unfold speedCalls
    rw [Station.events_log, if_neg (by simp [Event.kind])]
    rfl
  · exact NoStart.startsHealthy (Adds.of_same rfl)

theorem udpClientProcess_noStart {env : UdpEnv} {s : Station}
    (h : speedCalls (udpClientProcess env s) = speedCalls s) :
    NoStart s (udpClientProcess env s) := by
  have hsend : ∀ pbuf f src t, NoStart t (canBusSendMsg pbuf f src t) :=
    fun pbuf f src t => Adds.of_keeps (canBusSendMsg_keeps pbuf f src t)
  have hmsg : ∀ point len, speedCalls (recvMessageFromServer point len s) = speedCalls s →
      NoStart s (recvMessageFromServer point len s) := by
    intro point len hcalls
    unfold recvMessageFromServer recvMsgProcess at hcalls ⊢
    split_ifs at hcalls ⊢
    · exact Adds.refl s
    · exact Adds.of_keeps (enterBootMode_keeps s)
    · exact Adds.of_keeps (paraReply_keeps _ _ s)
    · exact hsend _ _ _ s
    · exact Adds.of_keeps (recvWritePara_keeps point s)
    · have hcount : speedCalls (canBusSendStartCmd (point 11) (speedCtrlProcess (point 11) s)) =
          speedCalls s + 1 :=
        ((canBusSendMsg_keeps _ _ _ _).events _).trans (speedCalls_speedCtrlProcess _ s)
      omega
    · exact (hsend _ _ _ _).after (resetCtrlHandle_noStart s)
    · exact (hsend _ _ _ _).after (Adds.of_same rfl)
    · exact Adds.refl s
  have hconnect : ∀ t, NoStart t (udpConnectProcess env t) :=
    fun t => Adds.of_keeps (udpConnectProcess_keeps env t)
  have hcalls : ∀ t, speedCalls (udpConnectProcess env t) = speedCalls t :=
    fun t => (udpConnectProcess_touches env t).events
  unfold udpClientProcess at h ⊢
  dsimp only at h ⊢
  split_ifs at h ⊢
  · exact hmsg _ _ h
  · have hmid := (hcalls _).symm.trans h
    exact (hconnect _).after ((Adds.of_same rfl).after (hmsg _ _ hmid))
  · exact hconnect s

/-! ## The restart after a reset -/

/-- The node the restart queues for a stopped belt. -/
def restartNode (s : Station) (i : Nat) : CommNode :=
  speedNode (i + 1) (s.logic.gSpeedGearStatus.setWidth 16) (s.belt i).startDelayTime

/-- The loop queues one node for each stopped belt. -/
theorem foldl_resetStartBelt (xs : List Nat) (s : Station) :
    (xs.foldl resetStartBelt s).logic.uartSendQueue = s.logic.uartSendQueue.addAll
        ((xs.filter fun i => bitAt (s.inverter i).faultCode 4 = 0).map (restartNode s)) ∧
      (xs.foldl resetStartBelt s).logic.inverterStatusBuffer = s.logic.inverterStatusBuffer := by
  induction xs generalizing s with
  | nil => exact ⟨rfl, rfl⟩
  | cons i xs ih =>
      obtain ⟨hqueue, hinv⟩ := ih (resetStartBelt s i)
      by_cases hstopped : bitAt (s.inverter i).faultCode 4 = 0
      · have hbody : resetStartBelt s i = addUartSendData2Queue (restartNode s i) s :=
          if_pos hstopped
        rw [List.foldl_cons, List.filter_cons_of_pos (by simpa using hstopped), List.map_cons,
          RingFifo.addAll_cons]
        rw [hbody] at hqueue hinv ⊢
        exact ⟨hqueue, hinv⟩
      · have hbody : resetStartBelt s i = s := if_neg hstopped
        rw [List.foldl_cons, List.filter_cons_of_neg (by simpa using hstopped), hbody]
        exact ih s

/-- A restart that is due queues the belts that have stopped, as far as there is room. -/
theorem resetStart_nodes {s : Station} (hbelts : s.beltNumber ≠ 0)
    (hgear : s.logic.gSpeedGearStatus ≠ 0) (hflag : s.logic.resetStartFlag = true)
    (hstream : s.logic.bStreamInfo.inputState = false) :
    (resetStartInverterHandle s).uartNodes = s.uartNodes ++
        ((stoppedBelts s).take (29 - s.uartNodes.length)).map (restartNode s) ∧
      (resetStartInverterHandle s).logic.inverterStatusBuffer = s.logic.inverterStatusBuffer := by
  have hrun : resetStartInverterHandle s = (List.range s.beltNumber).reverse.foldl resetStartBelt
      { s with logic.resetStartFlag := false } := by
    unfold resetStartInverterHandle
    rw [if_neg hbelts, if_neg hgear, if_neg (by simp [hflag])]
    exact if_pos hstream
  obtain ⟨hqueue, hinv⟩ := foldl_resetStartBelt (List.range s.beltNumber).reverse
    { s with logic.resetStartFlag := false }
  rw [← hrun] at hqueue hinv
  refine ⟨?_, hinv⟩
  rw [Station.uartNodes, hqueue, RingFifo.contents_addAll, List.map_take]
  rfl

/-- **The restart starts healthy belts exactly when it is clear.** -/
theorem resetStart_startsHealthy_iff (s : Station) :
    StartsHealthy s (resetStartInverterHandle s) ↔ RestartClear s := by
  by_cases hdue : s.beltNumber ≠ 0 ∧ s.logic.gSpeedGearStatus ≠ 0 ∧ s.logic.resetStartFlag = true ∧
      s.logic.bStreamInfo.inputState = false
  · obtain ⟨hbelts, hgear, hflag, hstream⟩ := hdue
    obtain ⟨hcontents, hinv⟩ := resetStart_nodes hbelts hgear hflag hstream
    have hhealthy : ∀ i, i < s.beltNumber → (s.HealthyFor (restartNode s i) ↔
        getInverterFaultStatus (s.inverter i) = false) := by
      intro i hi
      have hn := s.beltNumber_le
      have hno : (restartNode s i).inverterNo.toNat - 1 = i := by
        show (BitVec.ofNat 16 (i + 1)).toNat - 1 = i
        rw [BitVec.toNat_ofNat]
        omega
      unfold Station.HealthyFor
      rw [hno]
    have hlt : ∀ i ∈ (stoppedBelts s).take (29 - s.uartNodes.length), i < s.beltNumber := by
      intro i hi
      have hmem := (List.mem_filter.mp (List.mem_of_mem_take hi)).1
      exact List.mem_range.mp (List.mem_reverse.mp hmem)
    constructor
    · intro h _ _ _ i hi
      have hrunning : (restartNode s i).IsRun := by
        refine ⟨rfl, ?_⟩
        show s.logic.gSpeedGearStatus.setWidth 16 ≠ 0
        bv_omega
      have hadded : Added s (resetStartInverterHandle s) (restartNode s i) := by
        unfold Added
        rw [hcontents, List.count_append]
        exact Nat.lt_add_of_pos_right (List.count_pos_iff.mpr (List.mem_map_of_mem hi))
      exact (hhealthy i (hlt i hi)).mp (h _ hadded hrunning).1
    · intro h x hx _
      unfold Added at hx
      rw [hcontents, List.count_append] at hx
      have hpos := Nat.pos_of_lt_add_right hx
      obtain ⟨i, hi, rfl⟩ := List.mem_map.mp (List.count_pos_iff.mp hpos)
      have hs := (hhealthy i (hlt i hi)).mpr (h hgear hflag hstream i hi)
      refine ⟨hs, ?_⟩
      unfold Station.HealthyFor Station.inverter at hs ⊢
      rwa [hinv]
  · have hnone : NoStart s (resetStartInverterHandle s) := by
      unfold resetStartInverterHandle
      dsimp only
      split_ifs with hbelts hgear hflag hstream
      · exact Adds.refl s
      · exact Adds.refl s
      · exact Adds.refl s
      · exact absurd ⟨hbelts, hgear, by simpa using hflag, hstream⟩ hdue
      · exact Adds.of_same rfl
    refine iff_of_true hnone.startsHealthy fun hgear hflag hstream i hi => ?_
    have hzero : s.beltNumber = 0 := by
      by_contra hbelts
      exact hdue ⟨hbelts, hgear, hflag, hstream⟩
    simp [stoppedBelts, hzero] at hi

/-! ## The system -/

theorem tick_startsHealthy {pins : Pins} {f : Station → Station}
    (hf : f ∈ routines (.timeUpdate pins)) {t : Station} (h : speedCalls (f t) = speedCalls t) :
    StartsHealthy t (f t) := by
  have hphotos : NoStart t ((List.range 5).foldl (scanPhoto pins) t) :=
    Adds.foldl _ t (scanPhoto_noStart pins)
  simp only [routines, List.mem_cons, List.not_mem_nil, or_false] at hf
  rcases hf with rfl | rfl | rfl | rfl | rfl | rfl | rfl | rfl
  · exact NoStart.startsHealthy (Adds.of_keeps (timeCounters_keeps t))
  · exact NoStart.startsHealthy (Adds.of_keeps (uartRecvTimeout_keeps t))
  · exact (scanReset_noStart pins t).startsHealthy
  · exact hphotos.startsHealthy
  · exact (scanStart_noStart h).startsHealthy
  · exact (scanStop_noStart h).startsHealthy
  · exact (scanStream_sameInverters pins t).startsHealthy
  · exact (scanEmergency_noStart h).startsHealthy

/-- **Automatic starts are for belts without a fault**, in every call of every input that
issues no line command, exactly when it is not a restart that finds a stopped belt with
a fault. -/
theorem automatic_starts_healthy_iff (s : Station) (i : Input) :
    ∀ p ∈ routineCalls s i, speedCalls p.2 = speedCalls p.1 →
      (StartsHealthy p.1 p.2 ↔ (i = .resetStart → RestartClear p.1)) := by
  intro p hp hcalls
  obtain ⟨f, hf, heq⟩ := exists_of_mem_calls hp
  obtain ⟨t, u⟩ := p
  obtain rfl : u = f t := heq
  have hidle : ∀ {ps : List Part}, Keeps ps t (f t) → Part.uartQueue ∉ ps →
      StartsHealthy t (f t) :=
    fun hk hq => NoStart.startsHealthy (Adds.of_same (hk.same .uartQueue hq))
  cases i with
  | resetStart =>
      obtain rfl := List.mem_singleton.mp hf
      exact (resetStart_startsHealthy_iff t).trans ⟨fun h _ => h, fun h => h rfl⟩
  | timeUpdate pins => exact iff_of_true (tick_startsHealthy hf hcalls) fun h => by cases h
  | secProcess pins =>
      refine iff_of_true ?_ fun h => by cases h
      simp only [routines, List.mem_cons, List.not_mem_nil, or_false] at hf
      rcases hf with rfl | rfl
      · exact (secHandle_noStart pins t).startsHealthy
      · exact hidle (halfSecHandle_keeps t) (by decide)
  | usart1Irq tmp =>
      obtain rfl := List.mem_singleton.mp hf
      exact iff_of_true (hidle (usart1IrqHandler_keeps tmp t) (by decide)) fun h => by cases h
  | canFrame rxMsg =>
      obtain rfl := List.mem_singleton.mp hf
      exact iff_of_true (canBusFrameReceive_startsHealthy hcalls) fun h => by cases h
  | udpReceive p m =>
      obtain rfl := List.mem_singleton.mp hf
      refine iff_of_true ?_ fun h => by cases h
      show StartsHealthy t (if t.isHost then udpReceiveCallback p m t else t)
      split_ifs
      · exact NoStart.startsHealthy (Adds.of_keeps (udpReceiveCallback_keeps p m t))
      · exact NoStart.startsHealthy (Adds.refl t)
  | udpClient env =>
      obtain rfl := List.mem_singleton.mp hf
      refine iff_of_true ?_ fun h => by cases h
      have hcalls' : speedCalls (if t.isHost then udpClientProcess env t else t) = speedCalls t :=
        hcalls
      show StartsHealthy t (if t.isHost then udpClientProcess env t else t)
      split_ifs at hcalls' ⊢
      · exact (udpClientProcess_noStart hcalls').startsHealthy
      · exact NoStart.startsHealthy (Adds.refl t)
  | sendMessage =>
      obtain rfl := List.mem_singleton.mp hf
      refine iff_of_true ?_ fun h => by cases h
      show StartsHealthy t (if t.isHost then sendMessageToServer t else t)
      split_ifs
      · exact NoStart.startsHealthy (Adds.of_keeps (sendMessageToServer_touches t).keeps)
      · exact NoStart.startsHealthy (Adds.refl t)
  | modbusComm stack =>
      obtain rfl := List.mem_singleton.mp hf
      exact iff_of_true (modbusRtuCommProcess_startsHealthy stack t) fun h => by cases h
  | canSend mailboxFree =>
      obtain rfl := List.mem_singleton.mp hf
      exact iff_of_true (hidle (canSendFrameProcess_keeps mailboxFree t) (by decide))
        fun h => by cases h
  | upstreamIo =>
      obtain rfl := List.mem_singleton.mp hf
      refine iff_of_true ?_ fun h => by cases h
      show StartsHealthy t (logicUpstreamIoAllowOutput t)
      unfold logicUpstreamIoAllowOutput
      split_ifs <;> exact NoStart.startsHealthy (Adds.of_same rfl)
  | uploadRunState =>
      obtain rfl := List.mem_singleton.mp hf
      exact iff_of_true (mainUploadRunState_sameInverters t).startsHealthy fun h => by cases h
  | msoneProcess speedGear =>
      obtain rfl := List.mem_singleton.mp hf
      exact iff_of_true (mainMsoneProcess_noStart speedGear t).startsHealthy fun h => by cases h

/-- A frame with a reset command of the host. -/
def resetFrame : CanRxMsg :=
  canBusSendOneFrame
    { segPolo := .none
      segNum := 0
      funcId := CAN_FUNC_ID_RESET_CMD
      srcId := 1
      data := [] }

/-- Milliseconds without an active input. -/
def idleTicks (n : Nat) : List Input := List.replicate n (.timeUpdate noInput)

/-- The main loop lets the master work at these times of the half second behind a reset: it
takes the start command and sends it four times, 50 ms of silence and 20 ms of waiting
apart. -/
def silentInverter : List Input :=
  [.modbusComm fun _ => 0] ++ idleTicks 1 ++ [.modbusComm fun _ => 0] ++
    (List.replicate 3 (idleTicks 50 ++ [.modbusComm fun _ => 0] ++ idleTicks 20 ++
      [.modbusComm fun _ => 0])).flatten ++
    idleTicks 50 ++ [.modbusComm fun _ => 0] ++ idleTicks 239

/-- Slave 2 with one belt is started and reset, and the inverter does or does not answer
until the restart is due. -/
def beforeRestart (silent : Bool) : Station :=
  run step (boot oneBeltFlash 2) ([.canFrame (startFrame 2), .canFrame resetFrame] ++
    if silent then silentInverter else idleTicks 500)

/-- A restart that is clear. -/
theorem restart_of_healthy_belt :
    StartsHealthy (beforeRestart false) (resetStartInverterHandle (beforeRestart false)) := by
  have hclear : RestartClear (beforeRestart false) := by decide +kernel
  generalize beforeRestart false = s at hclear ⊢
  have hcalls : speedCalls (resetStartInverterHandle s) = speedCalls s :=
    (resetStartInverterHandle_quiet s).keeps.events _
  exact (automatic_starts_healthy_iff s .resetStart (s, resetStartInverterHandle s)
    List.mem_cons_self hcalls).mpr fun _ => hclear

/-- After four attempts without an answer the belt has the RS-485 fault, and the restart
queues a run command for it. -/
theorem restart_of_faulted_belt :
    ¬ ∀ s, Reachable (fun _ _ => True) s → ∀ i, ∀ p ∈ routineCalls s i,
      speedCalls p.2 = speedCalls p.1 → StartsHealthy p.1 p.2 := by
  intro h
  have hreach : Reachable (fun _ _ => True) (beforeRestart true) :=
    reach_run ⟨_, _, rfl⟩ (Along.of_forall (fun _ _ => trivial) _ _)
  have hadded : ∀ x, x = restartNode (beforeRestart true) 0 →
      Added (beforeRestart true) (resetStartInverterHandle (beforeRestart true)) x ∧ x.IsRun ∧
        ¬ (beforeRestart true).HealthyFor x := by
    intro x hx
    subst hx
    decide +kernel
  generalize beforeRestart true = s at hreach hadded
  have hcalls : speedCalls (resetStartInverterHandle s) = speedCalls s :=
    (resetStartInverterHandle_quiet s).keeps.events _
  obtain ⟨hin, hrun, hfault⟩ := hadded _ rfl
  exact hfault (h s hreach .resetStart (s, resetStartInverterHandle s) List.mem_cons_self hcalls
    _ hin hrun).1

end IotCtrl
