import IotCtrl.LineFrame

/-!
# The line command

`Speed_Ctrl_Process` has four branches that queue one speed write for each belt:
an emergency stop, a start from standstill, a stop and a change of speed.  Only
the two stops empty the queue first.

* `speedCtrlProcess_eq` — the four branches as one update of the station;
* `lineCommand_queued_iff` — when the queue ends with the whole command: after a
  stop always, and after a start or a change of speed exactly when the ring has
  room for every belt (or was full with the very same nodes at its end);
* `third_start_loses_belts` — three commands in a row on ten belts lose one.
-/

namespace IotCtrl

open ByteMemory Transition

/-- The gear a command leaves in force. -/
def commandedGear (speedGear : U8) : U8 := if speedGear = EMERGENCY_STOP then 0 else speedGear

/-- Stop or emergency stop. -/
def IsStop (speedGear : U8) : Prop := speedGear = 0 ∨ speedGear = EMERGENCY_STOP

instance (speedGear : U8) : Decidable (IsStop speedGear) := inferInstanceAs (Decidable (_ ∨ _))

theorem commandedGear_eq_zero_iff (g : U8) : commandedGear g = 0 ↔ IsStop g := by
  unfold commandedGear IsStop
  split_ifs with h <;> simp [h]

/-- A start from standstill. -/
def IsStart (speedGear : U8) (s : Station) : Prop :=
  ¬ IsStop speedGear ∧ s.logic.gSpeedGearStatus = 0

instance (speedGear : U8) (s : Station) : Decidable (IsStart speedGear s) :=
  inferInstanceAs (Decidable (_ ∧ _))

/-- The belts in the order a command queues them. -/
def beltOrder (speedGear : U8) (s : Station) : List Nat :=
  if IsStart speedGear s then (List.range s.beltNumber).map fun i => s.beltNumber - i
  else (List.range s.beltNumber).map fun i => i + 1

/-- The interval a command gives the node of one belt. -/
def lineInterval (speedGear : U8) (s : Station) (no : Nat) : U16 :=
  if IsStart speedGear s then (s.belt (no - 1)).startDelayTime
  else if speedGear = 0 then (s.belt (no - 1)).stopDelayTime
  else 20

/-- The nodes a command queues. -/
def lineNodes (speedGear : U8) (s : Station) : List CommNode :=
  (beltOrder speedGear s).map fun no =>
    speedNode no ((commandedGear speedGear).setWidth 16) (lineInterval speedGear s no)

/-- The ring a command adds its nodes to. -/
def lineBase (speedGear : U8) (s : Station) : RingFifo CommNode 30 :=
  if IsStop speedGear then s.logic.uartSendQueue.clear else s.logic.uartSendQueue

/-- A loop that queues one node a turn is one `addAll`. -/
theorem foldl_addUartSendData2Queue (f : Station → Nat → CommNode)
    (hf : ∀ (t : Station) q i, f { t with logic.uartSendQueue := q } i = f t i)
    (xs : List Nat) (s : Station) :
    xs.foldl (fun s i => addUartSendData2Queue (f s i) s) s =
      { s with logic.uartSendQueue := s.logic.uartSendQueue.addAll (xs.map (f s)) } := by
  induction xs generalizing s with
  | nil => rfl
  | cons i xs ih =>
      rw [List.foldl_cons, ih]
      have hmap : xs.map (f (addUartSendData2Queue (f s i) s)) = xs.map (f s) :=
        List.map_congr_left fun j _ => hf s _ j
      rw [hmap]
      rfl

/-- The nodes of a command that is not a start, with the belts in ascending
order. -/
theorem lineNodes_ascending {g : U8} {s : Station} (h : ¬ IsStart g s) :
    lineNodes g s = (List.range s.beltNumber).map fun i =>
      speedNode (i + 1) ((commandedGear g).setWidth 16)
        (if g = 0 then (s.belt i).stopDelayTime else 20) := by
  simp [lineNodes, beltOrder, lineInterval, h, Function.comp_def]

theorem lineNodes_start {g : U8} {s : Station} (h : IsStart g s) :
    lineNodes g s = (List.range s.beltNumber).map fun i =>
      speedNode (s.beltNumber - i) (g.setWidth 16)
        (s.belt (s.beltNumber - i - 1)).startDelayTime := by
  have hgear : commandedGear g = g := if_neg fun he => h.1 (Or.inr he)
  simp [lineNodes, beltOrder, lineInterval, h, hgear, Function.comp_def]

/-- **The line command as one update.** -/
theorem speedCtrlProcess_eq (g : U8) (s : Station) :
    speedCtrlProcess g s =
      setSpeedGear (commandedGear g) (decide (¬ IsStop g))
        { s.log (.speedCall g s.inFlight) with
          logic.uartSendQueue := (lineBase g s).addAll (lineNodes g s) } := by
  have hbase : lineBase g s = lineBase g (s.log (.speedCall g s.inFlight)) := rfl
  have hnodes : lineNodes g s = lineNodes g (s.log (.speedCall g s.inFlight)) := rfl
  rw [hbase, hnodes]
  unfold speedCtrlProcess
  -- the call itself only adds to the history; from here on `t` is the station
  generalize s.log (.speedCall g s.inFlight) = t
  dsimp only
  split_ifs with hem hstart hzero hrun
  · have hstop : IsStop g := Or.inr hem
    have hne : g ≠ 0 := by rw [hem]; decide
    rw [foldl_addUartSendData2Queue (fun _ i => speedNode (i + 1) 0 20) (fun _ _ _ => rfl),
      lineNodes_ascending fun h => h.1 hstop, (commandedGear_eq_zero_iff g).mpr hstop,
      lineBase, if_pos hstop]
    simp only [hstop, hne, if_false]
    rfl
  · have hne : g ≠ 0 := by rintro rfl; exact absurd hstart.2 (by decide)
    have hstop : ¬ IsStop g := fun h => h.elim hne hem
    have hgear : commandedGear g = g := if_neg hem
    rw [foldl_addUartSendData2Queue
      (fun u i => speedNode (t.beltNumber - i) (g.setWidth 16)
        (u.belt (t.beltNumber - i - 1)).startDelayTime) (fun _ _ _ => rfl),
      lineNodes_start ⟨hstop, hstart.1⟩, hgear, lineBase, if_neg hstop]
    simp only [hstop]
    rfl
  · have hstop : IsStop g := Or.inl hzero
    have hgear : commandedGear g = g := if_neg hem
    rw [foldl_addUartSendData2Queue
      (fun u i => speedNode (i + 1) (g.setWidth 16) (u.belt i).stopDelayTime)
      (fun _ _ _ => rfl), lineNodes_ascending fun h => h.1 hstop, hgear, lineBase, if_pos hstop]
    simp only [hzero, if_true]
    rfl
  · have hstop : ¬ IsStop g := fun h => h.elim hzero hem
    have hgear : commandedGear g = g := if_neg hem
    rw [foldl_addUartSendData2Queue
      (fun _ i => speedNode (i + 1) (g.setWidth 16) 20) (fun _ _ _ => rfl),
      lineNodes_ascending fun h => hrun.1 h.2, hgear, lineBase, if_neg hstop]
    simp only [hstop, hzero, if_false]
    rfl
  · exact absurd ⟨fun h => hstart ⟨h, by bv_omega⟩, hzero⟩ hrun

@[simp] theorem speedCtrlProcess_gear (g : U8) (s : Station) :
    (speedCtrlProcess g s).logic.gSpeedGearStatus = commandedGear g := by
  rw [speedCtrlProcess_eq]
  rfl

@[simp] theorem speedCtrlProcess_trace (g : U8) (s : Station) :
    (speedCtrlProcess g s).trace = .speedCall g s.inFlight :: s.trace := by
  rw [speedCtrlProcess_eq]
  rfl

@[simp] theorem speedCtrlProcess_inFlight (g : U8) (s : Station) :
    (speedCtrlProcess g s).inFlight = s.inFlight := by
  rw [speedCtrlProcess_eq]
  rfl

@[simp] theorem speedCtrlProcess_can (g : U8) (s : Station) :
    (speedCtrlProcess g s).can = s.can := by
  rw [speedCtrlProcess_eq]
  rfl

@[simp] theorem speedCtrlProcess_msg (g : U8) (s : Station) :
    (speedCtrlProcess g s).msg = s.msg := by
  rw [speedCtrlProcess_eq]
  rfl

theorem speedCtrlProcess_uartNodes (g : U8) (s : Station) :
    (speedCtrlProcess g s).uartNodes = ((lineBase g s).addAll (lineNodes g s)).contents := by
  rw [speedCtrlProcess_eq]
  rfl

/-! ## Whether the whole command is queued -/

/-- What a queued write is judged by: its kind, belt, gear and retries. -/
def CommNode.key (x : CommNode) : U16 × U16 × U16 × U16 :=
  (x.rwFlag, x.inverterNo, x.speedGear, x.commRetry)

/-- One write for each belt, with the commanded gear and three retries. -/
def lineKeys (speedGear : U8) (s : Station) : List (U16 × U16 × U16 × U16) :=
  (beltOrder speedGear s).map fun no =>
    (1, BitVec.ofNat 16 no, (commandedGear speedGear).setWidth 16, 3)

/-- If the command leaves its gear in force, the queue ends with its writes. -/
def LineCommandQueued (speedGear : U8) (s : Station) : Prop :=
  (speedCtrlProcess speedGear s).logic.gSpeedGearStatus = commandedGear speedGear →
    lineKeys speedGear s <:+ (speedCtrlProcess speedGear s).uartNodes.map CommNode.key

instance (g : U8) (s : Station) : Decidable (LineCommandQueued g s) :=
  inferInstanceAs (Decidable (_ → _))

/-- The queue has room for every belt, the command empties it first, or it is
full and ends with the very same writes. -/
def LineCommandFits (speedGear : U8) (s : Station) : Prop :=
  IsStop speedGear ∨ s.uartNodes.length + s.beltNumber < 30 ∨
    (s.uartNodes.length = 29 ∧ lineKeys speedGear s <:+ s.uartNodes.map CommNode.key)

theorem lineNodes_key (g : U8) (s : Station) :
    (lineNodes g s).map CommNode.key = lineKeys g s := by
  simp [lineNodes, lineKeys, CommNode.key, speedNode, Function.comp_def]

theorem length_beltOrder (g : U8) (s : Station) :
    (beltOrder g s).length = s.beltNumber := by
  unfold beltOrder
  split_ifs <;> simp

/-- A command names every belt once. -/
theorem mem_beltOrder_iff (g : U8) (s : Station) (no : Nat) :
    no ∈ beltOrder g s ↔ 1 ≤ no ∧ no ≤ s.beltNumber := by
  unfold beltOrder
  split_ifs
  all_goals
    simp only [List.mem_map, List.mem_range]
  · refine ⟨?_, fun h => ⟨s.beltNumber - no, by omega, by omega⟩⟩
    rintro ⟨i, hi, rfl⟩
    omega
  · refine ⟨?_, fun h => ⟨no - 1, by omega, by omega⟩⟩
    rintro ⟨i, hi, rfl⟩
    omega

/-- What a command queues follows the gear it leaves in force. -/
theorem queues_of_mem_lineNodes {g : U8} {s : Station} {x : CommNode} (hx : x ∈ lineNodes g s) :
    (speedCtrlProcess g s).Queues x := by
  obtain ⟨no, hno, rfl⟩ := List.mem_map.mp hx
  obtain ⟨hpos, hle⟩ := (mem_beltOrder_iff g s no).mp hno
  have hbelt : (speedCtrlProcess g s).beltNumber = s.beltNumber :=
    (speedCtrlProcess_keeps g s).beltNumber
  refine speedNode_queues ⟨hpos, Or.inl (by rw [hbelt]; exact hle)⟩ (Or.inr ?_)
  rw [speedCtrlProcess_gear]

/-- A command queues writes with its own gear, and a stop keeps nothing else. -/
theorem speedCtrlProcess_mem_uartNodes {g : U8} {s : Station} {x : CommNode}
    (hx : x ∈ (speedCtrlProcess g s).uartNodes) :
    (x ∈ s.uartNodes ∧ ¬ IsStop g) ∨ (speedCtrlProcess g s).Queues x := by
  rw [speedCtrlProcess_uartNodes, RingFifo.contents_addAll] at hx
  rcases List.mem_append.mp hx with hx | hx
  · unfold lineBase at hx
    split_ifs at hx with hstop
    · simp at hx
    · exact Or.inl ⟨hx, hstop⟩
  · exact Or.inr (queues_of_mem_lineNodes (List.mem_of_mem_take hx))

theorem beltOrder_nodup (g : U8) (s : Station) : (beltOrder g s).Nodup := by
  unfold beltOrder
  split_ifs
  all_goals
    refine List.Nodup.map_on ?_ List.nodup_range
    intro i hi j hj h
    simp only [List.mem_range] at hi hj
    omega

theorem lineKeys_nodup (g : U8) (s : Station) : (lineKeys g s).Nodup := by
  refine List.Nodup.map_on ?_ (beltOrder_nodup g s)
  intro i hi j hj h
  have hN := s.beltNumber_le
  have hi' := (mem_beltOrder_iff g s i).mp hi
  have hj' := (mem_beltOrder_iff g s j).mp hj
  have hno : BitVec.ofNat 16 i = BitVec.ofNat 16 j := by
    simpa using congrArg (fun p => p.2.1) h
  have := congrArg BitVec.toNat hno
  simp only [BitVec.toNat_ofNat] at this
  omega

/-- **No line command is lost, exactly when it fits.**  For every station and
every gear byte. -/
theorem lineCommand_queued_iff (g : U8) (s : Station) :
    LineCommandQueued g s ↔ LineCommandFits g s := by
  have hN := s.beltNumber_le
  have hlen : (lineNodes g s).length = s.beltNumber := by
    rw [lineNodes, List.length_map, length_beltOrder]
  have hiff := RingFifo.suffix_addAll_iff CommNode.key (lineBase g s)
    (by rw [lineNodes_key]; exact lineKeys_nodup g s)
  rw [lineNodes_key, hlen] at hiff
  unfold LineCommandQueued LineCommandFits
  rw [speedCtrlProcess_gear, speedCtrlProcess_uartNodes]
  simp only [forall_const]
  rw [hiff]
  by_cases hstop : IsStop g
  · have hroom : (lineBase g s).contents.length + s.beltNumber < 30 := by
      rw [lineBase, if_pos hstop, RingFifo.contents_clear, List.length_nil]
      omega
    exact iff_of_true (Or.inl hroom) (Or.inl hstop)
  · have hbase : lineBase g s = s.logic.uartSendQueue := if_neg hstop
    have hfull : (lineBase g s).IsFull ↔ s.uartNodes.length = 29 := by
      rw [hbase, RingFifo.isFull_iff, Station.uartNodes]
      omega
    rw [hfull, hbase]
    simp only [hstop, false_or]
    rfl

/-- A frame with a line command of the host. -/
def startFrame (speedGear : U8) : CanRxMsg :=
  canBusSendOneFrame
    { segPolo := .none
      segNum := 0
      funcId := CAN_FUNC_ID_START_CMD
      srcId := 1
      data := [speedGear] }

/-- A flash whose parameter page holds nothing but a belt count. -/
def beltFlash (beltNumber : U16) : Flash :=
  { userPara := fun k => if k = 2 then beltNumber else 0
    userAppEnFlag := 0xFFFF }

/-- Slave 2 with ten belts, after the gears 2 and 3 were commanded in a row: twenty
writes wait, and the next command has room for nine of its ten. -/
theorem third_start_loses_belts :
    ¬ ∀ s, Reachable (fun _ _ => True) s → ∀ g : U8, g ≤ 6 ∨ g = EMERGENCY_STOP →
      LineCommandQueued g s := by
  intro h
  have hreach : Reachable (fun _ _ => True)
      (run step (boot (beltFlash 10) 2) [.canFrame (startFrame 2), .canFrame (startFrame 3)]) :=
    reach_run ⟨_, _, rfl⟩ (Along.of_forall (fun _ _ => trivial) _ _)
  exact absurd (h _ hreach 4 (Or.inl (by decide))) (by decide +kernel)

end IotCtrl
