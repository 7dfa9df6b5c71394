import IotCtrl.LineStop

/-!
# Invariants of the line

Two invariants of every run, each with one case for every kind of move: the gear in
force against the queue and the line-run output, and the ranges of the queued commands.

* `gear_matches_queue` — with gear 0 no run command waits, and `B_RUN_STA` shows whether
  the gear is 0;
* `reachable_rangeInv` — queued commands have a known kind, one of ten inverters and at most
  three retries, and so has the command in flight.
-/

namespace IotCtrl

open ByteMemory Transition ClosedFacts

/-! ## The gear in force -/

/-- The gear in force agrees with the queue and the output. -/
structure GearInv (s : Station) : Prop where
  queue : s.logic.gSpeedGearStatus = 0 → ∀ x ∈ s.uartNodes, ¬ x.IsRun
  output : s.outs.bRunStaOut = true ↔ s.logic.gSpeedGearStatus ≠ 0

namespace GearInv

variable {s t : Station}

/-- A routine that leaves the gear alone and queues no run command at standstill. -/
theorem of_same (h : GearInv s) {ps : List Part} (hk : Keeps ps s t)
    (hqueue : s.logic.gSpeedGearStatus = 0 → ∀ x ∈ t.uartNodes, x ∈ s.uartNodes ∨ ¬ x.IsRun)
    [hgear : Evident (.gear ∉ ps)] [hsta : Evident (.runSta ∉ ps)] : GearInv t := by
  have hg := hk.gear
  have ho : t.outs.bRunStaOut = s.outs.bRunStaOut := hk.same .runSta hsta.out
  constructor
  · intro hzero x hx
    rw [hg] at hzero
    exact (hqueue hzero x hx).elim (h.queue hzero x) id
  · rw [hg, ho]
    exact h.output

/-- A routine that does not queue. -/
theorem of_keeps (h : GearInv s) {ps : List Part} (hk : Keeps ps s t)
    [hgear : Evident (.gear ∉ ps)] [hsta : Evident (.runSta ∉ ps)]
    [huart : Evident (.uartQueue ∉ ps)] : GearInv t :=
  h.of_same hk (fun _ _ hx => Or.inl (hk.uartNodes ▸ hx))

/-- A line command establishes the agreement, whatever it finds. -/
theorem speedCtrlProcess (g : U8) (s : Station) : GearInv (speedCtrlProcess g s) := by
  have hgear := speedCtrlProcess_gear g s
  constructor
  · intro hzero x hx
    rw [hgear] at hzero
    rcases speedCtrlProcess_mem_uartNodes hx with ⟨-, hrun⟩ | hq
    · exact absurd ((commandedGear_eq_zero_iff g).mp hzero) hrun
    · have hfollows := hq.toFollows
      rw [hgear, hzero] at hfollows
      exact hfollows.not_isRun
  · have hout : (IotCtrl.speedCtrlProcess g s).outs.bRunStaOut = decide (¬ IsStop g) := by
      rw [speedCtrlProcess_eq]
      rfl
    rw [hgear, hout, decide_eq_true_iff, Ne, commandedGear_eq_zero_iff]

theorem commTakeNode (h : GearInv s) : GearInv (commTakeNode s) := by
  refine h.of_same (commTakeNode_keeps s) fun _ x hx => Or.inl ?_
  rcases commTakeNode_cases s with ⟨-, heq⟩ | ⟨y, hcontents, -, -⟩
  · rwa [heq] at hx
  · rw [hcontents]
    exact List.mem_cons_of_mem _ hx

end GearInv

theorem retry_keeps (s : Station) : Keeps [.node, .uartState] s
    (setCommuState .sendReady (setCommNode (retryNode s.logic.commNode) s)) :=
  ((setCommuState_keeps _ _).mono).after ((setCommNode_keeps _ _).mono)

theorem Move.gearInv {P : U8 → Prop} {s t : Station} (hm : Move P s t) (h : GearInv s) :
    GearInv t := by
  cases hm with
  | aside ha => exact h.of_keeps ha.keeps
  | handler hq =>
      refine h.of_same hq.keeps fun hzero x hx => ?_
      exact (hq.mem_uartNodes hx).imp id fun hqueue => (hzero ▸ hqueue.toFollows).not_isRun
  | poll speedGear _ =>
      refine h.of_same (mainMsoneProcess_polls speedGear s).1 fun _ x hx => ?_
      refine (mainMsoneProcess_mem_uartNodes hx).imp id fun hpoll => ?_
      obtain ⟨num, -, rfl⟩ := hpoll
      exact pollNode_not_isRun num speedGear
  | command _ _ => exact GearInv.speedCtrlProcess _ _
  | take _ => exact h.commTakeNode
  | send stack _ => exact h.of_keeps (commSendRwComand_keeps stack s)
  | retry _ _ => exact h.of_keeps (retry_keeps s)
  | release _ => exact h.of_keeps (setCommBusy_keeps _ _)
  | tick _ => exact h.of_keeps (uartRecvTimeout_keeps s)

@[simp] theorem boot_uartNodes (flash : Flash) (localStation : U8) :
    (boot flash localStation).uartNodes = [] :=
  ((boot_keeps flash localStation).uartNodes).trans (RingFifo.contents_empty _ _)

theorem boot_gearInv (flash : Flash) (localStation : U8) : GearInv (boot flash localStation) := by
  have hk := boot_keeps flash localStation
  have hg : (boot flash localStation).logic.gSpeedGearStatus = 0 := hk.gear
  have ho : (boot flash localStation).outs.bRunStaOut = false := hk.same .runSta (by decide)
  constructor
  · intro _ x hx
    rw [boot_uartNodes] at hx
    exact absurd hx List.not_mem_nil
  · simp [hg, ho]

/-- **Gear, queue and output agree** in every reachable state: with gear 0 no run command
waits, and the output is high exactly with another gear. -/
theorem gear_matches_queue {s : Station} (h : Reachable (fun _ _ => True) s) :
    (s.logic.gSpeedGearStatus = 0 → ∀ x ∈ s.uartNodes, ¬ x.IsRun) ∧
      (s.outs.bRunStaOut = true ↔ s.logic.gSpeedGearStatus ≠ 0) := by
  have hinv : GearInv s := reachable_of_moves (fun _ _ _ _ _ => trivial) boot_gearInv
    (fun _ _ hm => hm.gearInv) h
  exact ⟨hinv.queue, hinv.output⟩

/-- After a start and a stop. -/
theorem gear_matches_queue_after_stop :
    (run step (boot oneBeltFlash 2)
        [.canFrame (startFrame 2), .canFrame (startFrame 0)]).logic.gSpeedGearStatus = 0 ∧
      ∀ x ∈ (run step (boot oneBeltFlash 2)
        [.canFrame (startFrame 2), .canFrame (startFrame 0)]).uartNodes, ¬ x.IsRun := by
  have hreach : Reachable (fun _ _ => True) (run step (boot oneBeltFlash 2)
      [.canFrame (startFrame 2), .canFrame (startFrame 0)]) :=
    reach_run ⟨_, _, rfl⟩ (Along.of_forall (fun _ _ => trivial) _ _)
  have hstopped : (run step (boot oneBeltFlash 2)
      [.canFrame (startFrame 2), .canFrame (startFrame 0)]).logic.gSpeedGearStatus = 0 := by
    decide +kernel
  exact ⟨hstopped, (gear_matches_queue hreach).1 hstopped⟩

/-! ## The ranges of the queued commands -/

/-- A command of a known kind, for one of ten inverters, with at most three retries. -/
structure CommNode.InRange (x : CommNode) : Prop where
  rwFlag : x.rwFlag.toNat ≤ 2
  inverterNo : 1 ≤ x.inverterNo.toNat ∧ x.inverterNo.toNat ≤ 10
  commRetry : x.commRetry.toNat ≤ 3

/-- Every command that waits or is in flight is in range, and so is the last inverter
polled. -/
structure RangeInv (s : Station) : Prop where
  queue : ∀ x ∈ s.uartNodes, x.InRange
  flight : ∀ x ∈ s.inFlight, x.InRange
  polling : s.logic.pollingNum.toNat ≤ 10

/-- What a handler queues is in range if the command in flight is. -/
theorem Station.Queues.inRange {s : Station} {x : CommNode} (h : s.Queues x)
    (hflight : ∀ y ∈ s.inFlight, y.InRange) : x.InRange := by
  obtain ⟨⟨hrw, -⟩, hbelt, hretry⟩ := h
  have hn := s.beltNumber_le
  refine ⟨hrw, ⟨hbelt.1, ?_⟩, hretry⟩
  rcases hbelt.2 with hown | hphoto | ⟨y, hy, hlt⟩
  · omega
  · omega
  · have hy10 := (hflight y hy).inverterNo.2
    omega

/-- The counter wraps to 1 behind the last belt. -/
theorem pollNum_range {s : Station} {num : U8} (hpolling : s.logic.pollingNum.toNat ≤ 10)
    (hnum : num = 1 ∨ num = s.logic.pollingNum + 1 ∧ num.toNat ≤ s.beltNumber) :
    1 ≤ num.toNat ∧ num.toNat ≤ 10 := by
  have hn := s.beltNumber_le
  rcases hnum with rfl | ⟨hnext, hle⟩
  · decide
  · refine ⟨?_, by omega⟩
    rw [hnext]
    bv_omega

theorem pollNode_inRange {s : Station} {num : U8} (speedGear : U16)
    (hpolling : s.logic.pollingNum.toNat ≤ 10)
    (hnum : num = 1 ∨ num = s.logic.pollingNum + 1 ∧ num.toNat ≤ s.beltNumber) :
    (pollNode num speedGear).InRange := by
  have hrange := pollNum_range hpolling hnum
  have hwide : (num.setWidth 16 : U16).toNat = num.toNat := BitVec.toNat_setWidth_of_le (by decide)
  rw [← hwide] at hrange
  exact ⟨by simp [pollNode], hrange, by simp [pollNode]⟩

namespace RangeInv

variable {s t : Station}

/-- A routine beside the command in flight and the polling counter. -/
theorem of_same (h : RangeInv s) {ps : List Part} (hk : Keeps ps s t)
    (hqueue : ∀ x ∈ t.uartNodes, x.InRange) [hnode : Evident (.node ∉ ps)]
    [hpoll : Evident (.polling ∉ ps)] : RangeInv t := by
  have hp : t.logic.pollingNum = s.logic.pollingNum := hk.same .polling hpoll.out
  refine ⟨hqueue, ?_, ?_⟩
  · rw [hk.inFlight]
    exact h.flight
  · rw [hp]
    exact h.polling

/-- A change of the command in flight only. -/
theorem of_flight (h : RangeInv s) (hk : Keeps [.node, .uartState] s t)
    (hflight : ∀ x ∈ t.inFlight, x.InRange) : RangeInv t := by
  have hp : t.logic.pollingNum = s.logic.pollingNum := hk.same .polling (by decide)
  refine ⟨?_, hflight, ?_⟩
  · rw [hk.uartNodes]
    exact h.queue
  · rw [hp]
    exact h.polling

theorem poll (h : RangeInv s) (speedGear : U16) : RangeInv (mainMsoneProcess speedGear s) := by
  obtain ⟨hk, hcases⟩ := mainMsoneProcess_polls speedGear s
  refine ⟨?_, ?_, ?_⟩
  · intro x hx
    rcases mainMsoneProcess_mem_uartNodes hx with hx | ⟨num, hnum, rfl⟩
    · exact h.queue x hx
    · exact pollNode_inRange speedGear h.polling hnum
  · rw [hk.inFlight]
    exact h.flight
  · rcases hcases with hsame | ⟨num, hnum, hpolling, -⟩
    · have hp : (mainMsoneProcess speedGear s).logic.pollingNum = s.logic.pollingNum :=
        hsame.same .polling (by decide)
      rw [hp]
      exact h.polling
    · rw [hpolling]
      exact (pollNum_range h.polling hnum).2

theorem commTakeNode (h : RangeInv s) : RangeInv (commTakeNode s) := by
  have hk := commTakeNode_keeps s
  have hp : (IotCtrl.commTakeNode s).logic.pollingNum = s.logic.pollingNum :=
    hk.same .polling (by decide)
  rcases commTakeNode_cases s with ⟨-, heq⟩ | ⟨x, hcontents, hflight, -⟩
  · rwa [heq]
  · refine ⟨fun y hy => h.queue y ?_, fun y hy => ?_, hp ▸ h.polling⟩
    · rw [hcontents]
      exact List.mem_cons_of_mem _ hy
    · obtain ⟨hrw, hno, hretry⟩ := h.queue x (hcontents ▸ List.mem_cons_self)
      obtain rfl : fixInterval x = y := Option.some.inj (hflight.symm.trans hy)
      obtain ⟨interval, hfix⟩ := fixInterval_eq x
      rw [hfix]
      exact ⟨hrw, hno, hretry⟩

end RangeInv

/-- A command in flight whose waiting time or retries were counted down. -/
theorem inFlight_inRange {s t : Station} (hbusy : t.logic.commBusyFlag = s.logic.commBusyFlag)
    (hnode : s.logic.commNode.InRange → t.logic.commNode.InRange)
    (h : ∀ x ∈ s.inFlight, x.InRange) : ∀ x ∈ t.inFlight, x.InRange := by
  intro x hx
  unfold Station.inFlight at h hx
  rw [hbusy] at hx
  split_ifs at h hx with hb
  · obtain rfl : t.logic.commNode = x := Option.some.inj hx
    exact hnode (h _ rfl)
  · exact absurd hx (by simp)

theorem Move.rangeInv {P : U8 → Prop} {s t : Station} (hm : Move P s t) (h : RangeInv s) :
    RangeInv t := by
  cases hm with
  | aside ha => exact h.of_same ha.keeps (ha.keeps.uartNodes ▸ h.queue)
  | handler hq =>
      refine h.of_same hq.keeps fun x hx => ?_
      exact (hq.mem_uartNodes hx).elim (h.queue x) fun hqueue => hqueue.inRange h.flight
  | poll speedGear _ => exact h.poll speedGear
  | command _ _ =>
      rename_i g _
      have hflight : ∀ y ∈ (speedCtrlProcess g s).inFlight, y.InRange := by
        rw [speedCtrlProcess_inFlight]
        exact h.flight
      refine h.of_same (speedCtrlProcess_keeps g s) fun x hx => ?_
      exact (speedCtrlProcess_mem_uartNodes hx).elim (fun hold => h.queue x hold.1)
        fun hqueue => hqueue.inRange hflight
  | take _ => exact h.commTakeNode
  | send stack _ =>
      have hk := commSendRwComand_keeps stack s
      exact h.of_same hk (hk.uartNodes ▸ h.queue)
  | retry _ hleft =>
      refine h.of_flight (retry_keeps s) ?_
      refine inFlight_inRange (s := s) rfl (fun hnode => ?_) h.flight
      refine ⟨hnode.rwFlag, hnode.inverterNo, ?_⟩
      have hretry := hnode.commRetry
      show (s.logic.commNode.commRetry - 1).toNat ≤ 3
      bv_omega
  | release _ =>
      refine h.of_flight ((setCommBusy_keeps _ _).mono) ?_
      simp [Station.inFlight, setCommBusy]
  | tick _ =>
      obtain ⟨hbusy, interval, hnode⟩ := uartRecvTimeout_node s
      refine h.of_flight (uartRecvTimeout_keeps s) (inFlight_inRange hbusy (fun hr => ?_) h.flight)
      rw [hnode]
      exact ⟨hr.rwFlag, hr.inverterNo, hr.commRetry⟩

theorem boot_rangeInv (flash : Flash) (localStation : U8) :
    RangeInv (boot flash localStation) := by
  have hk := boot_keeps flash localStation
  have hp : (boot flash localStation).logic.pollingNum = 0 := hk.same .polling (by decide)
  have hf : (boot flash localStation).inFlight = none := hk.inFlight
  refine ⟨?_, ?_, ?_⟩
  · simp
  · simp [hf]
  · simp [hp]

theorem reachable_rangeInv {ok : Station → Input → Prop} {s : Station} (h : Reachable ok s) :
    RangeInv s :=
  reachable_of_moves (fun _ _ _ _ _ => trivial) boot_rangeInv (fun _ _ hm => hm.rangeInv) h

end IotCtrl
