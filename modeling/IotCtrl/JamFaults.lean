import IotCtrl.Panel
import IotCtrl.PollStatus
import Mathlib.Data.List.TakeWhile

/-!
# Jam detection

Once a second `Block_Check_Ctrl_Handle` looks at every belt.  A belt whose detection is on,
that runs and whose photo sensor is blocked counts up, and at its `Block_Check_Time` a jam is
raised; a clear sensor starts the count over.

* `blockCheckCtrlHandle_done` — one check, for all belts at once;
* `jam_needs_blockage` — a jam raised after `T` means `T` blocked checks in a row, as long as
  no check passes over a belt that has begun to count;
* `interrupted_blockage_jams` — a check that does;
* `jams_latched` — jam bits and alarm are set exactly by the jams raised since the last reset.
-/

namespace IotCtrl

open ByteMemory Transition ClosedFacts

/-! ## One belt -/

/-- Jam detection is on for belt `k`. -/
def DetectionOn (k : Nat) (s : Station) : Prop :=
  s.logic.gBlockDisableFlag ≠ 1 ∧ k < s.beltNumber ∧ bitAt (s.belt k).funcSelectSwitch 2 ≠ 0

instance (k : Nat) (s : Station) : Decidable (DetectionOn k s) :=
  inferInstanceAs (Decidable (_ ∧ _))

/-- The body of the loop looks at the sensor of belt `k`. -/
def looksAt (k : Nat) (s : Station) : Bool :=
  bitAt (s.belt k).funcSelectSwitch 2 ≠ 0 && s.runBit k

/-- The count of belt `k` reaches its limit. -/
def reachesLimit (pins : Pins) (k : Nat) (s : Station) (cnt : U32) : Bool :=
  looksAt k s && getPhotoInputStatus pins k &&
    decide ((s.belt k).blockCheckTime.setWidth 32 ≤ cnt + 1)

/-- The count of belt `k` behind the loop body. -/
def nextBlockCnt (pins : Pins) (k : Nat) (s : Station) (cnt : U32) : U32 :=
  if looksAt k s then
    if getPhotoInputStatus pins k then if reachesLimit pins k s cnt then 0 else cnt + 1 else 0
  else cnt

/-- The panel behind the loop body for belt `i`, with the parameters and the running state of
`s`. -/
def Panel.checkBelt (pins : Pins) (s : Station) (p : Panel) (i : Nat) : Panel :=
  { p with
    blockCheckTimeCnt :=
      p.blockCheckTimeCnt.set i (nextBlockCnt pins i s (p.blockCheckTimeCnt.get i))
    lAlarmOut := p.lAlarmOut || reachesLimit pins i s (p.blockCheckTimeCnt.get i)
    jam := fun k =>
      p.jam k || (decide (k = i) && reachesLimit pins i s (p.blockCheckTimeCnt.get i)) }

theorem Table.set_get_self {n : Nat} {α : Type} [Inhabited α] (t : Table n α) (i : Nat) :
    t.set i (t.get i) = t := by
  funext k
  unfold Table.set Table.get
  split_ifs with hk hlt
  · subst hk
    rfl
  · exact absurd (hk ▸ k.isLt) hlt
  · rfl

theorem runBit_lt {s : Station} {i : Nat} (h : s.runBit i = true) : i < 10 := by
  by_contra hge
  unfold Station.runBit at h
  rw [inverter_of_ge hge] at h
  exact Bool.false_ne_true h

theorem looksAt_iff (k : Nat) (s : Station) :
    looksAt k s = true ↔
      bitAt (s.belt k).funcSelectSwitch 2 ≠ 0 ∧ bitAt (s.inverter k).faultCode 4 ≠ 0 := by
  unfold looksAt
  rw [Bool.and_eq_true, decide_eq_true_iff, bitAt_ne_zero_iff (s.inverter k).faultCode 4]
  rfl

theorem Panel.checkBelt_of_not_looks {pins : Pins} {s : Station} {i : Nat}
    (h : looksAt i s = false) : s.panel.checkBelt pins s i = s.panel := by
  unfold Panel.checkBelt nextBlockCnt reachesLimit
  simp [h, Table.set_get_self]

/-- A count that does not reach its limit. -/
theorem Panel.checkBelt_of_not_reached {pins : Pins} {s : Station} {i : Nat}
    (h : reachesLimit pins i s (s.logic.blockCheckTimeCnt.get i) = false) :
    s.panel.checkBelt pins s i =
      { s.panel with
        blockCheckTimeCnt := s.logic.blockCheckTimeCnt.set i
          (nextBlockCnt pins i s (s.logic.blockCheckTimeCnt.get i)) } := by
  have hcnt : s.panel.blockCheckTimeCnt = s.logic.blockCheckTimeCnt := rfl
  unfold Panel.checkBelt
  simp only [hcnt, h, Bool.and_false, Bool.or_false]

theorem reachesLimit_eq {pins : Pins} {s : Station} {k : Nat} (hlook : looksAt k s = true)
    (hphoto : getPhotoInputStatus pins k = true) (cnt : U32) :
    reachesLimit pins k s cnt = decide ((s.belt k).blockCheckTime.setWidth 32 ≤ cnt + 1) := by
  unfold reachesLimit
  rw [hlook, hphoto]
  rfl

/-- Raising a jam sets bit 1 of the record of belt `i`. -/
theorem raise_panel {t : Station} {i : Nat} (hi : i < 10) :
    (t.setInverter i
      { t.inverter i with faultCode := (t.inverter i).faultCode ||| 0x2 }).panel =
      t.panel.setJam fun k => t.jam k || decide (k = i) := by
  have hbit : (0x2 : U16).getLsbD 1 = true := rfl
  rw [setInverter_panel_eq]
  refine congrArg t.panel.setJam (funext fun k => ?_)
  rw [setInverter_jam_apply]
  by_cases hk : k = i
  · rw [if_pos ⟨hk, hi⟩, BitVec.getLsbD_or, hbit]
    simp [hk]
  · rw [if_neg fun hand => hk hand.1]
    simp [hk]

theorem blockCheckBelt_panel (pins : Pins) (s : Station) (i : Nat) :
    (blockCheckBelt pins s i).panel = s.panel.checkBelt pins s i := by
  have hiff := looksAt_iff i s
  unfold blockCheckBelt
  by_cases hlook : looksAt i s = true
  · obtain ⟨hswitch, hrunning⟩ := hiff.mp hlook
    have hi : i < 10 := runBit_lt ((bitAt_ne_zero_iff _ 4).mp hrunning)
    rw [if_pos hswitch, if_pos hrunning]
    by_cases hphoto : getPhotoInputStatus pins i = true
    · have hreach := reachesLimit_eq hlook hphoto (s.logic.blockCheckTimeCnt.get i)
      rw [if_pos hphoto]
      dsimp only
      by_cases hlimit : (s.belt i).blockCheckTime.setWidth 32 ≤
          s.logic.blockCheckTimeCnt.get i + 1
      · rw [decide_eq_true hlimit] at hreach
        have hcnt : s.panel.blockCheckTimeCnt = s.logic.blockCheckTimeCnt := rfl
        rw [if_pos (by exact hlimit), raise_panel hi]
        unfold Panel.checkBelt nextBlockCnt
        simp only [hcnt, hlook, hphoto, hreach, if_true, Bool.or_true, Bool.and_true]
        rw [Table.set_set]
        rfl
      · rw [decide_eq_false hlimit] at hreach
        rw [if_neg (by exact hlimit), Panel.checkBelt_of_not_reached hreach, nextBlockCnt,
          if_pos hlook, if_pos hphoto, if_neg (by simp [hreach])]
        rfl
    · have hreach : reachesLimit pins i s (s.logic.blockCheckTimeCnt.get i) = false := by
        simp [reachesLimit, hphoto]
      rw [if_neg hphoto, Panel.checkBelt_of_not_reached hreach, nextBlockCnt, if_pos hlook,
        if_neg hphoto]
      rfl
  · rw [Panel.checkBelt_of_not_looks (by simpa using hlook)]
    by_cases hswitch : bitAt (s.belt i).funcSelectSwitch 2 ≠ 0
    · rw [if_pos hswitch, if_neg fun hrunning => hlook (hiff.mpr ⟨hswitch, hrunning⟩)]
    · rw [if_neg hswitch]

/-! ## All belts -/

theorem Panel.checkBelt_congr {pins : Pins} {s t : Station}
    (hparas : t.logic.userParasLocal = s.logic.userParasLocal) (hrun : t.runBit = s.runBit)
    (p : Panel) (i : Nat) : p.checkBelt pins t i = p.checkBelt pins s i := by
  unfold Panel.checkBelt nextBlockCnt reachesLimit looksAt Station.belt
  rw [hparas, hrun]

/-- The loop body reads the parameters and the running state only, and it leaves them. -/
theorem foldl_blockCheckBelt_panel (pins : Pins) {s : Station} (is : List Nat) {t : Station}
    (hparas : t.logic.userParasLocal = s.logic.userParasLocal) (hrun : t.runBit = s.runBit)
    (his : ∀ i ∈ is, i < s.beltNumber) :
    (is.foldl (blockCheckBelt pins) t).panel = is.foldl (Panel.checkBelt pins s) t.panel := by
  induction is generalizing t with
  | nil => rfl
  | cons i is ih =>
      have hi : i < t.beltNumber := by
        unfold Station.beltNumber
        rw [hparas]
        exact his i List.mem_cons_self
      have hquiet := (blockCheckBelt_quiet pins hi).keeps
      have hparas' : (blockCheckBelt pins t i).logic.userParasLocal = t.logic.userParasLocal :=
        hquiet.same .paras (by decide)
      have hrun' : (blockCheckBelt pins t i).runBit = t.runBit := hquiet.same .runBits (by decide)
      rw [List.foldl_cons, List.foldl_cons, ih (hparas'.trans hparas) (hrun'.trans hrun)
        fun j hj => his j (List.mem_cons_of_mem i hj), blockCheckBelt_panel,
        Panel.checkBelt_congr hparas hrun]

/-- Every belt is looked at once. -/
structure Panel.Checked (pins : Pins) (s : Station) (is : List Nat) (p q : Panel) : Prop where
  cnt : ∀ k, q.blockCheckTimeCnt.get k =
    if k ∈ is then nextBlockCnt pins k s (p.blockCheckTimeCnt.get k) else p.blockCheckTimeCnt.get k
  jam : ∀ k, q.jam k = true ↔
    p.jam k = true ∨ k ∈ is ∧ reachesLimit pins k s (p.blockCheckTimeCnt.get k) = true
  alarm : q.lAlarmOut = true ↔
    p.lAlarmOut = true ∨ ∃ k ∈ is, reachesLimit pins k s (p.blockCheckTimeCnt.get k) = true

theorem checkBelt_cnt_ne (pins : Pins) (s : Station) (p : Panel) {i k : Nat} (h : k ≠ i) :
    (p.checkBelt pins s i).blockCheckTimeCnt.get k = p.blockCheckTimeCnt.get k :=
  Table.get_set_ne _ h _

theorem foldl_checkBelt (pins : Pins) (s : Station) {is : List Nat} (hnodup : is.Nodup)
    (his : ∀ i ∈ is, i < 10) (p : Panel) :
    Panel.Checked pins s is p (is.foldl (Panel.checkBelt pins s) p) := by
  induction is generalizing p with
  | nil => exact ⟨fun k => by simp, fun k => by simp, by simp⟩
  | cons i is ih =>
      obtain ⟨hfresh, hnodup⟩ := List.nodup_cons.mp hnodup
      have hi := his i List.mem_cons_self
      obtain ⟨hcnt, hjam, halarm⟩ :=
        ih hnodup (fun j hj => his j (List.mem_cons_of_mem i hj)) (p.checkBelt pins s i)
      have hrest : ∀ k ∈ is, (p.checkBelt pins s i).blockCheckTimeCnt.get k =
          p.blockCheckTimeCnt.get k := fun k hk =>
        checkBelt_cnt_ne pins s p fun heq => hfresh (heq ▸ hk)
      refine ⟨fun k => ?_, fun k => ?_, ?_⟩
      · rw [List.foldl_cons, hcnt]
        by_cases hk : k = i
        · subst hk
          rw [if_neg hfresh, if_pos List.mem_cons_self]
          exact Table.get_set_self _ hi _
        · rw [checkBelt_cnt_ne pins s p hk]
          simp only [List.mem_cons, hk, false_or]
      · rw [List.foldl_cons, hjam]
        have hhead : (p.checkBelt pins s i).jam k = true ↔ p.jam k = true ∨
            k = i ∧ reachesLimit pins i s (p.blockCheckTimeCnt.get i) = true := by
          unfold Panel.checkBelt
          simp only [Bool.or_eq_true, Bool.and_eq_true, decide_eq_true_iff]
        rw [hhead, or_assoc]
        refine or_congr_right ⟨?_, ?_⟩
        · rintro (⟨rfl, hreach⟩ | ⟨hk, hreach⟩)
          · exact ⟨List.mem_cons_self, hreach⟩
          · exact ⟨List.mem_cons_of_mem i hk, by rwa [hrest k hk] at hreach⟩
        · rintro ⟨hk, hreach⟩
          rcases List.mem_cons.mp hk with rfl | hk
          · exact Or.inl ⟨rfl, hreach⟩
          · exact Or.inr ⟨hk, by rwa [hrest k hk]⟩
      · rw [List.foldl_cons, halarm]
        have hhead : (p.checkBelt pins s i).lAlarmOut = true ↔ p.lAlarmOut = true ∨
            reachesLimit pins i s (p.blockCheckTimeCnt.get i) = true := by
          unfold Panel.checkBelt
          simp only [Bool.or_eq_true]
        rw [hhead, or_assoc, List.exists_mem_cons_iff]
        refine or_congr_right (or_congr_right ⟨?_, ?_⟩)
        · rintro ⟨k, hk, hreach⟩
          exact ⟨k, hk, by rwa [hrest k hk] at hreach⟩
        · rintro ⟨k, hk, hreach⟩
          exact ⟨k, hk, by rwa [hrest k hk]⟩

/-- Belt `k` is monitored by a check: detection is on, and it is recorded as running. -/
def Monitored (k : Nat) (s : Station) : Prop := DetectionOn k s ∧ s.runBit k = true

instance (k : Nat) (s : Station) : Decidable (Monitored k s) := inferInstanceAs (Decidable (_ ∧ _))

/-- The check raises a jam for belt `k`. -/
def Raises (pins : Pins) (k : Nat) (s : Station) : Prop :=
  Monitored k s ∧ getPhotoInputStatus pins k = true ∧
    (s.belt k).blockCheckTime.setWidth 32 ≤ s.logic.blockCheckTimeCnt.get k + 1

instance (pins : Pins) (k : Nat) (s : Station) : Decidable (Raises pins k s) :=
  inferInstanceAs (Decidable (_ ∧ _))

section Check

variable {pins : Pins} {s : Station} {k : Nat}

theorem monitored_iff (hon : s.logic.gBlockDisableFlag ≠ 1) :
    Monitored k s ↔ k ∈ List.range s.beltNumber ∧ looksAt k s = true := by
  unfold Monitored DetectionOn looksAt
  simp only [List.mem_range, Bool.and_eq_true, decide_eq_true_iff]
  constructor
  · rintro ⟨⟨-, hk, hswitch⟩, hrun⟩
    exact ⟨hk, hswitch, hrun⟩
  · rintro ⟨hk, hswitch, hrun⟩
    exact ⟨⟨hon, hk, hswitch⟩, hrun⟩

theorem raises_iff (hon : s.logic.gBlockDisableFlag ≠ 1) :
    Raises pins k s ↔
      k ∈ List.range s.beltNumber ∧
        reachesLimit pins k s (s.logic.blockCheckTimeCnt.get k) = true := by
  unfold Raises reachesLimit
  rw [monitored_iff hon]
  simp only [Bool.and_eq_true, decide_eq_true_iff, and_assoc]

/-- What a check does to the counts, the jam bits and the alarm. -/
structure CheckDone (pins : Pins) (s t : Station) : Prop where
  cnt : ∀ k, t.logic.blockCheckTimeCnt.get k =
    if Monitored k s then
      if getPhotoInputStatus pins k = true ∧ ¬ Raises pins k s then
        s.logic.blockCheckTimeCnt.get k + 1
      else 0
    else s.logic.blockCheckTimeCnt.get k
  jam : ∀ k, t.jam k = true ↔ s.jam k = true ∨ Raises pins k s
  alarm : t.outs.lAlarmOut = true ↔ s.outs.lAlarmOut = true ∨ ∃ k, Raises pins k s

/-- **One check**, for all belts at once. -/
theorem blockCheckCtrlHandle_done (pins : Pins) (s : Station) :
    CheckDone pins s (blockCheckCtrlHandle pins s) := by
  unfold blockCheckCtrlHandle
  split_ifs with hoff
  · have hnone : ∀ k, ¬ Monitored k s := fun k h => h.1.1 hoff
    have hno : ∀ k, ¬ Raises pins k s := fun k h => hnone k h.1
    refine ⟨fun k => ?_, fun k => ?_, ?_⟩
    · rw [if_neg (hnone k)]
    · simp [hno]
    · simp [hno]
  · have hpanel := foldl_blockCheckBelt_panel pins (List.range s.beltNumber) (t := s) rfl rfl
      fun i hi => List.mem_range.mp hi
    obtain ⟨hcnt, hjam, halarm⟩ := foldl_checkBelt pins s List.nodup_range
      (fun i hi => (List.mem_range.mp hi).trans_le s.beltNumber_le) s.panel
    rw [← hpanel] at hcnt hjam halarm
    refine ⟨fun k => ?_, fun k => ?_, ?_⟩
    · refine (hcnt k).trans ?_
      simp only [raises_iff hoff, monitored_iff hoff]
      unfold nextBlockCnt
      by_cases hk : k ∈ List.range s.beltNumber
      · simp only [hk, if_true, true_and]
        by_cases hphoto : getPhotoInputStatus pins k = true
        · simp only [hphoto, if_true, true_and, ite_not]
          rfl
        · simp only [hphoto, Bool.false_eq_true, if_false, false_and]
          rfl
      · simp only [hk, if_false, false_and]
        rfl
    · rw [raises_iff hoff]
      exact hjam k
    · simp only [raises_iff hoff]
      exact halarm

theorem CheckDone.of_panel {t u : Station} (h : CheckDone pins s t) (hpanel : u.panel = t.panel) :
    CheckDone pins s u := by
  have hcnt : u.logic.blockCheckTimeCnt = t.logic.blockCheckTimeCnt :=
    congrArg Panel.blockCheckTimeCnt hpanel
  have hjam : u.jam = t.jam := congrArg Panel.jam hpanel
  have halarm : u.outs.lAlarmOut = t.outs.lAlarmOut := congrArg Panel.lAlarmOut hpanel
  refine ⟨fun k => ?_, fun k => ?_, ?_⟩
  · rw [hcnt]
    exact h.cnt k
  · rw [hjam]
    exact h.jam k
  · rw [halarm]
    exact h.alarm

theorem secProcess_done (pins : Pins) (h : s.main.secFlag = true) :
    CheckDone pins s (secProcess pins s) := by
  have hsec : CheckDone pins s (secHandle pins s) := by
    unfold secHandle
    rw [if_pos h]
    dsimp only
    split_ifs
    · obtain ⟨hcnt, hjam, halarm⟩ := blockCheckCtrlHandle_done pins
        { s with main.secFlag := false, main.heartDely := s.main.heartDely - 1 }
      exact ⟨hcnt, hjam, halarm⟩
    · obtain ⟨hcnt, hjam, halarm⟩ := blockCheckCtrlHandle_done pins
        { s with main.secFlag := false }
      exact ⟨hcnt, hjam, halarm⟩
  exact hsec.of_panel (halfSecHandle_panel _)

end Check

/-! ## Checks in a run -/

/-- The sensors that a step checks, if it is a one-second check. -/
def checkOf (e : Station × Input) : Option Pins :=
  match e.2 with
  | .secProcess pins =>
      if e.1.systemReset = false ∧ e.1.main.secFlag = true then some pins else none
  | _ => none

/-- The one-second checks of a run, latest first, each with the state it finds. -/
def checks (past : Past) : List (Station × Pins) :=
  past.filterMap fun e => (checkOf e).map fun pins => (e.1, pins)

/-- A check finds belt `k` monitored and its sensor blocked. -/
def Blocked (k : Nat) (c : Station × Pins) : Prop :=
  Monitored k c.1 ∧ getPhotoInputStatus c.2 k = true

instance (k : Nat) : DecidablePred (Blocked k) := fun _ => inferInstanceAs (Decidable (_ ∧ _))

theorem checkOf_eq_some {s : Station} {i : Input} {pins : Pins} (h : checkOf (s, i) = some pins) :
    i = .secProcess pins ∧ s.main.secFlag = true ∧ step s i = secProcess pins s := by
  unfold checkOf at h
  cases i with
  | secProcess p =>
      dsimp only at h
      split_ifs at h with hcheck
      cases h
      refine ⟨rfl, hcheck.2, ?_⟩
      unfold step
      rw [if_neg (by simp [hcheck.1])]
      rfl
  | _ => cases h

theorem checkOf_secProcess {s : Station} (h : s.systemReset = false ∧ s.main.secFlag = true)
    (pins : Pins) : checkOf (s, .secProcess pins) = some pins := if_pos h

/-- The counts, the jam bits and the alarm. -/
def Panel.faults (p : Panel) : Table 10 U32 × (Nat → Bool) × Bool :=
  (p.blockCheckTimeCnt, p.jam, p.lAlarmOut)

theorem Panel.faults_countReset (p : Panel) : p.countReset.faults = p.faults := by
  unfold Panel.countReset
  split_ifs <;> rfl

theorem Panel.faults_countReset_reset (n : Nat) (p : Panel) :
    (p.countReset.reset n).faults = (p.reset n).faults := by
  unfold Panel.countReset
  split_ifs <;> rfl

/-- Beside a check, only a reset changes them. -/
theorem step_faults {s : Station} {i : Input} (h : checkOf (s, i) = none) :
    (step s i).panel.faults =
      if Resets s i then (s.panel.reset s.beltNumber).faults else s.panel.faults := by
  have hstep := step_panel s i
  generalize (step s i).panel = q at hstep ⊢
  cases hstep with
  | stopped _ hstop =>
      rw [if_neg fun hreset => Bool.false_ne_true (hreset.1.symm.trans hstop)]
  | tick pins hrun =>
      have hiff : Resets s (.timeUpdate pins) ↔ resetConfirmed pins s.panel.bResetInfo = true :=
        and_iff_right hrun
      rw [if_congr hiff rfl rfl]
      unfold Panel.tick
      split_ifs
      · exact Panel.faults_countReset_reset s.beltNumber s.panel
      · exact Panel.faults_countReset s.panel
  | reset _ hreset => rw [if_pos hreset]
  | byte => rw [if_neg fun hreset => hreset.2]; rfl
  | check pins _ _ _ hrun hflag =>
      unfold checkOf at h
      simp [hrun, hflag] at h
  | comm => rw [if_neg fun hreset => hreset.2]; rfl
  | restart => rw [if_neg fun hreset => hreset.2]; rfl
  | other _ _ hreset => rw [if_neg hreset]

/-! ## Jams and blocked checks -/

/-- The blocked checks of belt `k` since the last one that was not. -/
def blockedChecks (k : Nat) (past : Past) : List (Station × Pins) :=
  (checks past).takeWhile fun c => Blocked k c

theorem checks_cons_none {s : Station} {i : Input} (h : checkOf (s, i) = none) (past : Past) :
    checks ((s, i) :: past) = checks past := by
  unfold checks
  rw [List.filterMap_cons_none (by rw [h]; rfl)]

theorem checks_cons_some {s : Station} {i : Input} {pins : Pins} (h : checkOf (s, i) = some pins)
    (past : Past) : checks ((s, i) :: past) = (s, pins) :: checks past := by
  unfold checks
  rw [List.filterMap_cons_some (by rw [h]; rfl)]

/-- No check passes over belt `k` once it has begun to count. -/
def CountsThrough (k : Nat) (s : Station) (i : Input) : Prop :=
  (checkOf (s, i)).isSome = true → s.logic.blockCheckTimeCnt.get k ≠ 0 → Monitored k s

theorem step_blockCnt {s : Station} {i : Input} (h : checkOf (s, i) = none) :
    (step s i).logic.blockCheckTimeCnt = s.logic.blockCheckTimeCnt := by
  refine (congrArg Prod.fst (step_faults h)).trans ?_
  split_ifs <;> rfl

theorem step_checkDone {s : Station} {i : Input} {pins : Pins} (h : checkOf (s, i) = some pins) :
    CheckDone pins s (step s i) := by
  obtain ⟨-, hflag, hstep⟩ := checkOf_eq_some h
  rw [hstep]
  exact secProcess_done pins hflag

/-- The count is at most the number of blocked checks in a row. -/
theorem trail_blockCnt {k : Nat} {past : Past} {s : Station} (h : Trails (CountsThrough k) past s) :
    (s.logic.blockCheckTimeCnt.get k).toNat ≤ (blockedChecks k past).length := by
  refine Trail.invariant (I := fun past s =>
    (s.logic.blockCheckTimeCnt.get k).toNat ≤ (blockedChecks k past).length) ?_ ?_ h
  · rintro _ ⟨flash, localStation, rfl⟩
    have hcnt : (boot flash localStation).logic.blockCheckTimeCnt = fun _ => 0 :=
      congrArg Panel.blockCheckTimeCnt (boot_panel flash localStation)
    rw [hcnt]
    unfold Table.get
    split_ifs <;> exact Nat.zero_le _
  · intro past s i hle hok
    cases hcheck : checkOf (s, i) with
    | none =>
        unfold blockedChecks
        rw [step_blockCnt hcheck, checks_cons_none hcheck]
        exact hle
    | some pins =>
        rw [(step_checkDone hcheck).cnt k]
        unfold blockedChecks
        rw [checks_cons_some hcheck]
        split_ifs with hmonitored hcount
        · rw [List.takeWhile_cons_of_pos (by simpa using ⟨hmonitored, hcount.1⟩), List.length_cons]
          refine le_trans ?_ (Nat.succ_le_succ hle)
          bv_omega
        · exact Nat.zero_le _
        · -- a belt that is passed over has not begun to count
          have hzero : s.logic.blockCheckTimeCnt.get k = 0 := by
            by_contra hne
            exact hmonitored (hok (by rw [hcheck]; rfl) hne)
          rw [hzero]
          exact Nat.zero_le _

/-- The first entries of a list, as many as satisfy `p` in a row. -/
theorem forall_take_of_le {α : Type} {p : α → Bool} {xs : List α} {n : Nat}
    (h : n ≤ (xs.takeWhile p).length) : n ≤ xs.length ∧ ∀ x ∈ xs.take n, p x = true := by
  have hsplit := List.takeWhile_append_dropWhile (p := p) (l := xs)
  refine ⟨h.trans (List.takeWhile_prefix p).length_le, fun x hx => ?_⟩
  rw [← hsplit, List.take_append_of_le_length h] at hx
  exact List.mem_takeWhile_imp (List.mem_of_mem_take hx)

/-- **Jams need a blockage.**  When a check raises a jam for belt `k` at `Block_Check_Time`
`T`, it and the `T - 1` checks before it found the belt monitored and its sensor blocked. -/
theorem jam_needs_blockage {k : Nat} {past : Past} {s : Station}
    (h : Trails (CountsThrough k) past s) {i : Input} {pins : Pins}
    (hcheck : checkOf (s, i) = some pins) (hraise : Raises pins k s) :
    (s.belt k).blockCheckTime.toNat ≤ (checks ((s, i) :: past)).length ∧
      ∀ c ∈ (checks ((s, i) :: past)).take (s.belt k).blockCheckTime.toNat, Blocked k c := by
  have hle := trail_blockCnt h
  obtain ⟨hmonitored, hphoto, hreach⟩ := hraise
  have hblocked : Blocked k (s, pins) := ⟨hmonitored, hphoto⟩
  have hrow : (s.belt k).blockCheckTime.toNat ≤
      ((checks ((s, i) :: past)).takeWhile fun c => Blocked k c).length := by
    rw [checks_cons_some hcheck, List.takeWhile_cons_of_pos (by simpa using hblocked),
      List.length_cons]
    unfold blockedChecks at hle
    bv_omega
  obtain ⟨hlen, hall⟩ := forall_take_of_le hrow
  exact ⟨hlen, fun c hc => by simpa using hall c hc⟩

/-! ## Latched faults -/

/-- The step raises a jam for belt `k`. -/
def JamRaised (k : Nat) (e : Station × Input) : Prop :=
  ∃ pins, checkOf e = some pins ∧ Raises pins k e.1

/-- The steps behind the last `Reset_Ctrl_Handle`. -/
def sinceReset (past : Past) : Past := since (fun e => Resets e.1 e.2) past

/-- The step does not rewrite `Belt_Number`. -/
def KeepsBelts (s : Station) (i : Input) : Prop := (step s i).beltNumber = s.beltNumber

/-- Jam bits and alarm are those of the jams raised since the last reset. -/
structure Latched (past : Past) (s : Station) : Prop where
  jam : ∀ k, s.jam k = true ↔ ∃ e ∈ sinceReset past, JamRaised k e
  alarm : s.outs.lAlarmOut = true ↔ ∃ k, ∃ e ∈ sinceReset past, JamRaised k e
  /-- A jam is a belt's. -/
  lt : ∀ k, s.jam k = true → k < s.beltNumber

theorem jamRaised_of_none {k : Nat} {e : Station × Input} (h : checkOf e = none) :
    ¬ JamRaised k e := by
  rintro ⟨pins, hpins, -⟩
  rw [h] at hpins
  cases hpins

theorem jamRaised_iff {k : Nat} {e : Station × Input} {pins : Pins} (h : checkOf e = some pins) :
    JamRaised k e ↔ Raises pins k e.1 := by
  refine ⟨?_, fun hraise => ⟨pins, h, hraise⟩⟩
  rintro ⟨pins', hpins, hraise⟩
  rw [h] at hpins
  cases hpins
  exact hraise

/-- A check is no reset. -/
theorem not_resets_of_check {s : Station} {i : Input} {pins : Pins}
    (h : checkOf (s, i) = some pins) : ¬ Resets s i := by
  obtain ⟨rfl, -, -⟩ := checkOf_eq_some h
  exact fun hreset => hreset.2

theorem sinceReset_cons_not {past : Past} {s : Station} {i : Input} (h : ¬ Resets s i) :
    sinceReset ((s, i) :: past) = (s, i) :: sinceReset past := since_cons_not (by exact h)

theorem Latched.step {past : Past} {s : Station} {i : Input} (h : Latched past s)
    (hkeeps : KeepsBelts s i) : Latched ((s, i) :: past) (step s i) := by
  have hbelts : (IotCtrl.step s i).beltNumber = s.beltNumber := hkeeps
  cases hcheck : checkOf (s, i) with
  | none =>
      have hfaults := step_faults hcheck
      by_cases hreset : Resets s i
      · rw [if_pos hreset] at hfaults
        have hjam : (IotCtrl.step s i).jam = clearJam (fun k => k < s.beltNumber) s.jam :=
          congrArg (fun f => f.2.1) hfaults
        have halarm : (IotCtrl.step s i).outs.lAlarmOut = false := congrArg (fun f => f.2.2) hfaults
        have hclear : ∀ k, (IotCtrl.step s i).jam k = false := by
          intro k
          rw [hjam]
          unfold clearJam
          cases hk : s.jam k with
          | false => rfl
          | true => simp [h.lt k hk]
        have hnone : sinceReset ((s, i) :: past) = [] := since_cons_of (by exact hreset)
        refine ⟨fun k => ?_, ?_, fun k hk => ?_⟩
        · simp [hclear, hnone]
        · simp [halarm, hnone]
        · rw [hclear] at hk
          cases hk
      · rw [if_neg hreset] at hfaults
        have hjam : (IotCtrl.step s i).jam = s.jam := congrArg (fun f => f.2.1) hfaults
        have halarm : (IotCtrl.step s i).outs.lAlarmOut = s.outs.lAlarmOut :=
          congrArg (fun f => f.2.2) hfaults
        have hno : ∀ k, ¬ JamRaised k (s, i) := fun k => jamRaised_of_none hcheck
        refine ⟨fun k => ?_, ?_, fun k hk => ?_⟩
        · rw [hjam, h.jam, sinceReset_cons_not hreset]
          simp [hno]
        · rw [halarm, h.alarm, sinceReset_cons_not hreset]
          simp [hno]
        · rw [hbelts]
          exact h.lt k (by rwa [hjam] at hk)
  | some pins =>
      have hdone := step_checkDone hcheck
      have hraised : ∀ k, JamRaised k (s, i) ↔ Raises pins k s := fun k => jamRaised_iff hcheck
      have hsince : sinceReset ((s, i) :: past) = (s, i) :: sinceReset past :=
        sinceReset_cons_not (not_resets_of_check hcheck)
      refine ⟨fun k => ?_, ?_, fun k hk => ?_⟩
      · rw [hdone.jam, h.jam, hsince, List.exists_mem_cons_iff, hraised, or_comm]
      · rw [hdone.alarm, h.alarm, hsince]
        simp only [List.exists_mem_cons_iff, hraised, exists_or]
        exact or_comm
      · rw [hbelts]
        rcases (hdone.jam k).mp hk with hold | hraise
        · exact h.lt k hold
        · exact hraise.1.1.2.1

/-- **Jam faults are latched and shown.**  In a run that keeps `Belt_Number`, the jam bit of a
belt is set exactly if a jam was raised for it since the last reset, and the alarm exactly if
one was raised for some belt. -/
theorem jams_latched {past : Past} {s : Station} (h : Trails KeepsBelts past s) :
    (∀ k, s.jam k = true ↔ ∃ e ∈ sinceReset past, JamRaised k e) ∧
      (s.outs.lAlarmOut = true ↔ ∃ k, ∃ e ∈ sinceReset past, JamRaised k e) := by
  have hinv : Latched past s := by
    refine Trail.invariant (I := Latched) ?_ (fun _ _ _ hl hok => hl.step hok) h
    rintro _ ⟨flash, localStation, rfl⟩
    have hjam : ∀ k, (boot flash localStation).jam k = false := by
      intro k
      have hpanel : (boot flash localStation).jam = (Station.cleared flash localStation).jam :=
        congrArg Panel.jam (boot_panel flash localStation)
      rw [hpanel]
      have hdefault : (default : InverterStatus).faultCode.getLsbD 1 = false := by decide
      unfold Station.jam Station.inverter Table.get
      split_ifs <;> exact hdefault
    have halarm : (boot flash localStation).outs.lAlarmOut = false :=
      congrArg Panel.lAlarmOut (boot_panel flash localStation)
    refine ⟨fun k => ?_, ?_, fun k hk => ?_⟩
    · simp [hjam, sinceReset]
    · simp [halarm, sinceReset]
    · rw [hjam] at hk
      cases hk
  exact ⟨hinv.jam, hinv.alarm⟩

/-! ## Runs with two and with three checks -/

/-- The inputs of a poll. -/
def Input.isPoll : Input → Bool
  | .timeUpdate _ | .usart1Irq _ | .modbusComm _ | .msoneProcess _ => true
  | _ => false

/-- A run that leads to `s` with the checks `cs`. -/
def Observed (ok : Station → Input → Prop) (cs : List (Station × Pins)) (s : Station) : Prop :=
  ∃ past, Trails ok past s ∧ checks past = cs

namespace Observed

variable {ok : Station → Input → Prop} {cs : List (Station × Pins)} {s : Station}

theorem step {i : Input} (h : Observed ok cs s) (hok : ok s i) (hnone : checkOf (s, i) = none) :
    Observed ok cs (step s i) := by
  obtain ⟨past, hpast, rfl⟩ := h
  exact ⟨_, hpast.next hok, checks_cons_none hnone past⟩

theorem check {i : Input} {pins : Pins} (h : Observed ok cs s) (hok : ok s i)
    (hcheck : checkOf (s, i) = some pins) : Observed ok ((s, pins) :: cs) (IotCtrl.step s i) := by
  obtain ⟨past, hpast, rfl⟩ := h
  exact ⟨_, hpast.next hok, checks_cons_some hcheck past⟩

theorem run (hok : ∀ t i, i.isPoll = true → ok t i) {is : List Input}
    (his : ∀ i ∈ is, i.isPoll = true) (h : Observed ok cs s) :
    Observed ok cs (run IotCtrl.step s is) := by
  induction is generalizing s with
  | nil => exact h
  | cons i is ih =>
      have hi := his i List.mem_cons_self
      have hnone : checkOf (s, i) = none := by
        cases i with
        | secProcess pins => cases hi
        | _ => rfl
      exact ih (fun j hj => his j (List.mem_cons_of_mem i hj)) (h.step (hok s i hi) hnone)

theorem coast (hok : ∀ t i, i.isPoll = true → ok t i) (hrest : Resting s)
    (hcount : Counting s) (n : Nat) (h : Observed ok cs s) : Observed ok cs (coast n s) := by
  rw [← run_idleTicks hrest hcount]
  refine h.run hok fun i hi => ?_
  rw [List.eq_of_mem_replicate hi]
  rfl

end Observed

/-- One belt, with jam detection after two seconds. -/
def monitoredFlash : Flash :=
  { userPara := fun k => if k = 2 then 1 else if k = 3 then 4 else if k = 12 then 2 else 0
    userAppEnFlag := 0xFFFF }

/-- All photo sensors are blocked. -/
def blockedPins : Pins := { noInput with bPhotoIn := fun _ => true }

/-- The message that switches jam detection off, or on again. -/
def funcSelectFrame (flag : U8) : CanRxMsg :=
  canBusSendOneFrame
    { segPolo := .none
      segNum := 0
      funcId := CAN_FUNC_ID_FUNC_SELECT_CMD
      srcId := 1
      data := [flag] }

/-- A check with blocked sensors. -/
def checkedBlocked (s : Station) : Station := step s (.secProcess blockedPins)

/-- Slave 2 polls its belt, which runs, and a second passes. -/
def beforeFirstCheck : Station :=
  coast 1000 (step (awaiting fullAnswer (boot monitoredFlash 2)) (.modbusComm fun _ => 0))

/-- A second after the first check. -/
def beforeSecondCheck : Station := coast 1000 (checkedBlocked beforeFirstCheck)

/-- A second after the first check, when detection is switched off. -/
def detectionOff : Station :=
  coast 1000 (step (checkedBlocked beforeFirstCheck) (.canFrame (funcSelectFrame 1)))

/-- A second after the second check, when detection is switched on again. -/
def detectionOnAgain : Station :=
  coast 1000 (step (checkedBlocked detectionOff) (.canFrame (funcSelectFrame 0)))

theorem beforeFirstCheck_observed {ok : Station → Input → Prop}
    (hok : ∀ t i, i.isPoll = true → ok t i) : Observed ok [] beforeFirstCheck := by
  have hquiet : (Resting (boot monitoredFlash 2) ∧ Counting (boot monitoredFlash 2)) ∧
      Resting (step (awaiting fullAnswer (boot monitoredFlash 2)) (.modbusComm fun _ => 0)) ∧
      Counting (step (awaiting fullAnswer (boot monitoredFlash 2)) (.modbusComm fun _ => 0)) := by
    decide +kernel
  obtain ⟨⟨hrest, hcount⟩, hrest', hcount'⟩ := hquiet
  have hboot : Observed ok [] (boot monitoredFlash 2) := ⟨[], Trail.start ⟨_, _, rfl⟩, rfl⟩
  have hawaiting := (hboot.coast hok hrest hcount 501).run hok
    (show ∀ i ∈ pollInputs fullAnswer, i.isPoll = true by decide)
  exact (hawaiting.step (hok _ _ rfl) rfl).coast hok hrest' hcount' 1000

theorem beforeSecondCheck_observed {ok : Station → Input → Prop}
    (hok : ∀ t i, i.isPoll = true → ok t i)
    (hcheck : ok beforeFirstCheck (.secProcess blockedPins)) :
    Observed ok [(beforeFirstCheck, blockedPins)] beforeSecondCheck := by
  have hend : (beforeFirstCheck.systemReset = false ∧ beforeFirstCheck.main.secFlag = true) ∧
      Resting (checkedBlocked beforeFirstCheck) ∧ Counting (checkedBlocked beforeFirstCheck) := by
    decide +kernel
  obtain ⟨hfirst, hrest, hcount⟩ := hend
  exact ((beforeFirstCheck_observed hok).check hcheck
    (checkOf_secProcess hfirst blockedPins)).coast hok hrest hcount 1000

theorem beforeSecondCheck_raises :
    (beforeSecondCheck.systemReset = false ∧ beforeSecondCheck.main.secFlag = true) ∧
      Raises blockedPins 0 beforeSecondCheck := by
  decide +kernel

/-- Detection stays on: the second check in a row raises the jam. -/
theorem two_blocked_checks_jam :
    Raises blockedPins 0 beforeSecondCheck ∧
      ∀ c ∈ [(beforeSecondCheck, blockedPins), (beforeFirstCheck, blockedPins)], Blocked 0 c := by
  have hok : ∀ t i, i.isPoll = true → CountsThrough 0 t i := by
    intro t i hpoll hsome
    cases i with
    | secProcess pins => cases hpoll
    | _ => cases hsome
  have hend : Monitored 0 beforeFirstCheck ∧
      (beforeSecondCheck.belt 0).blockCheckTime.toNat = 2 := by
    decide +kernel
  obtain ⟨hthrough, htime⟩ := hend
  obtain ⟨hsecond, hraise⟩ := beforeSecondCheck_raises
  have hcheck := checkOf_secProcess hsecond blockedPins
  obtain ⟨past, hpast, hchecks⟩ := beforeSecondCheck_observed hok fun _ _ => hthrough
  obtain ⟨-, hblocked⟩ := jam_needs_blockage hpast hcheck hraise
  rw [checks_cons_some hcheck, hchecks, htime] at hblocked
  exact ⟨hraise, hblocked⟩

/-- Detection is off at the second check and on again at the third: the third raises the jam
although the one before did not look at the belt. -/
theorem interrupted_blockage_jams :
    ¬ ∀ k past s i pins, Trails (fun _ _ => True) past s → checkOf (s, i) = some pins →
      Raises pins k s → 1 ≤ (s.belt k).blockCheckTime.toNat →
        ∀ c ∈ (checks ((s, i) :: past)).take (s.belt k).blockCheckTime.toNat, Blocked k c := by
  intro h
  have hok : ∀ (_ : Station) (i : Input), i.isPoll = true → True := fun _ _ _ => trivial
  have hend : ((beforeFirstCheck.systemReset = false ∧ beforeFirstCheck.main.secFlag = true) ∧
      (detectionOff.systemReset = false ∧ detectionOff.main.secFlag = true) ∧
      detectionOnAgain.systemReset = false ∧ detectionOnAgain.main.secFlag = true) ∧
      ((Resting (step (checkedBlocked beforeFirstCheck) (.canFrame (funcSelectFrame 1))) ∧
        Counting (step (checkedBlocked beforeFirstCheck) (.canFrame (funcSelectFrame 1)))) ∧
        Resting (step (checkedBlocked detectionOff) (.canFrame (funcSelectFrame 0))) ∧
        Counting (step (checkedBlocked detectionOff) (.canFrame (funcSelectFrame 0)))) ∧
      (Raises blockedPins 0 detectionOnAgain ∧
        (detectionOnAgain.belt 0).blockCheckTime.toNat = 2) ∧
      ¬ Blocked 0 (detectionOff, blockedPins) := by
    decide +kernel
  obtain ⟨⟨hfirst, hsecond, hthird⟩, ⟨⟨hrest, hcount⟩, hrest', hcount'⟩, ⟨hraise, htime⟩, hoff⟩ :=
    hend
  have hcheck := checkOf_secProcess hthird blockedPins
  have hobserved : Observed (fun _ _ => True)
      [(detectionOff, blockedPins), (beforeFirstCheck, blockedPins)] detectionOnAgain :=
    ((((((beforeFirstCheck_observed hok).check trivial
      (checkOf_secProcess hfirst blockedPins)).step trivial rfl).coast hok hrest hcount 1000).check
        trivial (checkOf_secProcess hsecond blockedPins)).step trivial rfl).coast hok hrest' hcount'
          1000
  obtain ⟨past, hpast, hchecks⟩ := hobserved
  have hblocked := h 0 past detectionOnAgain _ _ hpast hcheck hraise (by rw [htime]; decide)
  rw [checks_cons_some hcheck, hchecks, htime] at hblocked
  exact hoff (hblocked _ (List.mem_cons_of_mem _ List.mem_cons_self))

/-- The inputs of polls and checks leave the parameters alone. -/
theorem keepsBelts_of {i : Input} [h : Evident (.paras ∉ i.parts)] (s : Station) :
    KeepsBelts s i :=
  (step_touches s i).keeps.beltNumber

/-- Behind the jam, its bit and the alarm are on. -/
theorem raised_jam_shown :
    (checkedBlocked beforeSecondCheck).jam 0 = true ∧
      (checkedBlocked beforeSecondCheck).outs.lAlarmOut = true := by
  have hok : ∀ t i, i.isPoll = true → KeepsBelts t i := by
    intro t i hpoll
    cases i with
    | timeUpdate pins => exact keepsBelts_of t
    | usart1Irq tmp => exact keepsBelts_of t
    | modbusComm stack => exact keepsBelts_of t
    | msoneProcess speedGear => exact keepsBelts_of t
    | _ => cases hpoll
  obtain ⟨hsecond, hraise⟩ := beforeSecondCheck_raises
  obtain ⟨past, hpast, -⟩ := beforeSecondCheck_observed hok
    (keepsBelts_of (i := .secProcess blockedPins) beforeFirstCheck)
  unfold checkedBlocked
  generalize beforeSecondCheck = s at hsecond hraise hpast ⊢
  have hcheck := checkOf_secProcess hsecond blockedPins
  have hraised : ∃ e ∈ sinceReset ((s, .secProcess blockedPins) :: past), JamRaised 0 e := by
    rw [sinceReset_cons_not (not_resets_of_check hcheck)]
    exact ⟨_, List.mem_cons_self, (jamRaised_iff hcheck).mpr hraise⟩
  obtain ⟨hjam, halarm⟩ :=
    jams_latched (hpast.next (keepsBelts_of (i := .secProcess blockedPins) s))
  exact ⟨(hjam 0).mpr hraised, halarm.mpr ⟨0, hraised⟩⟩

end IotCtrl
