import IotCtrl.Clock
import IotCtrl.JamFaults
import IotCtrl.LineDelivery

/-!
# A blocked belt is stopped

The once-a-second check raises a jam only behind a blockage.  Here is the other direction: while
the sensor of a running belt stays blocked, the jam is raised, and the belt is stopped.

* `secWait`, `step_secTimer` — the second that `Time_Update` counts for `sec_process`;
* `check_uartNodes` — the stops that one check queues;
* `blockage_periodic` — the blocked checks that are left before the jam;
* `blocked_belt_stopped` — the jam is raised and shown, and the belt gets its stop.
-/

namespace IotCtrl

open ByteMemory Transition Deadline ClosedFacts

/-! ## The second -/

/-- `sec_process` serves the check. -/
def secPace : Input → Pace
  | .timeUpdate _ => .tick
  | .secProcess _ => .serve
  | _ => .other 0

/-- `sec_process` is called at least once in `D` milliseconds. -/
abbrev SecPrompt (D : Nat) (is : List Input) : Prop := Prompt secPace D 0 is

theorem secPace_time (is : List Input) :
    ticks secPace is = milliseconds is ∧ charges secPace is = 0 := by
  refine ⟨ticks_congr (fun i => ?_) is, charges_eq_zero (fun i charge h => ?_) is⟩
  · cases i <;> simp [secPace, uartPace]
  · cases i <;> simp_all [secPace]

/-- The milliseconds before the next check is due. -/
def Station.secWait (s : Station) : Nat := if s.main.secFlag then 0 else s.main.secReg.toNat

/-- `sec_reg` and `sec_flag`. -/
def Clock.secTimer (c : Clock) : U16 × Bool := (c.main.secReg, c.main.secFlag)

namespace Clock

@[simp] theorem halfSec_secTimer (host : Bool) (c : Clock) :
    (c.halfSec host).secTimer = c.secTimer := by
  unfold halfSec
  dsimp only
  split_ifs <;> rfl

@[simp] theorem upload_secTimer (n : Nat) (c : Clock) : (c.upload n).secTimer = c.secTimer := by
  unfold upload
  split_ifs <;> rfl

@[simp] theorem msone_secTimer (n : U16) (c : Clock) : (c.msone n).secTimer = c.secTimer := by
  unfold msone
  dsimp only
  split_ifs <;> rfl

/-- The check takes its flag back. -/
@[simp] theorem sec_secTimer (c : Clock) : c.sec.secTimer = (c.main.secReg, false) := by
  unfold sec secTimer
  cases hflag : c.main.secFlag with
  | true => rfl
  | false => exact Prod.ext rfl hflag

/-- A millisecond. -/
@[simp] theorem tick_secTimer (c : Clock) :
    c.tick.secTimer = ((tickSec c.main).secReg, (tickSec c.main).secFlag) := by
  unfold tick tickMain tickUpload tickHalfSec tickSec tickMs secTimer
  dsimp only
  split_ifs <;> rfl

end Clock

/-- What a step does to `sec_reg` and `sec_flag`. -/
theorem step_secTimer {s : Station} (hrun : s.systemReset = false) (i : Input) :
    (step s i).clock.secTimer =
      match i with
      | .timeUpdate _ => ((tickSec s.main).secReg, (tickSec s.main).secFlag)
      | .secProcess _ => (s.main.secReg, false)
      | _ => (s.main.secReg, s.main.secFlag) := by
  rw [step_clock hrun]
  unfold Station.clockAfter
  cases i with
  | timeUpdate pins => exact s.clock.tick_secTimer
  | secProcess pins => exact (s.clock.sec.halfSec_secTimer s.isHost).trans s.clock.sec_secTimer
  | uploadRunState => exact s.clock.upload_secTimer _
  | msoneProcess speedGear => exact s.clock.msone_secTimer _
  | _ => rfl

/-- `sec_reg` runs from 1000 down to 1. -/
def SecCounting (s : Station) : Prop := 1 ≤ s.main.secReg.toNat ∧ s.main.secReg.toNat ≤ 1000

theorem tickSec_counting {m : MainVars} (h : 1 ≤ m.secReg.toNat ∧ m.secReg.toNat ≤ 1000) :
    (m.secReg.toNat = 1 ∧ (tickSec m).secReg = 1000 ∧ (tickSec m).secFlag = true) ∨
      (m.secReg.toNat ≠ 1 ∧ (tickSec m).secReg = m.secReg - 1 ∧
        (tickSec m).secFlag = m.secFlag) := by
  have hne : m.secReg ≠ 0 := by bv_omega
  unfold tickSec
  rw [if_pos hne]
  split_ifs with hlast
  · exact Or.inl ⟨by bv_omega, rfl, rfl⟩
  · exact Or.inr ⟨by bv_omega, rfl, rfl⟩

theorem step_secCounting {s : Station} (h : SecCounting s) (i : Input) :
    SecCounting (step s i) := by
  by_cases hrun : s.systemReset = true
  · have hsame : step s i = s := if_pos hrun
    rwa [hsame]
  have htimer := congrArg Prod.fst (step_secTimer (by simpa using hrun) i)
  have hreg : (step s i).main.secReg = (step s i).clock.secTimer.1 := rfl
  unfold SecCounting
  rw [hreg, htimer]
  cases i with
  | timeUpdate pins =>
      dsimp only
      rcases tickSec_counting h with ⟨-, hnext, -⟩ | ⟨hmore, hnext, -⟩
      · rw [hnext]
        decide
      · obtain ⟨hpos, hle⟩ := h
        rw [hnext]
        constructor <;> bv_omega
  | _ => exact h

theorem reachable_secCounting {s : Station} (h : Reachable (fun _ _ => True) s) :
    SecCounting s := by
  have hinit : ∀ t, Booted t → SecCounting t := by
    intro t hboot
    obtain ⟨flash, localStation, rfl⟩ := hboot
    have hmain : (boot flash localStation).main = (Station.cleared flash localStation).main :=
      congrArg Clock.main (readUserParas_clock _)
    unfold SecCounting
    rw [hmain]
    show 1 ≤ (1000 : U16).toNat ∧ (1000 : U16).toNat ≤ 1000
    decide
  exact h.invariant hinit fun t i ht _ => step_secCounting ht i

/-- **The second.**  A tick brings the next check nearer, the check itself is due again within a
second, and no other step delays it. -/
theorem step_secWait {s : Station} (h : SecCounting s) (hrun : s.systemReset = false)
    (i : Input) :
    (secPace i = .tick → (step s i).secWait ≤ s.secWait - 1) ∧
      (secPace i = .serve → (step s i).secWait ≤ 1000 ∧
        (s.main.secFlag = false → (step s i).secWait ≤ s.secWait)) ∧
      (∀ charge, secPace i = .other charge → (step s i).secWait = s.secWait) := by
  have htimer := step_secTimer hrun i
  have hwait : (step s i).secWait =
      if (step s i).clock.secTimer.2 then 0 else (step s i).clock.secTimer.1.toNat := rfl
  rw [hwait, htimer]
  obtain ⟨hpos, hle⟩ := h
  unfold Station.secWait
  cases i with
  | timeUpdate pins =>
      refine ⟨fun _ => ?_, nofun, nofun⟩
      dsimp only
      rcases tickSec_counting ⟨hpos, hle⟩ with ⟨-, -, hflag⟩ | ⟨hmore, hnext, hflag⟩
      · rw [hflag]
        exact Nat.zero_le _
      · rw [hflag, hnext]
        split_ifs
        · exact Nat.zero_le _
        · bv_omega
  | secProcess pins =>
      refine ⟨nofun, fun _ => ⟨hle, fun hflag => ?_⟩, nofun⟩
      rw [hflag]
  | _ => exact ⟨nofun, nofun, fun _ _ => rfl⟩

/-! ## The stops that a check queues -/

section Check

variable {pins : Pins} {s : Station}

theorem blockCheckBelt_queue (pins : Pins) (s : Station) (i : Nat) :
    (blockCheckBelt pins s i).logic.uartSendQueue =
      if reachesLimit pins i s (s.logic.blockCheckTimeCnt.get i) then
        s.logic.uartSendQueue.add (speedNode (i + 1) 0 10)
      else s.logic.uartSendQueue := by
  have hiff := looksAt_iff i s
  unfold blockCheckBelt
  by_cases hlook : looksAt i s = true
  · obtain ⟨hswitch, hrunning⟩ := hiff.mp hlook
    rw [if_pos hswitch, if_pos hrunning]
    by_cases hphoto : getPhotoInputStatus pins i = true
    · rw [if_pos hphoto, reachesLimit_eq hlook hphoto]
      dsimp only
      by_cases hlimit : (s.belt i).blockCheckTime.setWidth 32 ≤
          s.logic.blockCheckTimeCnt.get i + 1
      · rw [if_pos (by exact hlimit), if_pos (decide_eq_true hlimit)]
        rfl
      · rw [if_neg (by exact hlimit), if_neg (by simpa using hlimit)]
    · have hreach : reachesLimit pins i s (s.logic.blockCheckTimeCnt.get i) = false := by
        simp [reachesLimit, hphoto]
      rw [if_neg hphoto, hreach]
      rfl
  · have hreach : reachesLimit pins i s (s.logic.blockCheckTimeCnt.get i) = false := by
      simp [reachesLimit, hlook]
    rw [hreach]
    by_cases hswitch : bitAt (s.belt i).funcSelectSwitch 2 ≠ 0
    · rw [if_pos hswitch, if_neg fun hrunning => hlook (hiff.mpr ⟨hswitch, hrunning⟩)]
      rfl
    · rw [if_neg hswitch]
      rfl

/-- The belts of a list, each once, queue the stops of those whose counts are up. -/
theorem foldl_blockCheckBelt_queue {is : List Nat} (hnodup : is.Nodup) {t : Station}
    (hparas : t.logic.userParasLocal = s.logic.userParasLocal) (hrun : t.runBit = s.runBit)
    (his : ∀ i ∈ is, i < s.beltNumber) :
    (is.foldl (blockCheckBelt pins) t).logic.uartSendQueue =
      t.logic.uartSendQueue.addAll
        ((is.filter fun k => reachesLimit pins k s (t.logic.blockCheckTimeCnt.get k)).map
          fun k => speedNode (k + 1) 0 10) := by
  induction is generalizing t with
  | nil => rfl
  | cons i is ih =>
      obtain ⟨hfresh, hnodup⟩ := List.nodup_cons.mp hnodup
      have hi : i < t.beltNumber := by
        unfold Station.beltNumber
        rw [hparas]
        exact his i List.mem_cons_self
      have hquiet := (blockCheckBelt_quiet pins hi).keeps
      have hparas' : (blockCheckBelt pins t i).logic.userParasLocal = t.logic.userParasLocal :=
        hquiet.same .paras (by decide)
      have hrun' : (blockCheckBelt pins t i).runBit = t.runBit := hquiet.same .runBits (by decide)
      have hcnt : ∀ k ∈ is, (blockCheckBelt pins t i).logic.blockCheckTimeCnt.get k =
          t.logic.blockCheckTimeCnt.get k := by
        intro k hk
        have hpanel := congrArg Panel.blockCheckTimeCnt (blockCheckBelt_panel pins t i)
        refine (congrArg (fun c : Table 10 U32 => c.get k) hpanel).trans ?_
        exact checkBelt_cnt_ne pins t t.panel fun heq => hfresh (heq ▸ hk)
      have hlimit : ∀ k cnt, reachesLimit pins k t cnt = reachesLimit pins k s cnt := by
        intro k cnt
        unfold reachesLimit looksAt Station.belt
        rw [hparas, hrun]
      have hrest : (is.filter fun k => reachesLimit pins k s
            ((blockCheckBelt pins t i).logic.blockCheckTimeCnt.get k)) =
          is.filter fun k => reachesLimit pins k s (t.logic.blockCheckTimeCnt.get k) :=
        List.filter_congr fun k hk => by rw [hcnt k hk]
      rw [List.foldl_cons, ih hnodup (hparas'.trans hparas) (hrun'.trans hrun)
        fun j hj => his j (List.mem_cons_of_mem i hj), hrest, blockCheckBelt_queue, hlimit]
      rw [List.filter_cons]
      by_cases hreach : reachesLimit pins i s (t.logic.blockCheckTimeCnt.get i) = true
      · rw [if_pos hreach, if_pos hreach]
        rfl
      · rw [if_neg hreach, if_neg hreach]

/-- **A jam queues a stop**, if there is room for one to each belt. -/
theorem check_uartNodes {i : Input} {k : Nat} (hcheck : checkOf (s, i) = some pins)
    (hraise : Raises pins k s) (hroom : s.uartNodes.length + s.beltNumber < 30) :
    speedNode (k + 1) 0 10 ∈ (step s i).uartNodes := by
  obtain ⟨-, hflag, hstep⟩ := checkOf_eq_some hcheck
  have hon : s.logic.gBlockDisableFlag ≠ 1 := hraise.1.1.1
  obtain ⟨hk, hreach⟩ := (raises_iff hon).mp hraise
  let jams := (List.range s.beltNumber).filter fun k =>
    reachesLimit pins k s (s.logic.blockCheckTimeCnt.get k)
  have hqueue : (step s i).logic.uartSendQueue =
      s.logic.uartSendQueue.addAll (jams.map fun k => speedNode (k + 1) 0 10) := by
    have hbelts : ∀ t : Station, t.logic = s.logic → t.runBit = s.runBit →
        (blockCheckCtrlHandle pins t).logic.uartSendQueue =
          s.logic.uartSendQueue.addAll (jams.map fun k => speedNode (k + 1) 0 10) := by
      intro t hlogic hrun
      have hrange := @foldl_blockCheckBelt_queue pins s _ List.nodup_range t (by rw [hlogic])
        hrun fun j hj => List.mem_range.mp hj
      unfold blockCheckCtrlHandle Station.beltNumber
      rw [hlogic, if_neg hon]
      rw [hlogic] at hrange
      exact hrange
    have hhalf : (step s i).logic.uartSendQueue = (secHandle pins s).logic.uartSendQueue := by
      rw [hstep]
      exact (halfSecHandle_keeps (secHandle pins s)).same .uartQueue (by decide)
    rw [hhalf]
    unfold secHandle
    rw [if_pos hflag]
    dsimp only
    split_ifs <;> exact hbelts _ rfl rfl
  have hlen : (jams.map fun k => speedNode (k + 1) 0 10).length ≤ s.beltNumber := by
    rw [List.length_map]
    exact (List.length_filter_le _ _).trans (List.length_range).le
  have hmem : k ∈ jams := List.mem_filter.mpr ⟨hk, hreach⟩
  have hfits : s.logic.uartSendQueue.contents.length +
      (jams.map fun k => speedNode (k + 1) 0 10).length < 30 := by
    have hnow : s.logic.uartSendQueue.contents.length + s.beltNumber < 30 := hroom
    omega
  show speedNode (k + 1) 0 10 ∈ (step s i).logic.uartSendQueue.contents
  rw [hqueue, RingFifo.contents_addAll_of_room hfits]
  exact List.mem_append_right _ (List.mem_map_of_mem hmem)

end Check

/-! ## The blocked checks that are left -/

section Blockage

variable {s : Station} {i : Input} {k T : Nat} {pins : Pins}

/-- A blocked check that does not raise the jam counts. -/
theorem CheckDone.counts {t : Station} (h : CheckDone pins s t) (hblocked : Blocked k (s, pins))
    (hno : ¬ Raises pins k s) :
    t.logic.blockCheckTimeCnt.get k = s.logic.blockCheckTimeCnt.get k + 1 ∧
      (s.logic.blockCheckTimeCnt.get k + 1).toNat < (s.belt k).blockCheckTime.toNat := by
  have hcnt := h.cnt k
  rw [if_pos hblocked.1, if_pos ⟨hblocked.2, hno⟩] at hcnt
  have hless : ¬ (s.belt k).blockCheckTime.setWidth 32 ≤ s.logic.blockCheckTimeCnt.get k + 1 :=
    fun hreach => hno ⟨hblocked.1, hblocked.2, hreach⟩
  exact ⟨hcnt, by bv_omega⟩

/-- The counts stay below the 16 bits of `Block_Check_Time`. -/
theorem reachable_blockCnt (h : Reachable (fun _ _ => True) s) (k : Nat) :
    (s.logic.blockCheckTimeCnt.get k).toNat < 2 ^ 16 := by
  have hinit : ∀ t, Booted t → (t.logic.blockCheckTimeCnt.get k).toNat < 2 ^ 16 := by
    intro t hboot
    obtain ⟨flash, localStation, rfl⟩ := hboot
    have hcnt : (boot flash localStation).logic.blockCheckTimeCnt = fun _ => 0 :=
      congrArg Panel.blockCheckTimeCnt (boot_panel flash localStation)
    rw [hcnt]
    unfold Table.get
    split_ifs <;> exact Nat.two_pow_pos 16
  refine h.invariant hinit fun t i ht _ => ?_
  cases hcheck : checkOf (t, i) with
  | none =>
      rw [step_blockCnt hcheck]
      exact ht
  | some pins =>
      have hdone := step_checkDone hcheck
      by_cases hcounts : Blocked k (t, pins) ∧ ¬ Raises pins k t
      · obtain ⟨hnext, hless⟩ := hdone.counts hcounts.1 hcounts.2
        rw [hnext]
        exact hless.trans (t.belt k).blockCheckTime.isLt
      · have hcnt := hdone.cnt k
        rw [hcnt]
        split_ifs with hmonitored hphoto
        · exact absurd ⟨⟨hmonitored, hphoto.1⟩, hphoto.2⟩ hcounts
        · decide
        · exact ht

/-- What ends the wait for a jam of belt `k`: it is raised, a check finds the belt not blocked or
with a `Block_Check_Time` above `T`, or the board is reset. -/
def JamSettled (T k : Nat) (s : Station) (i : Input) : Prop :=
  (∃ pins, checkOf (s, i) = some pins ∧
    (Raises pins k s ∨ ¬ Blocked k (s, pins) ∨ T < (s.belt k).blockCheckTime.toNat)) ∨
  (step s i).systemReset = true

/-- The blocked checks that may pass before the one that raises the jam. -/
def blockedLeft (T k : Nat) (s : Station) : Nat :=
  T - 1 - (s.logic.blockCheckTimeCnt.get k).toNat

/-- **A blockage is a periodic obligation** of `sec_process`. -/
theorem blockage_periodic (D T k : Nat) :
    Periodic step secPace D 1000
      (fun _ (_ : Unit) s => Reachable (fun _ _ => True) s ∧ s.systemReset = false)
      Station.secWait (fun _ => blockedLeft T k) (JamSettled T k) where
  tick := by
    intro lag _ s i hrel hlag hpace hnot
    have hsec := step_secWait (reachable_secCounting hrel.1) hrel.2 i
    have hnone : checkOf (s, i) = none := by
      cases i with
      | secProcess pins => cases hpace
      | _ => rfl
    refine ⟨(), ⟨Reach.next hrel.1 trivial, by simpa using fun h => hnot (Or.inr h)⟩,
      hsec.1 hpace, ?_⟩
    unfold blockedLeft
    rw [step_blockCnt hnone]
  serve := by
    intro lag _ s i hrel hpace hnot
    have hcounting := reachable_secCounting hrel.1
    have hsec := (step_secWait hcounting hrel.2 i).2.1 hpace
    obtain ⟨pins, rfl⟩ : ∃ pins, i = .secProcess pins := by
      cases i with
      | secProcess pins => exact ⟨pins, rfl⟩
      | _ => cases hpace
    refine ⟨(), ⟨Reach.next hrel.1 trivial, by simpa using fun h => hnot (Or.inr h)⟩,
      fun hdue => ⟨hsec.1, ?_⟩, fun hearly => ?_⟩
    · have hflag : s.main.secFlag = true := by
        by_contra hoff
        obtain ⟨hpos, -⟩ := hcounting
        unfold Station.secWait at hdue
        rw [if_neg hoff] at hdue
        omega
      have hcheck := checkOf_secProcess ⟨hrel.2, hflag⟩ pins
      have hunsettled : ¬ (Raises pins k s ∨ ¬ Blocked k (s, pins) ∨
          T < (s.belt k).blockCheckTime.toNat) := fun h => hnot (Or.inl ⟨pins, hcheck, h⟩)
      obtain ⟨hno, hrest⟩ := not_or.mp hunsettled
      obtain ⟨hblocked, hlimit⟩ := not_or.mp hrest
      obtain ⟨hnext, hless⟩ := (step_checkDone hcheck).counts (not_not.mp hblocked) hno
      have hsmall := reachable_blockCnt hrel.1 k
      unfold blockedLeft
      rw [hnext]
      bv_omega
    · have hflag : s.main.secFlag = false := by
        by_contra hon
        unfold Station.secWait at hearly
        rw [if_pos (by simpa using hon)] at hearly
        exact hearly rfl
      have hnone : checkOf (s, .secProcess pins) = none :=
        if_neg fun h => by rw [hflag] at h; exact Bool.false_ne_true h.2
      refine ⟨hsec.2 hflag, ?_⟩
      unfold blockedLeft
      rw [step_blockCnt hnone]
  other := by
    intro lag _ s i charge hrel hpace hnot
    have hsec := step_secWait (reachable_secCounting hrel.1) hrel.2 i
    have hnone : checkOf (s, i) = none := by
      cases i with
      | secProcess pins => cases hpace
      | _ => rfl
    refine ⟨(), ⟨Reach.next hrel.1 trivial, by simpa using fun h => hnot (Or.inr h)⟩,
      (hsec.2.2 charge hpace).le, ?_⟩
    unfold blockedLeft
    rw [step_blockCnt hnone]

/-- The check raises the jam of belt `k`, which is latched and shown, and if there is room for a
stop to each belt, belt `k` gets its stop within the time the master needs for the queue. -/
structure StopsJam (pins : Pins) (k : Nat) (s : Station) (i : Input) : Prop where
  raises : Raises pins k s
  latched : (step s i).jam k = true
  shown : (step s i).outs.lAlarmOut = true
  stopped : s.uartNodes.length + s.beltNumber < 30 → ∀ {D : Nat} {is : List Input},
    CommPrompt D is →
    masterWork D (step s i).uartNodes (step s i) + byteDelays is + D < milliseconds is →
    Somewhere step
      (fun t j => WritesGear 0 (k + 1) t j ∨ Emptied t (step t j) ∨
        (step t j).systemReset = true)
      (step s i) is

theorem stopsJam_of_raises (hs : Reachable (fun _ _ => True) s)
    (hcheck : checkOf (s, i) = some pins) (hraise : Raises pins k s) : StopsJam pins k s i := by
  have hdone := step_checkDone hcheck
  refine ⟨hraise, (hdone.jam k).mpr (Or.inr hraise), hdone.alarm.mpr (Or.inr ⟨k, hraise⟩), ?_⟩
  intro hroom D is hprompt hlong
  have hn := s.beltNumber_le
  have hk : k < s.beltNumber := hraise.1.1.2.1
  have hnext : Reachable (fun _ _ => True) (step s i) := Reach.next hs trivial
  obtain ⟨ahead, behind, hqueue⟩ := List.append_of_mem (check_uartNodes hcheck hraise hroom)
  obtain ⟨js, j, ks, hsplit, hserved⟩ :=
    somewhere_iff.mp (queued_command_served hnext hqueue hprompt hlong)
  refine somewhere_iff.mpr ⟨js, j, ks, hsplit, ?_⟩
  exact hserved.imp_left fun hsends => hsends.writesGear (by omega) (Or.inl (by decide))

/-- **A blocked belt is stopped.**  In a run that calls `sec_process` at least once in `D`
milliseconds, belt `k` is looked at until its jam is raised, which takes at most `T` seconds and
as many delays of `sec_process`, unless a check finds the belt not running, not monitored, not
blocked, or with a `Block_Check_Time` above `T`, or the board is reset.  The jam is latched and
shown, and the belt is stopped. -/
theorem blocked_belt_stopped (hs : Reachable (fun _ _ => True) s) {k T D : Nat} (hT : 0 < T)
    {is : List Input} (hprompt : SecPrompt D is) (hlong : T * (1000 + D) + D < milliseconds is) :
    Somewhere step
      (fun t i => (∃ pins, checkOf (t, i) = some pins ∧
          (StopsJam pins k t i ∨ ¬ Blocked k (t, pins) ∨ T < (t.belt k).blockCheckTime.toNat)) ∨
        (step t i).systemReset = true) s is := by
  obtain ⟨htime, hcharges⟩ := secPace_time is
  by_cases hreset : s.systemReset = true
  · cases is with
    | nil => exact absurd hlong (Nat.not_lt_zero _)
    | cons i is =>
        have hsame : step s i = s := if_pos hreset
        exact Or.inl (Or.inr (by rwa [hsame]))
  have hcounting := reachable_secCounting hs
  have hstart : s.secWait ≤ 1000 := by
    unfold Station.secWait
    split_ifs
    · exact Nat.zero_le _
    · exact hcounting.2
  have hrounds : (blockedLeft T k s + 1) * (1000 + D) ≤ T * (1000 + D) := by
    refine Nat.mul_le_mul_right _ ?_
    unfold blockedLeft
    omega
  have hsettled := (blockage_periodic D T k).somewhere (g := ()) ⟨hs, by simpa using hreset⟩ hstart
    hprompt (by rw [htime, hcharges]; omega)
  obtain ⟨js, j, ks, hsplit, hmet⟩ := somewhere_iff.mp hsettled
  refine somewhere_iff.mpr ⟨js, j, ks, hsplit, ?_⟩
  have hthere : Reachable (fun _ _ => True) (run step s js) :=
    hs.run_of_along (Along.of_forall (fun _ _ => trivial) _ _)
  refine hmet.imp_left fun hchecked => ?_
  obtain ⟨pins, hcheck, hend⟩ := hchecked
  exact ⟨pins, hcheck, hend.imp_left fun hraise => stopsJam_of_raises hthere hcheck hraise⟩

end Blockage

/-- So many milliseconds with blocked sensors, and a call of `sec_process` behind each tick. -/
def blockedRounds (n : Nat) : List Input :=
  (List.replicate n [.timeUpdate blockedPins, .secProcess blockedPins]).flatten

theorem blockedRounds_time (n : Nat) :
    milliseconds (blockedRounds n) = n ∧ SecPrompt 1 (blockedRounds n) := by
  refine ⟨(ticks_turns _ _ n).trans (Nat.mul_one n), prompt_turns ?_ n⟩
  exact fun is h => ⟨Nat.one_pos, h⟩

/-- The belt of slave 2 runs, and its sensor is blocked for three seconds. -/
theorem blocked_belt_stopped_beforeFirstCheck :
    Somewhere step
      (fun t i => (∃ pins, checkOf (t, i) = some pins ∧
          (StopsJam pins 0 t i ∨ ¬ Blocked 0 (t, pins) ∨ 2 < (t.belt 0).blockCheckTime.toNat)) ∨
        (step t i).systemReset = true) beforeFirstCheck (blockedRounds 3000) := by
  obtain ⟨htime, hprompt⟩ := blockedRounds_time 3000
  have hok : ∀ t i, Input.isPoll i = true → (fun _ _ => True : Station → Input → Prop) t i :=
    fun _ _ _ => trivial
  obtain ⟨past, htrail, -⟩ := beforeFirstCheck_observed hok
  refine blocked_belt_stopped htrail.reach Nat.two_pos hprompt ?_
  rw [htime]
  decide

end IotCtrl
