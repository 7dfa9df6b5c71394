import IotCtrl.Deadline
import IotCtrl.MasterPhase

/-!
# Every command reaches the bus

The commands in the UART queue are sent one after the other.  A command waits for those in
front of it, each with its interval, its answer window and its retries, and for the main loop,
which is assumed to call the master at least once in `D` milliseconds.

* `uartPace` — what is a tick, a call of the master and a byte that restarts the quiet time;
* `Phase.work`, `nodeWork` — the milliseconds the master is still busy with;
* `Pending`, `pending_ranked` — a command on its way, and the work in front of it;
* `waiting_commands_sent` — it is sent, unless a stop command or a reset removes it.
-/

namespace IotCtrl

open Transition Deadline

/-! ## Time -/

/-- A byte in the receive window restarts the five milliseconds of quiet. -/
def uartPace : Input → Pace
  | .timeUpdate _ => .tick
  | .modbusComm _ => .serve
  | .usart1Irq _ => .other 5
  | _ => .other 0

/-- The ticks, the received bytes and the promptness of a run. -/
abbrev milliseconds (is : List Input) : Nat := ticks uartPace is
abbrev byteDelays (is : List Input) : Nat := charges uartPace is
abbrev CommPrompt (D : Nat) (is : List Input) : Prop := Prompt uartPace D 0 is

/-- The attempts behind this one: an interval, two calls of the main loop and a window each. -/
def retryWork (D retries : Nat) : Nat := retries * (20 + (D + 50) + D)

/-- What the master is busy with in a phase. -/
def Phase.work (D : Nat) : Phase → Nat
  | .idle => 0
  | .ready interval retries => interval + (D + (50 + (D + retryWork D retries)))
  | .due retries => D + (50 + (D + retryWork D retries))
  | .listening left retries => left + (D + retryWork D retries)
  | .ended retries => D + retryWork D retries

/-- What a command in the queue will keep the master busy with. -/
def nodeWork (D : Nat) (x : CommNode) : Nat :=
  D + (Phase.ready (fixInterval x).commInterval.toNat x.commRetry.toNat).work D

/-- The work in front of the end of the first commands of the queue. -/
def masterWork (D : Nat) (queue : List CommNode) (s : Station) : Nat :=
  s.phase.work D + (queue.map (nodeWork D)).sum

namespace Phase

variable {D : Nat} {p p' : Phase} {queue queue' : List CommNode}

theorem retryWork_succ (D retries : Nat) :
    retryWork D (retries + 1) = retryWork D retries + (20 + (D + 50) + D) :=
  Nat.succ_mul _ _

/-- A tick works off one millisecond, if the clock is waited for. -/
theorem work_tick (hrun : ∀ retries, p ≠ .ready 0 retries ∧ p ≠ .listening 0 retries) :
    (p.Waits → p.tick = p) ∧ (¬ p.Waits → p.tick.work D + 1 ≤ p.work D) := by
  cases p with
  | idle | due _ | ended _ => exact ⟨fun _ => rfl, fun h => absurd trivial h⟩
  | ready interval retries =>
      refine ⟨False.elim, fun _ => ?_⟩
      have hne : interval ≠ 0 := fun hzero => (hrun retries).1 (by rw [hzero])
      simp only [tick]
      split_ifs
      all_goals
        simp only [work]
        omega
  | listening left retries =>
      refine ⟨False.elim, fun _ => ?_⟩
      have hne : left ≠ 0 := fun hzero => (hrun retries).2 (by rw [hzero])
      simp only [tick]
      split_ifs
      all_goals
        simp only [work]
        omega

theorem work_byte : p.byte.work D ≤ p.work D + 5 ∧ (p.Waits → p.byte.Waits) := by
  cases p with
  | listening left retries =>
      refine ⟨?_, False.elim⟩
      simp only [byte, work]
      omega
  | _ => exact ⟨Nat.le_add_right _ _, id⟩

/-- A call of the main loop works off its share. -/
theorem Call.work_le (h : Call p queue p' queue') :
    (p = .idle ∧ queue = [] ∧ p' = .idle ∧ queue' = []) ∨
      (∃ x, p = .idle ∧ queue = x :: queue' ∧ p'.work D + D = nodeWork D x) ∨
      (queue <+: queue' ∧ p'.work D ≤ p.work D ∧ (p.Waits → p'.work D + D ≤ p.work D)) := by
  cases h with
  | rest => exact Or.inl ⟨rfl, rfl, rfl, rfl⟩
  | take x _ => exact Or.inr (Or.inl ⟨x, rfl, rfl, Nat.add_comm _ _⟩)
  | send retries _ =>
      refine Or.inr (Or.inr ⟨List.prefix_rfl, ?_, fun _ => ?_⟩)
      all_goals
        simp only [work]
        omega
  | release retries hkept =>
      refine Or.inr (Or.inr ⟨hkept, Nat.zero_le _, fun _ => ?_⟩)
      simp only [work]
      omega
  | retry retries hkept =>
      refine Or.inr (Or.inr ⟨hkept, ?_, fun _ => ?_⟩)
      all_goals
        simp only [work, retryWork_succ]
        omega
  | wait hwait _ => exact Or.inr (Or.inr ⟨List.prefix_rfl, Nat.le_refl _, fun h => absurd h hwait⟩)

end Phase

/-! ## A command on its way -/

/-- The command is in flight and was not sent yet. -/
def InHand (x : CommNode) (s : Station) : Prop :=
  (∃ interval, s.inFlight = some { x with commInterval := interval }) ∧ ¬ Listening s

/-- The command is sent: it is in flight, its interval is over, and its frame is put on the
RS-485 bus. -/
def SendsNode (x : CommNode) (s : Station) (i : Input) : Prop :=
  s.inFlight = some { x with commInterval := 0 } ∧ ∃ stack frame built,
    i = .modbusComm stack ∧ commBuildFrame stack s = some (frame, built) ∧
      (step s i).trace = .modbusTx frame :: s.trace

/-- What ends the wait of a command. -/
def Served (x : CommNode) (s : Station) (i : Input) : Prop :=
  SendsNode x s i ∨ Emptied s (step s i) ∨ (step s i).systemReset = true

/-- A command on its way: it is the last of the first commands of the queue, or in hand. -/
structure Pending (x : CommNode) (queue : List CommNode) (s : Station) : Prop where
  reach : Reachable (fun _ _ => True) s
  running : s.systemReset = false
  place : (queue.getLast? = some x ∧ queue <+: s.uartNodes) ∨ (queue = [] ∧ InHand x s)

namespace Pending

variable {x : CommNode} {queue : List CommNode} {s : Station} {i : Input} {D : Nat}

theorem alive (h : Pending x queue s) : Alive s := reachable_alive h.reach

theorem next (h : Pending x queue s) (i : Input) : Reachable (fun _ _ => True) (step s i) :=
  Reach.next h.reach trivial

theorem stays (hnot : ¬ Served x s i) : (step s i).systemReset = false := by
  simpa using fun hreset => hnot (Or.inr (Or.inr hreset))

/-- A step beside the master leaves the command where it is. -/
theorem beside (h : Pending x queue s) (hi : i.Beside) (hnot : ¬ Served x s i) :
    Pending x queue (step s i) := by
  have hempty : ¬ Emptied s (step s i) := fun hempty => hnot (Or.inr (Or.inl hempty))
  refine ⟨h.next i, stays hnot, ?_⟩
  rcases h.place with ⟨hlast, hkept⟩ | ⟨hnil, ⟨interval, hflight⟩, hlisten⟩
  · exact Or.inl ⟨hlast, hkept.trans ((step_grows hi s).grows hempty)⟩
  · have hsame := step_sameFlight h.alive.timers hi
    refine Or.inr ⟨hnil, ?_, fun hnow => hlisten (hsame.listening.mp hnow)⟩
    rcases hsame.inFlight with ⟨hnone, -⟩ | ⟨interval', hsome, hnext⟩
    · rw [hnone] at hflight
      cases hflight
    · rw [hsome] at hflight
      exact ⟨interval', by rw [hnext, Option.some.inj hflight]⟩

/-- The clock is waited for only where it runs. -/
theorem runs (h : Pending x queue s) (retries : Nat) :
    s.phase ≠ .ready 0 retries ∧ s.phase ≠ .listening 0 retries := by
  have halive := h.alive.alive
  unfold Station.phase
  by_cases hbusy : s.logic.commBusyFlag = true
  · rw [if_pos hbusy]
    rcases halive hbusy with hst | hst | ⟨hst, hpos⟩ | ⟨hst, hpos⟩
    · rw [hst]
      exact ⟨nofun, nofun⟩
    · rw [hst]
      exact ⟨nofun, nofun⟩
    · rw [hst]
      refine ⟨fun heq => ?_, nofun⟩
      obtain ⟨hzero, -⟩ := Phase.ready.inj heq
      bv_omega
    · rw [hst]
      refine ⟨nofun, fun heq => ?_⟩
      obtain ⟨hzero, -⟩ := Phase.listening.inj heq
      bv_omega
  · rw [if_neg hbusy]
    exact ⟨nofun, nofun⟩

/-- A command in hand that is due is sent by the next call. -/
theorem sends (h : Pending x [] s) (hhand : InHand x s) (stack : Table 4 U16) {retries : Nat}
    (hdue : s.phase = .due retries) : SendsNode x s (.modbusComm stack) := by
  obtain ⟨⟨interval, hflight⟩, hlisten⟩ := hhand
  have hbusy : s.logic.commBusyFlag = true := by
    unfold Station.inFlight at hflight
    split_ifs at hflight with hbusy
    exact hbusy
  have hnode : s.logic.commNode = { x with commInterval := interval } := by
    unfold Station.inFlight at hflight
    rw [if_pos hbusy] at hflight
    exact Option.some.inj hflight
  have hsend : s.modbus.uart1CommuState = .sendData := by
    unfold Station.phase at hdue
    rw [if_pos hbusy] at hdue
    cases hst : s.modbus.uart1CommuState with
    | sendData => rfl
    | _ =>
        rw [hst] at hdue
        cases hdue
  have hzero : interval = 0 := by
    by_contra hne
    have hready := h.alive.timers.interval (by rw [hnode]; exact hne)
    rw [hsend] at hready
    cases hready
  obtain ⟨⟨frame, built⟩, hbuild⟩ := Option.isSome_iff_exists.mp
    (@commBuildFrame_isSome stack s
      (h.alive.range.flight _ (inFlight_of_busy hbusy)).rwFlag)
  refine ⟨hzero ▸ hflight, stack, frame, built, rfl, hbuild, ?_⟩
  have hstep : step s (.modbusComm stack) = commSendRwComand stack s := by
    refine (if_neg (by rw [h.running]; decide)).trans ?_
    exact (if_neg (by rw [hbusy]; decide)).trans (if_pos hsend)
  rw [hstep]
  exact commSendRwComand_trace hbuild

/-- In hand, a command is ready or due. -/
theorem inHand_phase (h : Pending x queue s) (hhand : InHand x s) :
    (∃ interval retries, s.phase = .ready interval retries) ∨
      ∃ retries, s.phase = .due retries := by
  obtain ⟨⟨interval, hflight⟩, hlisten⟩ := hhand
  have hbusy : s.logic.commBusyFlag = true := by
    unfold Station.inFlight at hflight
    split_ifs at hflight with hbusy
    exact hbusy
  unfold Station.phase
  rw [if_pos hbusy]
  rcases h.alive.alive hbusy with hst | hst | ⟨hst, -⟩ | ⟨hst, -⟩
  · rw [hst]
    exact Or.inr ⟨_, rfl⟩
  · exact absurd (Or.inr hst) hlisten
  · rw [hst]
    exact Or.inl ⟨_, _, rfl⟩
  · exact absurd (Or.inl hst) hlisten

/-- A command whose turn it is comes in hand. -/
theorem takes (h : Pending x queue s) (hidle : s.phase = .idle) (stack : Table 4 U16) :
    ∃ y rest, queue = y :: rest ∧ Pending x rest (step s (.modbusComm stack)) ∧
      s.uartNodes = y :: (step s (.modbusComm stack)).uartNodes := by
  have hfree : s.logic.commBusyFlag = false := by
    by_contra hbusy
    have hbusy : s.logic.commBusyFlag = true := by simpa using hbusy
    unfold Station.phase at hidle
    rw [if_pos hbusy] at hidle
    rcases h.alive.alive hbusy with hst | hst | ⟨hst, -⟩ | ⟨hst, -⟩
    all_goals
      rw [hst] at hidle
      cases hidle
  have hstep : step s (.modbusComm stack) = commTakeNode s :=
    (if_neg (by rw [h.running]; decide)).trans (if_pos hfree)
  have hreset : (commTakeNode s).systemReset = false :=
    Eq.trans ((commTakeNode_keeps s).same .systemReset (by decide)) h.running
  rcases h.place with ⟨hlast, hkept⟩ | ⟨-, ⟨interval, hflight⟩, -⟩
  · rcases commTakeNode_cases s with ⟨hempty, -⟩ | ⟨y, hqueue, hflight, hready⟩
    · rw [hempty, List.prefix_nil] at hkept
      rw [hkept] at hlast
      cases hlast
    · cases queue with
      | nil => cases hlast
      | cons z rest =>
          rw [hqueue] at hkept
          obtain ⟨rfl, hrest⟩ := List.cons_prefix_cons.mp hkept
          refine ⟨z, rest, rfl, ⟨h.next _, hstep ▸ hreset, ?_⟩, hstep ▸ hqueue⟩
          rw [hstep]
          cases rest with
          | nil =>
              obtain rfl : z = x := Option.some.inj hlast
              obtain ⟨interval, hfix⟩ := fixInterval_eq z
              refine Or.inr ⟨rfl, ⟨interval, hflight.trans (congrArg some hfix)⟩, ?_⟩
              unfold Listening
              rw [hready]
              decide
          | cons w rest => exact Or.inl ⟨hlast, hrest⟩
  · unfold Station.inFlight at hflight
    rw [if_neg (by rw [hfree]; decide)] at hflight
    cases hflight

/-- Another call leaves a command in the queue, and a command in hand that is not due. -/
theorem keepsPlace (h : Pending x queue s) (hnot : ¬ Served x s i) (stack : Table 4 U16)
    (hi : i = .modbusComm stack) (hkept : s.uartNodes <+: (step s i).uartNodes) :
    Pending x queue (step s i) := by
  refine ⟨h.next i, stays hnot, ?_⟩
  rcases h.place with ⟨hlast, hqueue⟩ | ⟨rfl, hhand⟩
  · exact Or.inl ⟨hlast, hqueue.trans hkept⟩
  · rcases h.inHand_phase hhand with ⟨interval, retries, hready⟩ | ⟨retries, hdue⟩
    · have hsame : step s i = s := by
        rw [hi]
        refine (if_neg (by rw [h.running]; decide)).trans ?_
        show modbusRtuCommProcess stack s = s
        unfold Station.phase at hready
        unfold modbusRtuCommProcess
        split_ifs at hready with hbusy
        cases hst : s.modbus.uart1CommuState with
        | sendReady => rw [if_neg (by rw [hbusy]; decide), if_neg nofun, if_neg nofun]
        | _ =>
            rw [hst] at hready
            cases hready
      exact Or.inr ⟨rfl, by rwa [hsame]⟩
    · exact absurd (Or.inl (hi ▸ h.sends hhand stack hdue)) hnot

end Pending

/-! ## The work in front of it -/

/-- **The rank of a command on its way.** -/
theorem pending_ranked (D : Nat) (x : CommNode) :
    Ranked step uartPace D (fun _ => Pending x) (fun _ s => s.phase.Waits) (masterWork D)
      (Served x) where
  tick := by
    intro lag queue s i h hlag hpace hnot
    cases i with
    | timeUpdate pins =>
        have hphase := tick_phase h.alive h.running pins
        obtain ⟨hwait, hwork⟩ := Phase.work_tick (D := D) h.runs
        refine ⟨queue, h.beside trivial hnot, fun hw => ?_, fun hw => ?_⟩
        · unfold masterWork
          rw [hphase, hwait hw]
          exact ⟨hw, Nat.le_refl _⟩
        · have hless := hwork hw
          unfold masterWork
          rw [hphase]
          omega
    | _ => cases hpace
  serve := by
    intro lag queue s i h hpace hnot
    cases i with
    | modbusComm stack =>
        have hcall := modbusComm_phase h.alive h.running stack
        rcases hcall.work_le (D := D) with ⟨hidle, hempty, -⟩ | ⟨y, hidle, hqueue, hwork⟩ |
          ⟨hkept, hle, hless⟩
        · obtain ⟨y, rest, -, -, hqueue⟩ := h.takes hidle stack
          rw [hempty] at hqueue
          cases hqueue
        · obtain ⟨z, rest, rfl, hnext, hqueue'⟩ := h.takes hidle stack
          obtain ⟨rfl, -⟩ := List.cons.inj (hqueue.symm.trans hqueue')
          have hsum : ((y :: rest).map (nodeWork D)).sum =
              nodeWork D y + (rest.map (nodeWork D)).sum := List.sum_cons
          refine ⟨rest, hnext, fun _ => ?_, ?_⟩
          all_goals
            unfold masterWork
            rw [hsum]
            omega
        · refine ⟨queue, h.keepsPlace hnot stack rfl hkept, fun hw => ?_, ?_⟩
          · have hless := hless hw
            unfold masterWork
            omega
          · unfold masterWork
            omega
    | _ => cases hpace
  other := by
    intro lag queue s i charge h hpace hnot
    have htick : ∀ pins, i ≠ .timeUpdate pins := by
      rintro pins rfl
      cases hpace
    have hcall : ∀ stack, i ≠ .modbusComm stack := by
      rintro stack rfl
      cases hpace
    have hi : i.Beside := by
      cases i with
      | modbusComm stack => exact absurd rfl (hcall stack)
      | _ => trivial
    refine ⟨queue, h.beside hi hnot, ?_⟩
    unfold masterWork
    by_cases hbyte : ∃ tmp, i = .usart1Irq tmp
    · obtain ⟨tmp, rfl⟩ := hbyte
      obtain rfl := Pace.other.inj hpace
      obtain ⟨hle, hwait⟩ := Phase.work_byte (D := D) (p := s.phase)
      rw [byte_phase h.running tmp]
      exact ⟨hwait, by omega⟩
    · rw [beside_phase htick (fun tmp heq => hbyte ⟨tmp, heq⟩) hcall]
      exact ⟨id, Nat.le_add_right _ _⟩

/-- A command that waits in the queue is served within the work up to its own end. -/
theorem command_served {s : Station} (hs : Reachable (fun _ _ => True) s)
    {ahead behind : List CommNode} {x : CommNode} (hqueue : s.uartNodes = ahead ++ x :: behind)
    {D : Nat} {is : List Input} (hprompt : CommPrompt D is)
    (hlong : masterWork D (ahead ++ [x]) s + byteDelays is + D < milliseconds is) :
    Somewhere step (Served x) s is := by
  by_cases hreset : s.systemReset = true
  · cases is with
    | nil => exact absurd hlong (Nat.not_lt_zero _)
    | cons i is =>
        have hsame : step s i = s := if_pos hreset
        exact Or.inl (Or.inr (Or.inr (by rwa [hsame])))
  · have hkept : ahead ++ [x] <+: s.uartNodes :=
      ⟨behind, by rw [hqueue, List.append_assoc, List.singleton_append]⟩
    have hpending : Pending x (ahead ++ [x]) s :=
      ⟨hs, by simpa using hreset, Or.inl ⟨List.getLast?_concat, hkept⟩⟩
    exact (pending_ranked D x).somewhere hpending hprompt hlong

/-- The work up to a command is part of the work of the whole queue. -/
theorem masterWork_le {s : Station} {ahead behind : List CommNode} {x : CommNode}
    (hqueue : s.uartNodes = ahead ++ x :: behind) (D : Nat) :
    masterWork D (ahead ++ [x]) s ≤ masterWork D s.uartNodes s := by
  have hsum : (s.uartNodes.map (nodeWork D)).sum =
      ((ahead ++ [x]).map (nodeWork D)).sum + (behind.map (nodeWork D)).sum := by
    rw [hqueue, ← List.sum_append, ← List.map_append, List.append_assoc, List.singleton_append]
  unfold masterWork
  omega

/-- The same within the work of the whole queue. -/
theorem queued_command_served {s : Station} (hs : Reachable (fun _ _ => True) s)
    {ahead behind : List CommNode} {x : CommNode} (hqueue : s.uartNodes = ahead ++ x :: behind)
    {D : Nat} {is : List Input} (hprompt : CommPrompt D is)
    (hlong : masterWork D s.uartNodes s + byteDelays is + D < milliseconds is) :
    Somewhere step (Served x) s is := by
  have hle := masterWork_le hqueue D
  exact command_served hs hqueue hprompt (by omega)

/-- **Every command reaches the bus.**  In a run that calls the master at least once in `D`
milliseconds, every command that waits in the UART queue is sent as soon as more time has
passed than the master is busy with the commands in front of it and with itself, unless a stop
command empties the queue or the station is reset. -/
theorem waiting_commands_sent {s : Station} (hs : Reachable (fun _ _ => True) s) {D : Nat}
    {is : List Input} (hprompt : CommPrompt D is) :
    ∀ ahead x behind, s.uartNodes = ahead ++ x :: behind →
      masterWork D (ahead ++ [x]) s + byteDelays is + D < milliseconds is →
        Somewhere step (Served x) s is :=
  fun _ _ _ hqueue hlong => command_served hs hqueue hprompt hlong

/-! ### A run -/

/-- So many milliseconds without an answer, with the same pins and a call of the master in each. -/
def rounds (pins : Pins) (n : Nat) : List Input :=
  (List.replicate n [Input.timeUpdate pins, .modbusComm fun _ => 0]).flatten

theorem rounds_succ (pins : Pins) (n : Nat) :
    rounds pins (n + 1) = .timeUpdate pins :: .modbusComm (fun _ => 0) :: rounds pins n := by
  unfold rounds
  rw [List.replicate_succ, List.flatten_cons]
  rfl

theorem rounds_time (pins : Pins) (n : Nat) :
    milliseconds (rounds pins n) = n ∧ byteDelays (rounds pins n) = 0 ∧
      CommPrompt 1 (rounds pins n) := by
  induction n with
  | zero => exact ⟨rfl, rfl, trivial⟩
  | succ n ih =>
      rw [rounds_succ]
      exact ⟨congrArg (· + 1) ih.1, ih.2.1, Nat.one_pos, ih.2.2⟩

/-- Slave 2 with three belts, which has heard the start command. -/
def startedBelts : Station := run step (boot threeBeltFlash 2) [.canFrame (startFrame 2)]

theorem startedBelts_reachable : Reachable (fun _ _ => True) startedBelts :=
  reach_run ⟨_, _, rfl⟩ (Along.of_forall (fun _ _ => trivial) _ _)

theorem startedBelts_work : masterWork 1 startedBelts.uartNodes startedBelts = 813 := by
  decide +kernel

/-- The middle command waits for the one in front of it, and the run ends before the master is
through with the whole queue. -/
theorem waiting_commands_sent_startedBelts :
    startedBelts.uartNodes = [speedNode 3 2 3, speedNode 2 2 2, speedNode 1 2 1] ∧
      milliseconds (rounds noInput 600) < masterWork 1 startedBelts.uartNodes startedBelts ∧
      Somewhere step (Served (speedNode 2 2 2)) startedBelts (rounds noInput 600) := by
  have hqueue : startedBelts.uartNodes = [speedNode 3 2 3, speedNode 2 2 2, speedNode 1 2 1] ∧
      masterWork 1 ([speedNode 3 2 3] ++ [speedNode 2 2 2]) startedBelts = 543 := by
    decide +kernel
  obtain ⟨hnodes, hfront⟩ := hqueue
  obtain ⟨htime, hbytes, hprompt⟩ := rounds_time noInput 600
  refine ⟨hnodes, by rw [htime, startedBelts_work]; decide, ?_⟩
  exact waiting_commands_sent startedBelts_reachable hprompt [speedNode 3 2 3] (speedNode 2 2 2)
    [speedNode 1 2 1] hnodes (by omega)

end IotCtrl
