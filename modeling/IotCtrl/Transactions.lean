import IotCtrl.AutoStart
import IotCtrl.CommStatements

/-!
# Modbus transactions

A transaction begins when a command is taken from the UART queue and ends when it is
released.  In between lie attempts, spread over the tick, the receive interrupt and the
main loop.  An `Account` keeps books next to the station: the command as it was taken,
how often it was transmitted since, and how the last transaction with each inverter
ended.

* `TimerInv`, `Agrees` — what holds in every state of a run;
* `step_modbusTx` — a frame is built for the command in flight;
* `transactions_accounted` — one to `1 + comm_retry` transmissions, a release exactly at
  the first accepted answer or the last failed attempt, and bit 0 of the fault codes.
-/

namespace IotCtrl

open ByteMemory Transition ClosedFacts

/-! ## The books -/

/-- What `comm_recv_rw_comand` answers in a step that calls it. -/
def verdict (s : Station) : Input → Option Bool
  | .modbusComm _ =>
      if s.systemReset = false ∧ s.logic.commBusyFlag = true ∧
          s.modbus.uart1CommuState = .recvDataEnd then
        some (commRecvRwComand s.modbus.uart1RecvBuff s.modbus.uart1RecvCount s).1
      else none
  | _ => none

structure Account where
  /-- The command of the latest transaction, as it was in the queue. -/
  node : Option CommNode
  /-- How often it was transmitted. -/
  attempts : Nat
  /-- How many of these attempts have failed. -/
  failures : Nat
  /-- How the last transaction with an inverter ended. -/
  outcome : Nat → Option Bool

/-- No transaction yet. -/
def Account.empty : Account :=
  { node := none
    attempts := 0
    failures := 0
    outcome := fun _ => none }

/-- A transaction ends well at an accepted answer, and badly when all of its
`1 + comm_retry` attempts have failed. -/
def Account.completion (a : Account) (s : Station) (i : Input) : Option Bool :=
  match a.node, verdict s i with
  | some _, some true => some true
  | some n, some false =>
      if a.attempts = 1 + n.commRetry.toNat ∧ a.failures + 1 = a.attempts then some false else none
  | _, _ => none

/-- The outcomes after a step. -/
def Account.outcomeAfter (a : Account) (s : Station) (i : Input) : Nat → Option Bool :=
  match a.node, a.completion s i with
  | some n, some ended => Function.update a.outcome n.inverterNo.toNat (some ended)
  | _, _ => a.outcome

/-- The books after a step: a command that comes into flight is the oldest of the queue,
every frame on the RS-485 bus is an attempt, and it has failed when its answer is
rejected. -/
def Account.observe (a : Account) (s : Station) (i : Input) : Account :=
  if s.inFlight = none ∧ (step s i).inFlight ≠ none then
    { node := s.uartNodes.head?
      attempts := 0
      failures := 0
      outcome := a.outcomeAfter s i }
  else
    { node := a.node
      attempts := a.attempts + ((step s i).events .modbusTx - s.events .modbusTx)
      failures := a.failures + if verdict s i = some false then 1 else 0
      outcome := a.outcomeAfter s i }

/-- A station with its books. -/
abbrev Audited := Station × Account

def auditStep (p : Audited) (i : Input) : Audited := (step p.1 i, p.2.observe p.1 i)

def AuditStart (p : Audited) : Prop := Booted p.1 ∧ p.2 = Account.empty

/-! ## The timers -/

/-- A timer runs only in the state it belongs to, and an idle master does not listen. -/
structure TimerInv (s : Station) : Prop where
  window : s.modbus.uart1Tmr ≠ 0 → s.modbus.uart1CommuState = .recvData
  interval : s.logic.commNode.commInterval ≠ 0 → s.modbus.uart1CommuState = .sendReady
  idle : s.logic.commBusyFlag = false → s.modbus.uart1CommuState ≠ .recvData

/-- The parts the master works on are the same. -/
structure SameMaster (s t : Station) : Prop where
  node : t.logic.commNode = s.logic.commNode
  busy : t.logic.commBusyFlag = s.logic.commBusyFlag
  state : t.modbus.uart1CommuState = s.modbus.uart1CommuState
  tmr : t.modbus.uart1Tmr = s.modbus.uart1Tmr

namespace SameMaster

variable {s t u : Station}

theorem of_keeps {ps : List Part} (h : Keeps ps s t) [hnode : Evident (.node ∉ ps)]
    [hstate : Evident (.uartState ∉ ps)] : SameMaster s t := by
  obtain ⟨hn, hb⟩ := Prod.mk.inj (h.same .node hnode.out)
  obtain ⟨hs, ht⟩ := Prod.mk.inj (h.same .uartState hstate.out)
  exact ⟨hn, hb, hs, ht⟩

theorem inFlight (h : SameMaster s t) : t.inFlight = s.inFlight := by
  unfold Station.inFlight
  rw [h.node, h.busy]

theorem timerInv (h : SameMaster s t) (hs : TimerInv s) : TimerInv t := by
  constructor
  · rw [h.tmr, h.state]
    exact hs.window
  · rw [h.node, h.state]
    exact hs.interval
  · rw [h.busy, h.state]
    exact hs.idle

end SameMaster

theorem uartRecvTimeout_timerInv {s : Station} (h : TimerInv s) : TimerInv (uartRecvTimeout s) := by
  constructor
  · rw [uartRecvTimeout_tmr, uartRecvTimeout_state]
    intro htmr
    have hne : s.modbus.uart1Tmr ≠ 0 := by
      intro hzero
      exact htmr (if_pos hzero)
    have hone : s.modbus.uart1Tmr ≠ 1 := by
      intro hone
      rw [if_neg hne, hone] at htmr
      exact htmr (by decide)
    have hrecv := h.window hne
    have hiv : s.logic.commNode.commInterval ≠ 1 := by
      intro hiv
      have hready := h.interval (by rw [hiv]; decide)
      rw [hrecv] at hready
      cases hready
    rw [if_neg hiv, if_neg hone]
    exact hrecv
  · rw [uartRecvTimeout_interval, uartRecvTimeout_state]
    intro hiv
    have hne : s.logic.commNode.commInterval ≠ 0 := by
      intro hzero
      exact hiv (if_pos hzero)
    have hone : s.logic.commNode.commInterval ≠ 1 := by
      intro hone
      rw [if_neg hne, hone] at hiv
      exact hiv (by decide)
    have hready := h.interval hne
    have htmr : s.modbus.uart1Tmr ≠ 1 := by
      intro htmr
      have hrecv := h.window (by rw [htmr]; decide)
      rw [hready] at hrecv
      cases hrecv
    rw [if_neg hone, if_neg htmr]
    exact hready
  · rw [uartRecvTimeout_busy, uartRecvTimeout_state]
    intro hidle
    split_ifs
    · decide
    · decide
    · exact h.idle hidle

theorem usart1IrqHandler_timerInv (tmp : U8) {s : Station} (h : TimerInv s) :
    TimerInv (usart1IrqHandler tmp s) := by
  obtain ⟨hstate, hlogic, htmr⟩ := usart1IrqHandler_facts tmp s
  constructor
  · rw [htmr, hstate]
    intro hne
    split_ifs at hne with hrecv
    · exact hrecv
    · exact h.window hne
  · rw [hlogic, hstate]
    exact h.interval
  · rw [hlogic, hstate]
    exact h.idle

/-! ## Invariants -/

/-- The answer to the last attempt is still open. -/
def Listening (s : Station) : Prop :=
  s.modbus.uart1CommuState = .recvData ∨ s.modbus.uart1CommuState = .recvDataEnd

instance (s : Station) : Decidable (Listening s) := inferInstanceAs (Decidable (_ ∨ _))

/-- The command in flight is `n`, less its failed attempts. -/
structure Carries (a : Account) (s : Station) (n : CommNode) : Prop where
  node : a.node = some n
  same : { s.logic.commNode with commInterval := n.commInterval, commRetry := n.commRetry } = n
  retries : a.failures + s.logic.commNode.commRetry.toNat = n.commRetry.toNat
  attempts : a.attempts = a.failures + if Listening s then 1 else 0

/-- The books agree with the station. -/
structure Agrees (a : Account) (s : Station) : Prop where
  timers : TimerInv s
  busy : s.logic.commBusyFlag = true → ∃ n, Carries a s n
  idle : s.logic.commBusyFlag = false → ∀ n ∈ a.node,
    1 ≤ a.attempts ∧ a.attempts ≤ 1 + n.commRetry.toNat
  fault : ∀ no, 1 ≤ no → no ≤ 10 →
    (s.commFault (no - 1) = true ↔ a.outcome no = some false)

theorem Carries.of_node {a : Account} {s t : Station} {n : CommNode} (h : Carries a s n)
    (hnode : ∃ interval, t.logic.commNode = { s.logic.commNode with commInterval := interval })
    (hlisten : Listening t ↔ Listening s) : Carries a t n := by
  obtain ⟨interval, hnode⟩ := hnode
  refine ⟨h.node, ?_, ?_, ?_⟩
  · rw [hnode]
    exact h.same
  · rw [hnode]
    exact h.retries
  · rw [h.attempts]
    simp only [hlisten]

/-- The tick moves from waiting to sending and from receiving to judging. -/
theorem uartRecvTimeout_listening {s : Station} (h : TimerInv s) :
    Listening (uartRecvTimeout s) ↔ Listening s := by
  unfold Listening
  rw [uartRecvTimeout_state]
  split_ifs with hiv htmr
  · have hready := h.interval (by rw [hiv]; decide)
    simp [hready]
  · have hrecv := h.window (by rw [htmr]; decide)
    simp [hrecv]
  · exact Iff.rfl

namespace Agrees

variable {a : Account} {s t : Station}

/-- A routine beside the master. -/
theorem of_same (h : Agrees a s) (hm : SameMaster s t) (hfault : t.commFault = s.commFault) :
    Agrees a t := by
  refine ⟨hm.timerInv h.timers, ?_, ?_, ?_⟩
  · intro hbusy
    obtain ⟨n, hn⟩ := h.busy (hm.busy ▸ hbusy)
    refine ⟨n, hn.of_node ⟨s.logic.commNode.commInterval, hm.node⟩ ?_⟩
    unfold Listening
    rw [hm.state]
  · intro hidle
    exact h.idle (hm.busy ▸ hidle)
  · intro no hpos hle
    rw [hfault]
    exact h.fault no hpos hle

theorem of_keeps {ps : List Part} (h : Agrees a s) (hk : Keeps ps s t)
    [hnode : Evident (.node ∉ ps)] [hstate : Evident (.uartState ∉ ps)]
    [hfault : Evident (.commFault ∉ ps)] : Agrees a t :=
  h.of_same (SameMaster.of_keeps hk) (hk.same .commFault hfault.out)

theorem uartRecvTimeout (h : Agrees a s) : Agrees a (uartRecvTimeout s) := by
  obtain ⟨hbusy, hnode⟩ := uartRecvTimeout_node s
  have hfault : (IotCtrl.uartRecvTimeout s).commFault = s.commFault :=
    (uartRecvTimeout_keeps s).same .commFault (by decide)
  have hlisten := uartRecvTimeout_listening h.timers
  refine ⟨uartRecvTimeout_timerInv h.timers, ?_, ?_, ?_⟩
  · intro hb
    obtain ⟨n, hn⟩ := h.busy (hbusy ▸ hb)
    exact ⟨n, hn.of_node hnode hlisten⟩
  · intro hidle
    exact h.idle (hbusy ▸ hidle)
  · intro no hpos hle
    rw [hfault]
    exact h.fault no hpos hle

theorem timeUpdate (h : Agrees a s) (pins : Pins) : Agrees a (timeUpdate pins s) := by
  have hcount := h.of_keeps (timeCounters_keeps s)
  exact hcount.uartRecvTimeout.of_keeps (inputScanProc_touches pins _).keeps

theorem usart1IrqHandler (h : Agrees a s) (tmp : U8) : Agrees a (usart1IrqHandler tmp s) := by
  obtain ⟨hstate, hlogic, -⟩ := usart1IrqHandler_facts tmp s
  have hfault : (IotCtrl.usart1IrqHandler tmp s).commFault = s.commFault :=
    (usart1IrqHandler_keeps tmp s).same .commFault (by decide)
  refine ⟨usart1IrqHandler_timerInv tmp h.timers, ?_, ?_, ?_⟩
  · rw [hlogic]
    intro hb
    obtain ⟨n, hn⟩ := h.busy hb
    refine ⟨n, hn.of_node ⟨s.logic.commNode.commInterval, by rw [hlogic]⟩ ?_⟩
    unfold Listening
    rw [hstate]
  · rw [hlogic]
    exact h.idle
  · intro no hpos hle
    rw [hfault]
    exact h.fault no hpos hle

end Agrees

/-! ## The moves of the master -/

namespace Account

variable {a : Account} {s : Station} {i : Input}

theorem outcomeAfter_of_none (h : a.completion s i = none) : a.outcomeAfter s i = a.outcome := by
  unfold outcomeAfter
  rw [h]
  cases a.node <;> rfl

theorem completion_of_none (hv : verdict s i = none) : a.completion s i = none := by
  unfold completion
  rw [hv]
  cases a.node <;> rfl

theorem completion_of_accepted {n : CommNode} (hn : a.node = some n)
    (hv : verdict s i = some true) : a.completion s i = some true := by
  unfold completion
  rw [hn, hv]

theorem completion_of_rejected {n : CommNode} (hn : a.node = some n)
    (hv : verdict s i = some false) :
    a.completion s i =
      if a.attempts = 1 + n.commRetry.toNat ∧ a.failures + 1 = a.attempts then some false
      else none := by
  unfold completion
  rw [hn, hv]

theorem outcomeAfter_of_some {n : CommNode} (hn : a.node = some n) {ended : Bool}
    (h : a.completion s i = some ended) :
    a.outcomeAfter s i = Function.update a.outcome n.inverterNo.toNat (some ended) := by
  unfold outcomeAfter
  rw [h, hn]

theorem observe_of_same (hbusy : (step s i).logic.commBusyFlag = s.logic.commBusyFlag)
    (htx : (step s i).events .modbusTx = s.events .modbusTx) (hv : verdict s i = none) :
    a.observe s i = a := by
  have hnew : ¬ (s.inFlight = none ∧ (step s i).inFlight ≠ none) := by
    unfold Station.inFlight
    rw [hbusy]
    split_ifs <;> simp
  unfold observe
  rw [if_neg hnew, outcomeAfter_of_none (completion_of_none hv), htx, hv]
  simp

end Account

/-- A command in flight, as a flag and a node. -/
theorem inFlight_eq_some {s : Station} {x : CommNode} (h : s.inFlight = some x) :
    s.logic.commBusyFlag = true ∧ s.logic.commNode = x := by
  unfold Station.inFlight at h
  split_ifs at h with hbusy
  exact ⟨hbusy, Option.some.inj h⟩

theorem inFlight_of_busy {s : Station} (h : s.logic.commBusyFlag = true) :
    s.inFlight = some s.logic.commNode :=
  if_pos h

theorem inFlight_of_idle {s : Station} (h : s.logic.commBusyFlag = false) : s.inFlight = none := by
  unfold Station.inFlight
  rw [if_neg (by simp [h])]

theorem commTakeNode_tmr (s : Station) :
    (commTakeNode s).modbus.uart1Tmr = s.modbus.uart1Tmr := by
  unfold commTakeNode getUartSendDataFromQueue
  cases s.logic.uartSendQueue.takeSlot <;> rfl

/-- A command that is taken starts a new transaction. -/
theorem Agrees.take {a : Account} {s : Station} (h : Agrees a s)
    (hidle : s.logic.commBusyFlag = false) {x : CommNode}
    (hflight : (commTakeNode s).inFlight = some (fixInterval x))
    (hready : (commTakeNode s).modbus.uart1CommuState = .sendReady) :
    Agrees { node := some x, attempts := 0, failures := 0, outcome := a.outcome }
      (commTakeNode s) := by
  obtain ⟨hbusy, hnode⟩ := inFlight_eq_some hflight
  have hfault : (commTakeNode s).commFault = s.commFault :=
    (commTakeNode_keeps s).same .commFault (by decide)
  obtain ⟨interval, hfix⟩ := fixInterval_eq x
  rw [hfix] at hnode
  refine ⟨⟨?_, fun _ => hready, ?_⟩, ?_, ?_, ?_⟩
  · rw [commTakeNode_tmr]
    intro htmr
    exact absurd (h.timers.window htmr) (h.timers.idle hidle)
  · intro hnot
    rw [hbusy] at hnot
    cases hnot
  · intro _
    refine ⟨x, rfl, ?_, ?_, ?_⟩
    · rw [hnode]
    · rw [hnode]
      exact Nat.zero_add _
    · simp [Listening, hready]
  · intro hnot
    rw [hbusy] at hnot
    cases hnot
  · intro no hpos hle
    rw [hfault]
    exact h.fault no hpos hle

/-! ### Sending -/

theorem commSendRwComand_window {stack : Table 4 U16} {s t : Station} {frame : List U8}
    (h : commBuildFrame stack s = some (frame, t)) :
    (commSendRwComand stack s).modbus.uart1CommuState = .recvData := by
  have hkeeps := commSetSpeedSta_keeps (commBelt s) (speedWriteData stack s) (uart1Send frame t)
  simp only [commSendRwComand, h]
  exact (Prod.mk.inj (hkeeps.same .uartState (by decide))).1

/-- Every command of a known kind is transmitted. -/
theorem commBuildFrame_isSome {stack : Table 4 U16} {s : Station}
    (h : s.logic.commNode.rwFlag.toNat ≤ 2) : (commBuildFrame stack s).isSome := by
  unfold commBuildFrame
  dsimp only
  split_ifs with h0 h1 h2
  · rfl
  · rfl
  · rfl
  · exfalso
    bv_omega

/-- A transmission is an attempt. -/
theorem Agrees.send {a : Account} {s : Station} (h : Agrees a s)
    (hbusy : s.logic.commBusyFlag = true) (hsend : s.modbus.uart1CommuState = .sendData)
    {stack : Table 4 U16} {t : Station} {frame : List U8}
    (hbuild : commBuildFrame stack s = some (frame, t)) :
    Agrees { a with attempts := a.attempts + 1 } (commSendRwComand stack s) := by
  have hk := commSendRwComand_keeps stack s
  obtain ⟨hnode, hb⟩ := Prod.mk.inj (hk.same .node (by decide))
  have hrecv := commSendRwComand_window hbuild
  have hfault : (commSendRwComand stack s).commFault = s.commFault :=
    hk.same .commFault (by decide)
  refine ⟨⟨fun _ => hrecv, ?_, ?_⟩, ?_, ?_, ?_⟩
  · rw [hnode]
    intro hiv
    have hready := h.timers.interval hiv
    rw [hsend] at hready
    cases hready
  · rw [hb, hbusy]
    intro hnot
    cases hnot
  · intro _
    obtain ⟨n, hn⟩ := h.busy hbusy
    refine ⟨n, hn.node, ?_, ?_, ?_⟩
    · rw [hnode]
      exact hn.same
    · rw [hnode]
      exact hn.retries
    · have hquiet : ¬ Listening s := by simp [Listening, hsend]
      have hopen : Listening (commSendRwComand stack s) := Or.inl hrecv
      have hattempts := hn.attempts
      rw [if_neg hquiet] at hattempts
      rw [if_pos hopen]
      show a.attempts + 1 = a.failures + 1
      omega
  · rw [hb, hbusy]
    intro hnot
    cases hnot
  · intro no hpos hle
    rw [hfault]
    exact h.fault no hpos hle

/-! ### Judging an answer -/

/-- A rejected answer leaves the station as it is. -/
theorem commRecvRwComand_rejected {buf : Mem} {len : Nat} {s : Station}
    (h : (commRecvRwComand buf len s).1 = false) : (commRecvRwComand buf len s).2 = s := by
  unfold commRecvRwComand at h ⊢
  split_ifs at h ⊢
  all_goals rfl

theorem clearCommFault_self {s : Station} (h : s.logic.commNode.inverterNo.toNat - 1 < 10) :
    (clearCommFault s).commFault (s.logic.commNode.inverterNo.toNat - 1) = false := by
  unfold Station.commFault clearCommFault
  dsimp only
  rw [inverter_setInverter, if_pos ⟨rfl, h⟩]
  simp

theorem setCommFault_self {s : Station} (h : s.logic.commNode.inverterNo.toNat - 1 < 10) :
    (setCommFault s).commFault (s.logic.commNode.inverterNo.toNat - 1) = true := by
  unfold Station.commFault setCommFault
  dsimp only
  rw [inverter_setInverter, if_pos ⟨rfl, h⟩]
  simp

/-- A transaction that ends is the last one with its inverter, and the fault bit says how
it ended. -/
theorem Agrees.release {a : Account} {s t : Station} {n : CommNode} (h : Agrees a s)
    (hn : Carries a s n) (hno : 1 ≤ n.inverterNo.toNat)
    (hend : s.modbus.uart1CommuState = .recvDataEnd) (hm : SameMaster s (setCommBusy true t))
    (hidle : t.logic.commBusyFlag = false) (failures : Nat) {ended : Bool}
    (hself : t.commFault (n.inverterNo.toNat - 1) = !ended)
    (hothers : ∀ k, k ≠ n.inverterNo.toNat - 1 → t.commFault k = s.commFault k) :
    Agrees
      { a with
        failures := failures
        outcome := Function.update a.outcome n.inverterNo.toNat (some ended) } t := by
  have hstate : t.modbus.uart1CommuState = .recvDataEnd := hm.state.trans hend
  have htmr : t.modbus.uart1Tmr = s.modbus.uart1Tmr := hm.tmr
  have hnode : t.logic.commNode = s.logic.commNode := hm.node
  refine ⟨⟨?_, ?_, ?_⟩, ?_, ?_, ?_⟩
  · rw [htmr, hstate, ← hend]
    exact h.timers.window
  · rw [hnode, hstate, ← hend]
    exact h.timers.interval
  · rw [hstate]
    intro _ hnot
    cases hnot
  · rw [hidle]
    intro hnot
    cases hnot
  · intro _ m hm'
    obtain rfl : n = m := Option.some.inj (hn.node.symm.trans hm')
    have hattempts := hn.attempts
    have hretries := hn.retries
    have hopen : Listening s := Or.inr hend
    rw [if_pos hopen] at hattempts
    show 1 ≤ a.attempts ∧ a.attempts ≤ 1 + n.commRetry.toNat
    omega
  · intro no hpos hle
    by_cases heq : no = n.inverterNo.toNat
    · subst heq
      show _ ↔ Function.update a.outcome _ _ _ = _
      rw [Function.update_self, hself]
      cases ended <;> simp
    · show _ ↔ Function.update a.outcome _ _ _ = _
      rw [Function.update_of_ne heq, hothers _ (by omega)]
      exact h.fault no hpos hle

section Judge

variable {a : Account} {s : Station} {n : CommNode}

/-- The master's answer to the frame it received. -/
abbrev accepts (s : Station) : Bool :=
  (commRecvRwComand s.modbus.uart1RecvBuff s.modbus.uart1RecvCount s).1

theorem Carries.inverterNo (hn : Carries a s n) : s.logic.commNode.inverterNo = n.inverterNo := by
  have hsame := congrArg CommNode.inverterNo hn.same
  exact hsame

theorem commJudge_commFault (hbusy : s.logic.commBusyFlag = true) {k : Nat}
    (hk : k ≠ s.logic.commNode.inverterNo.toNat - 1) :
    (commJudge s).commFault k = s.commFault k := by
  unfold Station.commFault
  rw [commJudge_inverter hbusy hk]

theorem Agrees.accepted (h : Agrees a s) (hn : Carries a s n)
    (hno : 1 ≤ n.inverterNo.toNat ∧ n.inverterNo.toNat ≤ 10) (hbusy : s.logic.commBusyFlag = true)
    (hend : s.modbus.uart1CommuState = .recvDataEnd) (haccepts : accepts s = true) :
    Agrees { a with outcome := Function.update a.outcome n.inverterNo.toNat (some true) }
      (commJudge s) ∧ (commJudge s).logic.commBusyFlag = false := by
  have hrecv := (commRecvRwComand_quiet s.modbus.uart1RecvBuff s.modbus.uart1RecvCount hbusy).keeps
  have hjudge : commJudge s = setRecvCount 0 (setCommBusy false (clearCommFault
      (commRecvRwComand s.modbus.uart1RecvBuff s.modbus.uart1RecvCount s).2)) := by
    show setRecvCount 0 (commFinish (accepts s) _) = _
    rw [haccepts]
    rfl
  obtain ⟨hnode, hb⟩ := Prod.mk.inj (hrecv.same .node (by decide))
  obtain ⟨hstate, htmr⟩ := Prod.mk.inj (hrecv.same .uartState (by decide))
  have hself : (commJudge s).commFault (n.inverterNo.toNat - 1) = !true := by
    rw [hjudge, ← hn.inverterNo, ← hnode]
    refine clearCommFault_self ?_
    rw [hnode, hn.inverterNo]
    omega
  have hothers : ∀ k, k ≠ n.inverterNo.toNat - 1 → (commJudge s).commFault k = s.commFault k := by
    intro k hk
    rw [← hn.inverterNo] at hk
    exact commJudge_commFault hbusy hk
  have hidle : (commJudge s).logic.commBusyFlag = false := by
    rw [hjudge]
    rfl
  refine ⟨h.release hn hno.1 hend ?_ hidle a.failures hself hothers, hidle⟩
  rw [hjudge]
  exact ⟨hnode, hbusy.symm, hstate, htmr⟩

theorem commJudge_rejected (haccepts : accepts s = false) :
    commJudge s = setRecvCount 0 (commFinish false s) := by
  show setRecvCount 0 (commFinish (accepts s) _) = _
  rw [commRecvRwComand_rejected haccepts, haccepts]

theorem Agrees.failed (h : Agrees a s) (hn : Carries a s n)
    (hno : 1 ≤ n.inverterNo.toNat ∧ n.inverterNo.toNat ≤ 10) (hbusy : s.logic.commBusyFlag = true)
    (hend : s.modbus.uart1CommuState = .recvDataEnd) (haccepts : accepts s = false)
    (hleft : ¬ s.logic.commNode.commRetry > 0) :
    Agrees
      { a with
        failures := a.failures + 1
        outcome := Function.update a.outcome n.inverterNo.toNat (some false) }
      (commJudge s) ∧ (commJudge s).logic.commBusyFlag = false := by
  have hjudge : commJudge s = setRecvCount 0 (setCommBusy false (setCommFault s)) := by
    rw [commJudge_rejected haccepts]
    unfold commFinish
    rw [if_neg Bool.false_ne_true, if_neg hleft]
  have hself : (commJudge s).commFault (n.inverterNo.toNat - 1) = !false := by
    rw [hjudge, ← hn.inverterNo]
    refine setCommFault_self ?_
    rw [hn.inverterNo]
    omega
  have hothers : ∀ k, k ≠ n.inverterNo.toNat - 1 → (commJudge s).commFault k = s.commFault k := by
    intro k hk
    rw [← hn.inverterNo] at hk
    exact commJudge_commFault hbusy hk
  have hidle : (commJudge s).logic.commBusyFlag = false := by
    rw [hjudge]
    rfl
  refine ⟨h.release hn hno.1 hend ?_ hidle (a.failures + 1) hself hothers, hidle⟩
  rw [hjudge]
  exact ⟨rfl, hbusy.symm, rfl, rfl⟩

theorem Agrees.retry (h : Agrees a s) (hn : Carries a s n) (hbusy : s.logic.commBusyFlag = true)
    (hend : s.modbus.uart1CommuState = .recvDataEnd) (haccepts : accepts s = false)
    (hleft : s.logic.commNode.commRetry > 0) :
    Agrees { a with failures := a.failures + 1 } (commJudge s) ∧
      (commJudge s).logic.commBusyFlag = true := by
  have hjudge : commJudge s = setRecvCount 0
      (setCommuState .sendReady (setCommNode (retryNode s.logic.commNode) s)) := by
    rw [commJudge_rejected haccepts]
    unfold commFinish
    rw [if_neg Bool.false_ne_true, if_pos hleft]
    rfl
  have hstill : (commJudge s).logic.commBusyFlag = true := by
    rw [hjudge]
    exact hbusy
  have hfault : (commJudge s).commFault = s.commFault := by
    rw [hjudge]
    rfl
  refine ⟨⟨⟨?_, ?_, ?_⟩, ?_, ?_, ?_⟩, hstill⟩
  · rw [hjudge]
    intro htmr
    have hrecv := h.timers.window htmr
    rw [hend] at hrecv
    cases hrecv
  · rw [hjudge]
    exact fun _ => rfl
  · rw [hstill]
    intro hnot
    cases hnot
  · intro _
    have hretries := hn.retries
    have hattempts := hn.attempts
    have hopen : Listening s := Or.inr hend
    rw [if_pos hopen] at hattempts
    refine ⟨n, hn.node, ?_, ?_, ?_⟩
    · rw [hjudge]
      exact hn.same
    · rw [hjudge]
      show a.failures + 1 + (s.logic.commNode.commRetry - 1).toNat = n.commRetry.toNat
      bv_omega
    · have hquiet : ¬ Listening (commJudge s) := by
        rw [hjudge]
        rintro (hnot | hnot) <;> cases hnot
      rw [if_neg hquiet]
      exact hattempts
  · rw [hstill]
    intro hnot
    cases hnot
  · intro no hpos hle
    rw [hfault]
    exact h.fault no hpos hle

end Judge

/-! ## Runs -/

/-- What a step does to the books, and when it releases the command in flight. -/
def Accounted (a : Account) (s : Station) (i : Input) : Prop :=
  Agrees (a.observe s i) (step s i) ∧
    (s.logic.commBusyFlag = true →
      ((step s i).logic.commBusyFlag = false ↔ (a.completion s i).isSome))

section Step

variable {a : Account} {s : Station} {i : Input}

/-- A step that neither transmits nor judges. -/
theorem Accounted.of_same (h : Agrees a (step s i))
    (hsame : (step s i).logic.commBusyFlag = s.logic.commBusyFlag)
    (htx : (step s i).events .modbusTx = s.events .modbusTx) (hv : verdict s i = none) :
    Accounted a s i := by
  refine ⟨?_, fun hbusy => ?_⟩
  · rw [Account.observe_of_same hsame htx hv]
    exact h
  · rw [Account.completion_of_none hv, hsame, hbusy]
    simp

/-- The books while a command is in flight. -/
theorem Account.observe_of_busy (hbusy : s.logic.commBusyFlag = true) :
    a.observe s i =
      { node := a.node
        attempts := a.attempts + ((step s i).events .modbusTx - s.events .modbusTx)
        failures := a.failures + if verdict s i = some false then 1 else 0
        outcome := a.outcomeAfter s i } := by
  refine if_neg fun h => ?_
  rw [inFlight_of_busy hbusy] at h
  cases h.1

theorem Accounted.idle (stack : Table 4 U16) (h : Agrees a s) (hrun : s.systemReset = false)
    (hidle : s.logic.commBusyFlag = false) : Accounted a s (.modbusComm stack) := by
  have hstep : step s (.modbusComm stack) = commTakeNode s :=
    (if_neg (by simp [hrun])).trans (if_pos hidle)
  have hv : verdict s (.modbusComm stack) = none := by simp [verdict, hidle]
  rcases commTakeNode_cases s with ⟨-, hsame⟩ | ⟨x, hcontents, hflight, hready⟩
  · rw [hsame] at hstep
    exact Accounted.of_same (hstep.symm ▸ h) (by rw [hstep]) (by rw [hstep]) hv
  · have hobserve : a.observe s (.modbusComm stack) =
        { node := some x, attempts := 0, failures := 0, outcome := a.outcome } := by
      have hnew : s.inFlight = none ∧ (step s (.modbusComm stack)).inFlight ≠ none := by
        rw [hstep, hflight]
        exact ⟨inFlight_of_idle hidle, Option.some_ne_none _⟩
      unfold Account.observe
      rw [if_pos hnew, Account.outcomeAfter_of_none (Account.completion_of_none hv), hcontents]
      rfl
    refine ⟨?_, fun hbusy => ?_⟩
    · rw [hobserve, hstep]
      exact h.take hidle hflight hready
    · rw [hidle] at hbusy
      cases hbusy

theorem Accounted.sending (stack : Table 4 U16) (h : Agrees a s) (hrange : RangeInv s)
    (hrun : s.systemReset = false) (hbusy : s.logic.commBusyFlag = true)
    (hsend : s.modbus.uart1CommuState = .sendData) : Accounted a s (.modbusComm stack) := by
  have hstep : step s (.modbusComm stack) = commSendRwComand stack s :=
    (if_neg (by simp [hrun])).trans ((if_neg (by simp [hbusy])).trans (if_pos hsend))
  have hv : verdict s (.modbusComm stack) = none := by simp [verdict, hsend]
  have hknown : (commBuildFrame stack s).isSome :=
    commBuildFrame_isSome (hrange.flight _ (inFlight_of_busy hbusy)).rwFlag
  obtain ⟨⟨frame, t⟩, hbuild⟩ := Option.isSome_iff_exists.mp hknown
  have htx : (commSendRwComand stack s).events .modbusTx = s.events .modbusTx + 1 := by
    unfold Station.events
    rw [commSendRwComand_trace hbuild, List.countP_cons]
    simp [Event.kind]
  have hstill : (commSendRwComand stack s).logic.commBusyFlag = true := by
    have hnode := (commSendRwComand_keeps stack s).same .node (by decide)
    exact (Prod.mk.inj hnode).2.trans hbusy
  refine ⟨?_, fun _ => ?_⟩
  · rw [Account.observe_of_busy hbusy,
      Account.outcomeAfter_of_none (Account.completion_of_none hv), hv, hstep, htx,
      Nat.add_sub_cancel_left]
    exact h.send hbusy hsend hbuild
  · rw [hstep, hstill, Account.completion_of_none hv]
    simp

theorem Accounted.judging (stack : Table 4 U16) (h : Agrees a s) (hrange : RangeInv s)
    (hrun : s.systemReset = false) (hbusy : s.logic.commBusyFlag = true)
    (hend : s.modbus.uart1CommuState = .recvDataEnd) : Accounted a s (.modbusComm stack) := by
  have hnot : s.modbus.uart1CommuState ≠ .sendData := by simp [hend]
  have hstep : step s (.modbusComm stack) = commJudge s :=
    (if_neg (by simp [hrun])).trans
      ((if_neg (by simp [hbusy])).trans ((if_neg hnot).trans (if_pos hend)))
  have hv : verdict s (.modbusComm stack) = some (accepts s) := if_pos ⟨hrun, hbusy, hend⟩
  have htx : (commJudge s).events .modbusTx = s.events .modbusTx :=
    (commJudge_keeps hbusy).events _
  obtain ⟨n, hn⟩ := h.busy hbusy
  have hno : 1 ≤ n.inverterNo.toNat ∧ n.inverterNo.toNat ≤ 10 := by
    rw [← hn.inverterNo]
    exact (hrange.flight _ (inFlight_of_busy hbusy)).inverterNo
  have hattempts := hn.attempts
  have hretries := hn.retries
  have hopen : Listening s := Or.inr hend
  rw [if_pos hopen] at hattempts
  unfold Accounted
  rw [Account.observe_of_busy hbusy, hstep, htx, Nat.sub_self, Nat.add_zero]
  -- accepted; rejected with a retry left; rejected for the last time
  cases haccepts : accepts s with
  | true =>
      rw [haccepts] at hv
      have hcompletion := Account.completion_of_accepted hn.node hv
      obtain ⟨hagrees, hidle⟩ := h.accepted hn hno hbusy hend haccepts
      rw [Account.outcomeAfter_of_some hn.node hcompletion, hcompletion, hv]
      exact ⟨hagrees, fun _ => iff_of_true hidle rfl⟩
  | false =>
      rw [haccepts] at hv
      have hcompletion := Account.completion_of_rejected hn.node hv
      by_cases hleft : s.logic.commNode.commRetry > 0
      · have hmore : ¬ (a.attempts = 1 + n.commRetry.toNat ∧ a.failures + 1 = a.attempts) := by
          intro hall
          bv_omega
        rw [if_neg hmore] at hcompletion
        obtain ⟨hagrees, hstill⟩ := h.retry hn hbusy hend haccepts hleft
        rw [Account.outcomeAfter_of_none hcompletion, hcompletion, hv, hstill]
        exact ⟨hagrees, fun _ => by simp⟩
      · have hall : a.attempts = 1 + n.commRetry.toNat ∧ a.failures + 1 = a.attempts := by
          bv_omega
        rw [if_pos hall] at hcompletion
        obtain ⟨hagrees, hidle⟩ := h.failed hn hno hbusy hend haccepts hleft
        rw [Account.outcomeAfter_of_some hn.node hcompletion, hcompletion, hv]
        exact ⟨hagrees, fun _ => iff_of_true hidle rfl⟩

theorem Accounted.modbusComm (stack : Table 4 U16) (h : Agrees a s) (hrange : RangeInv s) :
    Accounted a s (.modbusComm stack) := by
  by_cases hreset : s.systemReset = true
  · have hstep : step s (.modbusComm stack) = s := if_pos hreset
    refine Accounted.of_same (hstep.symm ▸ h) (by rw [hstep]) (by rw [hstep]) ?_
    simp [verdict, hreset]
  have hrun : s.systemReset = false := by simpa using hreset
  by_cases hidle : s.logic.commBusyFlag = false
  · exact Accounted.idle stack h hrun hidle
  have hbusy : s.logic.commBusyFlag = true := by simpa using hidle
  by_cases hsend : s.modbus.uart1CommuState = .sendData
  · exact Accounted.sending stack h hrange hrun hbusy hsend
  by_cases hend : s.modbus.uart1CommuState = .recvDataEnd
  · exact Accounted.judging stack h hrange hrun hbusy hend
  · have hstep : step s (.modbusComm stack) = s :=
      (if_neg hreset).trans ((if_neg hidle).trans ((if_neg hsend).trans (if_neg hend)))
    refine Accounted.of_same (hstep.symm ▸ h) (by rw [hstep]) (by rw [hstep]) ?_
    simp [verdict, hend]

/-- An input beside the master and its timers. -/
theorem Accounted.beside (h : Agrees a s) [hnode : Evident (.node ∉ i.parts)]
    [Evident (.uartState ∉ i.parts)] [Evident (.commFault ∉ i.parts)]
    [Evident (.modbusTx ∉ i.kinds)] (hv : verdict s i = none) : Accounted a s i := by
  have hframe := step_touches s i
  exact Accounted.of_same (h.of_keeps hframe.keeps)
    (Prod.mk.inj (hframe.keeps.same .node hnode.out)).2 hframe.events hv

theorem Accounted.timeUpdate (pins : Pins) (h : Agrees a s) : Accounted a s (.timeUpdate pins) := by
  have hbusy : (IotCtrl.timeUpdate pins s).logic.commBusyFlag = s.logic.commBusyFlag := by
    have hcount := SameMaster.of_keeps (timeCounters_keeps s)
    have hscan := SameMaster.of_keeps
      (inputScanProc_touches pins (uartRecvTimeout (timeCounters s))).keeps
    have hscanned : IotCtrl.timeUpdate pins s =
        inputScanProc pins (uartRecvTimeout (timeCounters s)) := rfl
    rw [hscanned, hscan.busy, uartRecvTimeout_busy, hcount.busy]
  have hframe := step_touches s (.timeUpdate pins)
  have htx := hframe.events (k := .modbusTx)
  have hstep : step s (.timeUpdate pins) = s ∨
      step s (.timeUpdate pins) = IotCtrl.timeUpdate pins s := by
    unfold step
    split_ifs
    · exact Or.inl rfl
    · exact Or.inr rfl
  rcases hstep with hstep | hstep
  · exact Accounted.of_same (hstep.symm ▸ h) (by rw [hstep]) htx rfl
  · exact Accounted.of_same (hstep.symm ▸ h.timeUpdate pins) (by rw [hstep, hbusy]) htx rfl

theorem Accounted.usart1Irq (tmp : U8) (h : Agrees a s) : Accounted a s (.usart1Irq tmp) := by
  have hframe := step_touches s (.usart1Irq tmp)
  have hnode := hframe.keeps.same .node (by simp [Input.parts])
  have htx := hframe.events (k := .modbusTx)
  refine Accounted.of_same ?_ (Prod.mk.inj hnode).2 htx rfl
  unfold step
  split_ifs
  · exact h
  · exact h.usart1IrqHandler tmp

theorem step_accounted (i : Input) (h : Agrees a s) (hrange : RangeInv s) : Accounted a s i := by
  cases i with
  | timeUpdate pins => exact Accounted.timeUpdate pins h
  | usart1Irq tmp => exact Accounted.usart1Irq tmp h
  | modbusComm stack => exact Accounted.modbusComm stack h hrange
  | canFrame _ | udpReceive _ _ | udpClient _ | sendMessage | secProcess _ | canSend _
  | resetStart | upstreamIo | uploadRunState | msoneProcess _ =>
      exact Accounted.beside h rfl

end Step

theorem auditStart_agrees {p : Audited} (h : AuditStart p) : Agrees p.2 p.1 ∧ RangeInv p.1 := by
  obtain ⟨s, a⟩ := p
  obtain ⟨⟨flash, localStation, rfl⟩, rfl⟩ := h
  have hk := boot_keeps flash localStation
  have hrange := boot_rangeInv flash localStation
  generalize boot flash localStation = s at hk hrange
  obtain ⟨hnode, hidle⟩ := Prod.mk.inj (hk.same .node (by decide))
  obtain ⟨hstate, htmr⟩ := Prod.mk.inj (hk.same .uartState (by decide))
  have hfault : s.commFault = (Station.cleared flash localStation).commFault :=
    hk.same .commFault (by decide)
  refine ⟨⟨⟨?_, ?_, ?_⟩, ?_, ?_, ?_⟩, hrange⟩
  · intro hne
    exact absurd htmr hne
  · exact fun _ => hstate
  · intro _ hnot
    rw [hstate] at hnot
    cases hnot
  · intro hbusy
    rw [hidle] at hbusy
    cases hbusy
  · intro _ n hn
    cases hn
  · intro no _ _
    rw [hfault]
    have hclear : (Station.cleared flash localStation).commFault (no - 1) = false := by
      unfold Station.commFault Station.inverter Table.get
      split_ifs
      · show (default : InverterStatus).faultCode.getLsbD 0 = false
        decide
      · decide
    simp [hclear, Account.empty]

theorem audited_agrees {p : Audited} (h : Reach AuditStart auditStep (fun _ _ => True) p) :
    Agrees p.2 p.1 ∧ RangeInv p.1 := by
  refine h.invariant (fun p => auditStart_agrees) fun p i hp _ => ⟨?_, ?_⟩
  · exact (step_accounted i hp.1 hp.2).1
  · exact Moves.invariant (fun _ _ hm => hm.rangeInv) (step_moves p.1 i) hp.2

/-! ### What is transmitted -/

/-- A frame goes out in a call of the master that builds it for the command in flight. -/
theorem step_modbusTx {s : Station} {i : Input} {frame : List U8}
    (h : .modbusTx frame ∈ newEvents s (step s i)) :
    ∃ stack, i = .modbusComm stack ∧ s.logic.commBusyFlag = true ∧
      (commBuildFrame stack s).map Prod.fst = some frame := by
  have hquiet : (step s i).trace ≠ s.trace := by
    intro hsame
    rw [newEvents_of_same hsame] at h
    cases h
  cases i with
  | modbusComm stack =>
      have hreset : s.systemReset ≠ true := fun hr => hquiet (congrArg Station.trace (if_pos hr))
      have hstep : step s (.modbusComm stack) = modbusRtuCommProcess stack s := if_neg hreset
      rw [hstep] at h hquiet
      unfold modbusRtuCommProcess at h hquiet
      split_ifs at h hquiet with hidle
      · exact absurd (commTakeNode_keeps s).trace hquiet
      · refine ⟨stack, rfl, by simpa using hidle, ?_⟩
        cases hbuild : commBuildFrame stack s with
        | none => exact absurd (congrArg Station.trace (commSendRwComand_of_none hbuild)) hquiet
        | some p =>
            rw [newEvents_of_cons (commSendRwComand_trace hbuild)] at h
            rw [Event.modbusTx.inj (List.mem_singleton.mp h)]
            rfl
      · exact absurd (commJudge_keeps (by simpa using hidle)).trace hquiet
      · exact absurd rfl hquiet
  | _ =>
      have hkind : EventKind.modbusTx ∈ Input.kinds _ := (step_touches s _).kind_mem h
      simp [Input.kinds] at hkind

/-- The interval and the retries of a command are not part of its frame. -/
theorem Carries.frame {a : Account} {s : Station} {n : CommNode} (h : Carries a s n)
    (stack : Table 4 U16) :
    (commBuildFrame stack (setCommNode n s)).map Prod.fst =
      (commBuildFrame stack s).map Prod.fst := by
  rw [← h.same]
  unfold commBuildFrame
  dsimp only [setCommNode]
  split_ifs <;> rfl

/-- **Modbus transactions**, in every reachable state: the command of the books is the one
in flight; every frame put on the bus is built for it; it is transmitted at most
`1 + comm_retry` times, and at least once when it is released; a step releases it exactly
when it completes the transaction; and the fault bit of an inverter is set exactly when its
last transaction failed. -/
theorem transactions_accounted {p : Audited}
    (h : Reach AuditStart auditStep (fun _ _ => True) p) :
    (∀ x ∈ p.1.inFlight, ∃ n ∈ p.2.node,
        { x with commInterval := n.commInterval, commRetry := n.commRetry } = n) ∧
      (∀ i frame, .modbusTx frame ∈ newEvents p.1 (step p.1 i) →
        ∃ stack, i = .modbusComm stack ∧ ∃ n ∈ p.2.node,
          (commBuildFrame stack (setCommNode n p.1)).map Prod.fst = some frame) ∧
      (∀ n ∈ p.2.node, p.2.attempts ≤ 1 + n.commRetry.toNat ∧
        (p.1.inFlight = none → 1 ≤ p.2.attempts)) ∧
      (∀ i, p.1.inFlight ≠ none →
        ((step p.1 i).inFlight = none ↔ (p.2.completion p.1 i).isSome)) ∧
      ∀ no, 1 ≤ no → no ≤ 10 →
        (p.1.commFault (no - 1) = true ↔ p.2.outcome no = some false) := by
  obtain ⟨hagrees, hrange⟩ := audited_agrees h
  have hflag : ∀ s : Station, s.inFlight = none ↔ s.logic.commBusyFlag = false := by
    intro s
    unfold Station.inFlight
    split_ifs with hb <;> simp [hb]
  refine ⟨?_, ?_, ?_, ?_, hagrees.fault⟩
  · intro x hx
    obtain ⟨hbusy, rfl⟩ := inFlight_eq_some hx
    obtain ⟨n, hn⟩ := hagrees.busy hbusy
    exact ⟨n, hn.node, hn.same⟩
  · intro i frame hsent
    obtain ⟨stack, rfl, hbusy, hframe⟩ := step_modbusTx hsent
    obtain ⟨n, hn⟩ := hagrees.busy hbusy
    exact ⟨stack, rfl, n, hn.node, (hn.frame stack).trans hframe⟩
  · intro n hn
    by_cases hidle : p.1.logic.commBusyFlag = false
    · obtain ⟨hleast, hmost⟩ := hagrees.idle hidle n hn
      exact ⟨hmost, fun _ => hleast⟩
    · obtain ⟨m, hm⟩ := hagrees.busy (by simpa using hidle)
      obtain rfl : m = n := Option.some.inj (hm.node.symm.trans hn)
      have hretries := hm.retries
      refine ⟨?_, fun hnone => absurd ((hflag _).mp hnone) hidle⟩
      rw [hm.attempts]
      split_ifs <;> omega
  · intro i hflight
    have hbusy : p.1.logic.commBusyFlag = true := by
      rw [Ne, hflag] at hflight
      simpa using hflight
    rw [hflag]
    exact (step_accounted i hagrees hrange).2 hbusy

/-! ## A transaction -/

/-- Slave 2 with one belt is started; the inverter misses the first frame and answers the
second. -/
def secondAnswer : List Input :=
  [.canFrame (startFrame 2), .modbusComm fun _ => 0] ++ idleTicks 1 ++ [.modbusComm fun _ => 0] ++
    idleTicks 50 ++ [.modbusComm fun _ => 0] ++ idleTicks 20 ++ [.modbusComm fun _ => 0] ++
    (withCrc [1, 0x10]).map Input.usart1Irq ++ idleTicks 5 ++ [.modbusComm fun _ => 0]

/-- The books behind it. -/
def afterSecondAnswer : Audited :=
  run auditStep (boot oneBeltFlash 2, Account.empty) secondAnswer

/-- It took two of the four attempts, and there is no fault. -/
theorem second_attempt_accepted :
    afterSecondAnswer.2.attempts = 2 ∧ afterSecondAnswer.2.outcome 1 = some true ∧
      afterSecondAnswer.1.commFault 0 = false := by
  have hreach : Reach AuditStart auditStep (fun _ _ => True) afterSecondAnswer :=
    reach_run ⟨⟨_, _, rfl⟩, rfl⟩ (Along.of_forall (fun _ _ => trivial) _ _)
  have hbooks : afterSecondAnswer.2.attempts = 2 ∧ afterSecondAnswer.2.outcome 1 = some true := by
    decide +kernel
  obtain ⟨-, -, -, -, hfault⟩ := transactions_accounted hreach
  refine ⟨hbooks.1, hbooks.2, ?_⟩
  have hiff := hfault 1 (by decide) (by decide)
  rw [hbooks.2] at hiff
  simpa using hiff

end IotCtrl
