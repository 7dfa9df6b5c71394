import IotCtrl.Control

/-!
# The four rings as queues

The station has four rings, for inverter commands, module states, CAN frames and
message types.  The source writes the three operations on each of them out, with the
capacity read from the ring's own `maxSize`.  They are given here for any capacity;
the station's routines are these at its own capacities.

* `RingCode.RefinesFifo` — a run of ring operations reports and holds what a list of
  at most `maxSize - 1` elements does;
* `SlotStable` — the slot whose address a removal hands out survives any number of
  additions;
* `SubmitsInOrder` — the CAN consumer, which takes a frame out only once a mailbox has
  it, loses and repeats none;
* `rings_are_fifos` — all of this for the four rings.
-/

namespace IotCtrl

/-! ## The operations, ring by ring -/

/-- The operations of one ring, for every capacity.  `β` is what a removal reports. -/
structure RingCode (α β : Type) where
  init : {maxSize : Nat} → RingFifo α maxSize → RingFifo α maxSize
  add : {maxSize : Nat} → α → RingFifo α maxSize → RingFifo α maxSize
  take : {maxSize : Nat} → RingFifo α maxSize → β × RingFifo α maxSize

/-- A removal that returns a pointer, read by the caller, or `NULL`. -/
def takePointer {α : Type} {maxSize : Nat} (q : RingFifo α maxSize) :
    Option α × RingFifo α maxSize :=
  match q.takeSlot with
  | none => (none, q)
  | some (slot, q') => (some (q'.slot slot), q')

/-- `InitUartSendQueue`, `AddUartSendData2Queue`, `GetUartSendDataFromQueue`. -/
def uartRing : RingCode CommNode (Option CommNode) :=
  { init := RingFifo.clear, add := fun x q => q.add x, take := takePointer }

/-- `InitModuleStatusQueue`, `AddModuleStatusData2Queue`, `GetModuleStatusDataFromQueue`. -/
def moduleStatusRing : RingCode ModuleStatus (Option ModuleStatus) :=
  { init := RingFifo.clear, add := fun x q => q.add x, take := takePointer }

/-- `outQueue`, which reports an empty queue as 0. -/
def outQueue {maxSize : Nat} (q : RingFifo U16 maxSize) : U16 × RingFifo U16 maxSize :=
  match q.take with
  | none => (0, q)
  | some (x, q') => (x, q')

/-- `initQueue`, `enQueue`, `outQueue`. -/
def msgRing : RingCode U16 U16 :=
  { init := RingFifo.clear, add := fun x q => q.add x, take := outQueue }

/-- `can_send_frame_process` on its ring: the oldest frame is offered to the mailboxes,
and `front` moves only if one takes it. -/
def sendFrame {maxSize : Nat} (mailboxFree : Bool) (q : RingFifo CanFrameExt maxSize) :
    Option CanRxMsg × RingFifo CanFrameExt maxSize :=
  match q.take with
  | none => (none, q)
  | some (f, q') => if mailboxFree then (some (canBusSendOneFrame f), q') else (none, q)

/-- `InitCanSendQueue`, `AddCanSendData2Queue`, and `can_send_frame_process` with a
mailbox free. -/
def canRing : RingCode CanFrameExt (Option CanRxMsg) :=
  { init := RingFifo.clear, add := fun x q => q.add x, take := sendFrame true }

/-! The station's routines are these operations on its own rings. -/

theorem initUartSendQueue_ring (s : Station) :
    (initUartSendQueue s).logic.uartSendQueue = uartRing.init s.logic.uartSendQueue := rfl

theorem addUartSendData2Queue_ring (x : CommNode) (s : Station) :
    (addUartSendData2Queue x s).logic.uartSendQueue = uartRing.add x s.logic.uartSendQueue := rfl

theorem addModuleStatusData2Queue_ring (x : ModuleStatus) (s : Station) :
    (addModuleStatusData2Queue x s).logic.moduleStatusQueue =
      moduleStatusRing.add x s.logic.moduleStatusQueue := rfl

theorem addCanSendData2Queue_ring (x : CanFrameExt) (s : Station) :
    (addCanSendData2Queue x s).can.canSendQueue = canRing.add x s.can.canSendQueue := rfl

theorem addSendMsgToQueue_ring (x : U16) (s : Station) :
    (addSendMsgToQueue x s).msg.msgSendQueue = msgRing.add x s.msg.msgSendQueue := rfl

/-- The node read through the pointer, and the ring after the call. -/
theorem getUartSendDataFromQueue_ring (s : Station) :
    ((getUartSendDataFromQueue s).map (fun p => p.2.logic.uartSendQueue.slot p.1),
        ((getUartSendDataFromQueue s).elim s Prod.snd).logic.uartSendQueue) =
      uartRing.take s.logic.uartSendQueue := by
  show _ = takePointer s.logic.uartSendQueue
  unfold getUartSendDataFromQueue takePointer
  cases s.logic.uartSendQueue.takeSlot with
  | none => rfl
  | some p => rfl

/-- The state that is copied out, and the ring after the call. -/
theorem getModuleStatusDataFromQueue_ring (s : Station) :
    ((getModuleStatusDataFromQueue s).map Prod.fst,
        ((getModuleStatusDataFromQueue s).elim s Prod.snd).logic.moduleStatusQueue) =
      moduleStatusRing.take s.logic.moduleStatusQueue := by
  show _ = takePointer s.logic.moduleStatusQueue
  unfold getModuleStatusDataFromQueue takePointer RingFifo.take
  cases htake : s.logic.moduleStatusQueue.takeSlot with
  | none => rfl
  | some p =>
      have hslot := RingFifo.slot_of_takeSlot htake
      simp [hslot]

theorem getSendMsgFromQueue_ring (s : Station) :
    ((getSendMsgFromQueue s).1, (getSendMsgFromQueue s).2.msg.msgSendQueue) =
      msgRing.take s.msg.msgSendQueue := by
  unfold getSendMsgFromQueue
  show _ = outQueue s.msg.msgSendQueue
  unfold outQueue
  cases s.msg.msgSendQueue.take with
  | none => rfl
  | some p => rfl

theorem canSendFrameProcess_ring (mailboxFree : Bool) (s : Station) :
    ((canSendFrameProcess mailboxFree s).2,
        (canSendFrameProcess mailboxFree s).1.can.canSendQueue) =
      sendFrame mailboxFree s.can.canSendQueue := by
  unfold canSendFrameProcess sendFrame
  cases s.can.canSendQueue.take with
  | none => rfl
  | some p => cases mailboxFree <;> rfl

/-- The rings of a cleared board are those that `InitUartSendQueue`, `InitModuleStatusQueue`,
`InitCanSendQueue` and `initQueue` leave before the loop of `main` is entered. -/
theorem cleared_rings (flash : Flash) (localStation : U8) :
    let s := Station.cleared flash localStation
    uartRing.init s.logic.uartSendQueue = s.logic.uartSendQueue ∧
      moduleStatusRing.init s.logic.moduleStatusQueue = s.logic.moduleStatusQueue ∧
      canRing.init s.can.canSendQueue = s.can.canSendQueue ∧
      msgRing.init s.msg.msgSendQueue = s.msg.msgSendQueue :=
  ⟨rfl, rfl, rfl, rfl⟩

/-! ## Queues of bounded length -/

/-- One call on a ring. -/
inductive RingOp (α : Type)
  | init
  | add (x : α)
  | take

variable {α β : Type}

/-- What a run of calls reports, and the ring after it. -/
def RingCode.run (c : RingCode α β) {maxSize : Nat} :
    RingFifo α maxSize → List (RingOp α) → List β × RingFifo α maxSize
  | q, [] => ([], q)
  | q, .init :: ops => c.run (c.init q) ops
  | q, .add x :: ops => c.run (c.add x q) ops
  | q, .take :: ops =>
      let (b, q') := c.take q
      let (bs, q'') := c.run q' ops
      (b :: bs, q'')

/-- The same calls on a list of at most `maxSize - 1` elements, oldest first. -/
def fifoRun (report : Option α → β) (maxSize : Nat) :
    List α → List (RingOp α) → List β × List α
  | xs, [] => ([], xs)
  | _, .init :: ops => fifoRun report maxSize [] ops
  | xs, .add x :: ops =>
      fifoRun report maxSize (if xs.length + 1 < maxSize then xs ++ [x] else xs) ops
  | xs, .take :: ops =>
      let (bs, ys) := fifoRun report maxSize xs.tail ops
      (report xs.head? :: bs, ys)

/-- Every run of the ring is a run of the bounded queue, and the ring never holds more
than all but one of its slots. -/
def RingCode.RefinesFifo (c : RingCode α β) (report : Option α → β) : Prop :=
  ∀ (maxSize : Nat) (q : RingFifo α maxSize) (ops : List (RingOp α)),
    (c.run q ops).1 = (fifoRun report maxSize q.contents ops).1 ∧
    (c.run q ops).2.contents = (fifoRun report maxSize q.contents ops).2 ∧
    (c.run q ops).2.contents.length ≤ maxSize - 1

/-- What each operation does to the list that a ring holds. -/
structure RingCode.Lawful (c : RingCode α β) (report : Option α → β) : Prop where
  init : ∀ {maxSize : Nat} (q : RingFifo α maxSize), (c.init q).contents = []
  add : ∀ {maxSize : Nat} (x : α) (q : RingFifo α maxSize), c.add x q = q.add x
  report : ∀ {maxSize : Nat} (q : RingFifo α maxSize), (c.take q).1 = report q.contents.head?
  take : ∀ {maxSize : Nat} (q : RingFifo α maxSize), (c.take q).2.contents = q.contents.tail

theorem RingCode.Lawful.refinesFifo {c : RingCode α β} {report : Option α → β}
    (h : c.Lawful report) : c.RefinesFifo report := by
  intro maxSize q ops
  induction ops generalizing q with
  | nil =>
      have hlt := q.size_lt
      refine ⟨rfl, rfl, ?_⟩
      show q.contents.length ≤ maxSize - 1
      rw [RingFifo.length_contents]
      omega
  | cons op ops ih =>
      cases op with
      | init =>
          have hinit := ih (c.init q)
          rw [h.init] at hinit
          exact hinit
      | add x =>
          have hadd := ih (c.add x q)
          rw [h.add, RingFifo.contents_add_eq] at hadd
          rw [← h.add] at hadd
          exact hadd
      | take =>
          obtain ⟨hout, hheld, hlen⟩ := ih (c.take q).2
          rw [h.take] at hout hheld
          refine ⟨?_, hheld, hlen⟩
          show (c.take q).1 :: (c.run (c.take q).2 ops).1 = _
          rw [h.report, hout]
          rfl

theorem takePointer_eq {maxSize : Nat} (q : RingFifo α maxSize) :
    (takePointer q).1 = q.contents.head? ∧ (takePointer q).2.contents = q.contents.tail := by
  unfold takePointer
  cases hslot : q.takeSlot with
  | none =>
      have hnone : q.take = none := by rw [RingFifo.take, hslot]; rfl
      rw [(RingFifo.take_none_iff q).mp hnone]
      exact ⟨rfl, rfl⟩
  | some p =>
      have htake : q.take = some (q.slot p.1, p.2) := by rw [RingFifo.take, hslot]; rfl
      rw [RingFifo.contents_take htake, ← RingFifo.slot_of_takeSlot hslot]
      exact ⟨rfl, rfl⟩

theorem uartRing_lawful : uartRing.Lawful id :=
  { init := RingFifo.contents_clear
    add := fun _ _ => rfl
    report := fun q => (takePointer_eq q).1
    take := fun q => (takePointer_eq q).2 }

theorem moduleStatusRing_lawful : moduleStatusRing.Lawful id :=
  { init := RingFifo.contents_clear
    add := fun _ _ => rfl
    report := fun q => (takePointer_eq q).1
    take := fun q => (takePointer_eq q).2 }

theorem outQueue_eq {maxSize : Nat} (q : RingFifo U16 maxSize) :
    (outQueue q).1 = q.contents.head?.getD 0 ∧ (outQueue q).2.contents = q.contents.tail := by
  unfold outQueue
  cases htake : q.take with
  | none =>
      rw [(RingFifo.take_none_iff q).mp htake]
      exact ⟨rfl, rfl⟩
  | some p =>
      rw [RingFifo.contents_take htake]
      exact ⟨rfl, rfl⟩

theorem msgRing_lawful : msgRing.Lawful fun x => x.getD 0 :=
  { init := RingFifo.contents_clear
    add := fun _ _ => rfl
    report := fun q => (outQueue_eq q).1
    take := fun q => (outQueue_eq q).2 }

/-- The consumer hands out the oldest frame if a mailbox is free, and else keeps it. -/
theorem sendFrame_eq {maxSize : Nat} (mailboxFree : Bool) (q : RingFifo CanFrameExt maxSize) :
    (sendFrame mailboxFree q).1 =
        (if mailboxFree then q.contents.head?.map canBusSendOneFrame else none) ∧
      (sendFrame mailboxFree q).2.contents =
        if mailboxFree then q.contents.tail else q.contents := by
  unfold sendFrame
  cases htake : q.take with
  | none =>
      rw [(RingFifo.take_none_iff q).mp htake]
      cases mailboxFree <;> exact ⟨rfl, rfl⟩
  | some p =>
      rw [RingFifo.contents_take htake]
      cases mailboxFree with
      | true => exact ⟨rfl, rfl⟩
      | false => exact ⟨rfl, RingFifo.contents_take htake⟩

theorem canRing_lawful : canRing.Lawful fun x => x.map canBusSendOneFrame :=
  { init := RingFifo.contents_clear
    add := fun _ _ => rfl
    report := fun q => (sendFrame_eq true q).1
    take := fun q => (sendFrame_eq true q).2 }

/-! ## The slot handed out -/

/-- The slot whose address `take` returned keeps its element over any additions. -/
def SlotStable (α : Type) : Prop :=
  ∀ (maxSize : Nat) (q q' : RingFifo α maxSize) (slot : Nat) (xs : List α),
    q.takeSlot = some (slot, q') → (q'.addAll xs).slot slot = q.slot slot

theorem slotStable (α : Type) : SlotStable α := by
  intro maxSize q q' slot xs htake
  obtain ⟨hfront, hslots⟩ := RingFifo.takeSlot_eq htake
  rw [← hfront, ← hslots]
  exact RingFifo.slot_front_addAll q' xs

/-! ## Frames to the mailboxes -/

/-- A call on the CAN ring: a frame is queued, or the consumer runs. -/
inductive CanRingOp
  | add (f : CanFrameExt)
  | process (mailboxFree : Bool)

/-- The frames that found room in a run, oldest first. -/
def acceptedFrames {maxSize : Nat} :
    RingFifo CanFrameExt maxSize → List CanRingOp → List CanFrameExt
  | _, [] => []
  | q, .add f :: ops =>
      let rest := acceptedFrames (q.add f) ops
      if q.IsFull then rest else f :: rest
  | q, .process mailboxFree :: ops => acceptedFrames (sendFrame mailboxFree q).2 ops

/-- What a run put in mailboxes, oldest first. -/
def mailboxes {maxSize : Nat} : RingFifo CanFrameExt maxSize → List CanRingOp → List CanRxMsg
  | _, [] => []
  | q, .add f :: ops => mailboxes (q.add f) ops
  | q, .process mailboxFree :: ops =>
      (sendFrame mailboxFree q).1.toList ++ mailboxes (sendFrame mailboxFree q).2 ops

/-- The ring after a run. -/
def canRingAfter {maxSize : Nat} :
    RingFifo CanFrameExt maxSize → List CanRingOp → RingFifo CanFrameExt maxSize
  | q, [] => q
  | q, .add f :: ops => canRingAfter (q.add f) ops
  | q, .process mailboxFree :: ops => canRingAfter (sendFrame mailboxFree q).2 ops

/-- What was queued at first and what was accepted since is, in this order, what the
mailboxes got and what is still queued. -/
def SubmitsInOrder : Prop :=
  ∀ (maxSize : Nat) (q : RingFifo CanFrameExt maxSize) (ops : List CanRingOp),
    (q.contents ++ acceptedFrames q ops).map canBusSendOneFrame =
      mailboxes q ops ++ (canRingAfter q ops).contents.map canBusSendOneFrame

theorem submitsInOrder : SubmitsInOrder := by
  intro maxSize q ops
  induction ops generalizing q with
  | nil => simp [acceptedFrames, mailboxes, canRingAfter]
  | cons op ops ih =>
      cases op with
      | add f =>
          have hadd := ih (q.add f)
          simp only [acceptedFrames, mailboxes, canRingAfter]
          rw [← hadd]
          by_cases hfull : q.IsFull
          · rw [if_pos hfull, RingFifo.add_of_full hfull]
          · rw [if_neg hfull, RingFifo.contents_add hfull, List.append_assoc,
              List.singleton_append]
      | process mailboxFree =>
          have hsend := ih (sendFrame mailboxFree q).2
          obtain ⟨hout, hheld⟩ := sendFrame_eq mailboxFree q
          simp only [acceptedFrames, mailboxes, canRingAfter]
          rw [List.append_assoc, ← hsend, hheld, hout]
          cases mailboxFree with
          | false => simp
          | true => cases q.contents <;> simp

/-- **The four rings are bounded queues**, a removed slot stays readable, and the CAN
consumer submits every accepted frame once and in order. -/
theorem rings_are_fifos :
    uartRing.RefinesFifo id ∧ moduleStatusRing.RefinesFifo id ∧
      canRing.RefinesFifo (fun f => f.map canBusSendOneFrame) ∧
      msgRing.RefinesFifo (fun x => x.getD 0) ∧
      SlotStable CommNode ∧ SlotStable ModuleStatus ∧ SubmitsInOrder :=
  ⟨uartRing_lawful.refinesFifo, moduleStatusRing_lawful.refinesFifo, canRing_lawful.refinesFifo,
    msgRing_lawful.refinesFifo, slotStable _, slotStable _, submitsInOrder⟩

end IotCtrl
