import IotCtrl.CanSegment
import IotCtrl.StepFrame

/-!
# Messages of several stations on one bus

Every station of a `CanBus` queues whole messages and transmits its frames in order;
the frames of different stations reach one receiver in any interleaving.  `Intact`
asks that whatever the receiver puts together is a message that was passed to
`can_bus_send_msg`, under the same function code and source.

The receiver has one buffer for all senders, so this needs `Undisturbed`: a frame
that is taken as a continuation comes from the station that opened the assembly,
and no frame of its own overwrites an open assembly.

* `QueueForm` — a queue holds the rest of at most one message and then whole ones;
* `transmit_busInv`, `step_busInv` — the step lemmas;
* `reassembly_intact` — every run of undisturbed steps is intact;
* `foreign_final_accepted` — two messages of two frames each that are not.
-/

namespace IotCtrl

open ByteMemory Transition ClosedFacts

/-! ## The bus -/

/-- A message for `can_bus_send_msg`.  The function code has four bits in the frame
identifier, and `can_send_buff` has 300 bytes. -/
structure CanMsg where
  payload : List U8
  funcId : U8
  srcId : U8
  funcId_lt : funcId < 16
  length_le : payload.length ≤ 300

/-- The frames of a message. -/
def CanMsg.frames (m : CanMsg) : List CanFrameExt := canFramesOf m.payload m.funcId m.srcId

/-- A receiver and the stations it hears.  `passed` holds the messages that were
passed to `can_bus_send_msg` so far, and `owner` is the station that sent the last
first frame. -/
structure CanBus (ι : Type) where
  receiver : Station
  sender : ι → Station
  passed : ι → List CanMsg
  owner : Option ι

inductive BusInput (ι : Type)
  /-- A station calls `can_bus_send_msg`. -/
  | send (i : ι) (m : CanMsg)
  /-- A station calls `can_send_frame_process`; the frame taken reaches the receiver. -/
  | transmit (i : ι) (mailboxFree : Bool)
  /-- The receiver does something else. -/
  | receiver (input : Input)

/-- An input other than a frame. -/
def Input.IsFrame : Input → Prop
  | .canFrame _ => True
  | _ => False

instance : DecidablePred Input.IsFrame
  | .canFrame _ => isTrue trivial
  | .timeUpdate _ | .usart1Irq _ | .udpReceive _ _ | .udpClient _ | .sendMessage | .secProcess _
  | .modbusComm _ | .canSend _ | .resetStart | .upstreamIo | .uploadRunState | .msoneProcess _ =>
      isFalse id

namespace CanBus

variable {ι : Type} [DecidableEq ι]

/-- The frame that a call of `can_send_frame_process` takes. -/
def taken (b : CanBus ι) (i : ι) (mailboxFree : Bool) : Option CanRxMsg :=
  (canSendFrameProcess mailboxFree (b.sender i)).2

/-- A frame of station `i` arrives. -/
def deliver (b : CanBus ι) (i : ι) (m : CanRxMsg) : CanBus ι :=
  { b with
    receiver := IotCtrl.step b.receiver (.canFrame m)
    owner := if (canDecodeId m.extId).segPolo = .first then some i else b.owner }

def step (b : CanBus ι) : BusInput ι → CanBus ι
  | .send i m =>
      { b with
        sender := Function.update b.sender i
          (canBusSendMsg m.payload m.funcId m.srcId (b.sender i))
        passed := Function.update b.passed i (b.passed i ++ [m]) }
  | .transmit i mailboxFree =>
      let next : CanBus ι :=
        { b with
          sender := Function.update b.sender i
            (canSendFrameProcess mailboxFree (b.sender i)).1 }
      match b.taken i mailboxFree with
      | none => next
      | some m => next.deliver i m
  | .receiver input => { b with receiver := IotCtrl.step b.receiver input }

/-- Booted stations that have sent nothing. -/
def Initial (b : CanBus ι) : Prop :=
  Booted b.receiver ∧ (∀ i, Booted (b.sender i)) ∧ (∀ i, b.passed i = []) ∧ b.owner = none

/-- No frame is lost: a message is sent only when all its frames fit, and the
receiver gets its frames from the bus. -/
def Room (b : CanBus ι) : BusInput ι → Prop
  | .send i m => (b.sender i).canFrames.length + m.frames.length < 50
  | .transmit _ _ => True
  | .receiver input => ¬ input.IsFrame

instance (b : CanBus ι) : ∀ x, Decidable (b.Room x)
  | .send _ _ => inferInstanceAs (Decidable (_ < _))
  | .transmit _ _ => isTrue trivial
  | .receiver input => inferInstanceAs (Decidable (¬ input.IsFrame))

/-- A frame does not disturb the assembly in progress: bytes of its own do not
overwrite it, and a continuation comes from the station that opened it. -/
def Harmless (b : CanBus ι) (i : ι) (m : CanRxMsg) : Prop :=
  let id := canDecodeId m.extId
  let r := b.receiver.can.recv
  (id.segPolo = .none → m.data ≠ [] → r.gSegPolo ≠ .first) ∧
    (id.segPolo = .middle ∨ id.segPolo = .final → canContinues id m.data r → b.owner = some i)

instance (b : CanBus ι) (i : ι) (m : CanRxMsg) : Decidable (b.Harmless i m) :=
  inferInstanceAs (Decidable (_ ∧ _))

/-- Every frame that arrives is harmless. -/
def Undisturbed (b : CanBus ι) : BusInput ι → Prop
  | .transmit i mailboxFree => ∀ m ∈ b.taken i mailboxFree, b.Harmless i m
  | _ => True

instance (b : CanBus ι) : ∀ x, Decidable (b.Undisturbed x)
  | .send _ _ => isTrue trivial
  | .transmit i mailboxFree =>
      inferInstanceAs (Decidable (∀ m ∈ b.taken i mailboxFree, b.Harmless i m))
  | .receiver _ => isTrue trivial

/-- Every message the receiver completed was passed to `can_bus_send_msg`. -/
def Intact (b : CanBus ι) : Prop :=
  ∀ funcId srcId payload, Event.canDone funcId srcId payload ∈ b.receiver.trace →
    ∃ i, ∃ m ∈ b.passed i, m.funcId = funcId ∧ m.srcId = srcId ∧ m.payload = payload

end CanBus

/-! ## What a queue holds -/

/-- A queue holds the rest of at most one message and then whole ones.  `asm` is
the receive state in which that message is being put together, if it is. -/
inductive QueueForm (passed : List CanMsg) : Option CanRecv → List CanFrameExt → Prop
  | whole {msgs : List CanMsg} (h : ∀ m ∈ msgs, m ∈ passed) :
      QueueForm passed none (msgs.flatMap CanMsg.frames)
  | rest {asm : Option CanRecv} {m : CanMsg} (hm : m ∈ passed) {n : Nat} {k : U8}
      (hn : n = 8 * (k.toNat + 1)) (hlt : n < m.payload.length)
      (hasm : ∀ r ∈ asm, Assembling m.payload n k.toNat r) {msgs : List CanMsg}
      (h : ∀ m ∈ msgs, m ∈ passed) :
      QueueForm passed asm
        (canSegmentsFrom m.payload m.funcId m.srcId n k ++ msgs.flatMap CanMsg.frames)

namespace QueueForm

variable {passed : List CanMsg} {asm asm' : Option CanRecv} {fs : List CanFrameExt}

/-- The same queue with a receive state that is further from it. -/
theorem mono (h : QueueForm passed asm fs)
    (hasm : ∀ r ∈ asm', ∃ r₀ ∈ asm, ∀ p n k, Assembling p n k r₀ → Assembling p n k r) :
    QueueForm passed asm' fs := by
  cases h with
  | whole h =>
      cases asm' with
      | none => exact whole h
      | some r =>
          obtain ⟨r₀, hr₀, -⟩ := hasm r rfl
          exact absurd hr₀ (by simp)
  | rest hm hn hlt hr h =>
      refine rest hm hn hlt (fun r hr' => ?_) h
      obtain ⟨r₀, hr₀, himp⟩ := hasm r hr'
      exact himp _ _ _ (hr r₀ hr₀)

theorem forget (h : QueueForm passed asm fs) : QueueForm passed none fs :=
  h.mono (by simp)

/-- One more message at the end. -/
theorem send (h : QueueForm passed asm fs) (m : CanMsg) :
    QueueForm (passed ++ [m]) asm (fs ++ m.frames) := by
  have hold : ∀ msgs : List CanMsg, (∀ x ∈ msgs, x ∈ passed) →
      ∀ x ∈ msgs ++ [m], x ∈ passed ++ [m] := by
    intro msgs hmsgs x hx
    rcases List.mem_append.mp hx with hx | hx
    · exact List.mem_append_left _ (hmsgs x hx)
    · exact List.mem_append_right _ hx
  have hframes : ∀ msgs : List CanMsg,
      (msgs ++ [m]).flatMap CanMsg.frames = msgs.flatMap CanMsg.frames ++ m.frames := by
    intro msgs
    rw [List.flatMap_append, List.flatMap_singleton]
  cases h with
  | whole h =>
      rw [← hframes]
      exact whole (hold _ h)
  | rest hm hn hlt hr h =>
      rw [List.append_assoc, ← hframes]
      exact rest (List.mem_append_left _ hm) hn hlt hr (hold _ h)

end QueueForm

/-- What the oldest frame of a queue is to the message `m` it belongs to. -/
inductive NextFrame (passed : List CanMsg) (asm : Option CanRecv) (m : CanMsg)
    (f : CanFrameExt) (fs : List CanFrameExt) : Prop
  | single (hasm : asm = none) (hpolo : f.segPolo = .none) (hdata : f.data = m.payload)
      (hfs : QueueForm passed none fs)
  | first (hpolo : f.segPolo = .first) (hnum : f.segNum = 0) (hlen : f.data.length = 8)
      (hdata : f.data = m.payload.take 8)
      (hfs : ∀ asm', (∀ r ∈ asm', Assembling m.payload 8 0 r) → QueueForm passed asm' fs)
  | middle {n k : Nat} (hpolo : f.segPolo = .middle) (hnum : f.segNum.toNat = k + 1)
      (hasm : ∀ r ∈ asm, Assembling m.payload n k r) (hbytes : n + f.data.length ≤ 300)
      (hdata : f.data = (m.payload.drop n).take f.data.length)
      (hfs : ∀ asm', (∀ r ∈ asm', Assembling m.payload (n + f.data.length) (k + 1) r) →
        QueueForm passed asm' fs)
  | final {n k : Nat} (hpolo : f.segPolo = .final) (hnum : f.segNum.toNat = k + 1)
      (hasm : ∀ r ∈ asm, Assembling m.payload n k r)
      (hdata : f.data = (m.payload.drop n).take f.data.length)
      (hend : n + f.data.length = m.payload.length) (hfs : QueueForm passed none fs)

theorem segNum_succ {k : U8} (hk : k.toNat < 38) : (k + 1).toNat = k.toNat + 1 := by
  show (k.toNat + 1) % 256 = k.toNat + 1
  omega

/-- The oldest frame of a queue that starts with whole messages. -/
theorem NextFrame.of_whole {passed : List CanMsg} {m : CanMsg}
    {msgs : List CanMsg} {f : CanFrameExt} {fs : List CanFrameExt} (hm : m ∈ passed)
    (hmsgs : ∀ x ∈ msgs, x ∈ passed) (h : f :: fs = (m :: msgs).flatMap CanMsg.frames) :
    (f.funcId = m.funcId ∧ f.srcId = m.srcId) ∧ NextFrame passed none m f fs := by
  rw [List.flatMap_cons, CanMsg.frames, canFramesOf] at h
  split_ifs at h with hone
  · obtain ⟨rfl, rfl⟩ := List.cons.inj h
    exact ⟨⟨rfl, rfl⟩, .single rfl rfl rfl (.whole hmsgs)⟩
  · obtain ⟨rfl, rfl⟩ := List.cons.inj h
    refine ⟨⟨rfl, rfl⟩, .first rfl rfl ?_ rfl fun asm' hasm' => ?_⟩
    · rw [List.length_take]
      omega
    · have height : 8 = 8 * ((0 : U8).toNat + 1) := rfl
      exact .rest hm height (by omega) hasm' hmsgs

theorem NextFrame.of_rest {passed : List CanMsg} {asm : Option CanRecv} {m : CanMsg}
    {msgs : List CanMsg} {f : CanFrameExt} {fs : List CanFrameExt} (hm : m ∈ passed) {n : Nat}
    {k : U8} (hn : n = 8 * (k.toNat + 1)) (hlt : n < m.payload.length)
    (hasm : ∀ r ∈ asm, Assembling m.payload n k.toNat r) (hmsgs : ∀ x ∈ msgs, x ∈ passed)
    (h : f :: fs = canSegmentsFrom m.payload m.funcId m.srcId n k ++
      msgs.flatMap CanMsg.frames) :
    (f.funcId = m.funcId ∧ f.srcId = m.srcId) ∧ NextFrame passed asm m f fs := by
  have hlen := m.length_le
  have hk := segNum_succ (k := k) (by omega)
  rw [canSegmentsFrom] at h
  split_ifs at h with hmore
  · obtain ⟨rfl, rfl⟩ := List.cons.inj h
    have hdata : ((m.payload.drop n).take 8).length = 8 := by
      rw [List.length_take, List.length_drop]
      omega
    refine ⟨⟨rfl, rfl⟩,
      .middle rfl hk hasm (by simp only [hdata]; omega) (by simp only [hdata]) ?_⟩
    intro asm' hasm'
    simp only [hdata, ← hk] at hasm'
    exact .rest hm (by omega) hmore hasm' hmsgs
  · obtain ⟨rfl, rfl⟩ := List.cons.inj h
    have hdata : ((m.payload.drop n).take (m.payload.length - n)).length =
        m.payload.length - n := by
      rw [List.length_take, List.length_drop, Nat.min_self]
    exact ⟨⟨rfl, rfl⟩,
      .final rfl hk hasm (by simp only [hdata]) (by simp only [hdata]; omega) (.whole hmsgs)⟩

/-- The oldest frame of a queue belongs to a message that was passed. -/
theorem QueueForm.next {passed : List CanMsg} {asm : Option CanRecv} {f : CanFrameExt}
    {fs : List CanFrameExt} (h : QueueForm passed asm (f :: fs)) :
    ∃ m ∈ passed, (f.funcId = m.funcId ∧ f.srcId = m.srcId) ∧ NextFrame passed asm m f fs := by
  generalize hq : f :: fs = q at h
  cases h with
  | @whole msgs hmsgs =>
      cases msgs with
      | nil => simp at hq
      | cons m msgs =>
          have hm := hmsgs m List.mem_cons_self
          exact ⟨m, hm, NextFrame.of_whole hm (fun x hx => hmsgs x (List.mem_cons_of_mem _ hx)) hq⟩
  | @rest _ m hm n k hn hlt hasm msgs hmsgs =>
      exact ⟨m, hm, NextFrame.of_rest hm hn hlt hasm hmsgs hq⟩

/-! ## The receiver -/

theorem mem_canDone_of_touches {ps : List Part} {ks : List EventKind} {s t : Station}
    (h : Touches ps ks s t) (hk : .canDone ∉ ks) {e : Event}
    (he : e ∈ t.trace) (hdone : e.kind = .canDone) : e ∈ s.trace := by
  obtain ⟨es, hes, hkinds⟩ := h.logs
  rw [hes] at he
  rcases List.mem_append.mp he with he | he
  · exact absurd (hdone ▸ hkinds e he) hk
  · exact he

/-- What a frame does to the receive state. -/
theorem step_canFrame_recv {s : Station} {m : CanRxMsg}
    (h : (step s (.canFrame m)).systemReset = false) :
    (step s (.canFrame m)).can.recv = (recvFrame s.can.recv m).1 := by
  unfold step at h ⊢
  split_ifs at h ⊢ with hreset
  · exact absurd (h.symm.trans hreset) (by decide)
  · unfold handle canBusFrameReceive at h ⊢
    dsimp only at h ⊢
    split_ifs at h ⊢ with hboot hfin
    · exact absurd h (by simp [enterBootMode])
    · exact (canDispatch_touches _ _ _).keeps.same .recv (by decide)
    · rfl

/-- A message in the history after a frame was there before, or the frame completed
it. -/
theorem step_canFrame_done {s : Station} {m : CanRxMsg} {e : Event}
    (he : e ∈ (step s (.canFrame m)).trace) (hdone : e.kind = .canDone) :
    e ∈ s.trace ∨ ((recvFrame s.can.recv m).2 = true ∧
      e = .canDone (canDecodeId m.extId).funcId (canDecodeId m.extId).srcId
        (recvFrame s.can.recv m).1.payload) := by
  unfold step at he
  split_ifs at he with hreset
  · exact Or.inl he
  · unfold handle canBusFrameReceive at he
    dsimp only at he
    split_ifs at he with hboot hfin
    · exact Or.inl he
    · have hlog := mem_canDone_of_touches (canDispatch_touches _ _ _) (by decide) he hdone
      rcases List.mem_cons.mp hlog with h | h
      · exact Or.inr ⟨hfin, h⟩
      · exact Or.inl h
    · exact Or.inl he

/-- A frame that is not accepted changes nothing. -/
theorem recvFrame_rejected {r : CanRecv} {f : CanFrameExt}
    (hpolo : f.segPolo = .middle ∨ f.segPolo = .final)
    (h : ¬ canContinues (canDecodeId (canBusSendOneFrame f).extId) f.data r) :
    recvFrame r (canBusSendOneFrame f) = (r, false) := by
  rw [canDecodeId_canBusSendOneFrame] at h
  rw [recvFrame_eq]
  unfold canReassemble
  rcases hpolo with hpolo | hpolo
  · simp only [hpolo] at h ⊢
    rw [if_neg h]
  · simp only [hpolo] at h ⊢
    rw [if_neg h]

/-- A final frame that is accepted closes the assembly. -/
theorem recvFrame_closes {r : CanRecv} {f : CanFrameExt} (hpolo : f.segPolo = .final)
    (h : canContinues (canDecodeId (canBusSendOneFrame f).extId) f.data r) :
    (recvFrame r (canBusSendOneFrame f)).1.gSegPolo = .none := by
  rw [canDecodeId_canBusSendOneFrame] at h
  rw [recvFrame_eq]
  unfold canReassemble
  simp only [hpolo] at h ⊢
  rw [if_pos h]

namespace CanBus

variable {ι : Type} [DecidableEq ι]

/-- The receive state, if it is putting together a message of station `i`. -/
def assembly (b : CanBus ι) (i : ι) : Option CanRecv :=
  if b.receiver.systemReset = false ∧ b.receiver.can.recv.gSegPolo = .first ∧
      b.owner = some i then some b.receiver.can.recv
  else none

theorem mem_assembly {b : CanBus ι} {i : ι} {r : CanRecv} :
    r ∈ b.assembly i ↔ (b.receiver.systemReset = false ∧
      b.receiver.can.recv.gSegPolo = .first ∧ b.owner = some i) ∧ b.receiver.can.recv = r := by
  unfold assembly
  split_ifs with h <;> simp [h]

/-- What every state of an undisturbed run satisfies. -/
structure BusInv (b : CanBus ι) : Prop where
  intact : b.Intact
  queued : ∀ i, QueueForm (b.passed i) (b.assembly i) (b.sender i).canFrames

/-- What a frame `f` of message `m` must do for the invariant to hold after it, `r`
being the receive state and `finished` the flag it leaves: a message it completes is
`m`, an assembly of its own station fits the queue `fs` that is left, and an assembly
of another station is not touched. -/
structure Served (b : CanBus ι) (i : ι) (m : CanMsg) (f : CanFrameExt) (fs : List CanFrameExt)
    (r : CanRecv) (finished : Bool) : Prop where
  done : finished = true → r.payload = m.payload
  own : r.gSegPolo = .first → (f.segPolo = .first ∨ b.owner = some i) →
    QueueForm (b.passed i) (some r) fs
  rest : QueueForm (b.passed i) none fs
  other : r.gSegPolo = .first → f.segPolo ≠ .first → b.owner ≠ some i →
    b.receiver.can.recv.gSegPolo = .first ∧
      ∀ p n k, Assembling p n k b.receiver.can.recv → Assembling p n k r

/-- A frame that would continue its own message, and finds another one open, is dropped. -/
theorem served_of_rejected {b : CanBus ι} {i : ι} {m : CanMsg} {f : CanFrameExt}
    {fs : List CanFrameExt} (hrun : b.receiver.systemReset = false)
    (hpolo : f.segPolo = .middle ∨ f.segPolo = .final)
    (hrejected : ¬ canContinues (canDecodeId (canBusSendOneFrame f).extId) f.data
      b.receiver.can.recv)
    (hasm : ∀ r ∈ b.assembly i, canContinues (canDecodeId (canBusSendOneFrame f).extId) f.data r)
    (hfs : QueueForm (b.passed i) none fs) :
    b.Served i m f fs (recvFrame b.receiver.can.recv (canBusSendOneFrame f)).1
      (recvFrame b.receiver.can.recv (canBusSendOneFrame f)).2 := by
  have hfirst : f.segPolo ≠ .first := by
    rcases hpolo with h | h <;> rw [h] <;> decide
  rw [recvFrame_rejected hpolo hrejected]
  refine ⟨fun h => absurd h Bool.false_ne_true, ?_, hfs, fun hp _ _ => ⟨hp, fun _ _ _ => id⟩⟩
  rintro hp (hf | hown)
  · exact absurd hf hfirst
  · exact absurd (hasm _ (mem_assembly.mpr ⟨⟨hrun, hp, hown⟩, rfl⟩)) hrejected

theorem served_of_harmless {b : CanBus ι} {i : ι} {m : CanMsg} {f : CanFrameExt}
    {fs : List CanFrameExt} (hrun : b.receiver.systemReset = false)
    (hharm : b.Harmless i (canBusSendOneFrame f))
    (hnext : NextFrame (b.passed i) (b.assembly i) m f fs) :
    b.Served i m f fs (recvFrame b.receiver.can.recv (canBusSendOneFrame f)).1
      (recvFrame b.receiver.can.recv (canBusSendOneFrame f)).2 := by
  have hopen : b.receiver.can.recv.gSegPolo = .first → b.owner = some i →
      b.receiver.can.recv ∈ b.assembly i := fun hpolo hown =>
    mem_assembly.mpr ⟨⟨hrun, hpolo, hown⟩, rfl⟩
  have hpoloId : (canDecodeId (canBusSendOneFrame f).extId).segPolo = f.segPolo := by
    rw [canDecodeId_canBusSendOneFrame]
  have hcont : ∀ {n k r}, f.segNum.toNat = k + 1 → n + f.data.length ≤ 300 →
      Assembling m.payload n k r →
      canContinues (canDecodeId (canBusSendOneFrame f).extId) f.data r := by
    intro n k r hnum hbytes hasm
    rw [canDecodeId_canBusSendOneFrame]
    exact hasm.continues hnum hbytes
  cases hnext with
  | single hasm hpolo hdata hfs =>
      rw [recvFrame_single _ hpolo]
      constructor
      · intro _
        rw [← hdata]
        exact read_write _ 0 f.data
      · rintro hq (hfirst | hown)
        · exact absurd (hpolo.symm.trans hfirst) (by decide)
        · exact absurd (hopen hq hown) (by simp [hasm])
      · exact hfs
      · intro hq _ _
        have hempty : f.data = [] := by
          by_contra hne
          exact hharm.1 (hpoloId.trans hpolo) hne hq
        refine ⟨hq, fun p n k h => ⟨h.polo, h.num, h.bytes, ?_⟩⟩
        rw [hempty, write_nil]
        exact h.buff
  | first hpolo hnum hlen hdata hfs =>
      rw [recvFrame_first _ hpolo]
      refine ⟨fun h => absurd h Bool.false_ne_true, fun _ _ => hfs _ ?_, hfs none (by simp),
        fun _ hne _ => absurd hpolo hne⟩
      rintro r hr
      obtain rfl := Option.some.inj hr
      refine ⟨rfl, by rw [hnum]; rfl, hlen, ?_⟩
      have hread := read_write b.receiver.can.recv.canRecvBuff 0 f.data
      rw [hlen] at hread
      exact hread.trans hdata
  | middle hpolo hnum hasm hbytes hdata hfs =>
      by_cases hc : canContinues (canDecodeId (canBusSendOneFrame f).extId) f.data
          b.receiver.can.recv
      · have hown := hharm.2 (Or.inl (hpoloId.trans hpolo)) hc
        obtain ⟨q, hq, hq'⟩ := recvFrame_middle f (hasm _ (hopen hc.1 hown)) hpolo hnum hbytes hdata
        rw [hq]
        refine ⟨fun h => absurd h Bool.false_ne_true, fun _ _ => hfs _ ?_, hfs none (by simp),
          fun _ _ hne => absurd hown hne⟩
        rintro r hr
        obtain rfl := Option.some.inj hr
        exact hq'
      · exact served_of_rejected hrun (Or.inl hpolo) hc
          (fun r hr => hcont hnum hbytes (hasm r hr)) (hfs none (by simp))
  | final hpolo hnum hasm hdata hend hfs =>
      have hbytes := hend.trans_le m.length_le
      by_cases hc : canContinues (canDecodeId (canBusSendOneFrame f).extId) f.data
          b.receiver.can.recv
      · have hcloses := recvFrame_closes hpolo hc
        have hown := hharm.2 (Or.inr (hpoloId.trans hpolo)) hc
        obtain ⟨q, hq, -, hpay⟩ :=
          recvFrame_final f (hasm _ (hopen hc.1 hown)) hpolo hnum hbytes hdata hend
        rw [hq] at hcloses ⊢
        refine ⟨fun _ => hpay, fun h => ?_, hfs, fun _ _ hne => absurd hown hne⟩
        exact absurd (hcloses.symm.trans h) (by decide)
      · exact served_of_rejected hrun (Or.inr hpolo) hc
          (fun r hr => hcont hnum hbytes (hasm r hr)) hfs

/-- **A frame arrives.**  `hnext` is the queue of station `i` before it was sent. -/
theorem deliver_busInv {b : CanBus ι} {i : ι} {f : CanFrameExt}
    (hintact : b.Intact)
    (hnext : QueueForm (b.passed i) (b.assembly i) (f :: (b.sender i).canFrames))
    (hother : ∀ j, j ≠ i → QueueForm (b.passed j) (b.assembly j) (b.sender j).canFrames)
    (hharm : b.Harmless i (canBusSendOneFrame f)) :
    BusInv (b.deliver i (canBusSendOneFrame f)) := by
  obtain ⟨m, hm, ⟨hfunc, hsrc⟩, hframe⟩ := hnext.next
  have hid := canDecodeId_canBusSendOneFrame f
  by_cases hreset : b.receiver.systemReset = true
  · -- a station that has reset does not listen
    have hstep : IotCtrl.step b.receiver (.canFrame (canBusSendOneFrame f)) = b.receiver :=
      if_pos hreset
    have hnone : ∀ j, (b.deliver i (canBusSendOneFrame f)).assembly j = none := by
      intro j
      refine if_neg fun h => ?_
      have hfalse := (congrArg Station.systemReset hstep).symm.trans h.1
      rw [hreset] at hfalse
      exact absurd hfalse (by decide)
    refine ⟨?_, fun j => ?_⟩
    · intro funcId srcId payload he
      exact hintact funcId srcId payload (hstep ▸ he)
    · rw [hnone]
      by_cases hj : j = i
      · subst hj
        cases hframe with
        | single _ _ _ hfs => exact hfs
        | first _ _ _ _ hfs => exact hfs none (by simp)
        | middle _ _ _ _ _ hfs => exact hfs none (by simp)
        | final _ _ _ _ _ hfs => exact hfs
      · exact (hother j hj).forget
  have hrun : b.receiver.systemReset = false := by simpa using hreset
  have hserved := served_of_harmless hrun hharm hframe
  have hassembly : ∀ j r, r ∈ (b.deliver i (canBusSendOneFrame f)).assembly j →
      r = (recvFrame b.receiver.can.recv (canBusSendOneFrame f)).1 ∧ r.gSegPolo = .first ∧
        (if f.segPolo = .first then some i else b.owner) = some j := by
    intro j r hr
    obtain ⟨⟨hrun', hpolo, hown⟩, rfl⟩ := mem_assembly.mp hr
    rw [deliver, hid] at hown
    exact ⟨step_canFrame_recv hrun', hpolo, hown⟩
  refine ⟨?_, fun j => ?_⟩
  · intro funcId srcId payload he
    rcases step_canFrame_done he rfl with hold | ⟨hfin, hnew⟩
    · exact hintact funcId srcId payload hold
    · obtain ⟨rfl, rfl, rfl⟩ := Event.canDone.inj hnew
      refine ⟨i, m, hm, ?_, ?_, (hserved.done hfin).symm⟩
      · rw [hid, hfunc]
        exact (funcId_and_of_lt m.funcId_lt).symm
      · rw [hid, hsrc]
  · by_cases hj : j = i
    · subst hj
      cases hasm : (b.deliver j (canBusSendOneFrame f)).assembly j with
      | none => exact hserved.rest
      | some r =>
          obtain ⟨rfl, hpolo, hown⟩ := hassembly j r hasm
          refine hserved.own hpolo ?_
          by_cases hfirst : f.segPolo = .first
          · exact Or.inl hfirst
          · rw [if_neg hfirst] at hown
            exact Or.inr hown
    · refine (hother j hj).mono fun r hr => ?_
      obtain ⟨rfl, hpolo, hown⟩ := hassembly j r hr
      have hfirst : f.segPolo ≠ .first := by
        intro hfirst
        rw [if_pos hfirst] at hown
        exact hj (Option.some.inj hown).symm
      rw [if_neg hfirst] at hown
      obtain ⟨hopen, hsame⟩ := hserved.other hpolo hfirst fun h =>
        hj (Option.some.inj (hown.symm.trans h))
      exact ⟨_, mem_assembly.mpr ⟨⟨hrun, hopen, hown⟩, rfl⟩, hsame⟩

/-! ## The run -/

theorem transmit_busInv {b : CanBus ι} (i : ι) (mailboxFree : Bool) (h : BusInv b)
    (hharm : ∀ m ∈ b.taken i mailboxFree, b.Harmless i m) :
    BusInv (b.step (.transmit i mailboxFree)) := by
  unfold taken at hharm
  rcases canSendFrameProcess_cases mailboxFree (b.sender i) with hnone | ⟨f, t, hsome, hf, -⟩
  · have hstep : b.step (.transmit i mailboxFree) = b := by
      simp only [CanBus.step, taken, hnone, Function.update_eq_self]
    rwa [hstep]
  · have hstep : b.step (.transmit i mailboxFree) =
        deliver { b with sender := Function.update b.sender i t } i (canBusSendOneFrame f) := by
      simp only [CanBus.step, taken, hsome]
    rw [hsome] at hharm
    rw [hstep]
    refine deliver_busInv h.intact ?_ (fun j hj => ?_) (hharm _ rfl)
    · show QueueForm (b.passed i) (b.assembly i)
        (f :: (Function.update b.sender i t i).canFrames)
      rw [Function.update_self, ← hf]
      exact h.queued i
    · show QueueForm (b.passed j) (b.assembly j) (Function.update b.sender i t j).canFrames
      rw [Function.update_of_ne hj]
      exact h.queued j

theorem send_busInv {b : CanBus ι} (i : ι) (m : CanMsg) (h : BusInv b)
    (hroom : b.Room (.send i m)) : BusInv (b.step (.send i m)) := by
  refine ⟨?_, fun j => ?_⟩
  · intro funcId srcId payload he
    obtain ⟨j, m', hm', hfacts⟩ := h.intact funcId srcId payload he
    refine ⟨j, m', ?_, hfacts⟩
    show m' ∈ Function.update b.passed i (b.passed i ++ [m]) j
    by_cases hj : j = i
    · subst hj
      rw [Function.update_self]
      exact List.mem_append_left _ hm'
    · rwa [Function.update_of_ne hj]
  · show QueueForm (Function.update b.passed i (b.passed i ++ [m]) j) (b.assembly j)
      (Function.update b.sender i _ j).canFrames
    by_cases hj : j = i
    · subst hj
      have hframes : (canBusSendMsg m.payload m.funcId m.srcId (b.sender j)).canFrames =
          (b.sender j).canFrames ++ m.frames := by
        rw [canBusSendMsg_eq]
        exact RingFifo.contents_addAll_of_room hroom
      rw [Function.update_self, Function.update_self, hframes]
      exact (h.queued j).send m
    · rw [Function.update_of_ne hj, Function.update_of_ne hj]
      exact h.queued j

/-- What else the receiver does leaves its receive state and its messages alone. -/
theorem receiver_busInv {b : CanBus ι} (input : Input) (h : BusInv b)
    (hinput : ¬ input.IsFrame) : BusInv (b.step (.receiver input)) := by
  have htouch := step_touches b.receiver input
  have hdone : .canDone ∉ input.kinds := by
    cases input with
    | canFrame m => exact absurd trivial hinput
    | _ => simp [Input.kinds]
  have hrecv : .recv ∉ input.parts := by
    cases input with
    | canFrame m => exact absurd trivial hinput
    | _ => simp [Input.parts, tickParts, scanParts, datagramParts, paraParts]
  refine ⟨?_, fun j => (h.queued j).mono fun r hr => ?_⟩
  · intro funcId srcId payload he
    exact h.intact funcId srcId payload (mem_canDone_of_touches htouch hdone he rfl)
  · have hsame : (IotCtrl.step b.receiver input).can.recv = b.receiver.can.recv :=
      htouch.keeps.same .recv hrecv
    obtain ⟨⟨hrun, hpolo, hown⟩, rfl⟩ := mem_assembly.mp hr
    have hbefore : b.receiver.systemReset = false := by
      by_contra hreset
      have hstay : IotCtrl.step b.receiver input = b.receiver := if_pos (by simpa using hreset)
      exact hreset ((congrArg Station.systemReset hstay).symm.trans hrun)
    refine ⟨_, mem_assembly.mpr ⟨⟨hbefore, ?_, hown⟩, hsame.symm⟩, fun _ _ _ => id⟩
    rw [← hsame]
    exact hpolo

theorem step_busInv {b : CanBus ι} (x : BusInput ι) (h : BusInv b) (hroom : b.Room x)
    (hharm : b.Undisturbed x) : BusInv (b.step x) := by
  cases x with
  | send i m => exact send_busInv i m h hroom
  | transmit i mailboxFree => exact transmit_busInv i mailboxFree h hharm
  | receiver input => exact receiver_busInv input h hroom

/-- **Reassembly under interleaving.**  In every run in which no frame is lost and no
frame disturbs an assembly, whatever the receiver completes is a message that some
station passed to `can_bus_send_msg`. -/
theorem reassembly_intact {b : CanBus ι}
    (h : Reach Initial step (fun b x => b.Room x ∧ b.Undisturbed x) b) : b.Intact := by
  have hinit : ∀ b : CanBus ι, b.Initial → BusInv b := by
    rintro b ⟨⟨flash, localStation, hrecv⟩, hsend, hpassed, hown⟩
    refine ⟨?_, fun i => ?_⟩
    · intro funcId srcId payload he
      rw [hrecv, boot_trace] at he
      exact absurd he (by simp)
    · obtain ⟨flash, localStation, hi⟩ := hsend i
      have hnone : b.assembly i = none := if_neg fun h => by simp [hown] at h
      have hempty : ∀ m ∈ ([] : List CanMsg), m ∈ b.passed i := by simp
      rw [hnone, hi, boot_canFrames]
      exact QueueForm.whole hempty
  exact (h.invariant hinit fun b x hb hx => step_busInv x hb hx.1 hx.2).intact

end CanBus

/-! ## Two runs -/

/-- The state message of a station with one belt, whose record is ten bytes `x`. -/
def oneBeltStatus (srcId x : U8) : CanMsg :=
  { payload := [13, 0, 1] ++ List.replicate 10 x
    funcId := CAN_FUNC_ID_MODULE_STATUS
    srcId := srcId
    funcId_lt := by decide
    length_le := by simp }

/-- A reset command of the host, which has no bytes. -/
def resetMsg : CanMsg :=
  { payload := []
    funcId := CAN_FUNC_ID_RESET_CMD
    srcId := 1
    funcId_lt := by decide
    length_le := by simp }

/-- Station 4, and the stations 1, 2 and 3 that it hears. -/
def fourStations : CanBus (Fin 3) :=
  { receiver := boot zeroFlash 4
    sender := fun i => boot zeroFlash (BitVec.ofNat 8 (i.val + 1))
    passed := fun _ => []
    owner := none }

theorem fourStations_initial : fourStations.Initial :=
  ⟨⟨_, _, rfl⟩, fun _ => ⟨_, _, rfl⟩, fun _ => rfl, rfl⟩

/-- Two state messages one after the other, and a reset command in the middle of the
first. -/
def politeBus : List (BusInput (Fin 3)) :=
  [.send 1 (oneBeltStatus 2 0xAA), .send 2 (oneBeltStatus 3 0xBB), .send 0 resetMsg,
    .transmit 1 true, .transmit 0 true, .transmit 1 true, .transmit 2 true, .transmit 2 true]

/-- Both first frames, and then the final frame of the first message. -/
def foreignFinal : List (BusInput (Fin 3)) :=
  [.send 1 (oneBeltStatus 2 0xAA), .send 2 (oneBeltStatus 3 0xBB),
    .transmit 1 true, .transmit 2 true, .transmit 1 true]

/-- The run with the reset command in between is intact. -/
theorem polite_bus_intact : (run CanBus.step fourStations politeBus).Intact := by
  have halong : Along CanBus.step (fun b x => b.Room x ∧ b.Undisturbed x)
      fourStations politeBus := by decide +kernel
  exact CanBus.reassembly_intact (reach_run fourStations_initial halong)

/-- The receiver completes a message of station 2 that starts with eight bytes of
station 3. -/
theorem foreign_final_accepted :
    ¬ ∀ b : CanBus (Fin 3), Reach CanBus.Initial CanBus.step CanBus.Room b → b.Intact := by
  intro h
  have halong : Along CanBus.step CanBus.Room fourStations foreignFinal := by decide +kernel
  have hdone : Event.canDone CAN_FUNC_ID_MODULE_STATUS 2
      ([13, 0, 1] ++ List.replicate 5 0xBB ++ List.replicate 5 0xAA) ∈
        (run CanBus.step fourStations foreignFinal).receiver.trace := by decide +kernel
  have hpassed : ∀ i, ∀ m ∈ (run CanBus.step fourStations foreignFinal).passed i,
      m.payload ≠ [13, 0, 1] ++ List.replicate 5 0xBB ++ List.replicate 5 0xAA := by
    decide +kernel
  obtain ⟨i, m, hm, -, -, hpayload⟩ := h _ (reach_run fourStations_initial halong) _ _ _ hdone
  exact hpassed i m hm hpayload

end IotCtrl
