import IotCtrl.ParameterWrite

/-!
# One message on a quiet bus

A station that has queued a message puts its frames on the bus one after the other, and every
other station puts the message together from them and dispatches it with the last frame.  What
the stations do beside it is left open, as long as it is no traffic.

* `Network.Calmly`, `calm_sent` — a step beside the bus, or a frame heard by all other stations;
* `Broadcasting`, `Broadcasting.step` — a message of which some frames are still to be sent, and
  its last frame;
* `Broadcasting.delivers` — a message on the bus can be brought to its last frame;
* `Request.Phase`, `Request.phase_of_trail` — a request of the host and the answer of the station
  that is asked, in any run beside the bus;
* `Request.Phase.ends` — a request can always be brought to its end.
-/

namespace IotCtrl

open ByteMemory Transition ClosedFacts

/-! ## The stations of a network -/

/-- The host, or one of the slaves. -/
inductive Party (ι : Type)
  | host
  | slave (k : ι)
deriving DecidableEq

namespace Network

variable {ι : Type}

/-- A station of the network. -/
def station (net : Network ι) : Party ι → Station
  | .host => net.host
  | .slave k => net.slave k

/-- Station `x` puts the frame on the bus, and all others hear it. -/
structure Sent (x : Party ι) (f : CanFrameExt) (net net' : Network ι) : Prop where
  queue : (net.station x).canFrames = f :: (net'.station x).canFrames
  keeps : Keeps [.canQueue] (net.station x) (net'.station x)
  heard : ∀ y, y ≠ x →
    net'.station y = IotCtrl.step (net.station y) (.canFrame (canBusSendOneFrame f))

/-- The stations have gone through the listed parts only, but for what they have heard and
sent. -/
def Beside (ps : List Part) (net net' : Network ι) : Prop :=
  ∀ y, Keeps (.recv :: .canQueue :: ps) (net.station y) (net'.station y)

theorem Beside.refl (ps : List Part) (net : Network ι) : Beside ps net net := fun _ => Keeps.refl _

theorem Beside.trans {ps : List Part} {net net' net'' : Network ι} (h : Beside ps net net')
    (h' : Beside ps net' net'') : Beside ps net net'' :=
  fun y => (h y).trans (h' y)

variable {net net' : Network ι}

theorem HostSent.sent {f : CanFrameExt} (h : HostSent f net net') : Sent .host f net net' := by
  refine ⟨h.queue, h.keeps, fun y hy => ?_⟩
  cases y with
  | host => exact absurd rfl hy
  | slave k => exact h.slave k

theorem SlaveSent.sent {k : ι} {f : CanFrameExt} (h : SlaveSent k f net net') :
    Sent (.slave k) f net net' := by
  refine ⟨h.queue, h.keeps, fun y hy => ?_⟩
  cases y with
  | host => exact h.host
  | slave j => exact h.slave j fun heq => hy (congrArg Party.slave heq)

variable [DecidableEq ι]

/-- On its own a station goes through the listed parts only. -/
def Calmly (ps : List Part) (net : Network ι) : NetInput ι → Prop
  | .host i => Keeps ps net.host (IotCtrl.step net.host i)
  | .slave k i => Keeps ps (net.slave k) (IotCtrl.step (net.slave k) i)
  | .hostSends _ | .slaveSends _ _ => True

omit [DecidableEq ι] in
theorem quietly_eq : @Network.Quietly ι = Calmly offTrafficParts := by
  funext net i
  cases i <;> rfl

/-- A calm step is no traffic, or one frame. -/
theorem calm_sent {ps : List Part} {i : NetInput ι} (h : net.Calmly ps i) :
    (∀ y, Keeps ps (net.station y) ((net.step i).station y)) ∨
      ∃ x f, Sent x f net (net.step i) := by
  cases i with
  | host i =>
      refine Or.inl fun y => ?_
      cases y with
      | host => exact h
      | slave k => exact Keeps.refl _
  | slave k i =>
      refine Or.inl fun y => ?_
      cases y with
      | host => exact Keeps.refl _
      | slave j =>
          show Keeps ps (net.slave j) ((net.step (.slave k i)).slave j)
          by_cases hj : j = k
          · rw [hj, net.step_slave_self]
            exact h
          · rw [net.step_slave_of_ne hj]
            exact Keeps.refl _
  | hostSends mailboxFree =>
      rcases net.hostSends_cases mailboxFree with ⟨-, hsame⟩ | ⟨f, hsent⟩
      · rw [hsame]
        exact Or.inl fun _ => Keeps.refl _
      · exact Or.inr ⟨_, _, hsent.sent⟩
  | slaveSends k mailboxFree =>
      rcases net.slaveSends_cases k mailboxFree with ⟨-, hsame⟩ | ⟨f, hsent⟩
      · rw [hsame]
        exact Or.inl fun _ => Keeps.refl _
      · exact Or.inr ⟨_, _, hsent.sent⟩

/-- A station with a frame in its queue can send it. -/
theorem can_send {x : Party ι} {f : CanFrameExt} {fs : List CanFrameExt}
    (hrunning : (net.station x).systemReset = false)
    (hqueue : (net.station x).canFrames = f :: fs) :
    ∃ i, (∀ ps, net.Calmly ps i) ∧ Sent x f net (net.step i) := by
  have hfirst : ∀ {g} {net' : Network ι}, Sent x g net net' → Sent x f net net' := by
    intro g net' hsent
    have hhead := hsent.queue
    rw [hqueue] at hhead
    exact (List.cons.inj hhead).1 ▸ hsent
  cases x with
  | host =>
      obtain ⟨g, hsent⟩ := hostSends_sent hrunning hqueue
      exact ⟨.hostSends true, fun _ => trivial, hfirst hsent.sent⟩
  | slave k =>
      obtain ⟨g, hsent⟩ := slaveSends_sent hrunning hqueue
      exact ⟨.slaveSends k true, fun _ => trivial, hfirst hsent.sent⟩

end Network

/-! ## Hearing a frame -/

section Hear

variable {s : Station} {f : CanFrameExt} {msg : List U8}

/-- A frame whose function code passes the bus unchanged. -/
def CanFrameExt.Passes (f : CanFrameExt) : Prop :=
  f.funcId < 16 ∧ f.funcId ≠ CAN_FUNC_ID_BOOT_MODE

theorem decoded_passes (hf : f.Passes) :
    (canDecodeId (canBusSendOneFrame f).extId).funcId = f.funcId ∧
      (canDecodeId (canBusSendOneFrame f).extId).srcId = f.srcId := by
  rw [canDecodeId_canBusSendOneFrame]
  exact ⟨funcId_and_of_lt hf.1, rfl⟩

/-- More frames follow. -/
theorem hears_more {g : CanFrameExt} {rest : List CanFrameExt} (hrunning : s.systemReset = false)
    (hf : f.Passes) (h : Completing s.can.recv (f :: g :: rest) msg) :
    ∃ q, step s (.canFrame (canBusSendOneFrame f)) = setCanRecv q s ∧
      Completing q (g :: rest) msg := by
  obtain ⟨r', hcomp, hmsg⟩ := h
  obtain ⟨hfunc, -⟩ := decoded_passes hf
  have hstep : step s (.canFrame (canBusSendOneFrame f)) =
      canBusFrameReceive (canBusSendOneFrame f) s :=
    if_neg (by rw [hrunning]; exact Bool.false_ne_true)
  cases hcomp with
  | @more _ _ _ q _ hframe hrest =>
      refine ⟨q, ?_, r', hrest, hmsg⟩
      rw [hstep]
      exact canBusFrameReceive_more (by rw [hfunc]; exact hf.2) hframe

/-- The last frame completes the message. -/
theorem hears_last (hrunning : s.systemReset = false) (hf : f.Passes)
    (h : Completing s.can.recv [f] msg) :
    ∃ u, step s (.canFrame (canBusSendOneFrame f)) = (canDispatch f.funcId f.srcId u).val ∧
      Heard msg s u ∧ ∃ r e, u = (setCanRecv r s).log e := by
  obtain ⟨r', hcomp, hlen, hpay⟩ := h
  obtain ⟨hfunc, hsrc⟩ := decoded_passes hf
  have hstep : step s (.canFrame (canBusSendOneFrame f)) =
      canBusFrameReceive (canBusSendOneFrame f) s :=
    if_neg (by rw [hrunning]; exact Bool.false_ne_true)
  have hk : ∀ e, Keeps [.recv, .trace] s ((setCanRecv r' s).log e) :=
    fun e => ⟨rfl, fun p hp => by cases p <;> first | rfl | simp at hp⟩
  cases hcomp with
  | last hframe =>
      have hlast := canBusFrameReceive_last (by rw [hfunc]; exact hf.2) hframe
      rw [hfunc, hsrc] at hlast
      exact ⟨_, hstep.trans hlast, ⟨hk _, hlen, hpay⟩, _, _, rfl⟩
  | more _ hrest => cases hrest

end Hear

/-! ## A message on its way -/

section Broadcast

variable {ι : Type}

/-- Station `x` has the frames `fs` of a message left to send, and nobody else talks. -/
structure Broadcasting (x : Party ι) (funcId no : U8) (msg : List U8) (fs : List CanFrameExt)
    (net : Network ι) : Prop where
  queue : (net.station x).canFrames = fs
  ids : ∀ f ∈ fs, f.funcId = funcId ∧ f.srcId = no
  silent : ∀ y, y ≠ x → (net.station y).canFrames = []
  running : ∀ y, (net.station y).systemReset = false
  hears : ∀ y, y ≠ x → Completing (net.station y).can.recv fs msg

/-- The last frame of a message: every other station dispatches it. -/
structure HeardByAll (x : Party ι) (funcId no : U8) (msg : List U8) (net net' : Network ι) :
    Prop where
  sender : Keeps [.canQueue] (net.station x) (net'.station x)
  sent : (net'.station x).canFrames = []
  silent : ∀ y, y ≠ x → (net.station y).canFrames = []
  running : ∀ y, (net.station y).systemReset = false
  heard : ∀ y, y ≠ x → ∃ u, net'.station y = (canDispatch funcId no u).val ∧
    Heard msg (net.station y) u ∧ ∃ r e, u = (setCanRecv r (net.station y)).log e

/-- Steps that leave the bus alone. -/
structure OffBus (ps : List Part) : Prop where
  canQueue : .canQueue ∉ ps
  recv : .recv ∉ ps
  systemReset : .systemReset ∉ ps

variable {x : Party ι} {funcId no : U8} {msg : List U8} {fs : List CanFrameExt} {ps : List Part}
  {net net' : Network ι}

theorem OffBus.canFrames {s t : Station} (hps : OffBus ps) (h : Keeps ps s t) :
    t.canFrames = s.canFrames :=
  congrArg RingFifo.contents (h.same .canQueue hps.canQueue)

theorem OffBus.running {s t : Station} (hps : OffBus ps)
    (h : Keeps (.recv :: .canQueue :: ps) s t) : t.systemReset = s.systemReset :=
  h.same .systemReset (by simp [hps.systemReset])

/-- What happens off the bus, and what is heard and sent. -/
theorem Keeps.besideOf {s t : Station} (h : Keeps ps s t) :
    Keeps (.recv :: .canQueue :: ps) s t :=
  ⟨h.localStation, fun p hp => h.same p fun hmem => hp (by simp [hmem])⟩

theorem Keeps.besideBus {s t : Station} (h : Keeps [.recv, .canQueue] s t) :
    Keeps (.recv :: .canQueue :: ps) s t :=
  ⟨h.localStation, fun p hp => h.same p fun hmem => hp (by simp at hmem ⊢; tauto)⟩

/-- A message that was queued while all were silent. -/
theorem broadcasting_of_queued (hlen : msg.length ≤ 300)
    (hqueue : (net.station x).canFrames = canFramesOf msg funcId no)
    (hsilent : ∀ y, y ≠ x → (net.station y).canFrames = [])
    (hrunning : ∀ y, (net.station y).systemReset = false) :
    Broadcasting x funcId no msg (canFramesOf msg funcId no) net :=
  ⟨hqueue, fun _ hf => canFramesOf_ids hf, hsilent, hrunning,
    fun _ _ => canFramesOf_completes _ _ _ hlen _⟩

/-- The next frame of the message: more follow, or it is delivered. -/
theorem Broadcasting.sent {f : CanFrameExt} (h : Broadcasting x funcId no msg (f :: fs) net)
    (hpass : funcId < 16 ∧ funcId ≠ CAN_FUNC_ID_BOOT_MODE) (hs : Network.Sent x f net net') :
    (Broadcasting x funcId no msg fs net' ∧ fs ≠ [] ∧ ∀ ps, Network.Beside ps net net') ∨
      (fs = [] ∧ HeardByAll x funcId no msg net net') := by
  have hids := h.ids f List.mem_cons_self
  have hf : f.Passes := by
    unfold CanFrameExt.Passes
    rw [hids.1]
    exact hpass
  have hqueue : (net'.station x).canFrames = fs :=
    (List.cons.inj (hs.queue.symm.trans h.queue)).2
  cases fs with
  | nil =>
      refine Or.inr ⟨rfl, hs.keeps, hqueue, h.silent, h.running, fun y hy => ?_⟩
      obtain ⟨u, hstep, hheard, hu⟩ := hears_last (h.running y) hf (h.hears y hy)
      rw [hids.1, hids.2] at hstep
      exact ⟨u, (hs.heard y hy).trans hstep, hheard, hu⟩
  | cons g rest =>
      have hother : ∀ y, y ≠ x → ∃ q, net'.station y = setCanRecv q (net.station y) ∧
          Completing q (g :: rest) msg := by
        intro y hy
        obtain ⟨q, hstep, hmore⟩ := hears_more (h.running y) hf (h.hears y hy)
        exact ⟨q, (hs.heard y hy).trans hstep, hmore⟩
      have hbus : ∀ y, Keeps [.recv, .canQueue] (net.station y) (net'.station y) := by
        intro y
        by_cases hy : y = x
        · rw [hy]
          exact hs.keeps.mono
        · obtain ⟨q, hstep, -⟩ := hother y hy
          rw [hstep]
          exact (setCanRecv_keeps q _).mono
      refine Or.inl ⟨⟨hqueue, fun e he => h.ids e (List.mem_cons_of_mem f he), fun y hy => ?_,
        fun y => ?_, fun y hy => ?_⟩, List.cons_ne_nil g rest, fun ps y => (hbus y).besideBus⟩
      · obtain ⟨q, hstep, -⟩ := hother y hy
        rw [hstep]
        exact h.silent y hy
      · have hreset : (net'.station y).systemReset = (net.station y).systemReset :=
          (hbus y).same .systemReset (by decide)
        exact hreset.trans (h.running y)
      · obtain ⟨q, hstep, hmore⟩ := hother y hy
        rw [hstep]
        exact hmore

theorem Broadcasting.aside (h : Broadcasting x funcId no msg fs net) (hps : OffBus ps)
    (ha : ∀ y, Keeps ps (net.station y) (net'.station y)) :
    Broadcasting x funcId no msg fs net' ∧ Network.Beside ps net net' := by
  refine ⟨⟨(hps.canFrames (ha x)).trans h.queue, h.ids,
    fun y hy => (hps.canFrames (ha y)).trans (h.silent y hy),
    fun y => (hps.running (ha y).besideOf).trans (h.running y), fun y hy => ?_⟩,
    fun y => (ha y).besideOf⟩
  have hrecv : (net'.station y).can.recv = (net.station y).can.recv :=
    (ha y).same .recv hps.recv
  rw [hrecv]
  exact h.hears y hy

variable [DecidableEq ι]

/-- **One calm step** of a broadcast. -/
theorem Broadcasting.step {i : NetInput ι} (h : Broadcasting x funcId no msg fs net)
    (hpass : funcId < 16 ∧ funcId ≠ CAN_FUNC_ID_BOOT_MODE) (hps : OffBus ps) (hne : fs ≠ [])
    (hcalm : net.Calmly ps i) :
    (∃ fs', fs' ≠ [] ∧ Broadcasting x funcId no msg fs' (net.step i) ∧
        Network.Beside ps net (net.step i)) ∨
      HeardByAll x funcId no msg net (net.step i) := by
  rcases Network.calm_sent hcalm with haside | ⟨y, f, hsent⟩
  · obtain ⟨hnext, hbeside⟩ := h.aside hps haside
    exact Or.inl ⟨fs, hne, hnext, hbeside⟩
  · have hqueue := hsent.queue
    obtain rfl : y = x := by
      by_contra hy
      rw [h.silent y hy] at hqueue
      cases hqueue
    rw [h.queue] at hqueue
    subst hqueue
    rcases h.sent hpass hsent with ⟨hnext, hmore, hbeside⟩ | ⟨-, hdelivered⟩
    · exact Or.inl ⟨_, hmore, hnext, hbeside ps⟩
    · exact Or.inr hdelivered

/-- **A broadcast can be completed.** -/
theorem Broadcasting.delivers (h : Broadcasting x funcId no msg fs net)
    (hpass : funcId < 16 ∧ funcId ≠ CAN_FUNC_ID_BOOT_MODE) (hne : fs ≠ []) (ps : List Part) :
    ∃ js j, Along Network.step (Network.Calmly ps) net (js ++ [j]) ∧
      Network.Beside ps net (Transition.run Network.step net js) ∧
      HeardByAll x funcId no msg (Transition.run Network.step net js)
        (Network.step (Transition.run Network.step net js) j) := by
  induction fs generalizing net with
  | nil => exact absurd rfl hne
  | cons f fs ih =>
      obtain ⟨i, hcalm, hsent⟩ := Network.can_send (h.running x) h.queue
      rcases h.sent hpass hsent with ⟨hnext, hmore, hbeside⟩ | ⟨-, hdelivered⟩
      · obtain ⟨js, j, halong, hbeside', hdelivered⟩ := ih hnext hmore
        exact ⟨i :: js, j, ⟨hcalm ps, halong⟩, (hbeside ps).trans hbeside', hdelivered⟩
      · exact ⟨[], i, ⟨hcalm ps, trivial⟩, Network.Beside.refl ps net, hdelivered⟩

/-- Nobody talks. -/
structure Network.Silent (net : Network ι) : Prop where
  silent : ∀ y, (net.station y).canFrames = []
  running : ∀ y, (net.station y).systemReset = false

/-- A silent network stays silent. -/
theorem Network.Silent.step {i : NetInput ι} (h : net.Silent) (hps : OffBus ps)
    (hcalm : net.Calmly ps i) :
    (net.step i).Silent ∧ ∀ y, Keeps ps (net.station y) ((net.step i).station y) := by
  rcases Network.calm_sent hcalm with haside | ⟨y, f, hsent⟩
  · exact ⟨⟨fun z => (hps.canFrames (haside z)).trans (h.silent z),
      fun z => (hps.running (haside z).besideOf).trans (h.running z)⟩, haside⟩
  · have hqueue := hsent.queue
    rw [h.silent y] at hqueue
    cases hqueue

theorem Network.Silent.reach {start : Network ι} (h : start.Silent) (hps : OffBus ps)
    (hrun : Reach (· = start) Network.step (Network.Calmly ps) net) :
    net.Silent ∧ ∀ y, Keeps ps (start.station y) (net.station y) := by
  induction hrun with
  | start heq =>
      rw [heq]
      exact ⟨h, fun _ => Keeps.refl _⟩
  | next _ hcalm ih =>
      obtain ⟨hsilent, hkeeps⟩ := ih
      obtain ⟨hnext, hstep⟩ := hsilent.step hps hcalm
      exact ⟨hnext, fun y => (hkeeps y).trans (hstep y)⟩

omit [DecidableEq ι] in
theorem Network.Drained.silent {net : Network ι} (h : net.Drained)
    (hhost : net.host.systemReset = false) (hslave : ∀ k, (net.slave k).systemReset = false) :
    net.Silent := by
  refine ⟨fun y => ?_, fun y => ?_⟩
  · cases y with
    | host => exact h.1
    | slave k => exact h.2 k
  · cases y with
    | host => exact hhost
    | slave k => exact hslave k

omit [DecidableEq ι] in
theorem Network.Silent.drained {net : Network ι} (h : net.Silent) : net.Drained :=
  ⟨h.silent .host, fun k => h.silent (.slave k)⟩

end Broadcast

/-! ## A request and its answer -/

section Requests

variable {ι : Type} [DecidableEq ι]

/-- What no step of a station breaks, no step of the network breaks. -/
theorem Network.step_inv {I : Station → Prop} (hI : ∀ s j, I s → I (IotCtrl.step s j))
    (net : Network ι) (i : NetInput ι) {y : Party ι} (h : I (net.station y)) :
    I ((net.step i).station y) := by
  have hheard : ∀ m s, I s → I (hear m s) := by
    intro m s hs
    cases m with
    | none => exact hs
    | some m => exact hI s _ hs
  cases y with
  | host =>
      cases i with
      | host i => exact hI _ _ h
      | slave k i => exact h
      | hostSends mailboxFree => exact hI _ _ h
      | slaveSends k mailboxFree => exact hheard _ _ h
  | slave j =>
      show I ((net.step i).slave j)
      cases i with
      | host i => exact h
      | slave k i =>
          by_cases hj : j = k
          · subst hj
            rw [net.step_slave_self]
            exact hI _ _ h
          · rw [net.step_slave_of_ne hj]
            exact h
      | hostSends mailboxFree => exact hheard _ _ h
      | slaveSends k mailboxFree =>
          by_cases hj : j = k
          · subst hj
            rw [net.step_slaveSends_self]
            exact hI _ _ h
          · rw [net.step_slaveSends_of_ne hj]
            exact hheard _ _ h

theorem Network.reach_inv {I : Station → Prop} (hI : ∀ s j, I s → I (IotCtrl.step s j))
    {start net : Network ι} {ok : Network ι → NetInput ι → Prop}
    (h : Reach (· = start) Network.step ok net) {y : Party ι} (hstart : I (start.station y)) :
    I (net.station y) := by
  induction h with
  | start heq => rwa [heq]
  | next _ _ ih => exact Network.step_inv hI _ _ ih

/-- No step of the network changes a station number. -/
theorem Network.step_number (net : Network ι) (i : NetInput ι) (y : Party ι) :
    ((net.step i).station y).main.localStation = (net.station y).main.localStation :=
  Network.step_inv (I := fun t => t.main.localStation = (net.station y).main.localStation)
    (fun s j hs => (step_touches s j).keeps.localStation.trans hs) net i rfl

theorem Network.reach_number {start net : Network ι} {ok : Network ι → NetInput ι → Prop}
    (h : Reach (· = start) Network.step ok net) (y : Party ι) :
    (net.station y).main.localStation = (start.station y).main.localStation :=
  Network.reach_inv (I := fun t => t.main.localStation = (start.station y).main.localStation)
    (fun s j hs => (step_touches s j).keeps.localStation.trans hs) h rfl

/-- A request of the host and the answer to it.  A station that answers does so with what it
holds when it hears the request. -/
structure Request where
  funcId : U8
  no : U8
  msg : List U8
  replyId : U8
  reply : Station → List U8
  answers : Station → Prop

/-- The stations keep to the request, in any run from `start` that goes through the listed parts
off the bus. -/
structure Request.Served (q : Request) (ps : List Part) (start : Network ι) : Prop where
  offBus : OffBus ps
  passes : q.funcId < 16 ∧ q.funcId ≠ CAN_FUNC_ID_BOOT_MODE
  replyPasses : q.replyId < 16 ∧ q.replyId ≠ CAN_FUNC_ID_BOOT_MODE
  /-- One station answers the request, or none. -/
  heard : ∀ {net net'}, Network.Beside ps start net →
    HeardByAll .host q.funcId q.no q.msg net net' →
      (∃ k fs, fs ≠ [] ∧ q.answers (net.slave k) ∧
        Broadcasting (.slave k) q.replyId q.no (q.reply (net.slave k)) fs net') ∨
      (net'.Silent ∧ ∀ k, ¬ q.answers (net.slave k))
  /-- None answers an answer. -/
  told : ∀ {net net' k t},
    (∀ y, (net.station y).main.localStation = (start.station y).main.localStation) →
    t.main.localStation = (start.slave k).main.localStation → q.answers t →
    HeardByAll (.slave k) q.replyId q.no (q.reply t) net net' → net'.Silent

/-- The step in which all stations have heard the request. -/
structure Request.Asked (q : Request) (ps : List Part) (start : Network ι)
    (e : Network ι × NetInput ι) : Prop where
  beside : Network.Beside ps start e.1
  heard : HeardByAll .host q.funcId q.no q.msg e.1 (e.1.step e.2)

/-- Where a request is, and how many messages are still to be heard at most.  The steps of the run
come latest first. -/
inductive Request.Phase (q : Request) (ps : List Part) (start : Network ι)
    (past : List (Network ι × NetInput ι)) (net : Network ι) : Nat → Prop
  /-- The request is on the bus. -/
  | asked {fs : List CanFrameExt} (more : fs ≠ [])
      (bus : Broadcasting .host q.funcId q.no q.msg fs net)
      (beside : Network.Beside ps start net) : Request.Phase q ps start past net 2
  /-- The answer is. -/
  | answered {fs : List CanFrameExt} {k : ι} {e : Network ι × NetInput ι}
      {before between : List (Network ι × NetInput ι)} (split : past = between ++ e :: before)
      (heard : q.Asked ps start e) (answers : q.answers (e.1.slave k)) (more : fs ≠ [])
      (bus : Broadcasting (.slave k) q.replyId q.no (q.reply (e.1.slave k)) fs net)
      (beside : Network.Beside ps (e.1.step e.2) net) : Request.Phase q ps start past net 1
  /-- All have heard the answer. -/
  | told {k : ι} {e e' : Network ι × NetInput ι}
      {before between behind : List (Network ι × NetInput ι)}
      (split : past = behind ++ e' :: (between ++ e :: before))
      (heard : q.Asked ps start e) (answers : q.answers (e.1.slave k))
      (beside : Network.Beside ps (e.1.step e.2) e'.1)
      (hears : HeardByAll (.slave k) q.replyId q.no (q.reply (e.1.slave k)) e'.1
        (e'.1.step e'.2))
      (silent : net.Silent)
      (since : ∀ y, Keeps ps ((e'.1.step e'.2).station y) (net.station y)) :
      Request.Phase q ps start past net 0
  /-- Nobody answers. -/
  | lost {e : Network ι × NetInput ι} {before behind : List (Network ι × NetInput ι)}
      (split : past = behind ++ e :: before) (heard : q.Asked ps start e)
      (none : ∀ k, ¬ q.answers (e.1.slave k)) (silent : net.Silent)
      (since : ∀ y, Keeps ps ((e.1.step e.2).station y) (net.station y)) :
      Request.Phase q ps start past net 0

namespace Request

variable {q : Request} {ps : List Part} {start net : Network ι}
  {past : List (Network ι × NetInput ι)}

/-- **One step.** -/
theorem Phase.step {n : Nat} {i : NetInput ι} (h : q.Phase ps start past net n)
    (hserved : q.Served ps start)
    (hnumber : ∀ y, (net.station y).main.localStation = (start.station y).main.localStation)
    (hcalm : net.Calmly ps i) :
    ∃ n', n' ≤ n ∧ q.Phase ps start ((net, i) :: past) (net.step i) n' := by
  have hfirst : (net, i) :: past = [] ++ (net, i) :: past := rfl
  have hlater : ∀ {front back : List (Network ι × NetInput ι)}, past = front ++ back →
      (net, i) :: past = ((net, i) :: front) ++ back := fun hsplit => congrArg _ hsplit
  cases h with
  | asked more bus beside =>
      rcases bus.step hserved.passes hserved.offBus more hcalm with
        ⟨fs', hmore, hnext, hbeside⟩ | hheard
      · exact ⟨2, Nat.le_refl 2, .asked hmore hnext (beside.trans hbeside)⟩
      · have hasked : q.Asked ps start (net, i) := ⟨beside, hheard⟩
        rcases hserved.heard beside hheard with ⟨k, fs, hmore, hanswers, hbus⟩ | ⟨hsilent, hnone⟩
        · exact ⟨1, Nat.le_succ 1, .answered hfirst hasked hanswers hmore hbus
            (Network.Beside.refl ps _)⟩
        · exact ⟨0, Nat.zero_le 2, .lost hfirst hasked hnone hsilent fun _ => Keeps.refl _⟩
  | @answered _ k e before between split heard answers more bus beside =>
      rcases bus.step hserved.replyPasses hserved.offBus more hcalm with
        ⟨fs', hmore, hnext, hbeside⟩ | hheard
      · exact ⟨1, Nat.le_refl 1, .answered (hlater split) heard answers hmore hnext
          (beside.trans hbeside)⟩
      · have hsilent := hserved.told hnumber (heard.beside (.slave k)).localStation answers hheard
        have htold : (net, i) :: past = [] ++ (net, i) :: (between ++ e :: before) :=
          congrArg _ split
        exact ⟨0, Nat.zero_le 1, .told htold heard answers beside hheard hsilent
          fun _ => Keeps.refl _⟩
  | @told k e e' before between behind split heard answers beside hears silent since =>
      obtain ⟨hend, hkeeps⟩ := silent.step hserved.offBus hcalm
      exact ⟨0, Nat.le_refl 0, .told (hlater split) heard answers beside hears hend
        fun y => (since y).trans (hkeeps y)⟩
  | @lost e before behind split heard none silent since =>
      obtain ⟨hend, hkeeps⟩ := silent.step hserved.offBus hcalm
      exact ⟨0, Nat.le_refl 0, .lost (hlater split) heard none hend
        fun y => (since y).trans (hkeeps y)⟩

/-- **A run** of a request. -/
theorem phase_of_trail {fs : List CanFrameExt} (hserved : q.Served ps start)
    (hbus : Broadcasting .host q.funcId q.no q.msg fs start) (hmore : fs ≠ [])
    (hrun : Trail (· = start) Network.step (Network.Calmly ps) past net) :
    ∃ n, q.Phase ps start past net n := by
  induction hrun with
  | start h =>
      rw [h]
      exact ⟨2, .asked hmore hbus (Network.Beside.refl ps _)⟩
  | next hbefore hok ih =>
      obtain ⟨n, hphase⟩ := ih
      obtain ⟨n', -, hnext⟩ := hphase.step hserved (Network.reach_number hbefore.reach) hok
      exact ⟨n', hnext⟩

/-- With no frame left the request is over. -/
theorem Phase.over {n : Nat} (h : q.Phase ps start past net n) (hdrained : net.Drained) :
    n = 0 := by
  cases h with
  | asked more bus => exact absurd (bus.queue.symm.trans hdrained.1) more
  | @answered _ k _ _ _ _ _ _ more bus =>
      exact absurd (bus.queue.symm.trans (hdrained.2 k)) more
  | told => rfl
  | lost => rfl

/-- An answer on the bus can be brought to its end. -/
theorem answer_ends {fs : List CanFrameExt} {k : ι} {t : Station} (hserved : q.Served ps start)
    (hnumber : ∀ y, (net.station y).main.localStation = (start.station y).main.localStation)
    (hsame : t.main.localStation = (start.slave k).main.localStation) (hanswers : q.answers t)
    (hbus : Broadcasting (.slave k) q.replyId q.no (q.reply t) fs net) (hmore : fs ≠ []) :
    ∃ xs, Along Network.step (Network.Calmly ps) net xs ∧
      (run Network.step net xs).Drained := by
  obtain ⟨js, j, halong, hbeside, hheard⟩ := hbus.delivers hserved.replyPasses hmore ps
  refine ⟨js ++ [j], halong, ?_⟩
  rw [run_append]
  exact (hserved.told (fun y => (hbeside y).localStation.trans (hnumber y)) hsame hanswers
    hheard).drained

/-- **A request can be brought to its end.** -/
theorem Phase.ends {n : Nat} (h : q.Phase ps start past net n) (hserved : q.Served ps start)
    (hnumber : ∀ y, (net.station y).main.localStation = (start.station y).main.localStation) :
    ∃ xs, Along Network.step (Network.Calmly ps) net xs ∧
      (run Network.step net xs).Drained := by
  cases h with
  | asked more bus beside =>
      obtain ⟨js, j, halong, hbeside, hheard⟩ := bus.delivers hserved.passes more ps
      have hthere := fun y => (hbeside y).localStation.trans (hnumber y)
      rcases hserved.heard (beside.trans hbeside) hheard with
        ⟨k, fs, hmore, hanswers, hbus⟩ | ⟨hsilent, -⟩
      · obtain ⟨xs, halong', hend⟩ := answer_ends hserved
          (fun y => (Network.step_number _ j y).trans (hthere y)) (hthere (.slave k)) hanswers
          hbus hmore
        refine ⟨js ++ [j] ++ xs, halong.append ?_, ?_⟩
        · rw [run_append]
          exact halong'
        · rw [run_append, run_append]
          exact hend
      · refine ⟨js ++ [j], halong, ?_⟩
        rw [run_append]
        exact hsilent.drained
  | @answered _ k _ _ _ _ heard answers more bus =>
      exact answer_ends hserved hnumber (heard.beside (.slave k)).localStation answers bus more
  | told _ _ _ _ _ silent => exact ⟨[], trivial, silent.drained⟩
  | lost _ _ _ silent => exact ⟨[], trivial, silent.drained⟩

end Request

end Requests

end IotCtrl
