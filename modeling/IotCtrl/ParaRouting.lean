import IotCtrl.CanBounds
import IotCtrl.Utterances

/-!
# Which station a write request reaches

A write request carries a 16-bit station number.  The host compares it with its own number; on
the bus the low byte of it is the source field that the slaves compare with theirs.

* `slave_loads` — a slave takes nothing but write requests under its own byte, unless a namesake
  breaks in;
* `HostHears`, `host_hears` — the host takes no block off the bus;
* `Talk`, `Talk.step` — what the stations say and hear in any run;
* `requests_reach_their_station` — a station that was written was asked for, in runs that route
  right;
* `low_byte_written`, `truncated_number_misroutes` — number 258 reaches station 2.
-/

namespace IotCtrl

open ByteMemory Transition ClosedFacts

/-! ## Frames -/

/-- Where a frame stands in its message. -/
inductive Segment (pbuf : List U8) (f : CanFrameExt) : Prop
  | first (hpolo : f.segPolo = .first) (hnum : f.segNum = 0) (hdata : f.data = pbuf.take 8)
  | middle (hpolo : f.segPolo = .middle) (hlen : f.data.length = 8)
  | final (hpolo : f.segPolo = .final) (hlen : 8 * f.segNum.toNat + f.data.length = pbuf.length)

theorem canSegmentsFrom_segment {pbuf : List U8} {funcId srcId : U8} (hshort : pbuf.length ≤ 300)
    {n : Nat} {k : U8} (hn : n = 8 * (k.toNat + 1)) (hlt : n < pbuf.length) {f : CanFrameExt}
    (hf : f ∈ canSegmentsFrom pbuf funcId srcId n k) : Segment pbuf f := by
  have hnext : (k + 1).toNat = k.toNat + 1 := by bv_omega
  fun_induction canSegmentsFrom pbuf funcId srcId n k with
  | case1 n k hmore ih =>
      rcases List.mem_cons.mp hf with rfl | hf
      · refine .middle rfl ?_
        simp
        omega
      · have hnext' : (k + 1 + 1).toNat = (k + 1).toNat + 1 := by bv_omega
        exact ih (by omega) hmore hf hnext'
  | case2 n k hlast =>
      obtain rfl := List.mem_singleton.mp hf
      refine .final rfl ?_
      rw [hnext]
      simp
      omega

/-- The frames of a message that is longer than one frame. -/
theorem canFramesOf_segment {pbuf : List U8} {funcId srcId : U8} (hlong : 8 < pbuf.length)
    (hshort : pbuf.length ≤ 300) {f : CanFrameExt} (hf : f ∈ canFramesOf pbuf funcId srcId) :
    Segment pbuf f := by
  unfold canFramesOf at hf
  rw [if_neg (by omega)] at hf
  rcases List.mem_cons.mp hf with rfl | hf
  · exact .first rfl rfl rfl
  · exact @canSegmentsFrom_segment _ _ _ hshort 8 0 rfl hlong f hf

/-- What the receiver reads in the identifier. -/
theorem canDecodeId_uttered {pbuf : List U8} {funcId srcId : U8} (hlt : funcId < 16)
    {f : CanFrameExt} (hf : f ∈ canFramesOf pbuf funcId srcId) :
    (canDecodeId (canBusSendOneFrame f).extId).funcId = funcId ∧
      (canDecodeId (canBusSendOneFrame f).extId).srcId = srcId := by
  obtain ⟨hfunc, hsrc⟩ := canFramesOf_ids hf
  rw [canDecodeId_canBusSendOneFrame, hfunc, hsrc, funcId_and_of_lt hlt]
  exact ⟨rfl, rfl⟩

/-! ## A slave -/

/-- A read request is no write request. -/
theorem not_holdsBlock_readRequest {f : CanFrameExt} {no : U8}
    (hf : f ∈ canFramesOf (paraMsg 0x01 []) CAN_FUNC_ID_PARA_DATA no) (r : CanRecv) :
    ¬ HoldsBlock (recvFrame r (canBusSendOneFrame f)).1 := by
  obtain rfl := List.mem_singleton.mp hf
  rw [recvFrame_eq]
  rintro ⟨-, hcmd⟩
  have hread : write r.canRecvBuff 0 (paraMsg 0x01 []) (0 + 2) = (paraMsg 0x01 [])[2] :=
    write_getElem _ _ 0 (by decide)
  exact absurd (hread.symm.trans hcmd) (by decide)

/-- **What a slave takes.**  A slave loads parameters only from a write request under its
number. -/
theorem slave_loads {sender : U8} {asked : UserParas → Prop} {f : CanFrameExt} {s : Station}
    (hslave : s.isHost = false) (hf : Uttered sender asked f)
    (hother : sender ≠ s.main.localStation) (h : Loads (s, .canFrame (canBusSendOneFrame f))) :
    ∃ p, asked p ∧ lo p.stationNo = s.main.localStation := by
  obtain ⟨-, -, ⟨hfunc, hmine⟩, hblock⟩ := h
  have hsrc : (canDecodeId (canBusSendOneFrame f).extId).srcId = s.main.localStation :=
    hmine.resolve_right (by simp [hslave])
  obtain ⟨pbuf, funcId, srcId, hmsg, hf⟩ := hf
  cases hmsg with
  | notice _ hhost hlt hpara => exact absurd ((canDecodeId_uttered hlt hf).1.symm.trans hfunc) hpara
  | status body num hn hbody =>
      have hcode := (canDecodeId_uttered (by decide) hf).1.symm.trans hfunc
      exact absurd hcode (by decide)
  | readRequest _ hhost => exact absurd hblock (not_holdsBlock_readRequest hf _)
  | writeRequest p hhost hasked =>
      exact ⟨p, hasked, (canDecodeId_uttered (by decide) hf).2.symm.trans hsrc⟩
  | reply hcmd p => exact absurd ((canDecodeId_uttered (by decide) hf).2.symm.trans hsrc) hother

/-! ## The host -/

/-- What the host may hear: a message in segments, whose first frame starts no write request,
and whose last frame completes 235 bytes if it is a parameter message. -/
structure FromSlave (f : CanFrameExt) : Prop where
  segments : f.segPolo ≠ .none
  first : f.segPolo = .first →
    f.segNum = 0 ∧ f.data.length = 8 ∧ (f.data[0]? = some 235 → f.data[2]? ≠ some 0x02)
  middle : f.segPolo = .middle → f.data.length = 8
  final : f.segPolo = .final → f.funcId = CAN_FUNC_ID_PARA_DATA →
    8 * f.segNum.toNat + f.data.length = 235

theorem fromSlave_of_segment {pbuf : List U8} {f : CanFrameExt} (hlong : 8 < pbuf.length)
    (hhead : pbuf[0]? = some 235 → pbuf[2]? ≠ some 0x02)
    (htotal : f.funcId = CAN_FUNC_ID_PARA_DATA → pbuf.length = 235) (h : Segment pbuf f) :
    FromSlave f := by
  cases h with
  | first hpolo hnum hdata =>
      have hget : ∀ i, i < 8 → f.data[i]? = pbuf[i]? := by
        intro i hi
        rw [hdata, List.getElem?_take_of_lt hi]
      refine ⟨by simp [hpolo], fun _ => ⟨hnum, ?_, ?_⟩, by simp [hpolo], by simp [hpolo]⟩
      · rw [hdata, List.length_take]
        omega
      · rw [hget 0 (by decide), hget 2 (by decide)]
        exact hhead
  | middle hpolo hlen => exact ⟨by simp [hpolo], by simp [hpolo], fun _ => hlen, by simp [hpolo]⟩
  | final hpolo hlen =>
      exact ⟨by simp [hpolo], by simp [hpolo], by simp [hpolo],
        fun _ hpara => hlen.trans (htotal hpara)⟩

/-- The frames of a slave. -/
theorem Uttered.fromSlave {sender : U8} {asked : UserParas → Prop} {f : CanFrameExt}
    (hf : Uttered sender asked f) (hslave : sender ≠ 1) : FromSlave f := by
  obtain ⟨pbuf, funcId, srcId, hmsg, hf⟩ := hf
  have hfunc := (canFramesOf_ids hf).1
  cases hmsg with
  | notice _ hhost => exact absurd hhost hslave
  | readRequest _ hhost => exact absurd hhost hslave
  | writeRequest p hhost => exact absurd hhost hslave
  | @status n body num hn hbody =>
      have hpara : CAN_FUNC_ID_MODULE_STATUS ≠ CAN_FUNC_ID_PARA_DATA := by decide
      refine fromSlave_of_segment ?_ (fun hhead => ?_) (fun h => absurd (hfunc.symm.trans h) hpara)
        (canFramesOf_segment ?_ ?_ hf)
      · simp
        omega
      · have hlen : lo (BitVec.ofNat 16 (3 + body.length)) = (235 : U8) := Option.some.inj hhead
        have hnat := congrArg BitVec.toNat hlen
        simp [lo] at hnat
        omega
      · simp
        omega
      · simp
        omega
  | @reply cmd hcmd p =>
      have hlen := length_blockMsg cmd p
      refine fromSlave_of_segment (by omega) (fun _ hhead => hcmd ?_) (fun _ => hlen)
        (canFramesOf_segment (by omega) (by omega) hf)
      exact Option.some.inj hhead

/-- What the host has in its buffer while a message is open. -/
def HostHears (r : CanRecv) : Prop :=
  r.gSegPolo = .first →
    r.gSegBytes = 8 * (r.gSegNum + 1) ∧ (r.canRecvBuff 0 = 235 → r.canRecvBuff 2 ≠ 0x02)

theorem write_getElem?_zero {data : List U8} {i : Nat} {b : U8} (m : Mem) (hi : i < data.length)
    (h : write m 0 data i = b) : data[i]? = some b := by
  have hget := write_getElem m data 0 hi
  rw [Nat.zero_add, h] at hget
  rw [List.getElem?_eq_getElem hi, hget]

/-- **What the host hears.**  The buffer never holds a complete write request. -/
theorem host_hears {r : CanRecv} {f : CanFrameExt} (h : HostHears r) (hf : FromSlave f) :
    HostHears (recvFrame r (canBusSendOneFrame f)).1 ∧
      ((recvFrame r (canBusSendOneFrame f)).2 = true → f.funcId = CAN_FUNC_ID_PARA_DATA →
        ¬ HoldsBlock (recvFrame r (canBusSendOneFrame f)).1) := by
  rw [recvFrame_eq]
  unfold canReassemble
  cases hpolo : f.segPolo with
  | none => exact absurd hpolo hf.segments
  | first =>
      obtain ⟨hnum, hlen, hhead⟩ := hf.first hpolo
      dsimp only
      refine ⟨fun _ => ⟨?_, fun h0 h2 => ?_⟩, nofun⟩
      · rw [hnum, hlen]
        rfl
      · exact hhead (write_getElem?_zero _ (by omega) h0) (write_getElem?_zero _ (by omega) h2)
  | middle =>
      have hlen := hf.middle hpolo
      dsimp only
      split_ifs with hcont
      · obtain ⟨hopen, -, -⟩ := hcont
        obtain ⟨hbytes, hhead⟩ := h hopen
        dsimp only
        refine ⟨fun _ => ⟨?_, fun h0 h2 => ?_⟩, nofun⟩
        · rw [hbytes, hlen]
          exact (Nat.mul_succ 8 (r.gSegNum + 1)).symm
        · dsimp only at h0 h2
          rw [write_of_lt _ _ (by omega)] at h0 h2
          exact hhead h0 h2
      · exact ⟨h, nofun⟩
  | final =>
      dsimp only
      split_ifs with hcont
      · obtain ⟨hopen, hnum, -⟩ := hcont
        obtain ⟨hbytes, hhead⟩ := h hopen
        have hnext : f.segNum.toNat = r.gSegNum + 1 := hnum
        refine ⟨nofun, fun _ hpara => ?_⟩
        rintro ⟨hlen, hcmd⟩
        have htotal := hf.final hpolo hpara
        rw [canDataLen_toNat] at hlen
        dsimp only at hlen hcmd
        rw [write_of_lt _ _ (by omega)] at hlen hcmd
        refine hhead (BitVec.eq_of_toNat_eq ?_) hcmd
        rw [hlen]
        show r.gSegBytes + f.data.length = 235
        omega
      · exact ⟨h, nofun⟩

theorem Uttered.funcId_lt {sender : U8} {asked : UserParas → Prop} {f : CanFrameExt}
    (hf : Uttered sender asked f) : f.funcId < 16 := by
  obtain ⟨pbuf, funcId, srcId, hmsg, hf⟩ := hf
  rw [(canFramesOf_ids hf).1]
  cases hmsg with
  | notice _ hhost hlt => exact hlt
  | status | readRequest | writeRequest | reply => decide

theorem decoded_funcId {f : CanFrameExt} (hlt : f.funcId < 16) :
    (canDecodeId (canBusSendOneFrame f).extId).funcId = f.funcId := by
  rw [canDecodeId_canBusSendOneFrame]
  exact funcId_and_of_lt hlt

/-- The host loads nothing that a slave says. -/
theorem host_not_loads {sender : U8} {asked : UserParas → Prop} {f : CanFrameExt} {s : Station}
    (hf : Uttered sender asked f) (hslave : sender ≠ 1) (hears : HostHears s.can.recv) :
    ¬ Loads (s, .canFrame (canBusSendOneFrame f)) := by
  rintro ⟨-, hfinish, ⟨hfunc, -⟩, hblock⟩
  rw [decoded_funcId hf.funcId_lt] at hfunc
  exact (host_hears hears (hf.fromSlave hslave)).2 hfinish hfunc hblock

theorem step_canFrame_recv_cases (s : Station) (m : CanRxMsg) :
    (step s (.canFrame m)).can.recv = s.can.recv ∨
      (step s (.canFrame m)).can.recv = (recvFrame s.can.recv m).1 := by
  rcases step_cases s (.canFrame m) with hstep | hstep
  · exact Or.inl (by rw [hstep])
  rw [hstep]
  show (canBusFrameReceive m s).can.recv = _ ∨ (canBusFrameReceive m s).can.recv = _
  unfold canBusFrameReceive
  dsimp only
  split_ifs
  · exact Or.inl rfl
  · exact Or.inr ((canDispatch_touches _ _ _).keeps.same .recv (by decide))
  · exact Or.inr rfl

/-- What the host has in its buffer behind a frame of a slave. -/
theorem hear_hostHears {f : CanFrameExt} {s : Station} (hf : FromSlave f)
    (hears : HostHears s.can.recv) :
    HostHears (step s (.canFrame (canBusSendOneFrame f))).can.recv := by
  rcases step_canFrame_recv_cases s (canBusSendOneFrame f) with hsame | hrecv
  · rw [hsame]
    exact hears
  · rw [hrecv]
    exact (host_hears hears hf).1

/-! ## Stations -/

/-- The parameters in use and the parameter page are the same. -/
def Kept (s t : Station) : Prop :=
  t.logic.userParasLocal = s.logic.userParasLocal ∧ t.flash.userPara = s.flash.userPara

theorem Kept.refl (s : Station) : Kept s s := ⟨rfl, rfl⟩

theorem Kept.trans {s t u : Station} (h : Kept s t) (h' : Kept t u) : Kept s u :=
  ⟨h'.1.trans h.1, h'.2.trans h.2⟩

theorem kept_of_not_loads {s : Station} {i : Input} (h : ¬ Loads (s, i)) : Kept s (step s i) := by
  have hstored := step_stored s i
  generalize hst : (step s i).stored = st at hstored
  have hparas : (step s i).logic.userParasLocal = st.paras := congrArg Stored.paras hst
  have hpage : (step s i).flash.userPara = st.page := congrArg Stored.page hst
  unfold Kept
  rw [hparas, hpage]
  cases hstored with
  | load para t hstation hload => exact absurd hload h
  | speed hspeed =>
      obtain ⟨speeds, heq⟩ := rememberStopSpeed_eq s
      rw [heq]
      exact ⟨rfl, rfl⟩
  | other hload hspeed => exact ⟨rfl, rfl⟩

theorem not_loads_canSend (s : Station) (mailboxFree : Bool) :
    ¬ Loads (s, .canSend mailboxFree) := by
  rintro ⟨p, hp, -⟩
  cases hp

/-- On its own a station loads a block that was requested under its number. -/
theorem loads_own {s : Station} {i : Input} (hown : i.Own) (h : Loads (s, i)) :
    ∃ p ∈ writeRequested s i, p.stationNo = s.main.localStation.setWidth 16 := by
  cases i with
  | canFrame m => exact absurd hown id
  | _ => exact h

/-- A station with number `no`, whose frames that wait are its messages. -/
structure Speaker (no : U8) (asked : UserParas → Prop) (s : Station) : Prop where
  station : s.main.localStation = no
  named : Named s
  queue : ∀ f ∈ s.canFrames, Uttered no asked f

namespace Speaker

variable {no : U8} {asked asked' : UserParas → Prop} {s : Station}

theorem mono (h : Speaker no asked s) (hasked : ∀ p, asked p → asked' p) : Speaker no asked' s :=
  ⟨h.station, h.named, fun f hf => (h.queue f hf).mono hasked⟩

theorem isHost (h : Speaker no asked s) : s.isHost = (no == 1) := by
  unfold Station.isHost
  rw [h.station]

theorem own (h : Speaker no asked s) {i : Input} (hown : i.Own)
    (hrequest : ∀ p ∈ writeRequested s i, asked p) : Speaker no asked (step s i) := by
  have hsays : Says asked s (step s i) := by
    obtain ⟨hstation, fs, hqueue, hfs⟩ := @step_uttered s i hown
    exact ⟨hstation, fs, hqueue, fun f hf => (hfs f hf).mono hrequest⟩
  exact ⟨(step_localStation s i).trans h.station, step_named h.named i,
    hsays.canFrames h.station h.queue⟩

theorem hear (h : Speaker no asked s) (m : CanRxMsg) : Speaker no asked (step s (.canFrame m)) :=
  ⟨(step_localStation s _).trans h.station, step_named h.named _,
    (hear_uttered m h.named).canFrames h.station h.queue⟩

theorem heard (h : Speaker no asked s) (m : Option CanRxMsg) :
    Speaker no asked (IotCtrl.hear m s) := by
  cases m with
  | none => exact h
  | some m => exact h.hear m

/-- The frame that leaves the queue is one of its messages. -/
theorem sends (h : Speaker no asked s) (mailboxFree : Bool) :
    Speaker no asked (step s (.canSend mailboxFree)) ∧
      ∀ m ∈ sentFrame mailboxFree s, ∃ f, m = canBusSendOneFrame f ∧ Uttered no asked f ∧
        f ∈ s.canFrames.head? := by
  rcases sentFrame_cases mailboxFree s with ⟨hnone, hstep⟩ | ⟨f, hsome, hqueue, hk⟩
  · rw [hstep, hnone]
    exact ⟨h, nofun⟩
  · have hmem : ∀ g ∈ (step s (.canSend mailboxFree)).canFrames, g ∈ s.canFrames := by
      intro g hg
      rw [hqueue]
      exact List.mem_cons_of_mem _ hg
    refine ⟨⟨hk.localStation.trans h.station, step_named h.named _,
        fun g hg => h.queue g (hmem g hg)⟩,
      fun m hm => ⟨f, ?_, h.queue f ?_, ?_⟩⟩
    · exact (Option.some.inj (hsome.symm.trans hm)).symm
    · rw [hqueue]
      exact List.mem_cons_self
    · rw [hqueue]
      rfl

end Speaker

/-! ## An open message -/

/-- A message that is open has its head in the buffer. -/
def OpenLong (r : CanRecv) : Prop := r.gSegPolo = .first → 3 ≤ r.gSegBytes

/-- A first frame is full. -/
theorem canFramesOf_first {pbuf : List U8} {funcId srcId : U8} {f : CanFrameExt}
    (hf : f ∈ canFramesOf pbuf funcId srcId) (hpolo : f.segPolo = .first) : f.data.length = 8 := by
  have hrest : ∀ (n : Nat) (k : U8), ∀ g ∈ canSegmentsFrom pbuf funcId srcId n k,
      g.segPolo ≠ .first := by
    intro n k g hg
    fun_induction canSegmentsFrom pbuf funcId srcId n k with
    | case1 n k hmore ih =>
        rcases List.mem_cons.mp hg with rfl | hg
        · intro hfirst
          cases hfirst
        · exact ih hg
    | case2 n k hlast =>
        obtain rfl := List.mem_singleton.mp hg
        intro hfirst
        cases hfirst
  unfold canFramesOf at hf
  split_ifs at hf with hshort
  · obtain rfl := List.mem_singleton.mp hf
    cases hpolo
  · rcases List.mem_cons.mp hf with rfl | hf
    · rw [List.length_take]
      omega
    · exact absurd hpolo (hrest _ _ f hf)

theorem recvFrame_openLong {r : CanRecv} {f : CanFrameExt} (h : OpenLong r)
    (hfirst : f.segPolo = .first → f.data.length = 8) :
    OpenLong (recvFrame r (canBusSendOneFrame f)).1 := by
  rw [recvFrame_eq]
  unfold canReassemble
  cases hpolo : f.segPolo with
  | none => exact h
  | first =>
      intro _
      dsimp only
      rw [hfirst hpolo]
      decide
  | middle =>
      dsimp only
      split_ifs with hcont
      · exact fun _ => Nat.le_trans (h hcont.1) (Nat.le_add_right _ _)
      · exact h
  | final =>
      dsimp only
      split_ifs
      · exact nofun
      · exact h

/-- The station is in the middle of a write request. -/
def MidWrite (s : Station) : Prop := s.can.recv.gSegPolo = .first ∧ s.can.recv.canRecvBuff 2 = 0x02

instance (s : Station) : Decidable (MidWrite s) := inferInstanceAs (Decidable (_ ∧ _))

/-- A frame of a slave completes a write request only where one is open. -/
theorem midWrite_of_loads {sender : U8} {asked : UserParas → Prop} {f : CanFrameExt} {s : Station}
    (hf : Uttered sender asked f) (hslave : sender ≠ 1) (hopen : OpenLong s.can.recv)
    (h : Loads (s, .canFrame (canBusSendOneFrame f))) :
    f.funcId = CAN_FUNC_ID_PARA_DATA ∧ MidWrite s := by
  obtain ⟨-, hfinish, ⟨hfunc, -⟩, hblock⟩ := h
  rw [decoded_funcId hf.funcId_lt] at hfunc
  refine ⟨hfunc, ?_⟩
  rw [recvFrame_eq] at hfinish hblock
  unfold canReassemble at hfinish hblock
  cases hpolo : f.segPolo with
  | none => exact absurd hpolo (hf.fromSlave hslave).segments
  | first =>
      rw [hpolo] at hfinish
      exact absurd hfinish Bool.false_ne_true
  | middle =>
      rw [hpolo] at hfinish
      dsimp only at hfinish
      split_ifs at hfinish
  | final =>
      rw [hpolo] at hfinish hblock
      dsimp only at hfinish hblock
      split_ifs at hfinish hblock with hcont
      · obtain ⟨-, hcmd⟩ := hblock
        dsimp only at hcmd
        rw [write_of_lt _ _ (hopen hcont.1)] at hcmd
        exact ⟨hcont.1, hcmd⟩

theorem Uttered.first {no : U8} {asked : UserParas → Prop} {f : CanFrameExt}
    (hf : Uttered no asked f) (hpolo : f.segPolo = .first) : f.data.length = 8 := by
  obtain ⟨pbuf, funcId, srcId, -, hf⟩ := hf
  exact canFramesOf_first hf hpolo

/-- Only frames that come in change what is received. -/
theorem step_recv (s : Station) {i : Input} (hi : ∀ m, i ≠ .canFrame m) :
    (step s i).can.recv = s.can.recv := by
  refine (step_touches s i).keeps.same .recv ?_
  cases i with
  | canFrame m => exact absurd rfl (hi m)
  | _ => exact Evident.out

theorem Input.Own.not_canFrame {i : Input} (h : i.Own) (m : CanRxMsg) : i ≠ .canFrame m := by
  rintro rfl
  exact h

theorem hear_openLong {no : U8} {asked : UserParas → Prop} {m : Option CanRxMsg} {s : Station}
    (h : OpenLong s.can.recv)
    (hm : ∀ x ∈ m, ∃ f, x = canBusSendOneFrame f ∧ Uttered no asked f) :
    OpenLong (hear m s).can.recv := by
  cases m with
  | none => exact h
  | some x =>
      obtain ⟨f, rfl, hf⟩ := hm x rfl
      have hstep : hear (some (canBusSendOneFrame f)) s =
          step s (.canFrame (canBusSendOneFrame f)) := rfl
      rw [hstep]
      rcases step_canFrame_recv_cases s (canBusSendOneFrame f) with hsame | hrecv
      · rw [hsame]
        exact h
      · rw [hrecv]
        exact recvFrame_openLong h hf.first

/-! ## The network -/

section Networks

variable {ι : Type}

/-- The write request that the host handles in a step. -/
def Network.requested (net : Network ι) : NetInput ι → Option UserParas
  | .host i => writeRequested net.host i
  | _ => none

/-- A request that the host handles names no number of which a slave has the low byte only, and
no slave sends a parameter message while another one with its number is in the middle of a write
request. -/
def Network.RoutesRight (net : Network ι) : NetInput ι → Prop
  | .host i => ∀ p ∈ writeRequested net.host i, ∀ k,
      lo p.stationNo = (net.slave k).main.localStation →
        p.stationNo = (net.slave k).main.localStation.setWidth 16
  | .slaveSends k _ => ∀ f ∈ (net.slave k).canFrames.head?, f.funcId = CAN_FUNC_ID_PARA_DATA →
      ∀ j, j ≠ k → (net.slave j).main.localStation = (net.slave k).main.localStation →
        ¬ MidWrite (net.slave j)
  | _ => True

/-- The block was asked for in one of the steps. -/
def Asked (past : List (Network ι × NetInput ι)) (p : UserParas) : Prop :=
  ∃ e ∈ past, p ∈ e.1.requested e.2

/-- A block for station `no` was. -/
def AskedFor (no : U8) (past : List (Network ι × NetInput ι)) : Prop :=
  ∃ p, Asked past p ∧ p.stationNo = no.setWidth 16

theorem Asked.later {past : List (Network ι × NetInput ι)} {p : UserParas} (h : Asked past p)
    (e : Network ι × NetInput ι) : Asked (e :: past) p := by
  obtain ⟨e', he, hp⟩ := h
  exact ⟨e', List.mem_cons_of_mem _ he, hp⟩

theorem AskedFor.later {no : U8} {past : List (Network ι × NetInput ι)} (h : AskedFor no past)
    (e : Network ι × NetInput ι) : AskedFor no (e :: past) := by
  obtain ⟨p, hp, hno⟩ := h
  exact ⟨p, hp.later e, hno⟩

/-- What the stations say and hear; `no` are the numbers of the slaves. -/
structure Talk (no : ι → U8) (asked : UserParas → Prop) (net : Network ι) : Prop where
  host : Speaker 1 asked net.host
  slave : ∀ k, Speaker (no k) asked (net.slave k)
  number : ∀ k, no k ≠ 1
  hears : HostHears net.host.can.recv
  opens : ∀ k, OpenLong (net.slave k).can.recv

variable {no : ι → U8} {asked asked' : UserParas → Prop} {net : Network ι}

theorem Talk.slave_isHost (h : Talk no asked net) (k : ι) : (net.slave k).isHost = false := by
  rw [(h.slave k).isHost]
  exact beq_eq_false_iff_ne.mpr (h.number k)

theorem Talk.mono (h : Talk no asked net) (hasked : ∀ p, asked p → asked' p) :
    Talk no asked' net :=
  ⟨h.host.mono hasked, fun k => (h.slave k).mono hasked, h.number, h.hears, h.opens⟩

/-- What leaves a queue, without its place in it. -/
theorem Speaker.sent {no : U8} {s : Station} (h : Speaker no asked s) (mailboxFree : Bool) :
    ∀ m ∈ sentFrame mailboxFree s, ∃ f, m = canBusSendOneFrame f ∧ Uttered no asked f := by
  intro m hm
  obtain ⟨f, hf, huttered, -⟩ := (h.sends mailboxFree).2 m hm
  exact ⟨f, hf, huttered⟩

theorem boot_closed (flash : Flash) (localStation : U8) :
    (boot flash localStation).can.recv.gSegPolo = .none := by
  have hrecv : (boot flash localStation).can.recv =
      (Station.cleared flash localStation).can.recv :=
    (readUserParas_keeps _).same .recv (by decide)
  rw [hrecv]
  rfl

/-- A booted station has said nothing. -/
theorem boot_speaker (asked : UserParas → Prop) (flash : Flash) (localStation : U8) :
    Speaker localStation asked (boot flash localStation) := by
  refine ⟨boot_localStation _ _, boot_named _ _, fun f hf => ?_⟩
  rw [boot_canFrames] at hf
  cases hf

theorem talk_initial (h : net.Initial) :
    ∃ no, Talk no (fun _ => True) net := by
  obtain ⟨⟨⟨flash, number, hhost⟩, hone⟩, hslaves⟩ := h
  refine ⟨fun k => (net.slave k).main.localStation, ?_, fun k => ?_, fun k hk => ?_, ?_,
    fun k => ?_⟩
  · have hnumber : number = 1 := by
      rw [hhost] at hone
      exact (boot_localStation flash number).symm.trans (localStation_of_isHost hone)
    rw [hhost, hnumber]
    exact boot_speaker _ _ _
  · obtain ⟨⟨flash, number, hslave⟩, -⟩ := hslaves k
    rw [hslave, boot_localStation]
    exact boot_speaker _ _ _
  · have hhost : (net.slave k).isHost = true := beq_iff_eq.mpr hk
    rw [(hslaves k).2] at hhost
    cases hhost
  · intro hopen
    rw [hhost, boot_closed] at hopen
    cases hopen
  · intro hopen
    obtain ⟨⟨flash, number, hslave⟩, -⟩ := hslaves k
    rw [hslave, boot_closed] at hopen
    cases hopen

/-- With nothing on its way nobody has been asked yet. -/
theorem Talk.of_drained (h : Talk no asked net) (hdrained : net.Drained)
    (asked' : UserParas → Prop) :
    Talk (fun k => (net.slave k).main.localStation) asked' net := by
  refine ⟨⟨h.host.station, h.host.named, fun f hf => ?_⟩,
    fun k => ⟨rfl, (h.slave k).named, fun f hf => ?_⟩, fun k => ?_, h.hears, h.opens⟩
  · rw [hdrained.1] at hf
    cases hf
  · rw [hdrained.2 k] at hf
    cases hf
  · rw [(h.slave k).station]
    exact h.number k

variable [DecidableEq ι]

/-- **One step.** -/
theorem Talk.step {x : NetInput ι} (h : Talk no asked net)
    (hrequest : ∀ p ∈ net.requested x, asked p) : Talk no asked (net.step x) := by
  cases x with
  | host i =>
      refine ⟨h.host.own i.2 hrequest, h.slave, h.number, ?_, h.opens⟩
      have hrecv : (net.step (.host i)).host.can.recv = net.host.can.recv :=
        step_recv net.host i.2.not_canFrame
      rw [hrecv]
      exact h.hears
  | slave k i =>
      have hnone : ∀ p ∈ writeRequested (net.slave k) i, asked p := by
        intro p hp
        have hhost := (writeRequested_host hp).2
        rw [h.slave_isHost k] at hhost
        cases hhost
      refine ⟨h.host, fun j => ?_, h.number, h.hears, fun j => ?_⟩
      · by_cases hj : j = k
        · rw [hj, net.step_slave_self]
          exact (h.slave k).own i.2 hnone
        · rw [net.step_slave_of_ne hj]
          exact h.slave j
      · by_cases hj : j = k
        · rw [hj, net.step_slave_self, step_recv _ i.2.not_canFrame]
          exact h.opens k
        · rw [net.step_slave_of_ne hj]
          exact h.opens j
  | hostSends mailboxFree =>
      refine ⟨(h.host.sends mailboxFree).1, fun j => (h.slave j).heard _, h.number, ?_,
        fun j => hear_openLong (h.opens j) (h.host.sent mailboxFree)⟩
      have hrecv : (net.step (.hostSends mailboxFree)).host.can.recv = net.host.can.recv :=
        step_recv net.host nofun
      rw [hrecv]
      exact h.hears
  | slaveSends k mailboxFree =>
      have hsent := (h.slave k).sent mailboxFree
      refine ⟨?_, fun j => ?_, h.number, ?_, fun j => ?_⟩
      · rw [net.step_slaveSends_host]
        exact h.host.heard _
      · by_cases hj : j = k
        · rw [hj, net.step_slaveSends_self]
          exact ((h.slave k).sends mailboxFree).1
        · rw [net.step_slaveSends_of_ne hj]
          exact (h.slave j).heard _
      · rw [net.step_slaveSends_host]
        cases hm : sentFrame mailboxFree (net.slave k) with
        | none => exact h.hears
        | some m =>
            obtain ⟨f, rfl, hf⟩ := hsent m hm
            exact hear_hostHears (hf.fromSlave (h.number k)) h.hears
      · by_cases hj : j = k
        · have hrecv : (IotCtrl.step (net.slave k) (.canSend mailboxFree)).can.recv =
              (net.slave k).can.recv := step_recv _ nofun
          rw [hj, net.step_slaveSends_self, hrecv]
          exact h.opens k
        · rw [net.step_slaveSends_of_ne hj]
          exact hear_openLong (h.opens j) hsent

/-! ## Runs -/

/-- What the stations say and hear in any run. -/
theorem talk_reach {ok : Network ι → NetInput ι → Prop}
    (h : Reach Network.Initial Network.step ok net) : ∃ no, Talk no (fun _ => True) net := by
  refine h.invariant (fun s hs => talk_initial hs) fun s x hs _ => ?_
  obtain ⟨no, htalk⟩ := hs
  exact ⟨no, htalk.step fun _ _ => trivial⟩

/-- **The host in one step.**  It is written by a datagram for its own number, and by nothing
that it hears. -/
theorem Talk.host_kept (h : Talk no asked net) (x : NetInput ι) :
    Kept net.host (net.step x).host ∨
      ∃ p ∈ net.requested x, p.stationNo = net.host.main.localStation.setWidth 16 := by
  cases x with
  | host i =>
      by_cases hload : Loads (net.host, i.val)
      · exact Or.inr (loads_own i.property hload)
      · exact Or.inl (kept_of_not_loads hload)
  | slave k i => exact Or.inl (Kept.refl _)
  | hostSends mailboxFree =>
      exact Or.inl (kept_of_not_loads (not_loads_canSend net.host mailboxFree))
  | slaveSends k mailboxFree =>
      refine Or.inl ?_
      rw [net.step_slaveSends_host]
      cases hm : sentFrame mailboxFree (net.slave k) with
      | none => exact Kept.refl _
      | some m =>
          obtain ⟨f, rfl, hf⟩ := (h.slave k).sent mailboxFree m hm
          exact kept_of_not_loads (host_not_loads hf (h.number k) h.hears)

/-- **A slave in one step.**  It is written by a request under its low byte that was asked for,
and by nothing else as long as no other station of its number breaks in. -/
theorem Talk.slave_kept (h : Talk no asked net) {x : NetInput ι} (hright : net.RoutesRight x)
    (j : ι) : Kept (net.slave j) ((net.step x).slave j) ∨ ∃ p, asked p ∧ lo p.stationNo = no j := by
  have hstation := (h.slave j).station
  have hheard : ∀ {f : CanFrameExt}, Uttered 1 asked f →
      Kept (net.slave j) (IotCtrl.step (net.slave j) (.canFrame (canBusSendOneFrame f))) ∨
        ∃ p, asked p ∧ lo p.stationNo = no j := by
    intro f hf
    by_cases hload : Loads (net.slave j, .canFrame (canBusSendOneFrame f))
    · have hother : 1 ≠ (net.slave j).main.localStation := by
        rw [hstation]
        exact (h.number j).symm
      obtain ⟨p, hp, hlow⟩ := slave_loads (h.slave_isHost j) hf hother hload
      exact Or.inr ⟨p, hp, hlow.trans hstation⟩
    · exact Or.inl (kept_of_not_loads hload)
  cases x with
  | host i => exact Or.inl (Kept.refl _)
  | slave k i =>
      refine Or.inl ?_
      by_cases hj : j = k
      · rw [hj, net.step_slave_self]
        refine kept_of_not_loads fun hload => ?_
        obtain ⟨p, hp, -⟩ := loads_own i.property hload
        have hhost := (writeRequested_host hp).2
        rw [h.slave_isHost k] at hhost
        cases hhost
      · rw [net.step_slave_of_ne hj]
        exact Kept.refl _
  | hostSends mailboxFree =>
      have hslave : (net.step (.hostSends mailboxFree)).slave j =
          hear (sentFrame mailboxFree net.host) (net.slave j) := rfl
      rw [hslave]
      cases hm : sentFrame mailboxFree net.host with
      | none => exact Or.inl (Kept.refl _)
      | some m =>
          obtain ⟨f, rfl, hf⟩ := h.host.sent mailboxFree m hm
          exact hheard hf
  | slaveSends k mailboxFree =>
      by_cases hj : j = k
      · rw [hj, net.step_slaveSends_self]
        exact Or.inl (kept_of_not_loads (not_loads_canSend _ mailboxFree))
      · rw [net.step_slaveSends_of_ne hj]
        cases hm : sentFrame mailboxFree (net.slave k) with
        | none => exact Or.inl (Kept.refl _)
        | some m =>
            obtain ⟨f, rfl, hf, hhead⟩ := ((h.slave k).sends mailboxFree).2 m hm
            by_cases hload : Loads (net.slave j, .canFrame (canBusSendOneFrame f))
            · by_cases hsame : no k = no j
              · -- a namesake: it would have to be in the middle of a write request
                obtain ⟨hfunc, hmid⟩ := midWrite_of_loads hf (h.number k) (h.opens j) hload
                have hnumbers : (net.slave j).main.localStation =
                    (net.slave k).main.localStation := by
                  rw [hstation, (h.slave k).station, hsame]
                exact absurd hmid (hright f hhead hfunc j hj hnumbers)
              · obtain ⟨p, hp, hlow⟩ :=
                  slave_loads (h.slave_isHost j) hf (by rwa [hstation]) hload
                exact Or.inr ⟨p, hp, hlow.trans hstation⟩
            · exact Or.inl (kept_of_not_loads hload)

/-- A run from `start`: what is said, that every number asked for is whole, and who was written. -/
structure Routed (start : Network ι) (past : List (Network ι × NetInput ι)) (net : Network ι) :
    Prop where
  talk : Talk (fun k => (start.slave k).main.localStation) (Asked past) net
  whole : ∀ p, Asked past p → ∀ k, lo p.stationNo = (start.slave k).main.localStation →
    p.stationNo = (start.slave k).main.localStation.setWidth 16
  host : Kept start.host net.host ∨ AskedFor 1 past
  slave : ∀ k, Kept (start.slave k) (net.slave k) ∨
    AskedFor (start.slave k).main.localStation past

/-- **One step** of the run. -/
theorem Routed.step {start : Network ι} {past : List (Network ι × NetInput ι)} {x : NetInput ι}
    (h : Routed start past net) (hright : net.RoutesRight x) :
    Routed start ((net, x) :: past) (net.step x) := by
  have hnow : ∀ p ∈ net.requested x, Asked ((net, x) :: past) p :=
    fun p hp => ⟨(net, x), List.mem_cons_self, hp⟩
  have htalk := h.talk.mono fun p hp => hp.later (net, x)
  have hwhole : ∀ p, Asked ((net, x) :: past) p → ∀ k,
      lo p.stationNo = (start.slave k).main.localStation →
        p.stationNo = (start.slave k).main.localStation.setWidth 16 := by
    rintro p ⟨e, he, hp⟩ k hlow
    rcases List.mem_cons.mp he with rfl | he
    · cases x with
      | host i =>
          have hno := (h.talk.slave k).station
          rw [← hno] at hlow ⊢
          exact hright p hp k hlow
      | slave | hostSends | slaveSends => cases hp
    · exact h.whole p ⟨e, he, hp⟩ k hlow
  refine ⟨htalk.step hnow, hwhole, ?_, fun k => ?_⟩
  · rcases h.host with hkept | hasked
    · rcases h.talk.host_kept x with hstep | ⟨p, hp, hno⟩
      · exact Or.inl (hkept.trans hstep)
      · refine Or.inr ⟨p, hnow p hp, ?_⟩
        rw [hno, h.talk.host.station]
    · exact Or.inr (hasked.later _)
  · rcases h.slave k with hkept | hasked
    · rcases htalk.slave_kept hright k with hstep | ⟨p, hp, hlow⟩
      · exact Or.inl (hkept.trans hstep)
      · exact Or.inr ⟨p, hp, hwhole p hp k hlow⟩
    · exact Or.inr (hasked.later _)

/-- **Requests reach their station.**  Nothing is on its way at the start, and every step of the
run routes right.  Then a station whose parameters or parameter page changed was asked for, under
its whole number, in a datagram that the host handled on the way. -/
theorem requests_reach_their_station {start net : Network ι}
    {past : List (Network ι × NetInput ι)}
    (hstart : Reach Network.Initial Network.step (fun _ _ => True) start)
    (hdrained : start.Drained)
    (hrun : Trail (· = start) Network.step Network.RoutesRight past net) :
    (¬ Kept start.host net.host → AskedFor start.host.main.localStation past) ∧
      ∀ k, ¬ Kept (start.slave k) (net.slave k) →
        AskedFor (start.slave k).main.localStation past := by
  obtain ⟨no, htalk⟩ := talk_reach hstart
  have hinit : ∀ s, s = start → Routed start [] s := by
    rintro s rfl
    refine ⟨htalk.of_drained hdrained _, ?_, Or.inl (Kept.refl _), fun k => Or.inl (Kept.refl _)⟩
    rintro p ⟨e, he, -⟩
    cases he
  have hrouted := hrun.invariant hinit fun past s x hs hright => hs.step hright
  constructor
  · intro hchanged
    rw [htalk.host.station]
    exact hrouted.host.resolve_left hchanged
  · intro k hchanged
    exact (hrouted.slave k).resolve_left hchanged

/-- **The low byte decides.**  A block that is not for the host can be written by every slave whose
number is its low byte, in a run without other traffic. -/
theorem low_byte_written {start : Network ι} {p : Pbuf} {block : UserParas} {k : ι}
    (hready : start.Ready) (hreq : WriteRequest p block) (m : U16) (env : UdpEnv)
    (hnumber : lo block.stationNo = (start.slave k).main.localStation)
    (hforeign : block.stationNo ≠ start.host.main.localStation.setWidth 16) :
    ∃ net, Reach (· = afterRequest start p m env) Network.step Network.Quietly net ∧
      (net.slave k).logic.userParasLocal.toUserParas =
        block.normalised (start.slave k).main.localStation := by
  have hexchange := exchange_starts_low hready hreq m env hnumber hforeign
  obtain ⟨xs, -, halong, hend⟩ := hexchange.ends hready
  obtain ⟨hholds, -, -⟩ := hend.done_of_drained hend.drained
  have hstart : Reach (· = afterRequest start p m env) Network.step Network.Quietly
      (afterRequest start p m env) := Reach.start rfl
  refine ⟨_, hstart.run_of_along halong, ?_⟩
  rw [← hend.beside.station]
  exact hholds.1

end Networks

/-! ## Station 2 and number 258 -/

/-- A request to station 2 on its way over the bus. -/
def requestInputs : List (NetInput (Fin 1)) :=
  [.host ⟨.udpReceive writeSlaveParas 0, trivial⟩, .host ⟨.udpClient linkUp, trivial⟩] ++
    List.replicate 30 (.hostSends true)

theorem linkedStations_reach :
    Reach Network.Initial Network.step (fun _ _ => True) linkedStations := by
  have hstart : Reach Network.Initial Network.step (fun _ _ => True) twoStations :=
    Reach.start twoStations_initial
  have hlinked : run Network.step twoStations
      [.host ⟨.udpClient linkUp, trivial⟩, .host ⟨.udpClient linkUp, trivial⟩] =
        linkedStations := rfl
  rw [← hlinked]
  exact hstart.run_of_along (Along.of_forall (fun _ _ => trivial) _ _)

/-- The host's sending routes right. -/
theorem along_hostSends (net : Network (Fin 1)) (n : Nat) :
    Along Network.step Network.RoutesRight net (List.replicate n (.hostSends true)) := by
  induction n generalizing net with
  | zero => trivial
  | succ n ih => exact ⟨trivial, ih _⟩

theorem requestInputs_along :
    Along Network.step Network.RoutesRight linkedStations requestInputs := by
  have hasked : (writeRequested
      (Network.step linkedStations (.host ⟨.udpReceive writeSlaveParas 0, trivial⟩)).host
        (.udpClient linkUp)).map (fun p => p.stationNo) = some 2 := by
    decide +kernel
  refine ⟨nofun, fun p hp k _ => ?_, along_hostSends _ 30⟩
  have hno : p.stationNo = 2 := by
    rw [Option.mem_def.mp hp] at hasked
    exact Option.some.inj hasked
  have htwo : ((Network.step linkedStations
      (.host ⟨.udpReceive writeSlaveParas 0, trivial⟩)).slave k).main.localStation = 2 :=
    boot_localStation _ _
  rw [hno, htwo]
  rfl

/-- The run of that request: station 2 is written, and was asked for. -/
theorem request_reaches_station2 :
    (linkedStations.slave 0).main.localStation = 2 ∧
      ((run Network.step linkedStations requestInputs).slave 0).logic.userParasLocal.beltNumber =
        1 ∧
      ¬ Kept (linkedStations.slave 0)
          ((run Network.step linkedStations requestInputs).slave 0) ∧
      AskedFor (linkedStations.slave 0).main.localStation
        (passed Network.step [] linkedStations requestInputs) := by
  have hstart : Trail (· = linkedStations) Network.step Network.RoutesRight [] linkedStations :=
    Trail.start rfl
  have hbelts : (linkedStations.slave 0).logic.userParasLocal.beltNumber = 0 ∧
      ((run Network.step linkedStations requestInputs).slave 0).logic.userParasLocal.beltNumber =
        1 := by
    decide +kernel
  obtain ⟨hnone, hone⟩ := hbelts
  have hwritten : ¬ Kept (linkedStations.slave 0)
      ((run Network.step linkedStations requestInputs).slave 0) := by
    intro hkept
    have hsame := congrArg (fun p => p.beltNumber) hkept.1
    have hdiffer : (1 : U16) = 0 := hone.symm.trans (hsame.trans hnone)
    exact absurd hdiffer (by decide)
  refine ⟨boot_localStation _ _, hone, hwritten, ?_⟩
  exact (requests_reach_their_station linkedStations_reach linkedStations_ready.drained
    (hstart.run_of_along requestInputs_along)).2 0 hwritten

/-- A datagram that writes one belt to number 258, which no station has. -/
def misaddressedParas : Pbuf :=
  { segments := [[0xAA, 0xAA, 0x01, 0x00, 0x00, 0x00, 0xF3, 0x00, 0x15, 0x04, 0x16] ++
      [0x00, 0x00, 0x00, 0x00, 0x02, 0x01, 0x07, 0x01, 0x03, 0x00, 0x01, 0x00] ++
      List.replicate 220 0x00]
    behind := fun _ => 0 }

def misaddressedBlock : UserParas := UserParas.ofBytes misaddressedParas.payload 11

theorem misaddressedParas_request : WriteRequest misaddressedParas misaddressedBlock :=
  ⟨by decide +kernel, by decide +kernel, by decide +kernel, rfl⟩

/-- **Number 258 reaches station 2.**  The host passes the block on, and on the bus its number is
the low byte 2: in a run without other traffic station 2 writes it. -/
theorem truncated_number_misroutes :
    misaddressedBlock.stationNo = 258 ∧
      linkedStations.host.main.localStation = 1 ∧
      (linkedStations.slave 0).main.localStation = 2 ∧
      ∃ net, Reach (· = afterRequest linkedStations misaddressedParas 0 linkUp) Network.step
          Network.Quietly net ∧
        ¬ Kept (linkedStations.slave 0) (net.slave 0) := by
  have htwo : (linkedStations.slave 0).main.localStation = 2 := boot_localStation _ _
  have hone : linkedStations.host.main.localStation = 1 :=
    localStation_of_isHost linkedStations_ready.host
  have hfields : misaddressedBlock.stationNo = 258 ∧ lo misaddressedBlock.stationNo = 2 ∧
      misaddressedBlock.stationNo ≠ (1 : U8).setWidth 16 ∧
      (misaddressedBlock.normalised 2).beltNumber ≠
        (linkedStations.slave 0).logic.userParasLocal.toUserParas.beltNumber := by
    decide +kernel
  obtain ⟨hno, hlow, hforeign, hbelts⟩ := hfields
  obtain ⟨net, hreach, hparas⟩ := low_byte_written linkedStations_ready misaddressedParas_request 0
    linkUp (k := 0) (hlow.trans htwo.symm) (by rw [hone]; exact hforeign)
  refine ⟨hno, hone, htwo, net, hreach, fun hkept => ?_⟩
  rw [htwo, hkept.1] at hparas
  exact hbelts (congrArg UserParas.beltNumber hparas).symm

end IotCtrl
