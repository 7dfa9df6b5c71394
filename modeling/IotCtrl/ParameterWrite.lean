import IotCtrl.LineAgreement
import IotCtrl.UdpFrames

/-!
# A parameter write across the bus

The server sends a parameter block to the host.  A block for the host is written at once;
any other one goes on the bus, the station it is for writes it to flash and answers with
the parameters it then has, and the host replies to the server with those.

* `UserParas.normalised` — the block as a station keeps it;
* `WritePhase` — how far the exchange is, whatever the stations do beside it;
* `parameter_write` — in every run without other traffic the addressed station holds the
  block, nobody else was written, and the host replies with it.
-/

namespace IotCtrl

open ByteMemory Transition ClosedFacts

/-! ## The block -/

/-- The block as a station keeps it: its own number and version, and no stream neighbour
above 255 and no belt count above ten. -/
def UserParas.normalised (localStation : U8) (p : UserParas) : UserParas :=
  { versionNoL := 0x0004
    versionNoH := 0x1000
    stationNo := localStation.setWidth 16
    upStreamNo := if 255 < p.upStreamNo then 0 else p.upStreamNo
    downStreamNo := if 255 < p.downStreamNo then 0 else p.downStreamNo
    beltNumber := if 10 < p.beltNumber then 0 else p.beltNumber
    beltPara := p.beltPara }

theorem check_toUserParas (localStation : U8) (raw : UserParas) :
    (LocalParas.check localStation raw).toUserParas = raw.normalised localStation := by
  have hbelt : 10 < raw.beltNumber ↔ ¬ raw.beltNumber.toNat ≤ 10 := by
    rw [BitVec.lt_def]
    exact Nat.not_le.symm
  unfold LocalParas.check UserParas.normalised
  simp only [hbelt]
  split_ifs <;> rfl

theorem normalised_beltNumber (localStation : U8) (p : UserParas) :
    (p.normalised localStation).beltNumber.toNat ≤ 10 := by
  rw [← check_toUserParas]
  exact (LocalParas.check localStation p).belt_le

/-- The half-words of the block from the third on are all that is written. -/
theorem writtenParas_toUserParas {para : Nat → U16} {p : UserParas} (localStation : U8)
    (h : ∀ i, i < USER_PARA_DATA_LEN → para i = p.word (i + 3)) :
    (writtenParas localStation para).toUserParas = p.normalised localStation := by
  rw [← check_toUserParas, writtenParas]
  refine congrArg LocalParas.toUserParas (LocalParas.check_congr ?_ ?_ ?_ (funext fun b => ?_))
  · exact h 0 (by decide)
  · exact h 1 (by decide)
  · exact h 2 (by decide)
  · have hb := b.isLt
    have hword : ∀ k, k < 11 → para (6 + 11 * b.val + k - 3) = (p.beltPara b).word k := by
      intro k hk
      rw [h _ (by unfold USER_PARA_DATA_LEN; omega), ← p.word_belt b hk]
      congr 1
      omega
    exact (BeltParas.ofWords_congr hword).trans (BeltParas.ofWords_word _)

/-- The parameters in use, and those that flash gives at the next start, are the block. -/
def Station.Holds (s : Station) (p : UserParas) : Prop :=
  s.logic.userParasLocal.toUserParas = p.normalised s.main.localStation ∧
    (readUserParas s).logic.userParasLocal.toUserParas = p.normalised s.main.localStation

/-- Parameters and flash are untouched. -/
def Unwritten (s t : Station) : Prop :=
  t.logic.userParasLocal = s.logic.userParasLocal ∧ t.flash = s.flash

theorem Unwritten.refl (s : Station) : Unwritten s s := ⟨rfl, rfl⟩

theorem Unwritten.of_keeps {ps : List Part} {s t u : Station} (h : Unwritten s t)
    (hk : Keeps ps t u) [hparas : Evident (.paras ∉ ps)] [hflash : Evident (.flash ∉ ps)] :
    Unwritten s u := by
  have hlocal : u.logic.userParasLocal = t.logic.userParasLocal := hk.same .paras hparas.out
  have hpage : u.flash = t.flash := hk.same .flash hflash.out
  exact ⟨hlocal.trans h.1, hpage.trans h.2⟩

/-- Writing the half-words of a block and reading them back. -/
theorem holds_written {para : Nat → U16} {p : UserParas}
    (h : ∀ i, i < USER_PARA_DATA_LEN → para i = p.word (i + 3)) (s : Station) :
    (readUserParas (writeUserParas para s)).Holds p := by
  have hk := readUserParas_keeps (writeUserParas para s)
  have hstation : (readUserParas (writeUserParas para s)).main.localStation =
      s.main.localStation := hk.localStation
  have hflash : (readUserParas (writeUserParas para s)).flash = (writeUserParas para s).flash :=
    hk.same .flash (by decide)
  have hagain : ∀ i, i < USER_PARA_DATA_LEN →
      (readUserParas (writeUserParas para s)).flash.userPara i = para i := by
    intro i hi
    rw [hflash]
    exact if_pos hi
  unfold Station.Holds
  rw [readUserParas_of_flash hagain, readUserParas_written, hstation]
  exact ⟨writtenParas_toUserParas _ h, writtenParas_toUserParas _ h⟩

/-- Both are a matter of the parameters and the flash. -/
theorem Station.Holds.of_keeps {ps : List Part} {p : UserParas} {s t : Station} (h : s.Holds p)
    (hk : Keeps ps s t) [hparas : Evident (.paras ∉ ps)] [hflash : Evident (.flash ∉ ps)] :
    t.Holds p := by
  have hlocal : t.logic.userParasLocal = s.logic.userParasLocal := hk.same .paras hparas.out
  have hpage : t.flash = s.flash := hk.same .flash hflash.out
  have hread : (readUserParas t).logic.userParasLocal = (readUserParas s).logic.userParasLocal := by
    rw [readUserParas_paras, readUserParas_paras, hk.localStation, hlocal, hpage]
  unfold Station.Holds
  rw [hread, hlocal, hk.localStation]
  exact h

/-! ## The messages -/

/-- The message of a block under a command byte. -/
def blockMsg (cmd : U8) (p : UserParas) : List U8 :=
  paraMsg cmd (ByteMemory.read p.byte 0 UserParas.byteCount)

theorem length_blockMsg (cmd : U8) (p : UserParas) : (blockMsg cmd p).length = 235 := by
  simp [blockMsg, paraMsg, UserParas.byteCount]

theorem blockMsg_getElem? (cmd : U8) (p : UserParas) {i : Nat} (hi : i < UserParas.byteCount) :
    (blockMsg cmd p)[3 + i]? = some (p.byte i) := by
  have hdrop : (blockMsg cmd p)[3 + i]? = ((blockMsg cmd p).drop 3)[i]? := List.getElem?_drop.symm
  rw [hdrop, blockMsg, paraMsg_drop]
  simp [ByteMemory.read, hi]

/-- What a receiver finds in its buffer. -/
theorem blockMsg_bytes {buf : Mem} {cmd : U8} {p : UserParas}
    (h : ByteMemory.read buf 0 235 = blockMsg cmd p) :
    canDataLen (buf 0) (buf 1) = 235 ∧ buf 2 = cmd ∧
      ∀ i, i < UserParas.byteCount → buf (3 + i) = p.byte i := by
  have hbyte : ∀ i, i < 235 → some (buf i) = (blockMsg cmd p)[i]? := by
    intro i hi
    rw [← h]
    simp [ByteMemory.read, hi]
  have hlen : 3 + (ByteMemory.read p.byte 0 UserParas.byteCount).length = 235 := by
    simp [UserParas.byteCount]
  have hhead : blockMsg cmd p =
      [lo 235, hi 235, cmd] ++ ByteMemory.read p.byte 0 UserParas.byteCount := by
    unfold blockMsg paraMsg
    rw [hlen]
    rfl
  have h0 := hbyte 0 (by omega)
  have h1 := hbyte 1 (by omega)
  have h2 := hbyte 2 (by omega)
  rw [hhead] at h0 h1 h2
  simp only [List.cons_append, List.getElem?_cons_zero, List.getElem?_cons_succ,
    Option.some.injEq] at h0 h1 h2
  refine ⟨?_, h2, fun i hi => ?_⟩
  · rw [h0, h1]
    decide
  · have hi' := hi
    unfold UserParas.byteCount at hi'
    have hget := hbyte (3 + i) (by omega)
    rw [blockMsg_getElem? cmd p hi] at hget
    exact Option.some.inj hget

/-! ## Hearing a message -/

/-- The frames to come put the message together. -/
def Completing (r : CanRecv) (fs : List CanFrameExt) (msg : List U8) : Prop :=
  ∃ r', Completes (fs.map canBusSendOneFrame) r r' ∧ r'.canRecvLen = msg.length ∧
    r'.payload = msg

theorem Completing.ne_nil {r : CanRecv} {fs : List CanFrameExt} {msg : List U8}
    (h : Completing r fs msg) : fs ≠ [] := by
  obtain ⟨r', hcomp, -⟩ := h
  intro hnil
  rw [hnil] at hcomp
  cases hcomp

/-- A frame of a parameter message for or from station `no`. -/
def CanFrameExt.ForStation (no : U8) (f : CanFrameExt) : Prop :=
  f.funcId = CAN_FUNC_ID_PARA_DATA ∧ f.srcId = no

/-- The station has put the message of its buffer together. -/
structure Heard (msg : List U8) (s u : Station) : Prop where
  keeps : Keeps [.recv, .trace] s u
  length : u.can.recv.canRecvLen = msg.length
  payload : u.can.recv.payload = msg

section Hear

variable {s : Station} {no : U8} {f : CanFrameExt} {msg : List U8}

theorem decoded_forStation (hf : f.ForStation no) :
    (canDecodeId (canBusSendOneFrame f).extId).funcId = CAN_FUNC_ID_PARA_DATA ∧
      (canDecodeId (canBusSendOneFrame f).extId).srcId = no := by
  rw [canDecodeId_canBusSendOneFrame, hf.1, hf.2]
  exact ⟨rfl, rfl⟩

/-- More frames follow. -/
theorem hear_more {g : CanFrameExt} {rest : List CanFrameExt} (hrunning : s.systemReset = false)
    (hf : f.ForStation no) (h : Completing s.can.recv (f :: g :: rest) msg) :
    ∃ q, step s (.canFrame (canBusSendOneFrame f)) = setCanRecv q s ∧
      Completing q (g :: rest) msg := by
  obtain ⟨r', hcomp, hmsg⟩ := h
  obtain ⟨hfunc, -⟩ := decoded_forStation hf
  have hstep : step s (.canFrame (canBusSendOneFrame f)) =
      canBusFrameReceive (canBusSendOneFrame f) s :=
    if_neg (by rw [hrunning]; exact Bool.false_ne_true)
  cases hcomp with
  | @more _ _ _ q _ hframe hrest =>
      refine ⟨q, ?_, r', hrest, hmsg⟩
      rw [hstep]
      exact canBusFrameReceive_more (by rw [hfunc]; decide) hframe

/-- The last frame. -/
theorem hear_last (hrunning : s.systemReset = false) (hf : f.ForStation no)
    (h : Completing s.can.recv [f] msg) :
    ∃ u, step s (.canFrame (canBusSendOneFrame f)) =
        (canDispatch CAN_FUNC_ID_PARA_DATA no u).val ∧ Heard msg s u := by
  obtain ⟨r', hcomp, hlen, hpay⟩ := h
  obtain ⟨hfunc, hsrc⟩ := decoded_forStation hf
  have hstep : step s (.canFrame (canBusSendOneFrame f)) =
      canBusFrameReceive (canBusSendOneFrame f) s :=
    if_neg (by rw [hrunning]; exact Bool.false_ne_true)
  have hk : ∀ e, Keeps [.recv, .trace] s ((setCanRecv r' s).log e) :=
    fun e => ⟨rfl, fun p hp => by cases p <;> first | rfl | simp at hp⟩
  cases hcomp with
  | last hframe =>
      have hlast := canBusFrameReceive_last (by rw [hfunc]; decide) hframe
      rw [hfunc, hsrc] at hlast
      exact ⟨_, hstep.trans hlast, hk _, hlen, hpay⟩
  | more _ hrest => cases hrest

/-- A message for another station. -/
theorem dispatch_foreign {u : Station} (hother : no ≠ u.main.localStation)
    (hslave : u.isHost = false) : (canDispatch CAN_FUNC_ID_PARA_DATA no u).val = u := by
  have hmine : ¬ (CAN_FUNC_ID_PARA_DATA = CAN_FUNC_ID_PARA_DATA ∧
      (no = u.main.localStation ∨ u.isHost = true)) := by
    rintro ⟨-, heq | hhost⟩
    · exact hother heq
    · rw [hslave] at hhost
      cases hhost
  unfold canDispatch
  dsimp only
  rw [if_neg hmine]
  rfl

theorem Heard.bytes {cmd : U8} {p : UserParas} {u : Station} (h : Heard (blockMsg cmd p) s u) :
    u.can.recv.canRecvLen = 235 ∧
      canDataLen (u.can.recv.canRecvBuff 0) (u.can.recv.canRecvBuff 1) = 235 ∧
      u.can.recv.canRecvBuff 2 = cmd ∧
      ∀ i, i < UserParas.byteCount → u.can.recv.canRecvBuff (3 + i) = p.byte i := by
  have hlen : u.can.recv.canRecvLen = 235 := h.length.trans (length_blockMsg cmd p)
  have hpay := h.payload
  unfold CanRecv.payload at hpay
  rw [hlen] at hpay
  exact ⟨hlen, blockMsg_bytes hpay⟩

/-- A station takes the message when it is its own, and the host takes every one. -/
theorem dispatch_taken {u : Station} (hmine : no = u.main.localStation ∨ u.isHost = true) :
    canDispatch CAN_FUNC_ID_PARA_DATA no u =
      paraDataRecvProcess u.can.recv.canRecvBuff u.can.recv.canRecvLen u :=
  if_pos ⟨rfl, hmine⟩

/-- The station that the block is for writes it and answers. -/
theorem dispatch_write {p : UserParas} {u : Station} (h : Heard (blockMsg 0x02 p) s u)
    (hmine : no = u.main.localStation) :
    ∃ t, (canDispatch CAN_FUNC_ID_PARA_DATA no u).val =
        canBusReplyWriteUserParas t.logic.userParasLocal.toUserParas t ∧
      t.Holds p ∧ Keeps [.paras, .modbus, .flash] u t := by
  obtain ⟨hlen, hdata, hcmd, hbytes⟩ := h.bytes
  have hwords : ∀ i, i < USER_PARA_DATA_LEN →
      wordAt u.can.recv.canRecvBuff (9 + 2 * i) = p.word (i + 3) := by
    intro i hi
    unfold USER_PARA_DATA_LEN at hi
    have hword : wordAt u.can.recv.canRecvBuff (3 + 2 * (i + 3)) = p.word (i + 3) :=
      @wordAt_bytesOf _ p.word 3 116 (i + 3) hbytes (by omega)
    rw [← hword]
    congr 1
    omega
  refine ⟨readUserParas (writeUserParas (fun i => wordAt u.can.recv.canRecvBuff (9 + 2 * i)) u),
    ?_, holds_written hwords u, readWriteParas_keeps _ u⟩
  rw [dispatch_taken (Or.inl hmine), hlen]
  unfold paraDataRecvProcess
  simp only [Traced.val_bind]
  have hread : (readByte u.can.recv.canRecvBuff 2).val = 0x02 := hcmd
  rw [if_neg (fun hne => hne (congrArg BitVec.toNat hdata)), hread, if_neg (by decide),
    if_neg (by decide), if_pos rfl]
  rfl

/-- The host keeps the block of an answer for the server. -/
theorem dispatch_reply {p : UserParas} {u : Station} (h : Heard (blockMsg 0x92 p) s u)
    (hhost : u.isHost = true) : (canDispatch CAN_FUNC_ID_PARA_DATA no u).val =
      paraReply REPLY_RECV_MSG_WRITE_PARA_CMD_TYPE p u := by
  obtain ⟨hlen, hdata, hcmd, hbytes⟩ := h.bytes
  have hblock : UserParas.ofBytes u.can.recv.canRecvBuff 3 = p := UserParas.ofBytes_eq hbytes
  rw [dispatch_taken (Or.inr hhost), hlen]
  unfold paraDataRecvProcess
  simp only [Traced.val_bind]
  have hread : (readByte u.can.recv.canRecvBuff 2).val = 0x92 := hcmd
  rw [if_neg (fun hne => hne (congrArg BitVec.toNat hdata)), hread, if_neg (by decide),
    if_neg (by decide), if_neg (by decide), if_pos rfl, hblock]
  rfl

/-- A frame for another station is put together with what came before, and no more. -/
theorem hear_foreign (hrunning : s.systemReset = false) (hf : f.ForStation no)
    (hother : no ≠ s.main.localStation) (hslave : s.isHost = false) :
    Keeps [.recv, .trace] s (step s (.canFrame (canBusSendOneFrame f))) := by
  obtain ⟨hfunc, hsrc⟩ := decoded_forStation hf
  have hrecv : ∀ r, Keeps [.recv, .trace] s (setCanRecv r s) :=
    fun r => (setCanRecv_keeps r s).mono
  have hdone : ∀ r (e : Event), Keeps [.recv, .trace] s ((setCanRecv r s).log e) :=
    fun r e => ⟨rfl, fun p hp => by cases p <;> first | rfl | simp at hp⟩
  have hpass : ∀ t, Keeps [.recv, .trace] s t → (canDispatch CAN_FUNC_ID_PARA_DATA no t).val = t :=
    fun t hk => dispatch_foreign (hk.localStation.symm ▸ hother) (hk.isHost.trans hslave)
  have hstep : step s (.canFrame (canBusSendOneFrame f)) =
      canBusFrameReceive (canBusSendOneFrame f) s :=
    if_neg (by rw [hrunning]; exact Bool.false_ne_true)
  rw [hstep]
  unfold canBusFrameReceive
  dsimp only
  rw [hfunc, hsrc, if_neg (fun hboot => absurd hboot.1 (by decide))]
  split_ifs
  · rw [hpass _ (hdone _ _)]
    exact hdone _ _
  · exact hrecv _

/-- The last frame of a write request. -/
theorem hear_write {p : UserParas} (hrunning : s.systemReset = false) (hf : f.ForStation no)
    (hmine : no = s.main.localStation) (hsilent : s.canFrames = [])
    (h : Completing s.can.recv [f] (blockMsg 0x02 p)) :
    (step s (.canFrame (canBusSendOneFrame f))).canFrames =
        canFramesOf (blockMsg 0x92 (p.normalised no)) CAN_FUNC_ID_PARA_DATA no ∧
      (step s (.canFrame (canBusSendOneFrame f))).Holds p ∧
      Keeps [.paras, .modbus, .flash, .recv, .trace, .canQueue] s
        (step s (.canFrame (canBusSendOneFrame f))) := by
  obtain ⟨u, hstep, hheard⟩ := hear_last hrunning hf h
  have hku := hheard.keeps
  have hno : no = u.main.localStation := hmine.trans hku.localStation.symm
  obtain ⟨t, hdispatch, hholds, hkt⟩ := dispatch_write hheard hno
  have hnormal : t.logic.userParasLocal.toUserParas = p.normalised no := by
    rw [hholds.1, hkt.localStation, ← hno]
  have hsrc : lo (p.normalised no).stationNo = no := BitVec.setWidth_setWidth_of_le no (by decide)
  have ht : t.canFrames = [] := (hkt.canFrames.trans hku.canFrames).trans hsilent
  have hlen : (blockMsg 0x92 (p.normalised no)).length ≤ 300 := by
    rw [length_blockMsg]
    decide
  have hsend : canBusReplyWriteUserParas (p.normalised no) t =
      canBusSendMsg (blockMsg 0x92 (p.normalised no)) CAN_FUNC_ID_PARA_DATA no t := by
    unfold canBusReplyWriteUserParas canBusSendParaBlock
    rw [hsrc]
    rfl
  have hk := canBusSendMsg_keeps (blockMsg 0x92 (p.normalised no)) CAN_FUNC_ID_PARA_DATA no t
  rw [hstep, hdispatch, hnormal, hsend]
  refine ⟨canFrames_canBusSendMsg ht hlen _ _, hholds.of_keeps hk, ?_⟩
  exact (hku.mono.trans hkt.mono).trans hk.mono

/-- The last frame of the answer. -/
theorem hear_reply {p : UserParas} (hrunning : s.systemReset = false) (hf : f.ForStation no)
    (hhost : s.isHost = true) (htypes : s.msgTypes = [])
    (h : Completing s.can.recv [f] (blockMsg 0x92 p)) :
    (step s (.canFrame (canBusSendOneFrame f))).msgTypes = [REPLY_RECV_MSG_WRITE_PARA_CMD_TYPE] ∧
      (step s (.canFrame (canBusSendOneFrame f))).logic.userParasSlave = p ∧
      Keeps [.recv, .slave, .msgQueue, .trace] s
        (step s (.canFrame (canBusSendOneFrame f))) := by
  obtain ⟨u, hstep, hheard⟩ := hear_last hrunning hf h
  have hku := hheard.keeps
  have hu : u.msgTypes = [] := hku.msgTypes.trans htypes
  rw [hstep, dispatch_reply hheard (hku.isHost.trans hhost)]
  refine ⟨?_, rfl, hku.mono.trans (paraReply_keeps _ _ _).mono⟩
  have hadd := RingFifo.contents_add_eq u.msg.msgSendQueue REPLY_RECV_MSG_WRITE_PARA_CMD_TYPE
  rw [show u.msg.msgSendQueue.contents = [] from hu] at hadd
  exact hadd

end Hear

/-! ## The network beside the exchange -/

/-- What a station may do on its own without being traffic. -/
@[reducible] def offTrafficParts : List Part :=
  [.gear, .uartQueue, .node, .modbus, .uartState, .trace, .emergency, .runSta, .polling,
    .moduleQueue, .commFault, .runBits]

namespace Network

variable {ι : Type} [DecidableEq ι]

/-- No other traffic: on its own a station queues nothing and takes nothing in, and its
parameters, its flash and the server link are left alone. -/
def Quietly (net : Network ι) : NetInput ι → Prop
  | .host i => Keeps offTrafficParts net.host (IotCtrl.step net.host i)
  | .slave k i => Keeps offTrafficParts (net.slave k) (IotCtrl.step (net.slave k) i)
  | .hostSends _ | .slaveSends _ _ => True

/-- No frame waits anywhere. -/
def Drained (net : Network ι) : Prop :=
  net.host.canFrames = [] ∧ ∀ k, (net.slave k).canFrames = []

/-- No station takes part. -/
structure Aside (net net' : Network ι) : Prop where
  host : Keeps offTrafficParts net.host net'.host
  slave : ∀ k, Keeps offTrafficParts (net.slave k) (net'.slave k)

omit [DecidableEq ι] in
/-- Nothing has happened. -/
theorem Aside.refl (net : Network ι) : Aside net net :=
  ⟨Keeps.refl _, fun _ => Keeps.refl _⟩

variable {net : Network ι}

/-- **What a quiet step can do.** -/
theorem quiet_cases {x : NetInput ι} (h : net.Quietly x) :
    Aside net (net.step x) ∨ (∃ f, HostSent f net (net.step x)) ∨
      ∃ k f, SlaveSent k f net (net.step x) := by
  cases x with
  | host i => exact Or.inl ⟨h, fun _ => Keeps.refl _⟩
  | slave k i =>
      refine Or.inl ⟨Keeps.refl _, fun j => ?_⟩
      by_cases hj : j = k
      · rw [hj, step_slave_self]
        exact h
      · rw [step_slave_of_ne net hj]
        exact Keeps.refl _
  | hostSends mailboxFree =>
      rcases net.hostSends_cases mailboxFree with ⟨-, hsame⟩ | hsent
      · rw [hsame]
        exact Or.inl (Aside.refl net)
      · exact Or.inr (Or.inl hsent)
  | slaveSends k mailboxFree =>
      rcases net.slaveSends_cases k mailboxFree with ⟨-, hsame⟩ | hsent
      · rw [hsame]
        exact Or.inl (Aside.refl net)
      · exact Or.inr (Or.inr ⟨k, hsent⟩)

/-- With a free mailbox a waiting frame is taken. -/
theorem sentFrame_ne_none {s : Station} {f : CanFrameExt} {fs : List CanFrameExt}
    (hrunning : s.systemReset = false) (hqueue : s.canFrames = f :: fs) :
    sentFrame true s ≠ none := by
  have htake : s.can.canSendQueue.take ≠ none := by
    rw [Ne, RingFifo.take_none_iff]
    intro hempty
    rw [Station.canFrames, hempty] at hqueue
    cases hqueue
  unfold sentFrame canSendFrameProcess
  rw [if_neg (by rw [hrunning]; exact Bool.false_ne_true)]
  split
  · rename_i hnone
    exact absurd hnone htake
  · exact Option.some_ne_none _

theorem hostSends_sent {f : CanFrameExt} {fs : List CanFrameExt}
    (hrunning : net.host.systemReset = false) (hqueue : net.host.canFrames = f :: fs) :
    ∃ f, HostSent f net (net.step (.hostSends true)) := by
  rcases net.hostSends_cases true with ⟨hnone, -⟩ | hsent
  · exact absurd hnone (sentFrame_ne_none hrunning hqueue)
  · exact hsent

theorem slaveSends_sent {k : ι} {f : CanFrameExt} {fs : List CanFrameExt}
    (hrunning : (net.slave k).systemReset = false) (hqueue : (net.slave k).canFrames = f :: fs) :
    ∃ f, SlaveSent k f net (net.step (.slaveSends k true)) := by
  rcases net.slaveSends_cases k true with ⟨hnone, -⟩ | hsent
  · exact absurd hnone (sentFrame_ne_none hrunning hqueue)
  · exact hsent

end Network

/-! ## The exchange -/

/-- A station that has only looked on. -/
structure LookedOn (s t : Station) : Prop where
  running : t.systemReset = false
  station : t.main.localStation = s.main.localStation
  unwritten : Unwritten s t

theorem LookedOn.of_keeps {ps : List Part} {s t u : Station} (h : LookedOn s t)
    (hk : Keeps ps t u) [hparas : Evident (.paras ∉ ps)] [hflash : Evident (.flash ∉ ps)]
    [hreset : Evident (.systemReset ∉ ps)] : LookedOn s u := by
  have hrunning : u.systemReset = t.systemReset := hk.same .systemReset hreset.out
  exact ⟨hrunning.trans h.running, hk.localStation.trans h.station,
    h.unwritten.of_keeps hk⟩

/-- The host is linked to the server, every station runs and has its own number, and
nothing is on its way. -/
structure Network.Ready {ι : Type} (net : Network ι) : Prop where
  host : net.host.isHost = true
  slave : ∀ k, (net.slave k).isHost = false
  distinct : Function.Injective fun k => (net.slave k).main.localStation
  host_running : net.host.systemReset = false
  slave_running : ∀ k, (net.slave k).systemReset = false
  connected : net.host.msg.tcpClientStatue = .connectOk
  received : net.host.msg.tcpRecvLen = 0
  unsent : net.host.msg.tcpSendEn = false
  types : net.host.msgTypes = []
  drained : net.host.canFrames = [] ∧ ∀ k, (net.slave k).canFrames = []

section Exchange

variable {ι : Type}

/-- All stations but slave `k` look on. -/
structure Bystanders (start : Network ι) (k : ι) (net : Network ι) : Prop where
  host : LookedOn start.host net.host
  sendEn : net.host.msg.tcpSendEn = false
  other : ∀ j, j ≠ k → LookedOn (start.slave j) (net.slave j) ∧ (net.slave j).canFrames = []
  running : (net.slave k).systemReset = false
  station : (net.slave k).main.localStation = (start.slave k).main.localStation

/-- Where the exchange with slave `k` is, and how many frames are still to be sent. -/
inductive WritePhase (start : Network ι) (k : ι) (block : UserParas) (net : Network ι) :
    Nat → Prop
  /-- The request is on its way to the slave. -/
  | request {fs : List CanFrameExt} (queue : net.host.canFrames = fs)
      (ids : ∀ f ∈ fs, f.ForStation (start.slave k).main.localStation)
      (silent : (net.slave k).canFrames = []) (types : net.host.msgTypes = [])
      (hears : Completing (net.slave k).can.recv fs (blockMsg 0x02 block)) :
      WritePhase start k block net (fs.length + 30)
  /-- The slave has written the block and answers. -/
  | reply {fs : List CanFrameExt} (silent : net.host.canFrames = [])
      (queue : (net.slave k).canFrames = fs)
      (ids : ∀ f ∈ fs, f.ForStation (start.slave k).main.localStation)
      (types : net.host.msgTypes = []) (holds : (net.slave k).Holds block)
      (hears : Completing net.host.can.recv fs
        (blockMsg 0x92 (block.normalised (start.slave k).main.localStation))) :
      WritePhase start k block net fs.length
  /-- The host has the answer. -/
  | done (drained : net.host.canFrames = [] ∧ (net.slave k).canFrames = [])
      (holds : (net.slave k).Holds block)
      (types : net.host.msgTypes = [REPLY_RECV_MSG_WRITE_PARA_CMD_TYPE])
      (slave : net.host.logic.userParasSlave =
        block.normalised (start.slave k).main.localStation) :
      WritePhase start k block net 0

/-- The exchange goes on, and nobody else takes part. -/
structure Exchange (start : Network ι) (k : ι) (block : UserParas) (net : Network ι) (n : Nat) :
    Prop where
  beside : Bystanders start k net
  phase : WritePhase start k block net n

variable {start net net' : Network ι} {k : ι} {block : UserParas} {n : Nat}

theorem tcpSendEn_of_keeps {ps : List Part} {s t : Station} (hk : Keeps ps s t)
    [hlink : Evident (.link ∉ ps)] : t.msg.tcpSendEn = s.msg.tcpSendEn := by
  have hsame : { t.msg with msgSendQueue := s.msg.msgSendQueue } = s.msg := hk.same .link hlink.out
  have hfield := congrArg MsgVars.tcpSendEn hsame
  exact hfield

theorem Exchange.aside (h : Exchange start k block net n) (ha : Network.Aside net net') :
    Exchange start k block net' n := by
  obtain ⟨hb, hphase⟩ := h
  have hhost := ha.host
  have hslave := ha.slave k
  have hrunning : (net'.slave k).systemReset = (net.slave k).systemReset :=
    hslave.same .systemReset (by decide)
  refine ⟨⟨hb.host.of_keeps hhost, (tcpSendEn_of_keeps hhost).trans hb.sendEn, fun j hj => ?_,
    hrunning.trans hb.running, hslave.localStation.trans hb.station⟩, ?_⟩
  · obtain ⟨hlook, hsilent⟩ := hb.other j hj
    exact ⟨hlook.of_keeps (ha.slave j), (ha.slave j).canFrames.trans hsilent⟩
  have hqueue := hhost.canFrames
  have hqueue' := hslave.canFrames
  have htypes := hhost.msgTypes
  have hrecv : net'.host.can.recv = net.host.can.recv := hhost.same .recv (by decide)
  have hrecv' : (net'.slave k).can.recv = (net.slave k).can.recv := hslave.same .recv (by decide)
  cases hphase with
  | request queue ids silent types hears =>
      exact .request (hqueue.trans queue) ids (hqueue'.trans silent) (htypes.trans types)
        (hrecv' ▸ hears)
  | reply silent queue ids types holds hears =>
      exact .reply (hqueue.trans silent) (hqueue'.trans queue) ids (htypes.trans types)
        (holds.of_keeps hslave) (hrecv ▸ hears)
  | done drained holds types slave =>
      have hpara : net'.host.logic.userParasSlave = net.host.logic.userParasSlave :=
        hhost.same .slave (by decide)
      exact .done ⟨hqueue.trans drained.1, hqueue'.trans drained.2⟩ (holds.of_keeps hslave)
        (htypes.trans types) (hpara.trans slave)

theorem LookedOn.isHost {s t : Station} (h : LookedOn s t) : t.isHost = s.isHost :=
  congrArg (· == 1) h.station

/-- The others hear a frame of the exchange. -/
theorem Bystanders.hear_frame {f : CanFrameExt} {j : ι} (h : Bystanders start k net)
    (hready : start.Ready) (hf : f.ForStation (start.slave k).main.localStation) (hj : j ≠ k)
    (hslave : net'.slave j = step (net.slave j) (.canFrame (canBusSendOneFrame f))) :
    LookedOn (start.slave j) (net'.slave j) ∧ (net'.slave j).canFrames = [] := by
  obtain ⟨hlook, hsilent⟩ := h.other j hj
  have hother : (start.slave k).main.localStation ≠ (net.slave j).main.localStation := by
    rw [hlook.station]
    exact fun heq => hj (hready.distinct heq).symm
  have hk := hear_foreign hlook.running hf hother (hlook.isHost.trans (hready.slave j))
  rw [hslave]
  exact ⟨hlook.of_keeps hk, hk.canFrames.trans hsilent⟩

theorem length_blockFrames (cmd no : U8) (block : UserParas) :
    (canFramesOf (blockMsg cmd block) CAN_FUNC_ID_PARA_DATA no).length = 30 := by
  rw [length_canFramesOf, length_blockMsg]
  rfl

/-- The host sends a frame of the request. -/
theorem Exchange.hostSent {f : CanFrameExt} (h : Exchange start k block net n)
    (hready : start.Ready) (hs : Network.HostSent f net net') :
    ∃ m, n = m + 1 ∧ Exchange start k block net' m := by
  obtain ⟨hb, hphase⟩ := h
  have hqueue := hs.queue
  have htypes := hs.keeps.msgTypes
  cases hphase with
  | reply silent => rw [silent] at hqueue; cases hqueue
  | done drained => rw [drained.1] at hqueue; cases hqueue
  | @request fs queue ids silent types hears =>
      rw [queue] at hqueue
      subst hqueue
      have hf := ids f List.mem_cons_self
      have hslave := hs.slave k
      have hmine : (start.slave k).main.localStation = (net.slave k).main.localStation :=
        hb.station.symm
      have hbeside : ∀ {ps : List Part}, Keeps ps (net.slave k) (net'.slave k) →
          .systemReset ∉ ps → Bystanders start k net' := by
        intro ps hk hreset
        have hrunning : (net'.slave k).systemReset = (net.slave k).systemReset :=
          hk.same .systemReset hreset
        exact ⟨hb.host.of_keeps hs.keeps, (tcpSendEn_of_keeps hs.keeps).trans hb.sendEn,
          fun j hj => hb.hear_frame hready hf hj (hs.slave j), hrunning.trans hb.running,
          hk.localStation.trans hb.station⟩
      cases hrest : net'.host.canFrames with
      | cons g rest =>
          rw [hrest] at hears ids
          obtain ⟨q, hstep, hmore⟩ := hear_more hb.running hf hears
          have hk := setCanRecv_keeps q (net.slave k)
          rw [← hslave.trans hstep] at hk
          have hrecv : (net'.slave k).can.recv = q := by
            rw [hslave, hstep]
            rfl
          refine ⟨(g :: rest).length + 30, rfl, hbeside hk (by decide), ?_⟩
          exact .request hrest (fun x hx => ids x (List.mem_cons_of_mem _ hx))
            (hk.canFrames.trans silent) (htypes.trans types) (hrecv ▸ hmore)
      | nil =>
          rw [hrest] at hears
          obtain ⟨hanswer, hholds, hk⟩ := hear_write hb.running hf hmine silent hears
          rw [← hslave] at hanswer hholds hk
          have hphase : WritePhase start k block net' _ :=
            .reply hrest hanswer (fun x hx => canFramesOf_ids hx) (htypes.trans types) hholds
              (canFramesOf_completes _ _ _ (by rw [length_blockMsg]; decide) _)
          rw [length_blockFrames] at hphase
          exact ⟨30, rfl, hbeside hk (by decide), hphase⟩

/-- The slave sends a frame of its answer. -/
theorem Exchange.slaveSent {j : ι} {f : CanFrameExt} (h : Exchange start k block net n)
    (hready : start.Ready) (hs : Network.SlaveSent j f net net') :
    ∃ m, n = m + 1 ∧ Exchange start k block net' m := by
  obtain ⟨hb, hphase⟩ := h
  have hqueue := hs.queue
  obtain rfl : j = k := by
    by_contra hj
    rw [(hb.other j hj).2] at hqueue
    cases hqueue
  cases hphase with
  | request _ _ silent => rw [silent] at hqueue; cases hqueue
  | done drained => rw [drained.2] at hqueue; cases hqueue
  | @reply fs silent queue ids types holds hears =>
      rw [queue] at hqueue
      subst hqueue
      have hf := ids f List.mem_cons_self
      have hrunning : (net'.slave j).systemReset = (net.slave j).systemReset :=
        hs.keeps.same .systemReset (by decide)
      have hholds := holds.of_keeps hs.keeps
      have hhost := hb.host.isHost.trans hready.host
      have hbeside : ∀ {ps : List Part}, Keeps ps net.host net'.host →
          (∀ p ∈ ps, p ∈ [.recv, .slave, .msgQueue, .trace]) → Bystanders start j net' := by
        intro ps hk hsub
        have : Evident (∀ p ∈ ps, p ∈ [.recv, .slave, .msgQueue, .trace]) := ⟨hsub⟩
        have hk' : Keeps [.recv, .slave, .msgQueue, .trace] net.host net'.host := hk.mono
        exact ⟨hb.host.of_keeps hk', (tcpSendEn_of_keeps hk').trans hb.sendEn,
          fun i hi => hb.hear_frame hready hf hi (hs.slave i hi), hrunning.trans hb.running,
          hs.keeps.localStation.trans hb.station⟩
      cases hrest : (net'.slave j).canFrames with
      | cons g rest =>
          rw [hrest] at hears ids
          obtain ⟨q, hstep, hmore⟩ := hear_more hb.host.running hf hears
          have hk := setCanRecv_keeps q net.host
          rw [← hs.host.trans hstep] at hk
          have hrecv : net'.host.can.recv = q := by
            rw [hs.host, hstep]
            rfl
          refine ⟨(g :: rest).length, rfl, hbeside hk (by decide), ?_⟩
          exact .reply (hk.canFrames.trans silent) hrest
            (fun x hx => ids x (List.mem_cons_of_mem _ hx)) (hk.msgTypes.trans types) hholds
            (hrecv ▸ hmore)
      | nil =>
          rw [hrest] at hears
          obtain ⟨htypes, hslave, hk⟩ := hear_reply hb.host.running hf hhost types hears
          rw [← hs.host] at htypes hslave hk
          exact ⟨0, rfl, hbeside hk (by decide),
            .done ⟨hk.canFrames.trans silent, hrest⟩ hholds htypes hslave⟩

/-- Only an exchange that has ended leaves all queues empty. -/
theorem Exchange.done_of_drained (h : Exchange start k block net n) (hdrained : net.Drained) :
    (net.slave k).Holds block ∧ net.host.msgTypes = [REPLY_RECV_MSG_WRITE_PARA_CMD_TYPE] ∧
      net.host.logic.userParasSlave = block.normalised (start.slave k).main.localStation := by
  have hphase := h.phase
  cases hphase with
  | request queue _ _ _ hears => exact absurd (queue.symm.trans hdrained.1) hears.ne_nil
  | reply _ queue _ _ _ hears => exact absurd (queue.symm.trans (hdrained.2 k)) hears.ne_nil
  | done _ holds types slave => exact ⟨holds, types, slave⟩

theorem Exchange.drained (h : Exchange start k block net 0) : net.Drained := by
  have hb := h.beside
  have hphase := h.phase
  generalize hm : 0 = m at hphase
  cases hphase with
  | request => cases hm
  | reply _ _ _ _ _ hears => exact absurd (List.eq_nil_of_length_eq_zero hm.symm) hears.ne_nil
  | done drained =>
      refine ⟨drained.1, fun j => ?_⟩
      by_cases hj : j = k
      · rw [hj]
        exact drained.2
      · exact (hb.other j hj).2

variable [DecidableEq ι]

/-- **One quiet step** of the exchange. -/
theorem Exchange.step {x : NetInput ι} (h : Exchange start k block net n) (hready : start.Ready)
    (hquiet : net.Quietly x) : ∃ m, Exchange start k block (net.step x) m := by
  rcases Network.quiet_cases hquiet with haside | ⟨f, hsent⟩ | ⟨j, f, hsent⟩
  · exact ⟨n, h.aside haside⟩
  · obtain ⟨m, -, hnext⟩ := h.hostSent hready hsent
    exact ⟨m, hnext⟩
  · obtain ⟨m, -, hnext⟩ := h.slaveSent hready hsent
    exact ⟨m, hnext⟩

/-- As long as frames are to be sent, one of the two can send. -/
theorem Exchange.proceeds (h : Exchange start k block net (n + 1)) (hready : start.Ready) :
    ∃ x, net.Quietly x ∧ Exchange start k block (net.step x) n := by
  have hb := h.beside
  have hphase := h.phase
  generalize hm : n + 1 = m at h hphase
  cases hphase with
  | request queue _ _ _ hears =>
      obtain ⟨f, rest, rfl⟩ := List.exists_cons_of_ne_nil hears.ne_nil
      obtain ⟨g, hsent⟩ := Network.hostSends_sent hb.host.running queue
      obtain ⟨m, hcount, hnext⟩ := h.hostSent hready hsent
      obtain rfl : n = m := Nat.succ_injective (hm.trans hcount)
      exact ⟨.hostSends true, trivial, hnext⟩
  | reply _ queue _ _ _ hears =>
      obtain ⟨f, rest, rfl⟩ := List.exists_cons_of_ne_nil hears.ne_nil
      obtain ⟨g, hsent⟩ := Network.slaveSends_sent hb.running queue
      obtain ⟨m, hcount, hnext⟩ := h.slaveSent hready hsent
      obtain rfl : n = m := Nat.succ_injective (hm.trans hcount)
      exact ⟨.slaveSends k true, trivial, hnext⟩
  | done => cases hm

/-- **The exchange ends.** -/
theorem Exchange.ends (h : Exchange start k block net n) (hready : start.Ready) :
    ∃ xs : List (NetInput ι), xs.length = n ∧ Along Network.step Network.Quietly net xs ∧
      Exchange start k block (run Network.step net xs) 0 := by
  induction n generalizing net with
  | zero => exact ⟨[], rfl, trivial, h⟩
  | succ n ih =>
      obtain ⟨x, hquiet, hnext⟩ := h.proceeds hready
      obtain ⟨xs, hlen, halong, hend⟩ := ih hnext
      exact ⟨x :: xs, congrArg (· + 1) hlen, ⟨hquiet, halong⟩, hend⟩

end Exchange

/-! ## The request -/

/-- A full-length datagram with a write request for the block. -/
structure WriteRequest (p : Pbuf) (block : UserParas) : Prop where
  length : p.totLen = 243
  accepted : recvMsgCheck p.payload 243 = true
  type_eq : msgType p.payload = RECV_MSG_WRITE_PARA_CMD_TYPE
  block_eq : UserParas.ofBytes p.payload 11 = block

/-- The host receives the datagram and handles it. -/
def afterRequest {ι : Type} [DecidableEq ι] (net : Network ι) (p : Pbuf) (m : U16)
    (env : UdpEnv) : Network ι :=
  run Network.step net [.host ⟨.udpReceive p m, trivial⟩, .host ⟨.udpClient env, trivial⟩]

/-- The datagram lies in the receive buffer. -/
theorem received_request {p : Pbuf} {block : UserParas} {s : Station} (m : U16)
    (hreq : WriteRequest p block) (hconnected : s.msg.tcpClientStatue = .connectOk)
    (hreceived : s.msg.tcpRecvLen = 0) :
    (udpReceiveCallback p m s).msg.tcpSendEn = s.msg.tcpSendEn ∧
      (udpReceiveCallback p m s).msg.tcpClientStatue = .connectRecv ∧
      (udpReceiveCallback p m s).msg.tcpRecvLen.toNat = 243 ∧
      AgreeBelow 243 p.payload (udpReceiveCallback p m s).msg.tcpRecvBuf := by
  have hlen := hreq.length
  have hbytes : AgreeBelow 243 p.payload
      (write s.msg.tcpRecvBuf 0 (ByteMemory.read p.payload 0 243)) := by
    intro i hi
    have hlt : i < (ByteMemory.read p.payload 0 243).length := by
      rw [length_read]
      exact hi
    have hget := write_getElem s.msg.tcpRecvBuf (ByteMemory.read p.payload 0 243) 0 hlt
    rw [Nat.zero_add] at hget
    rw [hget]
    simp [ByteMemory.read]
  rw [udpReceiveCallback_fits m hconnected (by omega), hlen, hreceived]
  exact ⟨rfl, rfl, rfl, hbytes⟩

theorem udpConnectProcess_unsent {env : UdpEnv} {s : Station} (h : s.msg.tcpSendEn = false) :
    (udpConnectProcess env s).msg.tcpSendEn = false := by
  unfold udpConnectProcess
  dsimp only
  split_ifs
  all_goals first | rfl | exact h

/-- The request is handled once. -/
theorem handled_request {p : Pbuf} {block : UserParas} {s : Station} {env : UdpEnv}
    (hreq : WriteRequest p block) (hrecv : s.msg.tcpClientStatue = .connectRecv)
    (hlen : s.msg.tcpRecvLen.toNat = 243) (hbuf : AgreeBelow 243 p.payload s.msg.tcpRecvBuf)
    (hrunning : s.systemReset = false) (hunsent : s.msg.tcpSendEn = false) :
    Keeps [.link, .trace] (recvWritePara p.payload s) (udpClientProcess env s) ∧
      (udpClientProcess env s).msg.tcpSendEn = false := by
  have hcheck : recvMsgCheck s.msg.tcpRecvBuf 243 = true := by
    rw [← recvMsgCheck_congr (by decide) hbuf]
    exact hreq.accepted
  have hprocess : recvMsgProcess p.payload s = recvMsgProcess s.msg.tcpRecvBuf s :=
    recvMsgProcess_congr (by decide) (by rw [hreq.type_eq]; decide) hbuf s
  have hwrite : recvMsgProcess p.payload s = recvWritePara p.payload s := by
    unfold recvMsgProcess
    rw [hreq.type_eq, if_neg (by decide), if_neg (by decide), if_pos rfl]
  have hmessage : recvMessageFromServer s.msg.tcpRecvBuf 243 s = recvWritePara p.payload s := by
    unfold recvMessageFromServer
    rw [hcheck, if_neg (by decide), ← hprocess, hwrite]
  have hk := recvWritePara_keeps p.payload s
  have hreset : (recvWritePara p.payload s).systemReset = s.systemReset :=
    hk.same .systemReset (by decide)
  have hsend := (tcpSendEn_of_keeps hk).trans hunsent
  have hdone := recvDone_keeps (recvWritePara p.payload s)
  have hstep : udpClientProcess env s = udpConnectProcess env
      { recvWritePara p.payload s with
        msg.tcpRecvLen := 0, msg.tcpClientStatue := .connectOk } := by
    unfold udpClientProcess
    rw [if_pos hrecv, hlen, hmessage]
    dsimp only
    rw [if_neg (by rw [hreset, hrunning]; exact Bool.false_ne_true)]
  rw [hstep]
  exact ⟨hdone.mono.trans (udpConnectProcess_keeps env _), udpConnectProcess_unsent hsend⟩

theorem afterRequest_host {ι : Type} [DecidableEq ι] {net : Network ι} {p : Pbuf}
    {block : UserParas} (hready : net.Ready) (hreq : WriteRequest p block) (m : U16)
    (env : UdpEnv) :
    ∃ u, Keeps [.link] net.host u ∧
      Keeps [.link, .trace] (recvWritePara p.payload u) (afterRequest net p m env).host ∧
      (afterRequest net p m env).host.msg.tcpSendEn = false := by
  obtain ⟨hsend, hrecv, hlen, hbuf⟩ := received_request m hreq hready.connected hready.received
  have hk := udpReceiveCallback_keeps p m net.host
  have hreset : (udpReceiveCallback p m net.host).systemReset = false :=
    (show _ = net.host.systemReset from hk.same .systemReset (by decide)).trans hready.host_running
  have hunsent := hsend.trans hready.unsent
  have hreceive : step net.host (.udpReceive p m) = udpReceiveCallback p m net.host :=
    (if_neg (by rw [hready.host_running]; exact Bool.false_ne_true)).trans (if_pos hready.host)
  have hclient : step (udpReceiveCallback p m net.host) (.udpClient env) =
      udpClientProcess env (udpReceiveCallback p m net.host) :=
    (if_neg (by rw [hreset]; exact Bool.false_ne_true)).trans
      (if_pos (hk.isHost.trans hready.host))
  have hhost : (afterRequest net p m env).host =
      udpClientProcess env (udpReceiveCallback p m net.host) := by
    rw [← hclient, ← hreceive]
    rfl
  rw [hhost]
  exact ⟨_, hk, handled_request hreq hrecv hlen hbuf hreset hunsent⟩

/-! ## The reply -/

/-- The host has the block for a write reply, which is all that waits for the server. -/
structure ReplyWaits (p : UserParas) (s : Station) : Prop where
  sendEn : s.msg.tcpSendEn = false
  types : s.msgTypes = [REPLY_RECV_MSG_WRITE_PARA_CMD_TYPE]
  slave : s.logic.userParasSlave = p

theorem ReplyWaits.of_keeps {ps : List Part} {p : UserParas} {s t : Station} (h : ReplyWaits p s)
    (hk : Keeps ps s t) [hlink : Evident (.link ∉ ps)] [htypes : Evident (.msgQueue ∉ ps)]
    [hslave : Evident (.slave ∉ ps)] : ReplyWaits p t := by
  have hblock : t.logic.userParasSlave = s.logic.userParasSlave := hk.same .slave hslave.out
  exact ⟨(tcpSendEn_of_keeps hk).trans h.sendEn, hk.msgTypes.trans h.types,
    hblock.trans h.slave⟩

/-- The datagram that the host builds next is a write reply with the block. -/
structure RepliesWith (p : UserParas) (s : Station) : Prop where
  pending : (step s .sendMessage).msg.tcpSendEn = true
  wellFormed : WellFormed REPLY_RECV_MSG_WRITE_PARA_CMD_TYPE (step s .sendMessage).toSend
  decodes : DecodesPara p (step s .sendMessage).toSend

theorem ReplyWaits.repliesWith {p : UserParas} {s : Station} (h : ReplyWaits p s)
    (hrunning : s.systemReset = false) (hhost : s.isHost = true) (hbelt : p.beltNumber.toNat ≤ 10) :
    RepliesWith p s := by
  obtain ⟨q, htake⟩ : ∃ q,
      s.msg.msgSendQueue.take = some (REPLY_RECV_MSG_WRITE_PARA_CMD_TYPE, q) := by
    have hne : s.msg.msgSendQueue.take ≠ none := by
      rw [Ne, RingFifo.take_none_iff]
      exact fun hempty => by cases h.types.symm.trans hempty
    obtain ⟨⟨x, q⟩, htake⟩ := Option.ne_none_iff_exists'.mp hne
    have hfirst := (RingFifo.contents_take htake).symm.trans h.types
    rw [(List.cons.inj hfirst).1] at htake
    exact ⟨q, htake⟩
  have hstep : step s .sendMessage =
      { sendReplyWriteParaCmd { s with msg.msgSendQueue := q } with msg.tcpSendEn := true } := by
    have hsend : step s .sendMessage = sendMessageToServer s :=
      (if_neg (by rw [hrunning]; exact Bool.false_ne_true)).trans (if_pos hhost)
    rw [hsend]
    unfold sendMessageToServer getSendMsgFromQueue
    rw [h.sendEn, if_neg Bool.false_ne_true, htake]
    rfl
  have hblock : ({ s with msg.msgSendQueue := q } : Station).logic.userParasSlave = p := h.slave
  obtain ⟨hwell, hdecodes⟩ := sendReplyParaCmd_decodes REPLY_RECV_MSG_WRITE_PARA_CMD_TYPE
    (hblock ▸ hbelt)
  rw [hblock] at hdecodes
  exact ⟨by rw [hstep], by rw [hstep]; exact hwell, by rw [hstep]; exact hdecodes⟩

section Start

variable {ι : Type} [DecidableEq ι] {start : Network ι} {p : Pbuf} {block : UserParas}

/-- A block that is not for the host goes on the bus under its low byte. -/
theorem exchange_starts_low {k : ι} (hready : start.Ready) (hreq : WriteRequest p block) (m : U16)
    (env : UdpEnv) (hnumber : lo block.stationNo = (start.slave k).main.localStation)
    (hforeign : block.stationNo ≠ start.host.main.localStation.setWidth 16) :
    Exchange start k block (afterRequest start p m env) 60 := by
  obtain ⟨u, hku, hkt, hunsent⟩ := afterRequest_host hready hreq m env
  have hslave : ∀ j, (afterRequest start p m env).slave j = start.slave j := fun _ => rfl
  have hother : block.stationNo ≠ u.main.localStation.setWidth 16 := by
    rw [hku.localStation]
    exact hforeign
  rw [← hreq.block_eq] at hother
  have hwritten : Keeps [.canQueue] u (recvWritePara p.payload u) := by
    have htemp : Keeps [.canQueue] u (setParasTemp (UserParas.ofBytes p.payload 11) u) :=
      ⟨rfl, fun p hp => by cases p <;> rfl⟩
    rw [recvWritePara_remote hother]
    exact htemp.trans (canBusSendParaBlock_keeps _ _ _)
  have hqueue : (recvWritePara p.payload u).canFrames = canFramesOf (blockMsg 0x02 block)
      CAN_FUNC_ID_PARA_DATA (start.slave k).main.localStation := by
    rw [canFrames_recvWritePara (hku.canFrames.trans hready.drained.1) hother, hreq.block_eq,
      hnumber]
    rfl
  have hhost : Keeps [.link, .canQueue, .trace] start.host (afterRequest start p m env).host :=
    (hku.mono.trans hwritten.mono).trans hkt.mono
  have hlook : ∀ j, LookedOn (start.slave j) ((afterRequest start p m env).slave j) := by
    intro j
    rw [hslave]
    exact ⟨hready.slave_running j, rfl, Unwritten.refl _⟩
  have hstart : LookedOn start.host start.host := ⟨hready.host_running, rfl, Unwritten.refl _⟩
  refine ⟨⟨hstart.of_keeps hhost, hunsent, fun j _ => ⟨hlook j, ?_⟩, (hlook k).running,
    (hlook k).station⟩, ?_⟩
  · rw [hslave]
    exact hready.drained.2 j
  · have hphase : WritePhase start k block (afterRequest start p m env) _ :=
      .request (hkt.canFrames.trans hqueue) (fun f hf => canFramesOf_ids hf)
        (hready.drained.2 k) (hhost.msgTypes.trans hready.types)
        (canFramesOf_completes _ _ _ (by rw [length_blockMsg]; decide) _)
    rwa [length_blockFrames] at hphase

/-- A block for a slave goes on the bus. -/
theorem exchange_starts {k : ι} (hready : start.Ready) (hreq : WriteRequest p block) (m : U16)
    (env : UdpEnv) (hk : block.stationNo = (start.slave k).main.localStation.setWidth 16) :
    Exchange start k block (afterRequest start p m env) 60 := by
  have hnumber : lo block.stationNo = (start.slave k).main.localStation := by
    rw [hk]
    exact BitVec.setWidth_setWidth_of_le _ (by decide)
  refine exchange_starts_low hready hreq m env hnumber fun heq => ?_
  have hsame : (start.slave k).main.localStation = start.host.main.localStation := by
    rw [← hnumber, heq]
    exact BitVec.setWidth_setWidth_of_le _ (by decide)
  have hhost : (start.slave k).isHost = start.host.isHost := congrArg (· == 1) hsame
  rw [hready.host, hready.slave k] at hhost
  cases hhost

/-- The host's own block: the host has written it, and the slaves look on. -/
structure LocalDone (start : Network ι) (block : UserParas) (net : Network ι) : Prop where
  running : net.host.systemReset = false
  station : net.host.main.localStation = start.host.main.localStation
  silent : net.host.canFrames = []
  holds : net.host.Holds block
  reply : ReplyWaits (block.normalised start.host.main.localStation) net.host
  slave : ∀ k, LookedOn (start.slave k) (net.slave k) ∧ (net.slave k).canFrames = []

/-- A block for the host is written at once. -/
theorem localDone_starts (hready : start.Ready) (hreq : WriteRequest p block) (m : U16)
    (env : UdpEnv) (hown : block.stationNo = start.host.main.localStation.setWidth 16) :
    LocalDone start block (afterRequest start p m env) := by
  obtain ⟨u, hku, hkt, hunsent⟩ := afterRequest_host hready hreq m env
  have hslave : ∀ j, (afterRequest start p m env).slave j = start.slave j := fun _ => rfl
  have hno : u.main.localStation = start.host.main.localStation := hku.localStation
  have hmine : (UserParas.ofBytes p.payload 11).stationNo = u.main.localStation.setWidth 16 := by
    rw [hreq.block_eq, hown, hno]
  have hwords : ∀ i, i < USER_PARA_DATA_LEN →
      wordAt p.payload (17 + 2 * i) = block.word (i + 3) := by
    intro i hi
    unfold USER_PARA_DATA_LEN at hi
    have hword : (UserParas.ofBytes p.payload 11).word (i + 3) =
        wordAt p.payload (11 + 2 * (i + 3)) :=
      UserParas.word_ofWords _ (by unfold UserParas.wordCount; omega)
    rw [← hreq.block_eq, hword]
    congr 1
    omega
  obtain ⟨t, ht, hholds, hkeeps⟩ : ∃ t, recvWritePara p.payload u =
      paraReply REPLY_RECV_MSG_WRITE_PARA_CMD_TYPE
        (block.normalised start.host.main.localStation) t ∧
      t.Holds block ∧ Keeps [.paras, .modbus, .flash] u t := by
    have htemp : Keeps [.paras, .modbus, .flash] u
        (setParasTemp (UserParas.ofBytes p.payload 11) u) :=
      ⟨rfl, fun p hp => by cases p <;> rfl⟩
    refine ⟨_, ?_, holds_written hwords _, htemp.trans (readWriteParas_keeps _ _)⟩
    rw [recvWritePara_local hmine, writtenParas_toUserParas _ hwords, hno]
  have hreply := paraReply_keeps REPLY_RECV_MSG_WRITE_PARA_CMD_TYPE
    (block.normalised start.host.main.localStation) t
  have htypes : (recvWritePara p.payload u).msgTypes = [REPLY_RECV_MSG_WRITE_PARA_CMD_TYPE] := by
    have hnone : t.msg.msgSendQueue.contents = [] :=
      (hkeeps.msgTypes.trans hku.msgTypes).trans hready.types
    have hadd := RingFifo.contents_add_eq t.msg.msgSendQueue REPLY_RECV_MSG_WRITE_PARA_CMD_TYPE
    rw [hnone] at hadd
    rw [ht]
    exact hadd
  have hblock : (afterRequest start p m env).host.logic.userParasSlave =
      block.normalised start.host.main.localStation := by
    have hsame : (afterRequest start p m env).host.logic.userParasSlave =
        (recvWritePara p.payload u).logic.userParasSlave := hkt.same .slave (by decide)
    rw [hsame, ht]
    rfl
  rw [ht] at hkt
  have hend : Keeps [.slave, .msgQueue, .trace, .link] t (afterRequest start p m env).host :=
    hreply.mono.trans hkt.mono
  have hall : Keeps [.paras, .modbus, .flash, .slave, .msgQueue, .trace, .link] start.host
      (afterRequest start p m env).host :=
    (hku.mono.trans hkeeps.mono).trans hend.mono
  have hreset : (afterRequest start p m env).host.systemReset = start.host.systemReset :=
    hall.same .systemReset (by decide)
  rw [← ht] at hkt
  refine ⟨hreset.trans hready.host_running, hall.localStation,
    hall.canFrames.trans hready.drained.1, hholds.of_keeps hend,
    ⟨hunsent, hkt.msgTypes.trans htypes, hblock⟩, fun k => ⟨?_, ?_⟩⟩
  · rw [hslave]
    exact ⟨hready.slave_running k, rfl, Unwritten.refl _⟩
  · rw [hslave]
    exact hready.drained.2 k

/-- Nothing is left to be sent. -/
theorem LocalDone.step {net : Network ι} {x : NetInput ι} (h : LocalDone start block net)
    (hquiet : net.Quietly x) : LocalDone start block (net.step x) := by
  rcases Network.quiet_cases hquiet with haside | ⟨f, hsent⟩ | ⟨j, f, hsent⟩
  · have hhost := haside.host
    have hreset : (net.step x).host.systemReset = net.host.systemReset :=
      hhost.same .systemReset (by decide)
    refine ⟨hreset.trans h.running, hhost.localStation.trans h.station,
      hhost.canFrames.trans h.silent, h.holds.of_keeps hhost, h.reply.of_keeps hhost, fun k => ?_⟩
    obtain ⟨hlook, hsilent⟩ := h.slave k
    exact ⟨hlook.of_keeps (haside.slave k), (haside.slave k).canFrames.trans hsilent⟩
  · have hqueue := hsent.queue
    rw [h.silent] at hqueue
    cases hqueue
  · have hqueue := hsent.queue
    rw [(h.slave j).2] at hqueue
    cases hqueue

/-- **A parameter write, end to end.**  The host handles a write request, and nothing else
happens on the bus or on the server link.  When a block for slave `k` has left no frame
behind, slave `k` holds the block, nobody else was written, and the host replies with it;
and wherever the exchange is, it can be brought to such an end.  A block for the host is
held by the host as soon as the request is handled. -/
theorem parameter_write (hready : start.Ready) (hreq : WriteRequest p block) (m : U16)
    (env : UdpEnv) {net : Network ι}
    (hrun : Reach (· = afterRequest start p m env) Network.step Network.Quietly net) :
    (∀ k, block.stationNo = (start.slave k).main.localStation.setWidth 16 →
      (net.Drained →
        (net.slave k).Holds block ∧ Unwritten start.host net.host ∧
          (∀ j, j ≠ k → Unwritten (start.slave j) (net.slave j)) ∧
          RepliesWith (block.normalised (start.slave k).main.localStation) net.host) ∧
      ∃ xs, Along Network.step Network.Quietly net xs ∧ (run Network.step net xs).Drained) ∧
    (block.stationNo = start.host.main.localStation.setWidth 16 →
      net.host.Holds block ∧ (∀ j, Unwritten (start.slave j) (net.slave j)) ∧
        RepliesWith (block.normalised start.host.main.localStation) net.host) := by
  constructor
  · intro k hk
    have hinit : ∀ s, s = afterRequest start p m env → ∃ n, Exchange start k block s n := by
      rintro s rfl
      exact ⟨60, exchange_starts hready hreq m env hk⟩
    have hstep : ∀ s x, (∃ n, Exchange start k block s n) → Network.Quietly s x →
        ∃ n, Exchange start k block (s.step x) n :=
      fun s x ⟨n, hn⟩ hquiet => hn.step hready hquiet
    obtain ⟨n, h⟩ := hrun.invariant hinit hstep
    refine ⟨fun hdrained => ?_, ?_⟩
    · obtain ⟨hholds, htypes, hslave⟩ := h.done_of_drained hdrained
      have hb := h.beside
      have hwaits : ReplyWaits _ net.host := ⟨hb.sendEn, htypes, hslave⟩
      exact ⟨hholds, hb.host.unwritten, fun j hj => (hb.other j hj).1.unwritten,
        hwaits.repliesWith hb.host.running (hb.host.isHost.trans hready.host)
          (normalised_beltNumber _ _)⟩
    · obtain ⟨xs, -, halong, hend⟩ := h.ends hready
      exact ⟨xs, halong, hend.drained⟩
  · intro hown
    have hinit : ∀ s, s = afterRequest start p m env → LocalDone start block s := by
      rintro s rfl
      exact localDone_starts hready hreq m env hown
    have hstep : ∀ s x, LocalDone start block s → Network.Quietly s x →
        LocalDone start block (s.step x) :=
      fun s x hs hquiet => hs.step hquiet
    have h := hrun.invariant hinit hstep
    have hhost : net.host.isHost = start.host.isHost := congrArg (· == 1) h.station
    exact ⟨h.holds, fun j => (h.slave j).1.unwritten,
      h.reply.repliesWith h.running (hhost.trans hready.host) (normalised_beltNumber _ _)⟩

end Start

/-! ## A write to slave 2 -/

/-- A datagram that writes one belt to station 2, with an upstream section that no station
has. -/
def writeSlaveParas : Pbuf :=
  { segments := [[0xAA, 0xAA, 0x01, 0x00, 0x00, 0x00, 0xF3, 0x00, 0x14, 0x04, 0x16] ++
      [0x00, 0x00, 0x00, 0x00, 0x02, 0x00, 0x07, 0x01, 0x03, 0x00, 0x01, 0x00] ++
      List.replicate 220 0x00]
    behind := fun _ => 0 }

def slaveBlock : UserParas := UserParas.ofBytes writeSlaveParas.payload 11

theorem writeSlaveParas_request : WriteRequest writeSlaveParas slaveBlock :=
  ⟨by decide +kernel, by decide +kernel, by decide +kernel, rfl⟩

/-- The two stations, with the host linked to the server. -/
def linkedStations : Network (Fin 1) :=
  { twoStations with host := run step twoStations.host [.udpClient linkUp, .udpClient linkUp] }

theorem linkedStations_ready : linkedStations.Ready := by
  have hhost : linkedStations.host.isHost = true ∧ linkedStations.host.systemReset = false ∧
      linkedStations.host.msg.tcpClientStatue = .connectOk ∧
      linkedStations.host.msg.tcpRecvLen = 0 ∧ linkedStations.host.msg.tcpSendEn = false ∧
      linkedStations.host.msgTypes = [] ∧ linkedStations.host.canFrames = [] := by
    decide +kernel
  obtain ⟨hhost, hrunning, hconnected, hreceived, hunsent, htypes, hframes⟩ := hhost
  have hno : ∀ k, (linkedStations.slave k).main.localStation = 2 := fun _ => boot_localStation _ _
  exact ⟨hhost, fun k => show ((linkedStations.slave k).main.localStation == 1) = false by
      rw [hno]; decide, fun _ _ _ => Subsingleton.elim _ _, hrunning,
    fun _ => boot_systemReset _ _, hconnected, hreceived, hunsent, htypes, hframes,
    fun _ => boot_canFrames _ _⟩

/-- The slave holds the belt and no upstream section, and the host says so. -/
theorem slave_written :
    ∃ net : Network (Fin 1), (net.slave 0).Holds slaveBlock ∧
      RepliesWith (slaveBlock.normalised 2) net.host ∧ (slaveBlock.normalised 2).upStreamNo = 0 ∧
      (slaveBlock.normalised 2).beltNumber = 1 := by
  have hno : slaveBlock.stationNo = (linkedStations.slave 0).main.localStation.setWidth 16 := by
    have htwo : (linkedStations.slave 0).main.localStation = 2 := boot_localStation _ _
    rw [htwo]
    decide +kernel
  have hstart : Reach (· = afterRequest linkedStations writeSlaveParas 0 linkUp) Network.step
      Network.Quietly (afterRequest linkedStations writeSlaveParas 0 linkUp) := Reach.start rfl
  obtain ⟨xs, halong, hdrained⟩ := ((parameter_write linkedStations_ready writeSlaveParas_request 0
    linkUp hstart).1 0 hno).2
  obtain ⟨hholds, -, -, hreplies⟩ := ((parameter_write linkedStations_ready
    writeSlaveParas_request 0 linkUp (hstart.run_of_along halong)).1 0 hno).1 hdrained
  have htwo : (linkedStations.slave 0).main.localStation = 2 := boot_localStation _ _
  rw [htwo] at hreplies
  exact ⟨_, hholds, hreplies, by decide +kernel, by decide +kernel⟩

end IotCtrl
