import IotCtrl.ServerDatagram

/-!
# The datagrams the host sends

Three routines build datagrams for the server, two for a parameter block and one for a
module state.  All share one frame, `msgFrame`: the head, the length, the checksum over
what follows it, the message type and a body.

* `msgFrame_wellFormed` — every such frame that fits the buffer passes `recv_msg_check`,
  and fails it after any single error outside the id bytes;
* `replyParaDatagram_decodes`, `moduleStatusDatagram_decodes` — the body gives back what
  it was built from;
* `sent_datagrams_decode` — both, for what the three routines leave in the send buffer;
* `station_number_truncated` — a module state has one byte for its station number.
-/

namespace IotCtrl

open ByteMemory

/-! ## What a datagram should be -/

/-- Accepted at its own length whatever lies behind it, with the type it was built for,
and rejected once one byte other than the four id bytes is changed. -/
structure WellFormed (type : U16) (d : List U8) : Prop where
  fits : d.length ≤ 300
  accepted : ∀ rest, recvMsgCheck (prepend d rest) d.length = true
  type_eq : ∀ rest, msgType (prepend d rest) = type
  protects : ∀ (i : Nat) (b : U8), i < d.length → i = 0 ∨ i = 1 ∨ 6 ≤ i → d[i]? ≠ some b →
    ∀ rest, recvMsgCheck (prepend (d.set i b) rest) d.length = false

/-- The body decodes to the header of the block and to the belts the block has. -/
structure DecodesPara (p : UserParas) (d : List U8) : Prop where
  header : ∀ rest,
    let q := UserParas.ofBytes (prepend d rest) 11
    q.versionNoL = p.versionNoL ∧ q.versionNoH = p.versionNoH ∧ q.stationNo = p.stationNo ∧
      q.upStreamNo = p.upStreamNo ∧ q.downStreamNo = p.downStreamNo ∧
      q.beltNumber = p.beltNumber
  belts : ∀ rest k, k < p.beltNumber.toNat →
    (UserParas.ofBytes (prepend d rest) 11).beltPara.get k = p.beltPara.get k

/-- The body decodes to one module with this station number, belt count and records. -/
structure DecodesStatus (m : ModuleStatus) (d : List U8) : Prop where
  header : ∀ rest,
    prepend d rest 11 = 1 ∧ (prepend d rest 12).setWidth 16 = m.stationNo ∧
      (prepend d rest 13).setWidth 16 = m.beltNumber
  records : ∀ rest k v, m.inverterStatus[k]? = some v →
    InverterStatus.ofBytes (prepend d rest) (14 + 10 * k) = v

/-- A module state of up to ten belts, with an inverter record for each belt. -/
def ModuleStatus.Complete (m : ModuleStatus) : Prop :=
  m.inverterStatus.length = m.beltNumber.toNat ∧ m.beltNumber.toNat ≤ 10

instance (m : ModuleStatus) : Decidable m.Complete := inferInstanceAs (Decidable (_ ∧ _))

/-- The datagram in the send buffer, which `udp_send_process` hands to the network. -/
def Station.toSend (s : Station) : List U8 := read s.msg.tcpSendBuf 0 s.msg.tcpSendLen.toNat

/-! ## The shared frame -/

/-- Head, id, length, checksum, type and body. -/
def msgFrame (type : U16) (body : List U8) : List U8 :=
  let len : U16 := BitVec.ofNat 16 (11 + body.length)
  [0xAA, 0xAA, 0x01, 0x00, 0x00, 0x00, lo len, hi len, xorFold (lo type) (hi type :: body),
    lo type, hi type] ++ body

theorem length_msgFrame (type : U16) (body : List U8) :
    (msgFrame type body).length = 11 + body.length := by
  simp [msgFrame]
  omega

/-- A frame whose body fits, as a datagram. -/
def frameDatagram (type : U16) (body : List U8) (h : body.length ≤ 289) : Datagram :=
  { bytes := msgFrame type body
    bytes_le := by rw [length_msgFrame]; omega }

theorem frameDatagram_not_refuted (type : U16) {body : List U8} (h : body.length ≤ 289) :
    ¬ (frameDatagram type body h).Refuted := by
  have hlen : (frameDatagram type body h).length = 11 + body.length := length_msgFrame type body
  unfold Datagram.Refuted
  rw [hlen]
  intro hr
  rcases hr with ⟨-, hr⟩ | ⟨-, hr⟩ | ⟨-, hr⟩ | ⟨-, hr⟩ | ⟨-, hr⟩
  all_goals exact hr rfl

/-- A datagram with one byte changed. -/
def Datagram.corrupt (d : Datagram) (i : Nat) (b : U8) : Datagram :=
  { bytes := d.bytes.set i b
    bytes_le := by rw [List.length_set]; exact d.bytes_le }

/-- **Single errors.**  A datagram that is not refuted is once one byte other than the
id bytes is changed. -/
theorem Datagram.corrupt_refuted {d : Datagram} (h : ¬ d.Refuted) (hlen : 10 ≤ d.length)
    {i : Nat} {b : U8} (hi : i < d.length) (hpos : i = 0 ∨ i = 1 ∨ 6 ≤ i) (hb : b ≠ d.byte i) :
    (d.corrupt i b).Refuted := by
  simp only [Refuted, not_or, not_and, not_not] at h
  obtain ⟨h0, h1, h6, h7, hsum⟩ := h
  have hsame : (d.corrupt i b).length = d.length := List.length_set
  have hself : (d.corrupt i b).byte i = b := by
    have hi' : i < d.bytes.length := hi
    simp [corrupt, byte, hi']
  have hother : ∀ j, j ≠ i → (d.corrupt i b).byte j = d.byte j := by
    intro j hj
    simp [corrupt, byte, List.getElem?_set_ne hj.symm]
  unfold Refuted
  rw [hsame]
  rcases Nat.lt_or_ge i 9 with hlt | hge
  · have hcases : i = 0 ∨ i = 1 ∨ i = 6 ∨ i = 7 ∨ i = 8 := by omega
    rcases hcases with rfl | rfl | rfl | rfl | rfl
    · exact Or.inl ⟨hi, by rw [hself, ← h0 hi]; exact hb⟩
    · exact Or.inr (Or.inl ⟨hi, by rw [hself, ← h1 hi]; exact hb⟩)
    · exact Or.inr (Or.inr (Or.inl ⟨hi, by rw [hself, ← h6 hi]; exact hb⟩))
    · exact Or.inr (Or.inr (Or.inr (Or.inl ⟨hi, by rw [hself, ← h7 hi]; exact hb⟩)))
    · refine Or.inr (Or.inr (Or.inr (Or.inr ⟨hlen, ?_⟩)))
      have hdrop : (d.corrupt 8 b).bytes.drop 10 = d.bytes.drop 10 :=
        List.drop_set_of_lt (by omega)
      rw [hself, hother 9 (by omega), hdrop, hsum hlen]
      exact hb.symm
  · refine Or.inr (Or.inr (Or.inr (Or.inr ⟨hlen, ?_⟩)))
    rw [hother 8 (by omega), ← hsum hlen]
    rcases Nat.eq_or_lt_of_le hge with rfl | hgt
    · have hdrop : (d.corrupt 9 b).bytes.drop 10 = d.bytes.drop 10 :=
        List.drop_set_of_lt (by omega)
      rw [hself, hdrop]
      exact xorFold_ne_of_init hb _
    · have hidx : 10 + (i - 10) = i := by omega
      have hi' : i < d.bytes.length := hi
      have hdrop : (d.corrupt i b).bytes.drop 10 = (d.bytes.drop 10).set (i - 10) b := by
        rw [List.set_drop, hidx]
        rfl
      have hlt : i - 10 < (d.bytes.drop 10).length := by
        rw [List.length_drop]
        omega
      rw [hother 9 (by omega), hdrop]
      refine xorFold_set_ne _ hlt fun heq => hb ?_
      rw [heq, List.getElem_drop]
      simp [byte, hi', hidx]

theorem msgFrame_wellFormed (type : U16) {body : List U8} (h : body.length ≤ 289) :
    WellFormed type (msgFrame type body) := by
  have hgood := frameDatagram_not_refuted type h
  have hlen : (frameDatagram type body h).length = 11 + body.length := length_msgFrame type body
  refine ⟨(frameDatagram type body h).bytes_le, ?_, ?_, ?_⟩
  · exact fun rest => Datagram.accepted (by omega) hgood rest
  · intro rest
    exact le16_lo_hi type
  · intro i b hi hpos hb rest
    have hbyte : b ≠ (frameDatagram type body h).byte i := by
      intro heq
      have hi' : i < (msgFrame type body).length := hi
      refine hb ?_
      rw [heq]
      simp [Datagram.byte, frameDatagram, hi']
    have href := Datagram.corrupt_refuted hgood (by omega) hi hpos hbyte
    have hrej := href.rejected rest
    have hsame : ((frameDatagram type body h).corrupt i b).length =
        (msgFrame type body).length := List.length_set
    rw [hsame] at hrej
    exact hrej

/-- The body starts at offset 11. -/
theorem prepend_msgFrame (type : U16) {body : List U8} (rest : Mem) {i : Nat}
    (hi : i < body.length) : prepend (msgFrame type body) rest (11 + i) = body[i] := by
  have hlt : 11 + i < (msgFrame type body).length := by
    rw [length_msgFrame]
    omega
  have hget : (msgFrame type body)[11 + i]? = body[i]? := by
    unfold msgFrame
    dsimp only
    rw [List.getElem?_append_right (by simp)]
    simp
  rw [prepend_of_lt hlt]
  rw [List.getElem?_eq_getElem hlt, List.getElem?_eq_getElem hi] at hget
  exact Option.some.inj hget

/-! ## Parameter blocks -/

/-- The bytes of a block that a reply carries. -/
def paraBody (p : UserParas) : List U8 := read p.byte 0 (12 + 22 * p.beltNumber.toNat)

theorem length_paraBody (p : UserParas) :
    (paraBody p).length = 12 + 22 * p.beltNumber.toNat :=
  length_read _ _ _

theorem replyParaDatagram_eq (type : U16) {p : UserParas} (h : p.beltNumber.toNat ≤ 10) :
    replyParaDatagram type p = msgFrame type (paraBody p) := by
  have hlen : (11 + 12 + 22 * p.beltNumber : U16).toNat = 11 + (12 + 22 * p.beltNumber.toNat) := by
    bv_omega
  have hword :
      (11 + 12 + 22 * p.beltNumber : U16) = BitVec.ofNat 16 (11 + (paraBody p).length) := by
    rw [length_paraBody]
    bv_omega
  have hbody : read p.byte 0 ((11 + 12 + 22 * p.beltNumber : U16).toNat - 11) = paraBody p := by
    rw [hlen, Nat.add_sub_cancel_left]
    rfl
  have htake : (hi type :: paraBody p).take
      ((11 + 12 + 22 * p.beltNumber : U16).toNat - 10) = hi type :: paraBody p := by
    refine List.take_of_length_le ?_
    rw [List.length_cons, length_paraBody, hlen]
    omega
  unfold replyParaDatagram msgFrame
  dsimp only
  rw [hbody, htake, hword]

/-- **A parameter reply decodes** to the header and the belts of its block. -/
theorem replyParaDatagram_decodes (type : U16) {p : UserParas} (h : p.beltNumber.toNat ≤ 10) :
    DecodesPara p (replyParaDatagram type p) := by
  rw [replyParaDatagram_eq type h]
  have hbyte : ∀ rest i, i < 2 * (6 + 11 * p.beltNumber.toNat) →
      prepend (msgFrame type (paraBody p)) rest (11 + i) = bytesOf p.word i := by
    intro rest i hi
    have hlt : i < (paraBody p).length := by
      rw [length_paraBody]
      omega
    rw [prepend_msgFrame type rest hlt]
    simp [paraBody, UserParas.byte]
  have hword : ∀ rest k, k < 6 + 11 * p.beltNumber.toNat →
      wordAt (prepend (msgFrame type (paraBody p)) rest) (11 + 2 * k) = p.word k :=
    fun rest k hk => wordAt_bytesOf (hbyte rest) hk
  refine ⟨fun rest => ?_, fun rest k hk => ?_⟩
  · exact ⟨hword rest 0 (by omega), hword rest 1 (by omega), hword rest 2 (by omega),
      hword rest 3 (by omega), hword rest 4 (by omega), hword rest 5 (by omega)⟩
  · have hk10 : k < 10 := by omega
    have hbelt : ∀ q : UserParas, q.beltPara.get k = q.beltPara ⟨k, hk10⟩ :=
      fun q => dif_pos hk10
    rw [hbelt, hbelt, ← BeltParas.ofWords_word (p.beltPara ⟨k, hk10⟩), UserParas.ofBytes,
      UserParas.ofWords]
    dsimp only
    refine BeltParas.ofWords_congr fun j hj => ?_
    rw [← UserParas.word_belt p ⟨k, hk10⟩ hj]
    exact hword rest _ (by omega)

/-! ## Module states -/

/-- The bytes of a record that an upload carries. -/
def statusBody (m : ModuleStatus) : List U8 :=
  [1, lo m.stationNo, lo m.beltNumber] ++ m.inverterStatus.flatMap InverterStatus.bytes

/-- Records of one size lie side by side. -/
theorem getElem?_flatMap_of_length {α β : Type} {f : α → List β} {n : Nat}
    (hf : ∀ x, (f x).length = n) {xs : List α} {k j : Nat} {v : α} (hv : xs[k]? = some v)
    (hj : j < n) : (xs.flatMap f)[n * k + j]? = (f v)[j]? := by
  induction xs generalizing k with
  | nil => simp at hv
  | cons x xs ih =>
      rw [List.flatMap_cons]
      cases k with
      | zero =>
          obtain rfl : x = v := by simpa using hv
          rw [Nat.mul_zero, Nat.zero_add]
          exact List.getElem?_append_left (by rw [hf]; exact hj)
      | succ k =>
          have hidx : n * (k + 1) + j = (f x).length + (n * k + j) := by
            rw [hf, Nat.mul_succ]
            omega
          rw [hidx, List.getElem?_append_right (Nat.le_add_right _ _), Nat.add_sub_cancel_left]
          exact ih (by simpa using hv)

theorem length_statusBody (m : ModuleStatus) :
    (statusBody m).length = 3 + 10 * m.inverterStatus.length := by
  have hrecords : (m.inverterStatus.flatMap InverterStatus.bytes).length =
      10 * m.inverterStatus.length := by
    induction m.inverterStatus with
    | nil => rfl
    | cons v vs ih =>
        rw [List.flatMap_cons, List.length_append, ih, List.length_cons, InverterStatus.bytes,
          length_read]
        omega
  rw [statusBody, List.length_append, hrecords]
  rfl

theorem moduleStatusDatagram_eq (type : U16) {m : ModuleStatus}
    (hlen : m.inverterStatus.length = m.beltNumber.toNat) :
    moduleStatusDatagram type m = msgFrame type (statusBody m) := by
  have hword : (14 + 10 * m.beltNumber : U16) = BitVec.ofNat 16 (11 + (statusBody m).length) := by
    rw [length_statusBody, hlen]
    bv_omega
  unfold moduleStatusDatagram msgFrame
  dsimp only
  rw [hword]
  rfl

/-- **A module state decodes** to its station number, belt count and records. -/
theorem moduleStatusDatagram_decodes (type : U16) {m : ModuleStatus}
    (hm : m.Complete) (hstation : m.stationNo.toNat < 256) :
    DecodesStatus m (moduleStatusDatagram type m) := by
  obtain ⟨hlen, h⟩ := hm
  rw [moduleStatusDatagram_eq type hlen]
  have hlo : ∀ w : U16, w.toNat < 256 → (lo w).setWidth 16 = w := by
    intro w hw
    unfold lo
    bv_omega
  have hbody : ∀ rest i (hi : i < (statusBody m).length),
      prepend (msgFrame type (statusBody m)) rest (11 + i) = (statusBody m)[i] :=
    fun rest i hi => prepend_msgFrame type rest hi
  have hlength := length_statusBody m
  refine ⟨fun rest => ?_, fun rest k v hv => ?_⟩
  · have h0 := hbody rest 0 (by omega)
    have h1 := hbody rest 1 (by omega)
    have h2 := hbody rest 2 (by omega)
    refine ⟨h0, ?_, ?_⟩
    · exact (congrArg (BitVec.setWidth 16) h1).trans (hlo _ hstation)
    · exact (congrArg (BitVec.setWidth 16) h2).trans (hlo _ (by omega))
  · have hk : k < m.inverterStatus.length := (List.getElem?_eq_some_iff.mp hv).1
    have hbyte : ∀ i, i < 2 * 5 →
        prepend (msgFrame type (statusBody m)) rest (14 + 10 * k + i) = bytesOf v.word i := by
      intro i hi
      have hlt : 3 + (10 * k + i) < (statusBody m).length := by omega
      have hat : (statusBody m)[3 + (10 * k + i)]? = v.bytes[i]? := by
        rw [statusBody, List.getElem?_append_right (by simp)]
        exact (congrArg _ (Nat.add_sub_cancel_left 3 (10 * k + i))).trans
          (getElem?_flatMap_of_length (fun x => length_read _ _ _) hv hi)
      have hidx : 14 + 10 * k + i = 11 + (3 + (10 * k + i)) := by omega
      have hget : v.bytes[i]? = some (bytesOf v.word i) := by
        simp [InverterStatus.bytes, ByteMemory.read, hi]
      rw [hidx, hbody rest _ hlt]
      exact (List.getElem?_eq_some_iff.mp (hat.trans hget)).2
    have hword : ∀ j, j < 5 →
        wordAt (prepend (msgFrame type (statusBody m)) rest) (14 + 10 * k + 2 * j) = v.word j :=
      fun j hj => wordAt_bytesOf hbyte hj
    unfold InverterStatus.ofBytes
    cases v
    congr 1
    · exact hword 0 (by omega)
    · exact hword 1 (by omega)
    · exact hword 2 (by omega)
    · exact hword 3 (by omega)
    · exact hword 4 (by omega)

/-! ## What the three routines leave in the send buffer -/

theorem setSendBuf_toSend {d : List U8} (h : d.length < 2 ^ 16) (s : Station) :
    (setSendBuf d s).toSend = d := by
  have hlen : (BitVec.ofNat 16 d.length).toNat = d.length := by
    rw [BitVec.toNat_ofNat]
    omega
  show read (write s.msg.tcpSendBuf 0 d) 0 (BitVec.ofNat 16 d.length).toNat = d
  rw [hlen, read_write]

/-- A reply of either type for the block at hand. -/
theorem sendReplyParaCmd_decodes (type : U16) {s : Station}
    (h : s.logic.userParasSlave.beltNumber.toNat ≤ 10) :
    WellFormed type (sendReplyParaCmd type s).toSend ∧
      DecodesPara s.logic.userParasSlave (sendReplyParaCmd type s).toSend := by
  have hwell : WellFormed type (replyParaDatagram type s.logic.userParasSlave) := by
    rw [replyParaDatagram_eq type h]
    exact msgFrame_wellFormed type (by rw [length_paraBody]; omega)
  have hsend : (sendReplyParaCmd type s).toSend = replyParaDatagram type s.logic.userParasSlave :=
    setSendBuf_toSend (Nat.lt_of_le_of_lt hwell.fits (by decide)) s
  rw [hsend]
  exact ⟨hwell, replyParaDatagram_decodes type h⟩

/-- An upload of the oldest record. -/
theorem sendMsgModuleStatusCmd_decodes (type : U16) {s t : Station} {m : ModuleStatus}
    (hget : getModuleStatusDataFromQueue s = some (m, t))
    (hm : m.Complete) (hstation : m.stationNo.toNat < 256) :
    WellFormed type (sendMsgModuleStatusCmd type s).toSend ∧
      DecodesStatus m (sendMsgModuleStatusCmd type s).toSend := by
  have hwell : WellFormed type (moduleStatusDatagram type m) := by
    obtain ⟨hlen, h⟩ := hm
    rw [moduleStatusDatagram_eq type hlen]
    exact msgFrame_wellFormed type (by rw [length_statusBody]; omega)
  have hsend : (sendMsgModuleStatusCmd type s).toSend = moduleStatusDatagram type m := by
    rw [sendMsgModuleStatusCmd, hget]
    exact setSendBuf_toSend (Nat.lt_of_le_of_lt hwell.fits (by decide)) t
  rw [hsend]
  exact ⟨hwell, moduleStatusDatagram_decodes type hm hstation⟩

/-- **What the host sends is well formed and decodes**: both parameter replies for every
block of up to ten belts, and uploads of every complete record of a station whose
number fits the byte it is sent in. -/
theorem sent_datagrams_decode (s : Station) :
    (s.logic.userParasSlave.beltNumber.toNat ≤ 10 →
      (WellFormed REPLY_RECV_MSG_READ_PARA_CMD_TYPE (sendReplyReadParaCmd s).toSend ∧
        DecodesPara s.logic.userParasSlave (sendReplyReadParaCmd s).toSend) ∧
      WellFormed REPLY_RECV_MSG_WRITE_PARA_CMD_TYPE (sendReplyWriteParaCmd s).toSend ∧
        DecodesPara s.logic.userParasSlave (sendReplyWriteParaCmd s).toSend) ∧
    ∀ (type : U16) (m : ModuleStatus) (t : Station),
      getModuleStatusDataFromQueue s = some (m, t) → m.Complete → m.stationNo.toNat < 256 →
        WellFormed type (sendMsgModuleStatusCmd type s).toSend ∧
          DecodesStatus m (sendMsgModuleStatusCmd type s).toSend := by
  constructor
  · intro h
    exact ⟨sendReplyParaCmd_decodes _ h, sendReplyParaCmd_decodes _ h⟩
  · intro type m t hget hm hstation
    exact sendMsgModuleStatusCmd_decodes type hget hm hstation

/-- The parameters of station 3 with two belts. -/
def twoBelts : UserParas :=
  { versionNoL := 0x0004
    versionNoH := 0x1000
    stationNo := 3
    upStreamNo := 2
    downStreamNo := 4
    beltNumber := 2
    beltPara := fun b =>
      { (default : BeltParas) with
        funcSelectSwitch := 0x3
        gear1SpeedFreq := 1000
        gear2SpeedFreq := if b.val = 0 then 2500 else 3000
        startDelayTime := 500
        blockCheckTime := 10 } }

/-- The state of a station whose one belt runs. -/
def runningBelt (stationNo : U16) : ModuleStatus :=
  { stationNo := stationNo
    beltNumber := 1
    inverterStatus :=
      [{ faultCode := 0x0510
         inputStatus := 0x3
         lineSpeed := 1200
         electricCurrent := 35
         inverterFreq := 2500 }] }

/-- A host with an answered parameter request and one record in the module queue. -/
def oneRecord (stationNo : U16) : Station :=
  addModuleStatusData2Queue (runningBelt stationNo)
    { Station.cleared zeroFlash 1 with logic.userParasSlave := twoBelts }

theorem getModuleStatusDataFromQueue_oneRecord (stationNo : U16) :
    ∃ t, getModuleStatusDataFromQueue (oneRecord stationNo) = some (runningBelt stationNo, t) :=
  ⟨_, rfl⟩

/-- The two belts of station 3, and the record of its running belt. -/
theorem belt_datagrams_decode :
    DecodesPara twoBelts (sendReplyReadParaCmd (oneRecord 3)).toSend ∧
      DecodesPara twoBelts (sendReplyWriteParaCmd (oneRecord 3)).toSend ∧
      WellFormed SEND_MSG_MODULE_STATUS_TYPE
        (sendMsgModuleStatusCmd SEND_MSG_MODULE_STATUS_TYPE (oneRecord 3)).toSend ∧
      DecodesStatus (runningBelt 3)
        (sendMsgModuleStatusCmd SEND_MSG_MODULE_STATUS_TYPE (oneRecord 3)).toSend := by
  obtain ⟨t, hget⟩ := getModuleStatusDataFromQueue_oneRecord 3
  obtain ⟨hpara, hstatus⟩ := sent_datagrams_decode (oneRecord 3)
  have hreplies := hpara (by decide)
  have hupload := hstatus SEND_MSG_MODULE_STATUS_TYPE _ t hget (by decide) (by decide)
  exact ⟨hreplies.1.2, hreplies.2.2, hupload.1, hupload.2⟩

/-- Station 256 is sent as station 0. -/
theorem station_number_truncated :
    ¬ ∀ (s t : Station) (type : U16) (m : ModuleStatus),
      getModuleStatusDataFromQueue s = some (m, t) → m.Complete →
        DecodesStatus m (sendMsgModuleStatusCmd type s).toSend := by
  intro h
  obtain ⟨t, hget⟩ := getModuleStatusDataFromQueue_oneRecord 256
  have hdecodes := h (oneRecord 256) t SEND_MSG_MODULE_STATUS_TYPE _ hget (by decide)
  exact absurd (hdecodes.header fun _ => 0).2.1 (by decide)

end IotCtrl
