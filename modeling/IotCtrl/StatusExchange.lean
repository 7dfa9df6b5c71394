import IotCtrl.BusExchange
import IotCtrl.CanBounds
import IotCtrl.Clock
import IotCtrl.StatusUpload

/-!
# A station is asked for its state

Twice a second the host asks one station for the state of its belts.  The station answers with
what it has recorded when it hears the request, the host keeps the record for the server, and the
neighbours of the station learn whether its outer belts run.

* `statusMsg_bytes` — the message gives the records back;
* `dispatch_status`, `ReportTaken` — what a station does with a record;
* `statusRequest_served` — who answers, and that nobody answers an answer;
* `status_poll` — the record that the stations take is the one the station held when it was asked.
-/

namespace IotCtrl

open ByteMemory Transition ClosedFacts

/-! ## The message -/

/-- The record of a station: the state of its belts. -/
def Station.report (s : Station) : ModuleStatus :=
  { stationNo := s.main.localStation.setWidth 16
    beltNumber := s.logic.userParasLocal.beltNumber
    inverterStatus := (List.range s.beltNumber).map s.inverter }

/-- The message of the record. -/
def statusMsg (s : Station) : List U8 :=
  let body := (List.range s.beltNumber).flatMap fun i => (s.inverter i).bytes
  let canSendLen : U16 := BitVec.ofNat 16 (3 + body.length)
  [lo canSendLen, hi canSendLen, lo s.logic.userParasLocal.beltNumber] ++ body

theorem length_statusRecords (s : Station) (n : Nat) :
    ((List.range n).flatMap fun i => (s.inverter i).bytes).length = 10 * n := by
  induction n with
  | zero => rfl
  | succ n ih =>
      rw [List.range_succ, List.flatMap_append, List.length_append, ih]
      simp [InverterStatus.bytes]
      omega

theorem length_statusMsg (s : Station) : (statusMsg s).length = 3 + 10 * s.beltNumber := by
  unfold statusMsg
  dsimp only
  rw [List.length_append, length_statusRecords]
  rfl

/-- The ten bytes of a record read as the record. -/
theorem InverterStatus.ofBytes_eq {m : Mem} {off : Nat} {v : InverterStatus}
    (h : ∀ i, i < 10 → some (m (off + i)) = v.bytes[i]?) : InverterStatus.ofBytes m off = v := by
  have hbyte : ∀ i, i < 2 * 5 → m (off + i) = bytesOf v.word i := by
    intro i hi
    have hget : v.bytes[i]? = some (bytesOf v.word i) := by
      simp [InverterStatus.bytes, ByteMemory.read, hi]
    exact Option.some.inj ((h i hi).trans hget)
  have hword : ∀ j, j < 5 → wordAt m (off + 2 * j) = v.word j :=
    fun j hj => wordAt_bytesOf hbyte hj
  unfold InverterStatus.ofBytes
  cases v
  congr 1
  · exact hword 0 (by omega)
  · exact hword 1 (by omega)
  · exact hword 2 (by omega)
  · exact hword 3 (by omega)
  · exact hword 4 (by omega)

/-- The length field of a message of up to ten records. -/
theorem canDataLen_records {n : Nat} (hn : n ≤ 10) :
    (canDataLen (lo (BitVec.ofNat 16 (3 + 10 * n))) (hi (BitVec.ofNat 16 (3 + 10 * n)))).toNat =
      3 + 10 * n := by
  have hall : ∀ k : Fin 11, (canDataLen (lo (BitVec.ofNat 16 (3 + 10 * k.val)))
      (hi (BitVec.ofNat 16 (3 + 10 * k.val)))).toNat = 3 + 10 * k.val := by
    decide
  exact hall ⟨n, by omega⟩

/-- What a receiver finds in its buffer. -/
theorem statusMsg_bytes {buf : Mem} {t : Station}
    (h : ByteMemory.read buf 0 (statusMsg t).length = statusMsg t) :
    (canDataLen (buf 0) (buf 1)).toNat = (statusMsg t).length ∧
      buf 2 = lo t.logic.userParasLocal.beltNumber ∧
      moduleRecords buf t.beltNumber = (List.range t.beltNumber).map t.inverter := by
  have hlen := length_statusMsg t
  have hbyte : ∀ i, i < (statusMsg t).length → some (buf i) = (statusMsg t)[i]? := by
    intro i hi
    have hget : (ByteMemory.read buf 0 (statusMsg t).length)[i]? = some (buf i) := by
      simp [ByteMemory.read, hi]
    rw [h] at hget
    exact hget.symm
  have hhead : statusMsg t =
      [lo (BitVec.ofNat 16 (3 + 10 * t.beltNumber)), hi (BitVec.ofNat 16 (3 + 10 * t.beltNumber)),
        lo t.logic.userParasLocal.beltNumber] ++
      (List.range t.beltNumber).flatMap fun i => (t.inverter i).bytes := by
    unfold statusMsg
    dsimp only
    rw [length_statusRecords]
  have h0 := hbyte 0 (by omega)
  have h1 := hbyte 1 (by omega)
  have h2 := hbyte 2 (by omega)
  have hrest : ∀ i, (statusMsg t)[3 + i]? =
      ((List.range t.beltNumber).flatMap fun i => (t.inverter i).bytes)[i]? := by
    intro i
    rw [hhead, List.getElem?_append_right (by simp)]
    simp
  rw [hhead] at h0 h1 h2
  simp only [List.cons_append, List.getElem?_cons_zero, List.getElem?_cons_succ,
    Option.some.injEq] at h0 h1 h2
  refine ⟨?_, h2, ?_⟩
  · rw [h0, h1, hlen]
    exact canDataLen_records t.beltNumber_le
  · unfold moduleRecords
    refine List.map_congr_left fun k hk => InverterStatus.ofBytes_eq fun i hi => ?_
    have hlt := List.mem_range.mp hk
    have hrecord : (List.range t.beltNumber)[k]? = some k := by simp [hlt]
    rw [Nat.add_assoc, hbyte _ (by omega), hrest]
    exact getElem?_flatMap_of_length (fun x => length_read _ _ _) hrecord hi

/-! ## Taking the record -/

/-- What a station does with the record of station `t`. -/
def takeReport (t s : Station) : Station :=
  let s := keepModuleStatus t.report s
  if t.main.localStation.setWidth 16 = s.logic.userParasLocal.upStreamNo then
    upStreamUpdate (t.runBit (t.beltNumber - 1)) s
  else if t.main.localStation.setWidth 16 = s.logic.userParasLocal.downStreamNo then
    downStreamUpdate (t.runBit 0) s
  else s

/-- The last frame of the message. -/
theorem dispatch_status {s t u : Station} (h : Heard (statusMsg t) s u)
    (hbelts : t.beltNumber ≠ 0) :
    (canDispatch CAN_FUNC_ID_MODULE_STATUS t.main.localStation u).val = takeReport t u := by
  have hpay := h.payload
  unfold CanRecv.payload at hpay
  rw [h.length] at hpay
  obtain ⟨hlen, hbelt, hrecords⟩ := statusMsg_bytes hpay
  have hten := t.beltNumber_le
  have hcount : (lo t.logic.userParasLocal.beltNumber).toNat = t.beltNumber := by
    unfold Station.beltNumber at hten ⊢
    unfold lo
    bv_omega
  have hwide : (lo t.logic.userParasLocal.beltNumber).setWidth 16 =
      t.logic.userParasLocal.beltNumber := by
    unfold Station.beltNumber at hten
    unfold lo
    bv_omega
  have hnone : ¬ lo t.logic.userParasLocal.beltNumber = 0 := by
    intro hzero
    rw [hzero] at hcount
    exact hbelts hcount.symm
  have hrun : ∀ k, k < t.beltNumber →
      decide (bitAt (((List.range t.beltNumber).map t.inverter).getD k default).faultCode 4 ≠ 0) =
        t.runBit k := by
    intro k hk
    have hget : ((List.range t.beltNumber).map t.inverter).getD k default = t.inverter k := by
      simp [List.getD_eq_getElem?_getD, hk]
    rw [hget]
    show decide (bitAt (t.inverter k).faultCode 4 ≠ 0) = (t.inverter k).faultCode.getLsbD 4
    cases hbit : (t.inverter k).faultCode.getLsbD 4 <;> rw [bitAt_eq, hbit] <;> rfl
  have hread : (readByte u.can.recv.canRecvBuff 2).val = lo t.logic.userParasLocal.beltNumber :=
    hbelt
  have hkept : ¬ ((canDataLen (readByte u.can.recv.canRecvBuff 0).val
      (readByte u.can.recv.canRecvBuff 1).val).toNat ≠ (statusMsg t).length ∨
        lo t.logic.userParasLocal.beltNumber = 0) := by
    intro hbad
    rcases hbad with hbad | hbad
    · exact hbad hlen
    · exact hnone hbad
  rw [canDispatch_moduleStatus, h.length]
  unfold moduleStatusRecvProcess takeReport
  simp only [Traced.val_bind]
  rw [hread, if_neg hkept, hcount, hwide]
  simp only [Traced.val_bind]
  have hblock : (readBlock (moduleRecords u.can.recv.canRecvBuff t.beltNumber) 3
      (10 * t.beltNumber)).val = (List.range t.beltNumber).map t.inverter := hrecords
  rw [hblock, hrun (t.beltNumber - 1) (by omega), hrun 0 (by omega)]
  have hreport : ({ stationNo := t.main.localStation.setWidth 16
                    beltNumber := t.logic.userParasLocal.beltNumber
                    inverterStatus := (List.range t.beltNumber).map t.inverter } : ModuleStatus) =
      t.report := rfl
  rw [hreport]
  split_ifs <;> rfl

/-- A record only leaves its traces in the UART queue, the record queue and the link states. -/
theorem takeReport_keeps (t s : Station) :
    Keeps [.uartQueue, .moduleQueue] s (takeReport t s) := by
  have hrecord : ∀ m, Keeps [.uartQueue, .moduleQueue] s (keepModuleStatus m s) := by
    intro m
    unfold keepModuleStatus
    split_ifs
    · exact ⟨rfl, fun p hp => by cases p <;> first | rfl | simp at hp⟩
    · exact Keeps.refl s
  unfold takeReport
  dsimp only
  split_ifs
  · exact ⟨(hrecord _).localStation, fun p hp => (hrecord _).same p hp⟩
  · exact (hrecord _).trans (downStreamUpdate_quiet _ _).keeps.mono
  · exact hrecord _

/-- Station `s` takes the record of station `t`: the host keeps it for the server, and a neighbour
learns whether the belt next to it runs. -/
structure ReportTaken (t s s' : Station) : Prop where
  record : s.isHost = true → s.moduleStates.length < 19 →
    s'.moduleStates = s.moduleStates ++ [t.report]
  upStream : t.main.localStation.setWidth 16 = s.logic.userParasLocal.upStreamNo →
    s'.logic.gLinkUpStreamStatus = t.runBit (t.beltNumber - 1)
  downStream : t.main.localStation.setWidth 16 ≠ s.logic.userParasLocal.upStreamNo →
    t.main.localStation.setWidth 16 = s.logic.userParasLocal.downStreamNo →
      s'.logic.gLinkDownStreamStatus = t.runBit 0
  others : t.main.localStation.setWidth 16 ≠ s.logic.userParasLocal.upStreamNo →
    t.main.localStation.setWidth 16 ≠ s.logic.userParasLocal.downStreamNo →
      s'.logic.gLinkUpStreamStatus = s.logic.gLinkUpStreamStatus ∧
        s'.logic.gLinkDownStreamStatus = s.logic.gLinkDownStreamStatus

theorem reportTaken_takeReport (t s : Station) : ReportTaken t s (takeReport t s) := by
  have hparas : (keepModuleStatus t.report s).logic.userParasLocal = s.logic.userParasLocal := by
    unfold keepModuleStatus
    split_ifs <;> rfl
  have hlinks : (keepModuleStatus t.report s).logic.gLinkUpStreamStatus =
        s.logic.gLinkUpStreamStatus ∧
      (keepModuleStatus t.report s).logic.gLinkDownStreamStatus =
        s.logic.gLinkDownStreamStatus := by
    unfold keepModuleStatus
    split_ifs <;> exact ⟨rfl, rfl⟩
  refine ⟨fun hhost hroom => ?_, fun hup => ?_, fun hup hdown => ?_, fun hup hdown => ?_⟩
  · have hrest : (takeReport t s).logic.moduleStatusQueue =
        (keepModuleStatus t.report s).logic.moduleStatusQueue := by
      unfold takeReport
      dsimp only
      split_ifs
      · rfl
      · exact (downStreamUpdate_quiet _ _).keeps.same .moduleQueue (by decide)
      · rfl
    have hadd := RingFifo.contents_add_eq s.logic.moduleStatusQueue t.report
    have hkept : keepModuleStatus t.report s = addModuleStatusData2Queue t.report s :=
      if_pos hhost
    rw [Station.moduleStates, hrest, hkept]
    exact hadd.trans (if_pos (Nat.succ_lt_succ hroom))
  · unfold takeReport
    dsimp only
    rw [hparas, if_pos hup]
    rfl
  · unfold takeReport
    dsimp only
    rw [hparas, if_neg hup, if_pos hdown]
    rfl
  · unfold takeReport
    dsimp only
    rw [hparas, if_neg hup, if_neg hdown]
    exact hlinks

/-! ## The request -/

/-- The request for the state of station `no`.  A station without belts does not answer. -/
def statusRequest (no : U8) : Request where
  funcId := CAN_FUNC_ID_READ_MODULE_STATUS
  no := no
  msg := []
  replyId := CAN_FUNC_ID_MODULE_STATUS
  reply := statusMsg
  answers := fun t => t.main.localStation = no ∧ t.beltNumber ≠ 0

/-- All a station may go through but for the CAN bus and a reset. -/
@[reducible] def offBusParts : List Part :=
  [.paras, .slave, .gear, .uartQueue, .node, .modbus, .uartState, .msgQueue, .link, .flash,
    .trace, .emergency, .runSta, .polling, .moduleQueue, .commFault, .runBits]

theorem canDispatch_readStatus (no : U8) (u : Station) :
    (canDispatch CAN_FUNC_ID_READ_MODULE_STATUS no u).val =
      if no = u.main.localStation ∧ u.isHost ≠ true then canBusSendModuleStatus u else u := by
  have hsteps : canDispatch CAN_FUNC_ID_READ_MODULE_STATUS no u =
      if CAN_FUNC_ID_READ_MODULE_STATUS = CAN_FUNC_ID_READ_MODULE_STATUS ∧
          (no = u.main.localStation ∧ u.isHost ≠ true) then
        pure (canBusSendModuleStatus u)
      else pure u := rfl
  rw [hsteps, if_congr (and_iff_right rfl) rfl rfl]
  split_ifs <;> rfl

section Exchange

variable {ι : Type} {start net net' : Network ι} {no : U8}

/-- A slave hears the request: it answers with its record, or looks on. -/
theorem asked_status {k : ι}
    (h : HeardByAll .host CAN_FUNC_ID_READ_MODULE_STATUS no [] net net')
    (hslave : (net.slave k).isHost = false) :
    Keeps [.recv, .trace, .canQueue] (net.slave k) (net'.slave k) ∧
      (((statusRequest no).answers (net.slave k) → (net'.slave k).canFrames =
        canFramesOf (statusMsg (net.slave k)) CAN_FUNC_ID_MODULE_STATUS no)) ∧
      (¬ (statusRequest no).answers (net.slave k) → (net'.slave k).canFrames = []) := by
  obtain ⟨u, hdispatch, hheard, r, e, hu⟩ := h.heard (.slave k) nofun
  have hk : Keeps [.recv, .trace] (net.slave k) u := hheard.keeps
  have hquiet : u.canFrames = [] := hk.canFrames.trans (h.silent (.slave k) nofun)
  have hmsg : statusMsg u = statusMsg (net.slave k) := by rw [hu]; rfl
  have hbelts : u.beltNumber = (net.slave k).beltNumber := by rw [hu]; rfl
  have hnumber : u.main.localStation = (net.slave k).main.localStation := hk.localStation
  have hhost : u.isHost ≠ true := by
    rw [hk.isHost, hslave]
    exact Bool.false_ne_true
  have hstep : net'.slave k =
      if no = u.main.localStation ∧ u.isHost ≠ true then canBusSendModuleStatus u else u :=
    hdispatch.trans (canDispatch_readStatus no u)
  refine ⟨?_, fun hanswers => ?_, fun hnone => ?_⟩
  · rw [hstep]
    split_ifs
    · exact hk.mono.trans (canBusSendModuleStatus_keeps u).mono
    · exact hk.mono
  · have hten := u.beltNumber_le
    have hsend : canBusSendModuleStatus u =
        canBusSendMsg (statusMsg u) CAN_FUNC_ID_MODULE_STATUS u.main.localStation u := by
      refine if_neg fun hbad => ?_
      rcases hbad with hzero | hmany
      · exact hanswers.2 (hbelts.symm.trans hzero)
      · omega
    have hlen := length_statusMsg u
    rw [hstep, if_pos ⟨hanswers.1.symm.trans hnumber.symm, hhost⟩, hsend,
      canFrames_canBusSendMsg hquiet (by omega), hmsg, hnumber, hanswers.1]
  · rw [hstep]
    split_ifs with hmine
    · have hzero : u.beltNumber = 0 := by
        by_contra hne
        exact hnone ⟨hnumber.symm.trans hmine.1.symm, fun hz => hne (hbelts.trans hz)⟩
      have hsame : canBusSendModuleStatus u = u := if_pos (Or.inl hzero)
      rw [hsame]
      exact hquiet
    · exact hquiet

/-- A station hears the record. -/
theorem told_takes {x y : Party ι} {t : Station} (hbelts : t.beltNumber ≠ 0)
    (h : HeardByAll x CAN_FUNC_ID_MODULE_STATUS t.main.localStation (statusMsg t) net net')
    (hy : y ≠ x) :
    ∃ r e, Keeps [.recv, .trace] (net.station y) ((setCanRecv r (net.station y)).log e) ∧
      net'.station y = takeReport t ((setCanRecv r (net.station y)).log e) := by
  obtain ⟨u, hdispatch, hheard, r, e, rfl⟩ := h.heard y hy
  exact ⟨r, e, hheard.keeps, hdispatch.trans (dispatch_status hheard hbelts)⟩

theorem told_status {x y : Party ι} {t : Station} (hbelts : t.beltNumber ≠ 0)
    (h : HeardByAll x CAN_FUNC_ID_MODULE_STATUS t.main.localStation (statusMsg t) net net')
    (hy : y ≠ x) :
    Keeps [.recv, .trace, .uartQueue, .moduleQueue] (net.station y) (net'.station y) ∧
      ReportTaken t (net.station y) (net'.station y) := by
  obtain ⟨r, e, hk, hstep⟩ := told_takes hbelts h hy
  have htaken := reportTaken_takeReport t ((setCanRecv r (net.station y)).log e)
  have hkeeps := takeReport_keeps t ((setCanRecv r (net.station y)).log e)
  rw [← hstep] at htaken hkeeps
  exact ⟨hk.mono.trans hkeeps.mono,
    htaken.record, htaken.upStream, htaken.downStream, htaken.others⟩

/-- A host, and slaves with numbers of their own. -/
structure Network.Line (net : Network ι) : Prop where
  host : net.host.isHost = true
  slave : ∀ k, (net.slave k).isHost = false
  distinct : Function.Injective fun k => (net.slave k).main.localStation

theorem Network.Line.of_numbers (h : start.Line)
    (hnumber : ∀ y, (net.station y).main.localStation = (start.station y).main.localStation) :
    net.Line := by
  have hslave : ∀ k, (net.slave k).main.localStation = (start.slave k).main.localStation :=
    fun k => hnumber (.slave k)
  have hhost : net.host.isHost = start.host.isHost := congrArg (· == 1) (hnumber .host)
  refine ⟨hhost.trans h.host, fun k => ?_, fun j k heq => h.distinct ?_⟩
  · have hrole : (net.slave k).isHost = (start.slave k).isHost := congrArg (· == 1) (hslave k)
    exact hrole.trans (h.slave k)
  · exact (hslave j).symm.trans (heq.trans (hslave k))

theorem statusRequest_served (hline : start.Line) :
    (statusRequest no).Served offBusParts start where
  offBus := ⟨by decide, by decide, by decide⟩
  passes := (by decide : CAN_FUNC_ID_READ_MODULE_STATUS < 16 ∧
    CAN_FUNC_ID_READ_MODULE_STATUS ≠ CAN_FUNC_ID_BOOT_MODE)
  replyPasses := (by decide : CAN_FUNC_ID_MODULE_STATUS < 16 ∧
    CAN_FUNC_ID_MODULE_STATUS ≠ CAN_FUNC_ID_BOOT_MODE)
  heard := by
    intro net net' hbeside h
    have hthere : net.Line := hline.of_numbers fun y => (hbeside y).localStation
    have hasked := fun k => asked_status h (hthere.slave k)
    have hrunning : ∀ y, (net'.station y).systemReset = false := by
      intro y
      cases y with
      | host =>
          have hreset : net'.host.systemReset = net.host.systemReset :=
            h.sender.same .systemReset (by decide)
          exact hreset.trans (h.running .host)
      | slave k =>
          have hreset : (net'.slave k).systemReset = (net.slave k).systemReset :=
            (hasked k).1.same .systemReset (by decide)
          exact hreset.trans (h.running (.slave k))
    by_cases hanswers : ∃ k, (statusRequest no).answers (net.slave k)
    · obtain ⟨k, hk⟩ := hanswers
      have hqueue : (net'.station (.slave k)).canFrames = _ := (hasked k).2.1 hk
      have hsilent : ∀ y, y ≠ Party.slave k → (net'.station y).canFrames = [] := by
        intro y hy
        cases y with
        | host => exact h.sent
        | slave j =>
            refine (hasked j).2.2 fun hj => hy (congrArg Party.slave (hthere.distinct ?_))
            exact hj.1.trans hk.1.symm
      have hlen : (statusMsg (net.slave k)).length ≤ 300 := by
        have hten := (net.slave k).beltNumber_le
        rw [length_statusMsg]
        omega
      exact Or.inl ⟨k, _, canFramesOf_ne_nil _ _ _, hk,
        broadcasting_of_queued hlen hqueue hsilent hrunning⟩
    · have hnone : ∀ k, ¬ (statusRequest no).answers (net.slave k) :=
        fun k hk => hanswers ⟨k, hk⟩
      refine Or.inr ⟨⟨fun y => ?_, hrunning⟩, hnone⟩
      cases y with
      | host => exact h.sent
      | slave k => exact (hasked k).2.2 (hnone k)
  told := by
    intro net net' k t _ _ hanswers h
    obtain ⟨rfl, hbelts⟩ := hanswers
    refine ⟨fun y => ?_, fun y => ?_⟩
    · by_cases hy : y = .slave k
      · rw [hy]
        exact h.sent
      · exact (told_status hbelts h hy).1.canFrames.trans (h.silent y hy)
    · by_cases hy : y = .slave k
      · rw [hy]
        have hreset : (net'.station (.slave k)).systemReset =
            (net.station (.slave k)).systemReset := h.sender.same .systemReset (by decide)
        exact hreset.trans (h.running (.slave k))
      · have hreset : (net'.station y).systemReset = (net.station y).systemReset :=
          (told_status hbelts h hy).1.same .systemReset (by decide)
        exact hreset.trans (h.running y)

end Exchange

/-! ## The poll -/

/-- The half second in which the host asks the next station. -/
def PollsStatus (s : Station) : Prop :=
  s.isHost = true ∧ s.systemReset = false ∧ s.main.halfSecFlag = true ∧
    30 < s.main.modulestateReadcnt

/-- The number that is asked goes into an 8-bit field. -/
def nextAsked (s : Station) : U8 := lo (s.main.modulestateIndex + 1)

/-- The request goes behind the frames that wait, if there is room. -/
theorem secProcess_asks {s : Station} (h : PollsStatus s) (hroom : s.canFrames.length < 49)
    (pins : Pins) :
    (step s (.secProcess pins)).canFrames =
      s.canFrames ++ canFramesOf [] CAN_FUNC_ID_READ_MODULE_STATUS (nextAsked s) := by
  obtain ⟨hhost, hrunning, hflag, hcount⟩ := h
  have hstep : step s (.secProcess pins) = halfSecHandle (secHandle pins s) :=
    if_neg (by rw [hrunning]; exact Bool.false_ne_true)
  have hquiet := (secHandle_quiet pins s).keeps
  have hclock : ∀ c : Clock, c.sec.main.halfSecFlag = c.main.halfSecFlag ∧
      c.sec.main.modulestateReadcnt = c.main.modulestateReadcnt ∧
      c.sec.main.modulestateIndex = c.main.modulestateIndex := by
    intro c
    unfold Clock.sec
    split_ifs <;> exact ⟨rfl, rfl, rfl⟩
  obtain ⟨hflag', hcount', hindex'⟩ := hclock s.clock
  rw [← secHandle_clock pins s] at hflag' hcount' hindex'
  rw [hstep]
  generalize secHandle pins s = t at hquiet hflag' hcount' hindex'
  have hframes : t.canFrames = s.canFrames := hquiet.canFrames
  have hflag'' : t.main.halfSecFlag = true := hflag'.trans hflag
  have hcount'' : 30 < t.main.modulestateReadcnt := by
    have hsame : t.main.modulestateReadcnt = s.main.modulestateReadcnt := hcount'
    rw [hsame]
    exact hcount
  have hindex'' : t.main.modulestateIndex = s.main.modulestateIndex := hindex'
  have hown : (clearHalfSecFlag t).isHost = true := hquiet.isHost.trans hhost
  have hhalf : halfSecHandle t = readNextModuleStatus (addModuleStatusData2Queue
      (ownModuleStatus (clearHalfSecFlag t)) (clearHalfSecFlag t)) :=
    (if_pos hflag'').trans (if_pos hown)
  have hsent : ∀ v : Station, v.canFrames = s.canFrames →
      (canBusSendMsg [] CAN_FUNC_ID_READ_MODULE_STATUS (lo v.main.modulestateIndex) v).canFrames =
        s.canFrames ++
          canFramesOf [] CAN_FUNC_ID_READ_MODULE_STATUS (lo v.main.modulestateIndex) := by
    intro v hv
    have hfits : v.canFrames.length +
        (canFramesOf [] CAN_FUNC_ID_READ_MODULE_STATUS (lo v.main.modulestateIndex)).length <
        50 := by
      rw [hv]
      exact Nat.succ_lt_succ hroom
    rw [canBusSendMsg_eq, ← hv]
    exact RingFifo.contents_addAll_of_room hfits
  have hnext : nextAsked s = lo (t.main.modulestateIndex + 1) := by
    rw [hindex'']
    rfl
  rw [hhalf, hnext]
  unfold readNextModuleStatus
  rw [if_pos (show 30 < (addModuleStatusData2Queue (ownModuleStatus (clearHalfSecFlag t))
    (clearHalfSecFlag t)).main.modulestateReadcnt from hcount'')]
  dsimp only
  split_ifs
  · exact hsent (nextModuleIndex _) hframes
  · exact hsent (nextModuleIndex _) hframes

section Poll

variable {ι : Type} [DecidableEq ι] {line net : Network ι}
  {past : List (Network ι × NetInput ι)}

/-- The host asks the next station. -/
def afterPoll (line : Network ι) (pins : Pins) : Network ι :=
  line.step (.host ⟨.secProcess pins, trivial⟩)

/-- The request is on the bus. -/
theorem afterPoll_asks (hsilent : line.Silent) (hpoll : PollsStatus line.host) (pins : Pins) :
    Broadcasting .host CAN_FUNC_ID_READ_MODULE_STATUS (nextAsked line.host) []
      (canFramesOf [] CAN_FUNC_ID_READ_MODULE_STATUS (nextAsked line.host))
      (afterPoll line pins) := by
  have hnone : line.host.canFrames = [] := hsilent.silent .host
  have hqueue : ((afterPoll line pins).station .host).canFrames =
      canFramesOf [] CAN_FUNC_ID_READ_MODULE_STATUS (nextAsked line.host) := by
    have hasked := secProcess_asks hpoll (by rw [hnone]; decide) pins
    rw [hnone] at hasked
    exact hasked
  refine broadcasting_of_queued (by decide) hqueue (fun y hy => ?_) fun y => ?_
  · cases y with
    | host => exact absurd rfl hy
    | slave k => exact hsilent.silent (.slave k)
  · cases y with
    | host =>
        have hstep : (afterPoll line pins).host = halfSecHandle (secHandle pins line.host) :=
          if_neg (by rw [hpoll.2.1]; exact Bool.false_ne_true)
        have hreset : (halfSecHandle (secHandle pins line.host)).systemReset =
            (secHandle pins line.host).systemReset :=
          (halfSecHandle_keeps _).same .systemReset (by decide)
        have hsec : (secHandle pins line.host).systemReset = line.host.systemReset :=
          (secHandle_quiet pins line.host).keeps.same .systemReset (by decide)
        show (afterPoll line pins).host.systemReset = false
        rw [hstep, hreset, hsec]
        exact hpoll.2.1
    | slave k => exact hsilent.running (.slave k)

/-- The request and the answer to it, wherever they are. -/
theorem poll_phase (hline : line.Line) (hsilent : line.Silent) (hpoll : PollsStatus line.host)
    {pins : Pins}
    (hrun : Trail (· = afterPoll line pins) Network.step (Network.Calmly offBusParts) past net) :
    (statusRequest (nextAsked line.host)).Served offBusParts (afterPoll line pins) ∧
      ∃ n, (statusRequest (nextAsked line.host)).Phase offBusParts (afterPoll line pins) past
        net n := by
  have hstart : (afterPoll line pins).Line := hline.of_numbers fun y => line.step_number _ y
  have hserved := @statusRequest_served _ _ (nextAsked line.host) hstart
  exact ⟨hserved, Request.phase_of_trail hserved (afterPoll_asks hsilent hpoll pins)
    (canFramesOf_ne_nil _ _ _) hrun⟩

/-- Who has heard what when no frame is left. -/
theorem poll_over (hline : line.Line) (hsilent : line.Silent) (hpoll : PollsStatus line.host)
    {pins : Pins}
    (hrun : Trail (· = afterPoll line pins) Network.step (Network.Calmly offBusParts) past net)
    (hdrained : net.Drained) {k : ι}
    (hk : (line.slave k).main.localStation = nextAsked line.host) :
    ∃ asked before later, past = later ++ asked :: before ∧
      HeardByAll .host CAN_FUNC_ID_READ_MODULE_STATUS (nextAsked line.host) [] asked.1
        (asked.1.step asked.2) ∧
      ((asked.1.slave k).beltNumber ≠ 0 → ∃ told between behind,
        later = behind ++ told :: between ∧
        HeardByAll (.slave k) CAN_FUNC_ID_MODULE_STATUS (asked.1.slave k).main.localStation
          (statusMsg (asked.1.slave k)) told.1 (told.1.step told.2)) := by
  obtain ⟨-, n, hphase⟩ := poll_phase hline hsilent hpoll hrun
  have hnumbers : ∀ {e : Network ι × NetInput ι},
      (statusRequest (nextAsked line.host)).Asked offBusParts (afterPoll line pins) e → ∀ k,
        (e.1.slave k).main.localStation = (line.slave k).main.localStation :=
    fun he k => (he.beside (.slave k)).localStation.trans (line.step_number _ (.slave k))
  have hover := hphase.over hdrained
  subst hover
  cases hphase with
  | @told j e e' before between behind split heard answers beside hears silent since =>
      have hsame : k = j := by
        refine hline.distinct (hk.trans ?_)
        exact answers.1.symm.trans (hnumbers heard j)
      subst hsame
      refine ⟨e, before, behind ++ e' :: between, ?_, heard.heard, fun _ =>
        ⟨e', between, behind, rfl, ?_⟩⟩
      · rw [split, List.append_assoc, List.cons_append]
      · rw [answers.1]
        exact hears
  | @lost e before behind split heard none silent since =>
      refine ⟨e, before, behind, split, heard.heard, fun hbelts => ?_⟩
      exact absurd ⟨(hnumbers heard k).trans hk, hbelts⟩ (none k)

/-- **A status poll, end to end.**  On a silent line the host asks the next station, and nothing
else happens on the bus.  When no frame is left, the station that has the number has heard the
request, and if it had belts then, all others have heard and taken the record that it held at
that moment.
Wherever the exchange is, it can be brought to such an end. -/
theorem status_poll (hline : line.Line) (hsilent : line.Silent) (hpoll : PollsStatus line.host)
    (pins : Pins)
    (hrun : Trail (· = afterPoll line pins) Network.step (Network.Calmly offBusParts) past net) :
    (net.Drained → ∀ k, (line.slave k).main.localStation = nextAsked line.host →
      ∃ asked before later, past = later ++ asked :: before ∧
        HeardByAll .host CAN_FUNC_ID_READ_MODULE_STATUS (nextAsked line.host) [] asked.1
          (asked.1.step asked.2) ∧
        ((asked.1.slave k).beltNumber ≠ 0 → ∃ told between behind,
          later = behind ++ told :: between ∧
          HeardByAll (.slave k) CAN_FUNC_ID_MODULE_STATUS (asked.1.slave k).main.localStation
            (statusMsg (asked.1.slave k)) told.1 (told.1.step told.2) ∧
          ∀ y, y ≠ .slave k → ReportTaken (asked.1.slave k) (told.1.station y)
            ((told.1.step told.2).station y))) ∧
      ∃ xs, Along Network.step (Network.Calmly offBusParts) net xs ∧
        (run Network.step net xs).Drained := by
  obtain ⟨hserved, n, hphase⟩ := poll_phase hline hsilent hpoll hrun
  refine ⟨fun hdrained k hk => ?_, hphase.ends hserved (Network.reach_number hrun.reach)⟩
  obtain ⟨asked, before, later, hsplit, hheard, htold⟩ :=
    poll_over hline hsilent hpoll hrun hdrained hk
  refine ⟨asked, before, later, hsplit, hheard, fun hbelts => ?_⟩
  obtain ⟨told, between, behind, hlater, hears⟩ := htold hbelts
  exact ⟨told, between, behind, hlater, hears, fun y hy => (told_status hbelts hears hy).2⟩

end Poll

/-! ## Asking station 2 -/

/-- Half a second of the host's loop, which calls `main_msone_process` at its start only. -/
def halfSecond : List Input :=
  (List.replicate 31 [.timeUpdate noInput, .msoneProcess 0]).flatten ++
    List.replicate 469 (.timeUpdate noInput)

/-- The host half a second behind its start, and station 2 with one belt. -/
def pollingStations : Network (Fin 1) :=
  { host := run step (boot zeroFlash 1) halfSecond
    slave := fun _ => boot oneBeltFlash 2 }

/-- The host sends its one frame, and the station the two of its record. -/
def pollFrames : List (NetInput (Fin 1)) :=
  [.hostSends true, .slaveSends 0 true, .slaveSends 0 true]

/-- Frames may be sent at any time. -/
theorem trail_pollFrames (net : Network (Fin 1)) :
    Trail (· = net) Network.step (Network.Calmly offBusParts)
      (passed Network.step [] net pollFrames) (run Network.step net pollFrames) := by
  have halong : Along Network.step (Network.Calmly offBusParts) net pollFrames :=
    ⟨trivial, trivial, trivial, trivial⟩
  refine trail_run ?_ halong
  rfl

theorem drained_oneSlave {net : Network (Fin 1)}
    (h : net.host.canFrames = [] ∧ (net.slave 0).canFrames = []) : net.Drained :=
  ⟨h.1, fun k => by rw [Subsingleton.elim k 0]; exact h.2⟩

/-- A host and one slave, ready for a poll. -/
theorem ready_of_oneSlave {net : Network (Fin 1)} (hpoll : PollsStatus net.host)
    (hframes : net.host.canFrames = [] ∧ (net.slave 0).canFrames = [])
    (hslave : (net.slave 0).isHost = false ∧ (net.slave 0).systemReset = false) :
    net.Line ∧ net.Silent := by
  have hone : ∀ k, net.slave k = net.slave 0 := fun k => by rw [Subsingleton.elim k 0]
  refine ⟨⟨hpoll.1, fun k => ?_, fun _ _ _ => Subsingleton.elim _ _⟩,
    (drained_oneSlave hframes).silent hpoll.2.1 fun k => ?_⟩
  · rw [hone]
    exact hslave.1
  · rw [hone]
    exact hslave.2

/-- What the runs come to. -/
theorem pollingStations_run :
    (PollsStatus pollingStations.host ∧
      (pollingStations.slave 0).main.localStation = nextAsked pollingStations.host) ∧
    (pollingStations.host.canFrames = [] ∧ (pollingStations.slave 0).canFrames = []) ∧
    ((pollingStations.slave 0).isHost = false ∧
      (pollingStations.slave 0).systemReset = false) ∧
    ((run Network.step (afterPoll pollingStations noInput) pollFrames).host.canFrames = [] ∧
      ((run Network.step (afterPoll pollingStations noInput) pollFrames).slave 0).canFrames =
        []) ∧
    ∀ e ∈ passed Network.step [] (afterPoll pollingStations noInput) pollFrames,
      (e.1.slave 0).beltNumber = 1 := by
  unfold PollsStatus
  decide +kernel

/-- The host hears and takes the record of station 2. -/
theorem station2_polled :
    ∃ asked told : Network (Fin 1) × NetInput (Fin 1), (asked.1.slave 0).beltNumber = 1 ∧
      HeardByAll (.slave 0) CAN_FUNC_ID_MODULE_STATUS (asked.1.slave 0).main.localStation
        (statusMsg (asked.1.slave 0)) told.1 (told.1.step told.2) ∧
      ReportTaken (asked.1.slave 0) told.1.host (told.1.step told.2).host := by
  obtain ⟨⟨hpoll, hno⟩, hframes, hslave, hends, hbelts⟩ := pollingStations_run
  obtain ⟨hline, hsilent⟩ := ready_of_oneSlave hpoll hframes hslave
  have hrun := trail_pollFrames (afterPoll pollingStations noInput)
  obtain ⟨asked, before, later, hsplit, -, htaken⟩ :=
    (status_poll hline hsilent hpoll noInput hrun).1 (drained_oneSlave hends) 0 hno
  have hone : (asked.1.slave 0).beltNumber = 1 := by
    refine hbelts asked ?_
    rw [hsplit]
    simp
  obtain ⟨told, between, behind, -, hears, hall⟩ := htaken (by rw [hone]; decide)
  exact ⟨asked, told, hone, hears, hall .host nofun⟩

end IotCtrl
