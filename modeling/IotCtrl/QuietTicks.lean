import IotCtrl.AutoStart

/-!
# Milliseconds in which nothing happens

On a slave whose inputs are all released, with no command waiting for its interval and no
answer awaited, a tick does nothing but count.

* `timeUpdate_waiting`, `timeUpdate_resting` — one such tick, while the reset timer runs or not;
* `run_idleTicks`, `run_waitingTicks` — any number of them, with the counters taken together.
-/

namespace IotCtrl

open Transition

/-- An input at rest: not active, and no edge is being debounced. -/
def ButtonInfo.Released (b : ButtonInfo) : Prop :=
  b.inputState = false ∧ b.inputMiddleState = false ∧ b.inputConfirmTimes = 0

instance (b : ButtonInfo) : Decidable b.Released := inferInstanceAs (Decidable (_ ∧ _))

/-- The repeat counter of an input at rest. -/
def tickButton (limit : U16) (b : ButtonInfo) : ButtonInfo :=
  if limit < b.trigCnt + 1 then { b with trigCnt := 0 } else { b with trigCnt := b.trigCnt + 1 }

/-! The counters of `main.c` on a slave. -/

/-- Every millisecond. -/
def tickMs (m : MainVars) : MainVars :=
  { m with
    uploadRuncnt := m.uploadRuncnt + 1
    msoneFlag := true }

/-- Every second. -/
def tickSec (m : MainVars) : MainVars :=
  if m.secReg ≠ 0 then
    if m.secReg - 1 = 0 then { m with secReg := 1000, secFlag := true }
    else { m with secReg := m.secReg - 1 }
  else m

/-- Every half second. -/
def tickHalfSec (m : MainVars) : MainVars :=
  if m.halfSecReg ≠ 0 then
    if m.halfSecReg - 1 = 0 then { m with halfSecReg := 500, halfSecFlag := true }
    else { m with halfSecReg := m.halfSecReg - 1 }
  else m

/-- Every ten milliseconds; a slave uploads nothing. -/
def tickUpload (m : MainVars) : MainVars :=
  if m.uploadTimeDelay ≠ 0 then
    if m.uploadTimeDelay - 1 = 0 then { m with uploadTimeDelay := 10 }
    else { m with uploadTimeDelay := m.uploadTimeDelay - 1 }
  else m

/-- All of them. -/
def tickMain (m : MainVars) : MainVars := tickUpload (tickHalfSec (tickSec (tickMs m)))

@[simp] theorem tickSec_localStation (m : MainVars) :
    (tickSec m).localStation = m.localStation := by
  unfold tickSec
  split_ifs <;> rfl

@[simp] theorem tickHalfSec_localStation (m : MainVars) :
    (tickHalfSec m).localStation = m.localStation := by
  unfold tickHalfSec
  split_ifs <;> rfl

/-- One quiet millisecond. -/
def tickCounters (s : Station) : Station :=
  { s with
    logic.bPhotoInfo := fun k => tickButton 300 (s.logic.bPhotoInfo k)
    logic.bStreamInfo := tickButton 2000 s.logic.bStreamInfo
    logic.bEmergencyInfo := tickButton 2000 s.logic.bEmergencyInfo
    modbus.freqCheckCnt := s.modbus.freqCheckCnt + 1
    main := tickMain s.main }

/-- Nothing is under way that a tick would move on. -/
structure Resting (s : Station) : Prop where
  running : s.systemReset = false
  slave : s.isHost = false
  tmr : s.modbus.uart1Tmr = 0
  interval : s.logic.commNode.commInterval = 0
  restart : s.logic.resetStartTimeCnt = 0
  photo : ∀ k, (s.logic.bPhotoInfo k).Released
  reset : s.logic.bResetInfo.Released
  start : s.logic.bStartInfo.Released
  stop : s.logic.bStopInfo.Released
  stream : s.logic.bStreamInfo.Released
  emergency : s.logic.bEmergencyInfo.Released

/-- Field by field, for the decision procedure. -/
theorem resting_iff (s : Station) : Resting s ↔
    (s.systemReset = false ∧ s.isHost = false ∧ s.modbus.uart1Tmr = 0 ∧
      s.logic.commNode.commInterval = 0 ∧ s.logic.resetStartTimeCnt = 0) ∧
      (∀ k, (s.logic.bPhotoInfo k).Released) ∧
      s.logic.bResetInfo.Released ∧ s.logic.bStartInfo.Released ∧ s.logic.bStopInfo.Released ∧
      s.logic.bStreamInfo.Released ∧ s.logic.bEmergencyInfo.Released := by
  constructor
  · rintro ⟨h1, h2, h3, h4, h5, h6, h7, h8, h9, h10, h11⟩
    exact ⟨⟨h1, h2, h3, h4, h5⟩, h6, h7, h8, h9, h10, h11⟩
  · rintro ⟨⟨h1, h2, h3, h4, h5⟩, h6, h7, h8, h9, h10, h11⟩
    exact ⟨h1, h2, h3, h4, h5, h6, h7, h8, h9, h10, h11⟩

instance (s : Station) : Decidable (Resting s) := decidable_of_iff' _ (resting_iff s)

/-! ## One tick -/

/-- An input at rest confirms no edge. -/
theorem ButtonInfo.Released.confirms {b : ButtonInfo} (h : b.Released) (limit : Bool → U8) :
    confirmInput limit false b = (false, b) := by
  obtain ⟨inputState, inputMiddleState, inputConfirmTimes, trigCnt⟩ := b
  obtain ⟨rfl, rfl, rfl⟩ := h
  rfl

/-- The repeat counter is no matter of rest. -/
theorem ButtonInfo.Released.counted {b : ButtonInfo} (h : b.Released) :
    (countTrig b).Released := h

/-- No command is repeated. -/
theorem ButtonInfo.Released.not_active {b : ButtonInfo} (h : b.Released) :
    ¬ (countTrig b).inputState = true :=
  fun hactive => Bool.false_ne_true (h.1.symm.trans hactive)

/-- The repeat counter the way the scans write it: first counted, then reset. -/
theorem tickButton_eq (limit : U16) (b : ButtonInfo) :
    tickButton limit b =
      if limit < (countTrig b).trigCnt then { countTrig b with trigCnt := 0 }
      else countTrig b := rfl

section Tick

variable {s : Station}

/-- The reset button at rest. -/
theorem scanReset_released (h : s.logic.bResetInfo.Released) : scanReset noInput s = s := by
  unfold scanReset
  rw [show noInput.bResetIn = false from rfl, h.confirms]
  rfl

/-- The start button at rest. -/
theorem scanStart_released (h : s.logic.bStartInfo.Released) : scanStart noInput s = s := by
  unfold scanStart
  rw [show noInput.bStartIn = false from rfl, h.confirms]
  rfl

/-- The stop button at rest. -/
theorem scanStop_released (h : s.logic.bStopInfo.Released) : scanStop noInput s = s := by
  unfold scanStop
  rw [show noInput.bStopIn = false from rfl, h.confirms]
  rfl

/-- The records of all photo sensors at once. -/
def setPhotos (t : Table 5 ButtonInfo) (s : Station) : Station :=
  { s with logic.bPhotoInfo := t }

/-- A photo sensor at rest only counts. -/
theorem scanPhoto_released {k : Nat} (h : (s.logic.bPhotoInfo.get k).Released) :
    scanPhoto noInput s k =
      setPhotos (s.logic.bPhotoInfo.set k (tickButton 300 (s.logic.bPhotoInfo.get k))) s := by
  have hpin : noInput.bPhotoIn.get k = false := by
    unfold Table.get
    split_ifs <;> rfl
  have hset : ∀ b b' : ButtonInfo,
      (s.logic.bPhotoInfo.set k b').set k b = s.logic.bPhotoInfo.set k b := by
    intro b b'
    funext j
    unfold Table.set
    split_ifs <;> rfl
  have hagain : ∀ b b' : ButtonInfo, setPhotoInfo k b (setPhotoInfo k b' s) =
      setPhotos (s.logic.bPhotoInfo.set k b) s :=
    fun b b' => congrArg (fun t => setPhotos t s) (hset b b')
  unfold scanPhoto
  rw [hpin, h.counted.confirms]
  dsimp only
  rw [if_neg Bool.false_ne_true, tickButton_eq, if_neg h.not_active, hagain]
  split_ifs <;> rfl

/-- The first `n` sensors one after the other. -/
theorem photosFirst_released (h : ∀ k, (s.logic.bPhotoInfo k).Released) {n : Nat} (hn : n ≤ 5) :
    (List.range n).foldl (scanPhoto noInput) s =
      setPhotos (fun k =>
        if k.val < n then tickButton 300 (s.logic.bPhotoInfo k) else s.logic.bPhotoInfo k) s := by
  induction n with
  | zero => rfl
  | succ n ih =>
      have hget : ∀ t : Table 5 ButtonInfo, t.get n = t ⟨n, hn⟩ := fun t => dif_pos hn
      rw [List.range_succ, List.foldl_append, ih (by omega), List.foldl_cons, List.foldl_nil]
      generalize htable : (fun k : Fin 5 =>
        if k.val < n then tickButton 300 (s.logic.bPhotoInfo k) else s.logic.bPhotoInfo k) = t
      have hsame : t ⟨n, hn⟩ = s.logic.bPhotoInfo ⟨n, hn⟩ := by
        rw [← htable]
        exact if_neg (Nat.lt_irrefl n)
      have hnext : Table.set t n (tickButton 300 (Table.get t n)) = fun k : Fin 5 =>
          if k.val < n + 1 then tickButton 300 (s.logic.bPhotoInfo k)
          else s.logic.bPhotoInfo k := by
        funext k
        rw [hget, hsame, ← htable]
        unfold Table.set
        by_cases hk : k.val = n
        · obtain rfl : k = ⟨n, hn⟩ := Fin.ext hk
          simp
        · have hlt : k.val < n + 1 ↔ k.val < n := by omega
          simp only [hk, hlt, if_false]
      have hrest : ((setPhotos t s).logic.bPhotoInfo.get n).Released := by
        show (Table.get t n).Released
        rw [hget, hsame]
        exact h _
      rw [scanPhoto_released hrest]
      exact congrArg (fun t => setPhotos t s) hnext

/-- All photo sensors at rest. -/
theorem photos_released (h : ∀ k, (s.logic.bPhotoInfo k).Released) :
    (List.range 5).foldl (scanPhoto noInput) s =
      setPhotos (fun k => tickButton 300 (s.logic.bPhotoInfo k)) s := by
  rw [photosFirst_released h le_rfl]
  refine congrArg (fun t => setPhotos t s) (funext fun k => ?_)
  exact if_pos k.isLt

/-- The stream input at rest only counts. -/
theorem scanStream_released (h : s.logic.bStreamInfo.Released) :
    scanStream noInput s = setStreamInfo (tickButton 2000 s.logic.bStreamInfo) s := by
  unfold scanStream
  rw [show noInput.bStreamIn = false from rfl, h.counted.confirms]
  dsimp only
  rw [if_neg fun hand : false = true ∧ _ => Bool.false_ne_true hand.1, tickButton_eq,
    if_neg h.not_active]
  split_ifs <;> rfl

/-- So does the emergency input. -/
theorem scanEmergency_released {pins : Pins} (hpin : pins.bEmergencyIn = false)
    (h : s.logic.bEmergencyInfo.Released) :
    scanEmergency pins s = setEmergencyInfo (tickButton 2000 s.logic.bEmergencyInfo) s := by
  unfold scanEmergency
  rw [hpin, h.counted.confirms]
  dsimp only
  rw [if_neg Bool.false_ne_true, tickButton_eq, if_neg h.not_active]
  split_ifs <;> rfl

/-- Neither an answer nor an interval is waited for. -/
theorem uartRecvTimeout_resting (htmr : s.modbus.uart1Tmr = 0)
    (hinterval : s.logic.commNode.commInterval = 0) : uartRecvTimeout s = s := by
  unfold uartRecvTimeout
  rw [if_neg (not_not.mpr htmr)]
  dsimp only
  rw [if_neg (not_not.mpr hinterval)]

/-- The reset timer, as one update. -/
def countedReset (s : Station) : Station :=
  { s with
    logic.resetStartTimeCnt :=
      if s.logic.resetStartTimeCnt = 0 then 0 else s.logic.resetStartTimeCnt - 1
    logic.resetStartFlag := s.logic.resetStartFlag || s.logic.resetStartTimeCnt == 1 }

/-- The branches of the source agree with the one update. -/
theorem countResetStart_eq (s : Station) : countResetStart s = countedReset s := by
  unfold countResetStart countedReset
  by_cases hzero : s.logic.resetStartTimeCnt = 0
  · have hone : (s.logic.resetStartTimeCnt == 1) = false := by
      rw [hzero]
      rfl
    rw [if_neg (not_not.mpr hzero), if_pos hzero, hone, Bool.or_false, ← hzero]
  · rw [if_pos hzero, if_neg hzero]
    split_ifs with hone
    · have hlast : s.logic.resetStartTimeCnt = 1 := by bv_omega
      rw [hlast]
      simp
    · have hmore : (s.logic.resetStartTimeCnt == 1) = false := by
        rw [beq_eq_false_iff_ne]
        intro hlast
        rw [hlast] at hone
        exact hone rfl
      rw [hmore, Bool.or_false]

/-- On a slave no upload is queued. -/
theorem timeCounters_slave (hslave : s.isHost = false) :
    timeCounters s =
      countedReset
        { s with
          modbus.freqCheckCnt := s.modbus.freqCheckCnt + 1
          main := tickMain s.main } := by
  have hms : countMs s =
      { s with modbus.freqCheckCnt := s.modbus.freqCheckCnt + 1, main := tickMs s.main } := rfl
  have hsec : ∀ t : Station, countSec t = { t with main := tickSec t.main } := by
    intro t
    unfold countSec tickSec
    split_ifs <;> rfl
  have hhalf : ∀ t : Station, countHalfSec t = { t with main := tickHalfSec t.main } := by
    intro t
    unfold countHalfSec tickHalfSec
    split_ifs <;> rfl
  have hupload : ∀ t : Station, t.isHost = false →
      countUpload t = { t with main := tickUpload t.main } := by
    intro t ht
    unfold countUpload queueUpload tickUpload
    dsimp only
    have hhost : ¬ (({ t with main.uploadTimeDelay := 10 } : Station).isHost = true ∧
        isModuleStatusQueueFree { t with main.uploadTimeDelay := 10 } = false) :=
      fun h => Bool.false_ne_true (ht.symm.trans h.1)
    rw [if_neg hhost]
    split_ifs <;> rfl
  unfold timeCounters
  rw [hms, hsec, hhalf, countResetStart_eq, hupload]
  · rfl
  · rw [← hslave]
    exact congrArg (· == 1) ((tickHalfSec_localStation _).trans (tickSec_localStation _))

/-- The scan of inputs that are all released. -/
theorem inputScanProc_released (hphoto : ∀ k, (s.logic.bPhotoInfo k).Released)
    (hreset : s.logic.bResetInfo.Released) (hstart : s.logic.bStartInfo.Released)
    (hstop : s.logic.bStopInfo.Released) (hstream : s.logic.bStreamInfo.Released)
    (hemergency : s.logic.bEmergencyInfo.Released) :
    inputScanProc noInput s =
      { s with
        logic.bPhotoInfo := fun k => tickButton 300 (s.logic.bPhotoInfo k)
        logic.bStreamInfo := tickButton 2000 s.logic.bStreamInfo
        logic.bEmergencyInfo := tickButton 2000 s.logic.bEmergencyInfo } := by
  -- the photo sensors leave the other records alone
  have hstart' : ∀ p, (setPhotos p s).logic.bStartInfo.Released := fun _ => hstart
  have hstop' : ∀ p, (setPhotos p s).logic.bStopInfo.Released := fun _ => hstop
  have hstream' : ∀ p, (setPhotos p s).logic.bStreamInfo.Released := fun _ => hstream
  have hemergency' : ∀ p b, (setStreamInfo b (setPhotos p s)).logic.bEmergencyInfo.Released :=
    fun _ _ => hemergency
  unfold inputScanProc inputScanCommands
  dsimp only
  rw [scanReset_released hreset, photos_released hphoto, scanStart_released (hstart' _),
    scanStop_released (hstop' _), scanStream_released (hstream' _),
    scanEmergency_released rfl (hemergency' _ _)]
  rfl

/-- Nothing is under way but the reset timer. -/
def Waiting (s : Station) : Prop := Resting { s with logic.resetStartTimeCnt := 0 }

/-- **One quiet millisecond** only counts. -/
theorem timeUpdate_waiting (h : Waiting s) :
    timeUpdate noInput s = countedReset (tickCounters s) := by
  have hslave : s.isHost = false := h.slave
  have htimeout : uartRecvTimeout (timeCounters s) = timeCounters s := by
    rw [timeCounters_slave hslave]
    exact uartRecvTimeout_resting h.tmr h.interval
  unfold timeUpdate
  rw [htimeout, timeCounters_slave hslave, inputScanProc_released]
  · rfl
  · exact h.photo
  · exact h.reset
  · exact h.start
  · exact h.stop
  · exact h.stream
  · exact h.emergency

/-- A resting station waits for a reset timer that does not run. -/
theorem Resting.waiting (h : Resting s) : Waiting s :=
  ⟨h.running, h.slave, h.tmr, h.interval, rfl, h.photo, h.reset, h.start, h.stop, h.stream,
    h.emergency⟩

/-- **One quiet millisecond** of a resting station. -/
theorem timeUpdate_resting (h : Resting s) : timeUpdate noInput s = tickCounters s := by
  have hidle : countedReset (tickCounters s) = tickCounters s := by
    rw [← countResetStart_eq]
    exact if_neg (not_not.mpr h.restart)
  rw [timeUpdate_waiting h.waiting, hidle]

end Tick

/-! ## Many ticks -/

/-- A register counted down from `r` for `n` milliseconds, again from `period` on. -/
def countedDown (period n : Nat) (r : U16) : U16 :=
  BitVec.ofNat 16 (period - (period - r.toNat + n) % period)

/-- The repeat counter `n` milliseconds on, in its period. -/
def coastButton (limit n : Nat) (b : ButtonInfo) : ButtonInfo :=
  { b with trigCnt := BitVec.ofNat 16 ((b.trigCnt.toNat + n) % (limit + 1)) }

/-- The counters of `main.c` `n` milliseconds on: a flag is set once its register has run out. -/
def coastMain (n : Nat) (m : MainVars) : MainVars :=
  { m with
    uploadRuncnt := m.uploadRuncnt + BitVec.ofNat 16 n
    msoneFlag := m.msoneFlag || decide (0 < n)
    secReg := countedDown 1000 n m.secReg
    secFlag := m.secFlag || decide (m.secReg.toNat ≤ n)
    halfSecReg := countedDown 500 n m.halfSecReg
    halfSecFlag := m.halfSecFlag || decide (m.halfSecReg.toNat ≤ n)
    uploadTimeDelay := countedDown 10 n m.uploadTimeDelay }

/-- The station `n` quiet milliseconds later. -/
def coast (n : Nat) (s : Station) : Station :=
  { s with
    logic.bPhotoInfo := fun k => coastButton 300 n (s.logic.bPhotoInfo k)
    logic.bStreamInfo := coastButton 2000 n s.logic.bStreamInfo
    logic.bEmergencyInfo := coastButton 2000 n s.logic.bEmergencyInfo
    modbus.freqCheckCnt := s.modbus.freqCheckCnt + BitVec.ofNat 16 n
    main := coastMain n s.main }

/-- The counters are within the periods they are counted in. -/
structure Counting (s : Station) : Prop where
  photo : ∀ k, (s.logic.bPhotoInfo k).trigCnt.toNat ≤ 300
  stream : s.logic.bStreamInfo.trigCnt.toNat ≤ 2000
  emergency : s.logic.bEmergencyInfo.trigCnt.toNat ≤ 2000
  sec : 1 ≤ s.main.secReg.toNat ∧ s.main.secReg.toNat ≤ 1000
  halfSec : 1 ≤ s.main.halfSecReg.toNat ∧ s.main.halfSecReg.toNat ≤ 500
  upload : 1 ≤ s.main.uploadTimeDelay.toNat ∧ s.main.uploadTimeDelay.toNat ≤ 10

/-- Field by field, for the decision procedure. -/
theorem counting_iff (s : Station) : Counting s ↔
    ((∀ k, (s.logic.bPhotoInfo k).trigCnt.toNat ≤ 300) ∧
      s.logic.bStreamInfo.trigCnt.toNat ≤ 2000 ∧ s.logic.bEmergencyInfo.trigCnt.toNat ≤ 2000) ∧
      (1 ≤ s.main.secReg.toNat ∧ s.main.secReg.toNat ≤ 1000) ∧
      (1 ≤ s.main.halfSecReg.toNat ∧ s.main.halfSecReg.toNat ≤ 500) ∧
      1 ≤ s.main.uploadTimeDelay.toNat ∧ s.main.uploadTimeDelay.toNat ≤ 10 := by
  constructor
  · rintro ⟨h1, h2, h3, h4, h5, h6⟩
    exact ⟨⟨h1, h2, h3⟩, h4, h5, h6⟩
  · rintro ⟨⟨h1, h2, h3⟩, h4, h5, h6⟩
    exact ⟨h1, h2, h3, h4, h5, h6⟩

instance (s : Station) : Decidable (Counting s) := decidable_of_iff' _ (counting_iff s)

/-- A counter in its period starts again or counts on. -/
theorem succ_mod_eq (x : Nat) {p : Nat} (hp : 0 < p) :
    (x + 1) % p = if x % p + 1 = p then 0 else x % p + 1 := by
  have hlt := Nat.mod_lt x hp
  rw [Nat.add_mod]
  split_ifs with hend
  · rcases Nat.lt_or_ge 1 p with hone | hone
    · rw [Nat.mod_eq_of_lt hone, hend, Nat.mod_self]
    · have hunit : p = 1 := by omega
      rw [hunit, Nat.mod_one]
  · rw [Nat.mod_eq_of_lt (show 1 < p by omega), Nat.mod_eq_of_lt (by omega)]

/-- One millisecond more for a repeat counter. -/
theorem tickButton_coastButton {limit : U16} (hlimit : limit.toNat + 1 < 2 ^ 16) (n : Nat)
    (b : ButtonInfo) :
    tickButton limit (coastButton limit.toNat n b) = coastButton limit.toNat (n + 1) b := by
  have hnext := succ_mod_eq (b.trigCnt.toNat + n) (Nat.succ_pos limit.toNat)
  have hlt := Nat.mod_lt (b.trigCnt.toNat + n) (Nat.succ_pos limit.toNat)
  unfold tickButton coastButton
  dsimp only
  rw [← Nat.add_assoc, hnext]
  generalize (b.trigCnt.toNat + n) % (limit.toNat + 1) = count at hlt ⊢
  have hcount : BitVec.ofNat 16 count + 1 = BitVec.ofNat 16 (count + 1) :=
    (BitVec.ofNat_add count 1).symm
  have hover : limit < BitVec.ofNat 16 (count + 1) ↔ count = limit.toNat := by
    rw [BitVec.lt_def, BitVec.toNat_ofNat, Nat.mod_eq_of_lt (by omega)]
    omega
  rw [hcount]
  simp only [hover, Nat.succ_eq_add_one, Nat.add_right_cancel_iff]
  split_ifs <;> rfl

/-- The register as a number: it never reaches zero. -/
theorem toNat_countedDown {period : Nat} (hperiod : 0 < period ∧ period < 2 ^ 16) (n : Nat)
    (r : U16) :
    (countedDown period n r).toNat = period - (period - r.toNat + n) % period := by
  unfold countedDown
  rw [BitVec.toNat_ofNat]
  exact Nat.mod_eq_of_lt (by omega)

/-- Nothing is counted down at first. -/
theorem countedDown_zero {period : Nat} {r : U16} (hr : 1 ≤ r.toNat ∧ r.toNat ≤ period)
    (hperiod : period < 2 ^ 16) : countedDown period 0 r = r := by
  apply BitVec.eq_of_toNat_eq
  rw [toNat_countedDown ⟨by omega, hperiod⟩, Nat.add_zero, Nat.mod_eq_of_lt (by omega)]
  omega

/-- The register starts again behind the value one. -/
theorem countedDown_succ {period : Nat} (hperiod : 0 < period ∧ period < 2 ^ 16) (n : Nat)
    (r : U16) : countedDown period n r ≠ 0 ∧ countedDown period (n + 1) r =
      if countedDown period n r - 1 = 0 then BitVec.ofNat 16 period
      else countedDown period n r - 1 := by
  have hnow := toNat_countedDown hperiod n r
  have hnext := toNat_countedDown hperiod (n + 1) r
  have hlt := Nat.mod_lt (period - r.toNat + n) hperiod.1
  rw [← Nat.add_assoc, succ_mod_eq _ hperiod.1] at hnext
  have hne : countedDown period n r ≠ 0 := by
    intro hzero
    rw [hzero] at hnow
    simp at hnow
    omega
  have hless : (countedDown period n r - 1).toNat = (countedDown period n r).toNat - 1 := by
    rw [BitVec.toNat_sub_of_le]
    · rfl
    · rw [BitVec.le_def]
      show 1 ≤ _
      omega
  refine ⟨hne, BitVec.eq_of_toNat_eq ?_⟩
  have hzero : countedDown period n r - 1 = 0 ↔ (countedDown period n r).toNat = 1 := by
    rw [← BitVec.toNat_inj, hless]
    show _ - 1 = 0 ↔ _
    omega
  rw [hnext]
  simp only [hzero]
  split_ifs with h1 h2 h2
  · rw [BitVec.toNat_ofNat, Nat.mod_eq_of_lt hperiod.2, Nat.sub_zero]
  · omega
  · omega
  · rw [hless, hnow]
    omega

/-- The flag of a register, which is set when the register starts again. -/
theorem countedDown_flag {period : Nat} {r : U16} (hr : 1 ≤ r.toNat ∧ r.toNat ≤ period)
    (hperiod : period < 2 ^ 16) (n : Nat) (flag : Bool) :
    (if countedDown period n r - 1 = 0 then true else flag || decide (r.toNat ≤ n)) =
      (flag || decide (r.toNat ≤ n + 1)) := by
  have hnow := toNat_countedDown ⟨by omega, hperiod⟩ n r
  have hone : countedDown period n r - 1 = 0 ↔ (countedDown period n r).toNat = 1 := by
    bv_omega
  simp only [hone, hnow]
  by_cases hdue : r.toNat = n + 1
  · have hmod : (period - r.toNat + n) % period = period - 1 := by
      rw [Nat.mod_eq_of_lt (by omega)]
      omega
    rw [if_pos (by omega), decide_eq_true (by omega), Bool.or_true]
  · have hle : r.toNat ≤ n ↔ r.toNat ≤ n + 1 := by omega
    simp only [hle]
    split_ifs with h1
    · have hpast : r.toNat ≤ n + 1 := by
        by_contra hlater
        rw [Nat.mod_eq_of_lt (by omega)] at h1
        omega
      rw [decide_eq_true hpast, Bool.or_true]
    · rfl

/-- The register of the seconds, which is not zero, as one update. -/
theorem tickSec_eq {m : MainVars} (h : m.secReg ≠ 0) : tickSec m =
    { m with
      secReg := if m.secReg - 1 = 0 then 1000 else m.secReg - 1
      secFlag := if m.secReg - 1 = 0 then true else m.secFlag } := by
  unfold tickSec
  rw [if_pos h]
  split_ifs <;> rfl

/-- The same for the half seconds. -/
theorem tickHalfSec_eq {m : MainVars} (h : m.halfSecReg ≠ 0) : tickHalfSec m =
    { m with
      halfSecReg := if m.halfSecReg - 1 = 0 then 500 else m.halfSecReg - 1
      halfSecFlag := if m.halfSecReg - 1 = 0 then true else m.halfSecFlag } := by
  unfold tickHalfSec
  rw [if_pos h]
  split_ifs <;> rfl

/-- The same for the upload. -/
theorem tickUpload_eq {m : MainVars} (h : m.uploadTimeDelay ≠ 0) : tickUpload m =
    { m with
      uploadTimeDelay := if m.uploadTimeDelay - 1 = 0 then 10 else m.uploadTimeDelay - 1 } := by
  unfold tickUpload
  rw [if_pos h]
  split_ifs <;> rfl

/-- One millisecond more for the counters of `main.c`. -/
theorem tickMain_coastMain {m : MainVars}
    (hsec : 1 ≤ m.secReg.toNat ∧ m.secReg.toNat ≤ 1000)
    (hhalf : 1 ≤ m.halfSecReg.toNat ∧ m.halfSecReg.toNat ≤ 500) (n : Nat) :
    tickMain (coastMain n m) = coastMain (n + 1) m := by
  obtain ⟨hsecNe, hsecNext⟩ := @countedDown_succ 1000 (by decide) n m.secReg
  obtain ⟨hhalfNe, hhalfNext⟩ := @countedDown_succ 500 (by decide) n m.halfSecReg
  obtain ⟨hupNe, hupNext⟩ := @countedDown_succ 10 (by decide) n m.uploadTimeDelay
  have hcount : m.uploadRuncnt + BitVec.ofNat 16 n + 1 =
      m.uploadRuncnt + BitVec.ofNat 16 (n + 1) := by
    rw [BitVec.ofNat_add, ← BitVec.add_assoc]
    rfl
  unfold tickMain tickMs coastMain
  rw [tickSec_eq hsecNe, tickHalfSec_eq hhalfNe, tickUpload_eq hupNe]
  dsimp only
  rw [hcount]
  congr 1
  · exact hsecNext.symm
  · exact countedDown_flag hsec (by decide) n m.secFlag
  · exact hhalfNext.symm
  · exact countedDown_flag hhalf (by decide) n m.halfSecFlag
  · exact hupNext.symm
  · simp

/-- No millisecond changes nothing, as long as the registers are in their periods. -/
theorem coastMain_zero {m : MainVars}
    (hsec : 1 ≤ m.secReg.toNat ∧ m.secReg.toNat ≤ 1000)
    (hhalf : 1 ≤ m.halfSecReg.toNat ∧ m.halfSecReg.toNat ≤ 500)
    (hupload : 1 ≤ m.uploadTimeDelay.toNat ∧ m.uploadTimeDelay.toNat ≤ 10) :
    coastMain 0 m = m := by
  have hcount : m.uploadRuncnt + BitVec.ofNat 16 0 = m.uploadRuncnt := BitVec.add_zero _
  have hflag : ∀ (flag : Bool) {p : Prop} [Decidable p], ¬ p → (flag || decide p) = flag := by
    intro flag p _ hp
    rw [decide_eq_false hp, Bool.or_false]
  unfold coastMain
  rw [hcount, countedDown_zero hsec (by decide), countedDown_zero hhalf (by decide),
    countedDown_zero hupload (by decide), hflag _ (by omega), hflag _ (by omega),
    hflag _ (by omega)]

/-- The same for a repeat counter. -/
theorem coastButton_zero {limit : Nat} {b : ButtonInfo} (hb : b.trigCnt.toNat ≤ limit) :
    coastButton limit 0 b = b := by
  unfold coastButton
  rw [Nat.add_zero, Nat.mod_eq_of_lt (by omega), BitVec.ofNat_toNat, BitVec.setWidth_eq]

section Coast

variable {s : Station}

/-- The same for the station. -/
theorem coast_zero (h : Counting s) : coast 0 s = s := by
  have hcount : s.modbus.freqCheckCnt + BitVec.ofNat 16 0 = s.modbus.freqCheckCnt :=
    BitVec.add_zero _
  unfold coast
  simp only [hcount, coastMain_zero h.sec h.halfSec h.upload, coastButton_zero h.stream,
    coastButton_zero h.emergency, fun k => coastButton_zero (h.photo k)]

/-- One millisecond more. -/
theorem tickCounters_coast (h : Counting s) (n : Nat) :
    tickCounters (coast n s) = coast (n + 1) s := by
  have hcount : s.modbus.freqCheckCnt + BitVec.ofNat 16 n + 1 =
      s.modbus.freqCheckCnt + BitVec.ofNat 16 (n + 1) := by
    rw [BitVec.ofNat_add, ← BitVec.add_assoc]
    rfl
  have hphoto : ∀ b, tickButton 300 (coastButton 300 n b) = coastButton 300 (n + 1) b :=
    fun b => @tickButton_coastButton 300 (by decide) n b
  have hslow : ∀ b, tickButton 2000 (coastButton 2000 n b) = coastButton 2000 (n + 1) b :=
    fun b => @tickButton_coastButton 2000 (by decide) n b
  unfold tickCounters coast
  simp only [hcount, hphoto, hslow, tickMain_coastMain h.sec h.halfSec n]

/-- Counting disturbs nobody. -/
theorem Resting.coast (h : Resting s) (n : Nat) : Resting (coast n s) :=
  ⟨h.running, h.slave, h.tmr, h.interval, h.restart, h.photo, h.reset, h.start, h.stop, h.stream,
    h.emergency⟩

/-- A quiet tick of a resting station, as a step. -/
theorem step_resting (h : Resting s) : step s (.timeUpdate noInput) = tickCounters s := by
  have hstep : step s (.timeUpdate noInput) = timeUpdate noInput s :=
    if_neg (by rw [h.running]; exact Bool.false_ne_true)
  rw [hstep, timeUpdate_resting h]

/-- **Quiet milliseconds** only count. -/
theorem run_idleTicks (h : Resting s) (hcount : Counting s) (n : Nat) :
    run step s (idleTicks n) = coast n s := by
  induction n with
  | zero => exact (coast_zero hcount).symm
  | succ n ih =>
      have hticks : idleTicks (n + 1) = idleTicks n ++ [.timeUpdate noInput] :=
        List.replicate_succ'
      rw [hticks, run_append, ih]
      show step (IotCtrl.coast n s) (.timeUpdate noInput) = _
      rw [step_resting (h.coast n), tickCounters_coast hcount]

/-- The reset timer `n` milliseconds on. -/
def lowerReset (n : Nat) (s : Station) : Station :=
  { s with logic.resetStartTimeCnt := s.logic.resetStartTimeCnt - BitVec.ofNat 16 n }

/-- One millisecond more for a reset timer that does not expire in it. -/
theorem countedReset_lowerReset {n : Nat} (hn : n + 1 < s.logic.resetStartTimeCnt.toNat) :
    countedReset (lowerReset n s) = lowerReset (n + 1) s := by
  have hleft : (s.logic.resetStartTimeCnt - BitVec.ofNat 16 n).toNat =
      s.logic.resetStartTimeCnt.toNat - n := by bv_omega
  have hzero : s.logic.resetStartTimeCnt - BitVec.ofNat 16 n ≠ 0 := by bv_omega
  have hone : (s.logic.resetStartTimeCnt - BitVec.ofNat 16 n == 1) = false := by
    rw [beq_eq_false_iff_ne]
    bv_omega
  have hnext : s.logic.resetStartTimeCnt - BitVec.ofNat 16 n - 1 =
      s.logic.resetStartTimeCnt - BitVec.ofNat 16 (n + 1) := by bv_omega
  unfold countedReset lowerReset
  dsimp only
  rw [if_neg hzero, hone, Bool.or_false, hnext]

/-- **Quiet milliseconds** before the reset timer expires. -/
theorem run_waitingTicks (h : Waiting s) (hcount : Counting s) {n : Nat}
    (hn : n < s.logic.resetStartTimeCnt.toNat) :
    run step s (idleTicks n) = lowerReset n (coast n s) := by
  induction n with
  | zero =>
      rw [coast_zero hcount]
      unfold lowerReset
      rw [show s.logic.resetStartTimeCnt - BitVec.ofNat 16 0 = s.logic.resetStartTimeCnt from
        BitVec.sub_zero _]
      rfl
  | succ n ih =>
      have hticks : idleTicks (n + 1) = idleTicks n ++ [.timeUpdate noInput] :=
        List.replicate_succ'
      have hwaiting : Waiting (lowerReset n (IotCtrl.coast n s)) := Resting.coast h n
      have hstep : ∀ t, Waiting t →
          step t (.timeUpdate noInput) = countedReset (tickCounters t) := by
        intro t ht
        have hrun : t.systemReset = false := ht.running
        rw [← timeUpdate_waiting ht]
        exact if_neg (by simp [hrun])
      have hcounted : tickCounters (lowerReset n (IotCtrl.coast n s)) =
          lowerReset n (IotCtrl.coast (n + 1) s) :=
        congrArg (lowerReset n) (tickCounters_coast hcount n)
      rw [hticks, run_append, ih (by omega)]
      show step (lowerReset n (IotCtrl.coast n s)) (.timeUpdate noInput) = _
      rw [hstep _ hwaiting, hcounted]
      exact countedReset_lowerReset hn

end Coast

end IotCtrl
