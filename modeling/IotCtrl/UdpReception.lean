import IotCtrl.LineMoves

/-!
# Reception of datagrams

`udp_receive_callback` copies `tot_len` bytes from the payload pointer of the first
segment, and marks the client as having received even when the datagram was too long to be
copied; the length it then adds was never assigned.

* `Delivers` — a step treats datagrams as wholes;
* `Pbuf.Fits` — the datagrams for which the callback is written;
* `datagrams_whole_iff` — in a run of such datagrams every step does, and a step that takes
  in another one does not, or the next call of the client does not;
* `overlong_marks_received` — a datagram of 301 bytes.
-/

namespace IotCtrl

open ByteMemory Transition ClosedFacts

/-! ## Whole datagrams -/

/-- The datagram that the step takes in. -/
def takenIn : Station × Input → Option Pbuf
  | (s, .udpReceive p _) =>
      if s.systemReset = false ∧ s.isHost = true ∧ s.msg.tcpClientStatue = .connectOk then some p
      else none
  | _ => none

/-- The latest of them. -/
def lastDatagram (past : Past) : Option Pbuf := past.findSome? takenIn

/-- The elements of `tcp_recv_buf` that the callback assigns to. -/
def recvIndices (p : Pbuf) (s : Station) : List Nat :=
  if s.msg.tcpClientStatue = .connectOk ∧ p.totLen ≤ 300 then
    (List.range p.totLen).map (s.msg.tcpRecvLen.toNat + ·)
  else []

/-- The client holds the datagram, all of it and nothing else. -/
def Holding (d : Pbuf) (s : Station) : Prop :=
  s.msg.tcpRecvLen.toNat = d.totLen ∧
    ByteMemory.read s.msg.tcpRecvBuf 0 d.totLen = d.segments.flatten

/-- The step treats datagrams as wholes: it stays inside the buffer, leaves the client
alone when the datagram is too long or another one is unprocessed, and hands
`recv_message_from_server` a whole one. -/
def Delivers (past : Past) (s : Station) : Input → Prop
  | .udpReceive p m =>
      (∀ k ∈ recvIndices p s, k < 300) ∧
        (300 < p.totLen ∨ s.msg.tcpClientStatue = .connectRecv →
          (step s (.udpReceive p m)).msg = s.msg)
  | .udpClient _ =>
      s.systemReset = false → s.isHost = true → s.msg.tcpClientStatue = .connectRecv →
        ∃ d ∈ lastDatagram past, Holding d s
  | _ => True

/-- It fits the buffer, and the bytes from the payload pointer of its first segment on are
those of all segments. -/
def Pbuf.Fits (p : Pbuf) : Prop :=
  p.totLen ≤ 300 ∧ ByteMemory.read p.payload 0 p.totLen = p.segments.flatten

instance (p : Pbuf) : Decidable p.Fits := inferInstanceAs (Decidable (_ ∧ _))

/-- A datagram that is taken in fits. -/
def TakesFitting (s : Station) (i : Input) : Prop := ∀ p ∈ takenIn (s, i), p.Fits

instance (s : Station) (i : Input) : Decidable (TakesFitting s i) :=
  inferInstanceAs (Decidable (∀ p ∈ takenIn (s, i), p.Fits))

/-! ## The callback -/

/-- Only the listed elements change. -/
theorem udpReceiveCallback_outside {p : Pbuf} {m : U16} {s : Station} {k : Nat}
    (h : (udpReceiveCallback p m s).msg.tcpRecvBuf k ≠ s.msg.tcpRecvBuf k) :
    k ∈ recvIndices p s := by
  unfold recvIndices
  by_cases hfits : s.msg.tcpClientStatue = .connectOk ∧ p.totLen ≤ 300
  · rw [if_pos hfits]
    rw [udpReceiveCallback_fits m hfits.1 hfits.2] at h
    have hk : s.msg.tcpRecvLen.toNat ≤ k ∧
        k < s.msg.tcpRecvLen.toNat + (ByteMemory.read p.payload 0 p.totLen).length := by
      by_contra hout
      exact h (if_neg hout)
    rw [length_read] at hk
    exact List.mem_map.mpr ⟨k - s.msg.tcpRecvLen.toNat, List.mem_range.mpr (by omega), by omega⟩
  · refine absurd ?_ h
    unfold udpReceiveCallback
    dsimp only
    split_ifs with hok hle
    · exact absurd ⟨hok, hle⟩ hfits
    · rfl
    · rfl

/-- A datagram that is not taken in leaves everything alone. -/
theorem step_udpReceive_none {p : Pbuf} {m : U16} {s : Station}
    (h : takenIn (s, .udpReceive p m) = none) : step s (.udpReceive p m) = s := by
  unfold takenIn at h
  dsimp only at h
  unfold step
  show (if s.systemReset then s else if s.isHost then udpReceiveCallback p m s else s) = s
  split_ifs with hreset hhost
  · rfl
  · refine if_neg fun hok => ?_
    rw [if_pos ⟨by simpa using hreset, hhost, hok⟩] at h
    cases h
  · rfl

theorem takenIn_eq_some {p d : Pbuf} {m : U16} {s : Station}
    (h : takenIn (s, .udpReceive p m) = some d) :
    d = p ∧ (s.systemReset = false ∧ s.isHost = true ∧ s.msg.tcpClientStatue = .connectOk) ∧
      step s (.udpReceive p m) = udpReceiveCallback p m s := by
  unfold takenIn at h
  dsimp only at h
  split_ifs at h with hok
  refine ⟨(Option.some.inj h).symm, hok, ?_⟩
  obtain ⟨hrunning, hhost, -⟩ := hok
  exact (if_neg (by rw [hrunning]; exact Bool.false_ne_true)).trans (if_pos hhost)

theorem lastDatagram_take {past : Past} {s : Station} {p d : Pbuf} {m : U16}
    (h : takenIn (s, .udpReceive p m) = some d) :
    lastDatagram ((s, .udpReceive p m) :: past) = some d := by
  unfold lastDatagram
  rw [List.findSome?_cons_of_isSome (by rw [h]; rfl), h]

/-! ## The receiving half of the client -/

/-- The receiving half of the client is the same. -/
structure SameRecv (s t : Station) : Prop where
  buf : t.msg.tcpRecvBuf = s.msg.tcpRecvBuf
  len : t.msg.tcpRecvLen = s.msg.tcpRecvLen
  statue : t.msg.tcpClientStatue = s.msg.tcpClientStatue

theorem SameRecv.refl (s : Station) : SameRecv s s := ⟨rfl, rfl, rfl⟩

theorem SameRecv.of_keeps {ps : List Part} {s t : Station} (h : Keeps ps s t)
    [hlink : Evident (.link ∉ ps)] : SameRecv s t := by
  have hsame : { t.msg with msgSendQueue := s.msg.msgSendQueue } = s.msg := h.same .link hlink.out
  have hbuf := congrArg MsgVars.tcpRecvBuf hsame
  have hlen := congrArg MsgVars.tcpRecvLen hsame
  have hstatue := congrArg MsgVars.tcpClientStatue hsame
  exact ⟨hbuf, hlen, hstatue⟩

/-- Sending uses the other half. -/
theorem sendMessageToServer_sameRecv (s : Station) : SameRecv s (sendMessageToServer s) := by
  have hget : SameRecv s (getSendMsgFromQueue s).2 := by
    unfold getSendMsgFromQueue
    split <;> exact ⟨rfl, rfl, rfl⟩
  have hstatus : ∀ type t, SameRecv t (sendMsgModuleStatusCmd type t) := by
    intro type t
    unfold sendMsgModuleStatusCmd
    split
    · exact ⟨rfl, rfl, rfl⟩
    · rename_i m u h
      obtain ⟨q, -, hq⟩ := Option.map_eq_some_iff.mp h
      obtain ⟨-, rfl⟩ := Prod.mk.inj hq
      exact ⟨rfl, rfl, rfl⟩
  unfold sendMessageToServer
  dsimp only
  have hgot := hstatus (getSendMsgFromQueue s).1 (getSendMsgFromQueue s).2
  obtain ⟨hbuf, hlen, hstatue⟩ := hget
  split_ifs
  · exact SameRecv.refl s
  · exact ⟨hgot.buf.trans hbuf, hgot.len.trans hlen, hgot.statue.trans hstatue⟩
  · exact ⟨hgot.buf.trans hbuf, hgot.len.trans hlen, hgot.statue.trans hstatue⟩
  all_goals exact ⟨hbuf, hlen, hstatue⟩

/-- The connection half of the client does not receive anything. -/
theorem udpConnectProcess_recv (env : UdpEnv) (s : Station) :
    (udpConnectProcess env s).msg.tcpRecvLen = s.msg.tcpRecvLen ∧
      (s.msg.tcpClientStatue ≠ .connectRecv →
        (udpConnectProcess env s).msg.tcpClientStatue ≠ .connectRecv) := by
  unfold udpConnectProcess udpSendProcess
  dsimp only
  split_ifs
  all_goals refine ⟨rfl, fun hne => ?_⟩
  all_goals first
    | exact hne
    | exact ClientStatue.noConfusion

/-! ## Runs -/

/-- An idle client has received nothing, and a client that has received holds the latest
datagram. -/
structure RecvInv (past : Past) (s : Station) : Prop where
  idle : s.msg.tcpClientStatue ≠ .connectRecv → s.msg.tcpRecvLen = 0
  pending : s.msg.tcpClientStatue = .connectRecv → ∃ d ∈ lastDatagram past, Holding d s

namespace RecvInv

variable {past : Past} {s t : Station} {i : Input}

theorem of_same (h : RecvInv past s) (hnone : takenIn (s, i) = none) (hm : SameRecv s t) :
    RecvInv ((s, i) :: past) t := by
  have hlast : lastDatagram ((s, i) :: past) = lastDatagram past :=
    List.findSome?_cons_of_isNone (by rw [hnone]; rfl)
  constructor
  · rw [hm.statue, hm.len]
    exact h.idle
  · rw [hm.statue, hlast]
    intro hrecv
    obtain ⟨d, hd, hlen, hbytes⟩ := h.pending hrecv
    refine ⟨d, hd, ?_, ?_⟩
    · rw [hm.len]
      exact hlen
    · rw [hm.buf]
      exact hbytes

/-- A datagram that fits is taken in whole. -/
theorem take (h : RecvInv past s) {p d : Pbuf} {m : U16}
    (htaken : takenIn (s, .udpReceive p m) = some d) (hfits : d.Fits) :
    RecvInv ((s, .udpReceive p m) :: past) (step s (.udpReceive p m)) := by
  have hlast : lastDatagram ((s, .udpReceive p m) :: past) = some d := lastDatagram_take htaken
  obtain ⟨rfl, ⟨-, -, hok⟩, hstep⟩ := takenIn_eq_some htaken
  obtain ⟨hle, hbytes⟩ := hfits
  have hzero : s.msg.tcpRecvLen = 0 := h.idle (by rw [hok]; decide)
  have hread : ByteMemory.read (write s.msg.tcpRecvBuf 0 (ByteMemory.read d.payload 0 d.totLen)) 0
      d.totLen = d.segments.flatten := by
    have hback := read_write s.msg.tcpRecvBuf 0 (ByteMemory.read d.payload 0 d.totLen)
    rw [length_read] at hback
    exact hback.trans hbytes
  rw [hstep, udpReceiveCallback_fits m hok hle, hzero]
  refine ⟨fun hne => absurd rfl hne, fun _ => ⟨d, hlast, ?_, hread⟩⟩
  show (0 + BitVec.ofNat 16 d.totLen : U16).toNat = d.totLen
  rw [BitVec.toNat_add, BitVec.toNat_ofNat]
  show (0 + d.totLen % 65536) % 65536 = d.totLen
  omega

/-- The client handles what it holds and is idle again. -/
theorem client (h : RecvInv past s) (env : UdpEnv) :
    RecvInv ((s, .udpClient env) :: past) (udpClientProcess env s) := by
  have hmsg : SameRecv s (recvMessageFromServer s.msg.tcpRecvBuf s.msg.tcpRecvLen.toNat s) :=
    SameRecv.of_keeps (recvMessageFromServer_touches _ _ s).keeps
  have hidle : ∀ t : Station, t.msg.tcpClientStatue ≠ .connectRecv → t.msg.tcpRecvLen = 0 →
      RecvInv ((s, .udpClient env) :: past) (udpConnectProcess env t) := by
    intro t hstatue hlen
    obtain ⟨hsame, hstill⟩ := udpConnectProcess_recv env t
    exact ⟨fun _ => hsame.trans hlen, fun hrecv => absurd hrecv (hstill hstatue)⟩
  unfold udpClientProcess
  dsimp only
  split_ifs with hrecv hreset
  · exact h.of_same rfl hmsg
  · exact hidle _ ClientStatue.noConfusion rfl
  · exact hidle s hrecv (h.idle hrecv)

end RecvInv

/-- **One step**, of a run in which the datagrams taken in fit. -/
theorem step_recvInv {past : Past} {s : Station} {i : Input} (h : RecvInv past s)
    (hok : TakesFitting s i) : RecvInv ((s, i) :: past) (step s i) := by
  have hbeside : takenIn (s, i) = none → SameRecv s (step s i) →
      RecvInv ((s, i) :: past) (step s i) := h.of_same
  cases i with
  | udpReceive p m =>
      cases htaken : takenIn (s, .udpReceive p m) with
      | none => exact hbeside htaken (by rw [step_udpReceive_none htaken]; exact SameRecv.refl s)
      | some d => exact h.take htaken (hok d htaken)
  | udpClient env =>
      rcases step_cases s (.udpClient env) with hstep | hstep
      · exact hbeside rfl (by rw [hstep]; exact SameRecv.refl s)
      rw [hstep]
      show RecvInv _ (if s.isHost then udpClientProcess env s else s)
      split_ifs
      · exact h.client env
      · exact h.of_same rfl (SameRecv.refl s)
  | sendMessage =>
      refine hbeside rfl ?_
      rcases step_cases s .sendMessage with hstep | hstep
      · rw [hstep]
        exact SameRecv.refl s
      rw [hstep]
      show SameRecv s (if s.isHost then sendMessageToServer s else s)
      split_ifs
      · exact sendMessageToServer_sameRecv s
      · exact SameRecv.refl s
  | _ => exact hbeside rfl (SameRecv.of_keeps (step_touches s _).keeps)

theorem trail_recvInv {past : Past} {s : Station} (h : Trails TakesFitting past s) :
    RecvInv past s := by
  refine h.invariant ?_ fun past s i hpast hok => step_recvInv hpast hok
  rintro s ⟨flash, localStation, rfl⟩
  have hsame := SameRecv.of_keeps (boot_keeps flash localStation)
  refine ⟨fun _ => hsame.len, fun hrecv => ?_⟩
  rw [hsame.statue] at hrecv
  cases hrecv

theorem delivers_of_inv {past : Past} {s : Station} (h : RecvInv past s) {i : Input}
    (hok : TakesFitting s i) : Delivers past s i := by
  cases i with
  | udpReceive p m =>
      refine ⟨fun k hk => ?_, fun hcause => ?_⟩
      · unfold recvIndices at hk
        split_ifs at hk with hfits
        · obtain ⟨j, hj, rfl⟩ := List.mem_map.mp hk
          have hlt := List.mem_range.mp hj
          have hzero : s.msg.tcpRecvLen.toNat = 0 := by
            rw [h.idle (by rw [hfits.1]; decide)]
            rfl
          omega
        · cases hk
      · cases htaken : takenIn (s, .udpReceive p m) with
        | none => rw [step_udpReceive_none htaken]
        | some d =>
            obtain ⟨rfl, ⟨-, -, hidle⟩, -⟩ := takenIn_eq_some htaken
            rcases hcause with hlong | hbusy
            · exact absurd (hok d htaken).1 (Nat.not_le.mpr hlong)
            · rw [hidle] at hbusy
              cases hbusy
  | udpClient env => exact fun _ _ hrecv => h.pending hrecv
  | _ => trivial

/-- **Whole datagrams.**  In a run whose datagrams all fit, a step treats datagrams as wholes,
and so does a call of the client behind it, exactly when the datagram that the step takes in
fits as well. -/
theorem datagrams_whole_iff {past : Past} {s : Station} (h : Trails TakesFitting past s)
    (i : Input) (env : UdpEnv) :
    (Delivers past s i ∧ Delivers ((s, i) :: past) (step s i) (.udpClient env)) ↔
      TakesFitting s i := by
  have hinv := trail_recvInv h
  refine ⟨fun hdelivers => ?_, fun hok => ⟨delivers_of_inv hinv hok, ?_⟩⟩
  · obtain ⟨hnow, hnext⟩ := hdelivers
    intro d htaken
    cases i with
    | udpReceive p m =>
        have hlast : lastDatagram ((s, .udpReceive p m) :: past) = some d :=
          lastDatagram_take htaken
        obtain ⟨rfl, ⟨hrunning, hhost, hok⟩, hstep⟩ := takenIn_eq_some htaken
        have hk := udpReceiveCallback_keeps d m s
        have hreset : (udpReceiveCallback d m s).systemReset = s.systemReset :=
          hk.same .systemReset (by decide)
        have hrecv : (udpReceiveCallback d m s).msg.tcpClientStatue = .connectRecv := by
          unfold udpReceiveCallback
          rw [if_pos hok]
        have hle : d.totLen ≤ 300 := by
          by_contra hlong
          have hsame := congrArg MsgVars.tcpClientStatue (hnow.2 (Or.inl (Nat.not_le.mp hlong)))
          rw [hstep, hrecv, hok] at hsame
          cases hsame
        rw [hstep] at hnext
        obtain ⟨e, he, -, hbytes⟩ := hnext (hreset.trans hrunning) (hk.isHost.trans hhost) hrecv
        obtain rfl : d = e := Option.some.inj (hlast.symm.trans he)
        have hzero : s.msg.tcpRecvLen = 0 := hinv.idle (by rw [hok]; decide)
        rw [udpReceiveCallback_fits m hok hle, hzero] at hbytes
        have hback := read_write s.msg.tcpRecvBuf 0 (ByteMemory.read d.payload 0 d.totLen)
        rw [length_read] at hback
        exact ⟨hle, hback.symm.trans hbytes⟩
    | _ => cases htaken
  · exact delivers_of_inv (step_recvInv hinv hok) (fun p hp => by cases hp)

/-! ## Two datagrams -/

/-- The network stack answers. -/
def stackUp : UdpEnv := { pcbCreated := true, connected := true, pbufAllocated := true }

/-- The host connects and takes in a datagram of one segment. -/
def takesShort : List Input :=
  [.udpClient stackUp, .udpClient stackUp,
    .udpReceive { segments := [[0xAA, 0xAA]], behind := fun _ => 0 } 0]

/-- The next call of the client handles this datagram. -/
theorem short_datagram_whole :
    ∃ d ∈ lastDatagram (passed step [] (boot zeroFlash 1) takesShort),
      Holding d (run step (boot zeroFlash 1) takesShort) := by
  have hrun : Along step TakesFitting (boot zeroFlash 1) takesShort ∧
      (run step (boot zeroFlash 1) takesShort).systemReset = false ∧
      (run step (boot zeroFlash 1) takesShort).isHost = true ∧
      (run step (boot zeroFlash 1) takesShort).msg.tcpClientStatue = .connectRecv := by
    decide +kernel
  obtain ⟨halong, hrunning, hhost, hrecv⟩ := hrun
  have hwhole := datagrams_whole_iff (trail_run ⟨zeroFlash, 1, rfl⟩ halong)
    (.udpClient stackUp) stackUp
  exact (hwhole.mpr fun _ hp => by cases hp).1 hrunning hhost hrecv

/-- A datagram of 301 bytes is not copied, but the client counts as having received. -/
theorem overlong_marks_received :
    ¬ ∀ past s, Trails (fun _ _ => True) past s → ∀ i, Delivers past s i := by
  intro h
  have hdelivers := h _ _ (trail_run ⟨zeroFlash, 1, rfl⟩ (Along.of_forall (fun _ _ => trivial)
    [.udpClient stackUp, .udpClient stackUp] _))
    (.udpReceive { segments := [List.replicate 301 0], behind := fun _ => 0 } 0)
  have hsame := congrArg MsgVars.tcpClientStatue (hdelivers.2 (Or.inl (by decide +kernel)))
  revert hsame
  decide +kernel

end IotCtrl
