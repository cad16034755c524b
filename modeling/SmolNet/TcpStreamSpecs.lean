import SmolNet.Blocking
import SmolNet.TcpCallSpecs

/-!
# The stream calls are made of steps

Names and options, stream input and output, and the ways a TCP socket is closed.
-/

namespace SmolNet.NativeStack

open Std Program TreeMap Ownership

variable {ε : Type} {s : NativeStack} {ok : NativeStack → StepLabel → Prop}
  {identity : SocketIdentity} {record : TcpRecord} {socket changed : TcpSocket}

/-! ## Names and options -/

section

variable (hs : s.Sound) (hin : s.history.inHand = [])

include hin in
theorem tcpSockname_spec (identity : SocketIdentity) :
    wp (tcpSockname identity) (fun envelope s' => Undriven s envelope s')
      (fun _ s' => Fails s s') s := by
  unfold tcpSockname
  simp only [wp_bind, wp_ensureRunning, wp_validate, wp_get]
  refine ⟨fun _ => ⟨fun _ _ => ?_, fun _ _ => .refl s⟩, fun _ => .refl s⟩
  split
  · exact undriven_query hin _
  · simp only [wp_bind, wp_tcpRecord, wp_orFail, wp_finishCall]
    exact ⟨fun _ _ => ⟨fun _ _ => undriven_query hin _, fun _ => .refl s⟩, fun _ _ => .refl s⟩

include hin in
theorem tcpPeername_spec (identity : SocketIdentity) :
    wp (tcpPeername identity) (fun envelope s' => Undriven s envelope s')
      (fun _ s' => Fails s s') s := by
  unfold tcpPeername
  simp only [wp_bind, wp_ensureRunning, wp_validate, wp_get, wp_require, wp_tcpRecord, wp_orFail,
    wp_finishCall]
  exact ⟨fun _ => ⟨fun _ _ => ⟨fun _ => ⟨fun _ _ => ⟨fun _ => ⟨fun _ _ => undriven_query hin _,
    fun _ => .refl s⟩, fun _ => .refl s⟩, fun _ _ => .refl s⟩, fun _ => .refl s⟩, fun _ _ => .refl s⟩,
    fun _ => .refl s⟩

include hs hin

theorem tcpOption_spec (identity : SocketIdentity) (ofListener : ListenerRecord → Bool)
    (ofSocket : TcpSocket → Bool) :
    wp (tcpOption identity ofListener ofSocket) (fun envelope s' => Undriven s envelope s')
      (fun _ s' => Fails s s') s := by
  unfold tcpOption
  simp only [wp_bind, wp_ensureRunning, wp_validate, wp_get]
  refine ⟨fun _ => ⟨fun _ _ => ?_, fun _ _ => .refl s⟩, fun _ => .refl s⟩
  split
  · exact undriven_query hin _
  · simp only [wp_bind, wp_tcpRecord, wp_getTcp, wp_finishCall]
    refine ⟨fun record hok => ?_, fun _ _ => .refl s⟩
    obtain ⟨socket, hsocket, -⟩ := hs.typed.tcp _ record (tcpRecord?_eq_ok hok).1
    exact ⟨socket, hsocket, undriven_query hin _⟩

theorem tcpSetOption_spec (identity : SocketIdentity) (now : Instant)
    {onListener : ListenerRecord → ListenerRecord} {onSocket : NativeStack → TcpSocket → TcpSocket}
    (hlistener : ∀ listener, AmendsListener listener (onListener listener))
    (hsocket : ∀ socket, (NativeSocket.tcp socket).Evolves (.tcp (onSocket s socket)))
    (hkeeps : ∀ socket : TcpSocket, socket.SameConnection (onSocket s socket)) :
    wp (tcpSetOption identity now onListener onSocket)
      (fun envelope s' => Driven Gentle s [] envelope s') (fun _ s' => Fails s s') s := by
  unfold tcpSetOption
  simp only [wp_bind, wp_ensureRunning, wp_validate, wp_get]
  refine ⟨fun _ => ⟨fun _ _ => ?_, fun _ _ => .refl s⟩, fun _ => .refl s⟩
  split
  · rename_i listener hfound
    obtain ⟨hfound, rfl⟩ := listener?_eq_some.1 hfound
    have hstep := Step.amendListener hfound (hlistener listener)
    rw [putListener, (hlistener listener).identity] at hstep
    simp only [wp_bind, wp_set, wp_finishCall]
    exact Prepares.drives (.step hstep trivial rfl rfl) hs hin (fun _ _ h => h) now 0 .ok
  · simp only [wp_bind, wp_tcpRecord, wp_finishCall]
    refine ⟨fun record hok => ?_, fun _ _ => .refl s⟩
    obtain ⟨socket, hfound, -⟩ := hs.typed.tcp _ record (tcpRecord?_eq_ok hok).1
    refine wp_mono (updateTcp_spec hs ⟨socket, hfound⟩ hsocket fun socket => .keeps (hkeeps socket))
      (fun _ t ht => ?_) fun _ _ h => h
    exact ht.1.drives hs hin (fun _ _ h => h) now 0 .ok

theorem tcpSetNodelay_spec (identity : SocketIdentity) (nodelay : Bool) (now : Instant) :
    wp (tcpSetNodelay identity nodelay now) (fun envelope s' => Driven Gentle s [] envelope s')
      (fun _ s' => Fails s s') s :=
  tcpSetOption_spec hs hin identity now (fun _ => ⟨rfl, rfl, rfl, rfl, rfl, rfl, rfl, rfl, rfl, rfl⟩)
    (fun _ => ⟨rfl, rfl, id⟩) fun _ => ⟨⟨rfl, rfl, rfl, rfl⟩, rfl, fun _ => rfl⟩

theorem tcpSetKeepalive_spec (identity : SocketIdentity) (keepalive : Bool) (now : Instant) :
    wp (tcpSetKeepalive identity keepalive now) (fun envelope s' => Driven Gentle s [] envelope s')
      (fun _ s' => Fails s s') s := by
  refine tcpSetOption_spec hs hin identity now (fun _ => ⟨rfl, rfl, rfl, rfl, rfl, rfl, rfl, rfl, rfl, rfl⟩)
    (fun socket => ?_) fun socket => ?_
  · split
    · exact .refl _
    · exact ⟨rfl, rfl, id⟩
  · split <;> exact ⟨⟨rfl, rfl, rfl, rfl⟩, rfl, fun _ => rfl⟩

end

/-! ## Stream input and output -/

theorem ensureConnected_spec (hs : s.Sound) (hok : s.tcpRecord? identity = .ok record) :
    wp (ensureConnected record) (fun _ s' => s' = s ∧ record.phase = .connected) (fun _ s' => s' = s)
      s := by
  obtain ⟨socket, hsocket, -⟩ := hs.typed.tcp _ record (tcpRecord?_eq_ok hok).1
  unfold ensureConnected
  cases hphase : record.phase with
  | connected =>
      simp only [wp_bind, wp_getTcp, wp_require]
      exact ⟨socket, hsocket, fun _ => ⟨trivial, trivial⟩, fun _ => trivial⟩
  | failed failure => rfl
  | «open» => rfl
  | bound => rfl
  | connecting => rfl

theorem sendSlice_evolves {data : List UInt8} {accepted : Nat}
    (h : socket.sendSlice data = some (accepted, changed)) :
    (NativeSocket.tcp socket).Evolves (.tcp changed) := by
  unfold TcpSocket.sendSlice at h
  split at h
  · simp only [Option.some.injEq, Prod.mk.injEq] at h
    obtain ⟨-, rfl⟩ := h
    exact ⟨rfl, by simp, id⟩
  · cases h

theorem sendSlice_sameConnection {data : List UInt8} {accepted : Nat}
    (h : socket.sendSlice data = some (accepted, changed)) : socket.SameConnection changed := by
  unfold TcpSocket.sendSlice at h
  split at h
  · simp only [Option.some.injEq, Prod.mk.injEq] at h
    obtain ⟨-, rfl⟩ := h
    exact ⟨⟨rfl, rfl, rfl, rfl⟩, rfl, fun _ => rfl⟩
  · cases h

theorem sendSlice_accepted {data : List UInt8} {accepted : Nat}
    (h : socket.sendSlice data = some (accepted, changed)) : accepted = min socket.tx.window data.length := by
  unfold TcpSocket.sendSlice at h
  split at h
  · simp only [Option.some.injEq, Prod.mk.injEq] at h
    exact h.1.symm
  · cases h

/-- The socket once `size` bytes were taken from its buffer. -/
def afterRead (socket : TcpSocket) (size : Nat) : TcpSocket := { socket with rx := (socket.rx.dequeueSlice size).2 }

theorem afterRead_zero (socket : TcpSocket) : afterRead socket 0 = socket := rfl

theorem afterRead_evolves (socket : TcpSocket) (size : Nat) :
    (NativeSocket.tcp socket).Evolves (.tcp (afterRead socket size)) := ⟨by simp [afterRead], rfl, id⟩

theorem afterRead_sameConnection (socket : TcpSocket) (size : Nat) :
    socket.SameConnection (afterRead socket size) := ⟨⟨rfl, rfl, rfl, rfl⟩, rfl, fun _ => rfl⟩

/-- A socket that evolves, put back in its place. -/
theorem Prepares.put (hs : s.Sound) {handle : Nat} (hsocket : s.sockets[handle]? = some (.tcp socket))
    (h : (NativeSocket.tcp socket).Evolves (.tcp changed)) (hkeeps : socket.SameConnection changed) :
    Prepares Gentle s [] (s.putSocket handle (.tcp changed)) :=
  (Maintains.put hsocket (hs.reshapes_closed hsocket ⟨h.1, h.2.1⟩ h.2.2) (.keeps hkeeps) []).prepares hs

theorem putSocket_self {handle : Nat} {socket : NativeSocket}
    (h : s.sockets[handle]? = some socket) : s.putSocket handle socket = s := by
  have hsame : s.sockets.insert handle socket = s.sockets := by
    ext other value
    rw [ExtTreeMap.getElem?_insert]
    by_cases hother : handle = other
    · subst hother
      simp [h]
    · simp [hother]
  rw [putSocket, hsame]

/-- The stream waiter of a call that has checked there is room for it. -/
theorem armTcpWaiter_checked (hs : s.Sound) {handle : Nat} {direction : Direction} {operation : Operation}
    {pid reference : Nat} {immediatelyReady : Bool} (hwait : s.MayWait identity)
    (hdirection : operation.direction = direction)
    (hsocket : ∃ socket, s.sockets[handle]? = some (.tcp socket))
    (harmable : s.Armable identity .tcp direction) :
    wp (armTcpWaiter identity handle direction operation pid reference immediatelyReady)
      (fun _ s' => Prepares Gentle s [] s') (fun _ _ => False) s :=
  wp_mono (armTcpWaiter_spec hs hwait hdirection hsocket) (fun _ _ h => h.1) fun _ _ h => h.2 harmable

theorem tcpSend_spec (hs : s.Sound) (hin : s.history.inHand = []) (identity : SocketIdentity)
    (data : List UInt8) (pid reference : Nat) (now : Instant) :
    wp (tcpSend identity data pid reference now) (fun envelope s' => Driven Gentle s [] envelope s')
      (fun _ s' => Fails s s') s := by
  unfold tcpSend
  simp only [wp_bind, wp_ensureRunning, wp_validate, wp_tcpRecord, wp_require]
  refine ⟨fun _ => ⟨fun entry hvalid => ⟨fun record hok => ⟨fun hempty => ?_, fun _ => .refl s⟩,
    fun _ _ => .refl s⟩, fun _ _ => .refl s⟩, fun _ => .refl s⟩
  refine wp_mono (ensureConnected_spec hs hok) ?_ fun _ _ h => .of_eq h
  rintro _ t ⟨rfl, hphase⟩
  have hwait := hs.mayWait hok (by rw [hphase]; rfl)
  obtain ⟨socket, hsocket, -⟩ := hs.typed.tcp _ record (tcpRecord?_eq_ok hok).1
  -- Sending, once the waiter capacity has been checked or need not be.
  have hsend : (min (min data.length t.limits.bytesCopied) socket.tx.window < data.length →
        t.Armable identity .tcp .write) → wp (do
      let sent ← orFail (socket.sendSlice (data.take (min data.length t.limits.bytesCopied))) .closed
      modify fun s => s.putSocket record.handle (.tcp sent.2)
      let result ←
        if sent.1 = data.length then pure .ok
        else do
          armTcpWaiter identity record.handle .write .send pid reference sent.2.canSend
          pure (.selectSent reference sent.1)
      let effects ← drive now sent.1
      finishCall result effects [])
      (fun envelope s' => Driven Gentle t [] envelope s') (fun _ s' => Fails t s') t := by
    intro harmable
    simp only [wp_bind, wp_orFail, wp_modify, wp_ite, wp_pure, wp_finishCall]
    refine ⟨?_, fun _ => .refl t⟩
    rintro ⟨accepted, changed⟩ hsent
    have hput := Prepares.put hs hsocket (sendSlice_evolves hsent) (sendSlice_sameConnection hsent)
    refine ⟨fun _ => hput.drives hs hin (fun _ _ h => h) now _ _, fun hshort => ?_⟩
    have harmable' : (t.putSocket record.handle (.tcp changed)).Armable identity .tcp .write := by
      refine (harmable ?_).sameSlots ⟨rfl, rfl, rfl⟩
      have haccepted := sendSlice_accepted hsent
      rw [List.length_take] at haccepted
      omega
    refine wp_mono (armTcpWaiter_checked (hput.sound hs) ⟨hwait.active, hwait.queue⟩ rfl
      ⟨changed, by simp [putSocket]⟩ harmable') (fun _ u hu => ?_) fun _ _ h => h.elim
    exact (hput.andThen hu).drives hs hin (fun _ _ h => h) now _ _
  simp only [wp_get, wp_getTcp, wp_ite]
  refine ⟨fun _ => ⟨socket, hsocket, fun _ => ⟨fun _ => ?_, fun hwide => ?_⟩, fun _ => .refl t⟩,
    fun _ => .refl t⟩
  · rw [wp_bind, wp_ensureWaiterCapacity]
    exact ⟨fun hroom => hsend fun _ => ⟨entry, hvalid, hempty, hroom⟩, fun _ => .refl t⟩
  · exact hsend fun hnarrow => (hwide hnarrow).elim

/-- The socket is open for receiving just as far as a receive foresees. -/
theorem mayRecv_afterRead (socket : TcpSocket) (size : Nat) :
    (afterRead socket size).mayRecv = (socket.state == .established || socket.state == .finWait1 ||
      socket.state == .finWait2 || decide (0 < socket.rx.contents.length - size)) := by
  unfold TcpSocket.mayRecv TcpSocket.canRecv
  congr 1
  rw [Bool.eq_iff_iff]
  simp only [afterRead, RingBuffer.dequeueSlice, bne_iff_ne, ne_eq, List.drop_eq_nil_iff, decide_eq_true_eq]
  omega

/-- A receive takes what is first in the buffer, if anything. -/
theorem wp_read {Q : Envelope → NativeStack → Prop} {E : SocketError → NativeStack → Prop} {socket : TcpSocket}
    {size : Nat} {rest : List UInt8 × TcpSocket → Op SocketError Envelope}
    (hQ : wp (rest (socket.rx.contents.take size, afterRead socket size)) Q E s) (hE : E .closed s) :
    wp (if 0 < size then orFail (socket.recvSlice size) .closed >>= rest else pure ([], socket) >>= rest) Q E s := by
  rw [wp_ite, wp_bind, wp_bind, wp_orFail, wp_pure]
  refine ⟨fun _ => ⟨fun received h => ?_, fun _ => hE⟩, fun hzero => ?_⟩
  · unfold TcpSocket.recvSlice at h
    split at h
    · obtain rfl := Option.some.inj h
      exact hQ
    · cases h
  · obtain rfl : size = 0 := by omega
    exact hQ

/-- A receive that ends with the stream has taken nothing. -/
theorem receiveComplete_closed {length copied : Nat} (h : receiveComplete length copied false = false) :
    copied = 0 := by
  unfold receiveComplete at h
  split at h
  · simpa using h
  · simp only [Bool.not_false, Bool.true_and, Bool.or_eq_false_iff, decide_eq_false_iff_not] at h
    omega

/-- The reply of a receive from the socket as `SmolNet.recv` takes it; the stream has ended with the data if the
socket it leaves may receive no more. -/
def recvReply? (socket : TcpSocket) : Reply → Option Socket.RecvReply
  | .received data => some (.received data (!(afterRead socket data.length).mayRecv))
  | .select _ _ => some .select
  | .selectReceived _ data => some (.selectReceived data)
  | _ => none

/-- The reply gives what is first in the socket's buffer, and keeps to the length. -/
def Receives (socket : TcpSocket) (length : Nat) (result : Reply) : Prop :=
  ∃ reply, recvReply? socket result = some reply ∧ reply.Honours length ∧ reply.removes <+: socket.rx.contents

theorem receives_complete {socket : TcpSocket} {length size : Nat} (hsize : size ≤ socket.rx.contents.length)
    (hle : 0 < length → size ≤ length) (h : receiveComplete length size (afterRead socket size).mayRecv = true) :
    Receives socket length (.received (socket.rx.contents.take size)) := by
  refine ⟨_, rfl, fun hpos => ?_, List.take_prefix _ _⟩
  rw [List.length_take_of_le hsize]
  simp only [receiveComplete, if_neg hpos.ne', Bool.or_eq_true, Bool.and_eq_true, beq_iff_eq] at h
  exact ⟨hle hpos, h.imp_right And.left⟩

theorem receives_partly {socket : TcpSocket} {length size reference : Nat} (hsize : size ≤ socket.rx.contents.length)
    (hle : 0 < length → size ≤ length) (h : receiveComplete length size (afterRead socket size).mayRecv = false) :
    Receives socket length (if socket.rx.contents.take size = [] then .select .recv reference
      else .selectReceived reference (socket.rx.contents.take size)) := by
  split
  · exact ⟨_, rfl, trivial, List.nil_prefix⟩
  · refine ⟨_, rfl, fun hpos => ?_, List.take_prefix _ _⟩
    rw [List.length_take_of_le hsize]
    simp only [receiveComplete, if_neg hpos.ne', Bool.or_eq_false_iff, beq_eq_false_iff_ne] at h
    exact (hle hpos).lt_of_ne h.1

theorem tcpRecv_spec (hs : s.Sound) (hin : s.history.inHand = []) (identity : SocketIdentity)
    (length pid reference : Nat) (now : Instant) :
    wp (tcpRecv identity length pid reference now)
      (fun envelope s' => Driven Gentle s [] envelope s' ∧ ∃ record socket, s.tcpRecord? identity = .ok record ∧
        s.sockets[record.handle]? = some (.tcp socket) ∧ Receives socket length envelope.result)
      (fun _ s' => Fails s s') s := by
  unfold tcpRecv
  simp only [wp_bind, wp_ensureRunning, wp_validate, wp_tcpRecord, wp_require]
  refine ⟨fun _ => ⟨fun entry hvalid => ⟨fun record hok => ⟨fun hempty => ?_, fun _ => .refl s⟩,
    fun _ _ => .refl s⟩, fun _ _ => .refl s⟩, fun _ => .refl s⟩
  refine wp_mono (ensureConnected_spec hs hok) ?_ fun _ _ h => .of_eq h
  rintro _ t ⟨rfl, hphase⟩
  have hwait := hs.mayWait hok (by rw [hphase]; rfl)
  obtain ⟨socket, hsocket, -⟩ := hs.typed.tcp _ record (tcpRecord?_eq_ok hok).1
  simp only [wp_get, wp_getTcp]
  refine ⟨fun _ => ⟨socket, hsocket, ?_⟩, fun _ => .refl t⟩
  generalize hsize : min (if length = 0 then t.limits.bytesCopied else min length t.limits.bytesCopied)
    socket.rx.contents.length = size
  have hsize' : size ≤ socket.rx.contents.length := by omega
  have hle : 0 < length → size ≤ length := fun hpos => by
    rw [if_neg hpos.ne'] at hsize
    omega
  rw [← mayRecv_afterRead]
  -- The read, once the waiter capacity has been checked or need not be.
  have hread : (receiveComplete length size (afterRead socket size).mayRecv = false →
      (afterRead socket size).mayRecv = true → t.Armable identity .tcp .read) → wp (do
      let received ← if 0 < size then orFail (socket.recvSlice size) .closed else pure ([], socket)
      modify fun s => s.putSocket record.handle (.tcp received.2)
      let result ←
        if receiveComplete length received.1.length received.2.mayRecv then pure (.received received.1)
        else if received.2.mayRecv = false then fail .endOfStream
        else do
          armTcpWaiter identity record.handle .read .recv pid reference received.2.canRecv
          pure (if received.1 = [] then .select .recv reference
            else .selectReceived reference received.1)
      let effects ← drive now received.1.length
      finishCall result effects [])
      (fun envelope s' => Driven Gentle t [] envelope s' ∧ ∃ record socket, t.tcpRecord? identity = .ok record ∧
        t.sockets[record.handle]? = some (.tcp socket) ∧ Receives socket length envelope.result)
      (fun _ s' => Fails t s') t := by
    intro harmable
    have hput := Prepares.put hs hsocket (afterRead_evolves socket size) (afterRead_sameConnection socket size)
    refine wp_read ?_ (.refl t)
    simp only [wp_bind, wp_modify, wp_ite, wp_pure, wp_fail, wp_finishCall, List.length_take_of_le hsize']
    refine ⟨fun hcomplete => ?_, fun hshort => ⟨fun hended => ?_, fun hopen => ?_⟩⟩
    · exact wp_mono (hput.drives hs hin (fun _ _ h => h) now _ _) (fun _ _ h => ⟨h, record, socket, hok, hsocket,
        receives_complete hsize' hle hcomplete⟩) fun _ _ h => h
    · -- The stream has ended, and nothing was read.
      rw [hended, Bool.not_eq_true] at hshort
      rw [receiveComplete_closed hshort, afterRead_zero, putSocket_self hsocket]
      exact .refl t
    · rw [Bool.not_eq_true] at hshort
      rw [Bool.not_eq_false] at hopen
      have harmable' : (t.putSocket record.handle (.tcp (afterRead socket size))).Armable identity .tcp .read :=
        (harmable hshort hopen).sameSlots ⟨rfl, rfl, rfl⟩
      refine wp_mono (armTcpWaiter_checked (hput.sound hs) ⟨hwait.active, hwait.queue⟩ rfl
        ⟨afterRead socket size, by simp [putSocket]⟩ harmable') (fun _ u hu => ?_) fun _ _ h => h.elim
      exact wp_mono ((hput.andThen hu).drives hs hin (fun _ _ h => h) now _ _) (fun _ _ h => ⟨h, record, socket, hok,
        hsocket, receives_partly hsize' hle hshort⟩) fun _ _ h => h
  simp only [wp_bind, wp_ite, wp_ensureWaiterCapacity] at hread ⊢
  exact ⟨fun _ => ⟨fun hroom => hread fun _ _ => ⟨entry, hvalid, hempty, hroom⟩, fun _ => .refl t⟩,
    fun hcomplete => hread fun hshort hopen => (hcomplete ⟨hshort, hopen⟩).elim⟩

/-! ## Shutting down -/

/-- Taking a waiter in hand changes nothing the rest of the call depends on. -/
theorem abortWaiter_spec (direction : Direction)
    (hvalid : s.socketTable.roster identity.id = some (identity.generation, .tcp, .open)) :
    wp (abortWaiter identity direction)
      (fun aborts s' => Prepares Gentle s aborts s' ∧ s'.sockets = s.sockets ∧ SameRecords s s')
      (fun _ _ => False) s := by
  unfold abortWaiter
  simp only [wp_bind, wp_get, wp_ofExcept]
  refine ⟨?_, fun e he => SocketTable.takeWaiter_ok hvalid he⟩
  rintro ⟨taken, table⟩ htaken
  cases taken with
  | none => exact ⟨.refl s, rfl, .refl s⟩
  | some waiter =>
      simp only [wp_bind, wp_set, wp_pure]
      refine ⟨⟨.single (.abort htaken) trivial, rfl, rfl⟩, rfl, rfl, rfl, rfl, ?_⟩
      exact (inert_abort htaken _ _).roster

/-- The optional aborts of a shutdown. -/
theorem abortIf_spec (wanted : Bool) (direction : Direction)
    (hvalid : s.socketTable.roster identity.id = some (identity.generation, .tcp, .open)) :
    wp (abortIf wanted identity direction)
      (fun aborts s' => Prepares Gentle s aborts s' ∧ s'.sockets = s.sockets ∧ SameRecords s s')
      (fun _ _ => False) s := by
  rw [abortIf, wp_ite]
  exact ⟨fun _ => abortWaiter_spec direction hvalid, fun _ => ⟨.refl s, rfl, .refl s⟩⟩

theorem close_evolves (socket : TcpSocket) : (NativeSocket.tcp socket).Evolves (.tcp socket.close.1) := by
  unfold TcpSocket.close
  split <;> refine ⟨rfl, rfl, fun hclosed => ?_⟩ <;> simp_all

theorem closeWriteHalf_spec (hs : s.Sound) {id : Nat} (how : ShutdownHow)
    (hrecord : s.tcpRecords[id]? = some record) (hphase : record.phase = .connected) :
    wp (closeWriteHalf record how)
      (fun _ s' => Prepares Gentle s [] s' ∧ SameRecords s s') (fun _ _ => False) s := by
  rw [closeWriteHalf, wp_ite]
  refine ⟨fun _ => ?_, fun _ => ⟨.refl s, .refl s⟩⟩
  obtain ⟨socket, hsocket, -⟩ := hs.typed.tcp id record hrecord
  refine wp_mono (updateTcp_spec hs ⟨socket, hsocket⟩ close_evolves fun socket =>
    .shuts hrecord rfl hphase (.refl socket.close.1)) ?_ fun _ _ h => h
  exact fun _ t ht => ⟨ht.1, ht.2.1⟩

theorem tcpShutdown_spec (hs : s.Sound) (hin : s.history.inHand = []) (identity : SocketIdentity)
    (how : ShutdownHow) (now : Instant) :
    wp (tcpShutdown identity how now) (fun envelope s' => Driven Gentle s [] envelope s')
      (fun _ s' => Fails s s') s := by
  unfold tcpShutdown
  simp only [wp_bind, wp_ensureRunning, wp_validate, wp_tcpRecord]
  refine ⟨fun _ => ⟨fun entry hentry => ⟨fun record hok => ?_, fun _ _ => .refl s⟩,
    fun _ _ => .refl s⟩, fun _ => .refl s⟩
  refine wp_mono (ensureConnected_spec hs hok) ?_ fun _ _ h => .of_eq h
  rintro _ t ⟨rfl, hphase⟩
  have hvalid := SocketTable.validate_iff_roster.1 ⟨entry, hentry⟩
  refine wp_mono (abortIf_spec _ .read hvalid) ?_ fun _ _ h => h.elim
  rintro readAborts u ⟨hu, husockets, hurecords⟩
  refine wp_mono (abortIf_spec _ .write (by rw [hurecords.roster]; exact hvalid)) ?_ fun _ _ h => h.elim
  rintro writeAborts v ⟨hv, hvsockets, hvrecords⟩
  have haborted := hu.trans hv
  have hsound := haborted.sound hs
  have hrecord : v.tcpRecords[identity.id]? = some record := by
    rw [hvrecords.tcpRecords, hurecords.tcpRecords]
    exact (tcpRecord?_eq_ok hok).1
  refine wp_mono (closeWriteHalf_spec hsound how hrecord hphase) ?_ fun _ _ h => h.elim
  rintro _ w ⟨hw, hwrecords⟩
  have hok' : w.tcpRecord? identity = .ok record :=
    (((hurecords.trans hvrecords).trans hwrecords).record identity).trans hok
  rw [wp_updateTcpRecord, hok']
  refine ⟨fun other hother => ?_, fun e he => by cases he⟩
  obtain rfl := Except.ok.inj hother
  have hamends : Amends record { record with
      readShutdown := record.readShutdown || how.includes .read
      writeShutdown := record.writeShutdown || how.includes .write } :=
    ⟨rfl, rfl, rfl, rfl, rfl, rfl, rfl, rfl, id, id, id⟩
  exact ((haborted.andThen hw).andThen (.amend hok' hamends rfl (.same rfl))).drives hs hin (fun _ _ h => h) now 0 .ok

/-! ## Closing -/

theorem removeSockets_spec {handles : List Nat} (hnodup : handles.Nodup)
    (hmem : ∀ handle ∈ handles, handle ∈ s.sockets) {E : ε → NativeStack → Prop} :
    wp (each removeSocket handles : Op ε Unit)
      (fun _ s' => s' = { s with sockets := eraseAll s.sockets handles }) E s := by
  induction handles generalizing s with
  | nil => rfl
  | cons handle rest ih =>
      obtain ⟨hnotin, hnodup⟩ := List.nodup_cons.1 hnodup
      rw [each, wp_bind, wp_removeSocket]
      refine ⟨hmem handle (by simp), wp_mono (ih hnodup fun other hother => ?_) ?_ fun _ _ h => h⟩
      · have hne : handle ≠ other := fun heq => hnotin (heq ▸ hother)
        simp [hne, hmem other (by simp [hother])]
      · rintro _ t rfl
        rfl

/-- The entry of `identity` has left the table, and its waiters are in hand. -/
def EntryClosed (s : NativeStack) (identity : SocketIdentity) (aborts : List PendingNotification)
    (s' : NativeStack) : Prop :=
  ∃ (waiters : List (Direction × Waiter)) (table : SocketTable),
    s.socketTable.close identity = .ok (waiters, table) ∧ aborts = notifications identity waiters ∧
      s' = { s with
        socketTable := table
        history := { s.history with inHand := s.history.inHand ++ aborts } }.logAborts aborts

theorem closeEntry_spec (identity : SocketIdentity) :
    wp (closeEntry identity) (fun aborts s' => EntryClosed s identity aborts s')
      (fun _ s' => s' = s ∧ s.socketTable.lookup identity = none) s := by
  unfold closeEntry
  simp only [wp_bind, wp_get, wp_ofExcept, wp_set, wp_pure]
  refine ⟨fun closed hclose => ⟨closed.1, closed.2, hclose, rfl, rfl⟩, fun e he => ⟨trivial, ?_⟩⟩
  unfold SocketTable.close at he
  split at he
  · assumption
  · cases he

namespace EntryClosed

variable {aborts : List PendingNotification} {s' : NativeStack}

theorem tcpListeners (h : EntryClosed s identity aborts s') : s'.tcpListeners = s.tcpListeners := by
  obtain ⟨waiters, table, -, -, rfl⟩ := h
  rfl

theorem tcpRecords (h : EntryClosed s identity aborts s') : s'.tcpRecords = s.tcpRecords := by
  obtain ⟨waiters, table, -, -, rfl⟩ := h
  rfl

theorem udpRecords (h : EntryClosed s identity aborts s') : s'.udpRecords = s.udpRecords := by
  obtain ⟨waiters, table, -, -, rfl⟩ := h
  rfl

theorem closingTcp (h : EntryClosed s identity aborts s') : s'.closingTcp = s.closingTcp := by
  obtain ⟨waiters, table, -, -, rfl⟩ := h
  rfl

/-- Closing an entry is a step that takes its waiters in hand. -/
theorem prepares (h : EntryClosed s identity aborts s') (hok : ok s (.closes identity)) :
    Prepares ok s aborts s' := by
  obtain ⟨waiters, table, hclose, rfl, rfl⟩ := h
  exact ⟨.single (.close hclose) hok, rfl, rfl⟩

theorem gone (h : EntryClosed s identity aborts s') :
    s'.socketTable.entries[identity.id]? = none := by
  obtain ⟨waiters, table, hclose, -, rfl⟩ := h
  obtain ⟨entry, -, -, rfl⟩ := SocketTable.close_ok hclose
  simp [logAborts]

theorem lookup (h : EntryClosed s identity aborts s') : s'.socketTable.lookup identity = none := by
  unfold SocketTable.lookup
  rw [h.gone]

theorem len (h : EntryClosed s identity aborts s') :
    s'.socketTable.len + 1 = s.socketTable.len := by
  obtain ⟨waiters, table, hclose, -, rfl⟩ := h
  obtain ⟨entry, hlookup, -, rfl⟩ := SocketTable.close_ok hclose
  have hsize := size_eq_size_erase (mem_of_getElem? (SocketTable.lookup_eq_some.1 hlookup))
  simpa [logAborts, SocketTable.len] using hsize.symm

/-- Closing an entry does not look at the listeners. -/
theorem withListeners {listeners : ExtTreeMap Nat ListenerRecord}
    (h : EntryClosed { s with tcpListeners := listeners } identity aborts s') :
    ∃ t, EntryClosed s identity aborts t ∧ s' = { t with tcpListeners := listeners } := by
  obtain ⟨waiters, table, hclose, haborts, rfl⟩ := h
  exact ⟨_, ⟨waiters, table, hclose, haborts, rfl⟩, rfl⟩

end EntryClosed

/-- A record whose identity has no entry has none under its id. -/
theorem Sound.entries_none (hs : s.Sound) (hrecord : s.tcpRecords[record.identity.id]? = some record)
    (hgone : s.socketTable.lookup record.identity = none) :
    s.socketTable.entries[record.identity.id]? = none := by
  cases hentry : s.socketTable.entries[record.identity.id]? with
  | none => rfl
  | some found =>
      obtain ⟨generation, entry⟩ := found
      have hroster : s.socketTable.roster record.identity.id =
          some (generation, entry.kind, entry.lifecycle) := by
        simp [SocketTable.roster, hentry]
      have hapart := hs.rostered.tcp_apart _ (mem_of_getElem? hrecord)
      have hholds := (hs.rostered.entry _ _ _ _ hroster).2
      cases hkind : entry.kind <;> rw [hkind] at hholds
      · rcases hholds with ⟨other, hother, hidentity⟩ | ⟨listener, hlistener, -⟩
        · rw [hrecord] at hother
          obtain rfl := Option.some.inj hother
          have hgeneration : record.identity.generation = generation := by rw [hidentity]
          rw [← hgeneration] at hentry
          rw [SocketTable.lookup_eq_some.2 hentry] at hgone
          cases hgone
        · exact (hapart.1 (mem_of_getElem? hlistener)).elim
      · obtain ⟨other, hother, -⟩ := hholds
        exact (hapart.2 (mem_of_getElem? hother)).elim
      · exact hholds.elim

/-- The connection `child` waits in the accept queue of the listener `identity`. -/
def Awaits (s : NativeStack) (identity child : SocketIdentity) : Prop :=
  ∃ listener, s.listener? identity = some listener ∧ child ∈ listener.accepted

/-- The closes and drops that closing `identity` asks for are `ok`: its own, and for a listener those of
the connections in its accept queue.  A socket that is being closed by then was no longer open. -/
structure AllowsClose (ok : NativeStack → StepLabel → Prop) (s : NativeStack) (identity : SocketIdentity) :
    Prop where
  self : ok s (.closes identity)
  child : ∀ (t : NativeStack) (child : SocketIdentity), s.Awaits identity child →
    child ∉ queued t.tcpListeners → ok t (.closes child)
  drops : ∀ (t : NativeStack) (other : SocketIdentity), other = identity ∨ s.Awaits identity other →
    (other.id ∈ t.closingTcp → s.socketTable.roster other.id = none) → ok t (.drops other)

/-- A record whose entry is gone is dropped with its native socket. -/
theorem dropChild_spec (hs : s.Sound) {child : SocketIdentity} (hgone : s.socketTable.lookup child = none)
    (hdrops : ok s (.drops child)) {E : ε → NativeStack → Prop} :
    wp (dropChild child : Op ε Unit)
      (fun _ s' => Prepares ok s [] s' ∧ s'.tcpListeners = s.tcpListeners ∧ s'.closingTcp = s.closingTcp)
      E s := by
  unfold dropChild
  rw [wp_bind, wp_get]
  split
  · exact ⟨.refl s, rfl, rfl⟩
  · rename_i record hok
    obtain ⟨hrecord, rfl⟩ := tcpRecord?_eq_ok hok
    obtain ⟨socket, hsocket, -⟩ := hs.typed.tcp _ record hrecord
    rw [wp_bind, wp_removeSocket]
    refine ⟨mem_of_getElem? hsocket, ?_⟩
    rw [wp_modify]
    exact ⟨.step (.dropRecord hrecord (hs.entries_none hrecord hgone)) hdrops rfl rfl, rfl, rfl⟩

/-- The connections of a closed listener: none of them waits in another queue. -/
theorem closeChildren_spec (hs : s.Sound) {children : List SocketIdentity}
    (hapart : ∀ child ∈ children, child ∉ queued s.tcpListeners)
    (hcloses : ∀ t : NativeStack, ∀ child ∈ children, child ∉ queued t.tcpListeners → ok t (.closes child))
    (hdrops : ∀ t : NativeStack, t.closingTcp = s.closingTcp → ∀ child ∈ children, ok t (.drops child))
    {E : ε → NativeStack → Prop} :
    wp (closeChildren children : Op ε (List PendingNotification))
      (fun aborts s' => Prepares ok s aborts s') E s := by
  induction children generalizing s with
  | nil => exact .refl s
  | cons child rest ih =>
      unfold closeChildren
      simp only [wp_bind, wp_attempt, wp_pure]
      -- The child and then the rest, from the state its closing leaves.
      have hrest : ∀ (t : NativeStack) (aborts : List PendingNotification), Prepares ok s aborts t →
          t.tcpListeners = s.tcpListeners → t.closingTcp = s.closingTcp →
          t.socketTable.lookup child = none →
          wp (dropChild child : Op ε Unit) (fun _ u => wp (closeChildren rest : Op ε _)
            (fun others v => Prepares ok s (aborts ++ others) v) E u) E t := by
        intro t aborts ht hlisteners hclosing hgone
        have hchild : ok t (.drops child) := hdrops t hclosing child (by simp)
        refine wp_mono (dropChild_spec (ht.sound hs) hgone hchild) ?_ fun _ _ h => h
        rintro _ u ⟨hu, hlisteners', hclosing'⟩
        have hprepared := ht.andThen hu
        have hsame : u.closingTcp = s.closingTcp := hclosing'.trans hclosing
        refine wp_mono (ih (hprepared.sound hs) (fun other hother => ?_)
          (fun v other hother => hcloses v other (by simp [hother]))
          fun v hv other hother => hdrops v (hv.trans hsame) other (by simp [hother])) ?_ fun _ _ h => h
        · rw [hlisteners', hlisteners]
          exact hapart other (by simp [hother])
        · exact fun _ _ hv => hprepared.trans hv
      refine wp_mono (closeEntry_spec child) (fun aborts t ht => ?_) ?_
      · have hchild : ok s (.closes child) := hcloses s child (by simp) (hapart child (by simp))
        exact hrest t aborts (ht.prepares hchild) ht.tcpListeners ht.closingTcp ht.lookup
      · rintro e t ⟨rfl, hgone⟩
        exact hrest t [] (.refl t) rfl rfl hgone

theorem tcpListenerClose_spec (hs : s.Sound) (hin : s.history.inHand = [])
    (hok : ∀ v label, Gentle v label → ok v label) {entry : SocketEntry} (hclose : AllowsClose ok s identity)
    (hlookup : s.socketTable.lookup identity = some entry) (hlistener : (s.listener? identity).isSome = true)
    (now : Instant) :
    wp (tcpListenerClose identity now) (fun envelope s' => Driven ok s [] envelope s')
      (fun _ s' => Fails s s') s := by
  obtain ⟨listener, hfound⟩ := Option.isSome_iff_exists.1 hlistener
  obtain ⟨hmember, rfl⟩ := listener?_eq_some.1 hfound
  unfold tcpListenerClose
  simp only [wp_bind, wp_get, wp_set, wp_orFail, wp_modify, wp_finishCall]
  refine ⟨fun other hother => ?_, fun hnone => by rw [hfound] at hnone; cases hnone⟩
  obtain rfl := Option.some.inj (hfound.symm.trans hother)
  refine wp_mono (closeEntry_spec listener.identity) (fun aborts t ht => ?_) ?_
  · obtain ⟨u, hu, rfl⟩ := ht.withListeners
    have hclosed := hu.prepares hclose.self
    have hmember' : u.tcpListeners[listener.identity.id]? = some listener := by
      rw [hu.tcpListeners]
      exact hmember
    have hdrop : Step u .silent (u.dropListener listener) := .dropListener hmember' hu.gone
    have hpool : ∀ handle ∈ listener.pool.toList, handle ∈ u.sockets := fun handle hhandle =>
      (hclosed.sound hs).pool_mem hmember' (ExtTreeSet.mem_toList.1 hhandle)
    have hnodup : listener.pool.toList.Nodup :=
      ExtTreeSet.distinct_toList.imp fun h => by simpa using h
    refine wp_mono (removeSockets_spec hnodup ?_) ?_ fun _ _ h => h
    · exact hpool
    rintro _ v rfl
    have hdropped := hclosed.andThen (.step hdrop (hok _ _ trivial) rfl rfl)
    have hstate : ({ u with
        tcpListeners := s.tcpListeners.erase listener.identity.id
        sockets := eraseAll u.sockets listener.pool.toList } : NativeStack) = u.dropListener listener := by
      rw [NativeStack.dropListener, hu.tcpListeners]
    dsimp only
    rw [hstate]
    have hapart : ∀ child ∈ listener.accepted, child ∉ queued (u.dropListener listener).tcpListeners := by
      intro child hchild hqueued
      have hnodup := (hclosed.sound hs).queues.nodup
      rw [queued_eq hmember', Multiset.nodup_add, Multiset.disjoint_left] at hnodup
      exact hnodup.2.2 (Multiset.mem_coe.2 hchild) hqueued
    have hcloses : ∀ v : NativeStack, ∀ child ∈ listener.accepted, child ∉ queued v.tcpListeners →
        ok v (.closes child) := fun v child hchild => hclose.child v child ⟨listener, hfound, hchild⟩
    have hdrops : ∀ v : NativeStack, v.closingTcp = (u.dropListener listener).closingTcp →
        ∀ child ∈ listener.accepted, ok v (.drops child) := by
      intro v hv child hchild
      refine hclose.drops v child (.inr ⟨listener, hfound, hchild⟩) fun hmem => ?_
      rw [hv] at hmem
      exact hs.rostered.closing _ (hu.closingTcp ▸ hmem)
    refine wp_mono (closeChildren_spec (hdropped.sound hs) hapart hcloses hdrops) (fun childAborts w hw => ?_)
      fun _ _ h => h
    have hall := hdropped.trans hw
    refine Prepares.drives (hall.andThen ?_) hs hin hok now 0 .ok
    refine Prepares.mono hok ?_
    exact Maintains.prepares (.tick rfl le_rfl (.of_polls rfl rfl)) (hall.sound hs)
  · rintro e t ⟨-, hnone⟩
    rw [hnone] at hlookup
    cases hlookup

/-- The number of sockets that are open or being closed is within its limit. -/
def LogicalCap (s : NativeStack) : Prop := s.socketTable.len + s.closingTcp.size ≤ s.limits.sockets

/-- The close sweep starts over, and not at once. -/
theorem Maintains.restartCleanup (s : NativeStack) :
    Maintains s { ({ s with closingSweepCursor := none } : NativeStack).requestClosingCleanup with
      maintenanceCleanupTurn := false } := by
  have hcursor : Maintains s { s with closingSweepCursor := none } := .tick rfl le_rfl (.of_polls rfl rfl)
  refine (hcursor.trans (.requestClosingCleanup _)).trans ?_
  exact .tick rfl le_rfl (.of_polls rfl rfl)

theorem startGracefulClose_spec (hs : s.Sound) (hok : s.tcpRecord? record.identity = .ok record)
    (hphase : record.phase = .connected) (hclosed : s.socketTable.entries[record.identity.id]? = none)
    (hnew : record.identity.id ∉ s.closingTcp)
    (hlogical : s.socketTable.len + s.closingTcp.size < s.limits.sockets) (now : Instant) :
    wp (startGracefulClose record.identity record.handle now) (fun _ s' => Prepares Gentle s [] s')
      (fun _ _ => False) s := by
  obtain ⟨hrecord, -⟩ := tcpRecord?_eq_ok hok
  obtain ⟨socket, hsocket, -⟩ := hs.typed.tcp _ record hrecord
  have hidle : record.phase.idle = false := by rw [hphase]; rfl
  unfold startGracefulClose
  rw [wp_bind, wp_updateTcp]
  refine ⟨socket, hsocket, ?_⟩
  have hkept := undisturbed_wakeAll (s.putSocket record.handle (.tcp socket.close.1)) socket.close.2
  have hevolves := close_evolves socket
  have hclose : Prepares Gentle s [] _ := (Maintains.put hsocket (hs.reshapes_closed hsocket
    ⟨hevolves.1, hevolves.2.1⟩ hevolves.2.2) (.shuts hrecord rfl hphase (.refl socket.close.1))
    socket.close.2).prepares hs
  generalize (s.putSocket record.handle (.tcp socket.close.1)).wakeAll socket.close.2 = t at *
  have hok' : t.tcpRecord? record.identity = .ok record := by
    unfold tcpRecord? listener? at hok ⊢
    rw [hkept.tcpRecords, hkept.tcpListeners]
    exact hok
  simp only [wp_bind, wp_updateTcpRecord, hok', wp_modify]
  refine ⟨fun other hother => ?_, fun e he => by cases he⟩
  obtain rfl := Except.ok.inj hother
  have hstart : Step t .silent { t.putRecord { record with
        closeDeadline := some (now + 1000 * closeTimeoutMillis) } with
      closingTcp := t.closingTcp.insert record.identity.id
      closingDeadlines := t.closingDeadlines.insert
        (now + 1000 * closeTimeoutMillis, record.identity.id) } := by
    refine .startClose _ (tcpRecord?_eq_ok hok').1 hidle ?_ ?_ ?_
    · rw [← SocketTable.roster_eq_none, hkept.table.roster]
      exact SocketTable.roster_eq_none.2 hclosed
    · rw [hkept.closingTcp]
      exact hnew
    · rw [hkept.len, hkept.closingTcp, hkept.limits]
      exact hlogical
  have hstarted := hclose.andThen (.step hstart trivial rfl rfl)
  exact hstarted.andThen ((Maintains.restartCleanup _).prepares (hstarted.sound hs))

/-- A drive keeps what removing a record looks at. -/
theorem SameBinding.removed {record changed : TcpRecord} (h : SameBinding record changed) :
    (s.dropRecord record).unclose record = (s.dropRecord changed).unclose changed := by
  unfold NativeStack.unclose NativeStack.dropRecord removeTcpRecord
  rw [h.identity, h.handle, h.key, h.deadline]

/-- After a drive the record of a socket that is neither open nor being closed can be removed. -/
theorem DriveKeeps.removes {t : NativeStack} (hkeeps : DriveKeeps s t) (hs : s.Sound) (ht : t.Sound)
    (hok : ∀ v label, Gentle v label → ok v label) (hrecord : s.tcpRecords[record.identity.id]? = some record)
    (hclosing : record.identity.id ∉ s.closingTcp)
    (hclosed : s.socketTable.entries[record.identity.id]? = none) (hdrops : ok t (.drops record.identity)) :
    record.handle ∈ t.sockets ∧ Prepares ok t [] ((t.dropRecord record).unclose record) := by
  obtain ⟨changed, hchanged, hsame⟩ := hkeeps.record _ record hclosing hrecord
  rw [← hsame.identity] at hchanged
  obtain ⟨socket, hsocket, -⟩ := ht.typed.tcp _ changed hchanged
  have hbelow : record.identity.id < s.nextSocketId := by
    by_contra hle
    exact (hs.rostered.fresh _ (Nat.le_of_not_lt hle)).1 (mem_of_getElem? hrecord)
  have hclosed' : t.socketTable.entries[changed.identity.id]? = none := by
    rw [hsame.identity, ← SocketTable.roster_eq_none, hkeeps.roster hbelow]
    exact SocketTable.roster_eq_none.2 hclosed
  have hdrop : Step t (.drops record.identity) (t.dropRecord changed) := by
    rw [← hsame.identity]
    exact .dropRecord hchanged hclosed'
  have hunclose : Step (t.dropRecord changed) .silent ((t.dropRecord changed).unclose changed) := by
    refine .unclose changed ?_
    simp [dropRecord, removeTcpRecord]
  refine ⟨hsame.handle ▸ mem_of_getElem? hsocket, ?_⟩
  rw [hsame.removed]
  exact (Prepares.step hdrop hdrops rfl rfl).andThen (.step hunclose (hok _ _ trivial) rfl rfl)

/-- A close that has nothing left to do after its drive that would ask for a continuation: a listener
or a connection, or any socket of a stack without listeners. -/
def QuietClose (s : NativeStack) (identity : SocketIdentity) : Prop :=
  s.tcpListeners.isEmpty = true ∨ (s.listener? identity).isSome = true ∨
    ∃ record, s.tcpRecord? identity = .ok record ∧ record.phase = .connected

/-- Removing a record after a drive leaves announced what the drive announced, if there is no listener
to scan for. -/
theorem Announces.removed {effects : Effects} (h : Announces s effects) (record : TcpRecord)
    (hlisteners : s.tcpListeners.isEmpty = true) :
    Announces ((s.dropRecord record).unclose record).requestListenerScan effects := by
  have hscan : ((s.dropRecord record).unclose record).requestListenerScan =
      (s.dropRecord record).unclose record := by
    unfold NativeStack.requestListenerScan
    exact if_pos hlisteners
  rw [hscan]
  refine ⟨h.work, fun hmore deadline hdeadline => ?_⟩
  have hsub : ∀ entry, entry ∈ ((s.dropRecord record).unclose record).closingDeadlines →
      entry ∈ s.closingDeadlines := by
    intro entry hentry
    unfold NativeStack.unclose NativeStack.dropRecord removeTcpRecord at hentry
    cases hrecord : record.closeDeadline with
    | none => simpa [hrecord] using hentry
    | some due =>
        simp only [hrecord, Option.elim_some, ExtTreeSet.mem_erase] at hentry
        exact hentry.2
  obtain ⟨earlier, hearlier, hle⟩ := nextCloseDeadline_le hsub hdeadline
  obtain ⟨pollAt, hpollAt, hbefore⟩ := h.deadline hmore earlier hearlier
  exact ⟨pollAt, hpollAt, hbefore.trans (totalMillis_le hle)⟩

/-- The abrupt close of a socket that has no connection: its entry is gone, its native socket is
aborted, and after the drive its record goes too. -/
theorem abruptClose_spec (hs : s.Sound) (hin : s.history.inHand = [])
    (hok : ∀ v label, Gentle v label → ok v label) (hrecord : s.tcpRecords[record.identity.id]? = some record)
    (hclosing : record.identity.id ∉ s.closingTcp) {aborts : List PendingNotification} {t : NativeStack}
    (hentry : EntryClosed s record.identity aborts t) (hclose : AllowsClose ok s record.identity)
    (now : Instant) :
    wp (do
        updateTcp record.handle TcpSocket.abort
        let effects ← drive now 0
        removeTcpSocket record
        finishCall .ok effects aborts : Op SocketError Envelope)
      (fun envelope s' => Delivers ok s [] envelope s' ∧
        (s.tcpListeners.isEmpty = true → EnvelopeAnnounces s' envelope))
      (fun _ s' => Fails s s') t := by
  have hclosed := hentry.prepares hclose.self
  have ht := hclosed.sound hs
  have hrecord' : t.tcpRecords[record.identity.id]? = some record := by rw [hentry.tcpRecords, hrecord]
  obtain ⟨socket, hsocket, -⟩ := ht.typed.tcp _ record hrecord'
  simp only [wp_bind, wp_updateTcp]
  refine ⟨socket, hsocket, ?_⟩
  have hkept := undisturbed_wakeAll (t.putSocket record.handle (.tcp socket.abort.1)) socket.abort.2
  have habort := Maintains.put hsocket (ht.reshapes_abort hsocket)
    (.aborts hrecord' rfl hentry.gone rfl) socket.abort.2
  generalize (t.putSocket record.handle (.tcp socket.abort.1)).wakeAll socket.abort.2 = u at *
  have hu : Prepares ok s aborts u := hclosed.andThen ((habort.prepares ht).mono hok)
  refine wp_mono (drive_spec (hu.sound hs) now 0) (fun effects v hv => ?_) fun _ _ h => h
  have hkeeps := hv.path.keeps (hu.sound hs)
  have hsound := hv.path.sound (hu.sound hs)
  have hrecordU : u.tcpRecords[record.identity.id]? = some record := by
    rw [hkept.tcpRecords]
    exact hrecord'
  have hclosingU : record.identity.id ∉ u.closingTcp := by
    rw [hkept.closingTcp]
    exact hentry.closingTcp ▸ hclosing
  have hgoneU : u.socketTable.entries[record.identity.id]? = none := by
    rw [← SocketTable.roster_eq_none, hkept.table.roster]
    exact SocketTable.roster_eq_none.2 hentry.gone
  have hclosingV : record.identity.id ∉ v.closingTcp := fun hmem => hclosingU (hkeeps.closing _ hmem)
  have hdrops : ok v (.drops record.identity) :=
    hclose.drops v _ (.inl rfl) fun hmem => (hclosingV hmem).elim
  obtain ⟨hmem, hremoved⟩ := hkeeps.removes (hu.sound hs) hsound hok hrecordU hclosingU hgoneU hdrops
  rw [removeTcpSocket_state]
  refine ⟨hmem, ?_⟩
  rw [wp_finishCall]
  have hscan := (Maintains.requestListenerScan ((v.dropRecord record).unclose record)).prepares
    (hremoved.sound hsound)
  refine ⟨hu.delivers hs hin hok hv (hremoved.andThen (hscan.mono hok)) .ok, fun hempty => ?_⟩
  refine Announces.finish (hv.announces.removed record ?_) .ok aborts
  rw [ExtTreeMap.isEmpty_iff, ExtTreeMap.eq_empty_iff_forall_not_mem] at hempty ⊢
  intro id hid
  rw [hkeeps.listeners, hkept.tcpListeners] at hid
  exact hempty id (hentry.tcpListeners ▸ hid)

theorem tcpClose_spec (hs : s.Sound) (hin : s.history.inHand = []) (hcap : s.LogicalCap)
    (hok : ∀ v label, Gentle v label → ok v label) (identity : SocketIdentity)
    (hclose : AllowsClose ok s identity) (now : Instant) :
    wp (tcpClose identity now)
      (fun envelope s' => Delivers ok s [] envelope s' ∧
        (s.QuietClose identity → EnvelopeAnnounces s' envelope))
      (fun _ s' => Fails s s') s := by
  unfold tcpClose
  simp only [wp_bind, wp_ensureRunning, wp_validate, wp_get, wp_ite, wp_tcpRecord]
  refine ⟨fun _ => ⟨fun entry hentry => ⟨fun hlistener => ?_, fun hlistener =>
    ⟨fun record hrecordOk => ?_, fun _ _ => .refl s⟩⟩, fun _ _ => .refl s⟩, fun _ => .refl s⟩
  all_goals obtain ⟨hlookup, -, hopen⟩ := SocketTable.validate_eq_ok.1 hentry
  · refine wp_mono (tcpListenerClose_spec hs hin hok hclose hlookup hlistener now) ?_ fun _ _ h => h
    exact fun envelope t ht => ⟨ht.toDelivers, fun _ => ht.announces⟩
  · obtain ⟨hrecord, rfl⟩ := tcpRecord?_eq_ok hrecordOk
    have hroster : s.socketTable.roster record.identity.id =
        some (record.identity.generation, entry.kind, entry.lifecycle) := by
      simp [SocketTable.roster, SocketTable.lookup_eq_some.1 hlookup]
    have hclosing : record.identity.id ∉ s.closingTcp := fun hmem => by
      rw [hs.rostered.closing _ hmem] at hroster
      cases hroster
    refine wp_mono (closeEntry_spec record.identity) (fun aborts t ht => ?_) ?_
    · refine ⟨fun hphase => ?_, fun hphase => ?_⟩
      · have hclosed := ht.prepares hclose.self
        have hrecordOk' : t.tcpRecord? record.identity = .ok record := by
          unfold tcpRecord? listener? at hrecordOk ⊢
          rw [ht.tcpRecords, ht.tcpListeners]
          exact hrecordOk
        have hlogical : t.socketTable.len + t.closingTcp.size < t.limits.sockets := by
          have hlen := ht.len
          rw [ht.closingTcp, hclosed.path.limits]
          unfold LogicalCap at hcap
          omega
        have hnew : record.identity.id ∉ t.closingTcp := ht.closingTcp ▸ hclosing
        refine wp_mono (startGracefulClose_spec (hclosed.sound hs) hrecordOk' hphase ht.gone hnew hlogical
          now) (fun _ u hu => ?_) fun _ _ h => h.elim
        have hstarted := hclosed.andThen (hu.mono hok)
        refine wp_mono (hstarted.drives hs hin hok now 0 .ok) (fun effects v hv => ?_) fun _ _ h => h
        rw [wp_finishCall]
        exact ⟨hv.toDelivers, fun _ => hv.announces⟩
      · have hempty : s.QuietClose record.identity → s.tcpListeners.isEmpty = true := by
          rintro (hempty | hsome | ⟨other, hother, hconnected⟩)
          · exact hempty
          · exact (hlistener hsome).elim
          · rw [hrecordOk] at hother
            obtain rfl := Except.ok.inj hother
            exact (hphase hconnected).elim
        have habrupt := abruptClose_spec hs hin hok hrecord hclosing ht hclose now
        simp only [wp_bind] at habrupt
        refine wp_mono habrupt (fun _ u hu => wp_mono hu (fun effects v hv => wp_mono hv
          (fun _ w hw => wp_mono hw (fun envelope x hx => ⟨hx.1, fun hquiet => hx.2 (hempty hquiet)⟩)
            fun _ _ h => h) fun _ _ h => h) fun _ _ h => h) fun _ _ h => h
    · rintro e t ⟨-, hnone⟩
      rw [hnone] at hlookup
      cases hlookup

end SmolNet.NativeStack
