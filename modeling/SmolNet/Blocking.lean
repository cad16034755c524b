import SmolNet.Basic

/-!
# Blocking send and receive

`SmolNet.send` and `SmolNet.recv` repeat a native call until it is done, waiting for the socket's
readiness in between.  What comes from outside in one round is a turn: the clock, what the native call
returns, and what the wait receives.  The loops keep the native calls they made, so that the bytes
these moved can be compared with what the caller is told.
-/

namespace SmolNet.Socket

inductive Reason where
  | timeout
  | error (error : SocketError)
deriving DecidableEq, Repr

/-- What ends a wait: readiness, an abort, the stack's exit, or the deadline. -/
inductive Wake where
  | ready
  | abort (reason : AbortReason)
  | down
  | timeout
deriving DecidableEq, Repr

def blockingAbortReason : AbortReason → Reason
  | .linkDown | .stackDown => .error .closed
  | .closed => .error .closed

def awaitSelect : Wake → Except Reason Unit
  | .ready => .ok ()
  | .abort reason => .error (blockingAbortReason reason)
  | .down => .error (.error .closed)
  | .timeout => .error .timeout

/-- The deadline is looked at before every attempt but the first; `none` is no deadline. -/
def prepareRetry (deadline : Option Int) (retries : Nat) (now : Int) : Bool :=
  retries == 0 || deadline.all fun deadline => now < deadline

/-! ## Sending -/

/-- What a native send returns; `select` names how many bytes it has accepted. -/
inductive SendReply where
  | ok
  | select (accepted : Nat)
  | error (error : SocketError)
deriving DecidableEq, Repr

/-- The bytes that a native send of `data` has accepted; one that fails accepts none. -/
def SendReply.accepts (data : Packet) : SendReply → Packet
  | .ok => data
  | .select accepted => data.take accepted
  | .error _ => []

structure SendTurn where
  now : Int
  reply : SendReply
  wake : Wake
deriving DecidableEq, Repr

inductive SendResult where
  | ok
  | error (reason : Reason)
  | partly (reason : Reason) (rest : Packet)
deriving DecidableEq, Repr

def sendError (reason : Reason) (remainder : Packet) (sent : Bool) : SendResult :=
  if sent then .partly reason remainder else .error reason

/-- What the call returns, if it has returned, and the native calls it has made with their data. -/
def sendLoop (deadline : Option Int) :
    List SendTurn → Packet → Bool → Nat → Option SendResult × List (Packet × SendReply)
  | [], _, _, _ => (none, [])
  | turn :: turns, data, sent, retries =>
      if prepareRetry deadline retries turn.now then
        match turn.reply with
        | .ok => (some .ok, [(data, .ok)])
        | .select accepted =>
            let remainder := data.drop accepted
            let sent := sent || decide (remainder.length < data.length)
            match awaitSelect turn.wake with
            | .ok () =>
                let later := sendLoop deadline turns remainder sent (retries + 1)
                (later.1, (data, .select accepted) :: later.2)
            | .error reason => (some (sendError reason remainder sent), [(data, .select accepted)])
        | .error error => (some (sendError (.error error) data sent), [(data, .error error)])
      else (some (sendError .timeout data sent), [])

def send (deadline : Option Int) (turns : List SendTurn) (data : Packet) :
    Option SendResult × List (Packet × SendReply) := sendLoop deadline turns data false 0

/-- All that the native side has accepted, in order. -/
def acceptedBytes (calls : List (Packet × SendReply)) : Packet :=
  calls.flatMap fun call => call.2.accepts call.1

/-! ## Receiving -/

/-- What a native receive returns; `ended` tells that nothing can follow the data. -/
inductive RecvReply where
  | received (data : Packet) (ended : Bool)
  | select
  | selectReceived (data : Packet)
  | error (error : SocketError)
deriving DecidableEq, Repr

/-- The bytes that a native receive has removed; one that fails removes none. -/
def RecvReply.removes : RecvReply → Packet
  | .received data _ | .selectReceived data => data
  | .select | .error _ => []

structure RecvTurn where
  now : Int
  reply : RecvReply
  wake : Wake
deriving DecidableEq, Repr

inductive RecvResult where
  | ok (data : Packet)
  | error (reason : Reason)
  | partly (reason : Reason) (data : Packet)
deriving DecidableEq, Repr

/-- The chunks are kept latest first. -/
def chunksToBinary (chunks : List Packet) (final : Packet) : Packet := chunks.reverse.flatten ++ final

def recvError (reason : Reason) (chunks : List Packet) : RecvResult :=
  if chunks = [] then .error reason else .partly reason (chunksToBinary chunks [])

/-- What the call returns, if it has returned, and the native calls it has made with the lengths it
asked for. -/
def recvLoop (deadline : Option Int) :
    List RecvTurn → Nat → List Packet → Nat → Option RecvResult × List (Nat × RecvReply)
  | [], _, _, _ => (none, [])
  | turn :: turns, length, chunks, retries =>
      if prepareRetry deadline retries turn.now then
        match turn.reply with
        | .received data ended => (some (.ok (chunksToBinary chunks data)), [(length, .received data ended)])
        | .selectReceived data =>
            let remaining := if length = 0 then 0 else length - data.length
            match awaitSelect turn.wake with
            | .ok () =>
                let later := recvLoop deadline turns remaining (data :: chunks) (retries + 1)
                (later.1, (length, .selectReceived data) :: later.2)
            | .error reason => (some (recvError reason (data :: chunks)), [(length, .selectReceived data)])
        | .select =>
            match awaitSelect turn.wake with
            | .ok () =>
                let later := recvLoop deadline turns length chunks (retries + 1)
                (later.1, (length, .select) :: later.2)
            | .error reason => (some (recvError reason chunks), [(length, .select)])
        | .error error =>
            (some (if error = .endOfStream then
                if chunks = [] then .error (.error .closed) else .ok (chunksToBinary chunks [])
              else recvError (.error error) chunks), [(length, .error error)])
      else (some (recvError .timeout chunks), [])

def recv (deadline : Option Int) (turns : List RecvTurn) (length : Nat) :
    Option RecvResult × List (Nat × RecvReply) := recvLoop deadline turns length [] 0

/-- All that the native side has removed, in order. -/
def removedBytes (calls : List (Nat × RecvReply)) : Packet := calls.flatMap fun call => call.2.removes

/-- What the native side keeps to when it is asked for `length` bytes, as `NativeStack.tcpRecv_spec` shows: never
more, less only where the stream has ended, and fewer bytes with a select than were asked for. -/
def RecvReply.Honours (length : Nat) : RecvReply → Prop
  | .received data ended => 0 < length → data.length ≤ length ∧ (data.length = length ∨ ended = true)
  | .selectReceived data => 0 < length → data.length < length
  | _ => True

/-- The native call told that the stream has ended. -/
def RecvReply.ends : RecvReply → Bool
  | .received _ ended => ended
  | .error reason => reason == .endOfStream
  | _ => false

/-! ## Every byte is accounted for -/

/-- The accepted bytes and what a result leaves make up the data. -/
def SendResult.Accounts (result : SendResult) (data accepted : Packet) (sent : Bool) : Prop :=
  match result with
  | .ok => accepted = data
  | .partly _ rest => accepted ++ rest = data ∧ (sent = true ∨ accepted ≠ [])
  | .error _ => accepted = [] ∧ sent = false

theorem sendError_accounts (reason : Reason) {data accepted rest : Packet} {sent sent' : Bool}
    (hdata : accepted ++ rest = data) (hsent : sent' = (sent || decide (rest.length < data.length))) :
    (sendError reason rest sent').Accounts data accepted sent := by
  have hlength : accepted.length + rest.length = data.length := by rw [← hdata, List.length_append]
  unfold sendError
  split
  · rename_i htrue
    refine ⟨hdata, ?_⟩
    rw [hsent, Bool.or_eq_true, decide_eq_true_eq] at htrue
    refine htrue.imp_right fun hshort hnil => ?_
    rw [hnil, List.length_nil] at hlength
    omega
  · rename_i hfalse
    rw [hsent, Bool.not_eq_true, Bool.or_eq_false_iff, decide_eq_false_iff_not] at hfalse
    exact ⟨List.length_eq_zero_iff.1 (by omega), hfalse.1⟩

/-- What a select has accepted comes before what later calls accept. -/
theorem SendResult.Accounts.after_select {result : SendResult} {data later : Packet} {accepted : Nat}
    {sent : Bool} (h : result.Accounts (data.drop accepted) later
      (sent || decide ((data.drop accepted).length < data.length))) :
    result.Accounts data (data.take accepted ++ later) sent := by
  have htaken : data.take accepted = [] ∨ (data.drop accepted).length < data.length := by
    rw [List.length_drop, ← List.length_eq_zero_iff, List.length_take]
    omega
  cases result with
  | ok =>
      rw [Accounts] at h
      rw [Accounts, h, List.take_append_drop]
  | partly reason rest =>
      obtain ⟨hrest, hsome⟩ := h
      refine ⟨by rw [List.append_assoc, hrest, List.take_append_drop], ?_⟩
      rw [Bool.or_eq_true, decide_eq_true_eq] at hsome
      rw [ne_eq, List.append_eq_nil_iff]
      by_cases hsent : sent = true
      · exact .inl hsent
      · refine .inr fun hnil => ?_
        rcases hsome with (hsent' | hshort) | hlater
        · exact hsent hsent'
        · have hlength := congrArg List.length hnil.1
          rw [List.length_take, List.length_nil] at hlength
          rw [List.length_drop] at hshort
          omega
        · exact hlater hnil.2
  | error reason =>
      obtain ⟨hnone, hsent⟩ := h
      rw [Bool.or_eq_false_iff, decide_eq_false_iff_not] at hsent
      exact ⟨by rw [hnone, htaken.resolve_right hsent.2, List.append_nil], hsent.1⟩

theorem sendLoop_accounts (deadline : Option Int) (turns : List SendTurn) (data : Packet) (sent : Bool)
    (retries : Nat) (result : SendResult) (h : (sendLoop deadline turns data sent retries).1 = some result) :
    result.Accounts data (acceptedBytes (sendLoop deadline turns data sent retries).2) sent := by
  induction turns generalizing data sent retries with
  | nil => cases h
  | cons turn turns ih =>
      unfold sendLoop at h ⊢
      split
      · rename_i hgo
        rw [if_pos hgo] at h
        cases hreply : turn.reply with
        | ok =>
            rw [hreply] at h
            obtain rfl := Option.some.inj h
            simp [acceptedBytes, SendReply.accepts, SendResult.Accounts]
        | select accepted =>
            rw [hreply] at h
            dsimp only at h ⊢
            cases hwake : awaitSelect turn.wake with
            | ok _ =>
                rw [hwake] at h
                exact (ih _ _ _ h).after_select
            | error reason =>
                rw [hwake] at h
                obtain rfl := Option.some.inj h
                refine sendError_accounts reason ?_ rfl
                simp [acceptedBytes, SendReply.accepts]
        | error error =>
            rw [hreply] at h
            obtain rfl := Option.some.inj h
            exact sendError_accounts _ rfl (by simp)
      · rename_i hexpired
        rw [if_neg hexpired] at h
        obtain rfl := Option.some.inj h
        exact sendError_accounts _ rfl (by simp)

/-- What a result gives the caller is what was removed, after the chunks from before. -/
def RecvResult.Accounts (result : RecvResult) (chunks : List Packet) (removed : Packet) : Prop :=
  match result with
  | .ok data | .partly _ data => data = chunksToBinary chunks removed
  | .error _ => chunks = [] ∧ removed = []

theorem recvError_accounts (reason : Reason) (chunks : List Packet) :
    (recvError reason chunks).Accounts chunks [] := by
  unfold recvError
  split
  · rename_i hnil
    exact ⟨hnil, rfl⟩
  · rfl

/-- What came with a select comes before what later calls remove. -/
theorem RecvResult.Accounts.after_select {result : RecvResult} {chunks : List Packet}
    {data later : Packet} (h : result.Accounts (data :: chunks) later) :
    result.Accounts chunks (data ++ later) := by
  have hbinary : chunksToBinary (data :: chunks) later = chunksToBinary chunks (data ++ later) := by
    simp [chunksToBinary]
  cases result with
  | ok found => exact Eq.trans h hbinary
  | partly reason found => exact Eq.trans h hbinary
  | error reason => cases h.1

theorem recvLoop_accounts (deadline : Option Int) (turns : List RecvTurn) (length : Nat)
    (chunks : List Packet) (retries : Nat) (result : RecvResult)
    (h : (recvLoop deadline turns length chunks retries).1 = some result) :
    result.Accounts chunks (removedBytes (recvLoop deadline turns length chunks retries).2) := by
  induction turns generalizing length chunks retries with
  | nil => cases h
  | cons turn turns ih =>
      unfold recvLoop at h ⊢
      split
      · rename_i hgo
        rw [if_pos hgo] at h
        cases hreply : turn.reply with
        | received data ended =>
            rw [hreply] at h
            obtain rfl := Option.some.inj h
            simp [RecvResult.Accounts, removedBytes, RecvReply.removes]
        | selectReceived data =>
            rw [hreply] at h
            dsimp only at h ⊢
            cases hwake : awaitSelect turn.wake with
            | ok _ =>
                rw [hwake] at h
                exact (ih _ _ _ h).after_select
            | error reason =>
                rw [hwake] at h
                obtain rfl := Option.some.inj h
                exact (recvError_accounts reason (data :: chunks)).after_select
        | select =>
            rw [hreply] at h
            dsimp only at h ⊢
            cases hwake : awaitSelect turn.wake with
            | ok _ =>
                rw [hwake] at h
                exact ih _ _ _ h
            | error reason =>
                rw [hwake] at h
                obtain rfl := Option.some.inj h
                exact recvError_accounts reason chunks
        | error error =>
            rw [hreply] at h
            obtain rfl := Option.some.inj h
            split
            · split
              · rename_i hnil
                exact ⟨hnil, rfl⟩
              · rfl
            · exact recvError_accounts _ chunks
      · rename_i hexpired
        rw [if_neg hexpired] at h
        obtain rfl := Option.some.inj h
        exact recvError_accounts _ chunks

/-- Only positive lengths were asked for, no more than `length` was removed in all, and less only where
the call has not succeeded or the stream has ended. -/
structure Within (length : Nat) (result : Option RecvResult) (calls : List (Nat × RecvReply)) : Prop where
  asked : ∀ call ∈ calls, 0 < call.1
  le : (removedBytes calls).length ≤ length
  full : ∀ data, result = some (.ok data) →
    (removedBytes calls).length = length ∨ ∃ call ∈ calls, call.2.ends = true

theorem Within.failed {length : Nat} {result : RecvResult} {calls : List (Nat × RecvReply)}
    (hresult : ∀ data, result ≠ .ok data) (hasked : ∀ call ∈ calls, 0 < call.1)
    (hle : (removedBytes calls).length ≤ length) : Within length (some result) calls :=
  ⟨hasked, hle, fun data hdata => (hresult data (Option.some.inj hdata)).elim⟩

theorem Within.cons {length : Nat} {reply : RecvReply} {result : Option RecvResult}
    {calls : List (Nat × RecvReply)} (hlength : 0 < length) (hreply : reply.removes.length ≤ length)
    (h : Within (length - reply.removes.length) result calls) :
    Within length result ((length, reply) :: calls) := by
  have hremoved : (removedBytes ((length, reply) :: calls)).length =
      reply.removes.length + (removedBytes calls).length := by
    simp [removedBytes]
  obtain ⟨hasked, hle, hfull⟩ := h
  refine ⟨?_, by omega, fun data hdata => ?_⟩
  · rw [List.forall_mem_cons]
    exact ⟨hlength, hasked⟩
  · rcases hfull data hdata with hequal | ⟨call, hmem, hends⟩
    · exact .inl (by omega)
    · exact .inr ⟨call, List.mem_cons_of_mem _ hmem, hends⟩

theorem recvError_ne_ok (reason : Reason) (chunks : List Packet) (data : Packet) :
    recvError reason chunks ≠ .ok data := by
  unfold recvError
  split <;> simp

/-- Where the native side keeps to the lengths, a positive length stays positive, no more is removed
than was asked for, and a result is short only where the stream has ended. -/
theorem recvLoop_within (deadline : Option Int) (turns : List RecvTurn) {length : Nat}
    (chunks : List Packet) (retries : Nat) (hlength : 0 < length)
    (honours : ∀ call ∈ (recvLoop deadline turns length chunks retries).2, call.2.Honours call.1) :
    Within length (recvLoop deadline turns length chunks retries).1
      (recvLoop deadline turns length chunks retries).2 := by
  induction turns generalizing length chunks retries with
  | nil => exact ⟨by simp [recvLoop], by simp [recvLoop, removedBytes], by simp [recvLoop]⟩
  | cons turn turns ih =>
      unfold recvLoop at honours ⊢
      split
      · rename_i hgo
        rw [if_pos hgo] at honours
        cases hreply : turn.reply with
        | received data ended =>
            rw [hreply] at honours
            obtain ⟨hle, hfull⟩ := honours (length, .received data ended) List.mem_cons_self hlength
            refine ⟨by simpa using hlength, by simpa [removedBytes, RecvReply.removes] using hle, ?_⟩
            intro _ _
            simpa [removedBytes, RecvReply.removes, RecvReply.ends] using hfull
        | selectReceived data =>
            rw [hreply] at honours
            dsimp only at honours ⊢
            have hshort : data.length < length := by
              refine honours (length, .selectReceived data) ?_ hlength
              cases awaitSelect turn.wake <;> exact List.mem_cons_self
            cases hwake : awaitSelect turn.wake with
            | ok _ =>
                rw [hwake, if_neg (by omega)] at honours
                rw [if_neg (by omega)]
                exact .cons hlength hshort.le (ih _ _ (Nat.sub_pos_of_lt hshort)
                  fun call hmem => honours call (List.mem_cons_of_mem _ hmem))
            | error reason =>
                refine .failed (recvError_ne_ok reason _) (by simpa using hlength) ?_
                simpa [removedBytes, RecvReply.removes] using hshort.le
        | select =>
            rw [hreply] at honours
            dsimp only at honours ⊢
            cases hwake : awaitSelect turn.wake with
            | ok _ =>
                rw [hwake] at honours
                exact .cons hlength (Nat.zero_le _) (ih _ _ hlength
                  fun call hmem => honours call (List.mem_cons_of_mem _ hmem))
            | error reason =>
                exact .failed (recvError_ne_ok reason _) (by simpa using hlength)
                  (by simp [removedBytes, RecvReply.removes])
        | error error =>
            refine ⟨by simpa using hlength, by simp [removedBytes, RecvReply.removes], fun data hdata => ?_⟩
            dsimp only at hdata
            split at hdata
            · rename_i hends
              exact .inr ⟨_, List.mem_cons_self, by simp [RecvReply.ends, hends]⟩
            · exact (recvError_ne_ok _ _ _ (Option.some.inj hdata)).elim
      · exact .failed (recvError_ne_ok _ _) (by simp) (by simp [removedBytes])

/-! ## The two calls -/

/-- A send that succeeds has handed over all of its data; one that fails with a rest, the data without
it, which is not nothing; and one that fails without a rest, nothing.  A receive gives exactly what was
removed, in order.  If the native side keeps to the lengths, a positive length is met unless the stream
has ended, is never exceeded, and never becomes a request for length `0`. -/
theorem send_recv_account (deadline : Option Int) :
    (∀ turns data,
      ((send deadline turns data).1 = some .ok → acceptedBytes (send deadline turns data).2 = data) ∧
      (∀ reason rest, (send deadline turns data).1 = some (.partly reason rest) →
        acceptedBytes (send deadline turns data).2 ++ rest = data ∧
          acceptedBytes (send deadline turns data).2 ≠ []) ∧
      ∀ reason, (send deadline turns data).1 = some (.error reason) →
        acceptedBytes (send deadline turns data).2 = []) ∧
    (∀ turns length,
      (∀ data, (recv deadline turns length).1 = some (.ok data) →
        data = removedBytes (recv deadline turns length).2) ∧
      (∀ reason data, (recv deadline turns length).1 = some (.partly reason data) →
        data = removedBytes (recv deadline turns length).2) ∧
      ∀ reason, (recv deadline turns length).1 = some (.error reason) →
        removedBytes (recv deadline turns length).2 = []) ∧
    ∀ turns length, 0 < length →
      (∀ call ∈ (recv deadline turns length).2, call.2.Honours call.1) →
      Within length (recv deadline turns length).1 (recv deadline turns length).2 := by
  refine ⟨fun turns data => ?_, fun turns length => ?_, fun turns length => ?_⟩
  · have haccounts := sendLoop_accounts deadline turns data false 0
    refine ⟨fun hok => haccounts _ hok, fun reason rest hpartly => ?_, fun reason herror => ?_⟩
    · obtain ⟨hdata, hsome⟩ := haccounts _ hpartly
      exact ⟨hdata, hsome.resolve_left Bool.false_ne_true⟩
    · exact (haccounts _ herror).1
  · have haccounts := recvLoop_accounts deadline turns length [] 0
    exact ⟨fun data hok => haccounts _ hok, fun reason data hpartly => haccounts _ hpartly,
      fun reason herror => (haccounts _ herror).2⟩
  · exact fun hlength honours => recvLoop_within deadline turns [] 0 hlength honours

/-- Three bytes come in two chunks. -/
def twoChunks : List RecvTurn := [⟨0, .selectReceived [1, 2], .ready⟩, ⟨5, .received [3] false, .ready⟩]

theorem recv_twoChunks : (recv (some 10) twoChunks 3).1 = some (.ok [1, 2, 3]) ∧
    Within 3 (recv (some 10) twoChunks 3).1 (recv (some 10) twoChunks 3).2 := by
  refine ⟨by decide, (send_recv_account (some 10)).2.2 twoChunks 3 (by decide) ?_⟩
  simp [recv, recvLoop, twoChunks, prepareRetry, awaitSelect, RecvReply.Honours]

end SmolNet.Socket
