import SmolNet.Partition

/-!
# What becomes of a waiter

Over every run each waiter that is armed leaves its slot once, by one event: its select message is sent, it is
aborted, which queues one notification, or a cancellation that returns `ok` takes it.
-/

namespace SmolNet

open Std TreeMap Program

/-! ## The turns of a slot -/

/-- The event takes the waiter of the key out of its slot. -/
def WaiterEvent.Ends (event : WaiterEvent) (key : ReadyKey) (waiter : Waiter) : Prop :=
  event = .selected key waiter ∨ event = .aborted key waiter ∨ event = .cancelled key waiter

/-- An event of a slot fills it where it is empty, or takes out the waiter that it holds. -/
theorem WaiterEvent.act_cases {event : WaiterEvent} {key : ReadyKey} {slot slot' : Option Waiter}
    (hkey : event.slotKey? = some key) (h : event.act slot = some slot') :
    (∃ waiter, event = .armed key waiter ∧ slot = none ∧ slot' = some waiter) ∨
      ∃ waiter, event.Ends key waiter ∧ slot = some waiter ∧ slot' = none := by
  cases event with
  | fired => cases hkey
  | notified => cases hkey
  | armed other waiter =>
      obtain rfl := Option.some.inj hkey
      cases slot with
      | none => exact .inl ⟨waiter, rfl, rfl, (Option.some.inj h).symm⟩
      | some held => cases h
  | selected other waiter =>
      obtain rfl := Option.some.inj hkey
      cases slot with
      | none => cases h
      | some held =>
          simp only [WaiterEvent.act, Option.ite_none_right_eq_some, Option.some.injEq] at h
          obtain ⟨rfl, rfl⟩ := h
          exact .inr ⟨held, .inl rfl, rfl, rfl⟩
  | aborted other waiter =>
      obtain rfl := Option.some.inj hkey
      cases slot with
      | none => cases h
      | some held =>
          simp only [WaiterEvent.act, Option.ite_none_right_eq_some, Option.some.injEq] at h
          obtain ⟨rfl, rfl⟩ := h
          exact .inr ⟨held, .inr (.inl rfl), rfl, rfl⟩
  | cancelled other waiter =>
      obtain rfl := Option.some.inj hkey
      cases slot with
      | none => cases h
      | some held =>
          simp only [WaiterEvent.act, Option.ite_none_right_eq_some, Option.some.injEq] at h
          obtain ⟨rfl, rfl⟩ := h
          exact .inr ⟨held, .inr (.inr rfl), rfl, rfl⟩

/-- What follows an arming: the waiter is still there, or the next event takes it out. -/
theorem next_of_armed {key : ReadyKey} {events : List WaiterEvent} {start slot : Option Waiter}
    (hkeys : ∀ event ∈ events, event.slotKey? = some key)
    (h : events.foldlM (fun slot event => event.act slot) start = some slot) {i : ℕ} {waiter : Waiter}
    (hi : events[i]? = some (.armed key waiter)) :
    (events[i + 1]? = none ∧ slot = some waiter) ∨ ∃ event, events[i + 1]? = some event ∧ event.Ends key waiter := by
  induction events generalizing start i with
  | nil => cases hi
  | cons first rest ih =>
      rw [List.foldlM_cons] at h
      obtain ⟨mid, hact, hrest⟩ := Option.bind_eq_some_iff.1 h
      have hkeys' : ∀ event ∈ rest, event.slotKey? = some key := fun event hevent =>
        hkeys event (List.mem_cons_of_mem _ hevent)
      cases i with
      | succ i => exact ih hkeys' hrest hi
      | zero =>
          obtain rfl := Option.some.inj hi
          have hmid : mid = some waiter := by
            rcases WaiterEvent.act_cases (hkeys _ List.mem_cons_self) hact with
              ⟨other, heq, -, rfl⟩ | ⟨other, hends, -⟩
            · cases heq
              rfl
            · rcases hends with hends | hends | hends <;> cases hends
          subst hmid
          cases rest with
          | nil => exact .inl ⟨rfl, (Option.some.inj hrest).symm⟩
          | cons second rest =>
              rw [List.foldlM_cons] at hrest
              obtain ⟨after, hsecond, -⟩ := Option.bind_eq_some_iff.1 hrest
              refine .inr ⟨second, rfl, ?_⟩
              rcases WaiterEvent.act_cases (hkeys' _ List.mem_cons_self) hsecond with
                ⟨other, -, hnone, -⟩ | ⟨other, hends, hheld, -⟩
              · cases hnone
              · obtain rfl := Option.some.inj hheld
                exact hends

/-- What takes a waiter out follows its arming. -/
theorem armed_before {key : ReadyKey} {events : List WaiterEvent} {start slot : Option Waiter}
    (hkeys : ∀ event ∈ events, event.slotKey? = some key)
    (h : events.foldlM (fun slot event => event.act slot) start = some slot) {i : ℕ} {event : WaiterEvent}
    (hi : events[i]? = some event) (hevent : ∀ waiter, event ≠ .armed key waiter) :
    (∃ j waiter, i = j + 1 ∧ events[j]? = some (.armed key waiter) ∧ event.Ends key waiter) ∨
      (i = 0 ∧ ∃ waiter, start = some waiter ∧ event.Ends key waiter) := by
  induction events generalizing start i with
  | nil => cases hi
  | cons first rest ih =>
      rw [List.foldlM_cons] at h
      obtain ⟨mid, hact, hrest⟩ := Option.bind_eq_some_iff.1 h
      have hfirst := WaiterEvent.act_cases (hkeys _ List.mem_cons_self) hact
      cases i with
      | zero =>
          obtain rfl := Option.some.inj hi
          rcases hfirst with ⟨waiter, harmed, -⟩ | ⟨waiter, hends, hheld, -⟩
          · exact (hevent waiter harmed).elim
          · exact .inr ⟨rfl, waiter, hheld, hends⟩
      | succ i =>
          rcases ih (fun event hmem => hkeys event (List.mem_cons_of_mem _ hmem)) hrest hi with
            ⟨j, waiter, rfl, harmed, hends⟩ | ⟨rfl, waiter, rfl, hends⟩
          · exact .inl ⟨j + 1, waiter, rfl, harmed, hends⟩
          · rcases hfirst with ⟨other, rfl, -, hmid⟩ | ⟨other, -, -, hmid⟩
            · obtain rfl := Option.some.inj hmid
              exact .inl ⟨0, waiter, rfl, rfl, hends⟩
            · cases hmid

/-! ## Cancellations -/

/-- The waiter that the event cancels. -/
def WaiterEvent.cancellation : WaiterEvent → Option (ReadyKey × Waiter)
  | .cancelled key waiter => some (key, waiter)
  | _ => none

namespace NativeStack

variable {s s' : NativeStack}

/-- The waiters cancelled so far. -/
def cancellations (s : NativeStack) : List (ReadyKey × Waiter) :=
  s.history.events.filterMap WaiterEvent.cancellation

theorem cancellations_logEvent (s : NativeStack) {event : WaiterEvent} (h : event.cancellation = none) :
    (s.logEvent event).cancellations = s.cancellations := by
  simp [cancellations, logEvent, h]

theorem cancellations_logAborts (s : NativeStack) (aborts : List PendingNotification) :
    (s.logAborts aborts).cancellations = s.cancellations := by
  simp [cancellations, logAborts, WaiterEvent.cancellation]

theorem cancellations_wake (s : NativeStack) (key : ReadyKey) : (s.wake key).cancellations = s.cancellations := by
  unfold wake
  dsimp only
  split <;> exact cancellations_logEvent s rfl

theorem cancellations_markListenerReady (s : NativeStack) (identity : SocketIdentity) :
    (s.markListenerReady identity).cancellations = s.cancellations := by
  unfold markListenerReady
  split
  · exact cancellations_wake s _
  · rfl

theorem cancellations_deliverReady (s : NativeStack) (key : ReadyKey) :
    (s.deliverReady key).cancellations = s.cancellations := by
  unfold deliverReady
  split
  · exact cancellations_logEvent _ rfl
  · rfl

theorem ReadinessPath.cancellations (h : ReadinessPath s s') : s'.cancellations = s.cancellations := by
  induction h with
  | refl => rfl
  | tail _ hstep ih =>
      refine Eq.trans ?_ ih
      cases hstep with
      | quiet h => exact congrArg (List.filterMap WaiterEvent.cancellation) h.events
      | send h => exact cancellations_logEvent _ rfl
      | deliver key hrunning => exact cancellations_deliverReady _ key

/-- Only the step of a cancellation cancels. -/
theorem Step.cancellations {label : StepLabel} (h : Step s label s') (hlabel : ∀ key, label ≠ .cancels key) :
    s'.cancellations = s.cancellations := by
  cases h with
  | drive h =>
      cases h with
      | wake key => exact cancellations_wake s key
      | promote => exact cancellations_markListenerReady _ _
      | _ => rfl
  | finish result effects haborts => exact (ReadinessPath.finish result effects _ s).cancellations
  | install => exact cancellations_logEvent _ rfl
  | abort => exact cancellations_logEvent _ rfl
  | cancel => exact (hlabel _ rfl).elim
  | close => exact cancellations_logAborts _ _
  | closeNext => exact cancellations_logAborts _ _
  | _ => rfl

theorem Path.cancellations {ok : NativeStack → StepLabel → Prop} (h : Path ok s s')
    (hok : ∀ t key, ¬ ok t (.cancels key)) : s'.cancellations = s.cancellations :=
  h.keeps (P := fun t => t.cancellations = s.cancellations)
    (fun t _ _ ht hstep hlabel => (hstep.cancellations fun key hkey => hok t key (hkey ▸ hlabel)).trans ht) rfl

/-- A call other than a cancellation cancels nothing. -/
theorem Reachable.cancellations_call (h : Reachable s) {call : Call} (world : World)
    (hcall : ∀ identity operation reference, call ≠ .cancel identity operation reference) :
    (s.call call world).2.cancellations = s.cancellations := by
  obtain ⟨hregular, hin⟩ := h.regular
  have hallowed : call.Allowed (fun _ label => ∀ key, label ≠ .cancels key) (s.beginCall world) := by
    cases call with
    | cancel identity operation reference => exact (hcall identity operation reference rfl).elim
    | tcpClose identity now =>
        constructor
        · exact fun key hkey => by cases hkey
        · exact fun _ _ _ _ key hkey => by cases hkey
        · exact fun _ _ _ _ key hkey => by cases hkey
    | tcpConnect identity endpoint pid reference now =>
        exact fun t record remote selected _ _ _ _ key hkey => by cases hkey
    | _ => trivial
  obtain ⟨t, ht, hpath, -⟩ := hregular.call_path hin
    (fun _ _ hgentle key hkey => by subst hkey; exact hgentle) call world hallowed
  rw [ht]
  exact hpath.cancellations fun t key hok => hok key rfl

/-- What `cancel` says about an open socket. -/
theorem cancel_outcome {table : SocketTable} {identity : SocketIdentity} {entry : SocketEntry}
    (hentry : table.lookup identity = some entry) (hopen : entry.lifecycle = .open) (operation : Operation)
    (reference : Nat) :
    ∃ outcome table', table.cancel identity operation reference = .ok (outcome, table') ∧
      (outcome = .cancelled ↔
        ∃ waiter, entry.waiter operation.direction = some waiter ∧ waiter.matches operation reference = true) ∧
      (outcome = .alreadySent ↔
        (∀ waiter, entry.waiter operation.direction = some waiter → waiter.matches operation reference = false) ∧
        ∃ waiter, entry.sent operation.direction = some waiter ∧ waiter.matches operation reference = true) := by
  have harmed : (entry.waiter operation.direction).any (·.matches operation reference) = true ↔
      ∃ waiter, entry.waiter operation.direction = some waiter ∧ waiter.matches operation reference = true := by
    simp [Option.any_eq_true]
  have hnone : (entry.waiter operation.direction).any (·.matches operation reference) = false ↔
      ∀ waiter, entry.waiter operation.direction = some waiter → waiter.matches operation reference = false := by
    cases entry.waiter operation.direction <;> simp
  have hsent : (entry.sent operation.direction).any (·.matches operation reference) = true ↔
      ∃ waiter, entry.sent operation.direction = some waiter ∧ waiter.matches operation reference = true := by
    simp [Option.any_eq_true]
  rw [← harmed, ← hnone, ← hsent]
  unfold SocketTable.cancel
  rw [SocketTable.validateAny_eq_ok.2 ⟨hentry, hopen⟩]
  dsimp only
  by_cases hfirst : (entry.waiter operation.direction).any (·.matches operation reference) = true
  · rw [if_pos hfirst]
    exact ⟨.cancelled, _, rfl, by simp [hfirst], by simp [hfirst]⟩
  · rw [if_neg hfirst]
    by_cases hsecond : (entry.sent operation.direction).any (·.matches operation reference) = true
    · rw [if_pos hsecond]
      exact ⟨.alreadySent, _, rfl, by simp [hfirst], by simp [hfirst, hsecond]⟩
    · rw [if_neg hsecond]
      exact ⟨.notFound, _, rfl, by simp [hfirst], by simp [hsecond]⟩

/-- A cancellation that succeeds in the table is answered with its outcome, and cancels one waiter if it
answers `ok`. -/
theorem cancel_call (s : NativeStack) {identity : SocketIdentity} {operation : Operation} {reference : Nat}
    {outcome : CancelResult} {table : SocketTable} (world : World) (hrunning : s.lifecycle = .running)
    (hcancel : s.socketTable.cancel identity operation reference = .ok (outcome, table)) :
    ∃ envelope, (s.call (.cancel identity operation reference) world).1 = .envelope envelope ∧
      envelope.result = CancelResult.reply outcome ∧
      (outcome = .cancelled → ∃ waiter, s.slot ⟨identity, operation.direction⟩ = some waiter ∧
        waiter.matches operation reference = true ∧
        (s.call (.cancel identity operation reference) world).2.cancellations =
          s.cancellations ++ [(⟨identity, operation.direction⟩, waiter)]) ∧
      (outcome ≠ .cancelled →
        (s.call (.cancel identity operation reference) world).2.cancellations = s.cancellations) := by
  have hspec : wp (Call.cancel identity operation reference).program
      (fun envelope t => envelope.result = CancelResult.reply outcome ∧ t.cancellations =
        (if outcome = CancelResult.cancelled then
          { s.beginCall world with socketTable := table }.logCancelled ⟨identity, operation.direction⟩
            ((s.socketTable.lookup identity).bind fun entry => entry.waiter operation.direction)
          else { s.beginCall world with socketTable := table }).cancellations)
      (fun _ _ => False) (s.beginCall world) := by
    rw [Call.program, Call.onSocket, wp_mapError]
    unfold NativeStack.cancel
    simp only [wp_bind, wp_ensureRunning, wp_get, wp_ofExcept, wp_set, wp_finishCall]
    refine ⟨fun _ => ⟨fun cancelled hcancelled => ?_, fun error herror => ?_⟩, fun hdown => (hdown hrunning).elim⟩
    · obtain rfl := Except.ok.inj (hcancel.symm.trans hcancelled)
      exact ⟨rfl, (ReadinessPath.finish _ _ _ _).cancellations⟩
    · cases hcancel.symm.trans herror
  unfold NativeStack.call
  cases hprogram : (Call.cancel identity operation reference).program (s.beginCall world) with
  | ok envelope t =>
      obtain ⟨hresult, hcancellations⟩ := wp_ok hspec hprogram
      refine ⟨envelope, rfl, hresult, fun houtcome => ?_, fun houtcome => ?_⟩
      · subst houtcome
        obtain ⟨entry, waiter, hlookup, hwaiter, hmatches, -⟩ := SocketTable.cancel_cancelled hcancel
        refine ⟨waiter, ?_, hmatches, ?_⟩
        · simp [slot, hlookup, hwaiter]
        · refine hcancellations.trans ?_
          simp [hlookup, hwaiter, logCancelled, cancellations, logEvent, WaiterEvent.cancellation, beginCall]
      · refine hcancellations.trans ?_
        rw [if_neg houtcome]
        rfl
  | error fault t =>
      cases fault with
      | error error => exact (wp_error hspec hprogram).elim
      | panic => simp [wp, hprogram] at hspec

/-- A cancellation that is refused cancels nothing. -/
theorem cancel_refused (s : NativeStack) {identity : SocketIdentity} {operation : Operation} {reference : Nat}
    (world : World) (h : s.lifecycle = .running → ∀ cancelled,
      s.socketTable.cancel identity operation reference ≠ .ok cancelled) :
    (∃ error, (s.call (.cancel identity operation reference) world).1 = .error error) ∧
      (s.call (.cancel identity operation reference) world).2.cancellations = s.cancellations := by
  have hspec : wp (Call.cancel identity operation reference).program (fun _ _ => False)
      (fun _ t => t.cancellations = s.cancellations) (s.beginCall world) := by
    rw [Call.program, Call.onSocket, wp_mapError]
    unfold NativeStack.cancel
    simp only [wp_bind, wp_ensureRunning, wp_get, wp_ofExcept, wp_set, wp_finishCall]
    exact ⟨fun hrunning => ⟨fun cancelled hcancelled => (h hrunning cancelled hcancelled).elim,
      fun _ _ => rfl⟩, fun _ => rfl⟩
  unfold NativeStack.call
  cases hprogram : (Call.cancel identity operation reference).program (s.beginCall world) with
  | ok envelope t => exact (wp_ok hspec hprogram).elim
  | error fault t =>
      cases fault with
      | error error =>
          have hsame := wp_error hspec hprogram
          exact ⟨⟨error, rfl⟩, hsame⟩
      | panic => simp [wp, hprogram] at hspec

/-! ## Runs -/

/-- A reply to a cancellation is `ok` for a waiter that was cancelled only, and `already_sent` for one that was
sent only. -/
theorem reply_eq_ok {outcome : CancelResult} : CancelResult.reply outcome = .ok ↔ outcome = .cancelled := by
  cases outcome <;> simp [CancelResult.reply]

theorem reply_eq_alreadySent {outcome : CancelResult} :
    CancelResult.reply outcome = .alreadySent ↔ outcome = .alreadySent := by
  cases outcome <;> simp [CancelResult.reply]

/-- Which calls cancel a waiter. -/
theorem Reachable.cancels_iff (h : Reachable s) (call : Call) (world : World) :
    (∃ identity operation reference envelope waiter, call = .cancel identity operation reference ∧
      (s.call call world).1 = .envelope envelope ∧ envelope.result = .ok ∧
      s.slot ⟨identity, operation.direction⟩ = some waiter ∧ waiter.matches operation reference = true ∧
      (s.call call world).2.cancellations = s.cancellations ++ [(⟨identity, operation.direction⟩, waiter)]) ∨
    ((s.call call world).2.cancellations = s.cancellations ∧
      ∀ identity operation reference envelope, call = .cancel identity operation reference →
        (s.call call world).1 = .envelope envelope → envelope.result ≠ .ok) := by
  by_cases hcall : ∃ identity operation reference, call = .cancel identity operation reference
  · obtain ⟨identity, operation, reference, rfl⟩ := hcall
    by_cases hok : s.lifecycle = .running ∧
        ∃ cancelled, s.socketTable.cancel identity operation reference = .ok cancelled
    · obtain ⟨hrunning, ⟨outcome, table⟩, hcancel⟩ := hok
      obtain ⟨envelope, hanswer, hresult, hyes, hno⟩ := cancel_call s world hrunning hcancel
      by_cases houtcome : outcome = .cancelled
      · obtain ⟨waiter, hslot, hmatches, hcancellations⟩ := hyes houtcome
        exact .inl ⟨identity, operation, reference, envelope, waiter, rfl, hanswer,
          hresult.trans (reply_eq_ok.2 houtcome), hslot, hmatches, hcancellations⟩
      · refine .inr ⟨hno houtcome, fun _ _ _ other heq hother hok => ?_⟩
        rw [hanswer] at hother
        obtain rfl := Answer.envelope.inj hother
        exact houtcome (reply_eq_ok.1 (hresult.symm.trans hok))
    · have hrefused : s.lifecycle = .running → ∀ cancelled,
          s.socketTable.cancel identity operation reference ≠ .ok cancelled :=
        fun hrunning cancelled hcancel => hok ⟨hrunning, cancelled, hcancel⟩
      obtain ⟨⟨error, hanswer⟩, hsame⟩ := cancel_refused s world hrefused
      refine .inr ⟨hsame, fun _ _ _ other heq hother => ?_⟩
      rw [hanswer] at hother
      cases hother
  · refine .inr ⟨h.cancellations_call world fun identity operation reference heq =>
      hcall ⟨identity, operation, reference, heq⟩, fun identity operation reference _ heq =>
      (hcall ⟨identity, operation, reference, heq⟩).elim⟩

theorem lifeline_keys {key : ReadyKey} {events : List WaiterEvent} :
    ∀ event ∈ lifeline key events, event.slotKey? = some key := fun event hevent => by
  simpa using (List.mem_filter.1 hevent).2

/-- Where there is room for one more waiter, arming does not find the table full. -/
theorem WaiterRoom.not_full (h : s.WaiterRoom) (registration : WaiterRegistration) :
    s.socketTable.installWaiter registration ≠ .error .systemLimit := by
  intro hfull
  unfold SocketTable.installWaiter at hfull
  split at hfull
  · cases hfull
  split at hfull
  · rename_i error hvalid
    unfold SocketTable.validate at hvalid
    split at hvalid
    · cases hvalid
      cases hfull
    · split at hvalid
      · cases hvalid
        cases hfull
      · split at hvalid <;> cases hvalid
        cases hfull
  · rename_i entry hvalid
    split at hfull
    · split at hfull <;> cases hfull
    · rename_i hempty
      split at hfull
      · rename_i hcount
        exact absurd (h _ _ entry _ hvalid hempty) (Nat.not_lt.2 hcount)
      · cases hfull

/-- Each waiter that was armed is in its slot or has left it by one event, and each event that empties a slot
follows the arming of its waiter.  Aborted waiters are notified in order, and wait for it in the queue.  A waiter
is cancelled by the cancellation that returns `ok` and by nothing else.  A cancellation returns `ok` for the
waiter that is armed, and `already_sent` for the one that was armed last if its message has been sent.  The
counter counts the filled slots, which are two for each entry at most, so arming never finds the table full. -/
theorem waiters_exactly_once (h : Reachable s) :
    (∀ key i waiter, (lifeline key s.history.events)[i]? = some (.armed key waiter) →
      ((lifeline key s.history.events)[i + 1]? = none ∧ s.slot key = some waiter) ∨
        ∃ event, (lifeline key s.history.events)[i + 1]? = some event ∧ event.Ends key waiter) ∧
    (∀ key i event, (lifeline key s.history.events)[i]? = some event → (∀ waiter, event ≠ .armed key waiter) →
      ∃ j waiter, i = j + 1 ∧ (lifeline key s.history.events)[j]? = some (.armed key waiter) ∧
        event.Ends key waiter) ∧
    (s.history.events.filterMap WaiterEvent.owes =
      s.history.events.filterMap WaiterEvent.pays ++ s.pendingNotifications) ∧
    (∀ call world,
      (∃ identity operation reference envelope waiter, call = .cancel identity operation reference ∧
        (s.call call world).1 = .envelope envelope ∧ envelope.result = .ok ∧
        s.slot ⟨identity, operation.direction⟩ = some waiter ∧ waiter.matches operation reference = true ∧
        (s.call call world).2.cancellations = s.cancellations ++ [(⟨identity, operation.direction⟩, waiter)]) ∨
      ((s.call call world).2.cancellations = s.cancellations ∧
        ∀ identity operation reference envelope, call = .cancel identity operation reference →
          (s.call call world).1 = .envelope envelope → envelope.result ≠ .ok)) ∧
    (∀ identity entry operation reference world, s.lifecycle = .running →
      s.socketTable.lookup identity = some entry →
      ∃ envelope, (s.call (.cancel identity operation reference) world).1 = .envelope envelope ∧
        (envelope.result = .ok ↔ ∃ waiter, s.slot ⟨identity, operation.direction⟩ = some waiter ∧
          waiter.matches operation reference = true) ∧
        (envelope.result = .alreadySent ↔ ∃ earlier waiter,
          lifeline ⟨identity, operation.direction⟩ s.history.events =
            earlier ++ [.armed ⟨identity, operation.direction⟩ waiter,
              .selected ⟨identity, operation.direction⟩ waiter] ∧
          waiter.matches operation reference = true)) ∧
    (s.socketTable.waiterCount =
      total (fun found : Nat × SocketEntry => found.2.waiters.length) s.socketTable.entries ∧
      s.socketTable.waiterCount ≤ 2 * s.socketTable.len) ∧
    ∀ world t, Path (fun _ _ => True) (s.beginCall world) t → ∀ registration,
      t.socketTable.installWaiter registration ≠ .error .systemLimit := by
  obtain ⟨hregular, hin⟩ := h.regular
  have haccounted := hregular.accounted
  refine ⟨fun key i waiter hi => next_of_armed lifeline_keys (haccounted.slots key) hi,
    fun key i event hi hevent => ?_, ?_, h.cancels_iff,
    fun identity entry operation reference world hrunning hentry => ?_,
    ⟨haccounted.count, haccounted.waiterCount_le⟩, fun world t hpath registration hfull => ?_⟩
  · rcases armed_before lifeline_keys (haccounted.slots key) hi hevent with hbefore | ⟨-, waiter, hstart, -⟩
    · exact hbefore
    · cases hstart
  · have hqueue := haccounted.queue
    rwa [owing, hin, List.append_nil] at hqueue
  · have hopen := (hregular.sound.rostered.entry _ _ _ _ (SocketTable.roster_of_lookup hentry)).1
    have hslot : s.slot ⟨identity, operation.direction⟩ = entry.waiter operation.direction := by
      simp [slot, hentry]
    obtain ⟨outcome, table, hcancel, hok, hsent⟩ := cancel_outcome hentry hopen operation reference
    obtain ⟨envelope, hanswer, hresult, -, -⟩ := cancel_call s world hrunning hcancel
    refine ⟨envelope, hanswer, ?_, ?_⟩
    · rw [hresult, reply_eq_ok, hok, hslot]
    · rw [hresult, reply_eq_alreadySent, hsent]
      constructor
      · rintro ⟨-, waiter, hwaiter, hmatches⟩
        obtain ⟨earlier, hlife⟩ := (haccounted.sent ⟨identity, operation.direction⟩ entry waiter hentry).1 hwaiter
        exact ⟨earlier, waiter, hlife, hmatches⟩
      · rintro ⟨earlier, waiter, hlife, hmatches⟩
        refine ⟨fun other hother => ?_, waiter,
          (haccounted.sent ⟨identity, operation.direction⟩ entry waiter hentry).2 ⟨earlier, hlife⟩, hmatches⟩
        -- the slot is empty: the last thing that happened to it is not an arming
        have hfilled := haccounted.slots ⟨identity, operation.direction⟩
        rw [hslot, hother] at hfilled
        obtain ⟨before, hlast⟩ := hfilled.last_armed
        rw [hlife] at hlast
        have hends := congrArg List.getLast? hlast
        simp at hends
  · exact ((hregular.beginCall world).path hpath).waiterRoom.not_full registration hfull

/-- A receive on a bound UDP socket arms a waiter. -/
def armedRun : List (Call × World) :=
  [(.udpOpen .inet6, {}), (.udpBind ⟨1, 1⟩ ⟨Script.host, 5353, 0⟩, {}), (.udpRecvfrom ⟨1, 1⟩ 0 7 9 0, {})]

def armed : NativeStack := (Script.stack.run armedRun).2

theorem waiters_exactly_once_armed :
    armed.slot ⟨⟨1, 1⟩, .read⟩ = some ⟨7, .recvfrom, 9⟩ ∧
      ∃ envelope, (armed.call (.cancel ⟨1, 1⟩ .recvfrom 9) {}).1 = .envelope envelope ∧ envelope.result = .ok := by
  have hreach : Reachable armed := Script.reachable_stack.run armedRun
  have hlife : (lifeline ⟨⟨1, 1⟩, .read⟩ armed.history.events)[0]? = some (.armed ⟨⟨1, 1⟩, .read⟩ ⟨7, .recvfrom, 9⟩) ∧
      (lifeline ⟨⟨1, 1⟩, .read⟩ armed.history.events)[1]? = none := by decide +kernel
  obtain ⟨hnext, -, -, -, hcancel, -, -⟩ := waiters_exactly_once hreach
  have hslot : armed.slot ⟨⟨1, 1⟩, .read⟩ = some ⟨7, .recvfrom, 9⟩ := by
    rcases hnext ⟨⟨1, 1⟩, .read⟩ 0 _ hlife.1 with ⟨-, hslot⟩ | ⟨event, hevent, -⟩
    · exact hslot
    · rw [hlife.2] at hevent
      cases hevent
  obtain ⟨entry, hentry, -⟩ := Option.bind_eq_some_iff.1 hslot
  obtain ⟨envelope, hanswer, hok, -⟩ := hcancel ⟨1, 1⟩ entry .recvfrom 9 {} (by decide +kernel) hentry
  exact ⟨hslot, envelope, hanswer, hok.2 ⟨_, hslot, by decide⟩⟩

end NativeStack

end SmolNet
