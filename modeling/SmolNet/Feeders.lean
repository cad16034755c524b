import SmolNet.StackProcess

/-!
# Feeders

What the callers of `SmolNet.ingress` can rely on in every run of a stack process: each call gets one
reply or is the held one, what was answered positively is offered to the native stack once and in the
order of the answers, and a held call always has a poll in the mailbox that will release it.
-/

namespace SmolNet.StackProcess

open Process

variable {p p' : Process} {caller : From} {waiting : List From}

/-- The callers that have no reply yet are `waiting`; what the positive replies promised is `promised`, in
their order. -/
structure Accounted (answered : List Answer) (promised : List Input) (calls : From) (waiting : List From) :
    Prop where
  callers : (answered.map (·.caller) ++ waiting).Perm (List.range calls)
  order : (answered.filter (·.reply.passes)).map (fun a => (a.caller, a.term)) =
    promised.map fun input => (input.caller, input.term)

/-- What was promised has been offered to the native stack, or is being handed on. -/
def Process.Accounts (p : Process) : List From → Prop :=
  Accounted p.answered (p.offered ++ p.continuing.toList) p.calls

namespace Process.Accounts

theorem answer (h : p.Accounts (caller :: waiting)) (term : Term) {reply : Reply}
    (hreply : reply.passes = false) : (p.answer caller term reply).Accounts waiting where
  callers := by simpa [Process.answer] using h.callers
  order := by
    rw [Process.answer, List.filter_append, List.filter_singleton, hreply]
    simpa using h.order

theorem takeIngress {input : Input} (h : p.Accounts (input.caller :: waiting)) (hidle : p.continuing = none)
    (hpasses : (ingressReply input).passes = true) : (p.takeIngress input).Accounts waiting where
  callers := by simpa [Process.takeIngress, Process.answer] using h.callers
  order := by
    have horder := h.order
    rw [hidle, Option.toList_none, List.append_nil] at horder
    rw [Process.takeIngress, Process.answer, List.filter_append, List.filter_singleton, hpasses,
      List.map_append, horder]
    simp

/-- The input that was being handed on has been offered. -/
theorem offer {input : Input} (h : p.Accounts waiting) (hinput : p.continuing = some input) :
    ({ p with continuing := none, offered := p.offered ++ [input] } : Process).Accounts waiting := by
  unfold Process.Accounts at h ⊢
  simpa [hinput] using h

end Process.Accounts

/-- An input that passes the checks and is not the empty list is promised by its reply. -/
theorem ingressReply_passes {term : Term} {mtu n : Nat} {limits : Limits}
    (h : Stack.validateIngress term mtu limits = .ok n) (hsome : ¬(term = .nil ∧ n = 0)) :
    (ingressReply ⟨caller, term, n⟩).passes = true := by
  cases term with
  | nil =>
      obtain rfl : 0 = n := Except.ok.inj h
      exact absurd ⟨rfl, rfl⟩ hsome
  | cons head tail =>
      obtain ⟨packets, hlist, hcount, -⟩ :=
        Stack.validateBatch_ok (Nat.zero_le _) (Nat.zero_le _) h
      cases packets with
      | nil => cases hlist
      | cons packet rest =>
          rw [List.length_cons] at hcount
          simp only [ingressReply, Reply.passes]
          exact decide_eq_true (by omega)
  | _ => rfl

/-- What holds of a running process, where `waiting` are the callers that are being answered. -/
structure Process.Live (p : Process) (waiting : List From) : Prop where
  runs : p.stopped = false
  kept : p.toSchedule.Kept
  held : p.pendingIngress ≠ none → p.polls ≠ []
  promised : ∀ input, p.pendingIngress = some input → (ingressReply input).passes = true
  accounts : p.Accounts (waiting ++ p.pendingIngress.toList.map (·.caller))

/-- What holds of a process between two messages. -/
inductive Process.Sound (p : Process) : Prop
  | live (h : p.Live [])
  | ended (hstopped : p.stopped = true) (hordered : p.toSchedule.Ordered) (hpending : p.pendingIngress = none)
      (hidle : p.continuing = none) (haccounts : p.Accounts [])

namespace Process.Live

/-- A handler that ends with `continue_pending_ingress`: a call that is still held has the poll of the
continuation. -/
theorem continuePendingIngress (hkept : p.toSchedule.Kept) (hruns : p.stopped = false)
    (hidle : p.continuing = none)
    (hpromised : ∀ input, p.pendingIngress = some input → (ingressReply input).passes = true)
    (h : p.Accounts (p.pendingIngress.toList.map (·.caller))) : p.continuePendingIngress.Live [] := by
  unfold Process.continuePendingIngress
  split
  · rename_i hcontinuation
    exact ⟨hruns, hkept, fun _ => List.ne_nil_of_mem (hkept.current hcontinuation), hpromised, h⟩
  · split
    · rename_i hnone
      exact ⟨hruns, hkept, fun hsome => absurd hnone hsome, hpromised, h⟩
    · rename_i input hinput
      rw [hinput] at h
      refine ⟨hruns, hkept, fun hsome => absurd rfl hsome, fun _ hinput => ?_,
        h.takeIngress hidle (hpromised input hinput)⟩
      cases hinput

theorem effects (h : p.Live []) (envelope : Envelope) (policy : TimerPolicy) :
    (p.applyEffects envelope policy).Live [] :=
  { h with
    kept := h.kept.applyEffects _ _ policy
    held := fun hsome => Schedule.polls_applyEffects _ _ _ policy (h.held hsome) }

theorem opens (h : p.Live []) : ({ p with calls := p.calls + 1 } : Process).Live [p.calls] := by
  refine { h with accounts := ⟨?_, h.accounts.order⟩ }
  rw [List.range_succ]
  exact List.perm_middle.trans ((h.accounts.callers.cons p.calls).trans (List.perm_append_singleton _ _).symm)

theorem answer (h : p.Live [caller]) (term : Term) {reply : Reply} (hreply : reply.passes = false) :
    (p.answer caller term reply).Live [] :=
  { h with accounts := h.accounts.answer term hreply }

theorem rejectIngress (h : p.Live [caller]) (term : Term) (reason : Reason) :
    (p.rejectIngress caller term reason).Live [] :=
  { h with accounts := h.accounts.answer term rfl }

theorem acceptIngress {input : Input} (h : p.Live [input.caller]) (hidle : p.continuing = none)
    (hpasses : ¬(input.term = .nil ∧ input.packetCount = 0) → (ingressReply input).passes = true) :
    (p.acceptIngress input).Live [] := by
  unfold Process.acceptIngress
  split
  · exact h.answer input.term rfl
  · rename_i hsome
    split
    · exact { h with accounts := h.accounts.takeIngress hidle (hpasses hsome) }
    · rename_i hcontinuation
      split
      · rename_i hnone
        have hcurrent := h.kept.current (by simpa using hcontinuation)
        have haccounts := h.accounts
        rw [hnone] at haccounts
        refine ⟨h.runs, h.kept, fun _ => List.ne_nil_of_mem hcurrent, ?_, haccounts⟩
        rintro _ ⟨⟩
        exact hpasses hsome
      · exact h.rejectIngress input.term .busy

theorem ingress (h : p.Live [caller]) (hidle : p.continuing = none) (token : Nat) (term : Term) :
    (p.ingress caller token term).Live [] := by
  unfold Process.ingress
  split
  · split
    · rename_i packetCount hvalid
      split
      · exact h.rejectIngress term .closed
      · split
        · exact acceptIngress h hidle (ingressReply_passes hvalid)
        · exact h.rejectIngress term .linkDown
    · exact h.rejectIngress term _
  · exact h.answer term rfl

theorem proceed {input : Input} (h : p.Live []) (hinput : p.continuing = some input) (native : Option Envelope) :
    ({ p with continuing := none }.processIngress input native).continuePendingIngress.Live [] := by
  have hoffered := h.accounts.offer hinput
  cases native with
  | none => exact continuePendingIngress h.kept.clearContinuation h.runs rfl h.promised hoffered
  | some envelope => exact continuePendingIngress (h.kept.applyEffects _ _ _) h.runs rfl h.promised hoffered

theorem rejectPending (h : p.Accounts (p.pendingIngress.toList.map (·.caller))) (reason : Reason) :
    (p.rejectPendingIngress reason).Accounts [] := by
  unfold Process.rejectPendingIngress
  cases hpending : p.pendingIngress with
  | none => simpa [Process.Accounts, hpending] using h
  | some input =>
      rw [hpending] at h
      exact h.answer input.term rfl

theorem shutdownWaiters (h : p.Live []) : p.shutdownWaiters.Live [] := by
  refine ⟨h.runs, h.kept.clearContinuation.replaceTimer rfl none, fun hsome => absurd rfl hsome, ?_,
    rejectPending h.accounts .closed⟩
  intro input hinput
  cases hinput

theorem terminate (hordered : p.toSchedule.Ordered) (hidle : p.continuing = none)
    (h : p.Accounts (p.pendingIngress.toList.map (·.caller))) : p.terminate.Sound :=
  .ended rfl hordered.cancelTimer rfl hidle (rejectPending h .closed)

theorem poll {generation : Generation} {rest : List Generation} (h : p.Live []) (hidle : p.continuing = none)
    (hpolls : p.polls = generation :: rest) (native : Option Envelope) :
    ({ p with polls := rest }.poll generation native).Sound := by
  unfold Process.poll
  split
  · rename_i hcurrent
    obtain rfl : generation = p.timerGeneration := hcurrent
    obtain ⟨hordered, htimers⟩ := h.kept.takePoll hpolls
    cases native with
    | some envelope =>
        exact .live (continuePendingIngress (hordered.applyEffects rfl htimers _ _) h.runs hidle h.promised
          h.accounts)
    | none =>
        dsimp only
        split
        · exact terminate hordered hidle h.accounts
        · rename_i hcontinuation
          have hkept := hordered.dropTimer htimers (by simpa using hcontinuation)
          exact .live (continuePendingIngress hkept h.runs hidle h.promised h.accounts)
  · rename_i hstale
    exact .live (continuePendingIngress (h.kept.dropPoll hpolls hstale) h.runs hidle h.promised h.accounts)

theorem fire {ref : Ref} {schedule : Schedule} (h : p.Live []) (hfire : p.toSchedule.fire ref = some schedule) :
    ({ p with toSchedule := schedule } : Process).Live [] := by
  refine { h with kept := h.kept.fire hfire, held := fun _ => ?_ }
  unfold Schedule.fire at hfire
  split at hfire
  · obtain rfl := Option.some.inj hfire
    simp
  · cases hfire

theorem handle {event : Event} (h : p.Live []) (hidle : p.continuing = none)
    (hhandle : p.handle event = some p') : p'.Sound := by
  cases event with
  | ingress token term =>
      obtain rfl := Option.some.inj hhandle
      exact .live (h.opens.ingress hidle token term)
  | poll native =>
      unfold Process.handle at hhandle
      dsimp only at hhandle
      split at hhandle
      · rename_i generation rest hpolls
        obtain rfl := Option.some.inj hhandle
        exact h.poll hidle hpolls native
      · cases hhandle
  | call policy native =>
      obtain rfl := Option.some.inj hhandle
      cases native with
      | none => exact .live h
      | some envelope => exact .live (h.effects envelope policy)
  | shutdownWaiters =>
      obtain rfl := Option.some.inj hhandle
      exact .live h.shutdownWaiters
  | linkDown =>
      obtain ⟨-, rfl⟩ := Transition.guarded hhandle
      unfold Process.handleLinkDown
      split
      · exact terminate h.kept.toOrdered hidle h.accounts
      · exact .live { h with }
  | stop =>
      obtain rfl := Option.some.inj hhandle
      exact terminate h.kept.toOrdered hidle h.accounts
  | proceed => cases hhandle
  | fire => cases hhandle

end Process.Live

theorem Process.Sound.alive (h : p.Sound) (hruns : p.stopped = false) : p.Live [] := by
  cases h with
  | live h => exact h
  | ended hstopped => cases hstopped.symm.trans hruns

theorem Process.Sound.step {event : Event} (h : p.Sound) (hstep : p.step event = some p') : p'.Sound := by
  unfold Process.step at hstep
  split at hstep
  · cases hstep
  · rename_i hruns
    cases h with
    | ended hstopped => exact absurd hstopped hruns
    | live h =>
        split at hstep
        · obtain ⟨schedule, hfire, rfl⟩ := Option.map_eq_some_iff.1 hstep
          exact .live (h.fire hfire)
        · rename_i input hinput
          obtain rfl := Option.some.inj hstep
          exact .live (h.proceed hinput _)
        · rename_i hidle
          exact h.handle hidle hstep
        · cases hstep

theorem Process.Starts.sound (h : p.Starts) : p.Sound := by
  cases h with
  | ready ingressToken mtu limits linkDown linkStatus native =>
      refine .live ⟨rfl, Schedule.kept_start native.more native.pollAt, fun hsome => absurd rfl hsome, ?_,
        ⟨.nil, rfl⟩⟩
      intro input hinput
      cases hinput

theorem Reaches.sound (h : Reaches p) : p.Sound := by
  refine Transition.Reaches.invariant (fun _ => Process.Starts.sound) ?_ h
  intro p event p' hp _ hstep
  exact hp.step hstep

/-- In every run each ingress call has one reply, or it is the held call and has none; what was answered
positively is offered to the native stack once and in the order of the answers, where at most the last one
is still to be offered; a continuation has its poll in the mailbox, a held call has some poll there, and a
process that has stopped holds none. -/
theorem reaches_feeders (h : Reaches p) :
    (p.answered.map (·.caller) ++ p.pendingIngress.toList.map (·.caller)).Perm (List.range p.calls) ∧
    (p.answered.filter (·.reply.passes)).map (fun a => (a.caller, a.term)) =
      (p.offered ++ p.continuing.toList).map (fun input => (input.caller, input.term)) ∧
    (p.stopped = false → (p.nativeContinuation = true → p.timerGeneration ∈ p.polls) ∧
      (p.pendingIngress ≠ none → p.polls ≠ [])) ∧
    (p.stopped = true → p.pendingIngress = none ∧ p.continuing = none) := by
  cases h.sound with
  | live hs =>
      refine ⟨hs.accounts.callers, hs.accounts.order, fun _ => ⟨hs.kept.current, hs.held⟩, fun hstopped => ?_⟩
      cases hs.runs.symm.trans hstopped
  | ended hstopped _ hpending hidle haccounts =>
      refine ⟨by simpa [hpending] using haccounts.callers, haccounts.order, fun hruns => ?_,
        fun _ => ⟨hpending, hidle⟩⟩
      cases hruns.symm.trans hstopped

/-- The envelope of a call that left work, or did not. -/
def leaving (more : Bool) : Envelope := ⟨.ok, [], none, more⟩

def fed : Process := (Process.init 1 1500 Script.limits .stop .up).applyEffects (leaving true) .replaceTimer

theorem reaches_fed : Reaches fed := .start (.ready 1 1500 Script.limits .stop .up (leaving true))

/-- A socket call makes the poll of the first call stale, which releases it all the same; the second call
is held in its turn. -/
theorem feeding_held : ∃ p, Reaches p ∧ p.calls = 2 ∧ p.answered.map (·.caller) = [0] ∧
    p.offered.map (·.caller) = [0] ∧ p.pendingIngress.isSome = true ∧ p.polls ≠ [] := by
  have hrun : (Transition.execute Process.step (fun _ _ => True) fed
      [.ingress 1 Stack.mixedBatch, .call .replaceTimer (some (leaving false)), .poll none,
        .proceed (some (leaving true)), .ingress 1 Stack.mixedBatch]).map (fun p =>
      (p.calls, p.answered.map (·.caller), p.offered.map (·.caller), p.pendingIngress.isSome, p.stopped)) =
        some (2, [0], [0], true, false) := by
    decide +kernel
  obtain ⟨p, hp, heq⟩ := reaches_fed.observe hrun
  simp only [Prod.mk.injEq] at heq
  obtain ⟨hcalls, hanswered, hoffered, hpending, hruns⟩ := heq
  refine ⟨p, hp, hcalls, hanswered, hoffered, hpending, ((reaches_feeders hp).2.2.1 hruns).2 ?_⟩
  intro hnone
  rw [hnone] at hpending
  cases hpending

/-- In every run each generation is polled natively at most once, and the generations in ascending order;
one timer runs at most, of the current generation, and a deadline that the state has is not lost: its timer
runs or its message is in the mailbox. -/
theorem reaches_timers (h : Reaches p) :
    p.polled.Pairwise (· < ·) ∧ (∀ g ∈ p.polled, g ≤ p.timerGeneration) ∧
    (p.stopped = false → p.timers.length ≤ 1 ∧ (∀ timer ∈ p.timers, timer.2 = p.timerGeneration) ∧
      ∀ timer, p.timer = some timer →
        (timer.ref, p.timerGeneration) ∈ p.timers ∨ p.timerGeneration ∈ p.polls) := by
  have hordered : p.toSchedule.Ordered := by
    cases h.sound with
    | live hs => exact hs.kept.toOrdered
    | ended _ hordered => exact hordered
  refine ⟨hordered.polled, hordered.polled_le, fun hruns => ?_⟩
  have hkept := (h.sound.alive hruns).kept
  refine ⟨?_, ?_, fun timer htimer => ?_⟩
  · rcases hkept.running with hnone | ⟨⟨timer, -, hone⟩, -⟩ <;> simp [*]
  · rcases hkept.running with hnone | ⟨⟨timer, -, hone⟩, -⟩ <;> simp [*]
  · rcases hkept.armed timer htimer with hone | hsent
    · exact .inl (hone ▸ List.mem_singleton.2 rfl)
    · exact .inr hsent

/-- A deadline arms a timer, which runs out; the poll is native and the next deadline is armed. -/
theorem deadline_polled : ∃ p, Reaches p ∧ p.polled = [2] ∧ p.timers = [(1, 3)] ∧ p.timers.length ≤ 1 := by
  have hrun : (Transition.execute Process.step (fun _ _ => True) fed
      [.call .replaceTimer (some ⟨.ok, [], some 50, false⟩), .poll none, .fire 0,
        .poll (some ⟨.ok, [], some 90, false⟩)]).map (fun p => (p.polled, p.timers, p.stopped)) =
          some ([2], [(1, 3)], false) := by
    decide +kernel
  obtain ⟨p, hp, heq⟩ := reaches_fed.observe hrun
  simp only [Prod.mk.injEq] at heq
  obtain ⟨hpolled, htimers, hruns⟩ := heq
  exact ⟨p, hp, hpolled, htimers, ((reaches_timers hp).2.2 hruns).1⟩

/-! ## Release -/

/-- The reply has gone to the caller of the held input, which is handed on next. -/
def Releases (p p' : Process) (input : Input) : Prop :=
  p'.continuing = some input ∧ p'.pendingIngress = none ∧
    p'.answered = p.answered ++ [⟨input.caller, input.term, ingressReply input⟩]

theorem continuePendingIngress_releases {input : Input} (hcontinuation : p'.nativeContinuation = false)
    (hheld : p'.pendingIngress = some input) (hanswered : p'.answered = p.answered) :
    Releases p p'.continuePendingIngress input := by
  unfold Process.continuePendingIngress
  rw [hcontinuation, hheld]
  exact ⟨rfl, rfl, congrArg (· ++ _) hanswered⟩

/-- One poll without further work releases the held call, or takes an old message from the mailbox. -/
theorem Process.Sound.poll_releases {input : Input} (h : p.Sound) (hruns : p.stopped = false)
    (hidle : p.continuing = none) (hheld : p.pendingIngress = some input) {native : Envelope}
    (hmore : native.more = false) :
    ∃ g rest, p.polls = g :: rest ∧ ((∃ p', p.step (.poll (some native)) = some p' ∧ Releases p p' input) ∨
      p.step (.poll (some native)) = some { p with polls := rest }) := by
  cases hpolls : p.polls with
  | nil => exact absurd hpolls ((h.alive hruns).held (by simp [hheld]))
  | cons g rest =>
      have hstep : p.step (.poll (some native)) = some ({ p with polls := rest }.poll g (some native)) := by
        simp [Process.step, Process.handle, hruns, hidle, hpolls]
      refine ⟨g, rest, rfl, ?_⟩
      rw [hstep]
      unfold Process.poll
      split
      · refine .inl ⟨_, rfl, continuePendingIngress_releases ?_ hheld rfl⟩
        simp only [Process.applyEffects, hmore]
        cases native.pollAt <;> rfl
      · by_cases hcontinuation : p.nativeContinuation = true
        · exact .inr (congrArg some (if_pos hcontinuation))
        · refine .inl ⟨_, rfl, continuePendingIngress_releases ?_ hheld rfl⟩
          exact Bool.not_eq_true _ ▸ hcontinuation

/-- A feeder is held no longer than the mailbox is: once the native stack reports no further work, as many
polls as the mailbox has suffice for its reply, and its input is the next to be handed on. -/
theorem held_released {input : Input} (h : Reaches p) (hruns : p.stopped = false) (hidle : p.continuing = none)
    (hheld : p.pendingIngress = some input) {natives : List Envelope}
    (hmore : ∀ native ∈ natives, native.more = false) (hlength : p.polls.length ≤ natives.length) :
    ∃ k p', k ≤ p.polls.length ∧ Transition.execute Process.step (fun _ _ => True) p
      ((natives.take k).map fun native => .poll (some native)) = some p' ∧ Releases p p' input := by
  have hs := h.sound
  clear h
  induction natives generalizing p with
  | nil =>
      have hempty := List.length_eq_zero_iff.1 (Nat.le_zero.1 hlength)
      exact absurd hempty ((hs.alive hruns).held (by simp [hheld]))
  | cons native natives ih =>
      obtain ⟨hnow, hlater⟩ := List.forall_mem_cons.1 hmore
      obtain ⟨g, rest, hpolls, hreleased | hdropped⟩ := hs.poll_releases hruns hidle hheld hnow
      · obtain ⟨p', hstep, hreleased⟩ := hreleased
        exact ⟨1, p', by simp [hpolls], by simp [Transition.execute, hstep], hreleased⟩
      · -- an old poll is gone, and the mailbox is shorter
        have hshorter : rest.length ≤ natives.length := by
          rw [hpolls, List.length_cons, List.length_cons] at hlength
          exact Nat.le_of_succ_le_succ hlength
        obtain ⟨k, p', hk, hrun, hreleased⟩ :=
          ih (p := { p with polls := rest }) hruns hidle hheld hlater hshorter (hs.step hdropped)
        refine ⟨k + 1, p', ?_, by simpa [Transition.execute, hdropped] using hrun, hreleased⟩
        rw [hpolls, List.length_cons]
        exact Nat.succ_le_succ hk

/-- Two polls are in the mailbox when the call is held, and the second one releases it. -/
theorem feeding_released : ∃ p p' input, Reaches p ∧ p.polls = [1, 2] ∧ p.pendingIngress = some input ∧
    Releases p p' input := by
  have hrun : (Transition.execute Process.step (fun _ _ => True) fed
      [.call .replaceTimer (some (leaving true)), .ingress 1 Stack.mixedBatch]).map (fun p =>
        (p.polls, p.pendingIngress, p.stopped, p.continuing)) =
          some ([1, 2], some ⟨0, Stack.mixedBatch, 2⟩, false, none) := by
    decide +kernel
  obtain ⟨p, hp, heq⟩ := reaches_fed.observe hrun
  simp only [Prod.mk.injEq] at heq
  obtain ⟨hpolls, hheld, hruns, hidle⟩ := heq
  have hmore : ∀ native ∈ [leaving false, leaving false], native.more = false := by decide
  obtain ⟨k, p', -, -, hreleased⟩ := held_released hp hruns hidle hheld hmore (by simp [hpolls])
  exact ⟨p, p', _, hp, hpolls, hheld, hreleased⟩

end SmolNet.StackProcess
