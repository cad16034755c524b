import SmolNet.Ingress
import SmolNet.Transition

/-!
# The stack process

The `GenServer` around a native stack: the poll timer and its generation, the continuation flag, the
one input that is held while a continuation is under way, and the link.  Ingress calls, socket calls,
timers and polls interleave freely, and the native side may answer every call in any way.
-/

namespace SmolNet.StackProcess

/-- The reference that `send_after` returns; each is new. -/
abbrev Ref := Nat

abbrev Generation := Nat

/-- The caller of an ingress call, as `GenServer.reply` names it. -/
abbrev From := Nat

structure Timer where
  ref : Ref
  deadline : Int
deriving DecidableEq

inductive TimerPolicy where
  | replaceTimer | preserveTimer
deriving DecidableEq

/-! ## Timers and polls -/

/-- The fields of the state that decide when the native stack is polled, and what the runtime has of
them: the timers that run, the poll messages in the mailbox (oldest first) and the generations for
which the native stack has been polled. -/
structure Schedule where
  timer : Option Timer
  timerGeneration : Generation
  nativeContinuation : Bool
  timers : List (Ref × Generation)
  refs : Ref
  polls : List Generation
  polled : List Generation

namespace Schedule

def start : Schedule := ⟨none, 0, false, [], 0, [], []⟩

/-- Cancels the timer of the state, if there is one; a message that it has sent stays in the mailbox. -/
def cancelTimer (s : Schedule) : Schedule :=
  { s with timers := s.timers.filter fun running => some running.1 ≠ s.timer.map Timer.ref }

/-- The second clause of `replace_timer`, after the cancellation. -/
def renewTimer (s : Schedule) : Option Int → Schedule
  | some deadline =>
      { s with
        timer := some ⟨s.refs, deadline⟩
        timerGeneration := s.timerGeneration + 1
        timers := (s.refs, s.timerGeneration + 1) :: s.timers
        refs := s.refs + 1 }
  | none => { s with timer := none, timerGeneration := s.timerGeneration + 1 }

def replaceTimer (s : Schedule) (pollAt : Option Int) : Schedule :=
  if s.timer ≠ none ∧ s.timer.map Timer.deadline = pollAt then s else s.cancelTimer.renewTimer pollAt

/-- `send(self(), {:smolnet_poll, generation})`. -/
def sendPoll (s : Schedule) : Schedule :=
  { s with polls := s.polls ++ [s.timerGeneration] }

/-- `apply_effects` without the packets. -/
def applyEffects (s : Schedule) (more : Bool) (pollAt : Option Int) (policy : TimerPolicy) : Schedule :=
  if more then ({ s with nativeContinuation := true }.replaceTimer none).sendPoll
  else if policy = .preserveTimer ∧ pollAt = none then s
  else { s with nativeContinuation := false }.replaceTimer pollAt

/-- A timer runs out. -/
def fire (s : Schedule) (ref : Ref) : Option Schedule :=
  match s.timers.find? (·.1 = ref) with
  | some (_, generation) =>
      some { s with timers := s.timers.filter (·.1 ≠ ref), polls := s.polls ++ [generation] }
  | none => none

end Schedule

/-! ## The process -/

inductive Reason where
  | invalidIngress | closed | linkDown | busy
  | rejected (error : Stack.IngressError)
deriving DecidableEq

/-- The reply to an ingress call. -/
inductive Reply where
  | ok
  | count (packets : Nat)
  | error (reason : Reason)
deriving DecidableEq

/-- The feeder was told that its packets are on their way. -/
def Reply.passes : Reply → Bool
  | .ok => true
  | .count packets => packets ≠ 0
  | .error _ => false

inductive LinkStatus where
  | up | down
deriving DecidableEq

/-- `mark_down` and `notify` differ in a message to a third process only. -/
inductive LinkDown where
  | stop | markDown
deriving DecidableEq

/-- An input that passed the checks, with its caller. -/
structure Input where
  caller : From
  term : Term
  packetCount : Nat
deriving DecidableEq

structure Answer where
  caller : From
  term : Term
  reply : Reply

structure Process extends Schedule where
  ingressToken : Nat
  mtu : Nat
  limits : Limits
  linkDown : LinkDown
  linkStatus : LinkStatus
  processedIngress : Nat
  failedIngress : Nat
  rejectedIngress : Nat
  droppedEgress : Nat
  shutdownRequested : Bool
  pendingIngress : Option Input
  /-- The argument of `{:continue, {:process_ingress, ..}}`: no message is handled before it. -/
  continuing : Option Input
  stopped : Bool
  /-- The ingress calls so far, the replies to them and what was offered to the native stack, in order. -/
  calls : From
  answered : List Answer
  offered : List Input
  egress : List (List Packet)

namespace Process

def answer (p : Process) (caller : From) (term : Term) (reply : Reply) : Process :=
  { p with answered := p.answered ++ [⟨caller, term, reply⟩] }

/-- Packets go to the process of the link while it is up, and are counted otherwise. -/
def emitPackets (p : Process) (output : List Packet) : Process :=
  { p with
    egress := if output ≠ [] ∧ p.linkStatus = .up then p.egress ++ [output] else p.egress
    droppedEgress := if p.linkStatus = .up then p.droppedEgress else p.droppedEgress + output.length }

def applyEffects (p : Process) (envelope : Envelope) (policy : TimerPolicy) : Process :=
  { p.emitPackets envelope.output with
    toSchedule := p.toSchedule.applyEffects envelope.more envelope.pollAt policy }

def rejectIngress (p : Process) (caller : From) (term : Term) (reason : Reason) : Process :=
  { p.answer caller term (.error reason) with rejectedIngress := p.rejectedIngress + 1 }

def ingressReply (input : Input) : Reply :=
  match input.term with
  | .nil | .cons _ _ => .count input.packetCount
  | _ => .ok

/-- The reply, and the step that hands the input on. -/
def takeIngress (p : Process) (input : Input) : Process :=
  { p.answer input.caller input.term (ingressReply input) with continuing := some input }

def acceptIngress (p : Process) (input : Input) : Process :=
  if input.term = .nil ∧ input.packetCount = 0 then p.answer input.caller input.term (.count 0)
  else if p.nativeContinuation = false then p.takeIngress input
  else if p.pendingIngress = none then { p with pendingIngress := some input }
  else p.rejectIngress input.caller input.term .busy

/-- `handle_call({:ingress, ..})`. -/
def ingress (p : Process) (caller : From) (token : Nat) (term : Term) : Process :=
  if token = p.ingressToken then
    match Stack.validateIngress term p.mtu p.limits with
    | .ok packetCount =>
        if p.shutdownRequested then p.rejectIngress caller term .closed
        else
          match p.linkStatus with
          | .up => p.acceptIngress ⟨caller, term, packetCount⟩
          | .down => p.rejectIngress caller term .linkDown
    | .error reason => p.rejectIngress caller term (.rejected reason)
  else p.answer caller term (.error .invalidIngress)

/-- A reply to the held call, if there is one. -/
def rejectPendingIngress (p : Process) (reason : Reason) : Process :=
  { p with
    answered := p.answered ++ p.pendingIngress.toList.map fun input => ⟨input.caller, input.term, .error reason⟩
    pendingIngress := none }

def continuePendingIngress (p : Process) : Process :=
  if p.nativeContinuation then p
  else
    match p.pendingIngress with
    | none => p
    | some input => { p.takeIngress input with pendingIngress := none }

/-- The native answer is `none` where the call fails. -/
def processIngress (p : Process) (input : Input) (native : Option Envelope) : Process :=
  let p := { p with offered := p.offered ++ [input] }
  match native with
  | some envelope =>
      { p with processedIngress := p.processedIngress + input.packetCount }.applyEffects envelope .replaceTimer
  | none =>
      { p with failedIngress := p.failedIngress + input.packetCount, nativeContinuation := false }

def terminate (p : Process) : Process :=
  let p := p.rejectPendingIngress .closed
  { p with stopped := true, toSchedule := p.toSchedule.cancelTimer }

/-- `handle_info({:smolnet_poll, ..})`. -/
def poll (p : Process) (generation : Generation) (native : Option Envelope) : Process :=
  if generation = p.timerGeneration then
    let p := { p with timer := none, polled := p.polled ++ [generation] }
    match native with
    | some envelope => (p.applyEffects envelope .replaceTimer).continuePendingIngress
    | none =>
        if p.nativeContinuation then p.terminate
        else { p with toSchedule := p.toSchedule.replaceTimer none }.continuePendingIngress
  else p.continuePendingIngress

/-- `reply_native` and what has its shape: socket calls, grants, and the close after an owner's exit. -/
def replyNative (p : Process) (native : Option Envelope) (policy : TimerPolicy) : Process :=
  match native with
  | some envelope => p.applyEffects envelope policy
  | none => p

/-- `handle_call(:shutdown_waiters, ..)`; the native stack is drained meanwhile. -/
def shutdownWaiters (p : Process) : Process :=
  let p := { p with shutdownRequested := true }.rejectPendingIngress .closed
  { p with toSchedule := { p.toSchedule with nativeContinuation := false }.replaceTimer none }

def handleLinkDown (p : Process) : Process :=
  match p.linkDown with
  | .stop => p.terminate
  | .markDown => { p with linkStatus := .down }

end Process

/-- A message that the process handles, its continuation, a stop (the starter or the supervisor), or a
timer that runs out.  `native` is what the native stack answers. -/
inductive Event where
  | ingress (token : Nat) (term : Term)
  | proceed (native : Option Envelope)
  | poll (native : Option Envelope)
  | call (policy : TimerPolicy) (native : Option Envelope)
  | shutdownWaiters
  | linkDown
  | stop
  | fire (ref : Ref)

namespace Process

/-- The process between two messages; polls are taken in the order of the mailbox. -/
def handle (p : Process) : Event → Option Process
  | .ingress token term => some ({ p with calls := p.calls + 1 }.ingress p.calls token term)
  | .poll native =>
      match p.polls with
      | generation :: rest => some ({ p with polls := rest }.poll generation native)
      | [] => none
  | .call policy native => some (p.replyNative native policy)
  | .shutdownWaiters => some p.shutdownWaiters
  | .linkDown => if p.linkStatus = .up then some p.handleLinkDown else none
  | .stop => some p.terminate
  | .proceed _ | .fire _ => none

def step (p : Process) (event : Event) : Option Process :=
  if p.stopped then none
  else
    match event, p.continuing with
    | .fire ref, _ => (p.toSchedule.fire ref).map fun schedule => { p with toSchedule := schedule }
    | .proceed native, some input =>
        some ({ p with continuing := none }.processIngress input native).continuePendingIngress
    | event, none => p.handle event
    | _, some _ => none

/-- The state that `init` makes; the link is down if no egress was given. -/
def init (ingressToken mtu : Nat) (limits : Limits) (linkDown : LinkDown) (linkStatus : LinkStatus) : Process :=
  ⟨.start, ingressToken, mtu, limits, linkDown, linkStatus, 0, 0, 0, 0, false, none, none, false, 0, [], [], []⟩

/-- `stack_new` has answered. -/
inductive Starts : Process → Prop
  | ready (ingressToken mtu : Nat) (limits : Limits) (linkDown : LinkDown) (linkStatus : LinkStatus)
      (native : Envelope) :
      Starts ((init ingressToken mtu limits linkDown linkStatus).applyEffects native .replaceTimer)

end Process

abbrev Reaches : Process → Prop := Transition.Reaches Process.step (fun _ _ => True) Process.Starts

/-! ## What the schedule keeps -/

namespace Schedule

/-- Nothing is scheduled beyond the current generation, and each generation is polled once, in order. -/
structure Ordered (s : Schedule) : Prop where
  sent : ∀ g ∈ s.polls, g ≤ s.timerGeneration
  polled_le : ∀ g ∈ s.polled, g ≤ s.timerGeneration
  polled : s.polled.Pairwise (· < ·)

structure Kept (s : Schedule) : Prop extends Ordered s where
  /-- A continuation has its poll in the mailbox. -/
  current : s.nativeContinuation = true → s.timerGeneration ∈ s.polls
  /-- The timer runs, or its message is in the mailbox. -/
  armed : ∀ timer, s.timer = some timer →
    s.timers = [(timer.ref, s.timerGeneration)] ∨ s.timerGeneration ∈ s.polls
  /-- No other timer runs. -/
  running : s.timers = [] ∨
    (∃ timer, s.timer = some timer ∧ s.timers = [(timer.ref, s.timerGeneration)]) ∧ s.timerGeneration ∉ s.polls
  polled_lt : ∀ g ∈ s.polled, g < s.timerGeneration

variable {s s' : Schedule}

theorem Kept.idle (h : s.Kept) (hpoll : s.timerGeneration ∈ s.polls) : s.timers = [] := by
  rcases h.running with hnone | ⟨-, habsent⟩
  · exact hnone
  · exact absurd hpoll habsent

theorem Ordered.renewTimer (h : s.Ordered) (htimers : s.timers = []) (hcontinuation : s.nativeContinuation = false)
    (pollAt : Option Int) : (s.renewTimer pollAt).Kept := by
  have hnew : s.timerGeneration + 1 ∉ s.polls := fun hin => absurd (h.sent _ hin) (Nat.not_succ_le_self _)
  have hsent : ∀ g ∈ s.polls, g ≤ s.timerGeneration + 1 := fun g hg => Nat.le_succ_of_le (h.sent g hg)
  have hpolled : ∀ g ∈ s.polled, g < s.timerGeneration + 1 := fun g hg => Nat.lt_succ_of_le (h.polled_le g hg)
  have hordered : (s.renewTimer pollAt).Ordered := by
    cases pollAt <;> exact ⟨hsent, fun g hg => (hpolled g hg).le, h.polled⟩
  cases pollAt with
  | none =>
      refine ⟨hordered, fun hc => ?_, fun timer ht => ?_, .inl htimers, hpolled⟩
      · cases hcontinuation.symm.trans hc
      · cases ht
  | some deadline =>
      have hrunning : (s.renewTimer (some deadline)).timers = [(s.refs, s.timerGeneration + 1)] :=
        congrArg _ htimers
      refine ⟨hordered, fun hc => ?_, fun timer ht => ?_, .inr ⟨⟨_, rfl, hrunning⟩, hnew⟩, hpolled⟩
      · cases hcontinuation.symm.trans hc
      · obtain rfl := Option.some.inj ht
        exact .inl hrunning

/-- The poll of a continuation goes out under a new generation. -/
theorem Ordered.sendPoll (h : s.Ordered) (htimers : s.timers = []) : (s.renewTimer none).sendPoll.Kept where
  sent g hg := by
    rcases List.mem_append.1 hg with hg | hg
    · exact Nat.le_succ_of_le (h.sent g hg)
    · exact (List.mem_singleton.1 hg).le
  polled_le g hg := Nat.le_succ_of_le (h.polled_le g hg)
  polled := h.polled
  current _ := List.mem_append_right _ (List.mem_singleton.2 rfl)
  armed timer ht := by cases ht
  running := .inl htimers
  polled_lt g hg := Nat.lt_succ_of_le (h.polled_le g hg)

theorem Kept.cancelTimer (h : s.Kept) : s.cancelTimer.timers = [] := by
  rcases h.running with hnone | ⟨⟨timer, ht, hone⟩, -⟩
  · simp [Schedule.cancelTimer, hnone]
  · simp [Schedule.cancelTimer, hone, ht]

theorem Ordered.cancelTimer (h : s.Ordered) : s.cancelTimer.Ordered := ⟨h.sent, h.polled_le, h.polled⟩

theorem Ordered.setContinuation (h : s.Ordered) (value : Bool) :
    ({ s with nativeContinuation := value } : Schedule).Ordered :=
  ⟨h.sent, h.polled_le, h.polled⟩

theorem Kept.clearContinuation (h : s.Kept) : ({ s with nativeContinuation := false } : Schedule).Kept :=
  { h with current := fun hc => by cases hc }

theorem replaceTimer_none (s : Schedule) : s.replaceTimer none = s.cancelTimer.renewTimer none := by
  unfold replaceTimer
  cases s.timer <;> simp

theorem Kept.replaceTimer (h : s.Kept) (hc : s.nativeContinuation = false) (pollAt : Option Int) :
    (s.replaceTimer pollAt).Kept := by
  unfold Schedule.replaceTimer
  split
  · exact h
  · exact h.toOrdered.cancelTimer.renewTimer h.cancelTimer hc pollAt

theorem Kept.applyEffects (h : s.Kept) (more : Bool) (pollAt : Option Int) (policy : TimerPolicy) :
    (s.applyEffects more pollAt policy).Kept := by
  unfold Schedule.applyEffects
  split
  · rw [replaceTimer_none]
    exact (h.toOrdered.setContinuation true).cancelTimer.sendPoll h.cancelTimer
  · split
    · exact h
    · exact h.clearContinuation.replaceTimer rfl pollAt

theorem Ordered.dropTimer (h : s.Ordered) (htimers : s.timers = []) (hc : s.nativeContinuation = false) :
    (s.replaceTimer none).Kept := by
  rw [replaceTimer_none]
  exact h.cancelTimer.renewTimer (by simp [Schedule.cancelTimer, htimers]) hc none

/-- After a poll has been taken and the timer forgotten. -/
theorem Ordered.applyEffects (h : s.Ordered) (htimer : s.timer = none) (htimers : s.timers = []) (more : Bool)
    (pollAt : Option Int) : (s.applyEffects more pollAt .replaceTimer).Kept := by
  have hcancelled : s.cancelTimer.timers = [] := by simp [Schedule.cancelTimer, htimers]
  cases more with
  | true =>
      rw [Schedule.applyEffects, if_pos rfl, replaceTimer_none]
      exact (h.setContinuation true).cancelTimer.sendPoll hcancelled
  | false =>
      rw [Schedule.applyEffects, if_neg (by simp), if_neg (by simp), Schedule.replaceTimer,
        if_neg fun hsome => hsome.1 htimer]
      exact (h.setContinuation false).cancelTimer.renewTimer hcancelled rfl pollAt

theorem Kept.fire (h : s.Kept) {ref : Ref} (hfire : s.fire ref = some s') : s'.Kept := by
  unfold Schedule.fire at hfire
  rcases h.running with hnone | ⟨⟨timer, ht, hone⟩, habsent⟩
  · rw [hnone] at hfire
    cases hfire
  · rw [hone, List.find?_singleton] at hfire
    split at hfire
    · rename_i x generation heq
      split at heq
      · rename_i href
        cases heq
        obtain rfl := Option.some.inj hfire
        obtain rfl : timer.ref = ref := by simpa using href
        refine ⟨⟨?_, h.polled_le, h.polled⟩, ?_, ?_, .inl (by simp), h.polled_lt⟩
        · intro g hg
          rcases List.mem_append.1 hg with hg | hg
          · exact h.sent g hg
          · exact (List.mem_singleton.1 hg).le
        · exact fun _ => List.mem_append_right _ (List.mem_singleton.2 rfl)
        · exact fun _ _ => .inr (List.mem_append_right _ (List.mem_singleton.2 rfl))
      · cases heq
    · cases hfire

/-- The head of the mailbox is taken for a native poll. -/
theorem Kept.takePoll (h : s.Kept) {rest : List Generation} (hpolls : s.polls = s.timerGeneration :: rest) :
    ({ s with polls := rest, timer := none, polled := s.polled ++ [s.timerGeneration] } : Schedule).Ordered ∧
      s.timers = [] := by
  refine ⟨⟨?_, ?_, ?_⟩, h.idle (hpolls ▸ List.mem_cons_self)⟩
  · exact fun g hg => h.sent g (hpolls ▸ List.mem_cons_of_mem _ hg)
  · intro g hg
    rcases List.mem_append.1 hg with hg | hg
    · exact h.polled_le g hg
    · exact (List.mem_singleton.1 hg).le
  · rw [List.pairwise_append]
    refine ⟨h.polled, List.pairwise_singleton _ _, fun a ha b hb => ?_⟩
    rw [List.mem_singleton.1 hb]
    exact h.polled_lt a ha

/-- The head of the mailbox is a poll of an earlier generation. -/
theorem Kept.dropPoll (h : s.Kept) {generation : Generation} {rest : List Generation}
    (hpolls : s.polls = generation :: rest) (hstale : generation ≠ s.timerGeneration) :
    ({ s with polls := rest } : Schedule).Kept := by
  have hmem : s.timerGeneration ∈ s.polls → s.timerGeneration ∈ rest := by
    intro hin
    rw [hpolls, List.mem_cons] at hin
    exact hin.resolve_left hstale.symm
  refine ⟨⟨?_, h.polled_le, h.polled⟩, fun hc => hmem (h.current hc), ?_, ?_, h.polled_lt⟩
  · exact fun g hg => h.sent g (hpolls ▸ List.mem_cons_of_mem _ hg)
  · exact fun timer ht => (h.armed timer ht).imp_right hmem
  · exact h.running.imp_right fun ⟨hone, habsent⟩ =>
      ⟨hone, fun hin => habsent (hpolls ▸ List.mem_cons_of_mem _ hin)⟩

theorem polls_applyEffects (s : Schedule) (more : Bool) (pollAt : Option Int) (policy : TimerPolicy)
    (hpolls : s.polls ≠ []) : (s.applyEffects more pollAt policy).polls ≠ [] := by
  have hreplace : ∀ (s : Schedule) pollAt, (s.replaceTimer pollAt).polls = s.polls := by
    intro s pollAt
    unfold Schedule.replaceTimer
    cases pollAt <;> repeat' (first | rfl | split)
  unfold Schedule.applyEffects
  split
  · simp [Schedule.sendPoll]
  · split
    · exact hpolls
    · rw [hreplace]
      exact hpolls

theorem kept_start (more : Bool) (pollAt : Option Int) : (start.applyEffects more pollAt .replaceTimer).Kept := by
  refine Ordered.applyEffects ⟨?_, ?_, .nil⟩ rfl rfl more pollAt
  all_goals exact fun g hg => absurd hg List.not_mem_nil

end Schedule

end SmolNet.StackProcess
