import Mathlib
import SmolNet.Transition

/-!
# Socket monitors

`monitor` sets a relay process between a socket's process and the caller; `cancel` finds the relay in
a table and asks it to stop.  The caller, the relay, the two processes' exits and the delivery of
messages interleave freely; messages between two processes arrive in order, and operations on the
table are atomic.  Monitors have different references, so a state keeps one record for each.
-/

namespace SmolNet.Monitor

abbrev Pid := Nat

/-- The reference of a monitor that the caller sets on the relay; each call makes a new one. -/
abbrev Tag := Nat

/-- Why a process is down, as far as the relay tells reasons apart. -/
inductive Reason where
  | noproc | exit
deriving DecidableEq, Repr

inductive Info where
  | closed | nosock
deriving DecidableEq, Repr

def Reason.info : Reason → Info
  | .noproc => .nosock
  | .exit => .closed

inductive RelayMessage where
  | socketDown (reason : Reason)
  | ownerDown
  | cancel (tag : Tag)
deriving DecidableEq, Repr

inductive OwnerMessage where
  | ready
  | down (info : Info)
  | cancelled (tag : Tag)
  | relayDown (tag : Tag)
deriving DecidableEq, Repr

def OwnerMessage.info? : OwnerMessage → Option Info
  | .down info => some info
  | _ => none

/-- What a message tells the cancel that waits under `tag`. -/
def OwnerMessage.answer (tag : Tag) : OwnerMessage → Option Bool
  | .cancelled other => if other = tag then some true else none
  | .relayDown other => if other = tag then some false else none
  | _ => none

/-- How a relay came to its end. -/
inductive Ending where
  | reported (info : Info)
  | orphaned
  | cancelled (tag : Tag)
deriving DecidableEq, Repr

/-- What a relay reports at its end, after it has forgotten the reference. -/
def Ending.report : Ending → List OwnerMessage
  | .reported info => [.down info]
  | .orphaned => []
  | .cancelled tag => [.cancelled tag]

/-- The end that a message brings. -/
def RelayMessage.ending : RelayMessage → Ending
  | .socketDown reason => .reported reason.info
  | .ownerDown => .orphaned
  | .cancel tag => .cancelled tag

/-- What a relay does next. -/
inductive Relay where
  | monitorSocket | monitorOwner | insert | announce | receive
  | forgetThen (ending : Ending)
  | finish (ending : Ending)
  | exited (ending : Ending)
deriving DecidableEq, Repr

def Relay.hasExited : Relay → Bool
  | .exited _ => true
  | _ => false

/-- Where the calls of the owner stand. -/
inductive Caller where
  | creating | failed | idle
  | found
  | monitored (tag : Tag)
  | awaiting (tag : Tag)
deriving DecidableEq, Repr

/-- One monitor.  References are new, so a message that has been received or flushed is never matched
again: `sent` keeps what the relay has sent, of which the first `arrived` have arrived. -/
structure Entry where
  owner : Pid
  socket : Pid
  relay : Relay := .monitorSocket
  registered : Bool := false
  watchesSocket : Bool := false
  watchesOwner : Bool := false
  mailbox : List RelayMessage := []
  toRelay : List RelayMessage := []
  sent : List OwnerMessage := []
  arrived : Nat := 0
  watchers : List Tag := [0]
  nextTag : Tag := 1
  caller : Caller := .creating
  answers : List Bool := []
deriving DecidableEq, Repr

/-- What one monitor can do next. -/
inductive Move where
  | relay | caller
  | socketDown (reason : Reason)
  | ownerDown
  | toRelay | toOwner
  | cancel (pid : Pid)
deriving DecidableEq, Repr

namespace Entry

/-- What has arrived in the caller's mailbox. -/
def received (entry : Entry) : List OwnerMessage := entry.sent.take entry.arrived

/-- The messages of the monitor itself that the caller has got. -/
def downs (entry : Entry) : List Info := entry.received.filterMap OwnerMessage.info?

/-- The relay forgets the reference first and reports afterwards. -/
def relayStep (alive : Pid → Bool) (entry : Entry) : Option Entry :=
  match entry.relay with
  | .monitorSocket =>
      some (if alive entry.socket then { entry with relay := .monitorOwner, watchesSocket := true }
        else { entry with
          relay := .monitorOwner
          mailbox := entry.mailbox ++ [.socketDown .noproc] })
  | .monitorOwner =>
      some (if alive entry.owner then { entry with relay := .insert, watchesOwner := true }
        else { entry with relay := .insert, mailbox := entry.mailbox ++ [.ownerDown] })
  | .insert => some { entry with relay := .announce, registered := true }
  | .announce => some { entry with relay := .receive, sent := entry.sent ++ [.ready] }
  | .receive =>
      match entry.mailbox with
      | [] => none
      | message :: rest => some { entry with relay := .forgetThen message.ending, mailbox := rest }
  | .forgetThen ending => some { entry with relay := .finish ending, registered := false }
  | .finish ending =>
      -- The processes that monitor the relay learn of its exit after its last message.
      some { entry with
        relay := .exited ending
        sent := entry.sent ++ (ending.report ++ entry.watchers.map .relayDown)
        watchers := [] }
  | .exited _ => none

/-- The first message that the call which waits under `tag` takes. -/
def answer (entry : Entry) (tag : Tag) : Option Bool :=
  entry.received.findSome? (OwnerMessage.answer tag)

/-- `monitor` until it returns, and `cancel` after it has found the relay. -/
def callerStep (entry : Entry) : Option Entry :=
  match entry.caller with
  | .creating =>
      if .ready ∈ entry.received then
        some { entry with caller := .idle, watchers := entry.watchers.erase 0 }
      else if .relayDown 0 ∈ entry.received then some { entry with caller := .failed }
      else none
  | .found =>
      some (if entry.relay.hasExited then
          { entry with
            caller := .monitored entry.nextTag
            nextTag := entry.nextTag + 1
            sent := entry.sent ++ [.relayDown entry.nextTag] }
        else
          { entry with
            caller := .monitored entry.nextTag
            nextTag := entry.nextTag + 1
            watchers := entry.watchers ++ [entry.nextTag] })
  | .monitored tag =>
      some { entry with caller := .awaiting tag, toRelay := entry.toRelay ++ [.cancel tag] }
  | .awaiting tag =>
      (entry.answer tag).map fun answer =>
        { entry with
          caller := .idle
          answers := answer :: entry.answers
          watchers := entry.watchers.erase tag }
  | _ => none

/-- The look-up of `cancel`, with what the call returns if it returns here: a process that finds
nothing, or another's monitor, is told `false`. -/
def cancel (entry : Entry) (pid : Pid) : Option (Option Bool × Entry) :=
  if pid = entry.owner then
    if entry.caller = .idle then
      some (if entry.registered then (none, { entry with caller := .found })
        else (some false, { entry with answers := false :: entry.answers }))
    else none
  else some (some false, entry)

def step (alive : Pid → Bool) (entry : Entry) : Move → Option Entry
  | .relay => entry.relayStep alive
  | .caller => if alive entry.owner then entry.callerStep else none
  | .socketDown reason =>
      if entry.watchesSocket ∧ alive entry.socket = false then
        some { entry with
          watchesSocket := false
          mailbox := entry.mailbox ++ [.socketDown reason] }
      else none
  | .ownerDown =>
      -- What the owner sent before it exited comes first.
      if entry.watchesOwner ∧ alive entry.owner = false ∧ entry.toRelay = [] then
        some { entry with watchesOwner := false, mailbox := entry.mailbox ++ [.ownerDown] }
      else none
  | .toRelay =>
      match entry.toRelay with
      | [] => none
      | message :: rest =>
          some { entry with toRelay := rest, mailbox := entry.mailbox ++ [message] }
  | .toOwner =>
      if entry.arrived < entry.sent.length then some { entry with arrived := entry.arrived + 1 } else none
  | .cancel pid => if alive pid then (entry.cancel pid).map Prod.snd else none

end Entry

/-- All processes and all monitors; a process exits once. -/
structure State where
  alive : Pid → Bool
  entries : Nat → Option Entry

inductive Event where
  | exit (pid : Pid)
  | monitor (ref : Nat) (owner socket : Pid)
  | move (ref : Nat) (move : Move)
deriving DecidableEq, Repr

namespace State

def step (s : State) : Event → Option State
  | .exit pid => some { s with alive := Function.update s.alive pid false }
  | .monitor ref owner socket =>
      if s.alive owner ∧ s.entries ref = none then
        some { s with entries := Function.update s.entries ref (some { owner, socket }) }
      else none
  | .move ref move =>
      (s.entries ref).bind fun entry => (entry.step s.alive move).map fun entry' =>
        { s with entries := Function.update s.entries ref (some entry') }

def Initial (s : State) : Prop := ∀ ref, s.entries ref = none

end State

/-! ## What a monitor keeps -/

namespace Relay

/-- What the relay has said, its exit apart. -/
def spoken : Relay → List OwnerMessage
  | .monitorSocket | .monitorOwner | .insert | .announce => []
  | .receive | .forgetThen _ | .finish _ => [.ready]
  | .exited ending => .ready :: ending.report

/-- The end that the relay has come to. -/
def ending : Relay → Option Ending
  | .forgetThen ending | .finish ending | .exited ending => some ending
  | _ => none

/-- What the relay has told the owner of the socket. -/
def reports : Relay → List Info
  | .exited (.reported info) => [info]
  | _ => []

/-- The relay stands between its insertion into the table and its deletion. -/
def registered : Relay → Bool
  | .announce | .receive | .forgetThen _ => true
  | _ => false

end Relay

namespace Entry

variable {alive : Pid → Bool} {entry entry' : Entry}

/-- What has to be the case for a relay to end in this way. -/
def Justified (alive : Pid → Bool) (entry : Entry) : Ending → Prop
  | .reported _ => alive entry.socket = false
  | .orphaned => alive entry.owner = false
  | .cancelled tag => entry.caller = .awaiting tag

structure Consistent (alive : Pid → Bool) (entry : Entry) : Prop where
  registered : entry.registered = entry.relay.registered
  sent : ∃ tags : List Tag, entry.sent = entry.relay.spoken ++ tags.map .relayDown ∧
    (entry.relay.hasExited = false → tags = [])
  mail : entry.relay.hasExited = false → ∀ message ∈ entry.mailbox ++ entry.toRelay,
    entry.Justified alive message.ending
  ending : ∀ ending, entry.relay.ending = some ending →
    entry.Justified alive ending ∨ (∃ tag, ending = .cancelled tag) ∧ true ∈ entry.answers
  answered : true ∈ entry.answers → ∃ tag, entry.relay = .exited (.cancelled tag)
  announced : entry.caller ≠ .creating → entry.relay.spoken ≠ []

/-- A call that was told `false`, and was not told `true` before, has its message. -/
def Told (entry : Entry) : Prop :=
  entry.answers ≠ [] → true ∉ entry.answers → entry.downs ≠ []

theorem Consistent.new (alive : Pid → Bool) (owner socket : Pid) :
    Consistent alive { owner, socket } := by
  constructor <;> simp [Relay.registered, Relay.spoken, Relay.ending]

theorem Justified.exit {ending : Ending} (h : entry.Justified alive ending) (pid : Pid) :
    entry.Justified (Function.update alive pid false) ending := by
  have hdown : ∀ other, alive other = false → Function.update alive pid false other = false := by
    intro other hother
    rw [Function.update_apply]
    split
    · rfl
    · exact hother
  cases ending with
  | reported info => exact hdown _ h
  | orphaned => exact hdown _ h
  | cancelled tag => exact h

theorem Consistent.exit (h : Consistent alive entry) (pid : Pid) :
    Consistent (Function.update alive pid false) entry where
  registered := h.registered
  sent := h.sent
  mail hexited message hmem := (h.mail hexited message hmem).exit pid
  ending ending hending := (h.ending ending hending).imp_left fun hjustified => hjustified.exit pid
  answered := h.answered
  announced := h.announced

theorem Consistent.sent_spoken (h : Consistent alive entry) (hexited : entry.relay.hasExited = false) :
    entry.sent = entry.relay.spoken := by
  obtain ⟨tags, hsent, htags⟩ := h.sent
  rw [hsent, htags hexited, List.map_nil, List.append_nil]

/-- The relay goes on without coming to an end. -/
theorem Consistent.advance (h : Consistent alive entry) (hexited : entry.relay.hasExited = false)
    (hending : entry'.relay.ending = entry.relay.ending)
    (hregistered : entry'.registered = entry'.relay.registered)
    (hsent : entry'.sent = entry'.relay.spoken)
    (hspoken : entry.relay.spoken = [] ∨ entry'.relay.spoken = entry.relay.spoken)
    (hmail : ∀ message ∈ entry'.mailbox ++ entry'.toRelay,
      message ∈ entry.mailbox ++ entry.toRelay ∨ entry.Justified alive message.ending)
    (hsame : entry'.owner = entry.owner ∧ entry'.socket = entry.socket ∧ entry'.caller = entry.caller ∧
      entry'.answers = entry.answers) : Consistent alive entry' := by
  obtain ⟨howner, hsocket, hcaller, hanswers⟩ := hsame
  have hjustified : ∀ ending, entry.Justified alive ending → entry'.Justified alive ending := by
    intro ending hjustified
    cases ending with
    | reported info => exact (congrArg alive hsocket).trans hjustified
    | orphaned => exact (congrArg alive howner).trans hjustified
    | cancelled tag => exact hcaller.trans hjustified
  refine ⟨hregistered, ⟨[], by rw [hsent, List.map_nil, List.append_nil], fun _ => rfl⟩, ?_, ?_, ?_, ?_⟩
  · intro _ message hmem
    rcases hmail message hmem with hold | hnew
    · exact hjustified _ (h.mail hexited message hold)
    · exact hjustified _ hnew
  · intro ending hend
    rw [hending] at hend
    rw [hanswers]
    exact (h.ending ending hend).imp_left (hjustified ending)
  · intro htrue
    rw [hanswers] at htrue
    obtain ⟨tag, hrelay⟩ := h.answered htrue
    rw [hrelay] at hexited
    cases hexited
  · intro hcreating hnil
    rw [hcaller] at hcreating
    rcases hspoken with hempty | hequal
    · exact h.announced hcreating hempty
    · exact h.announced hcreating (hequal ▸ hnil)

theorem mem_posted {mailbox inFlight : List RelayMessage} {posted message : RelayMessage}
    (h : message ∈ mailbox ++ [posted] ++ inFlight) : message ∈ mailbox ++ inFlight ∨ message = posted := by
  simp only [List.mem_append, List.mem_singleton] at h ⊢
  tauto

theorem Consistent.not_answered (h : Consistent alive entry) (hexited : entry.relay.hasExited = false) :
    true ∉ entry.answers := by
  intro htrue
  obtain ⟨tag, hrelay⟩ := h.answered htrue
  rw [hrelay] at hexited
  cases hexited

/-- What was in flight arrives, or a process that is watched has exited. -/
theorem Consistent.post (h : Consistent alive entry) (posted : RelayMessage)
    (hposted : entry.Justified alive posted.ending) (watchesSocket watchesOwner : Bool) :
    Consistent alive { entry with mailbox := entry.mailbox ++ [posted], watchesSocket, watchesOwner } where
  registered := h.registered
  sent := h.sent
  mail hexited message hmem := by
    rcases mem_posted hmem with hold | rfl
    · exact h.mail hexited message hold
    · exact hposted
  ending := h.ending
  answered := h.answered
  announced := h.announced

theorem Consistent.relayStep (h : Consistent alive entry) (hstep : entry.relayStep alive = some entry') :
    Consistent alive entry' := by
  obtain ⟨owner, socket, relay, registered, watchesSocket, watchesOwner, mailbox, toRelay, sent, arrived, watchers,
    nextTag, caller, answers⟩ := entry
  cases relay with
  | monitorSocket =>
      obtain rfl := Option.some.inj hstep
      split
      · exact h.advance rfl rfl h.registered (h.sent_spoken rfl) (.inl rfl) (fun _ hmem => .inl hmem)
          ⟨rfl, rfl, rfl, rfl⟩
      · rename_i hdead
        have hposted := h.post (.socketDown .noproc) (Bool.eq_false_of_not_eq_true hdead) watchesSocket watchesOwner
        exact hposted.advance rfl rfl h.registered (h.sent_spoken rfl) (.inl rfl) (fun _ hmem => .inl hmem)
          ⟨rfl, rfl, rfl, rfl⟩
  | monitorOwner =>
      obtain rfl := Option.some.inj hstep
      split
      · exact h.advance rfl rfl h.registered (h.sent_spoken rfl) (.inl rfl) (fun _ hmem => .inl hmem)
          ⟨rfl, rfl, rfl, rfl⟩
      · rename_i hdead
        have hposted := h.post .ownerDown (Bool.eq_false_of_not_eq_true hdead) watchesSocket watchesOwner
        exact hposted.advance rfl rfl h.registered (h.sent_spoken rfl) (.inl rfl) (fun _ hmem => .inl hmem)
          ⟨rfl, rfl, rfl, rfl⟩
  | insert =>
      obtain rfl := Option.some.inj hstep
      exact h.advance rfl rfl rfl (h.sent_spoken rfl) (.inl rfl) (fun _ hmem => .inl hmem) ⟨rfl, rfl, rfl, rfl⟩
  | announce =>
      obtain rfl := Option.some.inj hstep
      exact h.advance rfl rfl h.registered (congrArg (· ++ [OwnerMessage.ready]) (h.sent_spoken rfl)) (.inl rfl)
        (fun _ hmem => .inl hmem) ⟨rfl, rfl, rfl, rfl⟩
  | receive =>
      cases mailbox with
      | nil => cases hstep
      | cons message rest =>
          obtain rfl := Option.some.inj hstep
          have hmail := List.forall_mem_cons.1 (h.mail rfl)
          refine ⟨h.registered, ⟨[], by simpa [Relay.spoken] using h.sent_spoken rfl, fun _ => rfl⟩,
            fun _ => hmail.2, ?_, fun htrue => (h.not_answered rfl htrue).elim, fun _ => List.cons_ne_nil _ _⟩
          intro ending hending
          obtain rfl := Option.some.inj hending
          exact .inl hmail.1
  | forgetThen ending =>
      obtain rfl := Option.some.inj hstep
      exact h.advance rfl rfl rfl (h.sent_spoken rfl) (.inr rfl) (fun _ hmem => .inl hmem) ⟨rfl, rfl, rfl, rfl⟩
  | finish ending =>
      obtain rfl := Option.some.inj hstep
      refine ⟨h.registered, ⟨watchers, ?_, fun hfalse => (Bool.false_ne_true hfalse.symm).elim⟩,
        fun hfalse => (Bool.false_ne_true hfalse.symm).elim, h.ending,
        fun htrue => (h.not_answered rfl htrue).elim, fun _ => List.cons_ne_nil _ _⟩
      change sent ++ _ = _
      rw [show sent = _ from h.sent_spoken rfl, ← List.append_assoc]
      rfl
  | exited ending => cases hstep

/-! ## The caller -/

theorem Justified.recall {ending : Ending} (h : entry.Justified alive ending)
    (hcaller : ∀ tag, entry.caller ≠ .awaiting tag) (howner : entry'.owner = entry.owner)
    (hsocket : entry'.socket = entry.socket) : entry'.Justified alive ending := by
  cases ending with
  | reported info => exact (congrArg alive hsocket).trans h
  | orphaned => exact (congrArg alive howner).trans h
  | cancelled tag => exact (hcaller tag h).elim

/-- A caller that awaits nothing goes on. -/
theorem Consistent.recall (h : Consistent alive entry) (hcaller : ∀ tag, entry.caller ≠ .awaiting tag)
    (hrelay : entry'.relay = entry.relay) (hregistered : entry'.registered = entry.registered)
    (howner : entry'.owner = entry.owner) (hsocket : entry'.socket = entry.socket)
    (hmailbox : entry'.mailbox = entry.mailbox)
    (hanswers : true ∈ entry'.answers ↔ true ∈ entry.answers)
    (hsent : ∃ tags : List Tag, entry'.sent = entry.sent ++ tags.map .relayDown ∧
      (entry.relay.hasExited = false → tags = []))
    (htoRelay : ∀ message ∈ entry'.toRelay, message ∈ entry.toRelay ∨
      ∃ tag, message = .cancel tag ∧ entry'.caller = .awaiting tag)
    (hannounced : entry.relay.spoken ≠ []) : Consistent alive entry' := by
  obtain ⟨tags, hsent, htags⟩ := hsent
  obtain ⟨old, hold, holdTags⟩ := h.sent
  refine ⟨?_, ⟨old ++ tags, ?_, fun hexited => ?_⟩, fun hexited message hmem => ?_,
    fun ending hending => ?_, fun htrue => ?_, fun _ => ?_⟩
  · rw [hregistered, hrelay, h.registered]
  · rw [hsent, hold, hrelay, List.map_append, List.append_assoc]
  · rw [hrelay] at hexited
    rw [holdTags hexited, htags hexited, List.append_nil]
  · rw [hrelay] at hexited
    have hmail := h.mail hexited
    rw [hmailbox, List.mem_append] at hmem
    rcases hmem with hmem | hmem
    · exact (hmail message (List.mem_append_left _ hmem)).recall hcaller howner hsocket
    · rcases htoRelay message hmem with hmem | ⟨tag, rfl, hawaits⟩
      · exact (hmail message (List.mem_append_right _ hmem)).recall hcaller howner hsocket
      · exact hawaits
  · rw [hrelay] at hending
    rw [hanswers]
    exact (h.ending ending hending).imp_left fun hjustified => hjustified.recall hcaller howner hsocket
  · rw [hrelay]
    exact h.answered (hanswers.1 htrue)
  · rw [hrelay]
    exact hannounced

/-- Where the relay has ended, all that it said itself has come before word of its exit. -/
theorem Consistent.spoken_prefix (h : Consistent alive entry) {tag : Tag}
    (hdown : .relayDown tag ∈ entry.received) :
    entry.relay.hasExited = true ∧ entry.relay.spoken <+: entry.received := by
  obtain ⟨tags, hsent, htags⟩ := h.sent
  have hsilent : .relayDown tag ∉ entry.relay.spoken := by
    cases entry.relay with
    | exited ending => cases ending <;> simp [Relay.spoken, Ending.report]
    | _ => simp [Relay.spoken]
  have hlater : entry.relay.spoken.length ≤ entry.arrived := by
    by_contra hshort
    rw [received, hsent, List.take_append_of_le_length (by omega)] at hdown
    exact hsilent (List.mem_of_mem_take hdown)
  refine ⟨?_, ?_⟩
  · by_contra hexited
    rw [Bool.not_eq_true] at hexited
    rw [received, hsent, htags hexited, List.map_nil, List.append_nil] at hdown
    exact hsilent (List.mem_of_mem_take hdown)
  · rw [received, hsent]
    exact List.prefix_take_iff.2 ⟨List.prefix_append _ _, hlater⟩

theorem downs_ne_nil {info : Info} (h : .down info ∈ entry.received) : entry.downs ≠ [] := by
  have hmem : info ∈ entry.downs := List.mem_filterMap.2 ⟨_, h, rfl⟩
  exact List.ne_nil_of_mem hmem

/-- An owner that is alive and has all that an ended relay said has its message, unless the monitor
was cancelled. -/
theorem Consistent.told_or_cancelled (h : Consistent alive entry) (halive : alive entry.owner = true)
    (hexited : entry.relay.hasExited = true) (hinitial : entry.relay.spoken <+: entry.received) :
    entry.downs ≠ [] ∨ ∃ tag, entry.relay = .exited (.cancelled tag) ∧
      (entry.caller = .awaiting tag ∨ true ∈ entry.answers) := by
  cases hrelay : entry.relay with
  | exited ending =>
      rw [hrelay] at hinitial
      cases ending with
      | reported info =>
          have hmem : .down info ∈ entry.received := hinitial.subset (by simp [Relay.spoken, Ending.report])
          exact .inl (downs_ne_nil hmem)
      | orphaned =>
          rcases h.ending .orphaned (by rw [hrelay]; rfl) with hdead | ⟨⟨tag, htag⟩, -⟩
          · rw [Justified, halive] at hdead
            cases hdead
          · cases htag
      | cancelled tag =>
          refine .inr ⟨tag, rfl, ?_⟩
          rcases h.ending (.cancelled tag) (by rw [hrelay]; rfl) with hawaits | ⟨-, htrue⟩
          · exact .inl hawaits
          · exact .inr htrue
  | _ =>
      rw [hrelay] at hexited
      cases hexited

theorem Consistent.cancelled_of_answer (h : Consistent alive entry) {tag : Tag}
    (hanswer : entry.answer tag = some true) : entry.relay = .exited (.cancelled tag) := by
  obtain ⟨message, hmem, hmessage⟩ := List.exists_of_findSome?_eq_some hanswer
  have hcancelled : message = .cancelled tag := by
    cases message with
    | cancelled other =>
        by_cases hother : other = tag
        · rw [hother]
        · simp [OwnerMessage.answer, hother] at hmessage
    | relayDown other => simp [OwnerMessage.answer] at hmessage
    | _ => simp [OwnerMessage.answer] at hmessage
  subst hcancelled
  obtain ⟨tags, hsent, -⟩ := h.sent
  have hspoken : .cancelled tag ∈ entry.relay.spoken := by
    have hmem' := List.mem_of_mem_take hmem
    rw [hsent, List.mem_append] at hmem'
    simpa using hmem'
  cases hrelay : entry.relay with
  | exited ending =>
      rw [hrelay] at hspoken
      cases ending <;> simp_all [Relay.spoken, Ending.report]
  | _ =>
      rw [hrelay] at hspoken
      simp [Relay.spoken] at hspoken

theorem relayDown_of_answer {tag : Tag} (hanswer : entry.answer tag = some false) :
    .relayDown tag ∈ entry.received := by
  obtain ⟨message, hmem, hmessage⟩ := List.exists_of_findSome?_eq_some hanswer
  cases message with
  | relayDown other =>
      by_cases hother : other = tag
      · rwa [hother] at hmem
      · simp [OwnerMessage.answer, hother] at hmessage
  | cancelled other => simp [OwnerMessage.answer] at hmessage
  | _ => simp [OwnerMessage.answer] at hmessage

/-- A relay that was cancelled by this call has answered before it exited. -/
theorem answer_of_cancelled {tag : Tag} (hrelay : entry.relay = .exited (.cancelled tag))
    (hinitial : entry.relay.spoken <+: entry.received) : entry.answer tag = some true := by
  rw [hrelay] at hinitial
  obtain ⟨rest, hreceived⟩ := hinitial
  rw [answer, ← hreceived]
  simp [Relay.spoken, Ending.report, List.findSome?_cons, OwnerMessage.answer]

/-- A call that is told `false` has its message, unless the monitor was cancelled before. -/
theorem Consistent.told_of_answer (h : Consistent alive entry) (halive : alive entry.owner = true)
    {tag : Tag} (hcaller : entry.caller = .awaiting tag) (hanswer : entry.answer tag = some false) :
    entry.downs ≠ [] ∨ true ∈ entry.answers := by
  obtain ⟨hexited, hinitial⟩ := h.spoken_prefix (relayDown_of_answer hanswer)
  rcases h.told_or_cancelled halive hexited hinitial with htold | ⟨other, hrelay, hawaits | htrue⟩
  · exact .inl htold
  · rw [hcaller] at hawaits
    obtain rfl := Caller.awaiting.inj hawaits
    rw [answer_of_cancelled hrelay hinitial] at hanswer
    cases hanswer
  · exact .inr htrue

theorem Consistent.answer (h : Consistent alive entry) {tag : Tag} {answer : Bool}
    (hcaller : entry.caller = .awaiting tag) (hanswer : entry.answer tag = some answer) :
    Consistent alive { entry with
      caller := .idle
      answers := answer :: entry.answers
      watchers := entry.watchers.erase tag } := by
  have hspoken := h.announced (by rw [hcaller]; simp)
  have hexited : entry.relay.hasExited = true := by
    cases answer with
    | true =>
        rw [h.cancelled_of_answer hanswer]
        rfl
    | false => exact (h.spoken_prefix (relayDown_of_answer hanswer)).1
  refine ⟨h.registered, h.sent, fun hlive => ?_, fun ending hending => ?_, fun htrue => ?_,
    fun _ => hspoken⟩
  · rw [hexited] at hlive
    cases hlive
  · rcases h.ending ending hending with hjustified | ⟨hcancelled, htrue⟩
    · cases ending with
      | reported info => exact .inl hjustified
      | orphaned => exact .inl hjustified
      | cancelled other =>
          -- The call that the relay was cancelled by is this one, so it is told `true`.
          rw [Justified, hcaller] at hjustified
          obtain rfl := Caller.awaiting.inj hjustified
          have hrelay : entry.relay = .exited (.cancelled tag) := by
            cases hrelay : entry.relay with
            | exited ending =>
                rw [hrelay] at hending
                rw [Option.some.inj hending]
            | _ =>
                rw [hrelay] at hexited
                cases hexited
          refine .inr ⟨⟨tag, rfl⟩, ?_⟩
          cases answer with
          | true => exact List.mem_cons_self
          | false =>
              have hinitial := (h.spoken_prefix (relayDown_of_answer hanswer)).2
              rw [answer_of_cancelled hrelay hinitial] at hanswer
              cases hanswer
    · exact .inr ⟨hcancelled, List.mem_cons_of_mem _ htrue⟩
  · cases answer with
    | true => exact ⟨tag, h.cancelled_of_answer hanswer⟩
    | false => exact h.answered (by simpa using htrue)

theorem Consistent.callerStep (h : Consistent alive entry) (hstep : entry.callerStep = some entry') :
    Consistent alive entry' := by
  have hspoken : ∀ message ∈ entry.received, entry.relay.spoken ≠ [] := by
    intro message hmem hnil
    obtain ⟨tags, hsent, htags⟩ := h.sent
    have hlive : entry.relay.hasExited = false := by
      cases hrelay : entry.relay with
      | exited ending =>
          rw [hrelay] at hnil
          cases hnil
      | _ => rfl
    have hmem' := List.mem_of_mem_take hmem
    rw [hsent, hnil, htags hlive] at hmem'
    cases hmem'
  obtain ⟨owner, socket, relay, registered, watchesSocket, watchesOwner, mailbox, toRelay, sent, arrived, watchers,
    nextTag, caller, answers⟩ := entry
  cases caller with
  | creating =>
      unfold Entry.callerStep at hstep
      dsimp only at hstep
      split at hstep
      · rename_i hready
        obtain rfl := Option.some.inj hstep
        exact h.recall (by simp) rfl rfl rfl rfl rfl Iff.rfl ⟨[], by simp, fun _ => rfl⟩
          (fun _ hmem => .inl hmem) (hspoken _ hready)
      · split at hstep
        · rename_i hdown
          obtain rfl := Option.some.inj hstep
          exact h.recall (by simp) rfl rfl rfl rfl rfl Iff.rfl ⟨[], by simp, fun _ => rfl⟩
            (fun _ hmem => .inl hmem) (hspoken _ hdown)
        · cases hstep
  | found =>
      obtain rfl := Option.some.inj hstep
      split
      · rename_i hexited
        refine h.recall (by simp) rfl rfl rfl rfl rfl Iff.rfl ⟨[nextTag], rfl, fun hlive => ?_⟩
          (fun _ hmem => .inl hmem) (h.announced (by simp))
        rw [hexited] at hlive
        cases hlive
      · exact h.recall (by simp) rfl rfl rfl rfl rfl Iff.rfl ⟨[], by simp, fun _ => rfl⟩
          (fun _ hmem => .inl hmem) (h.announced (by simp))
  | monitored tag =>
      obtain rfl := Option.some.inj hstep
      refine h.recall (by simp) rfl rfl rfl rfl rfl Iff.rfl ⟨[], by simp, fun _ => rfl⟩
        (fun message hmem => ?_) (h.announced (by simp))
      rcases List.mem_append.1 hmem with hmem | hmem
      · exact .inl hmem
      · exact .inr ⟨tag, List.mem_singleton.1 hmem, rfl⟩
  | awaiting tag =>
      obtain ⟨answer, hanswer, rfl⟩ := Option.map_eq_some_iff.1 hstep
      exact h.answer rfl hanswer
  | failed => cases hstep
  | idle => cases hstep

theorem Consistent.cancel (h : Consistent alive entry) {pid : Pid} {result : Option Bool}
    (hstep : entry.cancel pid = some (result, entry')) : Consistent alive entry' := by
  unfold Entry.cancel at hstep
  split at hstep
  · split at hstep
    · rename_i hidle
      have hawaits : ∀ tag, entry.caller ≠ .awaiting tag := by simp [hidle]
      have hspoken := h.announced (by simp [hidle])
      split at hstep
      · obtain ⟨rfl, rfl⟩ := Prod.mk.inj (Option.some.inj hstep)
        exact h.recall hawaits rfl rfl rfl rfl rfl Iff.rfl ⟨[], by simp, fun _ => rfl⟩
          (fun _ hmem => .inl hmem) hspoken
      · obtain ⟨rfl, rfl⟩ := Prod.mk.inj (Option.some.inj hstep)
        exact h.recall hawaits rfl rfl rfl rfl rfl (by simp) ⟨[], by simp, fun _ => rfl⟩
          (fun _ hmem => .inl hmem) hspoken
    · cases hstep
  · obtain ⟨rfl, rfl⟩ := Prod.mk.inj (Option.some.inj hstep)
    exact h

theorem Consistent.step (h : Consistent alive entry) {move : Move}
    (hstep : entry.step alive move = some entry') : Consistent alive entry' := by
  cases move with
  | relay => exact h.relayStep hstep
  | caller => exact h.callerStep (Option.ite_none_right_eq_some.1 hstep).2
  | socketDown reason =>
      obtain ⟨hdead, rfl⟩ := Transition.guarded hstep
      exact h.post (.socketDown reason) hdead.2 false entry.watchesOwner
  | ownerDown =>
      obtain ⟨hdead, rfl⟩ := Transition.guarded hstep
      exact h.post .ownerDown hdead.2.1 entry.watchesSocket false
  | toRelay =>
      rw [Entry.step] at hstep
      cases hflight : entry.toRelay with
      | nil =>
          rw [hflight] at hstep
          cases hstep
      | cons message rest =>
          rw [hflight] at hstep
          obtain rfl := Option.some.inj hstep
          refine ⟨h.registered, h.sent, fun hlive other hmem => ?_, h.ending, h.answered,
            h.announced⟩
          refine h.mail hlive other ?_
          rw [hflight]
          simpa using hmem
  | toOwner =>
      obtain ⟨-, rfl⟩ := Transition.guarded hstep
      exact ⟨h.registered, h.sent, h.mail, h.ending, h.answered, h.announced⟩
  | cancel pid =>
      obtain ⟨-, hmapped⟩ := Option.ite_none_right_eq_some.1 hstep
      obtain ⟨⟨result, changed⟩, hcancel, rfl⟩ := Option.map_eq_some_iff.1 hmapped
      exact h.cancel hcancel

/-- What a move answers to the owner's call: nothing, what the call has received, or what its look-up
has found. -/
inductive Answers (alive : Pid → Bool) (entry : Entry) (move : Move) : List Bool → Prop
  | nothing : Answers alive entry move entry.answers
  | received {tag : Tag} {answer : Bool} : entry.caller = .awaiting tag → entry.answer tag = some answer →
      alive entry.owner = true → Answers alive entry move (answer :: entry.answers)
  | unlisted : move = .cancel entry.owner → entry.registered = false → entry.caller = .idle →
      alive entry.owner = true → Answers alive entry move (false :: entry.answers)

/-- A move only adds to what was sent, to what has arrived and to the answers. -/
structure Extends (alive : Pid → Bool) (entry : Entry) (move : Move) (entry' : Entry) : Prop where
  owner : entry'.owner = entry.owner
  socket : entry'.socket = entry.socket
  sent : entry.sent <+: entry'.sent
  arrived : entry.arrived ≤ entry'.arrived
  answers : Answers alive entry move entry'.answers

theorem relayStep_extends (hstep : entry.relayStep alive = some entry') :
    Extends alive entry .relay entry' := by
  unfold Entry.relayStep at hstep
  split at hstep
  · obtain rfl := Option.some.inj hstep
    split <;> exact ⟨rfl, rfl, List.prefix_rfl, le_rfl, .nothing⟩
  · obtain rfl := Option.some.inj hstep
    split <;> exact ⟨rfl, rfl, List.prefix_rfl, le_rfl, .nothing⟩
  · obtain rfl := Option.some.inj hstep
    exact ⟨rfl, rfl, List.prefix_rfl, le_rfl, .nothing⟩
  · obtain rfl := Option.some.inj hstep
    exact ⟨rfl, rfl, List.prefix_append _ _, le_rfl, .nothing⟩
  · split at hstep
    · cases hstep
    · obtain rfl := Option.some.inj hstep
      exact ⟨rfl, rfl, List.prefix_rfl, le_rfl, .nothing⟩
  · obtain rfl := Option.some.inj hstep
    exact ⟨rfl, rfl, List.prefix_rfl, le_rfl, .nothing⟩
  · obtain rfl := Option.some.inj hstep
    exact ⟨rfl, rfl, List.prefix_append _ _, le_rfl, .nothing⟩
  · cases hstep

theorem callerStep_extends (halive : alive entry.owner = true) (hstep : entry.callerStep = some entry') :
    Extends alive entry .caller entry' := by
  unfold Entry.callerStep at hstep
  split at hstep
  · split at hstep
    · obtain rfl := Option.some.inj hstep
      exact ⟨rfl, rfl, List.prefix_rfl, le_rfl, .nothing⟩
    · split at hstep
      · obtain rfl := Option.some.inj hstep
        exact ⟨rfl, rfl, List.prefix_rfl, le_rfl, .nothing⟩
      · cases hstep
  · obtain rfl := Option.some.inj hstep
    split
    · exact ⟨rfl, rfl, List.prefix_append _ _, le_rfl, .nothing⟩
    · exact ⟨rfl, rfl, List.prefix_rfl, le_rfl, .nothing⟩
  · obtain rfl := Option.some.inj hstep
    exact ⟨rfl, rfl, List.prefix_rfl, le_rfl, .nothing⟩
  · rename_i tag hcaller
    obtain ⟨answer, hanswer, rfl⟩ := Option.map_eq_some_iff.1 hstep
    exact ⟨rfl, rfl, List.prefix_rfl, le_rfl, .received hcaller hanswer halive⟩
  · cases hstep

theorem cancel_extends {pid : Pid} {result : Option Bool} (halive : alive pid = true)
    (hstep : entry.cancel pid = some (result, entry')) : Extends alive entry (.cancel pid) entry' := by
  unfold Entry.cancel at hstep
  split at hstep
  · rename_i howner
    subst howner
    split at hstep
    · rename_i hidle
      split at hstep
      · obtain ⟨rfl, rfl⟩ := Prod.mk.inj (Option.some.inj hstep)
        exact ⟨rfl, rfl, List.prefix_rfl, le_rfl, .nothing⟩
      · rename_i hunlisted
        obtain ⟨rfl, rfl⟩ := Prod.mk.inj (Option.some.inj hstep)
        exact ⟨rfl, rfl, List.prefix_rfl, le_rfl, .unlisted rfl (by simpa using hunlisted) hidle halive⟩
    · cases hstep
  · obtain ⟨rfl, rfl⟩ := Prod.mk.inj (Option.some.inj hstep)
    exact ⟨rfl, rfl, List.prefix_rfl, le_rfl, .nothing⟩

theorem step_extends {move : Move} (hstep : entry.step alive move = some entry') :
    Extends alive entry move entry' := by
  cases move with
  | relay => exact relayStep_extends hstep
  | caller =>
      obtain ⟨halive, hcaller⟩ := Option.ite_none_right_eq_some.1 hstep
      exact callerStep_extends halive hcaller
  | socketDown reason | ownerDown =>
      obtain ⟨-, rfl⟩ := Transition.guarded hstep
      exact ⟨rfl, rfl, List.prefix_rfl, le_rfl, .nothing⟩
  | toRelay =>
      rw [Entry.step] at hstep
      split at hstep
      · cases hstep
      · obtain rfl := Option.some.inj hstep
        exact ⟨rfl, rfl, List.prefix_rfl, le_rfl, .nothing⟩
  | toOwner =>
      obtain ⟨-, rfl⟩ := Transition.guarded hstep
      exact ⟨rfl, rfl, List.prefix_rfl, Nat.le_succ _, .nothing⟩
  | cancel pid =>
      obtain ⟨halive, hmapped⟩ := Option.ite_none_right_eq_some.1 hstep
      obtain ⟨⟨result, changed⟩, hcancel, rfl⟩ := Option.map_eq_some_iff.1 hmapped
      exact cancel_extends halive hcancel

theorem Extends.downs {move : Move} (h : Extends alive entry move entry')
    (hdowns : entry.downs ≠ []) : entry'.downs ≠ [] := by
  have hinitial : entry.received <+: entry'.received := by
    refine List.prefix_take_iff.2 ⟨(List.take_prefix _ _).trans h.sent, ?_⟩
    rw [received, List.length_take]
    exact (Nat.min_le_left _ _).trans h.arrived
  obtain ⟨info, hinfo⟩ := List.exists_mem_of_ne_nil _ hdowns
  exact List.ne_nil_of_mem ((hinitial.filterMap _).subset hinfo)

/-- The look-up of a cancel comes while the relay is listed, or after all that it sent has arrived. -/
def Timely (entry : Entry) : Prop :=
  entry.registered = true ∨ (entry.relay.hasExited = true ∧ entry.arrived = entry.sent.length)

instance (entry : Entry) : Decidable entry.Timely := inferInstanceAs (Decidable (_ ∨ _))

theorem Told.step (hconsistent : Consistent alive entry) (h : entry.Told) {move : Move}
    (htimely : move = .cancel entry.owner → entry.Timely) (hstep : entry.step alive move = some entry') :
    entry'.Told := by
  have hextends := step_extends hstep
  have hanswers := hextends.answers
  intro hne htrue
  generalize entry'.answers = answers at hanswers hne htrue
  cases hanswers with
  | nothing => exact hextends.downs (h hne htrue)
  | @received tag answer hcaller hanswer halive =>
      cases answer with
      | true => simp at htrue
      | false =>
          rcases hconsistent.told_of_answer halive hcaller hanswer with hdowns | hbefore
          · exact hextends.downs hdowns
          · simp [hbefore] at htrue
  | unlisted hmove hunlisted hidle halive =>
      rcases htimely hmove with hlisted | ⟨hexited, harrived⟩
      · rw [hunlisted] at hlisted
        cases hlisted
      · obtain ⟨tags, hsent, -⟩ := hconsistent.sent
        have hinitial : entry.relay.spoken <+: entry.received := by
          rw [received, harrived, List.take_length, hsent]
          exact List.prefix_append _ _
        rcases hconsistent.told_or_cancelled halive hexited hinitial with hdowns | ⟨tag, -, hawaits | hbefore⟩
        · exact hextends.downs hdowns
        · rw [hidle] at hawaits
          cases hawaits
        · simp [hbefore] at htrue

theorem Consistent.downs_prefix (h : Consistent alive entry) : entry.downs <+: entry.relay.reports := by
  obtain ⟨tags, hsent, -⟩ := h.sent
  have hinitial := (List.take_prefix entry.arrived entry.sent).filterMap OwnerMessage.info?
  have hsaid : entry.sent.filterMap OwnerMessage.info? = entry.relay.reports := by
    have hrest : (tags.map OwnerMessage.relayDown).filterMap OwnerMessage.info? = [] := by
      simp [OwnerMessage.info?]
    rw [hsent, List.filterMap_append, hrest, List.append_nil]
    cases entry.relay with
    | exited ending => cases ending <;> rfl
    | _ => rfl
  rwa [hsaid] at hinitial

/-- A monitor sends its message once at most, after the socket's process has exited, and never when a
cancel was told `true`. -/
theorem Consistent.downs_spec (h : Consistent alive entry) :
    entry.downs.length ≤ 1 ∧ (entry.downs ≠ [] → alive entry.socket = false) ∧
      (true ∈ entry.answers → entry.downs = []) := by
  have hinitial := h.downs_prefix
  by_cases hreported : ∃ info, entry.relay = .exited (.reported info)
  · obtain ⟨info, hrelay⟩ := hreported
    rw [hrelay] at hinitial
    refine ⟨hinitial.length_le, fun _ => ?_, fun htrue => ?_⟩
    · rcases h.ending (.reported info) (by rw [hrelay]; rfl) with hdead | ⟨⟨tag, htag⟩, -⟩
      · exact hdead
      · cases htag
    · obtain ⟨tag, hcancelled⟩ := h.answered htrue
      rw [hrelay] at hcancelled
      cases hcancelled
  · have hreports : entry.relay.reports = [] := by
      unfold Relay.reports
      split
      · rename_i info hrelay
        exact (hreported ⟨info, hrelay⟩).elim
      · rfl
    rw [hreports] at hinitial
    rw [List.prefix_nil.1 hinitial]
    exact ⟨Nat.zero_le _, fun hne => (hne rfl).elim, fun _ => rfl⟩

end Entry

/-! ## Runs -/

namespace State

variable {s s' : State}

/-- No owner looks its monitor up between the relay's deletion of the reference and the arrival of
what the relay sends afterwards. -/
def Timely (s : State) : Event → Prop
  | .move ref (.cancel pid) =>
      match s.entries ref with
      | some entry => pid = entry.owner → entry.Timely
      | none => True
  | _ => True

instance (s : State) : ∀ event, Decidable (s.Timely event)
  | .move ref (.cancel pid) =>
      match h : s.entries ref with
      | some entry => decidable_of_iff (pid = entry.owner → entry.Timely) (by simp [Timely, h])
      | none => isTrue (by simp [Timely, h])
  | .exit _ | .monitor _ _ _ => isTrue trivial
  | .move _ .relay | .move _ .caller | .move _ (.socketDown _) | .move _ .ownerDown | .move _ .toRelay
  | .move _ .toOwner => isTrue trivial

/-- What holds of every monitor; that whoever was told `false` has the message is known only where the owners
look their monitors up in time. -/
def Linear (timely : Prop) (s : State) : Prop :=
  ∀ ref entry, s.entries ref = some entry → entry.Consistent s.alive ∧ (timely → entry.Told)

variable {P : Prop}

theorem Linear.update (h : Linear P s) (ref : Nat) {entry : Entry} (hentry : entry.Consistent s.alive)
    (htold : P → entry.Told) : Linear P { s with entries := Function.update s.entries ref (some entry) } := by
  intro other found hfound
  dsimp only at hfound
  by_cases hother : other = ref
  · rw [hother, Function.update_self] at hfound
    obtain rfl := Option.some.inj hfound
    exact ⟨hentry, htold⟩
  · rw [Function.update_of_ne hother] at hfound
    exact h other found hfound

theorem Linear.step (h : Linear P s) {event : Event} (htimely : P → s.Timely event)
    (hstep : s.step event = some s') : Linear P s' := by
  cases event with
  | exit pid =>
      obtain rfl := Option.some.inj hstep
      exact fun ref entry hentry => ⟨(h ref entry hentry).1.exit pid, (h ref entry hentry).2⟩
  | monitor ref owner socket =>
      obtain ⟨-, rfl⟩ := Transition.guarded hstep
      exact h.update ref (.new s.alive owner socket) fun _ hne => (hne rfl).elim
  | move ref move =>
      obtain ⟨entry, hentry, hmoved⟩ := Option.bind_eq_some_iff.1 hstep
      obtain ⟨entry', hmove, rfl⟩ := Option.map_eq_some_iff.1 hmoved
      obtain ⟨hconsistent, htold⟩ := h ref entry hentry
      refine h.update ref (hconsistent.step hmove) fun hP =>
        (htold hP).step hconsistent (fun hcancel => ?_) hmove
      subst hcancel
      have hintime := htimely hP
      simp only [Timely, hentry] at hintime
      exact hintime trivial

theorem reaches_consistent {ok : State → Event → Prop} (hok : ∀ s event, ok s event → P → s.Timely event)
    (h : Transition.Reaches State.step ok State.Initial s) : Linear P s := by
  refine h.invariant (P := Linear P) ?_ fun t event t' ht hevent hstep => ht.step (hok t event hevent) hstep
  intro t ht other found hfound
  rw [ht other] at hfound
  cases hfound

/-- In every run: a cancel that was told `true` is followed by no message; there is one message at most, after
the socket's process has exited; and another process's cancel is told `false` and changes nothing.  Where owners
look their monitors up in time, a cancel that was told `false`, with no `true` before it, has its message. -/
theorem reaches_linear (h : Transition.Reaches State.step (fun _ _ => True) State.Initial s) {ref : Nat}
    {entry : Entry} (hentry : s.entries ref = some entry) :
    (true ∈ entry.answers → entry.downs = []) ∧
      entry.downs.length ≤ 1 ∧ (entry.downs ≠ [] → s.alive entry.socket = false) ∧
      (∀ pid, pid ≠ entry.owner → entry.cancel pid = some (some false, entry)) ∧
      (Transition.Reaches State.step State.Timely State.Initial s →
        entry.answers ≠ [] → true ∉ entry.answers → entry.downs ≠ []) := by
  have hlinear : Linear False s := reaches_consistent (fun _ _ _ hfalse => hfalse.elim) h
  obtain ⟨honce, hafter, hcancelled⟩ := (hlinear ref entry hentry).1.downs_spec
  refine ⟨hcancelled, honce, hafter, fun pid hpid => ?_, fun htimely => ?_⟩
  · rw [Entry.cancel, if_neg hpid]
  · have htold : Linear True s := reaches_consistent (fun _ _ hevent _ => hevent) htimely
    exact (htold ref entry hentry).2 trivial

/-- All processes are alive, and there are no monitors. -/
def start : State := ⟨fun _ => true, fun _ => none⟩

theorem start_initial : start.Initial := fun _ => rfl

/-- Process 1 monitors process 2 under the reference 0, until the call returns. -/
def monitors : List Event :=
  .monitor 0 1 2 :: List.replicate 4 (.move 0 .relay) ++ [.move 0 .toOwner, .move 0 .caller]

/-- The socket's process exits and the relay forgets the reference; its message is still to come. -/
def forgets : List Event :=
  [.exit 2, .move 0 (.socketDown .exit), .move 0 .relay, .move 0 .relay]

/-- The relay reports, and what it has sent arrives. -/
def reports : List Event := [.move 0 .relay, .move 0 .toOwner]

/-- What can be seen of process 1 and of its monitor. -/
def view (s : State) : Bool × Option (Pid × List Bool × List Info) :=
  (s.alive 1, (s.entries 0).map fun entry => (entry.owner, entry.answers, entry.downs))

theorem view_eq {alive : Bool} {owner : Pid} {answers : List Bool} {downs : List Info}
    (h : s.view = (alive, some (owner, answers, downs))) : s.alive 1 = alive ∧ ∃ entry,
      s.entries 0 = some entry ∧ entry.owner = owner ∧ entry.answers = answers ∧ entry.downs = downs := by
  obtain ⟨halive, hview⟩ := Prod.mk.inj h
  obtain ⟨entry, hentry, hfields⟩ := Option.map_eq_some_iff.1 hview
  simp only [Prod.mk.injEq] at hfields
  exact ⟨halive, entry, hentry, hfields⟩

theorem reported_in_time : ∃ s, Transition.Reaches State.step State.Timely State.Initial s ∧
    ∃ entry, s.entries 0 = some entry ∧ entry.answers = [false] ∧ entry.downs ≠ [] := by
  have hrun : (Transition.execute step Timely start
      (monitors ++ forgets ++ reports ++ [.move 0 (.cancel 1)])).map view =
        some (true, some (1, [false], [.closed])) := by decide +kernel
  obtain ⟨s, hreaches, hview⟩ := (Transition.Reaches.start start_initial).observe hrun
  obtain ⟨-, entry, hentry, -, hanswers, -⟩ := view_eq hview
  obtain ⟨-, -, -, -, htold⟩ := reaches_linear (hreaches.mono fun _ _ _ => trivial) hentry
  exact ⟨s, hreaches, entry, hentry, hanswers, htold hreaches (by simp [hanswers]) (by simp [hanswers])⟩

/-- A cancel in between is told `false` while its message is still to be sent. -/
theorem cancel_before_report : ∃ s, Transition.Reaches State.step (fun _ _ => True) State.Initial s ∧
    s.alive 1 = true ∧ ∃ entry, s.entries 0 = some entry ∧ entry.owner = 1 ∧
      entry.answers = [false] ∧ entry.downs = [] := by
  have hrun : (Transition.execute step (fun _ _ => True) start
      (monitors ++ forgets ++ [.move 0 (.cancel 1)])).map view = some (true, some (1, [false], [])) := by
    decide +kernel
  obtain ⟨s, hreaches, hview⟩ := (Transition.Reaches.start start_initial).observe hrun
  exact ⟨s, hreaches, view_eq hview⟩

end State

end SmolNet.Monitor
