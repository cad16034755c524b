import SmolNet.Resources

/-!
# The accounts of waiters

The history of a run says what happened to each waiter.  Steps fill and empty the slots of the socket
table and log it, so the history determines what the slots hold: each waiter that was armed leaves its
slot by one event, and each aborted one is owed a notification until that is sent.
-/

namespace SmolNet

open Std TreeMap

/-! ## The life of a slot -/

namespace WaiterEvent

/-- The key whose slot the event fills or empties. -/
def slotKey? : WaiterEvent → Option ReadyKey
  | .armed key _ | .selected key _ | .aborted key _ | .cancelled key _ => some key
  | .fired _ | .notified .. => none

/-- What the event makes of a slot; `none` if it cannot happen to one that holds this. -/
def act : WaiterEvent → Option Waiter → Option (Option Waiter)
  | .armed _ waiter, none => some (some waiter)
  | .selected _ waiter, some held => if held = waiter then some none else none
  | .aborted _ waiter, some held => if held = waiter then some none else none
  | .cancelled _ waiter, some held => if held = waiter then some none else none
  | _, _ => none

/-- What the event makes of the sent slot. -/
def remember : WaiterEvent → Option Waiter → Option Waiter
  | .armed .., _ => none
  | .selected _ waiter, _ => some waiter
  | _, sent => sent

/-- The notification that an abort owes. -/
def owes : WaiterEvent → Option PendingNotification
  | .aborted key waiter => some ⟨key.identity, key.direction, waiter⟩
  | _ => none

/-- The notification that has been sent. -/
def pays : WaiterEvent → Option PendingNotification
  | .notified key waiter _ => some ⟨key.identity, key.direction, waiter⟩
  | _ => none

end WaiterEvent

/-- The events that fill and empty the slot of a key, in order. -/
def lifeline (key : ReadyKey) (events : List WaiterEvent) : List WaiterEvent :=
  events.filter fun event => event.slotKey? = some key

/-- Whether the waker of `key` has fired since its slot was last filled or emptied. -/
def firedSince (key : ReadyKey) (events : List WaiterEvent) : Bool :=
  events.foldl (fun fired event => if event.slotKey? = some key then false else fired || decide (event = .fired key))
    false

/-- The events of `key` are those of a slot that is filled and emptied in turn, by the same waiter
each time, and that now holds `slot`. -/
def Occupies (key : ReadyKey) (events : List WaiterEvent) (slot : Option Waiter) : Prop :=
  (lifeline key events).foldlM (fun slot event => event.act slot) none = some slot

section

variable {key : ReadyKey} {events later : List WaiterEvent} {slot slot' : Option Waiter}

theorem lifeline_append :
    lifeline key (events ++ later) = lifeline key events ++ lifeline key later := List.filter_append ..

theorem lifeline_singleton {event : WaiterEvent} (h : event.slotKey? = some key) (other : ReadyKey) :
    lifeline other [event] = if other = key then [event] else [] := by
  unfold lifeline
  rw [List.filter_singleton, h]
  by_cases hkey : other = key
  · simp [hkey]
  · simp [hkey, Ne.symm hkey]

theorem lifeline_eq_nil (h : ∀ event ∈ later, event.slotKey? ≠ some key) : lifeline key later = [] := by
  simpa [lifeline, List.filter_eq_nil_iff] using h

theorem firedSince_concat (event : WaiterEvent) : firedSince key (events ++ [event]) =
    if event.slotKey? = some key then false else firedSince key events || decide (event = .fired key) := by
  simp [firedSince]

theorem firedSince_append : firedSince key (events ++ later) = true ↔
    firedSince key later = true ∨ firedSince key events = true ∧ lifeline key later = [] := by
  induction later using List.reverseRecOn with
  | nil => simp [firedSince, lifeline]
  | append_singleton later event ih =>
      rw [← List.append_assoc, firedSince_concat, firedSince_concat, lifeline_append]
      by_cases hkey : event.slotKey? = some key
      · simp [hkey, lifeline_singleton hkey]
      · have hnil : lifeline key [event] = [] := lifeline_eq_nil (by simpa using hkey)
        simp only [if_neg hkey, Bool.or_eq_true, ih, hnil, List.append_nil]
        tauto

theorem firedSince_eq_false (h : .fired key ∉ events) : firedSince key events = false := by
  induction events using List.reverseRecOn with
  | nil => rfl
  | append_singleton events event ih =>
      simp only [List.mem_append, List.mem_singleton, not_or] at h
      simp [firedSince_concat, ih h.1, Ne.symm h.2]

theorem Occupies.append (h : Occupies key events slot)
    (hlater : (lifeline key later).foldlM (fun slot event => event.act slot) slot = some slot') :
    Occupies key (events ++ later) slot' := by
  unfold Occupies at *
  rw [lifeline_append, List.foldlM_append, h]
  exact hlater

/-- Only arming leaves a waiter in the slot. -/
theorem WaiterEvent.eq_armed {event : WaiterEvent} {waiter : Waiter} (h : event.act slot = some (some waiter))
    (hkey : event.slotKey? = some key) : event = .armed key waiter := by
  cases event with
  | armed other armed =>
      cases slot with
      | none =>
          cases h
          cases hkey
          rfl
      | some held => cases h
  | selected other waiter => cases slot <;> simp [act] at h
  | aborted other waiter => cases slot <;> simp [act] at h
  | cancelled other waiter => cases slot <;> simp [act] at h
  | fired _ => cases hkey
  | notified _ _ _ => cases hkey

/-- A slot that holds a waiter was last touched when it was armed. -/
theorem Occupies.last_armed {waiter : Waiter} (h : Occupies key events (some waiter)) :
    ∃ earlier, lifeline key events = earlier ++ [.armed key waiter] := by
  have hkeys : ∀ event ∈ lifeline key events, event.slotKey? = some key := by
    intro event hevent
    simpa using (List.mem_filter.1 hevent).2
  unfold Occupies at h
  rcases List.eq_nil_or_concat (lifeline key events) with hnil | ⟨earlier, event, hlast⟩
  · rw [hnil] at h
    cases h
  · rw [List.concat_eq_append] at hlast
    have hkey := hkeys event (by simp [hlast])
    rw [hlast, List.foldlM_append] at h
    obtain ⟨before, -, hact⟩ := Option.bind_eq_some_iff.1 h
    have hact : event.act before = some (some waiter) := by simpa using hact
    exact ⟨earlier, by rw [hlast, WaiterEvent.eq_armed hact hkey]⟩

end

/-! ## Entries -/

namespace SocketEntry

theorem length_waiters (entry : SocketEntry) :
    entry.waiters.length = entry.readWaiter.toList.length + entry.writeWaiter.toList.length := by
  cases hread : entry.readWaiter <;> cases hwrite : entry.writeWaiter <;> simp [waiters, hread, hwrite]

/-- Only the slot of one direction changes. -/
structure Turns (entry : SocketEntry) (direction : Direction) (changed : SocketEntry) : Prop where
  waiter : ∀ other, other ≠ direction → changed.waiter other = entry.waiter other
  sent : ∀ other, other ≠ direction → changed.sent other = entry.sent other

theorem length_turns {entry changed : SocketEntry} {direction : Direction}
    (h : entry.Turns direction changed) :
    changed.waiters.length + (entry.waiter direction).toList.length =
      entry.waiters.length + (changed.waiter direction).toList.length := by
  rw [length_waiters, length_waiters]
  cases direction with
  | read =>
      have hother : changed.writeWaiter = entry.writeWaiter := h.waiter .write (fun h => nomatch h)
      simp only [SocketEntry.waiter, hother]
      omega
  | write =>
      have hother : changed.readWaiter = entry.readWaiter := h.waiter .read (fun h => nomatch h)
      simp only [SocketEntry.waiter, hother]
      omega

theorem length_waiters_le (entry : SocketEntry) : entry.waiters.length ≤ 2 := by
  have hle : ∀ waiter : Option Waiter, waiter.toList.length ≤ 1 := by
    intro waiter
    cases waiter <;> simp
  have := hle entry.readWaiter
  have := hle entry.writeWaiter
  rw [length_waiters]
  omega

/-- An entry with an empty slot holds one waiter at most. -/
theorem length_waiters_lt {entry : SocketEntry} {direction : Direction}
    (h : entry.waiter direction = none) : entry.waiters.length < 2 := by
  have hle : ∀ waiter : Option Waiter, waiter.toList.length ≤ 1 := by
    intro waiter
    cases waiter <;> simp
  have := hle entry.readWaiter
  have := hle entry.writeWaiter
  rw [length_waiters]
  cases direction <;> simp only [waiter] at h <;> simp only [h, Option.toList_none, List.length_nil] <;> omega

end SocketEntry

namespace SocketTable

variable {table table' : SocketTable} {identity : SocketIdentity} {entry changed : SocketEntry}

/-- The lookups of a table in which one identity has a new entry. -/
theorem lookup_insert (h : ∀ generation other, table.entries[identity.id]? = some (generation, other) →
    generation = identity.generation)
    (hentries : table'.entries = table.entries.insert identity.id (identity.generation, changed))
    (other : SocketIdentity) :
    table'.lookup other = if other = identity then some changed else table.lookup other := by
  unfold lookup
  rw [hentries, ExtTreeMap.getElem?_insert]
  by_cases hid : identity.id = other.id
  · rw [if_pos (Std.compare_eq_iff_eq.2 hid), ← hid]
    by_cases hother : other = identity
    · simp [hother]
    · have hgeneration : identity.generation ≠ other.generation := by
        intro hgeneration
        apply hother
        cases other
        cases identity
        simp_all
      simp only [hother, hgeneration, if_false]
      cases hfound : table.entries[identity.id]? with
      | none => rfl
      | some found => simp [h found.1 found.2 hfound, hgeneration]
  · rw [if_neg (by rwa [Std.compare_eq_iff_eq])]
    rw [if_neg (fun h => hid (by rw [h]))]

theorem generation_of_lookup (h : table.lookup identity = some entry) (generation : Nat)
    (other : SocketEntry) (hother : table.entries[identity.id]? = some (generation, other)) :
    generation = identity.generation := by
  rw [lookup_eq_some.1 h] at hother
  exact (congrArg Prod.fst (Option.some.inj hother)).symm

/-- The lookups of a table from which one identity has been removed. -/
theorem lookup_erase (h : table.lookup identity = some entry)
    (hentries : table'.entries = table.entries.erase identity.id) (other : SocketIdentity) :
    table'.lookup other = if other = identity then none else table.lookup other := by
  have hgeneration := generation_of_lookup h
  unfold lookup at *
  rw [hentries, ExtTreeMap.getElem?_erase]
  by_cases hid : identity.id = other.id
  · rw [if_pos (Std.compare_eq_iff_eq.2 hid), ← hid]
    by_cases hother : other = identity
    · simp [hother]
    · simp only [hother, if_false]
      cases hfound : table.entries[identity.id]? with
      | none => rfl
      | some found =>
          refine (if_neg fun hsame => hother ?_).symm
          have := hgeneration found.1 found.2 hfound
          cases other
          cases identity
          simp_all
  · rw [if_neg (by rwa [Std.compare_eq_iff_eq])]
    rw [if_neg (fun h => hid (by rw [h]))]

theorem flag_clearFlag_of_ne {key cleared : ReadyKey} (hne : key ≠ cleared) (h : table.flag key = true) :
    (table.clearFlag cleared).flag key = true := by
  unfold flag clearFlag at *
  rw [ExtTreeSet.contains_erase, h, Bool.and_true]
  simpa using Ne.symm hne

/-- A waiter that has just left its slot is remembered as sent. -/
theorem rememberSent_putEntry (table : SocketTable) (identity : SocketIdentity) (direction : Direction)
    (entry : SocketEntry) (count : Nat) (waiter : Waiter) :
    rememberSent { table.putEntry identity (entry.setSent direction none) with waiterCount := count }
      identity direction waiter =
        { table.putEntry identity (entry.setSent direction (some waiter)) with waiterCount := count } := by
  have hlookup : lookup { table.putEntry identity (entry.setSent direction none) with waiterCount := count }
      identity = some (entry.setSent direction none) := by
    simp [lookup, putEntry]
  have hset : (entry.setSent direction none).setSent direction (some waiter) =
      entry.setSent direction (some waiter) := by
    cases direction <;> rfl
  unfold rememberSent
  rw [hlookup]
  simp only [putEntry, insert_insert_self, hset]

end SocketTable

/-! ## What steps do to the slots -/

namespace NativeStack

open Ownership

variable {s s' : NativeStack} {label : StepLabel} {identity : SocketIdentity}
  {entry changed : SocketEntry} {direction : Direction} {event : WaiterEvent}

/-- The waiter in the slot of a key. -/
def slot (s : NativeStack) (key : ReadyKey) : Option Waiter :=
  (s.socketTable.lookup key.identity).bind fun entry => entry.waiter key.direction

/-- The notifications still to be sent. -/
def owing (s : NativeStack) : List PendingNotification := s.pendingNotifications ++ s.history.inHand

/-- The step logs `posted`, owes what that owes, and keeps the flag of a waker that has fired while the slot is
filled. -/
structure Posts (s : NativeStack) (posted : List WaiterEvent) (s' : NativeStack) : Prop where
  events : s'.history.events = s.history.events ++ posted
  owing : s'.owing = s.owing ++ posted.filterMap WaiterEvent.owes
  nextSocketId : s.nextSocketId ≤ s'.nextSocketId
  flags : ∀ key, s'.slot key ≠ none →
    (firedSince key posted = true ∨ s.socketTable.flag key = true ∧ lifeline key posted = []) →
      s'.socketTable.flag key = true

/-- What a step does to the slots: nothing but fire wakers, make a new entry, fill or empty one slot,
remove an entry with its waiters, or send a notification.  It fills no slot but those that `P` lets
it fill. -/
inductive SlotStep (P : ReadyKey → Prop) (s s' : NativeStack) : Prop
  | rest (fired : List ReadyKey) (hentries : s'.socketTable.entries = s.socketTable.entries)
      (hcount : s'.socketTable.waiterCount = s.socketTable.waiterCount)
      (hposts : Posts s (fired.map .fired) s')
  | enroll {identity : SocketIdentity} {kind : SocketKind} (hid : s.nextSocketId ≤ identity.id)
      (hentries : s'.socketTable.entries =
        s.socketTable.entries.insert identity.id (identity.generation, .new kind))
      (hcount : s'.socketTable.waiterCount = s.socketTable.waiterCount)
      (hnext : identity.id < s'.nextSocketId) (hposts : Posts s [] s')
  | turn {identity : SocketIdentity} {entry changed : SocketEntry} {direction : Direction}
      {event : WaiterEvent} (hlookup : s.socketTable.lookup identity = some entry)
      (hentries : s'.socketTable.entries =
        s.socketTable.entries.insert identity.id (identity.generation, changed))
      (hturns : entry.Turns direction changed)
      (hkey : event.slotKey? = some ⟨identity, direction⟩)
      (hfill : changed.waiter direction ≠ none → P ⟨identity, direction⟩)
      (hact : event.act (entry.waiter direction) = some (changed.waiter direction))
      (hsent : changed.sent direction = event.remember (entry.sent direction))
      (hcount : s'.socketTable.waiterCount =
        s.socketTable.waiterCount + (changed.waiter direction).toList.length -
          (entry.waiter direction).toList.length)
      (hposts : Posts s [event] s')
  | drop {identity : SocketIdentity} {entry : SocketEntry}
      (hlookup : s.socketTable.lookup identity = some entry)
      (hentries : s'.socketTable.entries = s.socketTable.entries.erase identity.id)
      (hcount : s'.socketTable.waiterCount = s.socketTable.waiterCount - entry.waiters.length)
      (hposts : Posts s ((notifications identity entry.waiters).map fun abort =>
        .aborted abort.key abort.waiter) s')
  | send {notification : PendingNotification} {reason : AbortReason}
      (htable : s'.socketTable = s.socketTable) (hnext : s'.nextSocketId = s.nextSocketId)
      (howing : s.owing = notification :: s'.owing)
      (hevents : s'.history.events =
        s.history.events ++ [.notified notification.key notification.waiter reason])

/-- The accounts of a run. -/
structure Accounted (s : NativeStack) : Prop where
  /-- The counter counts the filled slots. -/
  count : s.socketTable.waiterCount =
    total (fun found : Nat × SocketEntry => found.2.waiters.length) s.socketTable.entries
  /-- The history of a key is that of its slot. -/
  slots : ∀ key, Occupies key s.history.events (s.slot key)
  /-- A sent slot names the waiter that was armed last, if it has been selected. -/
  sent : ∀ (key : ReadyKey) (entry : SocketEntry) (waiter : Waiter),
    s.socketTable.lookup key.identity = some entry →
      (entry.sent key.direction = some waiter ↔
        ∃ earlier, lifeline key s.history.events = earlier ++ [.armed key waiter, .selected key waiter])
  /-- Nothing has happened to identities that have not been given out. -/
  fresh : ∀ key : ReadyKey, s.nextSocketId ≤ key.identity.id → lifeline key s.history.events = []
  known : ∀ id, id ∈ s.socketTable.entries → id < s.nextSocketId
  /-- What is owed has been sent, in order, up to what still waits. -/
  queue : s.history.events.filterMap WaiterEvent.owes =
    s.history.events.filterMap WaiterEvent.pays ++ s.owing

namespace Accounted

/-- The queue after a step that sends nothing. -/
theorem queue_posts (h : s.Accounted) {posted : List WaiterEvent} (hposts : Posts s posted s')
    (hpays : posted.filterMap WaiterEvent.pays = []) :
    s'.history.events.filterMap WaiterEvent.owes =
      s'.history.events.filterMap WaiterEvent.pays ++ s'.owing := by
  rw [hposts.events, hposts.owing, List.filterMap_append, List.filterMap_append, h.queue, hpays]
  simp

/-- Events of one key leave the other lifelines alone, and so do the ids they belong to. -/
theorem fresh_posts (h : s.Accounted) {posted : List WaiterEvent} (hposts : Posts s posted s')
    (hknown : ∀ event ∈ posted, ∀ key, event.slotKey? = some key → key.identity.id < s'.nextSocketId)
    (key : ReadyKey) (hkey : s'.nextSocketId ≤ key.identity.id) :
    lifeline key s'.history.events = [] := by
  rw [hposts.events, lifeline_append, h.fresh key (hposts.nextSocketId.trans hkey), List.nil_append]
  refine lifeline_eq_nil fun event hevent hslot => ?_
  exact absurd (hknown event hevent key hslot) (Nat.not_lt.2 hkey)

theorem rest (h : s.Accounted) {fired : List ReadyKey}
    (hentries : s'.socketTable.entries = s.socketTable.entries)
    (hcount : s'.socketTable.waiterCount = s.socketTable.waiterCount)
    (hposts : Posts s (fired.map .fired) s') : s'.Accounted := by
  have hlookup : s'.socketTable.lookup = s.socketTable.lookup := by
    funext identity
    simp only [SocketTable.lookup, hentries]
  have hnone : ∀ event ∈ fired.map WaiterEvent.fired, event.slotKey? = none := by
    simp [WaiterEvent.slotKey?]
  have hlife : ∀ key, lifeline key s'.history.events = lifeline key s.history.events := by
    intro key
    have hnil : lifeline key (fired.map .fired) = [] := lifeline_eq_nil fun event hevent hkey => by
      rw [hnone event hevent] at hkey
      cases hkey
    rw [hposts.events, lifeline_append, hnil, List.append_nil]
  refine ⟨?_, fun key => ?_, fun key entry waiter hentry => ?_, ?_, fun id hid => ?_, ?_⟩
  · rw [hcount, hentries, h.count]
  · have hslot : s'.slot key = s.slot key := by
      simp only [slot, hlookup]
    rw [hslot, Occupies, hlife]
    exact h.slots key
  · rw [hlife]
    exact h.sent key entry waiter (by rw [← hlookup]; exact hentry)
  · refine h.fresh_posts hposts fun event hevent key hkey => ?_
    rw [hnone event hevent] at hkey
    cases hkey
  · rw [hentries] at hid
    exact (h.known id hid).trans_le hposts.nextSocketId
  · refine h.queue_posts hposts ?_
    simp [List.filterMap_map, Function.comp_def, WaiterEvent.pays]

theorem enroll (h : s.Accounted) {kind : SocketKind} (hid : s.nextSocketId ≤ identity.id)
    (hentries : s'.socketTable.entries =
      s.socketTable.entries.insert identity.id (identity.generation, .new kind))
    (hcount : s'.socketTable.waiterCount = s.socketTable.waiterCount) (hnext : identity.id < s'.nextSocketId)
    (hposts : Posts s [] s') : s'.Accounted := by
  have hnone : s.socketTable.entries[identity.id]? = none := by
    have hunknown : identity.id ∉ s.socketTable.entries :=
      fun hmem => absurd (h.known _ hmem) (Nat.not_lt.2 hid)
    simpa using hunknown
  have hlookup : ∀ other, s'.socketTable.lookup other =
      if other = identity then some (.new kind) else s.socketTable.lookup other :=
    SocketTable.lookup_insert (by simp [hnone]) hentries
  have hevents : s'.history.events = s.history.events := by simpa using hposts.events
  -- The new identity has no history, and its entry no waiters.
  have hempty : ∀ key : ReadyKey, key.identity = identity → lifeline key s.history.events = [] :=
    fun key hkey => h.fresh key (by rw [hkey]; exact hid)
  refine ⟨?_, fun key => ?_, fun key entry waiter hentry => ?_, ?_, fun id hid => ?_, ?_⟩
  · rw [hcount, hentries, total_insert_of_none _ hnone, h.count]
    simp [SocketEntry.new, SocketEntry.waiters]
  · rw [hevents]
    by_cases hkey : key.identity = identity
    · have hslot : s'.slot key = none := by
        unfold slot
        rw [hlookup, if_pos hkey]
        cases hdirection : key.direction <;> rfl
      rw [hslot, Occupies, hempty key hkey]
      rfl
    · have hslot : s'.slot key = s.slot key := by
        unfold slot
        rw [hlookup, if_neg hkey]
      rw [hslot]
      exact h.slots key
  · rw [hlookup] at hentry
    rw [hevents]
    by_cases hkey : key.identity = identity
    · rw [if_pos hkey] at hentry
      obtain rfl := Option.some.inj hentry
      rw [hempty key hkey]
      cases key.direction <;> simp [SocketEntry.new, SocketEntry.sent]
    · rw [if_neg hkey] at hentry
      exact h.sent key entry waiter hentry
  · exact h.fresh_posts hposts (by simp)
  · rw [hentries, ExtTreeMap.mem_insert, Std.compare_eq_iff_eq] at hid
    rcases hid with rfl | hid
    · exact hnext
    · exact (h.known id hid).trans_le hposts.nextSocketId
  · exact h.queue_posts hposts rfl

theorem id_lt (h : s.Accounted) (hlookup : s.socketTable.lookup identity = some entry) :
    identity.id < s.nextSocketId :=
  h.known _ (mem_of_getElem? (SocketTable.lookup_eq_some.1 hlookup))

/-- A filled slot has nothing that was sent after it was filled. -/
theorem sent_eq_none (h : s.Accounted) {waiter : Waiter}
    (hlookup : s.socketTable.lookup identity = some entry) (hwaiter : entry.waiter direction = some waiter) :
    entry.sent direction = none := by
  cases hsent : entry.sent direction with
  | none => rfl
  | some other =>
      obtain ⟨earlier, hearlier⟩ := (h.sent ⟨identity, direction⟩ entry other hlookup).1 hsent
      have hslots := h.slots ⟨identity, direction⟩
      have hslot : s.slot ⟨identity, direction⟩ = some waiter := by
        simpa [slot, hlookup] using hwaiter
      rw [hslot] at hslots
      obtain ⟨before, hbefore⟩ := hslots.last_armed
      rw [hearlier] at hbefore
      have hlast := congrArg List.getLast? hbefore
      simp at hlast

/-- What the sent slot says after an event of its key. -/
theorem remember_eq_some (h : s.Accounted) {after : Option Waiter}
    (hlookup : s.socketTable.lookup identity = some entry)
    (hkey : event.slotKey? = some ⟨identity, direction⟩)
    (hact : event.act (entry.waiter direction) = some after) (waiter : Waiter) :
    event.remember (entry.sent direction) = some waiter ↔
      event = .selected ⟨identity, direction⟩ waiter := by
  have hempty : entry.waiter direction ≠ none → entry.sent direction = none := by
    intro hfilled
    obtain ⟨held, hheld⟩ := Option.ne_none_iff_exists'.1 hfilled
    exact h.sent_eq_none hlookup hheld
  cases event with
  | armed key _ => simp [WaiterEvent.remember]
  | selected key other =>
      obtain rfl := Option.some.inj hkey
      simp [WaiterEvent.remember]
  | aborted key other =>
      have hfilled : entry.waiter direction ≠ none := by
        intro hnone
        rw [hnone] at hact
        cases hact
      simp [WaiterEvent.remember, hempty hfilled]
  | cancelled key other =>
      have hfilled : entry.waiter direction ≠ none := by
        intro hnone
        rw [hnone] at hact
        cases hact
      simp [WaiterEvent.remember, hempty hfilled]
  | fired key => cases hkey
  | notified key other reason => cases hkey

theorem turn (h : s.Accounted) (hlookup : s.socketTable.lookup identity = some entry)
    (hentries : s'.socketTable.entries =
      s.socketTable.entries.insert identity.id (identity.generation, changed))
    (hturns : entry.Turns direction changed) (hkey : event.slotKey? = some ⟨identity, direction⟩)
    (hact : event.act (entry.waiter direction) = some (changed.waiter direction))
    (hsent : changed.sent direction = event.remember (entry.sent direction))
    (hcount : s'.socketTable.waiterCount =
      s.socketTable.waiterCount + (changed.waiter direction).toList.length -
        (entry.waiter direction).toList.length)
    (hposts : Posts s [event] s') : s'.Accounted := by
  have hlookups : ∀ other, s'.socketTable.lookup other =
      if other = identity then some changed else s.socketTable.lookup other :=
    SocketTable.lookup_insert (SocketTable.generation_of_lookup hlookup) hentries
  have hlife : ∀ key, lifeline key s'.history.events = lifeline key s.history.events ++
      if key = ⟨identity, direction⟩ then [event] else [] := by
    intro key
    rw [hposts.events, lifeline_append, lifeline_singleton hkey]
  -- What the slots of the identity held and hold.
  have hbefore : ∀ other, s.slot ⟨identity, other⟩ = entry.waiter other := by
    intro other
    simp [slot, hlookup]
  have hafter : ∀ other, s'.slot ⟨identity, other⟩ = changed.waiter other := by
    intro other
    simp [slot, hlookups]
  have helsewhere : ∀ key : ReadyKey, key.identity ≠ identity → s'.slot key = s.slot key := by
    intro key hne
    simp [slot, hlookups, hne]
  have hsame : ∀ key, key ≠ ⟨identity, direction⟩ → s'.slot key = s.slot key := by
    rintro ⟨other, towards⟩ hne
    by_cases hidentity : other = identity
    · subst hidentity
      rw [hbefore, hafter]
      exact hturns.waiter towards fun heq => hne (by rw [heq])
    · exact helsewhere _ hidentity
  refine ⟨?_, fun key => ?_, fun key found waiter hfound => ?_, ?_, fun id hid => ?_, ?_⟩
  · have hlength := SocketEntry.length_turns hturns
    have hsplit := total_eq_add_erase (fun found : Nat × SocketEntry => found.2.waiters.length)
      (SocketTable.lookup_eq_some.1 hlookup)
    rw [hcount, hentries, total_insert, h.count]
    dsimp only at hsplit ⊢
    have hle : (entry.waiter direction).toList.length ≤ entry.waiters.length := by
      rw [SocketEntry.length_waiters]
      cases direction <;> simp only [SocketEntry.waiter] <;> omega
    omega
  · by_cases hthis : key = ⟨identity, direction⟩
    · subst hthis
      rw [hposts.events]
      refine (h.slots _).append ?_
      rw [hafter, hbefore, lifeline_singleton hkey, if_pos rfl]
      simpa using hact
    · rw [hsame key hthis, Occupies, hlife, if_neg hthis, List.append_nil]
      exact h.slots key
  · rw [hlookups] at hfound
    by_cases hthis : key = ⟨identity, direction⟩
    · subst hthis
      rw [if_pos rfl] at hfound
      obtain rfl := Option.some.inj hfound
      rw [hsent, h.remember_eq_some hlookup hkey hact, hlife, if_pos rfl]
      constructor
      · rintro rfl
        -- Only a waiter that is in the slot can be selected, so it was armed last.
        have hheld : entry.waiter direction = some waiter := by
          cases hwaiter : entry.waiter direction with
          | none => simp [WaiterEvent.act, hwaiter] at hact
          | some held =>
              simp only [WaiterEvent.act, hwaiter] at hact
              split at hact
              · rename_i heq
                rw [heq]
              · cases hact
        have hslots := h.slots ⟨identity, direction⟩
        rw [hbefore, hheld] at hslots
        obtain ⟨earlier, hearlier⟩ := hslots.last_armed
        exact ⟨earlier, by rw [hearlier]; simp⟩
      · rintro ⟨earlier, hearlier⟩
        have hlast := congrArg List.getLast? hearlier
        simpa using hlast
    · rw [hlife, if_neg hthis, List.append_nil]
      by_cases hidentity : key.identity = identity
      · rw [if_pos hidentity] at hfound
        obtain rfl := Option.some.inj hfound
        have hdirection : key.direction ≠ direction := by
          rintro rfl
          exact hthis (by rw [← hidentity])
        rw [hturns.sent _ hdirection]
        exact h.sent key entry waiter (by rw [hidentity]; exact hlookup)
      · rw [if_neg hidentity] at hfound
        exact h.sent key found waiter hfound
  · refine h.fresh_posts hposts fun posted hposted key hslot => ?_
    rw [List.mem_singleton.1 hposted, hkey] at hslot
    obtain rfl := Option.some.inj hslot
    exact (h.id_lt hlookup).trans_le hposts.nextSocketId
  · rw [hentries, ExtTreeMap.mem_insert, Std.compare_eq_iff_eq] at hid
    rcases hid with rfl | hid
    · exact (h.id_lt hlookup).trans_le hposts.nextSocketId
    · exact (h.known id hid).trans_le hposts.nextSocketId
  · refine h.queue_posts hposts ?_
    cases event <;> simp [WaiterEvent.pays] at hkey ⊢
    cases hkey

/-- The events of a removed entry empty the slots it had. -/
theorem foldlM_aborts (identity : SocketIdentity) (entry : SocketEntry) (direction : Direction) :
    (lifeline ⟨identity, direction⟩ ((notifications identity entry.waiters).map fun abort =>
        .aborted abort.key abort.waiter)).foldlM (fun slot event => event.act slot)
      (entry.waiter direction) = some none := by
  cases hread : entry.readWaiter <;> cases hwrite : entry.writeWaiter <;> cases direction <;>
    simp [notifications, SocketEntry.waiters, SocketEntry.waiter, hread, hwrite, lifeline,
      PendingNotification.key, WaiterEvent.slotKey?, WaiterEvent.act]

theorem drop (h : s.Accounted) (hlookup : s.socketTable.lookup identity = some entry)
    (hentries : s'.socketTable.entries = s.socketTable.entries.erase identity.id)
    (hcount : s'.socketTable.waiterCount = s.socketTable.waiterCount - entry.waiters.length)
    (hposts : Posts s ((notifications identity entry.waiters).map fun abort =>
      .aborted abort.key abort.waiter) s') : s'.Accounted := by
  have hlookups : ∀ other, s'.socketTable.lookup other =
      if other = identity then none else s.socketTable.lookup other :=
    SocketTable.lookup_erase hlookup hentries
  have hkeys : ∀ event ∈ (notifications identity entry.waiters).map fun abort =>
      WaiterEvent.aborted abort.key abort.waiter, ∀ key, event.slotKey? = some key →
        key.identity = identity := by
    intro event hevent key hkey
    obtain ⟨abort, habort, rfl⟩ := List.mem_map.1 hevent
    obtain ⟨waiter, -, rfl⟩ := List.mem_map.1 habort
    obtain rfl := Option.some.inj hkey
    rfl
  have hlife : ∀ key : ReadyKey, key.identity ≠ identity →
      lifeline key s'.history.events = lifeline key s.history.events := by
    intro key hne
    rw [hposts.events, lifeline_append,
      lifeline_eq_nil fun event hevent hkey => hne (hkeys event hevent key hkey), List.append_nil]
  refine ⟨?_, fun key => ?_, fun key found waiter hfound => ?_, ?_, fun id hid => ?_, ?_⟩
  · have hsplit := total_eq_add_erase (fun found : Nat × SocketEntry => found.2.waiters.length)
      (SocketTable.lookup_eq_some.1 hlookup)
    rw [hcount, hentries, h.count, hsplit]
    dsimp only
    omega
  · by_cases hidentity : key.identity = identity
    · have hbefore : s.slot key = entry.waiter key.direction := by
        simp [slot, hidentity, hlookup]
      have hafter : s'.slot key = none := by
        simp [slot, hidentity, hlookups]
      rw [hposts.events, hafter]
      refine (h.slots key).append ?_
      rw [hbefore, show key = ⟨identity, key.direction⟩ by rw [← hidentity]]
      exact foldlM_aborts identity entry key.direction
    · have hsame : s'.slot key = s.slot key := by
        simp [slot, hlookups, hidentity]
      rw [hsame, Occupies, hlife key hidentity]
      exact h.slots key
  · rw [hlookups] at hfound
    by_cases hidentity : key.identity = identity
    · rw [if_pos hidentity] at hfound
      cases hfound
    · rw [if_neg hidentity] at hfound
      rw [hlife key hidentity]
      exact h.sent key found waiter hfound
  · refine h.fresh_posts hposts fun event hevent key hkey => ?_
    rw [hkeys event hevent key hkey]
    exact (h.id_lt hlookup).trans_le hposts.nextSocketId
  · rw [hentries, ExtTreeMap.mem_erase] at hid
    exact (h.known id hid.2).trans_le hposts.nextSocketId
  · refine h.queue_posts hposts ?_
    simp [List.filterMap_map, Function.comp_def, WaiterEvent.pays]

theorem send (h : s.Accounted) {notification : PendingNotification} {reason : AbortReason}
    (htable : s'.socketTable = s.socketTable) (hnext : s'.nextSocketId = s.nextSocketId)
    (howing : s.owing = notification :: s'.owing)
    (hevents : s'.history.events =
      s.history.events ++ [.notified notification.key notification.waiter reason]) :
    s'.Accounted := by
  have hlife : ∀ key, lifeline key s'.history.events = lifeline key s.history.events := by
    intro key
    rw [hevents, lifeline_append]
    simp [lifeline, WaiterEvent.slotKey?]
  refine ⟨?_, fun key => ?_, fun key entry waiter hentry => ?_, fun key hkey => ?_, ?_, ?_⟩
  · rw [htable]
    exact h.count
  · have hslot : s'.slot key = s.slot key := by
      unfold slot
      rw [htable]
    rw [hslot, Occupies, hlife]
    exact h.slots key
  · rw [hlife]
    exact h.sent key entry waiter (by rw [← htable]; exact hentry)
  · rw [hlife]
    exact h.fresh key (by rw [← hnext]; exact hkey)
  · rw [htable, hnext]
    exact h.known
  · rw [hevents, List.filterMap_append, List.filterMap_append, h.queue, howing]
    simp [WaiterEvent.owes, WaiterEvent.pays, PendingNotification.key]

theorem slotStep (h : s.Accounted) {P : ReadyKey → Prop} (hstep : SlotStep P s s') : s'.Accounted := by
  cases hstep with
  | rest fired hentries hcount hposts => exact h.rest hentries hcount hposts
  | enroll hid hentries hcount hnext hposts => exact h.enroll hid hentries hcount hnext hposts
  | turn hlookup hentries hturns hkey _ hact hsent hcount hposts =>
      exact h.turn hlookup hentries hturns hkey hact hsent hcount hposts
  | drop hlookup hentries hcount hposts => exact h.drop hlookup hentries hcount hposts
  | send htable hnext howing hevents => exact h.send htable hnext howing hevents

end Accounted

/-! ## The slots along a path -/

def SlotPath (P : ReadyKey → Prop) : NativeStack → NativeStack → Prop :=
  Relation.ReflTransGen (SlotStep P)

section

variable {P : ReadyKey → Prop}

/-- Nothing is logged. -/
theorem Posts.nil (hevents : s'.history.events = s.history.events) (howing : s'.owing = s.owing)
    (hnext : s.nextSocketId ≤ s'.nextSocketId)
    (hflags : ∀ key, s'.slot key ≠ none → s.socketTable.flag key = true → s'.socketTable.flag key = true) :
    Posts s [] s' := by
  refine ⟨by simpa using hevents, by simpa using howing, hnext, fun key hslot hnoted => ?_⟩
  rcases hnoted with hfired | ⟨hflag, -⟩
  · cases hfired
  · exact hflags key hslot hflag

/-- A slot is filled or emptied. -/
theorem Posts.turn {key : ReadyKey} (hkey : event.slotKey? = some key)
    (hevents : s'.history.events = s.history.events ++ [event])
    (howing : s'.owing = s.owing ++ [event].filterMap WaiterEvent.owes)
    (hnext : s.nextSocketId ≤ s'.nextSocketId)
    (hflags : s'.socketTable.flags = s.socketTable.flags ∨
      s'.socketTable.flags = s.socketTable.flags.erase key) : Posts s [event] s' := by
  refine ⟨hevents, howing, hnext, fun other _ hnoted => ?_⟩
  rcases hnoted with hfired | ⟨hflag, hlife⟩
  · rw [firedSince_eq_false] at hfired
    · cases hfired
    · rintro hmem
      rw [← List.mem_singleton.1 hmem] at hkey
      cases hkey
  · have hne : other ≠ key := by
      rintro rfl
      rw [lifeline_singleton hkey, if_pos rfl] at hlife
      cases hlife
    rcases hflags with hflags | hflags
    · rwa [SocketTable.flag, hflags]
    · rw [SocketTable.flag, hflags]
      exact SocketTable.flag_clearFlag_of_ne hne hflag

/-- A socket's waiters are aborted. -/
theorem Posts.aborts {aborts : List PendingNotification}
    (hevents : s'.history.events = s.history.events ++ aborts.map fun abort => .aborted abort.key abort.waiter)
    (howing : s'.owing = s.owing ++ aborts) (hnext : s.nextSocketId ≤ s'.nextSocketId)
    (hflags : s'.socketTable.flags = s.socketTable.flags) :
    Posts s (aborts.map fun abort => .aborted abort.key abort.waiter) s' := by
  refine ⟨hevents, ?_, hnext, fun other _ hnoted => ?_⟩
  · rw [howing, List.filterMap_map]
    exact congrArg _ List.filterMap_some.symm
  · rw [firedSince_eq_false (by simp)] at hnoted
    rw [SocketTable.flag, hflags]
    exact (hnoted.resolve_left Bool.false_ne_true).1

theorem SlotStep.quiet (htable : s'.socketTable = s.socketTable) (hevents : s'.history.events = s.history.events)
    (howing : s'.owing = s.owing) (hnext : s.nextSocketId ≤ s'.nextSocketId) : SlotStep P s s' :=
  .rest [] (by rw [htable]) (by rw [htable]) (.nil hevents howing hnext fun _ _ hflag => by rwa [htable])

/-- A new entry has no waiters, and its flags are clear. -/
theorem SlotStep.enrolls {kind : SocketKind} (hid : s.nextSocketId ≤ identity.id)
    (htable : s'.socketTable = s.socketTable.insertEntry identity kind)
    (hevents : s'.history.events = s.history.events) (howing : s'.owing = s.owing)
    (hnext : s'.nextSocketId = identity.id + 1) : SlotStep P s s' := by
  refine .enroll hid (by rw [htable]; rfl) (by rw [htable]; rfl) (by omega) (.nil hevents howing (by omega) ?_)
  intro key hslot hflag
  have hother : key.identity ≠ identity := by
    intro hidentity
    apply hslot
    rw [slot, htable, hidentity]
    cases key.direction <;> simp [SocketTable.lookup, SocketEntry.new, SocketEntry.waiter]
  have hne : ∀ direction, key ≠ ⟨identity, direction⟩ := fun direction heq => hother (by rw [heq])
  rw [htable]
  exact SocketTable.flag_clearFlag_of_ne (hne .write) (SocketTable.flag_clearFlag_of_ne (hne .read) hflag)

theorem slotStep_wake (s : NativeStack) (key : ReadyKey) : SlotStep P s (s.wake key) := by
  have hslots := s.sameSlots_wake key
  have hkept := s.undisturbed_wake key
  refine .rest [key] hslots.entries hslots.waiterCount ⟨?_, ?_, hkept.nextSocketId.ge, fun other _ hnoted => ?_⟩
  · unfold wake
    dsimp only
    split <;> rfl
  · unfold owing
    rw [hkept.inHand]
    unfold wake
    dsimp only
    split <;> simp [logEvent, WaiterEvent.owes]
  · have hset : other = key ∨ s.socketTable.flag other = true := by
      refine hnoted.imp (fun hfired => ?_) And.left
      by_contra hne
      rw [List.map_singleton, firedSince_eq_false (by simpa using hne)] at hfired
      cases hfired
    unfold wake
    dsimp only
    split
    · rename_i hflag
      rcases hset with rfl | hset
      · exact hflag
      · exact hset
    · simp only [SocketTable.flag, SocketTable.setFlag, ExtTreeSet.contains_insert, Bool.or_eq_true]
      exact hset.imp_left fun heq => by simp [heq]

theorem slotPath_markListenerReady (s : NativeStack) (identity : SocketIdentity) :
    SlotPath P s (s.markListenerReady identity) := by
  unfold markListenerReady
  split
  · exact .single (s.slotStep_wake _)
  · exact .refl

/-- A slot is emptied. -/
theorem SlotStep.empties {waiter : Waiter} (event : WaiterEvent)
    (hlookup : s.socketTable.lookup identity = some entry) (hwaiter : entry.waiter direction = some waiter)
    (hentries : s'.socketTable.entries =
      s.socketTable.entries.insert identity.id (identity.generation, changed))
    (hturns : entry.Turns direction changed) (hempty : changed.waiter direction = none)
    (hkey : event.slotKey? = some ⟨identity, direction⟩) (hact : event.act (some waiter) = some none)
    (hsent : changed.sent direction = event.remember (entry.sent direction))
    (hcount : s'.socketTable.waiterCount = s.socketTable.waiterCount - 1) (hposts : Posts s [event] s') :
    SlotStep P s s' := by
  refine .turn hlookup hentries hturns hkey (fun h => (h hempty).elim) ?_ hsent ?_ hposts
  · rw [hwaiter, hempty, hact]
  · rw [hwaiter, hempty, hcount]
    rfl

/-- A delivered key selects the waiter it finds, or leaves the slots alone. -/
theorem slotStep_deliverReady (s : NativeStack) (key : ReadyKey) :
    SlotStep P s (s.deliverReady key) := by
  unfold deliverReady
  obtain ⟨entry, waiter, hlookup, -, -, hwaiter, htake⟩ | ⟨entry, hlookup, hempty, htake⟩ | ⟨htake, -⟩ | ⟨htake, -⟩ :=
    s.socketTable.takeReadyWaiter_cases key
  · simp only [htake]
    rw [SocketTable.rememberSent_putEntry]
    refine .empties (.selected key waiter) hlookup hwaiter rfl ⟨?_, ?_⟩ ?_ rfl (if_pos rfl) ?_ rfl
      (.turn rfl rfl (List.append_nil _).symm le_rfl (.inr rfl))
    · intro other hother
      simp [SocketEntry.waiter_setWaiter, hother]
    · intro other hother
      simp [SocketEntry.sent_setSent, hother]
    · simp [SocketEntry.waiter_setWaiter]
    · simp [SocketEntry.sent_setSent, WaiterEvent.remember]
  · simp only [htake]
    -- the flag that is cleared is that of an empty slot
    refine .rest [] rfl rfl (.nil rfl rfl le_rfl fun other hslot hflag => ?_)
    refine SocketTable.flag_clearFlag_of_ne ?_ hflag
    rintro rfl
    apply hslot
    rw [← hempty]
    exact congrArg (Option.bind · fun entry => entry.waiter other.direction) hlookup
  · simp only [htake]
    exact .quiet rfl rfl rfl le_rfl
  · simp only [htake]
    exact .quiet rfl rfl rfl le_rfl

theorem ReadinessPath.slots (h : ReadinessPath s s') : SlotPath P s s' := by
  induction h with
  | refl => exact .refl
  | tail _ hstep ih =>
      refine ih.tail ?_
      cases hstep with
      | quiet h =>
          refine .quiet h.socketTable h.events ?_ ?_
          · unfold owing
            rw [h.pendingNotifications, h.undisturbed.inHand]
          · exact h.undisturbed.nextSocketId.ge
      | send h => exact .send rfl rfl (by simp [owing, h, sendAbort, observeNotification, logEvent]) rfl
      | deliver key _ => exact slotStep_deliverReady _ key

theorem DriveStep.slots (h : DriveStep s label s') : SlotPath P s s' := by
  cases h with
  | tick t hid _ => exact .single (.quiet rfl rfl rfl hid)
  | wake key => exact .single (s.slotStep_wake key)
  | promote _ _ _ _ _ _ hid =>
      refine .trans (.single ?_) (slotPath_markListenerReady _ _)
      exact .enrolls hid rfl rfl rfl rfl
  | _ => exact .single (.quiet rfl rfl rfl le_rfl)

end

/-- A waiter may be armed on an open socket that has begun to connect and has nothing to accept. -/
structure MayArm (s : NativeStack) (key : ReadyKey) : Prop where
  entry : (s.socketTable.lookup key.identity).isSome = true
  active : ∀ record, s.tcpRecords[key.identity.id]? = some record → record.phase.idle = false
  queue : ∀ listener, s.tcpListeners[key.identity.id]? = some listener → listener.accepted = []

theorem Step.slots (h : Step s label s') : SlotPath s.MayArm s s' := by
  cases h with
  | drive h => exact h.slots
  | finish result effects haborts =>
      refine .trans (.single ?_) (ReadinessPath.finish result effects _ s).slots
      exact .quiet rfl rfl (by simp [owing, queueAborts, haborts]) le_rfl
  | @install registration table h hactive hqueue =>
      obtain ⟨entry, hlookup, hempty, -, rfl⟩ := SocketTable.installWaiter_armed h
      refine .single (@SlotStep.turn s.MayArm s _ registration.identity entry _ registration.direction
        (.armed registration.key registration.waiter) hlookup rfl ⟨?_, ?_⟩ rfl
        (fun _ => ⟨by simp [hlookup], hactive, hqueue⟩) ?_ ?_ ?_
        (.turn rfl rfl (List.append_nil _).symm le_rfl (.inl rfl)))
      · intro other hother
        simp [SocketEntry.waiter_setWaiter, hother]
      · intro other hother
        simp [SocketEntry.sent_setSent, hother]
      · simp [hempty, WaiterEvent.act, SocketEntry.waiter_setWaiter]
      · simp [SocketEntry.sent_setSent, WaiterEvent.remember]
      · simp [hempty, SocketEntry.waiter_setWaiter, logEvent]
  | @abort identity direction waiter table h =>
      obtain ⟨entry, hlookup, -, hwaiter, rfl⟩ := SocketTable.takeWaiter_some h
      refine .single (.empties (.aborted ⟨identity, direction⟩ waiter) hlookup hwaiter rfl ⟨?_, ?_⟩ ?_ rfl
        (if_pos rfl) ?_ rfl (.turn rfl rfl (List.append_assoc ..).symm le_rfl (.inr rfl)))
      · intro other hother
        simp [SocketEntry.waiter_setWaiter, hother]
      · intro other _
        simp
      · simp [SocketEntry.waiter_setWaiter]
      · simp [WaiterEvent.remember]
  | @cancel identity operation reference table entry waiter h hentry hwaiter =>
      obtain ⟨found, held, hlookup, hheld, -, rfl⟩ := SocketTable.cancel_cancelled h
      obtain rfl := Option.some.inj (hentry.symm.trans hlookup)
      refine .single (.empties (.cancelled ⟨identity, operation.direction⟩ waiter) hentry hwaiter rfl ⟨?_, ?_⟩
        ?_ rfl (if_pos rfl) ?_ rfl (.turn rfl rfl (List.append_nil _).symm le_rfl (.inr rfl)))
      · intro other hother
        simp [SocketEntry.waiter_setWaiter, hother]
      · intro other _
        simp
      · simp [SocketEntry.waiter_setWaiter]
      · simp [WaiterEvent.remember]
  | close h =>
      obtain ⟨entry, hlookup, rfl, rfl⟩ := SocketTable.close_ok h
      exact .single (.drop hlookup rfl rfl (.aborts rfl (List.append_assoc ..).symm le_rfl rfl))
  | openTcp hid _ _ _ _ _ => exact .single (.enrolls hid rfl rfl rfl rfl)
  | openUdp hid _ _ _ => exact .single (.enrolls hid rfl rfl rfl rfl)
  | closeNext _ hin hlookup =>
      refine .single (.drop hlookup rfl rfl (.aborts rfl ?_ le_rfl rfl))
      simp [owing, NativeStack.closeNext, logAborts, hin]
  | _ => exact .single (.quiet rfl rfl rfl le_rfl)

theorem Accounted.step (h : s.Accounted) (hstep : Step s label s') : s'.Accounted := by
  have hpath := hstep.slots
  clear hstep
  induction hpath with
  | refl => exact h
  | tail _ hstep ih => exact ih.slotStep hstep

/-- A filled slot was filled before, or the step was allowed to fill it. -/
theorem SlotStep.slot_of {P : ReadyKey → Prop} (h : SlotStep P s s') (haccounted : s.Accounted)
    {key : ReadyKey} {waiter : Waiter} (hslot : s'.slot key = some waiter) :
    s.slot key = some waiter ∨ P key := by
  cases h with
  | rest fired hentries _ _ =>
      left
      unfold slot SocketTable.lookup at *
      rw [← hentries]
      exact hslot
  | @enroll identity kind hid hentries _ _ _ =>
      have hnone : s.socketTable.entries[identity.id]? = none := by
        have hunknown : identity.id ∉ s.socketTable.entries :=
          fun hmem => absurd (haccounted.known _ hmem) (Nat.not_lt.2 hid)
        simpa using hunknown
      left
      unfold slot at *
      rw [SocketTable.lookup_insert (by rw [hnone]; exact fun _ _ h => nomatch h) hentries] at hslot
      split at hslot
      · cases hdirection : key.direction <;> simp [hdirection, SocketEntry.new, SocketEntry.waiter] at hslot
      · exact hslot
  | @turn identity entry changed direction event hlookup hentries hturns _ hfill _ _ _ _ =>
      unfold slot at *
      rw [SocketTable.lookup_insert (SocketTable.generation_of_lookup hlookup) hentries] at hslot
      split at hslot
      · rename_i hidentity
        have hchanged : changed.waiter key.direction = some waiter := hslot
        by_cases hdirection : key.direction = direction
        · right
          have hfilled := hfill (by simp [← hdirection, hchanged])
          rwa [← hidentity, ← hdirection] at hfilled
        · left
          rw [hturns.waiter _ hdirection] at hchanged
          simpa [hidentity, hlookup] using hchanged
      · exact .inl hslot
  | drop hlookup hentries _ _ =>
      left
      unfold slot at *
      rw [SocketTable.lookup_erase hlookup hentries] at hslot
      split at hslot
      · cases hslot
      · exact hslot
  | send htable _ _ _ =>
      left
      unfold slot at *
      rw [← htable]
      exact hslot

theorem Step.slot_of (h : Step s label s') (haccounted : s.Accounted) {key : ReadyKey} {waiter : Waiter}
    (hslot : s'.slot key = some waiter) : s.slot key = some waiter ∨ s.MayArm key := by
  have hpath := h.slots
  clear h
  generalize hallowed : s.MayArm = P at hpath ⊢
  clear hallowed
  have hkept : s'.Accounted ∧ (s'.slot key = some waiter → s.slot key = some waiter ∨ P key) := by
    clear hslot
    induction hpath with
    | refl => exact ⟨haccounted, .inl⟩
    | tail _ hstep ih =>
        refine ⟨ih.1.slotStep hstep, fun hslot => ?_⟩
        rcases hstep.slot_of ih.1 hslot with hslot | hfill
        · exact ih.2 hslot
        · exact .inr hfill
  exact hkept.2 hslot

/-! ## Room for waiters -/

theorem Undisturbed.maxWaiters (h : Undisturbed s s') :
    s'.socketTable.maxWaiters = s.socketTable.maxWaiters := h.table.maxWaiters

theorem Step.maxWaiters (h : Step s label s') : s'.socketTable.maxWaiters = s.socketTable.maxWaiters := by
  cases h with
  | drive h =>
      cases h with
      | wake key => exact (s.undisturbed_wake key).maxWaiters
      | promote => exact (undisturbed_markListenerReady _ _).maxWaiters
      | _ => rfl
  | finish result effects _ => exact (undisturbed_finish result effects _ s).maxWaiters
  | install h _ _ =>
      obtain ⟨entry, -, -, -, rfl⟩ := SocketTable.installWaiter_armed h
      rfl
  | abort h =>
      obtain ⟨entry, -, -, -, rfl⟩ := SocketTable.takeWaiter_some h
      rfl
  | cancel h _ _ =>
      obtain ⟨entry, waiter, -, -, -, rfl⟩ := SocketTable.cancel_cancelled h
      rfl
  | close h =>
      obtain ⟨entry, -, -, rfl⟩ := SocketTable.close_ok h
      rfl
  | _ => rfl

/-- Two waiters for each entry at most. -/
theorem Accounted.waiterCount_le (h : s.Accounted) :
    s.socketTable.waiterCount ≤ 2 * s.socketTable.len := by
  rw [h.count]
  exact total_le_mul fun found => found.2.length_waiters_le

/-- A table that has room for two waiters for each socket always has a place for one more. -/
theorem Accounted.waiterRoom (h : s.Accounted) (hcap : s.LogicalCap)
    (hmax : s.socketTable.maxWaiters = 2 * s.limits.sockets) : s.WaiterRoom := by
  intro identity kind entry direction hvalid hempty
  have hfound := SocketTable.lookup_eq_some.1 (SocketTable.validate_eq_ok.1 hvalid).1
  have hsplit := total_eq_add_erase (fun found : Nat × SocketEntry => found.2.waiters.length) hfound
  have hrest : total (fun found : Nat × SocketEntry => found.2.waiters.length)
      (s.socketTable.entries.erase identity.id) ≤ 2 * (s.socketTable.entries.erase identity.id).size :=
    total_le_mul fun found => found.2.length_waiters_le
  have hsize := size_eq_size_erase (mem_of_getElem? hfound)
  have hlt := SocketEntry.length_waiters_lt hempty
  unfold LogicalCap SocketTable.len at hcap
  rw [hmax, h.count]
  dsimp only at hsplit
  omega

/-! ## Sockets that have not begun to connect -/

/-- A record that is idle after a step was idle before it, or is new. -/
def IdleFrom (s : NativeStack) (id : Nat) (record : TcpRecord) : Prop :=
  record.phase.idle = true → s.nextSocketId ≤ id ∨
    ∃ before, s.tcpRecords[id]? = some before ∧ before.phase.idle = true ∧
      before.identity = record.identity

theorem idleFrom_all (s : NativeStack) : All s.IdleFrom s.tcpRecords :=
  fun _ record h hidle => .inr ⟨record, h, hidle, rfl⟩

theorem idleFrom_put {record changed : TcpRecord}
    (h : s.tcpRecords[record.identity.id]? = some record) (hidentity : changed.identity = record.identity)
    (hidle : changed.phase.idle = true → record.phase.idle = true) :
    All s.IdleFrom (s.tcpRecords.insert changed.identity.id changed) := by
  refine s.idleFrom_all.insert fun hchanged => .inr ⟨record, ?_, hidle hchanged, hidentity.symm⟩
  rw [hidentity]
  exact h

theorem DriveStep.idleFrom (h : DriveStep s label s') : All s.IdleFrom s'.tcpRecords := by
  cases h with
  | wake key =>
      rw [(s.undisturbed_wake key).tcpRecords]
      exact s.idleFrom_all
  | ingest packet _ _ _ hrecords =>
      cases hrecords with
      | failed h _ _ =>
          obtain ⟨-, -, -, -, hok, -⟩ := resetTarget_eq_some h
          exact s.idleFrom_all.insert fun hidle => nomatch hidle
      | _ => exact s.idleFrom_all
  | amend h hchanged _ _ => exact idleFrom_put h hchanged.identity hchanged.idle
  | @expire record _ _ h _ _ _ _ => exact idleFrom_put h rfl id
  | reap h _ _ _ _ => exact s.idleFrom_all.erase _
  | promote _ _ _ _ _ _ hid =>
      rw [(undisturbed_markListenerReady _ _).tcpRecords]
      exact s.idleFrom_all.insert fun _ => .inl hid
  | _ => exact s.idleFrom_all

theorem Step.idleFrom (h : Step s label s') : All s.IdleFrom s'.tcpRecords := by
  cases h with
  | drive h => exact h.idleFrom
  | finish result effects _ =>
      rw [(undisturbed_finish result effects _ s).tcpRecords]
      exact s.idleFrom_all
  | openTcp hid _ _ _ _ _ => exact s.idleFrom_all.insert fun _ => .inl hid
  | bind endpoint scopeId _ h hphase _ _ _ _ =>
      exact idleFrom_put h rfl fun _ => by rw [hphase]; rfl
  | connect scopeId h hidle _ _ _ _ _ _ _ _ _ _ => exact idleFrom_put h rfl fun _ => hidle
  | listen _ _ _ _ _ _ _ _ _ _ _ _ _ _ _ _ _ _ _ => exact s.idleFrom_all.erase _
  | startClose _ h hidle _ _ _ => exact idleFrom_put h rfl id
  | dropRecord h _ => exact s.idleFrom_all.erase _
  | _ => exact s.idleFrom_all

theorem IdleQuiet.step (h : s.IdleQuiet) (hs : s.Sound) (haccounted : s.Accounted) (hstep : Step s label s') :
    s'.IdleQuiet := by
  intro id record entry direction hrecord hidle hlookup
  obtain rfl : record.identity.id = id := (hs.step hstep).filed.tcp id record hrecord |>.1
  cases hwaiter : entry.waiter direction with
  | none => rfl
  | some waiter =>
      have hslot : s'.slot ⟨record.identity, direction⟩ = some waiter := by
        simpa [slot, hlookup] using hwaiter
      rcases hstep.slot_of haccounted hslot with hheld | hfill
      · obtain ⟨found, hfound, hheld⟩ := Option.bind_eq_some_iff.1 hheld
        rcases hstep.idleFrom _ record hrecord hidle with hnew | ⟨before, hbefore, hwas, hidentity⟩
        · exact absurd (haccounted.id_lt hfound) (Nat.not_lt.2 hnew)
        · rw [h _ before found direction hbefore hwas (by rw [hidentity]; exact hfound)] at hheld
          cases hheld
      · obtain ⟨found, hfound⟩ := Option.isSome_iff_exists.1 hfill.entry
        rcases hstep.idleFrom _ record hrecord hidle with hnew | ⟨before, hbefore, hwas, -⟩
        · exact absurd (haccounted.id_lt hfound) (Nat.not_lt.2 hnew)
        · rw [hfill.active before hbefore] at hwas
          cases hwas

/-! ## Regular states -/

/-- What holds in every state a call passes through. -/
structure Regular (s : NativeStack) : Prop where
  sound : s.Sound
  capped : s.Capped
  accounted : s.Accounted
  maxWaiters : s.socketTable.maxWaiters = 2 * s.limits.sockets
  idleQuiet : s.IdleQuiet

theorem Regular.step (h : s.Regular) (hstep : Step s label s') : s'.Regular where
  sound := h.sound.step hstep
  capped := h.capped.step h.sound hstep
  accounted := h.accounted.step hstep
  maxWaiters := by rw [hstep.maxWaiters, hstep.limits, h.maxWaiters]
  idleQuiet := h.idleQuiet.step h.sound h.accounted hstep

theorem Regular.path (h : s.Regular) {ok : NativeStack → StepLabel → Prop} (hpath : Path ok s s') :
    s'.Regular := hpath.keeps (fun _ _ _ hs hstep _ => hs.step hstep) h

theorem Regular.waiterRoom (h : s.Regular) : s.WaiterRoom :=
  h.accounted.waiterRoom h.capped.logical h.maxWaiters

/-- A new stack is regular. -/
theorem Regular.new {limits : Limits} {config : StackConfig} {id generation : Nat}
    (h : NativeStack.new limits config id generation = .ok s) : s.Regular := by
  have hsound := Sound.new h
  unfold NativeStack.new at h
  split at h
  · simp at h
  · split at h
    · simp at h
    · obtain rfl := Except.ok.inj h
      refine ⟨hsound, ⟨?_, ?_, ?_⟩, ⟨?_, fun key => ?_, ?_, fun _ _ => rfl, ?_, rfl⟩, ?_, ?_⟩
      · simp [LogicalCap, SocketTable.len, SocketTable.new]
      · simp [load]
      · simp [load]
      · simp [SocketTable.new]
      · simp [slot, SocketTable.lookup, SocketTable.new, Occupies, lifeline]
      · intro key entry waiter hlookup
        simp [SocketTable.lookup, SocketTable.new] at hlookup
      · simp [SocketTable.new]
      · simp [SocketTable.new, Nat.mul_comm]
      · intro id record entry direction hrecord
        simp at hrecord

end NativeStack

end SmolNet
