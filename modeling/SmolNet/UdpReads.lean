import SmolNet.UdpAdapter
import SmolNet.AdapterReads

/-!
# Reads of the `gen_udp` adapter

Active mode sends no more than it was set to.  The stack is asked for a datagram only while it holds no
waiter of the adapter, except where a `:continue_read` that was left over from active mode meets a passive
read: the message does not say which read it is for, and `drive_read` does not look for a waiter.
-/

namespace SmolNet.Inet6.Udp

open InetBackend
open Tcp (Caller Kind Pid Read Ref Transfer)

/-- The part of the state that says how reading goes on. -/
structure ReadSide where
  read : Option Read
  options : Options
  scheduled : Bool
  continuations : Nat
  setting : Active
  since : List Message
  waiter : Option Ref
  fired : List Ref
  writeIssued : List Ref
  issued : List Ref
deriving DecidableEq, Repr

namespace ReadSide

/-- The modes and counts of the read side, and which waiters there are.  What rests on no stale
continuation having met a passive read is known only where `calm` holds. -/
structure Side (calm : Prop) (r : ReadSide) : Prop where
  modes : ∀ read, r.read = some read → (read.kind.isActive = true ↔ r.options.active ≠ .off)
  counted : Counted r.setting (r.since.map Message.kind) r.options.active
  scheduled : r.continuations = r.scheduled.toNat
  held : ∀ ref, r.waiter = some ref → ref ∈ r.issued
  fired : ∀ ref ∈ r.fired, ref ∈ r.issued ∧ r.waiter ≠ some ref
  writes : ∀ ref ∈ r.writeIssued, ref ∈ r.issued ∧ ∀ read, r.read = some read → read.select ≠ some ref
  select : ∀ read ref, r.read = some read → read.select = some ref → ref ∈ r.issued
  waiter : calm → ∀ ref, r.waiter = some ref → ∃ read, r.read = some read ∧ read.select = some ref
  still : calm → 0 < r.continuations → ∀ read, r.read = some read → read.select = none

/-- No continuation is on its way, and the read has no waiter. -/
def Quiet (r : ReadSide) : Prop :=
  r.continuations = 0 ∧ ∀ read, r.read = some read → read.select = none

variable {P : Prop} {r : ReadSide}

/-- A side without a waiter of its read's has no waiter at the stack either. -/
theorem Side.no_waiter (h : Side P r) (hcalm : P) (hselect : ∀ read, r.read = some read → read.select = none) :
    r.waiter = none := by
  cases hwaiter : r.waiter with
  | none => rfl
  | some ref =>
      obtain ⟨read, hread, href⟩ := h.waiter hcalm ref hwaiter
      rw [hselect read hread] at href
      cases href

theorem Side.idle_waiter (h : Side P r) (hcalm : P) (hnone : r.read = none) : r.waiter = none := by
  apply h.no_waiter hcalm
  intro read hread
  rw [hnone] at hread
  cases hread

/-- The read ends when its waiter is gone. -/
theorem Side.endRead (h : Side P r) (hgone : P → r.waiter = none) : Side P { r with read := none } := by
  refine ⟨?_, h.counted, h.scheduled, h.held, h.fired, ?_, ?_, ?_, ?_⟩
  · intro read hread
    cases hread
  · intro ref href
    refine ⟨(h.writes ref href).1, ?_⟩
    intro read hread
    cases hread
  · intro read ref hread
    cases hread
  · intro hcalm ref href
    have hnone : r.waiter = none := hgone hcalm
    rw [show r.waiter = some ref from href] at hnone
    cases hnone
  · intro _ _ read hread
    cases hread

/-- Reading ends with some notices. -/
theorem Side.off (h : Side P r) (hgone : P → r.waiter = none) {ended : List Message}
    (hended : ∀ message ∈ ended, message.kind = .terminal) :
    Side P { r with
      read := none, options := { r.options with active := .off }, since := r.since ++ ended } := by
  have hend := h.endRead hgone
  refine ⟨?_, ?_, hend.scheduled, hend.held, hend.fired, hend.writes, hend.select, hend.waiter, hend.still⟩
  · intro read hread
    cases hread
  · show Counted r.setting ((r.since ++ ended).map Message.kind) .off
    rw [List.map_append]
    apply h.counted.terminal
    intro kind hkind
    obtain ⟨message, hmessage, rfl⟩ := List.mem_map.1 hkind
    exact hended message hmessage

/-- A read begins that has no waiter yet. -/
theorem Side.beginRead (h : Side P r) (hnone : r.read = none) {read : Read} (hselect : read.select = none)
    (hmode : read.kind.isActive = true ↔ r.options.active ≠ .off) : Side P { r with read := some read } := by
  refine ⟨?_, h.counted, h.scheduled, h.held, h.fired, ?_, ?_, ?_, ?_⟩
  · intro begun hbegun
    obtain rfl := Option.some.inj hbegun
    exact hmode
  · intro ref href
    refine ⟨(h.writes ref href).1, ?_⟩
    intro begun hbegun
    obtain rfl := Option.some.inj hbegun
    rw [hselect]
    exact Option.some_ne_none ref |>.symm
  · intro begun ref hbegun href
    obtain rfl := Option.some.inj hbegun
    rw [hselect] at href
    cases href
  · intro hcalm ref href
    have hwaiter : r.waiter = some ref := href
    rw [h.idle_waiter hcalm hnone] at hwaiter
    cases hwaiter
  · intro _ _ begun hbegun
    obtain rfl := Option.some.inj hbegun
    exact hselect

/-- The read's waiter has fired, or is taken back. -/
theorem Side.unselect (h : Side P r) {waiter : Option Ref} (hless : waiter = none ∨ waiter = r.waiter)
    (hgone : P → waiter = none) :
    Side P { r with read := r.read.map fun read => { read with select := none }, waiter := waiter } := by
  have hheld : ∀ ref, waiter = some ref → r.waiter = some ref := by
    intro ref href
    rcases hless with hnone | hsame
    · rw [hnone] at href
      cases href
    · rw [← hsame]
      exact href
  refine ⟨?_, h.counted, h.scheduled, fun ref href => h.held ref (hheld ref href), ?_, ?_, ?_, ?_, ?_⟩
  · intro read hread
    obtain ⟨old, hold, rfl⟩ := Option.map_eq_some_iff.1 hread
    exact h.modes old hold
  · intro ref href
    exact ⟨(h.fired ref href).1, fun hwaiter => (h.fired ref href).2 (hheld ref hwaiter)⟩
  · intro ref href
    refine ⟨(h.writes ref href).1, ?_⟩
    intro read hread
    obtain ⟨old, -, rfl⟩ := Option.map_eq_some_iff.1 hread
    exact Option.some_ne_none ref |>.symm
  · intro read ref hread href
    obtain ⟨old, -, rfl⟩ := Option.map_eq_some_iff.1 hread
    cases href
  · intro hcalm ref href
    have hwaiter : waiter = some ref := href
    rw [hgone hcalm] at hwaiter
    cases hwaiter
  · intro _ _ read hread
    obtain ⟨old, -, rfl⟩ := Option.map_eq_some_iff.1 hread
    rfl

/-- The stack arms a waiter for the read. -/
theorem Side.arm (h : Side P r) {read : Read} (hread : r.read = some read) {ref : Ref} (hissued : ref ∈ r.issued)
    (hfired : ref ∉ r.fired) (hwrite : ref ∉ r.writeIssued) (hquiet : P → Quiet r) :
    Side P { r with read := some { read with select := some ref }, waiter := some ref } := by
  refine ⟨?_, h.counted, h.scheduled, ?_, ?_, ?_, ?_, ?_, ?_⟩
  · intro armed harmed
    obtain rfl := Option.some.inj harmed
    exact h.modes read hread
  · intro held hheld
    obtain rfl := Option.some.inj hheld
    exact hissued
  · intro old hold
    refine ⟨(h.fired old hold).1, ?_⟩
    intro hsame
    obtain rfl := Option.some.inj hsame
    exact hfired hold
  · intro old hold
    refine ⟨(h.writes old hold).1, ?_⟩
    intro armed harmed hsame
    obtain rfl := Option.some.inj harmed
    obtain rfl := Option.some.inj hsame
    exact hwrite hold
  · intro armed other harmed hother
    obtain rfl := Option.some.inj harmed
    obtain rfl := Option.some.inj hother
    exact hissued
  · intro _ held hheld
    obtain rfl := Option.some.inj hheld
    exact ⟨_, rfl, rfl⟩
  · intro hcalm hpositive
    have hzero : r.continuations = 0 := (hquiet hcalm).1
    have hpositive' : 0 < r.continuations := hpositive
    omega

/-- The stack arms a waiter for a write. -/
theorem Side.armWrite (h : Side P r) {ref : Ref} (hissued : ref ∈ r.issued)
    (hother : ∀ read, r.read = some read → read.select ≠ some ref) :
    Side P { r with writeIssued := ref :: r.writeIssued } := by
  refine ⟨h.modes, h.counted, h.scheduled, h.held, h.fired, ?_, h.select, h.waiter, h.still⟩
  intro old hold
  rcases List.mem_cons.1 hold with rfl | hold
  · exact ⟨hissued, hother⟩
  · exact h.writes old hold

/-- Options change that leave the read in its mode, or messages are counted. -/
theorem Side.reset (h : Side P r) {options : Options} {setting : Active} {since : List Message}
    (hcounted : Counted setting (since.map Message.kind) options.active)
    (hmodes : ∀ read, r.read = some read → (read.kind.isActive = true ↔ options.active ≠ .off)) :
    Side P { r with options := options, setting := setting, since := since } :=
  ⟨hmodes, hcounted, h.scheduled, h.held, h.fired, h.writes, h.select, h.waiter, h.still⟩

end ReadSide

open ReadSide

namespace Adapter

def readSide (a : Adapter) : ReadSide :=
  ⟨a.read, a.options, a.readScheduled, a.continuations, a.setting, a.since, a.waiter, a.fired,
    a.writeIssued, a.issued⟩

/-- What holds whenever a handler has returned, or is within `drive_read`. -/
structure Sound (calm : Prop) (a : Adapter) : Prop where
  side : Side calm a.readSide
  opening : a.control = .draining → a.continuations = 0 ∧ a.read = none
  driving : calm → ∀ deliveries, a.control = .driving deliveries → Quiet a.readSide

variable {P : Prop} {a b : Adapter}

theorem sound_of_settled (h : Side P b.readSide) (hcontrol : b.control = .idle ∨ b.control = .stopped) :
    Sound P b := by
  refine ⟨h, ?_, ?_⟩
  · intro hdraining
    rcases hcontrol with hcontrol | hcontrol <;> rw [hcontrol] at hdraining <;> cases hdraining
  · intro _ deliveries hdriving
    rcases hcontrol with hcontrol | hcontrol <;> rw [hcontrol] at hdriving <;> cases hdriving

theorem sound_keep (h : Side P a.readSide) : Sound P a.keep := sound_of_settled (b := a.keep) h (.inl rfl)

theorem sound_stop (h : Side P a.readSide) : Sound P a.stop := sound_of_settled (b := a.stop) h (.inr rfl)

theorem sound_drive (h : Side P a.readSide) (hquiet : P → Quiet a.readSide) (deliveries : Nat) :
    Sound P (a.drive deliveries) := by
  refine ⟨h, ?_, fun hcalm _ _ => hquiet hcalm⟩
  intro hdraining
  cases hdraining

/-! ## Parts of handlers -/

theorem side_scheduleReadContinuation (h : Side P a.readSide) :
    Side P a.scheduleReadContinuation.readSide := by
  unfold scheduleReadContinuation
  split
  · exact h
  · split
    · exact h
    · rename_i hscheduled
      split
      · exact h
      · rename_i hnone
        have hzero : a.continuations = 0 := by
          have hcount : a.continuations = a.readScheduled.toNat := h.scheduled
          rw [Bool.not_eq_true] at hscheduled
          rw [hcount, hscheduled]
          rfl
        refine ⟨h.modes, h.counted, ?_, h.held, h.fired, h.writes, h.select, h.waiter, ?_⟩
        · show a.continuations + 1 = 1
          rw [hzero]
        · intro _ _ read hread
          have hread' : a.read = some read := hread
          simpa [readReference, hread'] using hnone

theorem side_ensureActiveRead (h : Side P a.readSide) : Side P a.ensureActiveRead.readSide := by
  unfold ensureActiveRead
  split
  · exact h
  · rename_i hon
    split
    · exact h
    · rename_i hnone
      have hread : a.read = none := by simpa using hnone
      have hmode : activeRead.kind.isActive = true ↔ a.options.active ≠ .off :=
        ⟨fun _ => hon, fun _ => rfl⟩
      exact h.beginRead hread rfl hmode

theorem waiter_cancelReadSelect (h : Side P a.readSide) (hcalm : P) : a.cancelReadSelect.waiter = none := by
  show (if a.readReference.isSome ∧ a.waiter = a.readReference then none else a.waiter) = none
  split
  · rfl
  · rename_i hother
    cases hwaiter : a.waiter with
    | none => rfl
    | some ref =>
        obtain ⟨read, hread, href⟩ := h.waiter hcalm ref hwaiter
        have hread' : a.read = some read := hread
        simp [hwaiter, readReference, hread', href] at hother

theorem side_cancelReadSelect (h : Side P a.readSide) : Side P a.cancelReadSelect.readSide := by
  apply h.unselect
  · show (if a.readReference.isSome ∧ a.waiter = a.readReference then none else a.waiter) = none ∨
      (if a.readReference.isSome ∧ a.waiter = a.readReference then none else a.waiter) = a.waiter
    split
    · exact .inl rfl
    · exact .inr rfl
  · exact waiter_cancelReadSelect h

theorem sound_readFailure (h : Side P a.readSide) (hgone : P → a.waiter = none) (reason : Reason) :
    Sound P (a.readFailure reason) := by
  unfold readFailure
  split
  · exact sound_keep h
  · split
    · exact sound_keep (h.endRead hgone)
    · have hended : ∀ message ∈ [Message.udpError reason], message.kind = .terminal := by
        simp [Message.kind]
      exact sound_keep (h.off hgone hended)

/-! ## `drive_read` -/

theorem kinds_tellDatagram (a : Adapter) (datagram : Datagram) :
    (a.tellDatagram datagram).since.map Message.kind =
      a.since.map Message.kind ++ consumeKinds a.options.active := by
  cases hlast : (consumeActive a.options.active).2 <;>
    simp [tellDatagram, consume, tell, consumeKinds, hlast, Message.kind]

theorem tellDatagram_active (a : Adapter) (datagram : Datagram) :
    (a.tellDatagram datagram).options.active = (consumeActive a.options.active).1 := by
  cases hlast : (consumeActive a.options.active).2 <;> simp [tellDatagram, consume, tell, hlast]

theorem readSide_tellDatagram (a : Adapter) (datagram : Datagram) :
    (a.tellDatagram datagram).readSide = { a.readSide with
      options := (a.tellDatagram datagram).options, since := (a.tellDatagram datagram).since } := by
  cases hlast : (consumeActive a.options.active).2 <;> simp [tellDatagram, consume, tell, hlast, readSide]

theorem counted_tellDatagram (h : Side P a.readSide) (hactive : a.options.active ≠ .off) (datagram : Datagram) :
    Counted a.setting ((a.tellDatagram datagram).since.map Message.kind)
      (a.tellDatagram datagram).options.active := by
  rw [kinds_tellDatagram, tellDatagram_active]
  exact h.counted.consume hactive

/-- `a` has just taken its waiter back. -/
theorem sound_deliverDatagram (h : Side P a.readSide) (hquiet : P → Quiet a.readSide) {read old : Read}
    (hread : a.read = some old) (hkind : old.kind = read.kind) (datagram : Datagram) (deliveries : Nat) :
    Sound P (a.deliverDatagram read datagram deliveries) := by
  have hgone : P → a.readSide.waiter = none := fun hcalm => h.no_waiter hcalm (hquiet hcalm).2
  unfold deliverDatagram
  split
  · exact sound_keep (h.endRead hgone)
  · rename_i hactive
    have hmode : old.kind.isActive = true := by
      rw [hkind, hactive]
      rfl
    have hcounted := counted_tellDatagram h ((h.modes old hread).1 hmode) datagram
    have hside := readSide_tellDatagram a datagram
    split
    · apply sound_keep
      show Side P { (a.tellDatagram datagram).readSide with read := none }
      rw [hside]
      apply (h.endRead hgone).reset hcounted
      intro none hnone
      cases hnone
    · rename_i hleft
      apply sound_drive
      · rw [hside]
        apply h.reset hcounted
        intro same hsame
        obtain rfl : old = same := Option.some.inj (hread.symm.trans hsame)
        exact ⟨fun _ => hleft, fun _ => hmode⟩
      · intro hcalm
        rw [hside]
        exact hquiet hcalm

theorem sound_driveRead (h : Side P a.readSide) (hquiet : P → Quiet a.readSide) (deliveries : Nat)
    {answer : RecvfromAnswer} (hfresh : ∀ ref, answer.ref? = some ref →
      ref ∈ a.issued ∧ ref ∉ a.fired ∧ ref ∉ a.writeIssued) :
    Sound P (a.driveRead deliveries answer) := by
  unfold driveRead
  split
  · exact sound_keep h
  · rename_i read hread
    split
    · exact sound_keep h
    · split
      · split
        · exact sound_keep h
        · exact sound_keep (side_scheduleReadContinuation h)
      · split
        · rename_i datagram
          have hcancelled : a.cancelReadSelect.read = some { read with select := none } := by
            simp [cancelReadSelect, hread]
          apply sound_deliverDatagram (side_cancelReadSelect h) _ hcancelled rfl
          · intro hcalm
            refine ⟨(hquiet hcalm).1, ?_⟩
            intro cancelled hcancelled
            obtain ⟨old, -, rfl⟩ := Option.map_eq_some_iff.1 hcancelled
            rfl
        · rename_i ref
          obtain ⟨hissued, hfired, hwrite⟩ := hfresh ref rfl
          exact sound_keep (h.arm hread hissued hfired hwrite hquiet)
        · exact sound_readFailure h (fun hcalm => h.no_waiter hcalm (hquiet hcalm).2) _

/-! ## Calls -/

theorem sound_driveWrite (h : Side P a.readSide) {answer : SendtoAnswer}
    (hfresh : ∀ ref, answer.ref? = some ref → ref ∈ a.issued ∧
      ∀ read, a.read = some read → read.select ≠ some ref) : Sound P (a.driveWrite answer) := by
  unfold driveWrite
  split
  · exact sound_keep h
  · split
    · exact sound_keep h
    · rename_i ref
      obtain ⟨hissued, hother⟩ := hfresh ref rfl
      exact sound_keep (h.armWrite hissued hother)
    · exact sound_keep h

theorem sound_send (h : Side P a.readSide) (caller : Caller) (refused : Option Reason) {answer : SendtoAnswer}
    (hfresh : ∀ ref, answer.ref? = some ref → ref ∈ a.issued ∧
      ∀ read, a.read = some read → read.select ≠ some ref) : Sound P (a.send caller refused answer) := by
  unfold send
  split
  · exact sound_keep h
  · split
    · exact sound_keep h
    · split
      · exact sound_keep h
      · exact sound_driveWrite (a := { a with write := some ⟨caller, none⟩ }) h hfresh

/-- No `:continue_read` is on its way when a read is accepted. -/
def Calm (a : Adapter) : Event → Prop
  | .recv _ _ _ => a.options.active = .off → a.read = none → a.transfer = none → a.continuations = 0
  | _ => True

theorem sound_recv (h : Side P a.readSide) {caller : Caller} {length : Nat} {timer : Option Ref}
    (hcalm : P → a.Calm (.recv caller length timer)) : Sound P (a.recv caller length timer) := by
  unfold recv
  split
  · exact sound_keep h
  · rename_i hoff
    have hoff' : a.options.active = .off := by simpa using hoff
    split
    · exact sound_keep h
    · rename_i hread
      have hread' : a.read = none := by simpa using hread
      split
      · exact sound_keep h
      · rename_i htransfer
        have htransfer' : a.transfer = none := by simpa using htransfer
        apply sound_drive
        · apply h.beginRead hread' rfl
          constructor
          · intro hactive
            cases hactive
          · intro hon
            exact absurd hoff' hon
        · intro hP
          refine ⟨hcalm hP hoff' hread' htransfer', ?_⟩
          intro read hread
          obtain rfl := Option.some.inj hread
          rfl

/-! ## Options -/

theorem optionChangeAllowed_passive {updated : Options} {read : Read} (hread : a.read = some read)
    (hkind : read.kind.isActive = false) (h : a.optionChangeAllowed updated = .ok ()) :
    updated.active = .off := by
  obtain ⟨kind, length, select⟩ := read
  cases kind with
  | active => cases hkind
  | passive caller timer =>
      simp only [optionChangeAllowed, hread] at h
      split at h
      · cases h
      · rename_i hsame
        push Not at hsame
        exact hsame.1

theorem checkOptions_ok {settings : List Setting} {updated : Options}
    (h : a.checkOptions settings = .ok updated) :
    update .udpRuntime a.options settings = .ok updated ∧ a.optionChangeAllowed updated = .ok () := by
  unfold checkOptions at h
  cases hupdate : update .udpRuntime a.options settings with
  | error reason =>
      rw [hupdate] at h
      cases h
  | ok options =>
      rw [hupdate] at h
      cases hallowed : a.optionChangeAllowed options with
      | error reason =>
          simp only [bind, Except.bind, hallowed] at h
          cases h
      | ok _ =>
          simp only [bind, Except.bind, hallowed, pure, Except.pure] at h
          obtain rfl := Except.ok.inj h
          exact ⟨rfl, hallowed⟩

theorem counted_restart (h : Side P a.readSide) {settings : List Setting} {updated : Options}
    (hupdate : update .udpRuntime a.options settings = .ok updated) :
    Counted (a.restart settings updated).setting
      ((a.restart settings updated).since.map Message.kind) updated.active := by
  unfold restart
  split
  · exact Counted.start updated.active
  · rename_i hnone
    rw [update_active (by simpa using hnone) hupdate]
    exact h.counted

theorem restart_frame (a : Adapter) (settings : List Setting) (updated : Options) :
    (a.restart settings updated).readSide = { a.readSide with
      setting := (a.restart settings updated).setting, since := (a.restart settings updated).since } := by
  unfold restart
  split <;> rfl

theorem side_applyActiveChange (h : Side P a.readSide) {settings : List Setting} {updated : Options}
    (hupdate : update .udpRuntime a.options settings = .ok updated)
    (hallowed : a.optionChangeAllowed updated = .ok ()) :
    Side P ((a.restart settings updated).applyActiveChange updated).readSide := by
  have hcounted := counted_restart h hupdate
  have hside := restart_frame a settings updated
  generalize a.restart settings updated = c at *
  have hread : c.read = a.read := congrArg ReadSide.read hside
  have hreset : (∀ read, a.read = some read → (read.kind.isActive = true ↔ updated.active ≠ .off)) →
      Side P { c.readSide with options := updated } := by
    intro hmodes
    rw [hside]
    exact h.reset hcounted hmodes
  unfold applyActiveChange
  split
  · rename_i hoff
    split
    · -- the active read goes with its waiter; the reads of the state before had the old mode
      have hcancel : Side P (a.cancelReadSelect.readSide) := side_cancelReadSelect h
      have hended := hcancel.endRead (waiter_cancelReadSelect h)
      have hnone : ∀ read, (none : Option Read) = some read →
          (read.kind.isActive = true ↔ updated.active ≠ .off) := by
        intro read hnone
        cases hnone
      have hwaiter : c.cancelReadSelect.waiter = a.cancelReadSelect.waiter := by
        have hsame : c.waiter = a.waiter := congrArg ReadSide.waiter hside
        have href : c.readReference = a.readReference := congrArg (Option.bind · Read.select) hread
        simp only [cancelReadSelect, href, hsame]
      have hboth : ({ c.cancelReadSelect with options := updated, read := none } : Adapter).readSide =
          { { a.cancelReadSelect.readSide with read := none } with
            options := updated, setting := c.setting, since := c.since } := by
        show { { c.readSide with waiter := c.cancelReadSelect.waiter } with options := updated, read := none } = _
        rw [hwaiter, hside]
        rfl
      rw [hboth]
      exact hended.reset hcounted hnone
    · rename_i hpassive
      apply hreset
      intro read hold
      have hkind : read.kind.isActive = false := by
        simpa [hasActiveRead, hread, hold] using hpassive
      exact ⟨fun hactive => by simp [hkind] at hactive, fun hon => absurd hoff hon⟩
  · rename_i hon
    apply side_scheduleReadContinuation
    apply side_ensureActiveRead
    apply hreset
    intro read hold
    refine ⟨fun _ => hon, fun _ => ?_⟩
    cases hkind : read.kind.isActive with
    | true => rfl
    | false => exact absurd (optionChangeAllowed_passive hold hkind hallowed) hon

theorem sound_setOptions (h : Side P a.readSide) (caller : Caller) (settings : List Setting) :
    Sound P (a.setOptions caller settings) := by
  unfold setOptions
  split
  · rename_i updated hcheck
    obtain ⟨hupdate, hallowed⟩ := checkOptions_ok hcheck
    exact sound_keep (side_applyActiveChange h hupdate hallowed)
  · exact sound_keep h

/-! ## Change of owner -/

theorem sound_beginTransfer (h : Side P a.readSide) (caller : Caller) (newOwner : Pid) (alive : Bool)
    (token : Ref) : Sound P (a.beginTransfer caller newOwner alive token) := by
  unfold beginTransfer
  split
  · exact sound_keep h
  · split
    · exact sound_keep h
    · split
      · exact sound_keep h
      · split
        · exact sound_keep h
        · split <;> exact sound_keep h

theorem sound_commitTransfer (h : Side P a.readSide) (caller : Caller) (token : Ref) (messages : List Message)
    (alive : Bool) : Sound P (a.commitTransfer caller token messages alive) := by
  unfold commitTransfer
  split
  · exact sound_keep h
  · rename_i transfer _
    split
    · exact sound_keep h
    · split
      · exact sound_keep h
      · split
        · exact sound_keep (side_scheduleReadContinuation
            (a := { a with owner := transfer.newOwner, transfer := none }.forward messages) h)
        · exact sound_keep (side_scheduleReadContinuation (a := { a with transfer := none }) h)

/-! ## Messages -/

theorem sound_drainActive (h : Sound P a) (hdraining : a.control = .draining) : Sound P a.drainActive := by
  obtain ⟨hzero, hnone⟩ := h.opening hdraining
  have hside : Side P ({ a with readScheduled := false } : Adapter).readSide := by
    have hsame := h.side
    exact ⟨hsame.modes, hsame.counted, hzero, hsame.held, hsame.fired, hsame.writes, hsame.select,
      hsame.waiter, hsame.still⟩
  apply sound_drive (side_ensureActiveRead hside)
  intro _
  unfold ensureActiveRead
  split
  · refine ⟨hzero, ?_⟩
    intro read hread
    have hread' : a.read = some read := hread
    rw [hnone] at hread'
    cases hread'
  · split
    · rename_i hsome
      have hsome' : a.read.isSome = true := hsome
      rw [hnone] at hsome'
      cases hsome'
    · refine ⟨hzero, ?_⟩
      intro read hread
      obtain rfl := Option.some.inj hread
      rfl

theorem sound_continueRead (h : Side P a.readSide) (hqueued : 0 < a.continuations) :
    Sound P a.continueRead := by
  have hone : a.continuations - 1 = 0 := by
    have hcount : a.continuations = a.readScheduled.toNat := h.scheduled
    have hbit := Bool.toNat_le a.readScheduled
    omega
  apply sound_drive
  · refine ⟨h.modes, h.counted, hone, h.held, h.fired, h.writes, h.select, h.waiter, ?_⟩
    intro hcalm hpositive
    have hpositive' : 0 < a.continuations - 1 := hpositive
    omega
  · intro hcalm
    exact ⟨hone, h.still hcalm hqueued⟩

theorem side_handling (h : Side P a.readSide) (ref : Ref) : Side P (a.handling ref).readSide := by
  refine ⟨h.modes, h.counted, h.scheduled, h.held, ?_, h.writes, h.select, h.waiter, h.still⟩
  intro other hother
  exact h.fired other (List.mem_of_mem_erase hother)

/-- The message that a read waits for comes when the stack holds its waiter no more. -/
theorem waiter_handled (h : Side P a.readSide) (hcalm : P) {ref : Ref}
    (hsent : ref ∈ a.fired ∨ ref ∈ a.writeIssued) (href : a.readReference = some ref) : a.waiter = none := by
  obtain ⟨read, hread, hselect⟩ := Option.bind_eq_some_iff.1 href
  have hfired : ref ∈ a.fired := by
    rcases hsent with hfired | hwrite
    · exact hfired
    · exact absurd hselect ((h.writes ref hwrite).2 read hread)
  cases hwaiter : a.waiter with
  | none => rfl
  | some held =>
      obtain ⟨same, hsame, hheld⟩ := h.waiter hcalm held hwaiter
      obtain rfl : read = same := Option.some.inj (hread.symm.trans hsame)
      obtain rfl : ref = held := Option.some.inj (hselect.symm.trans hheld)
      exact absurd hwaiter (h.fired ref hfired).2

theorem side_forgetSelect (h : Side P a.readSide) (hgone : P → a.waiter = none) :
    Side P a.forgetSelect.readSide := h.unselect (.inr rfl) hgone

theorem sound_handleSelect (h : Side P a.readSide) {ref : Ref} (hsent : ref ∈ a.fired ∨ ref ∈ a.writeIssued)
    {answer : SendtoAnswer} (hfresh : ∀ ref, answer.ref? = some ref → ref ∈ a.issued ∧
      ∀ read, a.read = some read → read.select ≠ some ref) :
    Sound P ((a.handling ref).handleSelect ref answer) := by
  have hside := side_handling h ref
  unfold handleSelect
  split
  · rename_i href
    have href' : a.readReference = some ref := href
    have hgone : P → a.waiter = none := fun hcalm => waiter_handled h hcalm hsent href'
    apply sound_drive
    · exact side_forgetSelect hside hgone
    · intro hcalm
      constructor
      · -- a continuation is on its way only for a read without a waiter
        by_contra hqueued
        obtain ⟨read, hread, hselect⟩ := Option.bind_eq_some_iff.1 href'
        have hnone := h.still hcalm (Nat.pos_of_ne_zero hqueued) read hread
        rw [hselect] at hnone
        cases hnone
      · intro read hread
        obtain ⟨old, -, rfl⟩ := Option.map_eq_some_iff.1 hread
        rfl
  · split
    · exact sound_driveWrite (a := (a.handling ref).forgetWriteSelect) hside hfresh
    · exact sound_keep hside

theorem readSide_failRead (a : Adapter) (reason : Reason) : ∃ ended : List Message,
    (∀ message ∈ ended, message.kind = .terminal) ∧
    (a.failRead reason).readSide = { a.readSide with since := a.since ++ ended } := by
  unfold failRead
  split
  · split
    · exact ⟨[], by simp, by simp [readSide]⟩
    · exact ⟨[.udpError reason], by simp [Message.kind], by simp [readSide, tell]⟩
  · split
    · exact ⟨[], by simp, by simp [readSide, Adapter.reply]⟩
    · split
      · exact ⟨[], by simp, by simp [readSide]⟩
      · exact ⟨[.udpError reason], by simp [Message.kind], by simp [readSide, tell]⟩

theorem readSide_failWrite (a : Adapter) (reason : Reason) : (a.failWrite reason).readSide = a.readSide := by
  unfold failWrite
  split <;> rfl

/-- What holds in every state: a process that has stopped owes only its messages. -/
def Safe (calm : Prop) (a : Adapter) : Prop :=
  Sound calm a ∨ (a.control = .stopped ∧ Kept a.setting (a.since.map Message.kind))

theorem safe_failOperations (h : Side P a.readSide) (reason : Reason) (hcontrol : b.control = .stopped)
    (hside : b.readSide = (a.failOperations reason).readSide) : Safe P b := by
  obtain ⟨ended, hended, hread⟩ := readSide_failRead a reason
  have hall : ((a.failRead reason).failWrite reason).readSide =
      { a.readSide with since := a.since ++ ended } := by
    rw [readSide_failWrite, hread]
  have hsetting : b.setting = a.setting :=
    (congrArg ReadSide.setting hside).trans (congrArg ReadSide.setting hall)
  have hsince : b.since = a.since ++ ended :=
    (congrArg ReadSide.since hside).trans (congrArg ReadSide.since hall)
  refine .inr ⟨hcontrol, ?_⟩
  rw [hsetting, hsince, List.map_append]
  apply (h.counted.terminal _).kept
  intro kind hkind
  obtain ⟨message, hmessage, rfl⟩ := List.mem_map.1 hkind
  exact hended message hmessage

theorem safe_handleAbort (h : Side P a.readSide) {ref : Ref} (hsent : ref ∈ a.fired ∨ ref ∈ a.writeIssued)
    (reason : AbortReason) : Safe P ((a.handling ref).handleAbort ref reason) := by
  have hside := side_handling h ref
  unfold handleAbort
  split
  · exact safe_failOperations hside .enetdown rfl rfl
  · left
    split
    · rename_i href
      have href' : a.readReference = some ref := href
      have hgone : P → a.waiter = none := fun hcalm => waiter_handled h hcalm hsent href'
      exact sound_readFailure (side_forgetSelect hside hgone) hgone _
    · split
      · apply sound_keep
        rw [readSide_failWrite]
        exact hside
      · exact sound_keep hside

theorem sound_readTimeout (h : Side P a.readSide) (token : Ref) : Sound P (a.readTimeout token) := by
  unfold readTimeout
  split
  · split
    · exact sound_keep ((side_cancelReadSelect h).endRead (waiter_cancelReadSelect h))
    · exact sound_keep h
  · exact sound_keep h

/-- The waiter leaves the stack, and its message is on its way. -/
theorem side_fires (h : Side P a.readSide) :
    Side P ({ a with waiter := none, fired := a.waiter.toList ++ a.fired } : Adapter).readSide := by
  refine ⟨h.modes, h.counted, h.scheduled, ?_, ?_, h.writes, h.select, ?_, h.still⟩
  · intro ref href
    cases href
  · intro ref href
    refine ⟨?_, Option.some_ne_none ref |>.symm⟩
    rcases List.mem_append.1 href with hheld | hfired
    · exact h.held ref (Option.mem_toList.1 hheld)
    · exact (h.fired ref hfired).1
  · intro _ ref href
    cases href

/-! ## Runs -/

theorem safe_handle (h : Sound P a) {event : Event} (hcalm : P → a.Calm event)
    (hfresh : ∀ ref, event.ref? = some ref → ref ∈ a.issued ∧ ref ∉ a.fired ∧ ref ∉ a.writeIssued ∧
      ∀ read, a.read = some read → read.select ≠ some ref)
    (hstep : a.handle event = some b) : Safe P b := by
  cases event
  case stackExits =>
    obtain rfl := Option.some.inj hstep
    exact .inl ⟨h.side, h.opening, h.driving⟩
  case drive answer =>
    simp only [handle] at hstep
    split at hstep
    · rename_i deliveries hcontrol
      obtain ⟨-, rfl⟩ := Transition.guarded hstep
      left
      apply sound_driveRead h.side (fun hP => h.driving hP deliveries hcontrol)
      intro ref href
      obtain ⟨hissued, hfired, hwrite, -⟩ := hfresh ref href
      exact ⟨hissued, hfired, hwrite⟩
    · cases hstep
  all_goals obtain ⟨hguard, rfl⟩ := Transition.guarded hstep
  case fires => exact .inl ⟨side_fires h.side, h.opening, h.driving⟩
  case drainActive => exact .inl (sound_drainActive h hguard)
  case continueRead => exact .inl (sound_continueRead h.side hguard.2)
  case select ref answer =>
    left
    apply sound_handleSelect h.side hguard.2
    intro armed harmed
    obtain ⟨hissued, -, -, hother⟩ := hfresh armed harmed
    exact ⟨hissued, hother⟩
  case abort ref reason => exact safe_handleAbort h.side hguard.2 reason
  case readTimeout token => exact .inl (sound_readTimeout h.side token)
  case ownerDown => exact .inl (sound_stop h.side)
  case stackDown => exact safe_failOperations h.side .enetdown rfl rfl
  case shutdownExit =>
    unfold terminateShutdown
    split
    · exact safe_failOperations h.side .enetdown rfl rfl
    · exact .inl (sound_stop h.side)
  case send caller refused answer =>
    left
    apply sound_send h.side
    intro armed harmed
    obtain ⟨hissued, -, -, hother⟩ := hfresh armed harmed
    exact ⟨hissued, hother⟩
  case recv caller length timer => exact .inl (sound_recv h.side hcalm)
  case connect caller answer => exact .inl (sound_keep h.side)
  case close caller => exact safe_failOperations h.side .closed rfl rfl
  case setopts caller settings => exact .inl (sound_setOptions h.side caller settings)
  case beginTransfer caller newOwner alive token =>
    exact .inl (sound_beginTransfer h.side caller newOwner alive token)
  case commitTransfer caller token messages alive =>
    exact .inl (sound_commitTransfer h.side caller token messages alive)
  case unsupported caller => exact .inl (sound_keep h.side)

theorem sound_issue (h : Sound P a) (event : Event) : Sound P (a.issue event) := by
  have hside := h.side
  refine ⟨⟨hside.modes, hside.counted, hside.scheduled, ?_, ?_, ?_, ?_, hside.waiter, hside.still⟩,
    h.opening, h.driving⟩
  · intro ref href
    exact List.mem_append_right _ (hside.held ref href)
  · intro ref href
    exact ⟨List.mem_append_right _ (hside.fired ref href).1, (hside.fired ref href).2⟩
  · intro ref href
    exact ⟨List.mem_append_right _ (hside.writes ref href).1, (hside.writes ref href).2⟩
  · intro read ref hread href
    exact List.mem_append_right _ (hside.select read ref hread href)

/-- A process that has stopped does nothing more; the stack may still take note of that. -/
theorem kept_handle_stopped {event : Event} (hstopped : a.control = .stopped)
    (hstep : a.handle event = some b) : b.control = .stopped ∧ b.setting = a.setting ∧ b.since = a.since := by
  cases event with
  | stackExits =>
      obtain rfl := Option.some.inj hstep
      exact ⟨hstopped, rfl, rfl⟩
  | fires =>
      obtain ⟨-, rfl⟩ := Transition.guarded hstep
      exact ⟨hstopped, rfl, rfl⟩
  | _ => simp [handle, hstopped] at hstep

theorem safe_step (h : Safe P a) {event : Event} (hcalm : P → a.Calm event)
    (hstep : a.step event = some b) : Safe P b := by
  obtain ⟨hnew, hhandle⟩ : (event.ref?.all fun ref => decide (ref ∉ a.issued)) = true ∧
      (a.issue event).handle event = some b := by
    unfold step at hstep
    split at hstep
    · rename_i hnew
      exact ⟨hnew, hstep⟩
    · cases hstep
  rcases h with h | ⟨hstopped, hkept⟩
  · apply safe_handle (sound_issue h event) _ _ hhandle
    · cases event with
      | recv caller length timer => exact hcalm
      | _ => exact fun _ => trivial
    · intro ref href
      rw [href] at hnew
      have hfresh : ref ∉ a.issued := by simpa using hnew
      refine ⟨by simp [issue, href], fun hfired => hfresh (h.side.fired ref hfired).1,
        fun hwrite => hfresh (h.side.writes ref hwrite).1, ?_⟩
      intro read hread hselect
      exact hfresh (h.side.select read ref hread hselect)
  · obtain ⟨hcontrol, hsetting, hsince⟩ := kept_handle_stopped (a := a.issue event) hstopped hhandle
    refine .inr ⟨hcontrol, ?_⟩
    rw [hsetting, hsince]
    exact hkept

theorem sound_start (owner : Pid) (options : Options) : Sound P (start owner options) := by
  refine ⟨⟨?_, Counted.start _, rfl, ?_, ?_, ?_, ?_, ?_, ?_⟩, fun _ => ⟨rfl, rfl⟩, ?_⟩
  · intro read hread
    cases hread
  · intro ref href
    cases href
  · intro ref href
    cases href
  · intro ref href
    cases href
  · intro read ref hread
    cases hread
  · intro _ ref href
    cases href
  · intro _ _ read hread
    cases hread
  · intro _ deliveries hcontrol
    cases hcontrol

theorem reaches_safe {ok : Adapter → Event → Prop} (hok : ∀ a event, ok a event → P → a.Calm event)
    (h : Transition.Reaches Adapter.step ok Initial a) : Safe P a := by
  apply h.invariant (P := Safe P)
  · rintro _ ⟨owner, options, rfl⟩
    exact .inl (sound_start owner options)
  · intro a event b ha hevent hstep
    exact safe_step ha (hok a event hevent) hstep

/-! ## Active mode -/

theorem Safe.kept (h : Safe P a) : Kept a.setting (a.since.map Message.kind) := by
  rcases h with h | h
  · exact h.side.counted.kept
  · exact h.2

/-- In every run the owner is sent what the last setting of `active` allows; once that is used up,
active mode is off, and a read that is pending is a caller's. -/
theorem reaches_kept (h : Transition.Reaches Adapter.step (fun _ _ => True) Initial a) :
    Kept a.setting (a.since.map Message.kind) ∧
      (a.control ≠ .stopped → UsedUp a.setting (a.since.map Message.kind) →
        a.options.active = .off ∧ ∀ read, a.read = some read → read.kind.isActive = false) := by
  have hsafe : Safe False a := reaches_safe (fun _ _ _ hfalse => hfalse.elim) h
  refine ⟨hsafe.kept, ?_⟩
  intro hrunning hused
  rcases hsafe with hsound | ⟨hstopped, -⟩
  · have hoff : a.options.active = .off := hsound.side.counted.usedUp hused
    refine ⟨hoff, fun read hread => ?_⟩
    have hmode : read.kind.isActive = true ↔ a.options.active ≠ .off := hsound.side.modes read hread
    simpa [hoff] using hmode
  · exact absurd hstopped hrunning

/-- A `recv` is taken up: it is the pending read, `drive_read` goes on with it, and nothing is answered yet. -/
def Takes (a : Adapter) (caller : Caller) (length : Nat) (timer : Option Ref) : Prop :=
  (a.recv caller length timer).read = some ⟨.passive caller timer, length, none⟩ ∧
    (a.recv caller length timer).control = .driving maxActiveDeliveries ∧
    (a.recv caller length timer).outputs = a.outputs

/-- A `recv` in passive mode is taken up unless another read or a transfer is pending. -/
theorem recv_accepted (hoff : a.options.active = .off) (caller : Caller) (length : Nat) (timer : Option Ref) :
    (a.read = none → a.transfer = none → a.Takes caller length timer) ∧
    (a.Takes caller length timer ∨ ∃ reason, reason ≠ .einval ∧
      (a.recv caller length timer).outputs = a.outputs ++ [.reply caller (.error reason)]) := by
  unfold Takes recv
  rw [if_neg (by simpa using hoff)]
  split
  · rename_i hread
    exact ⟨fun hnone => by simp [hnone] at hread, .inr ⟨.busy, by decide, rfl⟩⟩
  · split
    · rename_i htransfer
      exact ⟨fun _ hnone => by simp [hnone] at htransfer, .inr ⟨.busy, by decide, rfl⟩⟩
    · exact ⟨fun _ _ => ⟨rfl, rfl, rfl⟩, .inl ⟨rfl, rfl, rfl⟩⟩

/-- In every run of either adapter, the messages since `active` was last set are what the setting allows:
so many data messages, the notice right behind the last of a quota, and nothing but notices that reading
has ended.  When they use the setting up, active mode is off, a read that is pending is a caller's, and `recv`
is taken up again. -/
theorem active_quota :
    (∀ a : Tcp.Adapter, Transition.Reaches Tcp.Adapter.step (fun _ _ => True) Tcp.Adapter.Initial a →
      Kept a.setting (a.since.map Tcp.Message.kind) ∧
      (a.control ≠ .stopped → UsedUp a.setting (a.since.map Tcp.Message.kind) →
        a.options.active = .off ∧ (∀ read, a.read = some read → read.kind.isActive = false) ∧
        ∀ caller length timer,
          (a.read = none → a.options.packet = .raw ∨ length ≤ receiveLimit a.options →
            a.Takes caller length timer) ∧
          (a.Takes caller length timer ∨ ∃ reason, reason ≠ .einval ∧
            (a.recv caller length timer).outputs = a.outputs ++ [.reply caller (.error reason)]))) ∧
    (∀ a : Adapter, Transition.Reaches step (fun _ _ => True) Initial a →
      Kept a.setting (a.since.map Message.kind) ∧
      (a.control ≠ .stopped → UsedUp a.setting (a.since.map Message.kind) →
        a.options.active = .off ∧ (∀ read, a.read = some read → read.kind.isActive = false) ∧
        ∀ caller length timer,
          (a.read = none → a.transfer = none → a.Takes caller length timer) ∧
          (a.Takes caller length timer ∨ ∃ reason, reason ≠ .einval ∧
            (a.recv caller length timer).outputs = a.outputs ++ [.reply caller (.error reason)]))) := by
  constructor
  · intro a h
    obtain ⟨hkept, hused⟩ := Tcp.Adapter.reaches_kept h
    refine ⟨hkept, fun hrunning hall => ?_⟩
    obtain ⟨hoff, hpassive⟩ := hused hrunning hall
    exact ⟨hoff, hpassive, Tcp.Adapter.recv_accepted hoff⟩
  · intro a h
    obtain ⟨hkept, hused⟩ := reaches_kept h
    refine ⟨hkept, fun hrunning hall => ?_⟩
    obtain ⟨hoff, hpassive⟩ := hused hrunning hall
    exact ⟨hoff, hpassive, recv_accepted hoff⟩

/-- One packet is asked for in active mode, and arrives. -/
def tcpOnce : List Tcp.Event :=
  [.drainActive, .drive (.ok []), .setopts ⟨1, 0⟩ [.active .once] none none, .continueRead, .drive (.ok [1]),
    .drive (.ok [])]

/-- One datagram is asked for in active mode, and arrives. -/
def udpOnce : List Event :=
  [.drainActive, .drive (.error .other), .setopts ⟨1, 0⟩ [.active .once], .continueRead,
    .drive (.ok ⟨.ipv4 0, 7, [1]⟩)]

def tcpActiveView (a : Tcp.Adapter) :
    Active × List MessageKind × Tcp.Control × Option Tcp.Read × Framing.PacketOption :=
  (a.setting, a.since.map Tcp.Message.kind, a.control, a.read, a.options.packet)

def udpActiveView (a : Adapter) : Active × List MessageKind × Control × Option Read × Bool :=
  (a.setting, a.since.map Message.kind, a.control, a.read, a.transfer.isSome)

theorem active_once_used_up :
    (∃ a, Transition.Reaches Tcp.Adapter.step (fun _ _ => True) Tcp.Adapter.Initial a ∧
      tcpActiveView a = (.once, [.data], .idle, none, .raw) ∧ a.options.active = .off ∧
      a.Takes ⟨3, 1⟩ 4 none) ∧
    (∃ a, Transition.Reaches step (fun _ _ => True) Initial a ∧
      udpActiveView a = (.once, [.data], .idle, none, false) ∧ a.options.active = .off ∧
      a.Takes ⟨3, 1⟩ 4 none) := by
  constructor
  · have hstart : Tcp.Adapter.Initial (Tcp.Adapter.start 1 (Tcp.Adapter.plainOptions .raw .off) .draining) :=
      ⟨1, _, .inl rfl⟩
    have hrun : (Transition.execute Tcp.Adapter.step (fun _ _ => True)
        (Tcp.Adapter.start 1 (Tcp.Adapter.plainOptions .raw .off) .draining) tcpOnce).map tcpActiveView =
        some (.once, [.data], .idle, none, .raw) := by decide +kernel
    obtain ⟨a, ha, hview⟩ := (Transition.Reaches.start hstart).observe hrun
    obtain ⟨hsetting, hkinds, hidle, hread, hraw⟩ : a.setting = .once ∧ a.since.map Tcp.Message.kind = [.data] ∧
        a.control = .idle ∧ a.read = none ∧ a.options.packet = .raw := by
      simpa only [tcpActiveView, Prod.mk.injEq] using hview
    obtain ⟨hoff, -, hrecv⟩ := (active_quota.1 a ha).2 (by simp [hidle]) (by simp [hsetting, hkinds, UsedUp])
    exact ⟨a, ha, hview, hoff, (hrecv ⟨3, 1⟩ 4 none).1 hread (.inl hraw)⟩
  · have hstart : Initial (start 1 (Tcp.Adapter.plainOptions .raw .off)) := ⟨1, _, rfl⟩
    have hrun : (Transition.execute step (fun _ _ => True)
        (start 1 (Tcp.Adapter.plainOptions .raw .off)) udpOnce).map udpActiveView =
        some (.once, [.data], .idle, none, false) := by decide +kernel
    obtain ⟨a, ha, hview⟩ := (Transition.Reaches.start hstart).observe hrun
    obtain ⟨hsetting, hkinds, hidle, hread, hstill⟩ : a.setting = .once ∧ a.since.map Message.kind = [.data] ∧
        a.control = .idle ∧ a.read = none ∧ a.transfer.isSome = false := by
      simpa only [udpActiveView, Prod.mk.injEq] using hview
    obtain ⟨hoff, -, hrecv⟩ := (active_quota.2 a ha).2 (by simp [hidle]) (by simp [hsetting, hkinds, UsedUp])
    exact ⟨a, ha, hview, hoff, (hrecv ⟨3, 1⟩ 4 none).1 hread (by simpa using hstill)⟩

end Adapter

end SmolNet.Inet6.Udp
