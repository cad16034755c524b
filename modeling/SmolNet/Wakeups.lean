import SmolNet.Partition

/-!
# No wakeup is lost

A key whose ready flag is set is scheduled: it is in the ready set, or was carried over, or an overflow or a
sweep under way will find it.  Wakers set a flag only as they enqueue its key or mark the overflow, and the end
of a call takes a key out of the schedule only to deliver it, which clears the flag.  A flag that was set for a
waiter is cleared only as the waiter leaves its slot.
-/

namespace SmolNet.NativeStack

open Std SocketTable

variable {s s' : NativeStack} {key : ReadyKey}

/-- The flag of a key of an open socket is set. -/
def Flagged (s : NativeStack) (key : ReadyKey) : Prop :=
  (∃ kind, s.socketTable.roster key.identity.id = some (key.identity.generation, kind, .open)) ∧
    s.socketTable.flag key = true

/-- Something will find the key. -/
def Queued (s : NativeStack) (key : ReadyKey) : Prop :=
  key ∈ s.ready.entries ∨ key ∈ s.readySweepPending ∨ s.ready.overflow = true ∨
    (s.readySweep = true ∧ (s.readySweepResweep = true ∨ AfterCursor s.readySweepCursor key))

/-- Every flagged key is in hand or scheduled. -/
def Scheduled (hand : List ReadyKey) (s : NativeStack) : Prop :=
  ∀ key, s.Flagged key → key ∈ hand ∨ s.Queued key

/-- The schedule of the sweep is as it was. -/
structure SameSweep (s s' : NativeStack) : Prop where
  readySweep : s'.readySweep = s.readySweep
  cursor : s'.readySweepCursor = s.readySweepCursor
  resweep : s'.readySweepResweep = s.readySweepResweep

/-- What was scheduled still is. -/
structure KeepsSchedule (s s' : NativeStack) : Prop extends SameSweep s s' where
  entries : ∀ key, key ∈ s.ready.entries → key ∈ s'.ready.entries
  pending : ∀ key, key ∈ s.readySweepPending → key ∈ s'.readySweepPending
  overflow : s.ready.overflow = true → s'.ready.overflow = true

theorem KeepsSchedule.of_eq (hready : s'.ready = s.ready) (hpending : s'.readySweepPending = s.readySweepPending)
    (hsweep : SameSweep s s') : KeepsSchedule s s' := by
  refine ⟨hsweep, fun key hkey => ?_, fun key hkey => ?_, fun h => ?_⟩
  · rwa [hready]
  · rwa [hpending]
  · rwa [hready]

theorem KeepsSchedule.trans {s'' : NativeStack} (h : KeepsSchedule s s') (h' : KeepsSchedule s' s'') :
    KeepsSchedule s s'' where
  readySweep := h'.readySweep.trans h.readySweep
  cursor := h'.cursor.trans h.cursor
  resweep := h'.resweep.trans h.resweep
  entries key hkey := h'.entries key (h.entries key hkey)
  pending key hkey := h'.pending key (h.pending key hkey)
  overflow hoverflow := h'.overflow (h.overflow hoverflow)

theorem KeepsSchedule.queued (h : KeepsSchedule s s') (hqueued : s.Queued key) : s'.Queued key := by
  rcases hqueued with hentries | hpending | hoverflow | ⟨hsweep, hrest⟩
  · exact .inl (h.entries key hentries)
  · exact .inr (.inl (h.pending key hpending))
  · exact .inr (.inr (.inl (h.overflow hoverflow)))
  · refine .inr (.inr (.inr ⟨h.readySweep.trans hsweep, ?_⟩))
    rw [h.resweep, h.cursor]
    exact hrest

/-- A change that flags nothing and keeps the schedule. -/
theorem Scheduled.quiet {hand : List ReadyKey} (h : Scheduled hand s) (hkeeps : KeepsSchedule s s')
    (hflagged : ∀ key, s'.Flagged key → s.Flagged key) : Scheduled hand s' :=
  fun key hkey => (h key (hflagged key hkey)).imp_right hkeeps.queued

/-! ## Flags -/

/-- Nobody joins or leaves, and no flag is set. -/
theorem Flagged.of_agrees (h : s'.Flagged key) (hagrees : Agrees s.socketTable s'.socketTable)
    (hflags : ∀ key, s'.socketTable.flag key = true → s.socketTable.flag key = true) : s.Flagged key := by
  obtain ⟨⟨kind, hroster⟩, hflag⟩ := h
  rw [hagrees.roster] at hroster
  exact ⟨⟨kind, hroster⟩, hflags key hflag⟩

theorem flag_clearFlag {table : SocketTable} {cleared : ReadyKey}
    (h : (table.clearFlag cleared).flag key = true) : key ≠ cleared ∧ table.flag key = true := by
  simp only [clearFlag, flag, ExtTreeSet.contains_erase, Bool.and_eq_true] at h
  refine ⟨fun heq => ?_, h.2⟩
  subst heq
  simp at h

theorem flag_rememberSent (table : SocketTable) (identity : SocketIdentity) (direction : Direction)
    (waiter : Waiter) : (table.rememberSent identity direction waiter).flag = table.flag := by
  unfold rememberSent
  split <;> rfl

/-- Delivering a key clears its flag. -/
theorem flagged_deliverReady {delivered : ReadyKey} (h : (s.deliverReady delivered).Flagged key) :
    s.Flagged key ∧ key ≠ delivered := by
  unfold deliverReady at h
  rcases s.socketTable.takeReadyWaiter_cases delivered with
    ⟨entry, waiter, hlookup, -, -, -, htake⟩ | ⟨entry, -, -, htake⟩ | ⟨htake, hclear⟩ | ⟨htake, hstale⟩
  · have hagrees := agrees_takeReadyWaiter s.socketTable delivered
    have hflags : ∀ key, (s.socketTable.takeReadyWaiter delivered).2.flag key = true →
        key ≠ delivered ∧ s.socketTable.flag key = true := by
      rw [htake]
      exact fun key hkey => flag_clearFlag hkey
    obtain ⟨table, htable⟩ : ∃ table, s.socketTable.takeReadyWaiter delivered = (.notify waiter, table) := ⟨_, htake⟩
    rw [htable] at h hagrees hflags
    obtain ⟨⟨kind, hroster⟩, hflag⟩ := h
    have hremembered := hagrees.trans (agrees_rememberSent table delivered.identity delivered.direction waiter)
    have hset : table.flag key = true := by
      rw [← flag_rememberSent table delivered.identity delivered.direction waiter]
      exact hflag
    refine ⟨⟨⟨kind, ?_⟩, (hflags key hset).2⟩, (hflags key hset).1⟩
    rw [← hremembered.roster]
    exact hroster
  · rw [htake] at h
    obtain ⟨hroster, hflag⟩ := h
    obtain ⟨hne, hset⟩ := flag_clearFlag hflag
    exact ⟨⟨hroster, hset⟩, hne⟩
  · rw [htake] at h
    refine ⟨h, fun heq => ?_⟩
    subst heq
    exact Bool.false_ne_true (hclear.symm.trans h.2)
  · rw [htake] at h
    refine ⟨h, fun heq => ?_⟩
    subst heq
    obtain ⟨kind, hroster⟩ := h.1
    obtain ⟨entry, hvalid⟩ := validate_iff_roster.2 hroster
    obtain ⟨hlookup, -, hopen⟩ := validate_eq_ok.1 hvalid
    exact hstale entry hlookup hopen

/-! ## The end of a call -/

theorem keepsSchedule_deliverReady (s : NativeStack) (delivered : ReadyKey) :
    KeepsSchedule s (s.deliverReady delivered) := by
  unfold deliverReady
  split
  · exact .of_eq rfl rfl ⟨rfl, rfl, rfl⟩
  · exact .of_eq rfl rfl ⟨rfl, rfl, rfl⟩

/-- A key in hand that is delivered is dealt with. -/
theorem Scheduled.deliver {hand : List ReadyKey} {delivered : ReadyKey} (h : Scheduled (delivered :: hand) s)
    (hrunning : s.lifecycle = .running) : Scheduled hand (s.deliverOrDiscardReady delivered) := by
  unfold deliverOrDiscardReady
  rw [if_pos hrunning]
  intro key hkey
  obtain ⟨hflagged, hne⟩ := flagged_deliverReady hkey
  rcases h key hflagged with hhand | hqueued
  · exact .inl ((List.mem_cons.1 hhand).resolve_left hne)
  · exact .inr ((keepsSchedule_deliverReady s delivered).queued hqueued)

theorem lifecycle_deliverOrDiscardReady (s : NativeStack) (delivered : ReadyKey) :
    (s.deliverOrDiscardReady delivered).lifecycle = s.lifecycle :=
  (ReadinessPath.deliverOrDiscardReady s delivered).undisturbed.lifecycle

/-- What delivering keys leaves: those that are still flagged are carried over. -/
structure Delivered (keys : List ReadyKey) (s s' : NativeStack) : Prop extends KeepsSchedule s s' where
  flagged : ∀ key, s'.Flagged key → s.Flagged key ∧ (key ∈ keys → key ∈ s'.readySweepPending)

theorem deliverKeys_delivered (keys : List ReadyKey) (left : Nat) (hrunning : s.lifecycle = .running) :
    Delivered keys s (deliverKeys keys left s).2 := by
  induction keys generalizing left s with
  | nil => exact ⟨.of_eq rfl rfl ⟨rfl, rfl, rfl⟩, fun key hkey => ⟨hkey, fun hmem => by cases hmem⟩⟩
  | cons first rest ih =>
      unfold deliverKeys
      by_cases hbudget : s.callBudget.checkpoint.1 = true
      · rw [if_pos hbudget]
        have hspent : s.spend.lifecycle = .running := hrunning
        have hkeeps : KeepsSchedule s (s.spend.deliverOrDiscardReady first) := by
          unfold deliverOrDiscardReady
          rw [if_pos hspent]
          have hspends : KeepsSchedule s s.spend := .of_eq rfl rfl ⟨rfl, rfl, rfl⟩
          exact hspends.trans (keepsSchedule_deliverReady s.spend first)
        have hrest := @ih (s.spend.deliverOrDiscardReady first) (left - 1)
          ((lifecycle_deliverOrDiscardReady _ _).trans hspent)
        refine ⟨hkeeps.trans hrest.toKeepsSchedule, fun key hkey => ?_⟩
        obtain ⟨hflagged, hpending⟩ := hrest.flagged key hkey
        unfold deliverOrDiscardReady at hflagged
        rw [if_pos hspent] at hflagged
        obtain ⟨hbefore, hne⟩ := flagged_deliverReady hflagged
        exact ⟨hbefore, fun hmem => hpending ((List.mem_cons.1 hmem).resolve_left hne)⟩
      · rw [if_neg hbudget]
        have hkeeps : KeepsSchedule s { s.spend with readySweepPending := s.readySweepPending ++ [first] } :=
          ⟨⟨rfl, rfl, rfl⟩, fun _ h => h, fun _ h => List.mem_append_left _ h, id⟩
        have hrest := @ih { s.spend with readySweepPending := s.readySweepPending ++ [first] } left hrunning
        refine ⟨hkeeps.trans hrest.toKeepsSchedule, fun key hkey => ?_⟩
        obtain ⟨hflagged, hpending⟩ := hrest.flagged key hkey
        refine ⟨hflagged, fun hmem => ?_⟩
        rcases List.mem_cons.1 hmem with rfl | hmem
        · exact hrest.pending key (List.mem_append_right _ List.mem_cons_self)
        · exact hpending hmem

theorem Scheduled.abortLoop (n : Nat) (h : Scheduled [] s) : Scheduled [] (NativeStack.abortLoop n s).2 := by
  induction n generalizing s with
  | zero => exact h
  | succ n ih =>
      unfold NativeStack.abortLoop
      split
      · exact h
      · split
        · exact ih (h.quiet (.of_eq rfl rfl ⟨rfl, rfl, rfl⟩) fun _ hkey => hkey)
        · exact h.quiet (.of_eq rfl rfl ⟨rfl, rfl, rfl⟩) fun _ hkey => hkey

/-- The overflow turns into a sweep, or into another round of the one under way. -/
theorem Scheduled.takeOverflow (h : Scheduled [] s) (hrunning : s.lifecycle = .running) :
    Scheduled [] s.takeOverflow := by
  intro key hkey
  have hflagged : s.Flagged key := by
    unfold NativeStack.takeOverflow at hkey
    split at hkey
    · split at hkey <;> exact hkey
    · exact hkey
  refine .inr ?_
  have hqueued := (h key hflagged).resolve_left List.not_mem_nil
  unfold NativeStack.takeOverflow
  by_cases hoverflow : s.ready.overflow = true
  · rw [if_pos ⟨hoverflow, hrunning⟩]
    split
    · rename_i hsweep
      exact .inr (.inr (.inr ⟨hsweep, .inl rfl⟩))
    · exact .inr (.inr (.inr ⟨rfl, .inr (afterCursor_none key)⟩))
  · rw [if_neg fun hboth => hoverflow hboth.1]
    rcases hqueued with hentries | hpending | hover | hsweep
    · exact .inl hentries
    · exact .inr (.inl hpending)
    · exact (hoverflow hover).elim
    · exact .inr (.inr (.inr hsweep))

/-- The keys that leave the ready set are in hand. -/
theorem Scheduled.drainReady (left : Nat) (h : Scheduled [] s) :
    Scheduled (NativeStack.drainReady left s).1 (NativeStack.drainReady left s).2 := by
  unfold NativeStack.drainReady
  split
  · exact h
  split
  · exact h.quiet (.of_eq rfl rfl ⟨rfl, rfl, rfl⟩) fun _ hkey => hkey
  split
  · intro key hkey
    rcases (h key hkey).resolve_left List.not_mem_nil with hentries | hrest
    · rcases ReadyQueue.mem_drainLoop.1 hentries with htaken | hleft
      · exact .inl htaken
      · exact .inr (.inl hleft)
    · exact .inr (.inr hrest)
  · intro key hkey
    exact .inr (.inr (.inr (.inl rfl)))

theorem Scheduled.deliverKeys {keys : List ReadyKey} (left : Nat) (h : Scheduled keys s)
    (hrunning : s.lifecycle = .running) : Scheduled [] (NativeStack.deliverKeys keys left s).2 := by
  have hdelivered := deliverKeys_delivered keys left hrunning
  intro key hkey
  obtain ⟨hflagged, hpending⟩ := hdelivered.flagged key hkey
  rcases h key hflagged with hhand | hqueued
  · exact .inr (.inr (.inl (hpending hhand)))
  · exact .inr (hdelivered.queued hqueued)

theorem Scheduled.pendingLoop (n : Nat) (h : Scheduled [] s) (hrunning : s.lifecycle = .running) :
    Scheduled [] (NativeStack.pendingLoop n s).2 := by
  induction n generalizing s with
  | zero => exact h
  | succ n ih =>
      unfold NativeStack.pendingLoop
      split
      · exact h
      · rename_i first rest hpending
        split
        · have hhand : Scheduled [first] { s.spend with readySweepPending := rest } := by
            intro key hkey
            rcases (h key hkey).resolve_left List.not_mem_nil with hentries | hcarried | hrest
            · exact .inr (.inl hentries)
            · rw [hpending] at hcarried
              rcases List.mem_cons.1 hcarried with rfl | hcarried
              · exact .inl List.mem_cons_self
              · exact .inr (.inr (.inl hcarried))
            · exact .inr (.inr (.inr hrest))
          exact ih (hhand.deliver hrunning) ((lifecycle_deliverOrDiscardReady _ _).trans hrunning)
        · exact h.quiet (.of_eq rfl rfl ⟨rfl, rfl, rfl⟩) fun _ hkey => hkey

/-- A slice of the sweep delivers what it has passed, and what it has not is still ahead of the cursor. -/
theorem Delivered.advanceSweep {scan : ReadyScan} {d : NativeStack} (hdelivered : Delivered scan.keys s d)
    (h : Scheduled [] s) (hsweep : s.readySweep = true) (hnone : s.readySweepPending = [])
    (hcovers : ∀ key, s.Flagged key → AfterCursor s.readySweepCursor key → Covers scan key) :
    Scheduled [] (d.advanceSweep scan) := by
  intro key hkey
  have hkey' : d.Flagged key := by
    unfold NativeStack.advanceSweep at hkey
    split at hkey <;> exact hkey
  obtain ⟨hflagged, hpending⟩ := hdelivered.flagged key hkey'
  refine .inr ?_
  unfold NativeStack.advanceSweep
  -- a flag may be behind the cursor only if the sweep will run again
  rcases (h key hflagged).resolve_left List.not_mem_nil with hentries | hcarried | hoverflow | ⟨-, hresweep | hafter⟩
  · split <;> exact .inl (hdelivered.entries key hentries)
  · rw [hnone] at hcarried
    cases hcarried
  · split <;> exact .inr (.inr (.inl (hdelivered.overflow hoverflow)))
  · have hresweep' : d.readySweepResweep = true := hdelivered.resweep.trans hresweep
    by_cases hcomplete : scan.complete = true
    · rw [if_pos ⟨hcomplete, hresweep'⟩]
      exact .inr (.inr (.inr ⟨hdelivered.readySweep.trans hsweep, .inr (afterCursor_none key)⟩))
    · rw [if_neg fun hboth => hcomplete hboth.1]
      refine .inr (.inr (.inr ⟨?_, .inl hresweep'⟩))
      simp [hcomplete]
  · rcases hcovers key hflagged hafter with hmem | ⟨hincomplete, hbehind⟩
    · split <;> exact .inr (.inl (hpending hmem))
    · rw [if_neg fun hboth => by simp [hincomplete] at hboth]
      refine .inr (.inr (.inr ⟨?_, .inr ?_⟩))
      · simp [hincomplete]
      · simpa [hincomplete] using hbehind

theorem Scheduled.sweepReady (left : Nat) (h : Scheduled [] s) (hrunning : s.lifecycle = .running) :
    Scheduled [] (NativeStack.sweepReady left s).2 := by
  unfold NativeStack.sweepReady
  by_cases hsweeps : s.readySweep = true ∧ s.readySweepPending = [] ∧ 0 < left
  · rw [if_pos hsweeps]
    refine Delivered.advanceSweep ?_ h hsweeps.1 hsweeps.2.1 fun key hflagged hafter => ?_
    · have hsame := @deliverKeys_delivered
        { s with callBudget := (s.socketTable.scanReady s.readySweepCursor left left s.callBudget).2 }
        (s.socketTable.scanReady s.readySweepCursor left left s.callBudget).1.keys left hrunning
      exact ⟨⟨⟨hsame.readySweep, hsame.cursor, hsame.resweep⟩, hsame.entries, hsame.pending, hsame.overflow⟩,
        hsame.flagged⟩
    · obtain ⟨⟨kind, hroster⟩, hflag⟩ := hflagged
      obtain ⟨entry, hvalid⟩ := validate_iff_roster.2 hroster
      exact scanReady_covers _ _ _ _ _ (lookup_eq_some.1 (validate_eq_ok.1 hvalid).1) hflag hafter
  · rw [if_neg hsweeps]
    exact h

theorem Scheduled.readinessLeft (more : Bool) (h : Scheduled [] s) : Scheduled [] (s.readinessLeft more).2 := by
  unfold NativeStack.readinessLeft readyPending
  split
  · exact h
  · split
    · exact h
    · exact h.quiet (.of_eq rfl rfl ⟨rfl, rfl, rfl⟩) fun _ hkey => hkey

theorem Scheduled.deliverReadiness (h : Scheduled [] s) (hrunning : s.lifecycle = .running)
    (aborts : List PendingNotification) : Scheduled [] (NativeStack.deliverReadiness aborts s).2 := by
  unfold NativeStack.deliverReadiness
  dsimp only
  have hqueued : Scheduled [] (s.queueAborts aborts) :=
    h.quiet (.of_eq rfl rfl ⟨rfl, rfl, rfl⟩) fun _ hkey => hkey
  have haborted := hqueued.abortLoop s.limits.readyEvents
  have haborting := ReadinessPath.abortLoop s.limits.readyEvents (s.queueAborts aborts)
  generalize NativeStack.abortLoop s.limits.readyEvents (s.queueAborts aborts) = aborted at haborted haborting ⊢
  have hrunning₁ : aborted.2.lifecycle = .running := haborting.undisturbed.lifecycle.trans hrunning
  have hover := haborted.takeOverflow hrunning₁
  have hrunning₂ := (ReadinessPath.takeOverflow aborted.2).undisturbed.lifecycle.trans hrunning₁
  have hdrained := hover.drainReady aborted.1
  have hrunning₃ := (ReadinessPath.drainReady aborted.1 aborted.2.takeOverflow).undisturbed.lifecycle.trans hrunning₂
  generalize NativeStack.drainReady aborted.1 aborted.2.takeOverflow = drained at hdrained hrunning₃ ⊢
  have hdelivered := hdrained.deliverKeys aborted.1 hrunning₃
  have hrunning₄ := (ReadinessPath.deliverKeys drained.1 aborted.1 drained.2).undisturbed.lifecycle.trans hrunning₃
  generalize NativeStack.deliverKeys drained.1 aborted.1 drained.2 = delivered at hdelivered hrunning₄ ⊢
  have hresumed := hdelivered.pendingLoop delivered.1 hrunning₄
  have hrunning₅ := (ReadinessPath.pendingLoop delivered.1 delivered.2).undisturbed.lifecycle.trans hrunning₄
  exact hresumed.sweepReady _ hrunning₅

theorem Scheduled.finish (h : Scheduled [] s) (hrunning : s.lifecycle = .running) (result : Reply)
    (effects : Effects) (aborts : List PendingNotification) :
    Scheduled [] (NativeStack.finish result effects aborts s).2 := by
  have hleft := (h.deliverReadiness hrunning aborts).readinessLeft effects.more
  unfold NativeStack.finish
  dsimp only
  split <;> exact hleft.quiet (.of_eq rfl rfl ⟨rfl, rfl, rfl⟩) fun _ hkey => hkey

/-! ## Steps -/

/-- A waker sets the flag of a key and schedules it. -/
theorem Scheduled.wake (h : Scheduled [] s) (woken : ReadyKey) : Scheduled [] (s.wake woken) := by
  unfold NativeStack.wake
  dsimp only
  split
  · exact h.quiet ⟨⟨rfl, rfl, rfl⟩, fun _ hkey => hkey, fun _ hkey => hkey, id⟩ fun _ hkey => hkey
  · rintro key ⟨hroster, hflag⟩
    refine .inr ?_
    unfold ReadyQueue.enqueue
    split
    · have hset : woken = key ∨ s.socketTable.flag key = true := by
        change (s.socketTable.flags.insert woken).contains key = true at hflag
        rw [ExtTreeSet.contains_insert, Bool.or_eq_true, beq_iff_eq] at hflag
        exact hflag.imp_left Std.LawfulEqCmp.eq_of_compare
      rcases hset with rfl | hset
      · exact .inl ExtTreeSet.mem_insert_self
      · rcases (h key ⟨hroster, hset⟩).resolve_left List.not_mem_nil with hentries | hrest
        · exact .inl (ExtTreeSet.mem_insert.2 (.inr hentries))
        · exact .inr hrest
    · exact .inr (.inr (.inl rfl))

theorem Scheduled.markListenerReady (h : Scheduled [] s) (identity : SocketIdentity) :
    Scheduled [] (s.markListenerReady identity) := by
  unfold NativeStack.markListenerReady
  split
  · exact h.wake _
  · exact h

/-- A new entry has its flags clear. -/
theorem Flagged.of_enroll {identity : SocketIdentity} {kind : SocketKind} (h : s'.Flagged key)
    (htable : s'.socketTable = s.socketTable.insertEntry identity kind) : s.Flagged key := by
  obtain ⟨⟨kind', hroster⟩, hflag⟩ := h
  rw [htable] at hroster hflag
  have hcleared : (((s.socketTable.putEntry identity (.new kind)).clearFlag ⟨identity, .read⟩).clearFlag
      ⟨identity, .write⟩).flag key = true := hflag
  obtain ⟨hwrite, hcleared⟩ := flag_clearFlag hcleared
  obtain ⟨hread, hflag⟩ := flag_clearFlag hcleared
  rw [roster_insertEntry, Function.update_apply] at hroster
  split at hroster
  · rename_i hid
    -- the key would be one of the two whose flags were cleared
    simp only [Option.some.injEq, Prod.mk.injEq] at hroster
    obtain ⟨⟨id, generation⟩, direction⟩ := key
    obtain ⟨id', generation'⟩ := identity
    dsimp only at hid hroster
    obtain rfl := hid
    obtain ⟨rfl, -⟩ := hroster
    cases direction with
    | read => exact (hread rfl).elim
    | write => exact (hwrite rfl).elim
  · exact ⟨⟨kind', hroster⟩, hflag⟩

theorem Flagged.of_erase {id : Nat} (h : s'.Flagged key)
    (hentries : s'.socketTable.entries = s.socketTable.entries.erase id)
    (hflags : s'.socketTable.flags = s.socketTable.flags) : s.Flagged key := by
  obtain ⟨⟨kind, hroster⟩, hflag⟩ := h
  rw [roster_erase hentries, Function.update_apply] at hroster
  split at hroster
  · cases hroster
  · refine ⟨⟨kind, hroster⟩, ?_⟩
    rw [flag, ← hflags]
    exact hflag

theorem DriveStep.scheduled {label : StepLabel} (hstep : DriveStep s label s') (h : Scheduled [] s) :
    Scheduled [] s' := by
  cases hstep with
  | wake woken => exact h.wake woken
  | promote hlistener hpool hsocket hstate htuple hbacklog hid hlogical hnative hbuffers =>
      refine Scheduled.markListenerReady ?_ _
      exact h.quiet (.of_eq rfl rfl ⟨rfl, rfl, rfl⟩) fun key hkey => hkey.of_enroll rfl
  | _ => exact h.quiet (.of_eq rfl rfl ⟨rfl, rfl, rfl⟩) fun _ hkey => hkey

/-- As long as the stack runs, every step keeps the schedule. -/
theorem Step.scheduled {label : StepLabel} (hstep : Step s label s') (h : Scheduled [] s)
    (hrunning : s'.lifecycle = .running) : Scheduled [] s' := by
  have hbefore := hstep.running hrunning
  cases hstep with
  | drive hstep => exact hstep.scheduled h
  | finish result effects haborts => exact h.finish hbefore result effects _
  | install hinstall hactive hqueue =>
      obtain ⟨entry, hlookup, -, -, rfl⟩ := installWaiter_armed hinstall
      refine h.quiet (.of_eq rfl rfl ⟨rfl, rfl, rfl⟩) fun key hkey => ?_
      exact hkey.of_agrees (.of_putEntry hlookup (by simp) (by simp) rfl rfl rfl) fun _ hflag => hflag
  | abort habort =>
      obtain ⟨entry, hlookup, -, -, rfl⟩ := takeWaiter_some habort
      refine h.quiet (.of_eq rfl rfl ⟨rfl, rfl, rfl⟩) fun key hkey => ?_
      exact hkey.of_agrees (.of_putEntry hlookup (by simp) (by simp) rfl rfl rfl) fun _ hflag =>
        (flag_clearFlag hflag).2
  | cancel hcancel hentry hwaiter =>
      obtain ⟨entry, waiter, hlookup, -, -, rfl⟩ := cancel_cancelled hcancel
      refine h.quiet (.of_eq rfl rfl ⟨rfl, rfl, rfl⟩) fun key hkey => ?_
      exact hkey.of_agrees (.of_putEntry hlookup (by simp) (by simp) rfl rfl rfl) fun _ hflag =>
        (flag_clearFlag hflag).2
  | close hclose =>
      obtain ⟨entry, hlookup, -, rfl⟩ := close_ok hclose
      exact h.quiet (.of_eq rfl rfl ⟨rfl, rfl, rfl⟩) fun key hkey => hkey.of_erase rfl rfl
  | openTcp => exact h.quiet (.of_eq rfl rfl ⟨rfl, rfl, rfl⟩) fun key hkey => hkey.of_enroll rfl
  | openUdp => exact h.quiet (.of_eq rfl rfl ⟨rfl, rfl, rfl⟩) fun key hkey => hkey.of_enroll rfl
  | beginShutdown reason => cases hrunning
  | closeNext hdown hin hentry => exact (hdown hbefore).elim
  | endShutdown hdown => cases hrunning
  | _ => exact h.quiet (.of_eq rfl rfl ⟨rfl, rfl, rfl⟩) fun _ hkey => hkey

/-! ## Waiters whose wakers have fired -/

/-- If the waker of a filled slot has fired since the slot was filled, its flag is set. -/
def Noted (s : NativeStack) : Prop :=
  ∀ key, s.slot key ≠ none → firedSince key s.history.events = true → s.socketTable.flag key = true

theorem Noted.posts {posted : List WaiterEvent} (h : s.Noted) (hs : s.Accounted) (hs' : s'.Accounted)
    (hposts : Posts s posted s') : s'.Noted := by
  intro key hslot hfired
  rw [hposts.events, firedSince_append] at hfired
  refine hposts.flags key hslot (hfired.imp_right fun ⟨hbefore, hlife⟩ => ⟨h key ?_ hbefore, hlife⟩)
  -- the slot is what its events make of it, and there are no new ones
  have hafter := hs'.slots key
  rw [Occupies, hposts.events, lifeline_append, hlife, List.append_nil] at hafter
  rwa [Option.some.inj ((hs.slots key).symm.trans hafter)]

theorem Noted.slotStep {P : ReadyKey → Prop} (h : s.Noted) (hs : s.Accounted) (hstep : SlotStep P s s') :
    s'.Noted := by
  have hs' := hs.slotStep hstep
  cases hstep with
  | rest _ _ _ hposts => exact h.posts hs hs' hposts
  | enroll _ _ _ _ hposts => exact h.posts hs hs' hposts
  | turn _ _ _ _ _ _ _ _ hposts => exact h.posts hs hs' hposts
  | drop _ _ _ hposts => exact h.posts hs hs' hposts
  | send htable _ _ hevents =>
      intro key hslot hfired
      rw [slot, htable] at hslot
      rw [hevents, firedSince_concat] at hfired
      rw [htable]
      exact h key hslot (by simpa [WaiterEvent.slotKey?] using hfired)

theorem Step.noted {label : StepLabel} (hstep : Step s label s') (hs : s.Accounted) (h : s.Noted) : s'.Noted := by
  have hkept : s'.Accounted ∧ s'.Noted :=
    hstep.slots.rec ⟨hs, h⟩ fun _ hslot ih => ⟨ih.1.slotStep hslot, ih.2.slotStep ih.1 hslot⟩
  exact hkept.2

/-! ## Runs -/

theorem socketTable_new {limits : Limits} {config : StackConfig} {id generation : Nat}
    (h : NativeStack.new limits config id generation = .ok s) :
    s.socketTable = .new limits.sockets (limits.sockets * 2) := by
  unfold NativeStack.new at h
  split at h
  · cases h
  · split at h
    · cases h
    · obtain rfl := Except.ok.inj h
      rfl

/-- In every state between calls of a stack that runs, what is flagged is scheduled. -/
theorem Reachable.scheduled (h : Reachable s) (hrunning : s.lifecycle = .running) : Scheduled [] s := by
  refine h.keeps (P := fun t => t.lifecycle = .running → Scheduled [] t) ?_ ?_ ?_ ?_ hrunning
  · rintro limits config id generation t hnew - key ⟨⟨kind, hroster⟩, -⟩
    rw [socketTable_new hnew] at hroster
    simp [SocketTable.new, roster] at hroster
  · exact fun t world ht hrun => (ht hrun).quiet (.of_eq rfl rfl ⟨rfl, rfl, rfl⟩) fun _ hkey => hkey
  · exact fun t ht hrun => (ht hrun).quiet (.of_eq rfl rfl ⟨rfl, rfl, rfl⟩) fun _ hkey => hkey
  · exact fun t label t' _ ht hstep hrun => hstep.scheduled (ht (hstep.running hrun)) hrun

theorem Reachable.noted (h : Reachable s) : s.Noted := by
  refine h.keeps (P := Noted) ?_ (fun _ _ ht => ht) (fun _ ht => ht) fun _ _ _ hregular ht hstep =>
    hstep.noted hregular.accounted ht
  intro limits config id generation t hnew key hslot
  rw [slot, socketTable_new hnew] at hslot
  simp [SocketTable.new, lookup] at hslot

theorem Sound.flagged (h : s.Sound) {entry : SocketEntry} (hlookup : s.socketTable.lookup key.identity = some entry)
    (hflag : s.socketTable.flag key = true) : s.Flagged key := by
  have hroster := roster_of_lookup hlookup
  have hopen := (h.rostered.entry _ _ _ _ hroster).1
  rw [hopen] at hroster
  exact ⟨⟨entry.kind, hroster⟩, hflag⟩

/-- Where no readiness work is left, nothing is scheduled. -/
theorem Settled.not_queued (h : s.Settled) (key : ReadyKey) : ¬ s.Queued key := by
  rintro (hentries | hpending | hoverflow | ⟨hsweep, -⟩)
  · have hempty := ExtTreeSet.isEmpty_iff.1 h.ready
    rw [hempty] at hentries
    simp at hentries
  · rw [h.readySweepPending] at hpending
    cases hpending
  · rw [h.overflow] at hoverflow
    cases hoverflow
  · rw [h.readySweep] at hsweep
    cases hsweep

theorem Reachable.queued (h : Reachable s) (hrunning : s.lifecycle = .running) {entry : SocketEntry}
    (hlookup : s.socketTable.lookup key.identity = some entry) (hflag : s.socketTable.flag key = true) :
    s.Queued key :=
  (h.scheduled hrunning key (h.regular.1.sound.flagged hlookup hflag)).resolve_left List.not_mem_nil

theorem Noted.lookup (h : s.Noted) {waiter : Waiter} (hslot : s.slot key = some waiter)
    (hfired : firedSince key s.history.events = true) :
    ∃ entry, s.socketTable.lookup key.identity = some entry ∧ s.socketTable.flag key = true := by
  obtain ⟨entry, hlookup, -⟩ := Option.bind_eq_some_iff.1 hslot
  exact ⟨entry, hlookup, h key (Option.ne_none_iff_exists'.2 ⟨waiter, hslot⟩) hfired⟩

/-- No wakeup is lost: a flag that is set is scheduled, and so is an armed waiter whose waker has fired; a call that
leaves the stack running and asks for no continuation leaves no flag set and no such waiter. -/
theorem no_lost_wakeup (h : Reachable s) :
    (s.lifecycle = .running →
      (∀ key entry, s.socketTable.lookup key.identity = some entry → s.socketTable.flag key = true →
        key ∈ s.ready.entries ∨ key ∈ s.readySweepPending ∨ s.ready.overflow = true ∨
          (s.readySweep = true ∧ (s.readySweepResweep = true ∨ AfterCursor s.readySweepCursor key))) ∧
      ∀ key waiter, s.slot key = some waiter → firedSince key s.history.events = true → s.Queued key) ∧
    ∀ call world envelope, (s.call call world).1 = .envelope envelope → envelope.more = false →
      (s.call call world).2.lifecycle = .running →
      (∀ key entry, (s.call call world).2.socketTable.lookup key.identity = some entry →
        (s.call call world).2.socketTable.flag key = false) ∧
      ∀ key waiter, (s.call call world).2.slot key = some waiter →
        firedSince key (s.call call world).2.history.events = false := by
  constructor
  · intro hrunning
    refine ⟨fun key entry hlookup hflag => h.queued hrunning hlookup hflag, fun key waiter hslot hfired => ?_⟩
    obtain ⟨entry, hlookup, hflag⟩ := h.noted.lookup hslot hfired
    exact h.queued hrunning hlookup hflag
  · intro call world envelope hanswer hmore hrunning
    have hnext : Reachable (s.call call world).2 := .call call world h
    have hclear : ∀ key, ¬ (s.call call world).2.Queued key := by
      obtain ⟨hregular, hin⟩ := h.regular
      rcases hregular.completes_or_fails hin (fun _ _ _ => trivial) call world (allowed_any call _) with
        ⟨answered, t, hcall, hdone⟩ | ⟨error, t, hcall, -⟩
      · rw [hcall] at hanswer hrunning ⊢
        obtain rfl := Answer.envelope.inj hanswer
        exact (hdone.settled hrunning hmore).not_queued
      · rw [hcall] at hanswer
        cases hanswer
    refine ⟨fun key entry hlookup => ?_, fun key waiter hslot => ?_⟩
    · exact Bool.eq_false_iff.2 fun hflag => hclear key (hnext.queued hrunning hlookup hflag)
    · refine Bool.eq_false_iff.2 fun hfired => ?_
      obtain ⟨entry, hlookup, hflag⟩ := hnext.noted.lookup hslot hfired
      exact hclear key (hnext.queued hrunning hlookup hflag)

/-- A receive waits on a bound socket.  Its waker fires while smoltcp sends, and the budget ends before the key is
delivered. -/
def wokenRun : List (Call × World) :=
  [(.udpOpen .inet6, {}), (.udpBind ⟨1, 1⟩ ⟨Script.host, 5353, 0⟩, {}), (.udpRecvfrom ⟨1, 1⟩ 0 7 9 0, {}),
    (.poll 0, {
      budget := [true, true, false]
      egressPolls := [.done (fun sockets => ⟨sockets, [⟨⟨1, 1⟩, .read⟩], false⟩) fun sockets => .refl sockets] })]

def woken : NativeStack := (Script.stack.run wokenRun).2

theorem no_lost_wakeup_woken :
    woken.slot ⟨⟨1, 1⟩, .read⟩ = some ⟨7, .recvfrom, 9⟩ ∧
      firedSince ⟨⟨1, 1⟩, .read⟩ woken.history.events = true ∧ woken.Queued ⟨⟨1, 1⟩, .read⟩ ∧
      (woken.call (.poll 0) {}).2.socketTable.flag ⟨⟨1, 1⟩, .read⟩ = false := by
  have hreach : Reachable woken := Script.reachable_stack.run wokenRun
  have hslot : woken.slot ⟨⟨1, 1⟩, .read⟩ = some ⟨7, .recvfrom, 9⟩ := by decide +kernel
  have hfired : firedSince ⟨⟨1, 1⟩, .read⟩ woken.history.events = true := by decide +kernel
  have hnext : (woken.call (.poll 0) {}).1 = .envelope ⟨.ok, [], none, false⟩ := by decide +kernel
  have hfound : ((woken.call (.poll 0) {}).2.socketTable.lookup ⟨1, 1⟩).isSome = true := by decide +kernel
  obtain ⟨entry, hentry⟩ := Option.isSome_iff_exists.1 hfound
  obtain ⟨hscheduled, hclear⟩ := no_lost_wakeup hreach
  exact ⟨hslot, hfired, (hscheduled (by decide +kernel)).2 _ _ hslot hfired,
    (hclear (.poll 0) {} _ hnext rfl (by decide +kernel)).1 ⟨⟨1, 1⟩, .read⟩ entry hentry⟩

end SmolNet.NativeStack
