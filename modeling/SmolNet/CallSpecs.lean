import SmolNet.DriveSpecs

/-!
# How calls are made of steps

A call checks and changes the stack, and then either drives it or not, before it finishes.  What the
call has done when it finishes, or when it fails, is a sequence of steps that leaves the device
alone; the drive between is the only part that moves packets.
-/

namespace SmolNet.NativeStack

open Std Program Ownership BeamDevice

variable {ε : Type} {s s' : NativeStack} {ok : NativeStack → StepLabel → Prop} {effects : Effects}
  {aborts : List PendingNotification}

/-! ## Configuration -/

theorem Step.limits {label : StepLabel} (h : Step s label s') : s'.limits = s.limits := by
  cases h with
  | drive h =>
      cases h with
      | wake key => exact (s.undisturbed_wake key).limits
      | promote => exact (undisturbed_markListenerReady _ _).limits
      | _ => rfl
  | finish result effects _ => exact (undisturbed_finish result effects _ s).limits
  | _ => rfl

theorem Path.limits (h : Path ok s s') : s'.limits = s.limits :=
  h.keeps (P := fun t => t.limits = s.limits) (fun _ _ _ ht hstep _ => hstep.limits.trans ht) rfl

/-! ## Before a call finishes -/

/-- Steps that leave the device alone and take `aborts` in hand. -/
structure Prepares (ok : NativeStack → StepLabel → Prop) (s : NativeStack)
    (aborts : List PendingNotification) (s' : NativeStack) : Prop where
  path : Path ok s s'
  device : s'.device = s.device
  inHand : s'.history.inHand = s.history.inHand ++ aborts

namespace Prepares

theorem refl (s : NativeStack) : Prepares ok s [] s := ⟨.refl s, rfl, by simp⟩

theorem of_eq (h : s' = s) : Prepares ok s [] s' := by
  subst h
  exact .refl _

theorem trans {s t u : NativeStack} {aborts aborts' : List PendingNotification}
    (h : Prepares ok s aborts t) (h' : Prepares ok t aborts' u) :
    Prepares ok s (aborts ++ aborts') u :=
  ⟨h.path.trans h'.path, h'.device.trans h.device, by rw [h'.inHand, h.inHand, List.append_assoc]⟩

theorem andThen {s t u : NativeStack} (h : Prepares ok s aborts t) (h' : Prepares ok t [] u) :
    Prepares ok s aborts u := by
  simpa using h.trans h'

theorem mono {ok' : NativeStack → StepLabel → Prop} (hok : ∀ t label, ok t label → ok' t label)
    (h : Prepares ok s aborts s') :
    Prepares ok' s aborts s' := ⟨h.path.mono hok, h.device, h.inHand⟩

theorem sound (h : Prepares ok s aborts s') (hs : s.Sound) : s'.Sound := h.path.sound hs

/-- One step that leaves alone the device and the waiters in hand. -/
theorem step {label : StepLabel} (h : Step s label s') (hok : ok s label) (hdevice : s'.device = s.device)
    (hinHand : s'.history.inHand = s.history.inHand) :
    Prepares ok s [] s' := ⟨.single h hok, hdevice, by simpa using hinHand⟩

end Prepares

theorem Maintains.prepares (h : Maintains s s') (hs : s.Sound) :
    Prepares Gentle s [] s' := ⟨h.path.path, h.device, by simpa using (h.path.keeps hs).inHand⟩

/-! ## Calls that fail -/

/-- What a failed call leaves alone: the sockets and their buffers, every table, the device and the
notifications.  Counters, the identity counters and the next ephemeral ports may have moved. -/
structure Unaffected (s s' : NativeStack) : Prop where
  socketTable : s'.socketTable = s.socketTable
  sockets : s'.sockets = s.sockets
  tcpRecords : s'.tcpRecords = s.tcpRecords
  tcpListeners : s'.tcpListeners = s.tcpListeners
  tcpConnections : s'.tcpConnections = s.tcpConnections
  udpRecords : s'.udpRecords = s.udpRecords
  closingTcp : s'.closingTcp = s.closingTcp
  closingDeadlines : s'.closingDeadlines = s.closingDeadlines
  device : s'.device = s.device
  ready : s'.ready = s.ready
  pendingNotifications : s'.pendingNotifications = s.pendingNotifications

theorem Unaffected.refl (s : NativeStack) : Unaffected s s :=
  ⟨rfl, rfl, rfl, rfl, rfl, rfl, rfl, rfl, rfl, rfl, rfl⟩

/-- A call that has failed. -/
structure Fails (s s' : NativeStack) : Prop where
  prepares : Prepares Gentle s [] s'
  unaffected : Unaffected s s'

theorem Fails.refl (s : NativeStack) : Fails s s := ⟨.refl s, .refl s⟩

theorem Fails.of_eq (h : s' = s) : Fails s s' := by
  subst h
  exact .refl _

/-! ## Close deadlines -/

theorem instantCmp_le {a b : Instant × Nat} (h : (instantCmp a b).isLE = true) : a.1 ≤ b.1 := by
  unfold instantCmp compareLex at h
  rw [Ordering.isLE_then_iff_and] at h
  exact Std.isLE_compare.1 h.1

/-- The next deadline of a smaller set of deadlines is no earlier. -/
theorem nextCloseDeadline_le {s t : NativeStack}
    (hsub : ∀ entry, entry ∈ t.closingDeadlines → entry ∈ s.closingDeadlines) {deadline : Instant}
    (h : t.nextCloseDeadline = some deadline) :
    ∃ earlier, s.nextCloseDeadline = some earlier ∧ earlier ≤ deadline := by
  obtain ⟨entry, hentry, rfl⟩ := Option.map_eq_some_iff.1 h
  rw [← ExtTreeSet.min?_eq_head?_toList] at hentry
  have hmem := hsub entry (ExtTreeSet.min?_mem hentry)
  cases hmin : s.closingDeadlines.min? with
  | none =>
      rw [ExtTreeSet.min?_eq_none_iff] at hmin
      simp [hmin] at hmem
  | some least =>
      refine ⟨least.1, ?_, instantCmp_le ?_⟩
      · rw [nextCloseDeadline, ← ExtTreeSet.min?_eq_head?_toList, hmin]
        rfl
      exact (ExtTreeSet.min?_eq_some_iff_mem_and_forall.1 hmin).2 entry hmem

/-! ## What calls amount to -/

/-- The envelope announces the work that `s` is left with. -/
structure EnvelopeAnnounces (s : NativeStack) (envelope : Envelope) : Prop where
  work : s.workRemains = true → envelope.more = true
  deadline : envelope.more = false → ∀ deadline, s.nextCloseDeadline = some deadline →
    ∃ pollAt, envelope.pollAt = some pollAt ∧ pollAt ≤ totalMillis deadline

/-- No readiness work is left. -/
structure Settled (s : NativeStack) : Prop where
  pendingNotifications : s.pendingNotifications = []
  overflow : s.ready.overflow = false
  ready : s.ready.entries.isEmpty = true
  readySweepPending : s.readySweepPending = []
  readySweep : s.readySweep = false

theorem readinessLeft_settled {more : Bool} (h : (s.readinessLeft more).1 = false) :
    (s.readinessLeft more).2.Settled := by
  unfold readinessLeft readyPending at h ⊢
  split at h
  · cases h
  · rename_i hquiet
    simp only [Bool.or_eq_true, not_or, Bool.not_eq_true, Bool.not_eq_false',
      List.isEmpty_iff] at hquiet
    by_cases hoverflow : s.ready.overflow = true
    · simp [hoverflow] at h
    · simp only [hoverflow, Bool.false_eq_true, if_false, Bool.or_eq_false_iff, Bool.not_eq_false',
        List.isEmpty_iff] at h
      rw [if_neg (by simp [hquiet])]
      simp only [hoverflow, Bool.false_eq_true, if_false]
      exact ⟨hquiet.2, Bool.not_eq_true _ ▸ hoverflow, h.1.1.2, h.1.2, h.2⟩

/-- A call that asks for no continuation has settled all readiness work. -/
theorem finish_settled {result : Reply} (h : (finish result effects aborts s).1.more = false) :
    (finish result effects aborts s).2.Settled := by
  have hleft : ((deliverReadiness aborts s).2.readinessLeft effects.more).2.Settled :=
    readinessLeft_settled h
  unfold finish
  dsimp only
  split <;> exact ⟨hleft.1, hleft.2, hleft.3, hleft.4, hleft.5⟩

/-- A call that has driven the stack, with `input` for smoltcp. -/
structure Delivers (ok : NativeStack → StepLabel → Prop) (s : NativeStack) (input : List Packet)
    (envelope : Envelope) (s' : NativeStack) : Prop where
  path : Path ok s s'
  inHand : s'.history.inHand = []
  span : Span (s.device.beginCall s.limits.outputPackets) input envelope.output s'.device
  settled : envelope.more = false → s'.Settled

/-- A call that has driven the stack and announces the work it leaves. -/
structure Driven (ok : NativeStack → StepLabel → Prop) (s : NativeStack) (input : List Packet)
    (envelope : Envelope) (s' : NativeStack) : Prop extends Delivers ok s input envelope s' where
  announces : EnvelopeAnnounces s' envelope

theorem Driven.mono {ok' : NativeStack → StepLabel → Prop} (hok : ∀ t label, ok t label → ok' t label)
    {input : List Packet} {envelope : Envelope} (h : Driven ok s input envelope s') :
    Driven ok' s input envelope s' := ⟨⟨h.path.mono hok, h.inHand, h.span, h.settled⟩, h.announces⟩

/-- A call that has not driven the stack. -/
structure Undriven (s : NativeStack) (envelope : Envelope) (s' : NativeStack) : Prop where
  path : Path Gentle s s'
  inHand : s'.history.inHand = []
  device : s'.device = s.device
  output : envelope.output = []
  settled : envelope.more = false → s'.Settled

theorem finish_more {result : Reply} (h : effects.more = true) :
    (finish result effects aborts s).1.more = true := by
  simp [finish, readinessLeft, h]

/-- Finishing keeps what the effects announced. -/
theorem Announces.finish (h : Announces s effects) (result : Reply) (aborts : List PendingNotification) :
    EnvelopeAnnounces (finish result effects aborts s).2 (finish result effects aborts s).1 := by
  have hkept := undisturbed_finish result effects aborts s
  refine ⟨fun hwork => finish_more (h.work ?_), fun hmore deadline hdeadline => ?_⟩
  · unfold workRemains at hwork ⊢
    rw [hkept.device, hkept.closingCleanupPending, hkept.listenerScanPending] at hwork
    exact hwork
  · unfold nextCloseDeadline at hdeadline
    rw [hkept.closingDeadlines] at hdeadline
    refine h.deadline (Bool.eq_false_iff.2 fun heffects => ?_) deadline hdeadline
    rw [finish_more heffects] at hmore
    cases hmore

/-- The step that ends a call. -/
theorem Prepares.finishes {t : NativeStack} (h : Prepares ok s aborts t) (hin : s.history.inHand = [])
    (hok : ∀ u, ok u .silent) (result : Reply) (effects : Effects) :
    Path ok s (finish result effects aborts t).2 ∧
      (finish result effects aborts t).2.history.inHand = [] ∧
      (finish result effects aborts t).2.device = s.device := by
  have haborts : aborts = t.history.inHand := by simpa [hin] using h.inHand.symm
  have hkept := undisturbed_finish result effects aborts t
  exact ⟨h.path.step (.finish result effects haborts) (hok t), hkept.inHand,
    hkept.device.trans h.device⟩

theorem Prepares.undriven {t : NativeStack} (h : Prepares Gentle s [] t) (hin : s.history.inHand = [])
    (result : Reply) (houtput : effects.output = []) :
    Undriven s (finish result effects [] t).1 (finish result effects [] t).2 := by
  obtain ⟨hpath, hinHand, hdevice⟩ := h.finishes hin (fun _ => trivial) result effects
  exact ⟨hpath, hinHand, hdevice, houtput, finish_settled⟩

/-- A drive, what little a call does after it, and the end of the call. -/
theorem Prepares.delivers {t u v : NativeStack} {input : List Packet} (h : Prepares ok s aborts t)
    (hs : s.Sound) (hin : s.history.inHand = []) (hok : ∀ v label, Gentle v label → ok v label)
    (hdrive : Drives t input effects u) (hafter : Prepares ok u [] v) (result : Reply) :
    Delivers ok s input (finish result effects aborts v).1 (finish result effects aborts v).2 := by
  have haborts : aborts = v.history.inHand := by
    rw [hafter.inHand, (hdrive.path.keeps (h.sound hs)).inHand, h.inHand, hin]
    simp
  have hkept := undisturbed_finish result effects aborts v
  refine ⟨?_, hkept.inHand, ?_, finish_settled⟩
  · have hpath := (h.path.trans (hdrive.path.path.mono hok)).trans hafter.path
    exact hpath.step (.finish result effects haborts) (hok _ _ trivial)
  · have hspan := hdrive.span
    rw [h.device, h.path.limits, ← hafter.device] at hspan
    rw [hkept.device]
    exact hspan

theorem Prepares.driven {t u : NativeStack} {input : List Packet} (h : Prepares ok s aborts t) (hs : s.Sound)
    (hin : s.history.inHand = []) (hok : ∀ v label, Gentle v label → ok v label)
    (hdrive : Drives t input effects u) (result : Reply) :
    Driven ok s input (finish result effects aborts u).1 (finish result effects aborts u).2 :=
  ⟨h.delivers hs hin hok hdrive (.refl u) result, hdrive.announces.finish result aborts⟩

/-- What nearly every call ends with: a drive, and then `finish_call`. -/
theorem Prepares.drives {t : NativeStack} (h : Prepares ok s aborts t) (hs : s.Sound)
    (hin : s.history.inHand = []) (hok : ∀ v label, Gentle v label → ok v label) (now : Instant)
    (copied : Nat) (result : Reply) {E : ε → NativeStack → Prop} :
    wp (drive now copied : Op ε Effects)
      (fun effects u => Driven ok s [] (finish result effects aborts u).1
        (finish result effects aborts u).2) E t :=
  wp_mono (drive_spec (h.sound hs) now copied) (fun _ _ hu => h.driven hs hin hok hu result)
    fun _ _ h => h

end SmolNet.NativeStack
